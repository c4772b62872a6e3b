import Mathlib.Data.List.Infix
import MetricLayer.Proofs.Basic
import MetricLayer.Translation.Condition

/-!
# What patterns match

A database reads a pattern element by element. A percent sign stands for any text, an underscore
for any one character, and the escape makes the character behind it stand for itself. Some databases
know classes as well: a bracket opens one, the next closing bracket ends it, and it stands for any
one of its members. Which characters these are, with ranges and carets, is up to the database.

The pattern of a piece of text escapes all that is special without classes, so there it matches the
piece itself. A bracket is not escaped. Where classes are known, each class takes two brackets of
the piece and stands for one character, so a pattern with a class that matches anything at all
matches a text that is shorter than the piece.

Results:
1. `LikePattern.accepts_ofText`: where no bracket of the piece opens a class, the texts that the
   pattern of an operator matches are those in which the operator finds the piece.
2. `LikePattern.accepts_ofText_iff`: where classes are known, this is so for exactly the pieces
   without an opening bracket, whatever the members of classes are.
-/

namespace MetricLayer

/-- The piece stands in the text where the operator looks for it. -/
def Operator.Finds (op : Operator) (piece text : String) : Prop :=
  match op with
  | .startsWith => piece.toList <+: text.toList
  | .endsWith => piece.toList <:+ text.toList
  | _ => piece.toList <:+: text.toList

/-- A piece stands in itself. -/
theorem Operator.finds_self (op : Operator) (piece : String) : op.Finds piece piece := by
  unfold Finds
  split
  · exact List.prefix_refl _
  · exact List.suffix_refl _
  · exact List.infix_refl _

theorem Operator.Finds.length_le {op : Operator} {piece text : String} (h : op.Finds piece text) :
    piece.toList.length ≤ text.toList.length := by
  unfold Finds at h
  split at h
  · exact h.length_le
  · exact h.length_le
  · exact h.length_le

namespace LikePattern

/-! ## Matching -/

/-- An element of a pattern: any text, or one character of a set. -/
inductive Element where
  | anything
  | one (set : Char → Bool)

/-- The character itself. -/
def Element.char (c : Char) : Element := .one (· == c)

/-- How a database matches patterns. -/
structure Matching where
  escape : Char
  /-- The members of a class by its content, if the database knows classes. -/
  members? : Option (List Char → Char → Bool)

/-- Where a reader of a pattern is; the content of a class is kept from its end. -/
inductive Place where
  | outside
  | escaped
  | inClass (content : List Char)
  | escapedInClass (content : List Char)

/-- The elements of a pattern, if there is a character behind every escape and every class has an
end. -/
def Matching.elements? (m : Matching) : Place → List Char → Option (List Element)
  | .outside, [] => some []
  | .outside, c :: cs =>
    if c = m.escape then m.elements? .escaped cs
    else if c = '%' then (m.elements? .outside cs).map (.anything :: ·)
    else if c = '_' then (m.elements? .outside cs).map (.one (fun _ => true) :: ·)
    else if c = '[' ∧ m.members?.isSome then m.elements? (.inClass []) cs
    else (m.elements? .outside cs).map (.char c :: ·)
  | .escaped, c :: cs => (m.elements? .outside cs).map (.char c :: ·)
  | .inClass content, c :: cs =>
    if c = m.escape then m.elements? (.escapedInClass (c :: content)) cs
    else if c = ']' then
      (m.elements? .outside cs).map fun es =>
        .one (fun d => m.members?.any fun members => members content.reverse d) :: es
    else m.elements? (.inClass (c :: content)) cs
  | .escapedInClass content, c :: cs => m.elements? (.inClass (c :: content)) cs
  | .escaped, [] | .inClass _, [] | .escapedInClass _, [] => none

/-- The elements stand for the characters. -/
def covers : List Element → List Char → Bool
  | [], cs => cs.isEmpty
  | .anything :: es, cs => cs.tails.any (covers es)
  | .one _ :: _, [] => false
  | .one set :: es, c :: cs => set c && covers es cs

/-- The pattern matches the text. -/
def Matching.accepts (m : Matching) (pattern text : String) : Bool :=
  (m.elements? .outside pattern.toList).any (covers · text.toList)

theorem Matching.accepts_iff {m : Matching} {pattern text : String} :
    m.accepts pattern text = true ↔
      ∃ es, m.elements? .outside pattern.toList = some es ∧ covers es text.toList = true := by
  rw [accepts]
  cases m.elements? .outside pattern.toList <;> simp

theorem covers_anything {es : List Element} {cs : List Char} :
    covers (.anything :: es) cs = true ↔
      ∃ before after, cs = before ++ after ∧ covers es after = true := by
  rw [covers, List.any_eq_true]
  constructor
  · rintro ⟨after, hafter, h⟩
    obtain ⟨before, rfl⟩ := (List.mem_tails _ _).mp hafter
    exact ⟨before, after, rfl, h⟩
  · rintro ⟨before, after, rfl, h⟩
    exact ⟨after, (List.mem_tails _ _).mpr (List.suffix_append before after), h⟩

/-- Characters stand for themselves. -/
theorem covers_chars {cs : List Char} {es : List Element} {text : List Char} :
    covers (cs.map .char ++ es) text = true ↔
      ∃ rest, text = cs ++ rest ∧ covers es rest = true := by
  induction cs generalizing text with
  | nil => simp
  | cons c cs ih =>
    rw [List.map_cons, List.cons_append, Element.char]
    cases text with
    | nil => simp [covers]
    | cons d text =>
      rw [covers, Bool.and_eq_true, beq_iff_eq, ih]
      constructor
      · rintro ⟨rfl, rest, rfl, h⟩
        exact ⟨rest, rfl, h⟩
      · rintro ⟨rest, heq, h⟩
        obtain ⟨rfl, rfl⟩ := List.cons.inj heq
        exact ⟨rfl, rest, rfl, h⟩

/-! ## Room around a piece -/

/-- Room for any text in a pattern, if there is any. -/
def gap (room : Bool) : List Char := if room then ['%'] else []

def gapElements (room : Bool) : List Element := if room then [.anything] else []

/-- Where the operator leaves room: before the piece and behind it. -/
def roomBefore (op : Operator) : Bool := op != .startsWith

def roomBehind (op : Operator) : Bool := op != .endsWith

theorem ofText_toList (op : Operator) (piece : String) : (ofText op piece).toList =
    gap (roomBefore op) ++ (literal piece.toList ++ gap (roomBehind op)) := by
  cases op <;> simp [ofText, gap, roomBefore, roomBehind]

theorem finds_iff {op : Operator} {piece text : String} : op.Finds piece text ↔
    ∃ before behind, text.toList = before ++ (piece.toList ++ behind) ∧
      (roomBefore op = false → before = []) ∧ (roomBehind op = false → behind = []) := by
  unfold Operator.Finds
  split
  · simp [roomBefore, roomBehind, List.prefix_iff_exists_eq_append]
  · simp [roomBefore, roomBehind, List.suffix_iff_exists_eq_append]
  · next hstart hend =>
    have hbefore : roomBefore op = true := bne_iff_ne.mpr hstart
    have hbehind : roomBehind op = true := bne_iff_ne.mpr hend
    simp only [hbefore, hbehind, Bool.true_eq_false, false_imp_iff, and_true]
    exact ⟨fun ⟨before, behind, h⟩ => ⟨before, behind, by rw [← h, List.append_assoc]⟩,
      fun ⟨before, behind, h⟩ => ⟨before, behind, by rw [h, List.append_assoc]⟩⟩

theorem covers_gapElements_append {room : Bool} {es : List Element} {cs : List Char} :
    covers (gapElements room ++ es) cs = true ↔
      ∃ before behind, cs = before ++ behind ∧ (room = false → before = []) ∧
        covers es behind = true := by
  cases room with
  | true => simp [gapElements, covers_anything]
  | false => simp [gapElements]

theorem covers_gapElements {room : Bool} {cs : List Char} :
    covers (gapElements room) cs = true ↔ (room = false → cs = []) := by
  cases room with
  | true => simp [gapElements, covers]
  | false => simp [gapElements, covers]

/-! ## Pieces of text -/

variable {m : Matching} {cs : List Char}

theorem literal_cons (c : Char) (cs : List Char) :
    literal (c :: cs) = (if isSpecial c then [Expr.likeEscape, c] else [c]) ++ literal cs := rfl

theorem elements?_gap_append (hescape : m.escape = Expr.likeEscape) (room : Bool)
    (rest : List Char) : m.elements? .outside (gap room ++ rest) =
      (m.elements? .outside rest).map (gapElements room ++ ·) := by
  have hpercent : ('%' : Char) ≠ m.escape := by
    rw [hescape]
    decide
  cases room with
  | true => simp [gap, gapElements, Matching.elements?, hpercent]
  | false => simp [gap, gapElements]

theorem elements?_gap (hescape : m.escape = Expr.likeEscape) (room : Bool) :
    m.elements? .outside (gap room) = some (gapElements room) := by
  have h := elements?_gap_append hescape room []
  rwa [List.append_nil, Matching.elements?, Option.map_some, List.append_nil] at h

/-- Outside of classes a character of the piece is read as itself, unless it opens a class. -/
theorem elements?_outside_cons (hescape : m.escape = Expr.likeEscape) (c : Char)
    (cs rest : List Char) : m.elements? .outside (literal (c :: cs) ++ rest) =
      if c = '[' ∧ m.members?.isSome then m.elements? (.inClass []) (literal cs ++ rest)
      else (m.elements? .outside (literal cs ++ rest)).map (.char c :: ·) := by
  rw [literal_cons]
  split
  · next hspecial =>
    have hbracket : c ≠ '[' := by
      rintro rfl
      exact absurd hspecial (by decide)
    simp [Matching.elements?, hescape, hbracket]
  · next hplain =>
    simp only [isSpecial, Bool.or_eq_true, decide_eq_true_eq, not_or] at hplain
    simp [Matching.elements?, hescape, hplain]

/-- In a class a character of the piece belongs to the class, unless it ends it. -/
theorem elements?_inClass_cons (hescape : m.escape = Expr.likeEscape) (content : List Char)
    (c : Char) (cs rest : List Char) : ∃ set content',
      m.elements? (.inClass content) (literal (c :: cs) ++ rest) =
        if c = ']' then (m.elements? .outside (literal cs ++ rest)).map (.one set :: ·)
        else m.elements? (.inClass content') (literal cs ++ rest) := by
  rw [literal_cons]
  split
  · next hspecial =>
    have hbracket : c ≠ ']' := by
      rintro rfl
      exact absurd hspecial (by decide)
    refine ⟨fun _ => true, c :: Expr.likeEscape :: content, ?_⟩
    simp [Matching.elements?, hescape, hbracket]
  · next hplain =>
    simp only [isSpecial, Bool.or_eq_true, decide_eq_true_eq, not_or] at hplain
    refine ⟨fun d => m.members?.any fun members => members content.reverse d, c :: content, ?_⟩
    simp [Matching.elements?, hescape, hplain]

/-- Where no bracket opens a class, all of the piece is read as itself. -/
theorem elements?_literal (hescape : m.escape = Expr.likeEscape)
    (hclasses : m.members? = none ∨ '[' ∉ cs) (rest : List Char) :
    m.elements? .outside (literal cs ++ rest) =
      (m.elements? .outside rest).map (cs.map .char ++ ·) := by
  induction cs with
  | nil => simp [literal]
  | cons c cs ih =>
    have hbracket : ¬(c = '[' ∧ m.members?.isSome) := by
      rintro ⟨rfl, hsome⟩
      rcases hclasses with hnone | hnotMem
      · rw [hnone] at hsome
        cases hsome
      · exact hnotMem List.mem_cons_self
    rw [elements?_outside_cons hescape, if_neg hbracket,
      ih (hclasses.imp_right fun hnotMem hmem => hnotMem (List.mem_cons_of_mem c hmem)),
      Option.map_map]
    rfl

/-- Where no bracket of the piece opens a class, its pattern matches the texts in which the operator
finds the piece. -/
theorem accepts_ofText (hescape : m.escape = Expr.likeEscape) (op : Operator) {piece : String}
    (hclasses : m.members? = none ∨ '[' ∉ piece.toList) (text : String) :
    m.accepts (ofText op piece) text = true ↔ op.Finds piece text := by
  have helements : m.elements? .outside (ofText op piece).toList =
      some (gapElements (roomBefore op) ++
        (piece.toList.map .char ++ gapElements (roomBehind op))) := by
    rw [ofText_toList, elements?_gap_append hescape, elements?_literal hescape hclasses,
      elements?_gap hescape]
    rfl
  rw [Matching.accepts, helements, finds_iff]
  simp only [Option.any_some, covers_gapElements_append, covers_chars, covers_gapElements]
  constructor
  · rintro ⟨before, _, htext, hbefore, behind, rfl, hbehind⟩
    exact ⟨before, behind, htext, hbefore, hbehind⟩
  · rintro ⟨before, behind, htext, hbefore, hbehind⟩
    exact ⟨before, _, htext, hbefore, behind, rfl, hbehind⟩

/-! ## Classes in pieces of text -/

/-- The number of characters that the elements ask for. -/
def size : List Element → Nat
  | [] => 0
  | .anything :: es => size es
  | .one _ :: es => size es + 1

/-- Elements that stand for some text stand for one with no more characters than they ask for. -/
theorem exists_covers_size {es : List Element} {cs : List Char} (h : covers es cs = true) :
    ∃ cs', cs'.length = size es ∧ covers es cs' = true := by
  induction es generalizing cs with
  | nil => exact ⟨[], rfl, rfl⟩
  | cons e es ih =>
    cases e with
    | anything =>
      obtain ⟨_, behind, _, hbehind⟩ := covers_anything.mp h
      obtain ⟨cs', hlength, hcovers⟩ := ih hbehind
      exact ⟨cs', hlength, covers_anything.mpr ⟨[], cs', rfl, hcovers⟩⟩
    | one set =>
      cases cs with
      | nil => cases h
      | cons c cs =>
        rw [covers, Bool.and_eq_true] at h
        obtain ⟨cs', hlength, hcovers⟩ := ih h.2
        exact ⟨c :: cs', by rw [List.length_cons, hlength, size],
          by rw [covers, h.1, hcovers, Bool.and_self]⟩

theorem size_gapElements_append (room : Bool) (es : List Element) :
    size (gapElements room ++ es) = size es := by
  cases room <;> rfl

theorem size_gapElements (room : Bool) : size (gapElements room) = 0 := by
  cases room <;> rfl

/-- A piece asks for no more characters than it has, and for fewer if a bracket opens a class. -/
theorem size_le (hescape : m.escape = Expr.likeEscape) (cs : List Char) (room : Bool) :
    (∀ es, m.elements? .outside (literal cs ++ gap room) = some es →
      size es ≤ cs.length ∧ (m.members?.isSome → '[' ∈ cs → size es < cs.length)) ∧
    (∀ content es, m.elements? (.inClass content) (literal cs ++ gap room) = some es →
      size es ≤ cs.length) := by
  -- A class that is open asks for at most one character, and only once it is closed.
  induction cs with
  | nil =>
    refine ⟨fun es h => ?_, fun content es h => ?_⟩
    · rw [literal, List.flatMap_nil, List.nil_append, elements?_gap hescape] at h
      obtain rfl := Option.some.inj h
      exact ⟨(size_gapElements room).le, fun _ hmem => absurd hmem List.not_mem_nil⟩
    · cases room <;> simp [literal, gap, Matching.elements?, hescape] at h
  | cons c cs ih =>
    obtain ⟨outside, inClass⟩ := ih
    refine ⟨fun es h => ?_, fun content es h => ?_⟩
    · rw [elements?_outside_cons hescape] at h
      split at h
      · have := inClass [] es h
        rw [List.length_cons]
        exact ⟨by omega, fun _ _ => by omega⟩
      · next hplain =>
        obtain ⟨es', h', rfl⟩ := Option.map_eq_some_iff.mp h
        obtain ⟨hle, hlt⟩ := outside es' h'
        simp only [Element.char, size, List.length_cons]
        refine ⟨by omega, fun hsome hmem => ?_⟩
        have hbracket : '[' ∈ cs := by
          rcases List.mem_cons.mp hmem with rfl | hmem
          · exact absurd ⟨rfl, hsome⟩ hplain
          · exact hmem
        have := hlt hsome hbracket
        omega
    · obtain ⟨set, content', hread⟩ :=
        elements?_inClass_cons hescape content c cs (gap room)
      rw [hread] at h
      rw [List.length_cons]
      split at h
      · obtain ⟨es', h', rfl⟩ := Option.map_eq_some_iff.mp h
        have := (outside es' h').1
        simp only [size]
        omega
      · have := inClass content' es h
        omega

/-- Where classes are known, the pattern of a piece matches the texts in which the operator finds
the piece just if there is no opening bracket in it, whatever the members of classes are. -/
theorem accepts_ofText_iff (hescape : m.escape = Expr.likeEscape) (hclasses : m.members?.isSome)
    (op : Operator) {piece : String} :
    (∀ text, m.accepts (ofText op piece) text = true ↔ op.Finds piece text) ↔
      '[' ∉ piece.toList := by
  refine ⟨fun h hmem => ?_, fun h => accepts_ofText hescape op (.inr h)⟩
  -- If the piece itself is matched, then so is a text that is too short for the piece to stand in.
  obtain ⟨es, hes, hcovers⟩ := Matching.accepts_iff.mp ((h piece).mpr (op.finds_self piece))
  obtain ⟨cs, hlength, hcs⟩ := exists_covers_size hcovers
  have hfinds : op.Finds piece (String.ofList cs) :=
    (h _).mp (Matching.accepts_iff.mpr ⟨es, hes, by rwa [String.toList_ofList]⟩)
  have hsize : size es < piece.toList.length := by
    rw [ofText_toList, elements?_gap_append hescape] at hes
    obtain ⟨es', hes', rfl⟩ := Option.map_eq_some_iff.mp hes
    rw [size_gapElements_append]
    exact ((size_le hescape _ _).1 es' hes').2 hclasses hmem
  have hle := hfinds.length_le
  rw [String.toList_ofList, hlength] at hle
  omega

/-- The member of a class is matched in place of the class. -/
example : (Matching.mk '!' (some fun content c => content.contains c)).accepts
    (ofText .contains "[a]") "a" = true := by decide

end LikePattern
end MetricLayer
