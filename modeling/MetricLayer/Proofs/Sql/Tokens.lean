import MetricLayer.Proofs.Sql.Written

/-!
# How a database cuts a query

A reader of the text of a query, independent of how queries are written here. It knows where names
and texts are quoted, where unquoted words stand, and which marks are placeholders; every other
character stands for itself. Inside quotes, the closing quote written twice stands for itself.

`Runs` says what pieces of a query add to the tokens, from one kind of edge to another: a name or a
placeholder begins behind a blank or a parenthesis only, and something that cannot prolong it has to
follow.

Results:
1. `Runs.append`: what pieces add, they add one after the other.
2. `runs_name`, `runs_value`, `runs_word`: what each piece adds.
-/

namespace MetricLayer

/-! ## Tokens -/

/-- A part of a query's text that a database does not divide further. -/
inductive Token where
  /-- A quoted name. -/
  | name (s : String)
  /-- A quoted text. -/
  | text (s : String)
  | placeholder (n : Nat)
  | other (c : Char)
  deriving DecidableEq

namespace Token

/-- What is put in quotes. -/
inductive Quotation where
  | name
  | text
  deriving DecidableEq

namespace Quotation

/-- The quote at the end. -/
def close (d : Dialect) : Quotation → Char
  | name => d.closeQuote
  | text => '\''

/-- What stands between the quotes, the last character first, as a token. -/
def token (q : Quotation) (cs : List Char) : Token :=
  match q with
  | name => .name (String.ofList cs.reverse)
  | text => .text (String.ofList cs.reverse)

end Quotation

/-- The character that placeholders begin with. -/
def sigil : Dialect → Char
  | .tSql => '@'
  | _ => '$'

/-- What stands between that character and the number. -/
def afterSigil : Dialect → List Char
  | .tSql => ['p']
  | _ => []

/-- A character of unquoted words and of numbers. -/
def isWordChar (d : Dialect) (c : Char) : Bool := c.isAlphanum || c = '_' || c = sigil d

/-- What the reader is in the middle of. Characters so far are kept with the last one first. -/
inductive Mode where
  | between
  | word
  | quoted (q : Quotation) (cs : List Char)
  /-- Behind a closing quote, which could be the first of two. -/
  | closed (q : Quotation) (cs : List Char)
  /-- In front of the number of a placeholder, with what has to come before it. -/
  | mark (cs rest : List Char)
  | number (cs : List Char)
  deriving DecidableEq

/-- How far the reader has come: the tokens so far, the last one first. -/
structure Scan where
  tokens : List Token := []
  mode : Mode := .between
  deriving DecidableEq

namespace Scan

/-- The tokens when nothing more comes, the last one first. -/
def finish (s : Scan) : List Token :=
  match s.mode with
  | .between | .word | .quoted _ _ => s.tokens
  | .closed q cs => q.token cs :: s.tokens
  | .mark cs _ => cs.map .other ++ s.tokens
  | .number cs => .placeholder (Decimal.ofDigits cs.reverse) :: s.tokens

/-- The reader behind a character that nothing is going on in front of. -/
def enter (d : Dialect) (tokens : List Token) (c : Char) : Scan :=
  if c = d.openQuote then ⟨tokens, .quoted .name []⟩
  else if c = '\'' then ⟨tokens, .quoted .text []⟩
  else if c = sigil d then ⟨tokens, .mark [c] (afterSigil d)⟩
  else ⟨.other c :: tokens, if isWordChar d c then .word else .between⟩

/-- The reader behind one more character. -/
def next (d : Dialect) (s : Scan) (c : Char) : Scan :=
  match s.mode with
  | .between => enter d s.tokens c
  | .word => if isWordChar d c then ⟨.other c :: s.tokens, .word⟩ else enter d s.tokens c
  | .quoted q cs =>
    if c = q.close d then ⟨s.tokens, .closed q cs⟩ else ⟨s.tokens, .quoted q (c :: cs)⟩
  | .closed q cs =>
    if c = q.close d then ⟨s.tokens, .quoted q (c :: cs)⟩ else enter d s.finish c
  | .mark cs (x :: rest) =>
    if c = x then ⟨s.tokens, .mark (c :: cs) rest⟩ else enter d s.finish c
  | .mark _ [] => if c.isDigit then ⟨s.tokens, .number [c]⟩ else enter d s.finish c
  | .number cs => if c.isDigit then ⟨s.tokens, .number (c :: cs)⟩ else enter d s.finish c

end Scan

/-- The reader behind the characters. -/
def scan (d : Dialect) (s : Scan) (cs : List Char) : Scan := cs.foldl (Scan.next d) s

/-- The tokens of a text, if no quotes are left open. -/
def ofText? (d : Dialect) (text : String) : Option (List Token) :=
  let s := scan d {} text.toList
  match s.mode with
  | .quoted _ _ => none
  | _ => some s.finish.reverse

/-- The names among the tokens. -/
def names (ts : List Token) : List String := ts.filterMap fun | name s => some s | _ => none

/-- The texts among the tokens. -/
def texts (ts : List Token) : List String := ts.filterMap fun | text s => some s | _ => none

/-- The numbers of the placeholders among the tokens. -/
def placeholders (ts : List Token) : List Nat :=
  ts.filterMap fun | placeholder n => some n | _ => none

theorem names_reverse (ts : List Token) : names ts.reverse = (names ts).reverse :=
  List.filterMap_reverse

theorem placeholders_reverse (ts : List Token) :
    placeholders ts.reverse = (placeholders ts).reverse :=
  List.filterMap_reverse

theorem texts_reverse (ts : List Token) : texts ts.reverse = (texts ts).reverse :=
  List.filterMap_reverse

variable {d : Dialect}

theorem scan_append (s : Scan) (a b : List Char) : scan d s (a ++ b) = scan d (scan d s a) b :=
  List.foldl_append

theorem scan_cons (s : Scan) (c : Char) (cs : List Char) :
    scan d s (c :: cs) = scan d (s.next d c) cs := rfl

/-! ## Edges -/

/-- A character that ends what is in front of it, whatever that is, and that anything may follow. -/
def isBreak (d : Dialect) (c : Char) : Bool :=
  !isWordChar d c && c ≠ d.openQuote && c ≠ d.closeQuote && c ≠ '\''

/-- A character that stands for itself in an unquoted text. -/
def isPlain (d : Dialect) (c : Char) : Bool := c ≠ d.openQuote && c ≠ '\'' && c ≠ sigil d

theorem isPlain_of_isBreak {c : Char} (h : isBreak d c = true) : isPlain d c = true := by
  unfold isBreak isWordChar at h
  unfold isPlain
  grind

theorem isPlain_of_isDigit {c : Char} (h : c.isDigit = true) : isPlain d c = true := by
  have hne : ∀ x : Char, x.isDigit = false → c ≠ x := fun x hx hc => by
    rw [hc, hx] at h
    cases h
  have hopen : d.openQuote.isDigit = false := by cases d <;> rfl
  have hsigil : (sigil d).isDigit = false := by cases d <;> rfl
  simp [isPlain, hne _ hopen, hne _ hsigil, hne '\'' rfl]

/-- No quotes are open and no placeholder has been begun without its number. -/
def Scan.Settled (s : Scan) : Prop :=
  match s.mode with
  | .quoted _ _ | .mark _ _ => False
  | _ => True

theorem Scan.Settled.ofText? {text : String} (h : (scan d {} text.toList).Settled) :
    ofText? d text = some (scan d {} text.toList).finish.reverse := by
  unfold Token.ofText?
  generalize scan d {} text.toList = s at h ⊢
  obtain ⟨ts, mode⟩ := s
  cases mode with
  | quoted q cs => exact h.elim
  | mark cs rest => exact h.elim
  | between | word | closed q cs | number cs => rfl

/-- What stands at the end of a text. -/
inductive Edge where
  /-- Something that ends there, so that anything may follow. -/
  | fresh
  /-- Something that a further character might prolong. -/
  | settled
  deriving DecidableEq

/-- The reader is at such an edge. -/
def Edge.Holds : Edge → Scan → Prop
  | fresh, s => s.mode = .between
  | settled, s => s.Settled

theorem Edge.Holds.settled {a : Edge} {s : Scan} (h : a.Holds s) : s.Settled := by
  cases a with
  | fresh => simp only [Scan.Settled, show s.mode = .between from h]
  | settled => exact h

theorem enter_plain (ts : List Token) {c : Char} (h : isPlain d c = true) :
    Scan.enter d ts c = ⟨.other c :: ts, if isWordChar d c then .word else .between⟩ := by
  simp only [isPlain, Bool.and_eq_true, decide_eq_true_eq] at h
  rw [Scan.enter, if_neg h.1.1, if_neg h.1.2, if_neg h.2]

/-- Behind a settled edge, a break ends what is there. -/
theorem Scan.Settled.next {s : Scan} (h : s.Settled) {c : Char} (hc : isBreak d c = true) :
    s.next d c = ⟨.other c :: s.finish, .between⟩ := by
  have hplain := isPlain_of_isBreak hc
  simp only [isBreak, Bool.and_eq_true, Bool.not_eq_true', decide_eq_true_eq] at hc
  obtain ⟨⟨⟨hword, -⟩, hclose⟩, hquote⟩ := hc
  have hdigit : c.isDigit = false := by
    simp only [isWordChar, Char.isAlphanum, Bool.or_eq_false_iff] at hword
    exact hword.1.1.2
  have henter : ∀ ts, Scan.enter d ts c = ⟨.other c :: ts, .between⟩ := fun ts => by
    rw [enter_plain ts hplain, hword]
    rfl
  obtain ⟨ts, mode⟩ := s
  cases mode with
  | between => exact henter ts
  | word => simp [Scan.next, Scan.finish, hword, henter]
  | quoted q cs => exact h.elim
  | closed q cs =>
    have hne : c ≠ q.close d := by cases q <;> assumption
    simp [Scan.next, hne, henter]
  | mark cs rest => exact h.elim
  | number cs => simp [Scan.next, hdigit, henter]

/-- Nothing is going on but an unquoted word. -/
def Scan.Loose (s : Scan) : Prop := s.mode = .between ∨ s.mode = .word

theorem Scan.Loose.settled {s : Scan} (h : s.Loose) : s.Settled := by
  rcases h with h | h <;> simp only [Scan.Settled, h]

theorem Scan.Loose.finish {s : Scan} (h : s.Loose) : s.finish = s.tokens := by
  rcases h with h | h <;> simp only [Scan.finish, h]

/-- Outside quotes, a plain character stands for itself. -/
theorem Scan.Loose.next {s : Scan} (hs : s.Loose) {c : Char} (h : isPlain d c = true) :
    s.next d c = ⟨.other c :: s.tokens, if isWordChar d c then .word else .between⟩ := by
  obtain ⟨ts, mode⟩ := s
  rcases hs with hs | hs
  · obtain rfl : mode = .between := hs
    exact enter_plain ts h
  · obtain rfl : mode = .word := hs
    simp only [Scan.next, enter_plain ts h]
    split <;> rfl

/-- Plain characters stand for themselves, and a break at their end ends the last word. -/
theorem Scan.Loose.scan {s : Scan} (hs : s.Loose) {cs : List Char}
    (h : cs.all (isPlain d) = true) : (scan d s cs).Loose ∧
      (scan d s cs).tokens = cs.reverse.map .other ++ s.tokens ∧
        (cs.getLast?.any (isBreak d) = true → (scan d s cs).mode = .between) := by
  induction cs generalizing s with
  | nil => exact ⟨hs, rfl, fun h => nomatch h⟩
  | cons c cs ih =>
    obtain ⟨hc, hcs⟩ := Bool.and_eq_true_iff.mp h
    have hloose : (s.next d c).Loose := by
      rw [hs.next hc]
      by_cases hword : isWordChar d c
      · exact .inr (if_pos hword)
      · exact .inl (if_neg hword)
    obtain ⟨hmode, htokens, hlast⟩ := ih hloose hcs
    refine ⟨hmode, ?_, fun hbreak => ?_⟩
    · rw [scan_cons, htokens, hs.next hc]
      simp
    · cases cs with
      | nil =>
        have hword : isWordChar d c = false := by
          simp only [List.getLast?_singleton, Option.any_some, isBreak, Bool.and_eq_true,
            Bool.not_eq_true'] at hbreak
          exact hbreak.1.1.1
        rw [scan_cons, hs.next hc, hword]
        rfl
      | cons x cs => exact hlast (by rwa [List.getLast?_cons_cons] at hbreak)

/-! ## Runs -/

/-- The characters of the pieces, the first value having the number `n`. -/
def spelling (d : Dialect) (n : Nat) (ps : List Piece) : List Char :=
  (Piece.texts d n ps).flatMap String.toList

/-- What is new in `after` is these names and placeholders, and no text but the escape sign. -/
structure Adds (ns : List String) (marks : List Nat) (before after : List Token) : Prop where
  names : names after = ns.reverse ++ names before
  placeholders : placeholders after = marks.reverse ++ placeholders before
  texts : ∀ s ∈ texts after, s ∈ texts before ∨ s = String.ofList [Expr.likeEscape]

theorem Adds.trans {ns ns' : List String} {marks marks' : List Nat} {a b c : List Token}
    (h : Adds ns marks a b) (h' : Adds ns' marks' b c) :
    Adds (ns ++ ns') (marks ++ marks') a c where
  names := by rw [h'.names, h.names, List.reverse_append, List.append_assoc]
  placeholders := by rw [h'.placeholders, h.placeholders, List.reverse_append, List.append_assoc]
  texts s hs := (h'.texts s hs).elim (h.texts s) .inr

theorem Adds.others (cs : List Char) (ts : List Token) : Adds [] [] ts (cs.map .other ++ ts) where
  names := by simp [Token.names, List.filterMap_append, List.filterMap_map]
  placeholders := by
    simp [Token.placeholders, List.filterMap_append, List.filterMap_map]
  texts s hs := by
    simp only [Token.texts, List.filterMap_append, List.filterMap_map, Function.comp_def,
      List.filterMap_none, List.nil_append] at hs
    exact .inl hs

/-- From an edge of the kind `a`, the pieces add their names and placeholders, and the reader comes
to an edge of the kind `b`. -/
def Runs (d : Dialect) (a : Edge) (ps : List Piece) (b : Edge) : Prop :=
  ∀ n s, a.Holds s → b.Holds (scan d s (spelling d n ps)) ∧
    Adds (Piece.names ps) (List.range' n (Piece.values ps).length) s.finish
      (scan d s (spelling d n ps)).finish

theorem names_append (ps qs : List Piece) :
    Piece.names (ps ++ qs) = Piece.names ps ++ Piece.names qs := by
  induction ps with
  | nil => rfl
  | cons p ps ih => cases p <;> simp [Piece.names, ih]

theorem texts_append (n : Nat) (ps qs : List Piece) : Piece.texts d n (ps ++ qs) =
    Piece.texts d n ps ++ Piece.texts d (n + (Piece.values ps).length) qs := by
  induction ps generalizing n with
  | nil => rfl
  | cons p ps ih =>
    cases p with
    | word s => simp [Piece.texts, Piece.values, ih]
    | name s => simp [Piece.texts, Piece.values, ih]
    | value v => simp [Piece.texts, Piece.values, ih, Nat.add_assoc, Nat.add_comm 1]

theorem spelling_append (n : Nat) (ps qs : List Piece) : spelling d n (ps ++ qs) =
    spelling d n ps ++ spelling d (n + (Piece.values ps).length) qs := by
  rw [spelling, texts_append, List.flatMap_append]
  rfl

namespace Runs

variable {a b c : Edge} {ps qs : List Piece}

/-- What pieces add, they add one after the other. -/
theorem append (h : Runs d a ps b) (h' : Runs d b qs c) : Runs d a (ps ++ qs) c := by
  intro n s hs
  obtain ⟨hb, hadds⟩ := h n s hs
  obtain ⟨hc, hadds'⟩ := h' (n + (Piece.values ps).length) _ hb
  rw [spelling_append, scan_append, names_append, Piece.values_append, List.length_append,
    ← List.range'_append_1]
  exact ⟨hc, hadds.trans hadds'⟩

theorem nil : Runs d a [] a := fun _ _ hs => ⟨hs, rfl, rfl, fun _ => .inl⟩

/-- A word is read like its parts. -/
theorem joinWord {v w : String} (h : Runs d a [.word v] b) (h' : Runs d b [.word w] c) :
    Runs d a [.word (v ++ w)] c := by
  intro n s hs
  have hspelling : spelling d n [.word (v ++ w)] = spelling d n ([.word v] ++ [.word w]) := by
    simp [spelling, Piece.texts, Piece.text]
  rw [hspelling]
  exact h.append h' n s hs

/-- An edge where anything may follow is settled. -/
theorem settled (h : Runs d a ps b) : Runs d a ps .settled :=
  fun n s hs => ⟨(h n s hs).1.settled, (h n s hs).2⟩

end Runs

/-! ## Pieces -/

/-- The word can stand between edges of these kinds: its characters are plain, behind a settled edge
it begins with a break, and in front of a fresh one it ends with a break. -/
def fits (d : Dialect) (a : Edge) (cs : List Char) (b : Edge) : Bool :=
  cs.all (isPlain d) && (a == .fresh || cs.head?.any (isBreak d)) &&
    (b == .settled || cs.getLast?.any (isBreak d))

/-- A word is read as characters that stand for themselves. -/
theorem scan_fits {a b : Edge} {s : Scan} (hs : a.Holds s) {cs : List Char}
    (h : fits d a cs b = true) : b.Holds (scan d s cs) ∧
      (scan d s cs).finish = cs.reverse.map .other ++ s.finish := by
  simp only [fits, Bool.and_eq_true, Bool.or_eq_true, beq_iff_eq] at h
  obtain ⟨⟨hplain, hfirst⟩, hlast⟩ := h
  have hscan : (scan d s cs).Loose ∧ (scan d s cs).tokens = cs.reverse.map .other ++ s.finish ∧
      (cs.getLast?.any (isBreak d) = true → (scan d s cs).mode = .between) := by
    rcases hfirst with rfl | hfirst
    · have hloose : s.Loose := .inl hs
      rw [hloose.finish]
      exact hloose.scan hplain
    · cases cs with
      | nil => cases hfirst
      | cons c cs =>
        have hnext := hs.settled.next (d := d) hfirst
        have hloose : (s.next d c).Loose := by rw [hnext]; exact .inl rfl
        obtain ⟨hmode, htokens, hend⟩ := hloose.scan (Bool.and_eq_true_iff.mp hplain).2
        refine ⟨hmode, ?_, fun hbreak => ?_⟩
        · rw [scan_cons, htokens, hnext]
          simp
        · cases cs with
          | nil => rw [scan_cons, hnext]; rfl
          | cons x cs => exact hend (by rwa [List.getLast?_cons_cons] at hbreak)
  obtain ⟨hloose, htokens, hend⟩ := hscan
  refine ⟨?_, by rw [hloose.finish, htokens]⟩
  cases b with
  | fresh => exact hend (hlast.resolve_left nofun)
  | settled => exact hloose.settled

/-- A word adds nothing. -/
theorem runs_word {a b : Edge} {w : String} (h : fits d a w.toList b = true) :
    Runs d a [.word w] b := by
  intro n s hs
  obtain ⟨hedge, hfinish⟩ := scan_fits hs h
  rw [show spelling d n [.word w] = w.toList from List.append_nil _]
  exact ⟨hedge, hfinish ▸ .others _ _⟩

/-- A quoted name is read up to its closing quote. -/
theorem scan_quoted (ts : List Token) (cs name : List Char) :
    scan d ⟨ts, .quoted .name cs⟩ (Dialect.doubled d.closeQuote name) =
      ⟨ts, .quoted .name (name.reverse ++ cs)⟩ := by
  induction name generalizing cs with
  | nil => rfl
  | cons c name ih =>
    have hfirst : scan d ⟨ts, .quoted .name cs⟩ (if c = d.closeQuote then [c, c] else [c]) =
        ⟨ts, .quoted .name (c :: cs)⟩ := by
      split
      · next h => simp [scan, Scan.next, Quotation.close, h]
      · next h => simp [scan, Scan.next, Quotation.close, h]
    have hrest := ih (c :: cs)
    rw [Dialect.doubled] at hrest
    rw [Dialect.doubled, List.flatMap_cons, scan_append, hfirst, hrest]
    simp

/-- A name adds itself, whatever characters it has. -/
theorem runs_name (name : String) : Runs d .fresh [.name name] .settled := by
  intro n s hs
  obtain ⟨ts, mode⟩ := s
  obtain rfl : mode = .between := hs
  have hopen : Scan.next d ⟨ts, .between⟩ d.openQuote = ⟨ts, .quoted .name []⟩ := by
    cases d <;> rfl
  have hclose : ∀ cs, Scan.next d ⟨ts, .quoted .name cs⟩ d.closeQuote = ⟨ts, .closed .name cs⟩ :=
    fun cs => if_pos rfl
  have hscan : scan d ⟨ts, .between⟩ (spelling d n [.name name]) =
      ⟨ts, .closed .name name.toList.reverse⟩ := by
    rw [show spelling d n [.name name] = (d.quote name).toList from List.append_nil _,
      Dialect.quote, String.toList_ofList, List.cons_append, scan_cons, hopen, scan_append,
      scan_quoted, scan_cons, hclose, List.append_nil]
    rfl
  rw [hscan]
  have hfinish : Scan.finish ⟨ts, .closed .name name.toList.reverse⟩ = .name name :: ts := by
    simp [Scan.finish, Quotation.token]
  exact ⟨trivial, hfinish ▸ ⟨rfl, rfl, fun _ => .inl⟩⟩

theorem scan_number (ts : List Token) (read : List Char) {cs : List Char}
    (h : ∀ c ∈ cs, c.isDigit = true) :
    scan d ⟨ts, .number read⟩ cs = ⟨ts, .number (cs.reverse ++ read)⟩ := by
  induction cs generalizing read with
  | nil => rfl
  | cons c cs ih =>
    have hc : Scan.next d ⟨ts, .number read⟩ c = ⟨ts, .number (c :: read)⟩ :=
      if_pos (h c List.mem_cons_self)
    rw [scan_cons, hc, ih _ fun x hx => h x (List.mem_cons_of_mem _ hx)]
    simp

/-- A value adds its placeholder. -/
theorem runs_value (v : Literal) : Runs d .fresh [.value v] .settled := by
  intro n s hs
  obtain ⟨ts, mode⟩ := s
  obtain rfl : mode = .between := hs
  have hplaceholder : (d.placeholder n).toList =
      sigil d :: afterSigil d ++ Nat.toDigits 10 n := by
    cases d <;> simp [Dialect.placeholder, sigil, afterSigil, Nat.toString_eq_repr, Nat.toList_repr]
  have hsigil : scan d ⟨ts, .between⟩ (sigil d :: afterSigil d) =
      ⟨ts, .mark (sigil d :: afterSigil d).reverse []⟩ := by
    cases d <;> rfl
  obtain ⟨c, cs, hdigits⟩ := List.exists_cons_of_ne_nil (Nat.toDigits_ne_nil (b := 10) (n := n))
  have hall : ∀ x ∈ c :: cs, x.isDigit = true :=
    fun x hx => Nat.isDigit_of_mem_toDigits (by decide) (by decide) (hdigits ▸ hx)
  have hfirst : ∀ seen, Scan.next d ⟨ts, .mark seen []⟩ c = ⟨ts, .number [c]⟩ :=
    fun seen => if_pos (hall c List.mem_cons_self)
  have hscan : scan d ⟨ts, .between⟩ (spelling d n [.value v]) =
      ⟨ts, .number (Nat.toDigits 10 n).reverse⟩ := by
    rw [show spelling d n [.value v] = (d.placeholder n).toList from List.append_nil _,
      hplaceholder, scan_append, hsigil, hdigits, scan_cons, hfirst,
      scan_number ts [c] fun x hx => hall x (List.mem_cons_of_mem _ hx)]
    simp
  have hnumber : Decimal.ofDigits (Nat.toDigits 10 n) = n := by
    rw [Decimal.ofDigits_eq]
    simp
  have hfinish : Scan.finish ⟨ts, .number (Nat.toDigits 10 n).reverse⟩ = .placeholder n :: ts := by
    simp [Scan.finish, hnumber]
  rw [hscan]
  exact ⟨trivial, hfinish ▸ ⟨rfl, rfl, fun _ => .inl⟩⟩

end Token

end MetricLayer
