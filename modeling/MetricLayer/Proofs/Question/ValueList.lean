import MetricLayer.Proofs.Pattern.Scan
import MetricLayer.Proofs.Text.Words
import MetricLayer.Question.Condition

/-!
# Lists of values

The values of a condition are separated by commas and by the word "or", with or without blanks. When
the values are taken out of the text, it is cut at these separators wherever they stand.
`ValueList.cut` cuts a text without looking for matches: it goes through the characters and asks of
each one whether a comma or the word begins there.

Whether the letters "or" are a word depends on the characters around them. So texts are joined where
no word goes across, which is what `ValueList.Loose` says.

Results:
1. `ValueList.run_separator`: what a separator takes.
2. `ValueList.cut_append`: a text is cut as its parts are, if no word goes across them.
3. `ValueList.map_trimChars_piecesBetween`: the pieces between the separators are those of `cut`, up
   to blanks at their ends.
4. `ValueList.cut_piece`: no piece is cut once more.
-/

namespace MetricLayer

namespace Text

/-- The letters of "or" are matched by letters only. -/
theorem isWordChar_of_sameFolded {x c : Char} (hx : x = 'o' ∨ x = 'r')
    (h : sameFolded x c = true) : isWordChar c = true := by
  -- a shift that ends at one of the two letters begins at a word character
  obtain ⟨hself, hword, hpos, hshifts⟩ : fold x = x ∧ isWordChar x = true ∧ x.toNat ≠ 0 ∧
      ∀ s ∈ foldShifts, (s.first : Int) ≤ x.toNat - s.distance ∧ x.toNat - s.distance ≤ s.last →
        isWordChar (Char.ofNat (x.toNat - s.distance).toNat) = true := by
    rcases hx with rfl | rfl <;> decide +kernel
  have hfold : Shift.apply c foldShifts = x := by
    rw [← hself]
    exact (beq_iff_eq.mp h).symm
  rcases eq_or_shift c foldShifts with hsame | ⟨s, hs, hfirst, hlast, hmoved⟩
  · rwa [← hsame, hfold]
  · rw [hfold] at hmoved
    have hmove := toNat_of_ofNat hmoved.symm hpos
    have hback : (x.toNat - s.distance).toNat = c.toNat := by omega
    have hchar := hshifts s hs (by omega)
    rwa [hback, c.ofNat_toNat] at hchar

end Text

/-- A word character stands in front of the place. -/
def Cursor.wordBefore (c : Cursor) : Bool := c.before.any Text.isWordChar

namespace ValueList

variable {word : Bool} {c d : Char} {u w x sep after : List Char}

/-! ## Words at the ends of a text -/

/-- The text begins with a word character. -/
def beginsWord (cs : List Char) : Bool := cs.head?.any Text.isWordChar

/-- The text ends with a word character; `word` tells whether one stands in front of it. -/
def endsWord (word : Bool) : List Char → Bool
  | [] => word
  | c :: cs => endsWord (Text.isWordChar c) cs

theorem endsWord_append (word : Bool) (u w : List Char) :
    endsWord word (u ++ w) = endsWord (endsWord word u) w := by
  induction u generalizing word with
  | nil => rfl
  | cons c u ih => exact ih _

theorem wordBefore_of_passes {c c' : Cursor} (h : c.Passes u c') :
    c'.wordBefore = endsWord c.wordBefore u := by
  induction u generalizing c with
  | nil => rw [h.skip]; rfl
  | cons x u ih =>
    have hrest : c.rest = x :: (u ++ c'.rest) := h.rest
    have hnext : Cursor.Passes ⟨c.offset + 1, some x, u ++ c'.rest⟩ u c' :=
      ⟨rfl, h.skip.trans (Cursor.skip_succ hrest _)⟩
    exact ih hnext

/-- No word goes across the place between the two texts. -/
def Loose (word : Bool) (u x : List Char) : Prop := endsWord word u = true → beginsWord x = false

/-! ## Separators -/

/-- The text is a comma, or the word "or" by itself; `word` tells whether a word character stands in
front of it, and `after` is the text behind it. -/
inductive Divides (word : Bool) : List Char → List Char → Prop
  | comma {after : List Char} : Divides word [','] after
  | or {o r : Char} {after : List Char} (ho : Text.sameFolded 'o' o = true)
      (hr : Text.sameFolded 'r' r = true) (hbefore : word = false)
      (hafter : beginsWord after = false) : Divides word [o, r] after

theorem Divides.length_pos (h : Divides word sep after) : 0 < sep.length := by
  cases h <;> simp

theorem not_isWordChar_of_isBlank {c : Char} (h : Text.isBlank c = true) :
    Text.isWordChar c = false :=
  Text.of_isBlank (P := fun c => Text.isWordChar c = false) (by decide +kernel) h

open Pattern

theorem takes_many_char {greedy : Bool} {p : Char → Bool} (h : (many greedy (char p)).Takes u) :
    ∀ c ∈ u, p c = true := by
  obtain ⟨vs, rfl, hvs⟩ := h
  intro c hc
  obtain ⟨v, hv, hc⟩ := List.mem_flatten.mp hc
  obtain ⟨y, rfl, hy⟩ := hvs v hv
  exact List.mem_singleton.mp hc ▸ hy

theorem atEdge_eq (c : Cursor) : c.atEdge = (c.wordBefore != beginsWord c.rest) := rfl

theorem word_or :
    Pattern.word "or" = seq (char (Text.sameFolded 'o')) (char (Text.sameFolded 'r')) := rfl

theorem takes_or (h : (Pattern.word "or").Takes u) : ∃ o r, u = [o, r] ∧
    Text.sameFolded 'o' o = true ∧ Text.sameFolded 'r' r = true := by
  rw [word_or] at h
  obtain ⟨_, _, rfl, ⟨o, rfl, ho⟩, r, rfl, hr⟩ := h
  exact ⟨o, r, rfl, ho, hr⟩

theorem run_edge_iff {α : Type} {c : Cursor} {g : Groups} {k : Cursor → Groups → Option α} {r : α} :
    edge.run c g k = some r ↔ c.atEdge = true ∧ k c g = some r := by
  rw [run]
  split <;> simp_all

theorem run_or_eq {α : Type} {c : Cursor} {g : Groups} {k : Cursor → Groups → Option α} :
    (all [edge, Pattern.word "or", edge]).run c g k = edge.run c g fun c g =>
      (Pattern.word "or").run c g fun c g => edge.run c g k := rfl

/-- The word "or" between two edges of words stands by itself. -/
theorem run_or {α : Type} {c : Cursor} {g : Groups} {k : Cursor → Groups → Option α} {r : α}
    (h : (all [edge, Pattern.word "or", edge]).run c g k = some r) : ∃ sep c' g',
      c.Passes sep c' ∧ Divides c.wordBefore sep c'.rest ∧ k c' g' = some r := by
  obtain ⟨hedge, h⟩ := run_edge_iff.mp (run_or_eq ▸ h)
  obtain ⟨sep, c', g', hsep, htake, h⟩ := run_passes h
  obtain ⟨hedge', h⟩ := run_edge_iff.mp h
  obtain ⟨o, r, rfl, ho, hr⟩ := takes_or htake
  have hoWord := Text.isWordChar_of_sameFolded (.inl rfl) ho
  have hrWord := Text.isWordChar_of_sameFolded (.inr rfl) hr
  rw [atEdge_eq, hsep.rest] at hedge
  rw [atEdge_eq, wordBefore_of_passes hsep] at hedge'
  refine ⟨_, c', g', hsep, .or ho hr ?_ ?_, h⟩
  · simpa [beginsWord, hoWord] using hedge
  · simpa [endsWord, hrWord] using hedge'

/-- What a separator takes: blanks, a comma or the word "or", and blanks. -/
theorem run_separator {α : Type} {c : Cursor} {g : Groups} {k : Cursor → Groups → Option α} {r : α}
    (h : Phrase.valueSeparator.run c g k = some r) : ∃ lead sep trail c' g',
      c.Passes (lead ++ sep ++ trail) c' ∧ (∀ c ∈ lead, Text.isBlank c = true) ∧
      Divides (endsWord c.wordBefore lead) sep (trail ++ c'.rest) ∧
      (∀ c ∈ trail, Text.isBlank c = true) ∧ k c' g' = some r := by
  obtain ⟨lead, c₁, g₁, hlead, hblank, h⟩ := run_passes (p := blanks) h
  obtain ⟨sep, c₂, g₂, hsep, hdivides, h⟩ : ∃ sep c₂ g₂, c₁.Passes sep c₂ ∧
      Divides c₁.wordBefore sep c₂.rest ∧ blanks.run c₂ g₂ k = some r := by
    rcases Option.or_eq_some_iff.mp h with h | ⟨-, h⟩
    · obtain ⟨_, c₂, g₂, hsep, ⟨x, rfl, hx⟩, h⟩ := run_passes (p := exactly ",") h
      obtain rfl := beq_iff_eq.mp hx
      exact ⟨_, c₂, g₂, hsep, .comma, h⟩
    · exact run_or h
  obtain ⟨trail, c', g', htrail, hblank', h⟩ := run_passes h
  rw [wordBefore_of_passes hlead, htrail.rest] at hdivides
  exact ⟨lead, sep, trail, c', g', (hlead.trans hsep).trans htrail, takes_many_char hblank,
    hdivides, takes_many_char hblank', h⟩

theorem run_char {α : Type} {p : Char → Bool} {c : Cursor} {g : Groups}
    {k : Cursor → Groups → Option α} {x : Char} {xs : List Char} (hrest : c.rest = x :: xs)
    (hx : p x = true) : (char p).run c g k = k ⟨c.offset + 1, some x, xs⟩ g := by
  simp only [run, hrest, hx, if_true]

/-- No turn has to be taken. -/
theorem isSome_turns {α : Type} {greedy : Bool} {a : Pattern} {c : Cursor} {g : Groups}
    {k : Cursor → Groups → Option α} (h : (k c g).isSome) (fuel : Nat) :
    (turns greedy a.run fuel c g k).isSome := by
  cases fuel with
  | zero => exact h
  | succ fuel =>
    rw [turns]
    split <;> simp [Option.isSome_or, h]

/-- Where a separator stands, it is found. -/
theorem isSome_run_separator {α : Type} {c : Cursor} {g : Groups} {k : Cursor → Groups → Option α}
    (hk : ∀ c g, (k c g).isSome) (hrest : c.rest = sep ++ after)
    (h : Divides c.wordBefore sep after) : (Phrase.valueSeparator.run c g k).isSome := by
  refine isSome_turns (Option.isSome_or.trans (Bool.or_eq_true_iff.mpr ?_)) _
  cases h with
  | comma =>
    refine .inl ?_
    have hcomma : (exactly ",").run c g (fun c g => blanks.run c g k) =
        blanks.run ⟨c.offset + 1, some ',', after⟩ g k :=
      run_char (p := (· == ',')) hrest rfl
    exact hcomma ▸ isSome_turns (hk _ _) _
  | @or o r _ ho hr hbefore hafter =>
    refine .inr ?_
    have hoWord := Text.isWordChar_of_sameFolded (.inl rfl) ho
    have hrWord := Text.isWordChar_of_sameFolded (.inr rfl) hr
    have hblanks : (blanks.run ⟨c.offset + 1 + 1, some r, after⟩ g k).isSome :=
      isSome_turns (hk _ _) _
    obtain ⟨t, ht⟩ := Option.isSome_iff_exists.mp hblanks
    have hbehind : edge.run ⟨c.offset + 1 + 1, some r, after⟩ g
        (fun c g => blanks.run c g k) = some t := by
      refine run_edge_iff.mpr ⟨?_, ht⟩
      simp [atEdge_eq, Cursor.wordBefore, hrWord, hafter]
    have hword : (Pattern.word "or").run c g
        (fun c g => edge.run c g fun c g => blanks.run c g k) = some t := by
      rw [word_or, run, run_char hrest ho, run_char rfl hr]
      exact hbehind
    refine Option.isSome_iff_exists.mpr ⟨t, ?_⟩
    rw [run_or_eq]
    refine run_edge_iff.mpr ⟨?_, hword⟩
    simp [atEdge_eq, hbefore, hrest, beginsWord, hoWord]

/-! ## Cutting a text -/

/-- The text begins with the word "or"; `word` tells whether a word character stands in front. -/
def beginsOr (word : Bool) : List Char → Bool
  | o :: r :: after =>
    !word && Text.sameFolded 'o' o && Text.sameFolded 'r' r && !beginsWord after
  | _ => false

/-- The pieces of the text between the commas and the words "or". -/
def cut (word : Bool) : List Char → List (List Char)
  | [] => [[]]
  | c :: cs =>
    if c = ',' then [] :: cut false cs
    else if beginsOr word (c :: cs) then [] :: cut true cs.tail
    else (cut (Text.isWordChar c) cs).modifyHead (c :: ·)
termination_by cs => cs.length

theorem cut_ne_nil (word : Bool) (u : List Char) : cut word u ≠ [] := by
  fun_induction cut word u with
  | case1 | case2 | case3 => simp
  | case4 word c cs _ _ ih => simpa using ih

theorem isWordChar_comma : Text.isWordChar ',' = false := by decide +kernel

theorem beginsOr_iff : beginsOr word u = true ↔ ∃ o r after, u = o :: r :: after ∧
    Text.sameFolded 'o' o = true ∧ Text.sameFolded 'r' r = true ∧ word = false ∧
      beginsWord after = false := by
  unfold beginsOr
  split
  · simp only [Bool.and_eq_true, Bool.not_eq_true', List.cons.injEq]
    constructor
    · rintro ⟨⟨⟨hword, ho⟩, hr⟩, hafter⟩
      exact ⟨_, _, _, ⟨rfl, rfl, rfl⟩, ho, hr, hword, hafter⟩
    · rintro ⟨_, _, _, ⟨rfl, rfl, rfl⟩, ho, hr, hword, hafter⟩
      exact ⟨⟨⟨hword, ho⟩, hr⟩, hafter⟩
  · next hshort =>
    refine iff_of_false (by simp) ?_
    rintro ⟨o, r, after, rfl, -⟩
    exact hshort o r after rfl

/-- At a separator the text is cut. -/
theorem cut_divides (h : Divides word sep after) :
    cut word (sep ++ after) = [] :: cut (endsWord word sep) after := by
  cases h with
  | comma =>
    rw [List.singleton_append, cut, if_pos rfl, endsWord, isWordChar_comma]
    rfl
  | @or o r _ ho hr hbefore hafter =>
    have hoWord := Text.isWordChar_of_sameFolded (.inl rfl) ho
    have hrWord := Text.isWordChar_of_sameFolded (.inr rfl) hr
    have hcomma : o ≠ ',' := fun heq => by simp [heq, isWordChar_comma] at hoWord
    have hor : beginsOr word (o :: r :: after) = true :=
      beginsOr_iff.mpr ⟨o, r, after, rfl, ho, hr, hbefore, hafter⟩
    show cut word (o :: r :: after) = _
    rw [cut, if_neg hcomma, if_pos hor, endsWord, endsWord, hrWord]
    rfl

/-- Whether a text begins with the word does not depend on what stands behind it, if no word goes
across. -/
theorem beginsOr_append (h : Loose word u x) (hne : u ≠ []) :
    beginsOr word (u ++ x) = beginsOr word u := by
  match u with
  | [] => exact absurd rfl hne
  | [c] =>
    refine Bool.eq_false_iff.mpr fun hor => ?_
    obtain ⟨o, r, after, hsplit, ho, hr, -⟩ := beginsOr_iff.mp hor
    obtain ⟨rfl, rfl⟩ := List.cons.inj hsplit
    have hnone := h (Text.isWordChar_of_sameFolded (.inl rfl) ho)
    simp [beginsWord, Text.isWordChar_of_sameFolded (.inr rfl) hr] at hnone
  | [c, d] =>
    show beginsOr word (c :: d :: x) = _
    cases hr : Text.sameFolded 'r' d with
    | false => simp [beginsOr, hr]
    | true =>
      have hnone := h (Text.isWordChar_of_sameFolded (.inr rfl) hr)
      simp only [beginsOr, hnone]
      rfl
  | c :: d :: e :: u => rfl

/-- The pieces of two texts, one behind the other: the last piece of the one and the first piece of
the other become one. -/
def glue : List (List Char) → List (List Char) → List (List Char)
  | [], qs => qs
  | [p], qs => qs.modifyHead (p ++ ·)
  | p :: p' :: ps, qs => p :: glue (p' :: ps) qs

theorem glue_cons {p : List Char} {ps qs : List (List Char)} (hne : ps ≠ []) :
    glue (p :: ps) qs = p :: glue ps qs := by
  cases ps with
  | nil => exact absurd rfl hne
  | cons p' ps => rfl

theorem glue_modifyHead {ps qs : List (List Char)} (hne : ps ≠ []) :
    glue (ps.modifyHead (c :: ·)) qs = (glue ps qs).modifyHead (c :: ·) := by
  match ps with
  | [] => exact absurd rfl hne
  | [p] => cases qs <;> rfl
  | p :: p' :: ps => rfl

/-- A text is cut as its parts are, if no word goes across them. -/
theorem cut_append (h : Loose word u x) :
    cut word (u ++ x) = glue (cut word u) (cut (endsWord word u) x) := by
  fun_induction cut word u with
  | case1 word =>
    show cut word x = (cut word x).modifyHead ([] ++ ·)
    cases cut word x <;> rfl
  | case2 word cs ih =>
    have hcs : Loose false cs x := by
      rw [Loose, endsWord, isWordChar_comma] at h
      exact h
    rw [List.cons_append, cut, if_pos rfl, ih hcs, glue_cons (cut_ne_nil _ _), endsWord,
      isWordChar_comma]
  | case3 word c cs hcomma hor ih =>
    obtain ⟨o, r, after, hsplit, -, hr, -⟩ := beginsOr_iff.mp hor
    obtain ⟨rfl, rfl⟩ := List.cons.inj hsplit
    have hrWord := Text.isWordChar_of_sameFolded (.inr rfl) hr
    have hends : endsWord word (c :: r :: after) = endsWord true after := by
      rw [endsWord, endsWord, hrWord]
    have hafter : Loose true after x := by
      rw [Loose, hends] at h
      exact h
    have hor' : beginsOr word (c :: (r :: after ++ x)) = true :=
      (beginsOr_append h (by simp)).trans hor
    rw [List.cons_append, cut, if_neg hcomma, if_pos hor', hends, glue_cons (cut_ne_nil _ _)]
    exact congrArg _ (ih hafter)
  | case4 word c cs hcomma hor ih =>
    have hor' : ¬ beginsOr word (c :: (cs ++ x)) = true := fun hor' =>
      hor ((beginsOr_append h (by simp)).symm.trans hor')
    rw [List.cons_append, cut, if_neg hcomma, if_neg hor', ih h, glue_modifyHead (cut_ne_nil _ _)]
    rfl

/-- A text without separators is not cut. -/
theorem cut_eq_singleton (hfree : ∀ v sep after, u = v ++ (sep ++ after) →
    ¬ Divides (endsWord word v) sep after) : cut word u = [u] := by
  fun_induction cut word u with
  | case1 => rfl
  | case2 word cs ih => exact absurd .comma (hfree [] [','] cs rfl)
  | case3 word c cs hcomma hor ih =>
    obtain ⟨o, r, after, hsplit, ho, hr, hbefore, hafter⟩ := beginsOr_iff.mp hor
    exact absurd (.or ho hr hbefore hafter) (hfree [] [o, r] after hsplit)
  | case4 word c cs hcomma hor ih =>
    rw [ih fun v sep after hsplit => hfree (c :: v) sep after (by rw [hsplit]; rfl)]
    rfl

/-! ## Blanks and other quiet characters -/

/-- Neither a word nor a comma is in the text. -/
def IsQuiet (u : List Char) : Prop := ∀ c ∈ u, Text.isWordChar c = false ∧ c ≠ ','

theorem isQuiet_of_isBlank (h : ∀ c ∈ u, Text.isBlank c = true) : IsQuiet u := fun c hc =>
  ⟨not_isWordChar_of_isBlank (h c hc), fun heq => by
    have hcomma : Text.isBlank ',' = false := by decide
    rw [← heq, h c hc] at hcomma
    cases hcomma⟩

namespace IsQuiet

theorem beginsWord (h : IsQuiet u) : beginsWord u = false := by
  cases u with
  | nil => rfl
  | cons c u => exact (h c List.mem_cons_self).1

theorem endsWord (h : IsQuiet u) : endsWord false u = false := by
  induction u with
  | nil => rfl
  | cons c u ih =>
    rw [ValueList.endsWord, (h c List.mem_cons_self).1]
    exact ih fun d hd => h d (List.mem_cons_of_mem c hd)

theorem endsWord_of_ne_nil (h : IsQuiet u) (hne : u ≠ []) : ValueList.endsWord word u = false := by
  cases u with
  | nil => exact absurd rfl hne
  | cons c u =>
    have hquiet : ValueList.endsWord false (c :: u) = false := h.endsWord
    exact hquiet

theorem cut (h : IsQuiet u) : cut word u = [u] := by
  refine cut_eq_singleton fun v sep after hsplit hdivides => ?_
  cases hdivides with
  | comma => exact (h ',' (by simp [hsplit])).2 rfl
  | @or o r _ ho _ _ _ =>
    have hquiet := (h o (by simp [hsplit])).1
    rw [Text.isWordChar_of_sameFolded (.inl rfl) ho] at hquiet
    cases hquiet

end IsQuiet

namespace Divides

/-- What stands behind the text that is known already does not matter, if no word goes across. -/
theorem append (h : Divides word sep after) (hloose : Loose (endsWord word sep) after x) :
    Divides word sep (after ++ x) := by
  cases h with
  | comma => exact .comma
  | or ho hr hbefore hafter =>
    refine .or ho hr hbefore ?_
    cases after with
    | nil =>
      refine hloose ?_
      simp only [endsWord, Text.isWordChar_of_sameFolded (.inr rfl) hr]
    | cons c after => exact hafter

theorem of_append (h : Divides word sep (after ++ x)) : Divides word sep after := by
  cases h with
  | comma => exact .comma
  | or ho hr hbefore hafter =>
    refine .or ho hr hbefore ?_
    cases after with
    | nil => rfl
    | cons c after => exact hafter

/-- No word goes across the blanks in front of a separator. -/
theorem loose_front {lead : List Char} (hlead : ∀ c ∈ lead, Text.isBlank c = true)
    (h : Divides (endsWord word (u ++ lead)) sep after) :
    Loose word u (lead ++ (sep ++ after)) := by
  intro hends
  cases lead with
  | nil =>
    cases h with
    | comma => exact isWordChar_comma
    | or _ _ hbefore _ =>
      rw [List.append_nil, hends] at hbefore
      cases hbefore
  | cons c lead => exact not_isWordChar_of_isBlank (hlead c List.mem_cons_self)

/-- No word goes across the blanks behind a separator. -/
theorem loose_back {trail rest : List Char} (htrail : ∀ c ∈ trail, Text.isBlank c = true)
    (h : Divides word sep (trail ++ rest)) :
    Loose (endsWord word sep) trail rest := by
  intro hends
  cases trail with
  | nil =>
    cases h with
    | comma =>
      rw [endsWord, endsWord, endsWord, isWordChar_comma] at hends
      cases hends
    | or _ _ _ hafter => exact hafter
  | cons c trail =>
    rw [(isQuiet_of_isBlank htrail).endsWord_of_ne_nil (by simp)] at hends
    cases hends

end Divides

theorem glue_nil_cons {ps qs : List (List Char)} (hne : ps ≠ []) :
    glue ps ([] :: qs) = ps ++ qs := by
  induction ps with
  | nil => exact absurd rfl hne
  | cons p ps ih =>
    cases ps with
    | nil => simp [glue]
    | cons p' ps =>
      rw [glue_cons (by simp), ih (by simp)]
      rfl

theorem map_trimChars_glue_blanks {ps : List (List Char)} (hne : ps ≠ [])
    (hu : ∀ c ∈ u, Text.isBlank c = true) :
    (glue ps [u]).map Text.trimChars = ps.map Text.trimChars := by
  induction ps with
  | nil => exact absurd rfl hne
  | cons p ps ih =>
    cases ps with
    | nil =>
      have htrim : Text.trimChars ([] ++ p ++ u) = Text.trimChars p :=
        Text.trimChars_append (by simp) hu p
      simpa [glue] using htrim
    | cons p' ps =>
      rw [glue_cons (by simp), List.map_cons, ih (by simp)]
      rfl

theorem map_trimChars_blanks_glue {qs : List (List Char)}
    (hu : ∀ c ∈ u, Text.isBlank c = true) :
    (glue [u] qs).map Text.trimChars = qs.map Text.trimChars := by
  cases qs with
  | nil => rfl
  | cons q qs =>
    have htrim : Text.trimChars (u ++ q ++ []) = Text.trimChars q :=
      Text.trimChars_append hu (by simp) q
    simpa [glue] using htrim

/-- A separator and the blanks around it cut a text into what stands in front of them and what
stands behind them. -/
theorem map_trimChars_cut {lead trail rest : List Char}
    (hlead : ∀ c ∈ lead, Text.isBlank c = true) (htrail : ∀ c ∈ trail, Text.isBlank c = true)
    (h : Divides (endsWord word (u ++ lead)) sep (trail ++ rest)) :
    (cut word (u ++ (lead ++ sep ++ trail) ++ rest)).map Text.trimChars =
      (cut word u).map Text.trimChars ++
        (cut (endsWord word (u ++ (lead ++ sep ++ trail))) rest).map Text.trimChars := by
  have hfront : cut word (u ++ lead) = glue (cut word u) [lead] := by
    have hloose : Loose word u lead := fun _ => (isQuiet_of_isBlank hlead).beginsWord
    rw [cut_append hloose, (isQuiet_of_isBlank hlead).cut]
  have hback : cut (endsWord (endsWord word (u ++ lead)) sep) (trail ++ rest) =
      glue [trail] (cut (endsWord word (u ++ (lead ++ sep ++ trail))) rest) := by
    rw [cut_append (h.loose_back htrail), (isQuiet_of_isBlank htrail).cut]
    simp only [endsWord_append]
  have hloose : Loose word (u ++ lead) (sep ++ (trail ++ rest)) := by
    rw [← List.append_nil (u ++ lead)] at h
    have hfront : Loose word (u ++ lead) ([] ++ (sep ++ (trail ++ rest))) :=
      h.loose_front (by simp)
    exact hfront
  calc (cut word (u ++ (lead ++ sep ++ trail) ++ rest)).map Text.trimChars
      = (cut word ((u ++ lead) ++ (sep ++ (trail ++ rest)))).map Text.trimChars := by
        simp only [List.append_assoc]
    _ = (cut word (u ++ lead) ++ cut (endsWord (endsWord word (u ++ lead)) sep)
          (trail ++ rest)).map Text.trimChars := by
        rw [cut_append hloose, cut_divides h, glue_nil_cons (cut_ne_nil _ _)]
    _ = _ := by
        rw [List.map_append, hfront, hback, map_trimChars_glue_blanks (cut_ne_nil _ _) hlead,
          map_trimChars_blanks_glue htrail]

/-! ## The pieces that are taken out of a text -/

open Cursor (place)

variable {cs : List Char} {i j : Nat} {m : Match} {ms : List Match}

theorem passes_place (hij : i ≤ j) (hj : j ≤ cs.length) :
    (place cs i).Passes ((cs.drop i).take (j - i)) (place cs j) where
  rest := by
    rw [Cursor.rest_place, Cursor.rest_place, show j = i + (j - i) by omega, ← List.drop_drop,
      Nat.add_sub_cancel_left, List.take_append_drop]
  skip := by
    rw [Cursor.skip_place, List.length_take_of_le (by rw [List.length_drop]; omega),
      Nat.add_sub_cancel' hij]

/-- A separator is found where it stands. -/
theorem matchAt_ne_none {c : Cursor} (hrest : c.rest = sep ++ after)
    (h : Divides c.wordBefore sep after) : Phrase.valueSeparator.matchAt c ≠ none :=
  Option.isSome_iff_ne_none.mp (isSome_run_separator (fun _ _ => rfl) hrest h)

/-- Where the scan finds no separator, the text is not cut. -/
theorem cut_eq_singleton_of_scan (hij : i ≤ j) (hj : j ≤ cs.length)
    (hfree : ∀ k, i ≤ k → k < j → Phrase.valueSeparator.matchAt (place cs k) = none)
    (hloose : Loose (place cs i).wordBefore ((cs.drop i).take (j - i)) (cs.drop j)) :
    cut (place cs i).wordBefore ((cs.drop i).take (j - i)) = [(cs.drop i).take (j - i)] := by
  refine cut_eq_singleton fun v sep after hsplit hdivides => ?_
  have hrest := (passes_place hij hj).rest
  rw [hsplit, List.append_assoc, List.append_assoc] at hrest
  obtain ⟨hv, hbehind⟩ := Cursor.Passes.of_rest hrest
  rw [Cursor.skip_place] at hv hbehind
  -- in the whole text the separator is the same one
  have hwhole : Divides (place cs (i + v.length)).wordBefore sep
      (after ++ (place cs j).rest) := by
    rw [wordBefore_of_passes hv]
    refine hdivides.append fun hends => ?_
    rw [Cursor.rest_place]
    refine hloose ?_
    rw [hsplit, endsWord_append, endsWord_append]
    exact hends
  have hlength := congrArg List.length hsplit
  have hsep := hdivides.length_pos
  rw [List.length_take_of_le (by rw [List.length_drop]; omega)] at hlength
  simp only [List.length_append] at hlength
  exact matchAt_ne_none hbehind hwhole (hfree _ (by omega) (by omega))

/-- The pieces between the separators are those of the cut text, up to blanks at their ends. -/
theorem map_trimChars_piecesBetween (h : Phrase.valueSeparator.Scan cs i ms) (hi : i ≤ cs.length) :
    (Condition.piecesBetween cs i ms).map Text.trimChars =
      (cut (place cs i).wordBefore (cs.drop i)).map Text.trimChars := by
  induction h with
  | @done i hnone =>
    have hend : cs.drop cs.length = [] := List.drop_length
    have hall : (cs.drop i).take (cs.length - i) = cs.drop i :=
      List.take_of_length_le (by rw [List.length_drop])
    have hcut := cut_eq_singleton_of_scan hi (Nat.le_refl _)
      (fun k hik hk => hnone k hik (Nat.le_of_lt hk)) fun _ => by rw [hend]; rfl
    rw [hall] at hcut
    rw [hcut]
    rfl
  | @next i m ms hstart hfree hlt hle hmatch rest ih =>
    obtain ⟨lead, sep, trail, c', g', hpass, hlead, hdivides, htrail, hm⟩ := run_separator hmatch
    have hafter := (matchAt_place hmatch (by omega)).2.2.2.2
    obtain rfl : c' = place cs m.span.stop := by rw [← hafter, ← Option.some.inj hm]
    have hfront : (place cs i).Passes _ (place cs m.span.start) := passes_place hstart (by omega)
    rw [wordBefore_of_passes hfront, ← endsWord_append] at hdivides
    have hrest : cs.drop m.span.start =
        lead ++ (sep ++ (trail ++ (place cs m.span.stop).rest)) := by
      rw [← Cursor.rest_place, hpass.rest]
      simp only [List.append_assoc]
    have hcut := cut_eq_singleton_of_scan hstart (by omega) hfree
      (hrest ▸ Divides.loose_front hlead hdivides)
    have hwhole := (hfront.trans hpass).rest
    rw [Cursor.rest_place] at hwhole
    rw [hwhole, map_trimChars_cut hlead htrail hdivides, hcut,
      ← wordBefore_of_passes (hfront.trans hpass), Cursor.rest_place, ← ih hle]
    rfl

theorem length_piecesBetween (cs : List Char) (i : Nat) (ms : List Match) :
    (Condition.piecesBetween cs i ms).length = ms.length + 1 := by
  induction ms generalizing i with
  | nil => rfl
  | cons m ms ih => rw [Condition.piecesBetween, List.length_cons, ih, List.length_cons]

theorem scan_separators (cs : List Char) :
    Phrase.valueSeparator.Scan cs 0 (Phrase.valueSeparator.findAll cs) :=
  have hneeds : Phrase.valueSeparator.needsOther Text.blanks = true := by decide +kernel
  scan_findAll (takesSome_of_needsOther hneeds) cs

theorem map_trimChars_pieces (cs : List Char) :
    (Condition.piecesBetween cs 0 (Phrase.valueSeparator.findAll cs)).map Text.trimChars =
      (cut false cs).map Text.trimChars :=
  map_trimChars_piecesBetween (scan_separators cs) (Nat.zero_le _)

theorem length_cut (cs : List Char) :
    (cut false cs).length = (Phrase.valueSeparator.findAll cs).length + 1 := by
  have hlength := congrArg List.length (map_trimChars_pieces cs)
  rw [List.length_map, List.length_map, length_piecesBetween] at hlength
  exact hlength.symm

/-- A text is not cut if and only if no separator is found in it. -/
theorem find_eq_none_iff : Phrase.valueSeparator.find cs = none ↔ (cut false cs).length = 1 := by
  rw [length_cut]
  constructor
  · intro h
    rw [findAll_eq_nil h]
    rfl
  · intro h
    have hnil : Phrase.valueSeparator.findAll cs = [] := List.length_eq_zero_iff.mp (by omega)
    have hscan := scan_separators cs
    rw [hnil] at hscan
    refine Option.eq_none_iff_forall_ne_some.mpr fun m hm => ?_
    obtain ⟨hmatch, hle, hstop, -⟩ := find_spec hm
    cases hscan with
    | done hnone =>
      have hfree := hnone m.span.start (Nat.zero_le _) (by omega)
      rw [place, hmatch] at hfree
      cases hfree

theorem eq_singleton_of_length_cut (h : (cut word u).length = 1) : cut word u = [u] := by
  fun_induction cut word u with
  | case1 => rfl
  | case2 word cs ih | case3 word c cs hcomma hor ih =>
    rw [List.length_cons, Nat.add_eq_right, List.length_eq_zero_iff] at h
    exact absurd h (cut_ne_nil _ _)
  | case4 word c cs hcomma hor ih =>
    rw [List.length_modifyHead] at h
    rw [ih h]
    rfl

theorem length_glue {ps qs : List (List Char)} (hne : ps ≠ []) :
    (glue ps qs).length + 1 = ps.length + qs.length := by
  induction ps with
  | nil => exact absurd rfl hne
  | cons p ps ih =>
    cases ps with
    | nil => rw [glue, List.length_modifyHead, List.length_singleton, Nat.add_comm]
    | cons p' ps =>
      rw [glue_cons (by simp), List.length_cons, ih (by simp)]
      simp only [List.length_cons]
      omega

/-- Quiet characters at the ends of a text do not cut it. -/
theorem length_cut_quiet {before after : List Char} (hbefore : IsQuiet before)
    (hafter : IsQuiet after) (u : List Char) :
    (cut false (before ++ u ++ after)).length = (cut false u).length := by
  have hfront : Loose false before (u ++ after) := fun hends => by
    rw [hbefore.endsWord] at hends
    cases hends
  have hback : Loose false u after := fun _ => hafter.beginsWord
  rw [List.append_assoc, cut_append hfront, hbefore.cut, hbefore.endsWord, cut_append hback,
    hafter.cut]
  have hwhole : (glue [before] (glue (cut false u) [after])).length + 1 =
      1 + (glue (cut false u) [after]).length := length_glue (by simp)
  have hrest : (glue (cut false u) [after]).length + 1 = (cut false u).length + 1 :=
    length_glue (cut_ne_nil false u)
  omega

theorem cut_of_not_beginsWord (h : beginsWord u = false) : cut word u = cut false u := by
  cases u with
  | nil => rw [cut, cut]
  | cons c cs =>
    have hor (word : Bool) : ¬ beginsOr word (c :: cs) = true := fun hor => by
      obtain ⟨o, r, after, hsplit, ho, -⟩ := beginsOr_iff.mp hor
      obtain ⟨rfl, -⟩ := List.cons.inj hsplit
      simp [beginsWord, Text.isWordChar_of_sameFolded (.inl rfl) ho] at h
    rw [cut, cut, if_neg (hor word), if_neg (hor false)]

/-- No piece is cut once more. -/
theorem cut_piece {p : List Char} {ps : List (List Char)} (h : cut word u = p :: ps) :
    ∃ x, u = p ++ x ∧ Loose word p x ∧ cut word p = [p] ∧ ∀ q ∈ ps, cut false q = [q] := by
  fun_induction cut word u generalizing p ps with
  | case1 word =>
    obtain ⟨rfl, rfl⟩ := List.cons.inj h
    exact ⟨[], rfl, fun _ => rfl, cut.eq_1 word, by simp⟩
  | case2 word cs ih =>
    obtain ⟨rfl, rfl⟩ := List.cons.inj h
    obtain ⟨q, qs, hqs⟩ := List.exists_cons_of_ne_nil (cut_ne_nil false cs)
    obtain ⟨-, -, -, hq, hrest⟩ := ih hqs
    refine ⟨',' :: cs, rfl, fun _ => isWordChar_comma, cut.eq_1 word, ?_⟩
    rw [hqs]
    exact List.forall_mem_cons.mpr ⟨hq, hrest⟩
  | case3 word c cs hcomma hor ih =>
    obtain ⟨rfl, rfl⟩ := List.cons.inj h
    obtain ⟨o, r, after, hsplit, -, -, hbefore, hafter⟩ := beginsOr_iff.mp hor
    obtain ⟨rfl, rfl⟩ := List.cons.inj hsplit
    obtain ⟨q, qs, hqs⟩ := List.exists_cons_of_ne_nil (cut_ne_nil true after)
    obtain ⟨x, hx, -, hq, hrest⟩ := ih hqs
    refine ⟨c :: r :: after, rfl, fun hword => ?_, cut.eq_1 word, ?_⟩
    · rw [endsWord, hbefore] at hword
      cases hword
    · -- the piece behind the word does not begin with a word character
      have hbegins : beginsWord q = false := by
        cases q with
        | nil => rfl
        | cons d q =>
          rw [List.tail_cons] at hx
          rw [hx] at hafter
          exact hafter
      rw [List.tail_cons, hqs]
      exact List.forall_mem_cons.mpr ⟨(cut_of_not_beginsWord hbegins).symm.trans hq, hrest⟩
  | case4 word c cs hcomma hor ih =>
    obtain ⟨q, qs, hqs⟩ := List.exists_cons_of_ne_nil (cut_ne_nil (Text.isWordChar c) cs)
    rw [hqs] at h
    obtain ⟨rfl, rfl⟩ := List.cons.inj h
    obtain ⟨x, hx, hloose, hq, hrest⟩ := ih hqs
    have hloose' : Loose word (c :: q) x := hloose
    have hor' : ¬ beginsOr word (c :: q) = true := fun hor' => hor (by
      rw [hx]
      exact (beginsOr_append hloose' (by simp)).trans hor')
    refine ⟨x, by rw [hx]; rfl, hloose', ?_, hrest⟩
    rw [cut, if_neg hcomma, if_neg hor', hq]
    rfl

theorem length_cut_of_mem {p : List Char} (h : p ∈ cut false u) : (cut false p).length = 1 := by
  obtain ⟨q, qs, hqs⟩ := List.exists_cons_of_ne_nil (cut_ne_nil false u)
  obtain ⟨-, -, -, hq, hrest⟩ := cut_piece hqs
  rw [hqs] at h
  rcases List.mem_cons.mp h with rfl | h
  · rw [hq]
    rfl
  · rw [hrest p h]
    rfl

end ValueList

end MetricLayer
