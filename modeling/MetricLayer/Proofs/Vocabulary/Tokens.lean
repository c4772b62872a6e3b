import MetricLayer.Proofs.Basic
import MetricLayer.Proofs.Text.Trim
import MetricLayer.Vocabulary.Formula

/-!
# The tokens of a formula

How a text is cut into tokens, told without the reader: `Spells` says how a token is written, and
`Splits` cuts a text into tokens, each the longest at its place, with blanks between them.

The reader takes digits of any script for a number, and refuses the number if it has others than
ASCII digits. So it can find a token that is longer than any that can be written there; what follows
never splits then.

Results:
1. `exists_spells` and `isLongest_of_nextToken?`: the reader cuts off a token, and the longest.
2. `nextToken?_of_spells`: it cuts off every token that is the longest at its place.
3. `tokens_eq_ok_iff` and `Splits.unique`: the tokens of a text are those into which it splits.
-/

namespace MetricLayer

namespace Formula

/-! ## Texts that split -/

/-- One or more ASCII digits. -/
def AreDigits (cs : List Char) : Prop := cs ≠ [] ∧ ∀ c ∈ cs, c.isDigit = true

/-- How a token is written. -/
inductive Spells : List Char → Token → Prop
  | ref {name : List Char} : name ≠ [] → ']' ∉ name →
      Spells ('[' :: name ++ [']']) (.ref (Text.trim (String.ofList name)))
  | whole {ds : List Char} : AreDigits ds →
      Spells ds (.number (Decimal.nearest (Decimal.ofDigits ds) 0))
  | fraction {ds fs : List Char} : AreDigits ds → AreDigits fs →
      Spells (ds ++ '.' :: fs)
        (.number (Decimal.nearest (Decimal.ofDigits (ds ++ fs)) (-fs.length)))
  | symbol {c : Char} : c ∈ ['+', '-', '*', '/', '(', ')'] → Spells [c] (.symbol c)

/-- No token that can be written at the place is longer. -/
def IsLongest (l rest : List Char) : Prop :=
  ∀ l' t', Spells l' t' → l' <+: l ++ rest → l'.length ≤ l.length

/-- The characters are blank. -/
def AreBlank (cs : List Char) : Prop := ∀ c ∈ cs, Text.isBlank c = true

/-- The text splits into the tokens, each the longest at its place, with blanks before each of them and
at the end. -/
inductive Splits : List Char → List Token → Prop
  | finish {bs : List Char} : AreBlank bs → Splits bs []
  | token {bs l rest : List Char} {t : Token} {ts : List Token} : AreBlank bs → Spells l t →
      IsLongest l rest → Splits rest ts → Splits (bs ++ l ++ rest) (t :: ts)

/-! ## Characters -/

theorem anyHas_run {c : Char} {rs : List Text.Run} (h : Text.Run.anyHas c rs = true) :
    ∃ r ∈ rs, r.first ≤ c.toNat ∧ c.toNat ≤ r.last := by
  obtain ⟨r, hr, hc⟩ := Text.has_of_anyHas h
  simp only [Text.Run.has, Bool.and_eq_true, decide_eq_true_eq] at hc
  exact ⟨r, hr, hc.1⟩

theorem isDecimalDigit_of_isDigit {c : Char} (h : c.isDigit = true) :
    Text.isDecimalDigit c = true := by
  simp only [Char.isDigit, Bool.and_eq_true, decide_eq_true_eq] at h
  have hlow : 48 ≤ c.toNat := h.1
  have hhigh : c.toNat ≤ 57 := h.2
  unfold Text.isDecimalDigit Text.decimalDigitRuns Text.Run.anyHas
  rw [if_neg (by simpa using hlow), Bool.or_eq_true_iff]
  left
  simp [Text.Run.has, hlow, hhigh, Nat.mod_one]

/-- No blank is a digit of any script. -/
theorem isDecimalDigit_of_isBlank {c : Char} (h : Text.isBlank c = true) :
    Text.isDecimalDigit c = false := by
  by_contra hne
  have hdigit : Text.isDecimalDigit c = true := by simpa using hne
  obtain ⟨r, hr, hfirst, hlast⟩ := anyHas_run h
  obtain ⟨r', hr', hfirst', hlast'⟩ := anyHas_run hdigit
  have hapart : ∀ r ∈ Text.blankRuns, ∀ r' ∈ Text.decimalDigitRuns,
      r.last < r'.first ∨ r'.last < r.first := by decide +kernel
  have := hapart r hr r' hr'
  omega

theorem isBlank_of_isDigit {c : Char} (h : c.isDigit = true) : Text.isBlank c = false := by
  by_contra hne
  have hblank : Text.isBlank c = true := by simpa using hne
  have := isDecimalDigit_of_isBlank hblank
  rw [isDecimalDigit_of_isDigit h] at this
  cases this

theorem isSymbol_iff {c : Char} : isSymbol c = true ↔ c ∈ ['+', '-', '*', '/', '(', ')'] := by
  unfold isSymbol
  rw [List.contains_eq_mem, decide_eq_true_eq,
    show "-+*/()".toList = ['-', '+', '*', '/', '(', ')'] from rfl]
  simp only [List.mem_cons, List.not_mem_nil]
  tauto

/-- A symbol is no other token's character, and no blank. -/
theorem symbol_differs {c : Char} (hc : c ∈ ['+', '-', '*', '/', '(', ')']) :
    c ≠ '[' ∧ c ≠ '.' ∧ Text.isDecimalDigit c = false ∧ Text.isBlank c = false := by
  simp only [List.mem_cons, List.not_mem_nil, or_false] at hc
  rcases hc with rfl | rfl | rfl | rfl | rfl | rfl <;> decide

/-- What is in front of the first character outside of a class. -/
theorem takeWhile_exact {p : Char → Bool} {cs rest : List Char} (hcs : ∀ c ∈ cs, p c = true)
    (hrest : ∀ c ∈ rest.head?, p c = false) : (cs ++ rest).takeWhile p = cs := by
  rw [List.takeWhile_append_of_pos hcs]
  cases rest with
  | nil => simp
  | cons c rest =>
    have hc : p c = false := hrest c rfl
    simp [hc]

/-- What begins with the first character outside of a class. -/
theorem dropWhile_exact {p : Char → Bool} {cs rest : List Char} (hcs : ∀ c ∈ cs, p c = true)
    (hrest : ∀ c ∈ rest.head?, p c = false) : (cs ++ rest).dropWhile p = rest := by
  rw [List.dropWhile_append_of_pos hcs]
  cases rest with
  | nil => rfl
  | cons c rest =>
    have hc : p c = false := hrest c rfl
    simp [hc]

/-- A text is the part in front of the first character outside of a class, and the rest. -/
theorem exists_cut (p : Char → Bool) (cs : List Char) :
    ∃ front rest, cs = front ++ rest ∧ (∀ c ∈ front, p c = true) ∧ ∀ c ∈ rest.head?, p c = false := by
  refine ⟨cs.takeWhile p, cs.dropWhile p, List.takeWhile_append_dropWhile.symm,
    List.all_eq_true.mp List.all_takeWhile, fun c hc => ?_⟩
  have := List.head?_dropWhile_not p cs
  rw [Option.mem_def.mp hc] at this
  simpa using this

/-! ## Numbers -/

theorem not_isDecimalDigit_point : Text.isDecimalDigit '.' = false := by decide

/-- Digits of other scripts have no place in a number. -/
theorem readExponent?_digit {c : Char} (h : Text.isDecimalDigit c = true) (cs : List Char) :
    Decimal.readExponent? (c :: cs) = none := by
  unfold Decimal.readExponent?
  dsimp only
  rw [if_neg]
  rintro (rfl | rfl) <;> revert h <;> decide

theorem readUnsigned?_whole {ds rest : List Char} (hds : ∀ c ∈ ds, c.isDigit = true)
    (hrest : ∀ c ∈ rest.head?, c.isDigit = false ∧ c ≠ '.') :
    Decimal.readUnsigned? (ds ++ rest) = if ds.isEmpty then none else
      (Decimal.readExponent? rest).map fun e => Decimal.nearest (Decimal.ofDigits ds) e := by
  have hdigit : ∀ c ∈ rest.head?, c.isDigit = false := fun c hc => (hrest c hc).1
  unfold Decimal.readUnsigned?
  rw [takeWhile_exact hds hdigit, dropWhile_exact hds hdigit]
  split
  next fraction rest' heq =>
  have hparts : fraction = [] ∧ rest' = rest := by
    split at heq
    · exact absurd rfl (hrest '.' rfl).2
    · simpa [eq_comm] using heq
  obtain ⟨rfl, rfl⟩ := hparts
  simp

theorem readUnsigned?_fraction {ds fs rest : List Char} (hds : AreDigits ds)
    (hfs : ∀ c ∈ fs, c.isDigit = true) (hrest : ∀ c ∈ rest.head?, c.isDigit = false) :
    Decimal.readUnsigned? (ds ++ '.' :: (fs ++ rest)) = (Decimal.readExponent? rest).map fun e =>
      Decimal.nearest (Decimal.ofDigits (ds ++ fs)) (e - fs.length) := by
  have hpoint : ∀ c ∈ ('.' :: (fs ++ rest)).head?, c.isDigit = false := by
    rintro c ⟨⟩
    rfl
  unfold Decimal.readUnsigned?
  rw [takeWhile_exact hds.2 hpoint, dropWhile_exact hds.2 hpoint]
  simp only [takeWhile_exact hfs hrest, dropWhile_exact hfs hrest,
    List.isEmpty_eq_false_iff.mpr hds.1]
  rfl

theorem readUnsigned?_of_spells {l : List Char} {x : Float} (h : Spells l (.number x)) :
    Decimal.readUnsigned? l = some x := by
  cases h with
  | whole hds =>
    have := @readUnsigned?_whole _ [] hds.2 nofun
    rw [List.append_nil, List.isEmpty_eq_false_iff.mpr hds.1] at this
    exact this
  | @fraction ds fs hds hfs =>
    have := @readUnsigned?_fraction _ _ [] hds hfs.2 nofun
    rw [List.append_nil] at this
    rw [this]
    simp [Decimal.readExponent?]

/-- Where digits end that may be those of any script. -/
def Stops (rest : List Char) : Prop := ∀ c ∈ rest.head?, Text.isDecimalDigit c = false

theorem stops_point (cs : List Char) : Stops ('.' :: cs) := by
  rintro c ⟨⟩
  exact not_isDecimalDigit_point

theorem numberPrefix_whole {ds rest : List Char} (hds : ∀ c ∈ ds, Text.isDecimalDigit c = true)
    (hrest : Stops rest) (hpoint : ∀ r, rest = '.' :: r → Stops r) :
    numberPrefix (ds ++ rest) = ds := by
  unfold numberPrefix
  rw [takeWhile_exact hds hrest]
  simp only [List.drop_left]
  split
  · next r =>
    have hempty : r.takeWhile Text.isDecimalDigit = [] :=
      @takeWhile_exact _ [] _ nofun (hpoint r rfl)
    rw [hempty]
    rfl
  · rfl

theorem numberPrefix_fraction {ds fs rest : List Char} (hds : ∀ c ∈ ds, Text.isDecimalDigit c = true)
    (hne : fs ≠ []) (hfs : ∀ c ∈ fs, Text.isDecimalDigit c = true) (hrest : Stops rest) :
    numberPrefix (ds ++ '.' :: (fs ++ rest)) = ds ++ '.' :: fs := by
  unfold numberPrefix
  rw [takeWhile_exact hds (stops_point _)]
  simp only [List.drop_left]
  rw [takeWhile_exact hfs hrest, if_neg (by simpa using hne)]

/-- How digits of any script, with a fraction perhaps, stand at the start of a text. -/
inductive NumberCut : List Char → Prop
  | whole {ds rest : List Char} : (∀ c ∈ ds, Text.isDecimalDigit c = true) → Stops rest →
      (∀ r, rest = '.' :: r → Stops r) → NumberCut (ds ++ rest)
  | fraction {ds fs rest : List Char} : (∀ c ∈ ds, Text.isDecimalDigit c = true) → fs ≠ [] →
      (∀ c ∈ fs, Text.isDecimalDigit c = true) → Stops rest → NumberCut (ds ++ '.' :: (fs ++ rest))

theorem numberCut (cs : List Char) : NumberCut cs := by
  obtain ⟨ds, rest, rfl, hds, hrest⟩ := exists_cut Text.isDecimalDigit cs
  by_cases h : ∃ r, rest = '.' :: r ∧ ¬ Stops r
  · obtain ⟨r, rfl, hr⟩ := h
    obtain ⟨fs, rest, rfl, hfs, hrest⟩ := exists_cut Text.isDecimalDigit r
    exact .fraction hds (fun hnil => hr (by rwa [hnil])) hfs hrest
  · exact .whole hds hrest fun r hr => by_contra fun hstops => h ⟨r, hr, hstops⟩

/-- A digit of another script behind whole digits spoils the number. -/
theorem readUnsigned?_stray {ds rest : List Char} {c : Char} (hds : ∀ c ∈ ds, c.isDigit = true)
    (hdigit : Text.isDecimalDigit c = true) (hc : c.isDigit = false) :
    Decimal.readUnsigned? (ds ++ c :: rest) = none := by
  have hpoint : c ≠ '.' := by
    rintro rfl
    rw [not_isDecimalDigit_point] at hdigit
    cases hdigit
  rw [readUnsigned?_whole hds (by rintro c ⟨⟩; exact ⟨hc, hpoint⟩), readExponent?_digit hdigit]
  simp

/-- A number that is read is written in ASCII digits. -/
theorem numberPrefix_spells {cs : List Char} {x : Float}
    (hhead : ∀ c ∈ cs.head?, Text.isDecimalDigit c = true)
    (h : Decimal.readUnsigned? (numberPrefix cs) = some x) :
    Spells (numberPrefix cs) (.number x) := by
  cases numberCut cs with
  | @whole ds rest hds hrest hpoint =>
    rw [numberPrefix_whole hds hrest hpoint] at h ⊢
    obtain ⟨ws, _ | ⟨c, vs⟩, rfl, hws, hvs⟩ := exists_cut Char.isDigit ds
    · rw [@readUnsigned?_whole _ [] hws nofun, Option.ite_none_left_eq_some] at h
      obtain ⟨hne, h⟩ := h
      cases h
      rw [List.append_nil]
      exact .whole ⟨by simpa using hne, hws⟩
    · rw [readUnsigned?_stray hws (hds c (by simp)) (hvs c rfl)] at h
      cases h
  | @fraction ds fs rest hds hne hfs hrest =>
    rw [numberPrefix_fraction hds hne hfs hrest] at h ⊢
    obtain ⟨ws, _ | ⟨c, vs⟩, rfl, hws, hvs⟩ := exists_cut Char.isDigit ds
    · have hws : AreDigits ws := by
        refine ⟨?_, hws⟩
        rintro rfl
        have := hhead '.' rfl
        rw [not_isDecimalDigit_point] at this
        cases this
      obtain ⟨us, vs, rfl, hus, hvs⟩ := exists_cut Char.isDigit fs
      rw [List.append_nil, readUnsigned?_fraction hws hus hvs] at h
      cases vs with
      | nil =>
        cases h
        rw [List.append_nil] at hne ⊢
        simpa using Spells.fraction hws ⟨hne, hus⟩
      | cons c vs =>
        rw [readExponent?_digit (hfs c (by simp))] at h
        cases h
    · rw [List.append_assoc, List.cons_append,
        readUnsigned?_stray hws (hds c (by simp)) (hvs c rfl)] at h
      cases h

theorem takeWhile_le_numberPrefix (cs : List Char) :
    (cs.takeWhile Text.isDecimalDigit).length ≤ (numberPrefix cs).length := by
  unfold numberPrefix
  dsimp only
  split
  · split
    · exact Nat.le_refl _
    · simp
  · exact Nat.le_refl _

/-- No number at the start of a text is longer than the digits there. -/
theorem Spells.le_numberPrefix {l cs : List Char} {x : Float} (h : Spells l (.number x))
    (hl : l <+: cs) : l.length ≤ (numberPrefix cs).length := by
  obtain ⟨rest, rfl⟩ := hl
  cases h with
  | whole hds =>
    refine Nat.le_trans ?_ (takeWhile_le_numberPrefix _)
    rw [List.takeWhile_append_of_pos fun c hc => isDecimalDigit_of_isDigit (hds.2 c hc)]
    simp
  | @fraction ds fs hds hfs =>
    obtain ⟨gs, rest, rfl, hgs, hrest⟩ := exists_cut Text.isDecimalDigit rest
    have hdigits : ∀ c ∈ fs ++ gs, Text.isDecimalDigit c = true := by
      intro c hc
      rcases List.mem_append.mp hc with hc | hc
      · exact isDecimalDigit_of_isDigit (hfs.2 c hc)
      · exact hgs c hc
    have hprefix := numberPrefix_fraction (fun c hc => isDecimalDigit_of_isDigit (hds.2 c hc))
      (by simp [hfs.1]) hdigits hrest
    rw [show ds ++ '.' :: fs ++ (gs ++ rest) = ds ++ '.' :: (fs ++ gs ++ rest) by simp, hprefix]
    simp

/-! ## One token -/

theorem Spells.ne_nil {l : List Char} {t : Token} (h : Spells l t) : l ≠ [] := by
  cases h with
  | ref | fraction | symbol => simp
  | whole hds => exact hds.1

theorem AreDigits.head {ds : List Char} (h : AreDigits ds) :
    ∃ c cs, ds = c :: cs ∧ c.isDigit = true := by
  obtain ⟨hne, hds⟩ := h
  cases ds with
  | nil => exact absurd rfl hne
  | cons c cs => exact ⟨c, cs, rfl, hds c List.mem_cons_self⟩

theorem Spells.number_head {l : List Char} {x : Float} (h : Spells l (.number x)) :
    ∃ c cs, l = c :: cs ∧ c.isDigit = true := by
  cases h with
  | whole hds => exact hds.head
  | fraction hds =>
    obtain ⟨c, cs, rfl, hc⟩ := hds.head
    exact ⟨c, _, rfl, hc⟩

/-- What a token can begin with. -/
theorem Spells.head {l : List Char} {t : Token} (h : Spells l t) :
    ∃ c cs, l = c :: cs ∧ (c = '[' ∨ c.isDigit = true ∨ isSymbol c = true) := by
  cases t with
  | number x =>
    obtain ⟨c, cs, rfl, hc⟩ := h.number_head
    exact ⟨c, cs, rfl, .inr (.inl hc)⟩
  | ref name =>
    cases h
    exact ⟨_, _, rfl, .inl rfl⟩
  | symbol c =>
    cases h with
    | symbol hc => exact ⟨_, [], rfl, .inr (.inr (isSymbol_iff.mpr hc))⟩

theorem nextToken?_ref {name rest : List Char} (hne : name ≠ []) (hname : ']' ∉ name) :
    nextToken? ('[' :: name ++ ']' :: rest) =
      some (.ok (.ref (Text.trim (String.ofList name))), rest) := by
  have hcut : (name ++ ']' :: rest).takeWhile (· ≠ ']') = name := by
    refine takeWhile_exact (fun c hc => ?_) (by rintro c ⟨⟩; simp)
    simpa using ne_of_mem_of_not_mem hc hname
  unfold nextToken?
  rw [List.cons_append]
  simp only [hcut, List.drop_left]
  simp [hne]

theorem nextToken?_digit {c : Char} {cs : List Char} (hc : Text.isDecimalDigit c = true) :
    nextToken? (c :: cs) = some (match Decimal.readUnsigned? (numberPrefix (c :: cs)) with
      | some x => .ok (.number x)
      | none => .error (.badNumber (String.ofList (numberPrefix (c :: cs)))),
      (c :: cs).drop (numberPrefix (c :: cs)).length) := by
  have hbracket : c ≠ '[' := by
    rintro rfl
    revert hc
    decide
  unfold nextToken?
  exact (if_neg hbracket).trans (if_pos hc)

theorem nextToken?_symbol {c : Char} {rest : List Char} (hc : isSymbol c = true) :
    nextToken? (c :: rest) = some (.ok (.symbol c), rest) := by
  obtain ⟨hbracket, -, hdigit, -⟩ := symbol_differs (isSymbol_iff.mp hc)
  unfold nextToken?
  simp only [if_neg hbracket, hdigit, hc, if_true]
  rfl

/-- The reader leaves nothing that belongs to its token. -/
theorem isLongest_of_nextToken? {l rest : List Char} {t : Token} (hl : Spells l t)
    (h : nextToken? (l ++ rest) = some (.ok t, rest)) : IsLongest l rest := by
  intro l' t' hl' hprefix
  have htotal := hprefix.length_le
  rw [List.length_append] at htotal
  obtain ⟨rest', hsame⟩ := hprefix
  have hlength : l'.length + rest'.length = l.length + rest.length := by
    rw [← List.length_append, hsame, List.length_append]
  cases t' with
  | ref name =>
    cases hl' with
    | ref hne hname =>
      rw [← hsame, List.append_assoc, List.singleton_append, nextToken?_ref hne hname] at h
      cases h
      omega
  | symbol c =>
    cases hl'
    exact List.length_pos_iff.mpr hl.ne_nil
  | number x =>
    have hle := hl'.le_numberPrefix ⟨rest', hsame⟩
    obtain ⟨c, cs, rfl, hc⟩ := hl'.number_head
    rw [List.cons_append] at hsame
    rw [← hsame, nextToken?_digit (isDecimalDigit_of_isDigit hc)] at h
    have hrest := congrArg (fun r => (Option.map Prod.snd r).map List.length) h
    simp only [Option.map_some, Option.some.injEq, List.length_drop] at hrest
    rw [hsame, List.length_append] at hrest
    omega

theorem numberPrefix_isPrefix (cs : List Char) : numberPrefix cs <+: cs := by
  cases numberCut cs with
  | whole hds hrest hpoint =>
    rw [numberPrefix_whole hds hrest hpoint]
    exact List.prefix_append ..
  | @fraction ds fs rest hds hne hfs hrest =>
    rw [numberPrefix_fraction hds hne hfs hrest]
    exact ⟨rest, by simp⟩

/-- The reader cuts off a token that is written there. -/
theorem exists_spells {cs rest : List Char} {t : Token}
    (h : nextToken? cs = some (.ok t, rest)) : ∃ l, cs = l ++ rest ∧ Spells l t := by
  obtain _ | ⟨c, cs⟩ := cs
  · cases h
  by_cases hdigit : Text.isDecimalDigit c = true
  · rw [nextToken?_digit hdigit] at h
    cases hread : Decimal.readUnsigned? (numberPrefix (c :: cs)) with
    | none => simp [hread] at h
    | some x =>
      simp only [hread, Option.some.injEq, Prod.mk.injEq, Except.ok.injEq] at h
      obtain ⟨rfl, rfl⟩ := h
      exact ⟨_, (List.prefix_iff_eq_append.mp (numberPrefix_isPrefix _)).symm,
        numberPrefix_spells (by rintro c' ⟨⟩; exact hdigit) hread⟩
  unfold nextToken? at h
  simp only [hdigit] at h
  by_cases hbracket : c = '['
  · rw [if_pos hbracket] at h
    obtain ⟨name, tail, rfl, hname, htail⟩ := exists_cut (fun c => decide (c ≠ ']')) cs
    rw [takeWhile_exact hname htail, List.drop_left, Option.ite_none_left_eq_some] at h
    obtain ⟨hne, h⟩ := h
    obtain _ | ⟨c', tail⟩ := tail
    · simp at hne
    · obtain rfl : c' = ']' := by simpa using htail c' rfl
      cases h
      refine ⟨'[' :: name ++ [']'], by simp [hbracket], .ref ?_ fun hmem => ?_⟩
      · simpa using hne
      · simpa using hname _ hmem
  · rw [if_neg hbracket] at h
    simp only [Bool.false_eq_true, if_false, Option.ite_none_right_eq_some] at h
    obtain ⟨hsymbol, h⟩ := h
    cases h
    exact ⟨[c], rfl, .symbol (isSymbol_iff.mp hsymbol)⟩

/-- A number ends where a text goes on that splits, unless digits follow. -/
theorem Splits.head {cs : List Char} {ts : List Token} (h : Splits cs ts) :
    ∀ c ∈ cs.head?, Text.isDecimalDigit c = true ∨ c = '.' → c.isDigit = true := by
  have hblank : ∀ c, Text.isBlank c = true → ¬ (Text.isDecimalDigit c = true ∨ c = '.') := by
    rintro c hc (hdigit | rfl)
    · rw [isDecimalDigit_of_isBlank hc] at hdigit
      cases hdigit
    · revert hc
      decide
  cases h with
  | finish hbs =>
    intro c hc hnumber
    exact absurd hnumber (hblank c (hbs c (List.mem_of_mem_head? hc)))
  | @token bs l rest t ts hbs hl hlong hrest =>
    obtain _ | ⟨b, bs⟩ := bs
    · obtain ⟨c, cs, rfl, hc⟩ := hl.head
      rintro c' ⟨⟩ hnumber
      rcases hc with rfl | hc | hc
      · revert hnumber
        decide
      · exact hc
      · obtain ⟨-, hpoint, hdigit, -⟩ := symbol_differs (isSymbol_iff.mp hc)
        cases (hnumber.resolve_right hpoint).symm.trans hdigit
    · rintro c ⟨⟩ hnumber
      exact absurd hnumber (hblank b (hbs b List.mem_cons_self))

theorem AreDigits.snoc {ds : List Char} {c : Char} (hds : AreDigits ds) (hc : c.isDigit = true) :
    AreDigits (ds ++ [c]) := by
  refine ⟨by simp, fun c' hc' => ?_⟩
  rcases List.mem_append.mp hc' with hc' | hc'
  · exact hds.2 c' hc'
  · rwa [List.mem_singleton.mp hc']

theorem Spells.snoc {l : List Char} {x : Float} {c : Char} (h : Spells l (.number x))
    (hc : c.isDigit = true) : ∃ t, Spells (l ++ [c]) t := by
  cases h with
  | whole hds => exact ⟨_, .whole (hds.snoc hc)⟩
  | fraction hds hfs =>
    rw [List.append_assoc, List.cons_append]
    exact ⟨_, .fraction hds (hfs.snoc hc)⟩

theorem IsLongest.stops {l rest : List Char} {x : Float} {ts : List Token}
    (hlong : IsLongest l rest) (hl : Spells l (.number x)) (hrest : Splits rest ts) :
    ∀ c ∈ rest.head?, ¬ (Text.isDecimalDigit c = true ∨ c = '.') := by
  intro c hc hnumber
  obtain ⟨t, ht⟩ := hl.snoc (hrest.head c hc hnumber)
  obtain ⟨r, rfl⟩ := List.head?_eq_some_iff.mp hc
  have := hlong _ t ht ⟨r, by simp⟩
  rw [List.length_append, List.length_singleton] at this
  omega

theorem Spells.numberPrefix_eq {l rest : List Char} {x : Float} (h : Spells l (.number x))
    (hrest : ∀ c ∈ rest.head?, ¬ (Text.isDecimalDigit c = true ∨ c = '.')) :
    numberPrefix (l ++ rest) = l := by
  have hstops : Stops rest := fun c hc => by
    simpa using fun hdigit => hrest c hc (.inl hdigit)
  cases h with
  | whole hds =>
    refine numberPrefix_whole (fun c hc => isDecimalDigit_of_isDigit (hds.2 c hc)) hstops ?_
    rintro r rfl
    exact absurd (.inr rfl) (hrest '.' rfl)
  | @fraction ds fs hds hfs =>
    rw [List.append_assoc, List.cons_append]
    exact numberPrefix_fraction (fun c hc => isDecimalDigit_of_isDigit (hds.2 c hc)) hfs.1
      (fun c hc => isDecimalDigit_of_isDigit (hfs.2 c hc)) hstops

/-- The reader cuts off every token that is the longest at its place. -/
theorem nextToken?_of_spells {l rest : List Char} {t : Token} {ts : List Token}
    (hl : Spells l t) (hlong : IsLongest l rest) (hrest : Splits rest ts) :
    nextToken? (l ++ rest) = some (.ok t, rest) := by
  cases t with
  | ref name =>
    cases hl with
    | ref hne hname => rw [List.append_assoc, List.singleton_append, nextToken?_ref hne hname]
  | symbol c =>
    cases hl with
    | symbol hc => exact nextToken?_symbol (isSymbol_iff.mpr hc)
  | number x =>
    have hprefix := hl.numberPrefix_eq (hlong.stops hl hrest)
    obtain ⟨c, cs, rfl, hc⟩ := hl.number_head
    rw [List.cons_append] at hprefix ⊢
    rw [nextToken?_digit (isDecimalDigit_of_isDigit hc), hprefix, readUnsigned?_of_spells hl]
    simp

/-! ## The text as tokens -/

theorem Spells.not_isBlank {l : List Char} {t : Token} (h : Spells l t) (rest : List Char) :
    ∀ c ∈ (l ++ rest).head?, Text.isBlank c = false := by
  obtain ⟨c, cs, rfl, hc⟩ := h.head
  rintro c' ⟨⟩
  rcases hc with rfl | hc | hc
  · decide
  · exact isBlank_of_isDigit hc
  · exact (symbol_differs (isSymbol_iff.mp hc)).2.2.2

theorem tokensFrom_of_splits {cs : List Char} {ts : List Token} (h : Splits cs ts) :
    ∀ fuel offset, cs.length < fuel → tokensFrom fuel offset cs = .ok ts := by
  induction h with
  | @finish bs hbs =>
    rintro (_ | fuel) offset hfuel
    · cases hfuel
    · have hbody := @dropWhile_exact Text.isBlank bs [] hbs nofun
      rw [List.append_nil] at hbody
      simp [tokensFrom, hbody]
  | @token bs l rest t ts hbs hl hlong hrest ih =>
    rintro (_ | fuel) offset hfuel
    · cases hfuel
    · have hbody : (bs ++ l ++ rest).dropWhile Text.isBlank = l ++ rest := by
        rw [List.append_assoc]
        exact dropWhile_exact hbs (hl.not_isBlank rest)
      have hshorter : rest.length < fuel := by
        have := List.length_pos_iff.mpr hl.ne_nil
        simp only [List.length_append] at hfuel
        omega
      simp only [tokensFrom, hbody, nextToken?_of_spells hl hlong hrest, ih fuel _ hshorter]
      simp [hl.ne_nil]
      rfl

theorem splits_of_tokensFrom {fuel offset : Nat} {cs : List Char} {ts : List Token}
    (h : tokensFrom fuel offset cs = .ok ts) : Splits cs ts := by
  induction fuel generalizing offset cs ts with
  | zero => cases h
  | succ fuel ih =>
    obtain ⟨bs, body, rfl, hbs, hbody⟩ := exists_cut Text.isBlank cs
    simp only [tokensFrom, dropWhile_exact hbs hbody] at h
    split at h
    · next hempty =>
      cases h
      rw [List.isEmpty_iff.mp hempty, List.append_nil]
      exact .finish hbs
    · split at h
      · cases h
      · next token rest hnext =>
        obtain ⟨t, ht, h⟩ := bind_eq_ok h
        obtain ⟨ts', hts, h⟩ := bind_eq_ok h
        cases h
        rw [ht] at hnext
        obtain ⟨l, rfl, hl⟩ := exists_spells hnext
        rw [← List.append_assoc]
        exact .token hbs hl (isLongest_of_nextToken? hl hnext) (ih hts)

/-- The tokens of a text are those into which it splits. -/
theorem tokens_eq_ok_iff {source : String} {ts : List Token} :
    tokens source = .ok ts ↔ Splits source.toList ts :=
  ⟨splits_of_tokensFrom, fun h => tokensFrom_of_splits h _ _ (Nat.lt_succ_self _)⟩

theorem Splits.unique {cs : List Char} {ts us : List Token} (hts : Splits cs ts)
    (hus : Splits cs us) : ts = us := by
  have := (tokensFrom_of_splits hts _ 0 (Nat.lt_succ_self _)).symm.trans
    (tokensFrom_of_splits hus _ 0 (Nat.lt_succ_self _))
  exact Except.ok.inj this

end Formula

end MetricLayer
