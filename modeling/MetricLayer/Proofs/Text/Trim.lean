import MetricLayer.Text.Blank
import MetricLayer.Vocabulary.Term
import Mathlib.Data.List.Basic
import Mathlib.Data.List.DropRight

/-!
# Blanks at the ends of a text

Blanks at the ends of a phrase leave its term as it is: they are neither letters nor numbers, they
do not begin a word, and they do not decide which small form of a letter is used.

Results:
1. `Text.dropEnds_append` and `Text.endsOutside_dropEnds`: the characters of a class around a text
   are cut off, blanks for one.
2. `Term.ofPhrase_trim`: a phrase and the phrase without the blanks at its ends are one term.
-/

namespace MetricLayer

namespace Text

/-! ## Blanks -/

theorem has_of_anyHas {c : Char} {rs : List Run} (h : Run.anyHas c rs = true) :
    ∃ r ∈ rs, r.has c = true := by
  induction rs with
  | nil => cases h
  | cons r rs ih =>
    unfold Run.anyHas at h
    split at h
    · cases h
    · rcases Bool.or_eq_true_iff.mp h with h | h
      · exact ⟨r, List.mem_cons_self, h⟩
      · obtain ⟨r', hr', h⟩ := ih h
        exact ⟨r', List.mem_cons_of_mem r hr', h⟩

/-- The blanks, one by one. -/
def blanks : List Char :=
  blankRuns.flatMap fun r => (List.range' r.first (r.last + 1 - r.first)).map Char.ofNat

theorem mem_blanks {c : Char} (h : isBlank c = true) : c ∈ blanks := by
  obtain ⟨r, hr, hc⟩ := has_of_anyHas h
  simp only [Run.has, Bool.and_eq_true, decide_eq_true_eq] at hc
  refine List.mem_flatMap.mpr ⟨r, hr, List.mem_map.mpr ⟨c.toNat, ?_, c.ofNat_toNat⟩⟩
  rw [List.mem_range'_1]
  omega

/-- What case and word rules see in a blank: nothing. -/
structure IsNeutral (c : Char) : Prop where
  upper : isUppercase c = false
  lower : isLowercase c = false
  digit : c.isDigit = false
  alphanumeric : isAlphanumeric c = false
  cased : Run.anyHas c casedRuns = false
  ignorable : Run.anyHas c caseIgnorableRuns = false
  sigma : c ≠ 'Σ'
  dotted : c ≠ 'İ'
  shift : Shift.apply c lowerShifts = c

theorem isNeutral_of_isBlank {c : Char} (h : isBlank c = true) : IsNeutral c := by
  -- A check of the list; the quantifier could be decided over all characters instead.
  have hall : (blanks.all fun c => !isUppercase c && !isLowercase c && !c.isDigit &&
      !isAlphanumeric c && !Run.anyHas c casedRuns && !Run.anyHas c caseIgnorableRuns &&
      c != 'Σ' && c != 'İ' && Shift.apply c lowerShifts == c) = true := by decide +kernel
  have hc := List.all_eq_true.mp hall c (mem_blanks h)
  simp only [Bool.and_eq_true, Bool.not_eq_true', bne_iff_ne, beq_iff_eq] at hc
  obtain ⟨⟨⟨⟨⟨⟨⟨⟨hu, hl⟩, hd⟩, ha⟩, hcased⟩, hi⟩, hs⟩, hdot⟩, hshift⟩ := hc
  exact ⟨hu, hl, hd, ha, hcased, hi, hs, hdot, hshift⟩

/-! ## Cutting blanks off -/

/-- The characters without those of the class at both ends. -/
def dropEnds (p : Char → Bool) (cs : List Char) : List Char :=
  ((cs.dropWhile p).reverse.dropWhile p).reverse

section dropEnds

variable {p : Char → Bool} {cs before after : List Char}

theorem dropEnds_append (hbefore : ∀ c ∈ before, p c = true) (hafter : ∀ c ∈ after, p c = true)
    (cs : List Char) : dropEnds p (before ++ cs ++ after) = dropEnds p cs := by
  have hend (xs : List Char) : ((xs ++ after).reverse.dropWhile p).reverse =
      (xs.reverse.dropWhile p).reverse := by
    rw [List.reverse_append, List.dropWhile_append_of_pos fun c hc =>
      hafter c (List.mem_reverse.mp hc)]
  unfold dropEnds
  rw [List.append_assoc, List.dropWhile_append_of_pos hbefore, List.dropWhile_append]
  split
  · next h => rw [List.dropWhile_eq_nil_iff.mpr hafter, List.isEmpty_iff.mp h]
  · exact hend _

/-- A text is what is left of it with characters of the class around. -/
theorem exists_dropEnds (p : Char → Bool) (cs : List Char) : ∃ before after,
    (∀ c ∈ before, p c = true) ∧ (∀ c ∈ after, p c = true) ∧
      cs = before ++ dropEnds p cs ++ after := by
  refine ⟨cs.takeWhile p, ((cs.dropWhile p).reverse.takeWhile p).reverse,
    fun c hc => List.mem_takeWhile_imp hc,
    fun c hc => List.mem_takeWhile_imp (List.mem_reverse.mp hc), ?_⟩
  rw [List.append_assoc, dropEnds, ← List.reverse_append, List.takeWhile_append_dropWhile,
    List.reverse_reverse, List.takeWhile_append_dropWhile]

/-- Neither the first nor the last character of the text is in the class. -/
def EndsOutside (p : Char → Bool) (cs : List Char) : Prop :=
  ∀ c, cs.head? = some c ∨ cs.getLast? = some c → p c = false

theorem endsOutside_of_forall (h : ∀ c ∈ cs, p c = false) : EndsOutside p cs :=
  fun c hc => h c (hc.elim List.mem_of_head? List.mem_of_getLast?)

theorem dropEnds_eq_self (h : EndsOutside p cs) : dropEnds p cs = cs := by
  have hfirst : cs.dropWhile p = cs := by
    cases cs with
    | nil => rfl
    | cons c cs => exact List.dropWhile_cons_of_neg (by simp [h c (.inl rfl)])
  rw [dropEnds, hfirst, List.reverse_eq_iff]
  cases hlast : cs.reverse with
  | nil => rfl
  | cons c rest =>
    have hc : p c = false := h c (.inr (by rw [← List.head?_reverse, hlast, List.head?_cons]))
    exact List.dropWhile_cons_of_neg (by simp [hc])

theorem endsOutside_dropEnds (p : Char → Bool) (cs : List Char) :
    EndsOutside p (dropEnds p cs) := by
  rintro c (hc | hc)
  · -- what is left is a prefix of the text without the front
    have hprefix : dropEnds p cs <+: cs.dropWhile p := List.rdropWhile_prefix p _
    have hnot := List.head?_dropWhile_not p cs
    cases hdrop : dropEnds p cs with
    | nil => simp [hdrop] at hc
    | cons x xs =>
      rw [hdrop, List.head?_cons] at hc
      obtain rfl := Option.some.inj hc
      obtain ⟨behind, hbehind⟩ := hprefix
      rw [← hbehind, hdrop] at hnot
      exact hnot
  · have hnot := List.head?_dropWhile_not p (cs.dropWhile p).reverse
    rw [dropEnds, List.getLast?_reverse] at hc
    rw [hc] at hnot
    exact hnot

/-- An end that is not in the class stays. -/
theorem end_dropEnds {c : Char} (hc : p c = false)
    (hend : cs.head? = some c ∨ cs.getLast? = some c) :
    (dropEnds p cs).head? = some c ∨ (dropEnds p cs).getLast? = some c := by
  obtain ⟨before, after, hbefore, hafter, hcs⟩ := exists_dropEnds p cs
  generalize dropEnds p cs = left at hcs
  subst hcs
  refine hend.imp (fun hhead => ?_) fun hlast => ?_
  · cases before with
    | cons x before =>
      obtain rfl := Option.some.inj hhead
      rw [hbefore x List.mem_cons_self] at hc
      cases hc
    | nil =>
      cases left with
      | cons x left => exact hhead
      | nil =>
        rw [hafter c (List.mem_of_head? hhead)] at hc
        cases hc
  · rcases List.eq_nil_or_concat after with rfl | ⟨after, x, rfl⟩
    · rcases List.eq_nil_or_concat left with rfl | ⟨left, x, rfl⟩
      · rw [List.append_nil, List.append_nil] at hlast
        rw [hbefore c (List.mem_of_getLast? hlast)] at hc
        cases hc
      · simpa using hlast
    · have hx : x = c := by simpa using hlast
      rw [← hx, hafter x (by simp)] at hc
      cases hc

end dropEnds

theorem trimChars_append {before after : List Char} (hbefore : ∀ c ∈ before, isBlank c = true)
    (hafter : ∀ c ∈ after, isBlank c = true) (cs : List Char) :
    trimChars (before ++ cs ++ after) = trimChars cs :=
  dropEnds_append hbefore hafter cs

/-- A text is what is left of it with blanks around. -/
theorem exists_trimChars (cs : List Char) : ∃ before after,
    (∀ c ∈ before, isBlank c = true) ∧ (∀ c ∈ after, isBlank c = true) ∧
      cs = before ++ trimChars cs ++ after :=
  exists_dropEnds isBlank cs

theorem trimChars_trimChars (cs : List Char) : trimChars (trimChars cs) = trimChars cs :=
  dropEnds_eq_self (endsOutside_dropEnds isBlank cs)

theorem trim_trim (s : String) : trim (trim s) = trim s := by
  simp only [trim, String.toList_ofList, trimChars_trimChars]

/-! ## Case -/

theorem touchesCased_append {bs : List Char} (hbs : ∀ c ∈ bs, isBlank c = true) (cs : List Char) :
    touchesCased (cs ++ bs) = touchesCased cs := by
  unfold touchesCased
  rw [List.dropWhile_append]
  cases cs.dropWhile (Run.anyHas · caseIgnorableRuns) with
  | nil =>
    cases bs with
    | nil => rfl
    | cons b bs =>
      have hb := isNeutral_of_isBlank (hbs b List.mem_cons_self)
      rw [List.isEmpty_nil, if_pos rfl, List.dropWhile_cons_of_neg (by simp [hb.ignorable])]
      exact hb.cased
  | cons c rest => rfl

theorem lowerAt_blank {c : Char} (h : isBlank c = true) (before after : List Char) :
    lowerAt before c after = [c] := by
  have hc := isNeutral_of_isBlank h
  rw [lowerAt, if_neg hc.sigma, if_neg hc.dotted, hc.shift]

theorem lowerFrom_blanks {bs : List Char} (hbs : ∀ c ∈ bs, isBlank c = true)
    (before cs : List Char) :
    lowerFrom before (bs ++ cs) = bs ++ lowerFrom (bs.reverse ++ before) cs := by
  induction bs generalizing before with
  | nil => rfl
  | cons b bs ih =>
    have hb := hbs b List.mem_cons_self
    rw [List.cons_append, lowerFrom, lowerAt_blank hb, ih fun c hc => hbs c (List.mem_cons_of_mem b hc)]
    simp

/-- The lower case of a text does not depend on the blanks around it. -/
theorem lowerFrom_append {bs after : List Char} (hbs : ∀ c ∈ bs, isBlank c = true)
    (hafter : ∀ c ∈ after, isBlank c = true) (before cs : List Char) :
    lowerFrom (before ++ bs) (cs ++ after) = lowerFrom before cs ++ after := by
  induction cs generalizing before with
  | nil =>
    have h := lowerFrom_blanks hafter (before ++ bs) []
    rw [List.append_nil] at h
    rw [List.nil_append, h, lowerFrom, List.append_nil, lowerFrom, List.nil_append]
  | cons c cs ih =>
    rw [List.cons_append, lowerFrom, lowerFrom, ← List.cons_append, ih, List.append_assoc]
    congr 1
    unfold lowerAt
    rw [touchesCased_append hbs, touchesCased_append hafter]

/-! ## Words -/

theorem fieldsFrom_cut {cut : Char → Bool} {bs : List Char} (hbs : ∀ c ∈ bs, cut c = true)
    (cs : List Char) : fieldsFrom cut [] (bs ++ cs) = fieldsFrom cut [] cs := by
  induction bs with
  | nil => rfl
  | cons b bs ih =>
    rw [List.cons_append, fieldsFrom, if_pos (hbs b List.mem_cons_self)]
    exact ih fun c hc => hbs c (List.mem_cons_of_mem b hc)

theorem fieldsFrom_append {cut : Char → Bool} {bs : List Char} (hbs : ∀ c ∈ bs, cut c = true)
    (word cs : List Char) : fieldsFrom cut word (cs ++ bs) = fieldsFrom cut word cs := by
  induction cs generalizing word with
  | nil =>
    cases bs with
    | nil => rfl
    | cons b bs =>
      have hrest := fieldsFrom_cut (fun c hc => hbs c (List.mem_cons_of_mem b hc)) []
      rw [List.append_nil] at hrest
      simp only [List.nil_append, fieldsFrom, if_pos (hbs b List.mem_cons_self), hrest]
      split <;> rfl
  | cons c cs ih => simp only [List.cons_append, fieldsFrom, ih]

end Text

namespace Term

open Text

theorem startsWord_blank {c : Char} (h : isBlank c = true) (before : Char) (next : Option Char) :
    startsWord before c next = false := by
  rw [startsWord, (isNeutral_of_isBlank h).upper, Bool.false_and]

theorem startsWord_after {b : Char} (h : isBlank b = true) (c : Char) (next : Option Char) :
    startsWord b c next = false := by
  have hb := isNeutral_of_isBlank h
  rw [startsWord, hb.upper, hb.lower, hb.digit]
  simp

theorem splitCamelFrom_blanks {bs : List Char} (hbs : ∀ c ∈ bs, isBlank c = true)
    (before : Option Char) : splitCamelFrom before bs = bs := by
  induction bs generalizing before with
  | nil => rfl
  | cons b bs ih =>
    have hno : before.any (startsWord · b bs.head?) = false := by
      cases before with
      | none => rfl
      | some c => exact startsWord_blank (hbs b List.mem_cons_self) c _
    rw [splitCamelFrom, hno, ih fun c hc => hbs c (List.mem_cons_of_mem b hc)]
    rfl

theorem splitCamelFrom_append {bs : List Char} (hbs : ∀ c ∈ bs, isBlank c = true)
    (before : Option Char) (cs : List Char) :
    splitCamelFrom before (cs ++ bs) = splitCamelFrom before cs ++ bs := by
  induction cs generalizing before with
  | nil => exact splitCamelFrom_blanks hbs before
  | cons c cs ih =>
    have hnext : ∀ b, startsWord b c (cs ++ bs).head? = startsWord b c cs.head? := by
      intro b
      cases cs with
      | cons c' cs => rfl
      | nil =>
        cases bs with
        | nil => rfl
        | cons b' bs =>
          have hb := isNeutral_of_isBlank (hbs b' List.mem_cons_self)
          simp [startsWord, hb.lower]
    simp only [List.cons_append, splitCamelFrom, ih, hnext]
    split <;> rfl

/-- Blanks in front of a phrase begin no word. -/
theorem splitCamelFrom_after {bs : List Char} (hbs : ∀ c ∈ bs, isBlank c = true)
    (cs : List Char) : splitCamelFrom none (bs ++ cs) = bs ++ splitCamelFrom none cs := by
  have hafter : ∀ b, isBlank b = true → splitCamelFrom (some b) cs = splitCamelFrom none cs := by
    intro b hb
    cases cs with
    | nil => rfl
    | cons c cs => simp [splitCamelFrom, startsWord_after hb]
  have hrest : ∀ (b : Char) (bs : List Char), isBlank b = true → (∀ c ∈ bs, isBlank c = true) →
      splitCamelFrom (some b) (bs ++ cs) = bs ++ splitCamelFrom none cs := by
    intro b bs hb hbs
    induction bs generalizing b with
    | nil => exact hafter b hb
    | cons b' bs ih =>
      have hb' := hbs b' List.mem_cons_self
      rw [List.cons_append, splitCamelFrom, Option.any_some, startsWord_blank hb',
        ih b' hb' fun c hc => hbs c (List.mem_cons_of_mem b' hc)]
      rfl
  cases bs with
  | nil => rfl
  | cons b bs =>
    rw [List.cons_append, splitCamelFrom, Option.any_none,
      hrest b bs (hbs b List.mem_cons_self) fun c hc => hbs c (List.mem_cons_of_mem b hc)]
    rfl

theorem wordsOf_trim (s : String) : wordsOf (trim s) = wordsOf s := by
  obtain ⟨before, after, hbefore, hafter, hs⟩ := exists_trimChars s.toList
  have hcut : ∀ {bs : List Char}, (∀ c ∈ bs, isBlank c = true) →
      ∀ c ∈ bs, (!isAlphanumeric c) = true := fun hbs c hc => by
    simp [(isNeutral_of_isBlank (hbs c hc)).alphanumeric]
  have hcamel : splitCamelFrom none s.toList =
      before ++ (splitCamelFrom none (trimChars s.toList) ++ after) := by
    conv_lhs => rw [hs]
    rw [List.append_assoc, splitCamelFrom_after hbefore, splitCamelFrom_append hafter]
  have hlower (cs : List Char) :
      lowerFrom [] (before ++ (cs ++ after)) = before ++ (lowerFrom [] cs ++ after) := by
    have hreverse : ∀ c ∈ before.reverse, isBlank c = true :=
      fun c hc => hbefore c (List.mem_reverse.mp hc)
    rw [lowerFrom_blanks hbefore, List.append_nil]
    exact congrArg (before ++ ·) (lowerFrom_append hreverse hafter [] cs)
  unfold wordsOf
  simp only [trim, String.toList_ofList]
  rw [hcamel, hlower, fieldsFrom_cut (hcut hbefore), fieldsFrom_append (hcut hafter)]

/-- A phrase and the phrase without the blanks at its ends are one term. -/
theorem ofPhrase_trim (s : String) : ofPhrase (trim s) = ofPhrase s := by
  rw [ofPhrase, ofPhrase, wordsOf_trim]

end Term

end MetricLayer
