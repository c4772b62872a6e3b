import MetricLayer.Proofs.Text.Trim
import MetricLayer.Proofs.Vocabulary.Term
import MetricLayer.Text.Folding

/-!
# Words and letter case

A text has words unless it is blank. Neither the lower case nor the singular nor the folding of
letters makes a blank of anything else, so a phrase that is not blank keeps its words in every form
in which it is looked for.

Results:
1. `Text.words_eq_nil_iff`: only blank texts are without words.
2. `Text.isBlankText_lower` and `Term.eq_empty_of_isBlankText`: the two forms of a phrase are blank
   only if the phrase is, or empty.
3. `Text.not_isBlank_of_sameFolded`: a character that is no blank matches no blank.
-/

namespace MetricLayer

namespace Text

/-! ## Words -/

theorem ne_nil_of_mem_fieldsFrom {cut : Char → Bool} {word cs field : List Char}
    (h : field ∈ fieldsFrom cut word cs) : field ≠ [] := by
  have hreverse {word : List Char} (hword : ¬ word.isEmpty = true) : word.reverse ≠ [] := by
    simpa using hword
  fun_induction fieldsFrom cut word cs with
  | case1 word hempty => cases h
  | case2 word hword => exact List.mem_singleton.mp h ▸ hreverse hword
  | case3 word c cs hc hempty ih => exact ih h
  | case4 word c cs hc hword ih =>
    rcases List.mem_cons.mp h with rfl | h
    · exact hreverse hword
    · exact ih h
  | case5 word c cs hc ih => exact ih h

theorem fieldsFrom_eq_nil_iff {cut : Char → Bool} {word cs : List Char} :
    fieldsFrom cut word cs = [] ↔ word = [] ∧ ∀ c ∈ cs, cut c = true := by
  fun_induction fieldsFrom cut word cs with
  | case1 word hempty => simpa using hempty
  | case2 word hword => simpa using hword
  | case3 word c cs hc hempty ih => simp_all
  | case4 word c cs hc hword ih => simp_all
  | case5 word c cs hc ih => simp_all

/-- Only blank texts are without words. -/
theorem words_eq_nil_iff {s : String} : words s = [] ↔ isBlankText s = true := by
  rw [words, List.map_eq_nil_iff, fieldsFrom_eq_nil_iff, isBlankText, List.all_eq_true]
  simp

/-- A word has characters, none of which is blank. -/
theorem mem_words {s w : String} (h : w ∈ words s) :
    w.toList ≠ [] ∧ ∀ c ∈ w.toList, isBlank c = false := by
  obtain ⟨field, hfield, rfl⟩ := List.mem_map.mp h
  rw [String.toList_ofList]
  exact ⟨ne_nil_of_mem_fieldsFrom hfield, fun c hc => mem_fieldsFrom (by simp) hfield hc⟩

/-! ## Letter case -/

/-- What is checked for the list of blanks holds of every blank. -/
theorem of_isBlank {P : Char → Prop} [DecidablePred P]
    (hall : blanks.all (fun b => decide (P b)) = true) {b : Char} (h : isBlank b = true) : P b :=
  of_decide_eq_true (List.all_eq_true.mp hall b (mem_blanks h))

theorem isUncased_of_isBlank {b : Char} (h : isBlank b = true) : IsUncased b :=
  of_isBlank (by decide +kernel) h

theorem lowerAt_ne_nil (before : List Char) (c : Char) (after : List Char) :
    lowerAt before c after ≠ [] := by
  unfold lowerAt
  split
  · split <;> simp
  · split <;> simp

theorem all_isBlank_lowerAt (before : List Char) (c : Char) (after : List Char) :
    (lowerAt before c after).all isBlank = isBlank c := by
  cases hc : isBlank c with
  | true => rw [lowerAt_blank hc, List.all_cons, hc, List.all_nil, Bool.and_self]
  | false =>
    obtain ⟨b, hb⟩ := List.exists_mem_of_ne_nil _ (lowerAt_ne_nil before c after)
    refine List.all_eq_false.mpr ⟨b, hb, fun hblank => ?_⟩
    rw [(isUncased_of_isBlank hblank).eq hb, hblank] at hc
    cases hc

/-- The lower case of a text is blank if the text is. -/
theorem isBlankText_lower (s : String) : isBlankText (lower s) = isBlankText s := by
  have hfrom (cs before : List Char) : (lowerFrom before cs).all isBlank = cs.all isBlank := by
    induction cs generalizing before with
    | nil => rfl
    | cons c cs ih => rw [lowerFrom, List.all_append, ih, all_isBlank_lowerAt, List.all_cons]
  rw [isBlankText, isBlankText, lower, String.toList_ofList, hfrom]

theorem lower_eq_empty_iff {s : String} : lower s = "" ↔ s = "" := by
  have hfrom {cs : List Char} : lowerFrom [] cs = [] ↔ cs = [] := by
    cases cs with
    | nil => simp [lowerFrom]
    | cons c cs => simp [lowerFrom, lowerAt_ne_nil]
  rw [lower, ← String.toList_inj, String.toList_ofList, ← String.toList_inj]
  exact hfrom

/-- A character that is no blank matches no blank without regard to case. -/
theorem not_isBlank_of_sameFolded {c x : Char} (hc : isBlank c = false)
    (h : sameFolded c x = true) : isBlank x = false := by
  by_contra hx
  have hspare : Shift.Spare foldShifts x := of_isBlank (by decide +kernel) (by simpa using hx)
  have hself : Shift.apply x foldShifts = x :=
    of_isBlank (P := fun x => Shift.apply x foldShifts = x) (by decide +kernel) (by simpa using hx)
  have hfold : fold c = fold x := by simpa [sameFolded] using h
  rw [hspare.eq (hfold.trans hself)] at hc
  exact hx hc

end Text

namespace Term

open Text

theorem isForeign_of_isBlank {b : Char} (h : isBlank b = true) : Singular.IsForeign b :=
  of_isBlank (by decide +kernel) h

theorem mem_intercalate_head {sep w : List Char} {ws : List (List Char)} {c : Char} (h : c ∈ w) :
    c ∈ sep.intercalate (w :: ws) := by
  cases ws with
  | nil => simpa [List.intercalate] using h
  | cons w' ws => simp [List.intercalate, h]

/-- A term without words is empty. -/
theorem eq_empty_of_isBlankText {phrase : String} (h : isBlankText (ofPhrase phrase) = true) :
    ofPhrase phrase = "" := by
  have hblank : ∀ c ∈ (ofPhrase phrase).toList, isBlank c = true := by
    simpa [isBlankText] using h
  have hword {w : String} (hw : w ∈ wordsOf phrase) {c : Char} (hc : c ∈ w.toList) :
      isBlank c ≠ true := fun hb => by
    have halnum := alphanumeric_of_mem_wordsOf hw hc
    rw [(isNeutral_of_isBlank hb).alphanumeric] at halnum
    cases halnum
  unfold ofPhrase at hblank ⊢
  match hws : wordsOf phrase with
  | [] => rfl
  | [w] =>
    -- The only word stands in the singular, which has no blank that the word does not have.
    have htext : String.intercalate " " (singularLast [w]) = Singular.ofWord w := rfl
    rw [hws, htext] at hblank
    rw [htext, ← String.toList_inj]
    refine List.eq_nil_iff_forall_not_mem.mpr fun c hc => ?_
    have hb := hblank c hc
    exact hword (w := w) (by rw [hws]; exact List.mem_singleton_self w)
      ((isForeign_of_isBlank hb).mem_of_ofWord hc) hb
  | w :: w' :: ws =>
    have hw : w ∈ wordsOf phrase := by rw [hws]; exact List.mem_cons_self
    obtain ⟨c, hc⟩ : ∃ c, c ∈ w.toList := by
      obtain ⟨field, hfield, rfl⟩ := List.mem_map.mp hw
      rw [String.toList_ofList]
      exact List.exists_mem_of_ne_nil _ (ne_nil_of_mem_fieldsFrom hfield)
    refine absurd (hblank c ?_) (hword hw hc)
    rw [hws, singularLast, String.toList_intercalate, List.map_cons]
    · exact mem_intercalate_head hc
    · simp

end Term

end MetricLayer
