import MetricLayer.Clarification.Response
import MetricLayer.Proofs.Report.Raised
import MetricLayer.Proofs.Text.Trim

/-!
# Values that are replaced

The answer to a question about a value takes the place of the value in every filter of the phrase
that has it. Only where the values as a whole were refused, and are more or fewer than one, is the
answer read as a list of values. So a filter with one value keeps having one value.

Results:
1. `Request.revalue_cases`: what an answer does to a filter.
2. `Request.revalue_one`: a filter with one value keeps having one.
3. `trim_ne_text`: none of several values is the text of all of them.
4. `Request.burden_lt`: an answer with nothing bad in it leaves less that is bad.
-/

namespace MetricLayer

namespace FilterValues

theorem text_of_one {v : FilterValues} {x : String} (h : v.toList = [x]) : v.text = x := by
  rw [text, h]
  rfl

/-- The text of all values is one of them where there is only one. -/
theorem text_mem {v : FilterValues} (h : v.toList.length = 1) : v.text ∈ v.toList := by
  obtain ⟨x, hx⟩ := List.length_eq_one_iff.mp h
  rw [text_of_one hx, hx]
  exact List.mem_singleton_self x

end FilterValues

namespace Request

/-- The filter after an answer about a refused value. -/
def revalue (term refused answer : String) (f : FilterMention) : FilterMention :=
  (replaceValue? term refused answer f).getD f

theorem replaceValues_filters (r : Request) (c : Conflict) (answer : String) :
    (r.replaceValues c answer).1.filters =
      r.filters.map (revalue c.term (c.value.getD "") answer) := by
  unfold replaceValues
  simp only
  split
  · rfl
  · next hnone =>
    have hsame : ∀ f ∈ r.filters, revalue c.term (c.value.getD "") answer f = f := by
      intro f hf
      have hf : ¬ (replaceValue? c.term (c.value.getD "") answer f).isSome = true :=
        fun hsome => hnone (List.any_eq_true.mpr ⟨f, hf, hsome⟩)
      rw [revalue, Option.not_isSome_iff_eq_none.mp hf]
      rfl
    rw [List.map_congr_left hsame, List.map_id']

/-- The answer about the refused value changes the filter. -/
def Touches (term refused : String) (f : FilterMention) : Prop :=
  sameTerm f.field term = true ∧ (refused ∈ f.value.toList ∨ f.value.text = refused)

/-- The answer takes the place of the refused value, or of all values, or does nothing. -/
theorem revalue_cases (term refused answer : String) (f : FilterMention) :
    (sameTerm f.field term = true ∧ refused ∈ f.value.toList ∧
      revalue term refused answer f = { f with
        value := .ofList (f.value.toList.map fun x => if x = refused then answer else x) }) ∨
    (sameTerm f.field term = true ∧ refused ∉ f.value.toList ∧ f.value.text = refused ∧
      revalue term refused answer f =
        { f with value := .ofList (FilterValues.splitCommas answer) }) ∨
    (¬ Touches term refused f ∧ revalue term refused answer f = f) := by
  unfold revalue replaceValue? FilterValues.replace?
  by_cases hterm : sameTerm f.field term = true
  · by_cases hin : refused ∈ f.value.toList
    · exact .inl ⟨hterm, hin, by simp [hterm, hin]⟩
    · by_cases htext : f.value.text = refused
      · exact .inr (.inl ⟨hterm, hin, htext, by simp [hterm, hin, htext]⟩)
      · exact .inr (.inr ⟨by simp [Touches, hin, htext], by simp [hterm, hin, htext]⟩)
  · exact .inr (.inr ⟨by simp [Touches, hterm], by simp [hterm]⟩)

/-- Nothing but the values of a filter is changed. -/
theorem revalue_eq (term refused answer : String) (f : FilterMention) :
    ∃ value, revalue term refused answer f = { f with value } := by
  rcases revalue_cases term refused answer f with ⟨-, -, h⟩ | ⟨-, -, -, h⟩ | ⟨-, h⟩ <;> rw [h]
  · exact ⟨_, rfl⟩
  · exact ⟨_, rfl⟩
  · exact ⟨f.value, rfl⟩

/-- A filter with one value keeps having one value, whatever is answered. -/
theorem revalue_one {f : FilterMention} (h : f.value.toList.length = 1)
    (term refused answer : String) :
    (revalue term refused answer f).value.toList.length = 1 := by
  rcases revalue_cases term refused answer f with ⟨-, -, h'⟩ | ⟨-, hnot, htext, -⟩ | ⟨-, h'⟩
  · rw [h', FilterValues.toList_ofList, List.length_map, h]
  · exact absurd (htext ▸ FilterValues.text_mem h) hnot
  · rw [h', h]

end Request

/-! ## Values and the text of all of them -/

/-- The number of characters that are not blank. -/
def inked (s : String) : Nat := s.toList.countP (!Text.isBlank ·)

theorem inked_trim (s : String) : inked (Text.trim s) = inked s := by
  obtain ⟨before, after, hbefore, hafter, hs⟩ := Text.exists_trimChars s.toList
  have hnone : ∀ {cs : List Char}, (∀ c ∈ cs, Text.isBlank c = true) →
      cs.countP (!Text.isBlank ·) = 0 := fun h =>
    List.countP_eq_zero.mpr fun c hc => by simp [h c hc]
  unfold inked
  conv_rhs => rw [hs, List.countP_append, List.countP_append, hnone hbefore, hnone hafter]
  simp [Text.trim]

theorem inked_text (xs : List String) :
    inked (String.intercalate ", " xs) = (xs.map inked).sum + (xs.length - 1) := by
  induction xs with
  | nil => rfl
  | cons x xs ih =>
    cases xs with
    | nil => simp [inked]
    | cons y ys =>
      have hsplit : (String.intercalate ", " (x :: y :: ys)).toList =
          x.toList ++ (", ".toList ++ (String.intercalate ", " (y :: ys)).toList) := by
        simp [String.toList_intercalate, List.intercalate]
      have hsep : ", ".toList.countP (!Text.isBlank ·) = 1 := by decide
      unfold inked at ih ⊢
      rw [hsplit, List.countP_append, List.countP_append, ih, hsep]
      simp only [List.map_cons, List.sum_cons, List.length_cons]
      omega

/-- None of several values is the text of all of them, also without blanks at its ends. -/
theorem trim_ne_text {v : FilterValues} (h : 1 < v.toList.length) {x : String}
    (hx : x ∈ v.toList) : Text.trim x ≠ Text.trim v.text := by
  intro hsame
  have hinked : inked x = inked v.text := by rw [← inked_trim x, hsame, inked_trim]
  have hle : inked x ≤ (v.toList.map inked).sum :=
    List.single_le_sum (fun _ _ => Nat.zero_le _) _ (List.mem_map_of_mem hx)
  rw [FilterValues.text, inked_text] at hinked
  omega

/-! ## What is left to replace -/

/-- How much of a filter is bad: its values, and the text of all of them where that is not one of
the values. A value weighs more, since without it the text can turn bad. -/
def FilterMention.burden (bad : String → Bool) (f : FilterMention) : Nat :=
  2 * f.value.toList.countP bad +
    if f.value.toList.length ≠ 1 ∧ bad f.value.text = true then 1 else 0

/-- There is nothing bad in the answer, whichever way it is read. -/
structure Mends (bad : String → Bool) (answer : String) : Prop where
  value : bad answer = false
  items : ∀ x ∈ FilterValues.splitCommas answer, bad x = false
  text : bad (FilterValues.ofList (FilterValues.splitCommas answer)).text = false

theorem countP_replace {bad : String → Bool} {refused answer : String}
    (hrefused : bad refused = true) (hanswer : bad answer = false) (xs : List String) :
    (xs.map fun x => if x = refused then answer else x).countP bad + xs.count refused =
      xs.countP bad := by
  induction xs with
  | nil => rfl
  | cons x xs ih =>
    rw [List.map_cons, List.countP_cons, List.countP_cons, List.count_cons, ← ih]
    by_cases hx : x = refused
    · simp [hx, hrefused, hanswer]
      omega
    · simp [hx]
      omega

namespace Request

variable {bad : String → Bool} {term refused answer : String}

/-- A filter that is touched has less that is bad afterwards; any other stays as it is. -/
theorem burden_revalue (term : String) (hrefused : bad refused = true)
    (hanswer : Mends bad answer) (f : FilterMention) :
    (revalue term refused answer f).burden bad < f.burden bad ∨
      (¬ Touches term refused f ∧ revalue term refused answer f = f) := by
  rcases revalue_cases term refused answer f with ⟨-, hin, h⟩ | ⟨-, hnot, htext, h⟩ | ⟨hno, h⟩
  · have hcount := countP_replace hrefused hanswer.value f.value.toList
    have hpos : 0 < f.value.toList.count refused := List.count_pos_iff.mpr hin
    left
    rw [h]
    simp only [FilterMention.burden, FilterValues.toList_ofList]
    split <;> omega
  · -- the text is bad, and is not a value
    have hlength : f.value.toList.length ≠ 1 :=
      fun hone => hnot (htext ▸ FilterValues.text_mem hone)
    have hnone : (FilterValues.splitCommas answer).countP bad = 0 :=
      List.countP_eq_zero.mpr fun x hx => by simp [hanswer.items x hx]
    left
    rw [h]
    simp only [FilterMention.burden, FilterValues.toList_ofList, hnone, hanswer.text, htext,
      hrefused]
    rw [if_neg (by simp), if_pos ⟨hlength, trivial⟩]
    omega
  · exact .inr ⟨hno, h⟩

/-- Among filters of which one is touched, less is bad afterwards. -/
theorem burden_lt (hrefused : bad refused = true) (hanswer : Mends bad answer)
    {fs : List FilterMention} (h : ∃ f ∈ fs, Touches term refused f) :
    ((fs.map (revalue term refused answer)).map (·.burden bad)).sum <
      (fs.map (·.burden bad)).sum := by
  rw [List.map_map]
  refine List.sum_lt_sum _ _ (fun f _ => ?_) ?_
  · rcases burden_revalue term hrefused hanswer f with h | ⟨-, h⟩
    · exact h.le
    · exact (congrArg (·.burden bad) h).le
  · obtain ⟨f, hf, htouched⟩ := h
    refine ⟨f, hf, ?_⟩
    exact (burden_revalue term hrefused hanswer f).resolve_right fun hno => hno.1 htouched

end Request

end MetricLayer
