import MetricLayer.Vocabulary.Term
import Mathlib.Data.List.Basic

/-!
# What terms are made of

A term is made of letters, numbers and single spaces, apart from what a singular form brings in. So
it has none of the marks that ids and keys put between their parts.

Results:
1. `Term.bar_notMem`: no term has a bar.
-/

namespace MetricLayer

namespace Text

theorem mem_fieldsFrom {cut : Char → Bool} {word cs field : List Char} {c : Char}
    (hword : ∀ c ∈ word, cut c = false) (hfield : field ∈ fieldsFrom cut word cs) (hc : c ∈ field) :
    cut c = false := by
  induction cs generalizing word with
  | nil =>
    unfold fieldsFrom at hfield
    split at hfield
    · cases hfield
    · rw [List.mem_singleton.mp hfield] at hc
      exact hword c (List.mem_reverse.mp hc)
  | cons x cs ih =>
    unfold fieldsFrom at hfield
    have hnil : ∀ c ∈ ([] : List Char), cut c = false := by simp
    split at hfield
    · split at hfield
      · exact ih hnil hfield
      · rcases List.mem_cons.mp hfield with rfl | hfield
        · exact hword c (List.mem_reverse.mp hc)
        · exact ih hnil hfield
    · next hx =>
      refine ih (fun y hy => ?_) hfield
      rcases List.mem_cons.mp hy with rfl | hy
      · simpa using hx
      · exact hword y hy

theorem eq_or_shift (c : Char) (ss : List Shift) :
    Shift.apply c ss = c ∨ ∃ s ∈ ss, s.first ≤ c.toNat ∧ c.toNat ≤ s.last ∧
      Shift.apply c ss = Char.ofNat (c.toNat + s.distance).toNat := by
  induction ss with
  | nil => exact .inl rfl
  | cons s ss ih =>
    unfold Shift.apply
    split
    · exact .inl rfl
    · split
      · next hhas =>
        simp only [Run.has, Bool.and_eq_true, decide_eq_true_eq] at hhas
        exact .inr ⟨s, List.mem_cons_self, hhas.1.1, hhas.1.2, rfl⟩
      · refine ih.imp_right ?_
        rintro ⟨s', hs', h⟩
        exact ⟨s', List.mem_cons_of_mem s hs', h⟩

theorem toNat_of_ofNat {n : Nat} {c : Char} (h : Char.ofNat n = c) (hc : c.toNat ≠ 0) :
    n = c.toNat := by
  by_cases hvalid : n.isValidChar
  · rw [← h, Char.ofNat, dif_pos hvalid]
    rfl
  · rw [Char.ofNat, dif_neg hvalid] at h
    exact absurd (h ▸ rfl) hc

/-- The shifts leave the character to itself: they move no other one to it. -/
def Shift.Spare (ss : List Shift) (b : Char) : Prop :=
  b.toNat ≠ 0 ∧ ∀ s ∈ ss, ¬ ((s.first : Int) ≤ b.toNat - s.distance ∧
    b.toNat - s.distance ≤ s.last)

instance (ss : List Shift) (b : Char) : Decidable (Shift.Spare ss b) :=
  inferInstanceAs (Decidable (_ ∧ ∀ s ∈ ss, _))

theorem Shift.Spare.eq {ss : List Shift} {b c : Char} (hb : Shift.Spare ss b)
    (h : Shift.apply c ss = b) : c = b := by
  rcases eq_or_shift c ss with hsame | ⟨s, hs, hfirst, hlast, hmoved⟩
  · rw [← hsame, h]
  · rw [h] at hmoved
    obtain ⟨hzero, hmiss⟩ := hb
    have hnat := toNat_of_ofNat hmoved.symm hzero
    exact absurd ⟨by omega, by omega⟩ (hmiss s hs)

/-- No other character has this one in its lower case. -/
def IsUncased (b : Char) : Prop := Shift.Spare lowerShifts b ∧ b ∉ ['ς', 'σ', 'i', '\u0307']

instance (b : Char) : Decidable (IsUncased b) := inferInstanceAs (Decidable (_ ∧ _))

theorem IsUncased.eq {b c : Char} (hb : IsUncased b) {before after : List Char}
    (h : b ∈ lowerAt before c after) : c = b := by
  obtain ⟨hspare, hforms⟩ := hb
  unfold lowerAt at h
  split at h
  · split at h <;> exact absurd (by simp_all) hforms
  · split at h
    · exact absurd (by simp_all) hforms
    · exact hspare.eq (List.mem_singleton.mp h).symm

theorem IsUncased.mem_of_lower {b : Char} (hb : IsUncased b) {s : String}
    (h : b ∈ (lower s).toList) : b ∈ s.toList := by
  have hfrom : ∀ (cs before : List Char), b ∈ lowerFrom before cs → b ∈ cs := by
    intro cs
    induction cs with
    | nil => exact fun _ h => h
    | cons c cs ih =>
      intro before h
      rcases List.mem_append.mp h with h | h
      · rw [hb.eq h]
        exact List.mem_cons_self
      · exact List.mem_cons_of_mem c (ih _ h)
  rw [lower, String.toList_ofList] at h
  exact hfrom _ _ h

end Text

namespace Singular

theorem mem_groupText {m : Pattern.Match} {n : Nat} {cs : List Char} {c : Char}
    (h : c ∈ (m.groupText n cs).toList) : c ∈ cs := by
  unfold Pattern.Match.groupText at h
  cases hm : m.group? n with
  | none => simp [hm] at h
  | some span =>
    rw [hm, Option.map_some, Option.getD_some, Span.text, String.toList_ofList] at h
    exact List.mem_of_mem_drop (List.mem_of_mem_take h)

/-- The tables of letter case and of singular forms bring the character into no word. -/
def IsForeign (b : Char) : Prop :=
  Text.IsUncased b ∧ (∀ r ∈ rules, b ∉ r.ending.toList) ∧ (∀ p ∈ exceptions, b ∉ p.2.toList) ∧
    ∀ p ∈ reportPlurals, b ∉ p.2.toList

instance (b : Char) : Decidable (IsForeign b) := inferInstanceAs (Decidable (_ ∧ _ ∧ _ ∧ _))

theorem IsForeign.mem_of_singular? {b : Char} (hb : IsForeign b) {r : Rule} (hr : r ∈ rules)
    {w : List Char} {s : String} (hs : r.singular? w = some s) (h : b ∈ s.toList) : b ∈ w := by
  unfold Rule.singular? at hs
  split at hs
  · obtain ⟨m, -, hm⟩ := Option.bind_eq_some_iff.mp hs
    obtain ⟨span, -, rfl⟩ := Option.map_eq_some_iff.mp hm
    rw [String.toList_append, String.toList_append] at h
    rcases List.mem_append.mp h with h | h
    · rcases List.mem_append.mp h with h | h
      · exact mem_groupText h
      · split at h
        · exact mem_groupText h
        · cases h
    · exact absurd h (hb.2.1 r hr)
  · cases hs

theorem IsForeign.mem_of_byEnding {b : Char} (hb : IsForeign b) {w : String}
    (h : b ∈ (byEnding w).toList) : b ∈ w.toList := by
  unfold byEnding at h
  split at h
  · exact h
  · split at h
    · next s hs =>
      obtain ⟨before, after, hsplit, -⟩ := List.lookup_eq_some_iff.mp hs
      exact absurd h (hb.2.2.1 (w, s) (by rw [hsplit]; simp))
    · cases hfind : rules.findSome? (·.singular? w.toList) with
      | none =>
        rw [hfind] at h
        exact h
      | some s =>
        obtain ⟨r, hr, hs⟩ := List.exists_of_findSome?_eq_some hfind
        rw [hfind] at h
        exact hb.mem_of_singular? hr hs h

/-- A foreign character is in a singular form only if the word has it. -/
theorem IsForeign.mem_of_ofWord {b : Char} (hb : IsForeign b) {w : String}
    (h : b ∈ (ofWord w).toList) : b ∈ w.toList := by
  refine hb.1.mem_of_lower ?_
  unfold ofWord at h
  generalize Text.lower w = w at h
  unfold ofLower at h
  split at h
  · next p s hs => exact absurd h (hb.2.2.2 _ (List.mem_of_find?_eq_some hs))
  · split at h
    · exact h
    · exact hb.mem_of_byEnding h

end Singular

namespace Term

theorem mem_singularLast {ws : List String} {w : String} (h : w ∈ singularLast ws) :
    ∃ w' ∈ ws, w = w' ∨ w = Singular.ofWord w' := by
  fun_induction singularLast ws with
  | case1 => cases h
  | case2 w' => exact ⟨w', List.mem_singleton_self w', .inr (List.mem_singleton.mp h)⟩
  | case3 w' ws _ ih =>
    rcases List.mem_cons.mp h with rfl | h
    · exact ⟨w, List.mem_cons_self, .inl rfl⟩
    · obtain ⟨w'', hw, h⟩ := ih h
      exact ⟨w'', List.mem_cons_of_mem w' hw, h⟩

theorem mem_intercalate {sep : List Char} {ws : List (List Char)} {c : Char}
    (h : c ∈ sep.intercalate ws) : c ∈ sep ∨ ∃ w ∈ ws, c ∈ w := by
  induction ws with
  | nil => simp [List.intercalate] at h
  | cons w ws ih =>
    cases ws with
    | nil => exact .inr ⟨w, List.mem_cons_self, by simpa [List.intercalate] using h⟩
    | cons w' ws =>
      have hsplit : sep.intercalate (w :: w' :: ws) = w ++ (sep ++ sep.intercalate (w' :: ws)) := by
        simp [List.intercalate]
      rw [hsplit] at h
      rcases List.mem_append.mp h with h | h
      · exact .inr ⟨w, List.mem_cons_self, h⟩
      · rcases List.mem_append.mp h with h | h
        · exact .inl h
        · refine (ih h).imp_right ?_
          rintro ⟨x, hx, hc⟩
          exact ⟨x, List.mem_cons_of_mem w hx, hc⟩

/-- The words of a phrase are made of letters and numbers. -/
theorem alphanumeric_of_mem_wordsOf {phrase w : String} (hw : w ∈ wordsOf phrase) {c : Char}
    (hc : c ∈ w.toList) : Text.isAlphanumeric c = true := by
  obtain ⟨field, hfield, rfl⟩ := List.mem_map.mp hw
  rw [String.toList_ofList] at hc
  simpa using Text.mem_fieldsFrom (by simp) hfield hc

/-- No term has a bar. -/
theorem bar_notMem (phrase : String) : '|' ∉ (ofPhrase phrase).toList := by
  have hforeign : Singular.IsForeign '|' := by decide +kernel
  intro h
  rw [ofPhrase, String.toList_intercalate] at h
  rcases mem_intercalate h with h | ⟨cs, hcs, h⟩
  · revert h
    decide
  · obtain ⟨w, hw, rfl⟩ := List.mem_map.mp hcs
    obtain ⟨w', hw', hsame⟩ := mem_singularLast hw
    have hbar : '|' ∈ w'.toList := by
      rcases hsame with rfl | rfl
      · exact h
      · exact hforeign.mem_of_ofWord h
    have := alphanumeric_of_mem_wordsOf hw' hbar
    revert this
    decide

end Term

end MetricLayer
