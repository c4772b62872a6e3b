import Mathlib.Tactic
import MetricLayer.Proofs.Decimal.Magnitude
import MetricLayer.Vocabulary.Dictionary

/-!
# The ladder of matches

An entry matches a term by the first rung of the ladder that fits, which `Rung.IsFirst` says without
the order in which the rungs are tried. The two topmost rungs are for entries that are known by the
term, so what is read off an index of the terms is never on a rung below.

Results:
1. `Rung.exact_isFirst` and `Rung.below?_eq_some_iff`: the rungs that are read off the index and
   those that are tried are the first ones that fit.
2. `Rung.score_isPositive`: a score above 0 is a positive number, and not too large to be told from
   others.
-/

namespace MetricLayer

/-! ## Texts -/

namespace Term

theorem occursIn_iff {needle text : List Char} : occursIn needle text = true ↔ needle <:+: text := by
  induction text with
  | nil => simp [occursIn]
  | cons c cs ih =>
    rw [occursIn, Bool.or_eq_true, List.isPrefixOf_iff_prefix, ih, List.infix_cons_iff]

/-- The text contains the phrase as whole words, which are between spaces. -/
def HasWords (text phrase : String) : Prop :=
  phrase ≠ "" ∧ ' ' :: phrase.toList ++ [' '] <:+: ' ' :: text.toList ++ [' ']

instance (text phrase : String) : Decidable (HasWords text phrase) :=
  inferInstanceAs (Decidable (_ ∧ _))

theorem hasPhrase_iff {text phrase : String} : hasPhrase text phrase = true ↔ HasWords text phrase := by
  simp [hasPhrase, HasWords, occursIn_iff]

end Term

/-! ## Similarity -/

namespace Similarity

open Decimal

theorem unsigned_div_or {u v : Float.Model.UnpackedFloat} (hu : Unsigned u) (hv : Unsigned v) :
    Unsigned (Float.Model.UnpackedFloat.div .binary64 u v) ∨
      Float.Model.UnpackedFloat.div .binary64 u v = .notANumber := by
  cases hv with
  | infinity =>
    cases hu with
    | infinity => exact .inr rfl
    | zero | finite => exact .inl .zero
  | zero =>
    cases hu with
    | infinity | finite => exact .inl .infinity
    | zero => exact .inr rfl
  | finite m e hm => exact .inl (unsigned_div hu rfl)

theorem unsigned_quotient {x y : Float} (hx : Unsigned x.toModel.unpack)
    (hy : Unsigned y.toModel.unpack) :
    Unsigned (x / y).toModel.unpack ∨ (x / y).toModel.unpack = .notANumber := by
  have hquotient : (x / y).toModel = .pack (.div .binary64 x.toModel.unpack y.toModel.unpack) := rfl
  rw [hquotient]
  rcases unsigned_div_or hx hy with h | h
  · exact .inl (unpack_pack h)
  · rw [h]
    exact .inr rfl

/-- A similarity is not too large. -/
theorem similarity_isBelow (s t : String) : IsBelow 0 (similarity s t).toModel.unpack := by
  unfold similarity
  simp only
  split
  · exact (by decide : (-52 : ℤ) ≤ 0)
  · exact unpack_pack_isBelow (by decide) (by decide)
      (oneSub_isBelow (unsigned_quotient (unsigned_ofNat_unpack _) (unsigned_ofNat_unpack _)))

end Similarity

/-! ## Rungs -/

namespace Rung

variable {settings : MappingSettings} {term : String} {t : Terms}

/-- How far down the ladder the rung is. -/
def depth : Rung → ℕ
  | name => 0
  | synonym => 1
  | containsName => 2
  | containsSynonym => 3
  | inName => 4
  | inSynonym => 5
  | similar _ => 6

/-- The rung fits an entry of the terms. -/
def Fits (settings : MappingSettings) (term : String) (t : Terms) : Rung → Prop
  | name => t.name = term
  | synonym => term ∈ t.synonyms
  | containsName => Term.HasWords term t.name
  | containsSynonym => ∃ s ∈ t.synonyms, Term.HasWords term s
  | inName => term.toList <:+: t.name.toList
  | inSynonym => ∃ s ∈ t.synonyms, term.toList <:+: s.toList
  | similar x => x = bestSimilarity term t ∧ settings.fuzzyMatching = true ∧
      settings.fuzzyMinSimilarity ≤ x

/-- The rung is the first one that fits an entry of the terms. -/
structure IsFirst (settings : MappingSettings) (term : String) (t : Terms) (r : Rung) : Prop where
  fits : r.Fits settings term t
  first : ∀ r' : Rung, r'.Fits settings term t → r.depth ≤ r'.depth

/-- Rungs that fit and are equally far down are one rung. -/
theorem Fits.eq_of_depth {r r' : Rung} (h : r.Fits settings term t) (h' : r'.Fits settings term t)
    (hdepth : r.depth = r'.depth) : r = r' := by
  cases r <;> cases r' <;> simp only [depth] at hdepth <;> try omega
  all_goals first | rfl | exact congrArg similar (h.1.trans h'.1.symm)

/-- There is one first rung at most. -/
theorem IsFirst.unique {r r' : Rung} (h : IsFirst settings term t r)
    (h' : IsFirst settings term t r') : r = r' :=
  h.fits.eq_of_depth h'.fits ((h.first r' h'.fits).antisymm (h'.first r h.fits))

/-- An entry that is known by the term is on one of the two topmost rungs. -/
theorem exact_isFirst (h : term ∈ t.all) : IsFirst settings term t (exact term t) := by
  unfold exact
  split
  · next hname => exact ⟨hname, fun r _ => Nat.zero_le _⟩
  · next hname =>
    have hmem : term ∈ t.synonyms :=
      (List.mem_cons.mp h).resolve_left fun heq => hname heq.symm
    refine ⟨hmem, fun r hr => ?_⟩
    cases r with
    | name => exact absurd hr hname
    | _ => simp [depth]

/-- What is tried for an entry is the first rung that fits, unless it is known by the term. -/
theorem below?_eq_some {r : Rung} (hunknown : term ∉ t.all)
    (h : below? settings term t = some r) : IsFirst settings term t r := by
  have hname : t.name ≠ term := fun h => hunknown (List.mem_cons.mpr (.inl h.symm))
  have hsynonym : term ∉ t.synonyms := fun h => hunknown (List.mem_cons_of_mem _ h)
  simp only [below?, Term.hasPhrase_iff, List.any_eq_true, Term.occursIn_iff, Bool.and_eq_true,
    decide_eq_true_eq] at h
  split_ifs at h with h₁ h₂ h₃ h₄ h₅
  all_goals
    obtain rfl := Option.some.inj h
    refine ⟨by first | assumption | exact ⟨rfl, by assumption⟩, fun r' hr' => ?_⟩
    cases r' <;> first | exact absurd hr' (by assumption) | simp [depth]

theorem below?_eq_none (h : below? settings term t = none) {r : Rung}
    (hr : r.Fits settings term t) : term ∈ t.all := by
  simp only [below?, Term.hasPhrase_iff, List.any_eq_true, Term.occursIn_iff, Bool.and_eq_true,
    decide_eq_true_eq] at h
  split_ifs at h with h₁ h₂ h₃ h₄ h₅
  cases r with
  | name => exact List.mem_cons.mpr (.inl hr.symm)
  | synonym => exact List.mem_cons_of_mem _ hr
  | similar x =>
    obtain ⟨rfl, hfuzzy⟩ := hr
    exact absurd hfuzzy h₅
  | _ => exact absurd hr (by assumption)

theorem below?_eq_some_iff (hunknown : term ∉ t.all) {r : Rung} :
    below? settings term t = some r ↔ IsFirst settings term t r := by
  refine ⟨below?_eq_some hunknown, fun hr => ?_⟩
  cases h : below? settings term t with
  | none => exact absurd (below?_eq_none h hr.fits) hunknown
  | some r' => rw [(below?_eq_some hunknown h).unique hr]

/-! ## Scores -/

theorem bestSimilarity_isBelow (term : String) (t : Terms) :
    Decimal.IsBelow 0 (bestSimilarity term t).toModel.unpack := by
  unfold bestSimilarity
  refine List.foldlRecOn t.all _ (motive := fun best : Float => Decimal.IsBelow 0 best.toModel.unpack)
    (by exact trivial) fun best hbest s _ => ?_
  simp only
  split
  · exact Similarity.similarity_isBelow ..
  · exact hbest

/-- A score above 0 is a positive number that is not too large. -/
theorem score_isPositive {r : Rung} (hr : r.Fits settings term t) (h : 0 < r.score) :
    Decimal.isPositive r.score.toModel.unpack = true := by
  cases r with
  | similar x =>
    obtain ⟨rfl, -⟩ := hr
    refine Decimal.isPositive_of_isBelow (k := 0)
      (Decimal.unpack_pack_isBelow (by decide) (by decide) ?_) h
    exact Decimal.mul_isBelow (by decide) (bestSimilarity_isBelow term t) rfl (by decide)
  | _ => decide +kernel

end Rung

end MetricLayer
