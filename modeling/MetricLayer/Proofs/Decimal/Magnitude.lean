import Mathlib
import MetricLayer.Proofs.Decimal.Order

/-!
# Numbers that are not too large

A number overflows when its exponent is too large to be stored. Rounding raises the exponent to the
one that fits the digits and by one more at most, so what is left of 1 and what a factor below 1
makes of a number are not too large either.

Results:
1. `roundWithAccuracy_isBelow` and `round_isBelow`: the exponent of what is rounded.
2. `unpack_pack_isBelow`: what is not too large does not overflow when it is stored.
3. `oneSub_isBelow` and `mul_isBelow`: what is left of 1, and a product with a factor below 1.
-/

namespace MetricLayer.Decimal

open Float.Model (Format totalExponent)
open Float.Model.UnpackedFloat hiding pack unpack

/-- The number has no greater exponent, unless it has a sign. -/
def IsBelow (k : ℤ) : Float.Model.UnpackedFloat → Prop
  | .infinity .positive => False
  | .finite .positive _ e _ => e ≤ k
  | _ => True

theorem isBelow_dite {k : ℤ} {p : Prop} [Decidable p] {s : Sign} {m : ℕ} {e : ℤ}
    (hm : ¬p → 0 < m) (he : s ≠ .negative → e ≤ k) :
    IsBelow k (if h : p then .zero s else .finite s m e (hm h)) := by
  by_cases h : p
  · rw [dif_pos h]
    trivial
  · rw [dif_neg h]
    cases s with
    | negative => trivial
    | positive => exact he Sign.noConfusion

/-! ## Rounding -/

theorem mantissa_shiftRight (em : ExtendedMantissa) (n : ℕ) :
    (em >>> n).mantissa = em.mantissa / 2 ^ n := by
  induction n with
  | zero => exact (Nat.div_one _).symm
  | succ n ih =>
    show (em >>> n).mantissa / 2 = _
    rw [ih, Nat.div_div_eq_div_mul, pow_succ]

theorem roundedMantissa_le (em : ExtendedMantissa) : em.roundedMantissa ≤ em.mantissa + 1 := by
  obtain ⟨m, roundBit, stickyBit⟩ := em
  cases roundBit <;> cases stickyBit <;>
    simp only [ExtendedMantissa.roundedMantissa, ExtendedMantissa.accuracy,
      Accuracy.roundToNearestEven] <;> omega

theorem log2_succ_le (n : ℕ) : (n + 1).log2 ≤ n.log2 + 1 := by
  have hlt : n + 1 < 2 ^ (n.log2 + 1 + 1) := by
    have := Nat.lt_log2_self (n := n)
    rw [pow_succ]
    omega
  exact Nat.le_of_lt_succ ((Nat.log2_lt n.succ_ne_zero).mpr hlt)

/-- Rounding after a shift adds one digit at most to those that are left. -/
theorem log2_roundedMantissa_le (em : ExtendedMantissa) (n : ℕ) :
    (em >>> n).roundedMantissa.log2 ≤ em.mantissa.log2 - n + 1 := by
  have hle := roundedMantissa_le (em >>> n)
  rw [mantissa_shiftRight] at hle
  have hmono : (em >>> n).roundedMantissa.log2 ≤ (em.mantissa / 2 ^ n + 1).log2 := by
    simp only [Nat.log2_eq_log_two]
    exact Nat.log_mono_right hle
  have hdiv : (em.mantissa / 2 ^ n).log2 = em.mantissa.log2 - n := by
    simp only [Nat.log2_eq_log_two]
    exact Nat.log_div_base_pow ..
  have := log2_succ_le (em.mantissa / 2 ^ n)
  omega

theorem mantissa_ofMantissaAndAccuracy (m : ℕ) (a : Accuracy) :
    (ExtendedMantissa.ofMantissaAndAccuracy m a).mantissa = m := by
  cases a with
  | exact => rfl
  | inexact o => cases o <;> rfl

/-- What is rounded to 53 digits has the exponent that this takes, or one more. -/
theorem roundWithAccuracy_isBelow {k : ℤ} (s : Sign) {m : ℕ} {e : ℤ} (a : Accuracy)
    (hmin : -1074 ≤ k) (he : e ≤ k) (htotal : totalExponent m e ≤ k + 52) :
    IsBelow k (roundWithAccuracy .binary64 s m e a) := by
  unfold roundWithAccuracy
  refine isBelow_dite _ fun _ => ?_
  simp only [Format.targetExponent, Format.mantissaBits, Format.minExponent, totalExponent]
    at htotal ⊢
  have hdigits := log2_roundedMantissa_le (ExtendedMantissa.ofMantissaAndAccuracy m a)
  simp only [mantissa_ofMantissaAndAccuracy] at hdigits
  norm_num
  generalize hn : (max ((m.log2 : ℤ) + 1 + e - 53) (-1074) - e).toNat = n
  have := hdigits n
  omega

theorem totalExponent_shiftLeft {m : ℕ} (hm : 0 < m) (n : ℕ) (e : ℤ) :
    totalExponent (m <<< n) (e - n) = totalExponent m e := by
  have hlog : (m <<< n).log2 = m.log2 + n := by
    induction n with
    | zero => rfl
    | succ n ih =>
      rw [Nat.shiftLeft_succ, Nat.log2_two_mul (Nat.shiftLeft_eq .. ▸ by positivity), ih, add_assoc]
  unfold totalExponent
  rw [hlog]
  push_cast
  ring

theorem round_isBelow {k : ℤ} (s : Sign) {m : ℕ} {e : ℤ} (hm : 0 < m) (hmin : -1074 ≤ k)
    (htotal : totalExponent m e ≤ k + 52) :
    IsBelow k (Float.Model.UnpackedFloat.round .binary64 s m e) := by
  unfold Float.Model.UnpackedFloat.round decreaseExponent
  refine roundWithAccuracy_isBelow s .exact hmin ?_ ((totalExponent_shiftLeft hm _ e).trans_le htotal)
  simp only [Format.targetExponent, Format.mantissaBits, Format.minExponent]
  norm_num
  omega

/-! ## Storing -/

theorem isBelow_components {f : Format} {k : ℤ} {e : BitVec f.exponentBits}
    (hmin : 1 - ((f.exponentBias : ℤ) + f.mantissaBitsWithoutImplicit) ≤ k) (hones : e ≠ -1#_)
    (he : (e.toNat : ℤ) - (f.exponentBias + f.mantissaBitsWithoutImplicit) ≤ k) (s : Sign)
    (m : BitVec f.mantissaBitsWithoutImplicit) :
    IsBelow k (Float.Model.UnpackedFloat.unpack f (packComponents f s e m)) := by
  unfold Float.Model.UnpackedFloat.unpack
  dsimp only
  rw [unpackExponent_packComponents, if_neg hones]
  by_cases hzeros : e = 0#_
  · rw [if_pos hzeros, hzeros]
    refine isBelow_dite _ fun _ => ?_
    rw [BitVec.toNat_ofNat, Nat.zero_mod]
    omega
  · rw [if_neg hzeros]
    generalize Sign.ofBitVec _ = sign
    cases sign with
    | negative => trivial
    | positive => exact he

theorem isBelow_negative {f : Format} {k : ℤ} (e : BitVec f.exponentBits)
    (m : BitVec f.mantissaBitsWithoutImplicit) :
    IsBelow k (Float.Model.UnpackedFloat.unpack f (packComponents f .negative e m)) := by
  have hsign : Sign.ofBitVec (unpackSign (packComponents f .negative e m)) = .negative := by
    rw [unpackSign_packComponents]
    rfl
  unfold Float.Model.UnpackedFloat.unpack
  dsimp only
  rw [hsign]
  split
  · split <;> trivial
  · split
    · split <;> trivial
    · trivial

/-- A finite number that is not too large is stored in parts that are those of such a number. -/
theorem exists_below_components {k e : ℤ} (hmin : -1074 ≤ k) (hmax : k < 972) (he : e ≤ k) (s : Sign)
    {m : ℕ} (hm : 0 < m) :
    ∃ biased digits, biased ≠ -1#_ ∧ (biased.toNat : ℤ) - 1075 ≤ k ∧
      Float.Model.UnpackedFloat.pack .binary64 (.finite s m e hm) =
        packComponents .binary64 s biased digits := by
  have hbiased : (e + Format.binary64.exponentBias + Format.binary64.mantissaBitsWithoutImplicit) =
      e + 1075 := by
    rw [add_assoc]
    rfl
  unfold Float.Model.UnpackedFloat.pack
  dsimp only
  rw [hbiased, if_neg (by rw [show 2 ^ Format.binary64.exponentBits = 2048 from rfl]; omega)]
  split
  · have hvalue : (BitVec.ofNat Format.binary64.exponentBits (e + 1075).toNat).toNat =
        (e + 1075).toNat :=
      Nat.mod_eq_of_lt (by rw [show 2 ^ Format.binary64.exponentBits = 2048 from rfl]; omega)
    refine ⟨_, _, fun hones => ?_, ?_, rfl⟩
    · rw [hones, show (-BitVec.ofNat Format.binary64.exponentBits 1).toNat = 2047 from rfl] at hvalue
      omega
    · rw [hvalue]
      omega
  · refine ⟨_, _, by decide, ?_, rfl⟩
    rw [BitVec.toNat_ofNat, Nat.zero_mod]
    omega

/-- What is not too large does not overflow when it is stored. -/
theorem unpack_pack_isBelow {k : ℤ} (hmin : -1074 ≤ k) (hmax : k < 972)
    {u : Float.Model.UnpackedFloat} (h : IsBelow k u) :
    IsBelow k (Float.Model.pack u).unpack := by
  show IsBelow k (Float.Model.UnpackedFloat.unpack .binary64
    (Float.Model.UnpackedFloat.pack .binary64 u))
  have hbias : ((Format.binary64.exponentBias : ℤ) + Format.binary64.mantissaBitsWithoutImplicit) =
      1075 := rfl
  cases u with
  | notANumber => exact trivial
  | infinity s =>
    cases s with
    | negative => exact isBelow_negative ..
    | positive => exact h.elim
  | zero s =>
    have hzero : (0 : ℤ) - 1075 ≤ k := by omega
    exact isBelow_components (by omega) (by decide) (by rwa [hbias]) s 0
  | finite s m e hm =>
    cases s with
    | negative =>
      unfold Float.Model.UnpackedFloat.pack
      dsimp only
      split
      · exact isBelow_negative ..
      · split <;> exact isBelow_negative ..
    | positive =>
      obtain ⟨biased, digits, hones, hbiased, hpack⟩ :=
        exists_below_components hmin hmax h .positive hm
      rw [hpack]
      exact isBelow_components (by omega) hones (by omega) .positive digits

/-- What was stored has at most 53 digits. -/
theorem mantissa_unpack_lt {x : Float.Model} {s : Sign} {m : ℕ} {e : ℤ} {hm : 0 < m}
    (h : x.unpack = .finite s m e hm) : m < 2 ^ 53 := by
  unfold Float.Model.unpack Float.Model.UnpackedFloat.unpack at h
  dsimp only at h
  split at h
  · split at h <;> cases h
  · split at h
    · split at h
      · cases h
      · cases h
        exact (BitVec.isLt _).trans_le (by decide)
    · cases h
      exact BitVec.isLt _

/-! ## Arithmetic -/

/-- A difference of numbers is no larger than the one that is taken from. -/
theorem sub_isBelow {k : ℤ} (hmin : -1074 ≤ k) {m n : ℕ} {e f : ℤ} (hm : 0 < m) (hn : 0 < n)
    (htotal : totalExponent m e ≤ k + 52) :
    IsBelow k (sub .binary64 (.finite .positive m e hm) (.finite .positive n f hn)) := by
  simp only [sub, decreaseExponent, Sign.apply, Float.Model.UnpackedFloat.normalize]
  generalize hleft : m <<< (e - min e f).toNat = left
  generalize n <<< (f - min e f).toNat = right
  split
  · unfold Float.Model.UnpackedFloat.round roundWithAccuracy
    exact isBelow_dite _ fun h => absurd rfl h
  · trivial
  · next hpos =>
    have hpos := Int.compare_eq_gt.mp hpos
    refine round_isBelow .positive (by omega) hmin (le_trans ?_ htotal)
    have hshift := totalExponent_shiftLeft hm (e - min e f).toNat e
    rw [hleft, show e - ((e - min e f).toNat : ℤ) = min e f by omega] at hshift
    rw [← hshift]
    have hlog : ((left : ℤ) - right).toNat.log2 ≤ left.log2 := by
      simp only [Nat.log2_eq_log_two]
      exact Nat.log_mono_right (by omega)
    unfold totalExponent
    omega

/-- What is left of 1 is not too large, whatever is taken from it without a sign. -/
theorem oneSub_isBelow {v : Float.Model.UnpackedFloat} (hv : Unsigned v ∨ v = .notANumber) :
    IsBelow 0 (sub .binary64 (1 : Float).toModel.unpack v) := by
  rw [show (1 : Float).toModel.unpack = .finite .positive (2 ^ 52) (-52) (by decide) from rfl]
  rcases hv with hv | rfl
  · cases hv with
    | infinity => trivial
    | zero => exact (by decide : (-52 : ℤ) ≤ 0)
    | finite m e hm => exact sub_isBelow (by decide) (by decide) hm (by decide)
  · trivial

/-- A product with a factor below 1 is no larger than the other factor. -/
theorem mul_isBelow {k : ℤ} (hmin : -1074 ≤ k) {u v : Float.Model} {n : ℕ} {f : ℤ} {hn : 0 < n}
    (hu : IsBelow k u.unpack) (hv : v.unpack = .finite .positive n f hn) (hf : f ≤ -54) :
    IsBelow k (mul .binary64 u.unpack v.unpack) := by
  rw [hv]
  cases hu' : u.unpack with
  | notANumber | zero => trivial
  | infinity s =>
    cases s with
    | negative => trivial
    | positive => rw [hu'] at hu; exact hu.elim
  | finite s m e hm =>
    cases s with
    | negative =>
      simp only [mul, roundWithAccuracy]
      exact isBelow_dite _ fun h => absurd rfl h
    | positive =>
      rw [hu'] at hu
      have he : e ≤ k := hu
      have hdigits : (m * n).log2 < 106 := by
        refine (Nat.log2_lt (Nat.mul_pos hm hn).ne').mpr ?_
        calc m * n < 2 ^ 53 * 2 ^ 53 :=
              Nat.mul_lt_mul'' (mantissa_unpack_lt hu') (mantissa_unpack_lt hv)
          _ = 2 ^ 106 := by norm_num
      refine roundWithAccuracy_isBelow _ .exact hmin (by omega) ?_
      unfold totalExponent
      omega

/-- A number above 0 that is not too large is a positive one. -/
theorem isPositive_of_isBelow {k : ℤ} {x : Float} (hx : IsBelow k x.toModel.unpack) (h : 0 < x) :
    isPositive x.toModel.unpack = true := by
  have hcompare := lt_iff_compare.mp h
  rw [show (0 : Float).toModel.unpack = .zero .positive from rfl] at hcompare
  cases hu : x.toModel.unpack with
  | notANumber | zero => rw [hu] at hcompare; cases hcompare
  | infinity s =>
    rw [hu] at hcompare hx
    cases s with
    | negative => cases hcompare
    | positive => exact hx.elim
  | finite s =>
    cases s with
    | negative => rw [hu] at hcompare; cases hcompare
    | positive => rfl

end MetricLayer.Decimal
