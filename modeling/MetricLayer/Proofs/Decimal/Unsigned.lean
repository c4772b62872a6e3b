import Mathlib.Tactic
import MetricLayer.Decimal.Reader
import MetricLayer.Decimal.Shortest

/-!
# Numbers that are read without a sign

A decimal without a sign is read as a number that has none: not the negative of one, not a negative
zero and not the result of an undefined operation. It can only be too large.

Results:
1. `unpack_pack`: what has no sign keeps none when it is stored.
2. `readUnsigned?_isUnsigned`: decimals without a sign are read as numbers without one.
-/

namespace MetricLayer.Decimal

open Float.Model (Format)
open Float.Model.UnpackedFloat hiding pack unpack

/-- The number is one and has no sign. -/
def IsUnsigned (x : Float) : Prop := x.isNaN = false ∧ isNegative x = false

/-- An unpacked number without a sign. -/
inductive Unsigned : Float.Model.UnpackedFloat → Prop
  | infinity : Unsigned (.infinity .positive)
  | zero : Unsigned (.zero .positive)
  | finite (m : Nat) (e : Int) (hm : 0 < m) : Unsigned (.finite .positive m e hm)

/-- An unpacked number without a sign that is neither zero nor infinite. -/
def isPositive : Float.Model.UnpackedFloat → Bool
  | .finite .positive .. => true
  | _ => false

theorem unsigned_dite {p : Prop} [Decidable p] {m : Nat} {e : Int} (hm : ¬p → 0 < m) :
    Unsigned (if h : p then .zero .positive else .finite .positive m e (hm h)) := by
  by_cases h : p
  · rw [dif_pos h]
    exact .zero
  · rw [dif_neg h]
    exact .finite ..

/-! ## Storing -/

theorem unpackSign_packComponents (f : Format) (s : Sign) (e : BitVec f.exponentBits)
    (m : BitVec f.mantissaBitsWithoutImplicit) :
    unpackSign (packComponents f s e m) = s.toBitVec := by
  apply BitVec.eq_of_getLsbD_eq
  intro i hi
  obtain rfl : i = 0 := by omega
  unfold unpackSign
  simp [packComponents, BitVec.getLsbD_append, BitVec.getElem_append]

theorem unsigned_components {f : Format} {e : BitVec f.exponentBits}
    {m : BitVec f.mantissaBitsWithoutImplicit} (h : e = -1#_ → m = 0#_) :
    Unsigned (Float.Model.UnpackedFloat.unpack f (packComponents f .positive e m)) := by
  have hsign : Sign.ofBitVec (unpackSign (packComponents f .positive e m)) = .positive := by
    rw [unpackSign_packComponents]
    rfl
  have hinfinite : unpackExponent (packComponents f .positive e m) = -1#_ →
      unpackMantissa (packComponents f .positive e m) = 0#_ := by
    rw [unpackExponent_packComponents, unpackMantissa_packComponents]
    exact h
  unfold Float.Model.UnpackedFloat.unpack
  dsimp only
  rw [hsign]
  by_cases hones : unpackExponent (packComponents f .positive e m) = -1#_
  · rw [if_pos hones, if_pos (hinfinite hones)]
    exact .infinity
  · rw [if_neg hones]
    by_cases hzeros : unpackExponent (packComponents f .positive e m) = 0#_
    · rw [if_pos hzeros]
      exact unsigned_dite _
    · rw [if_neg hzeros]
      exact .finite ..

/-- A number without a sign is stored in parts that are those of a number. -/
theorem exists_components {u : Float.Model.UnpackedFloat} (h : Unsigned u) :
    ∃ e m, (e = -1#_ → m = 0#_) ∧
      Float.Model.UnpackedFloat.pack .binary64 u = packComponents .binary64 .positive e m := by
  cases h with
  | infinity => exact ⟨_, _, fun _ => rfl, rfl⟩
  | zero => exact ⟨_, _, fun _ => rfl, rfl⟩
  | finite m e hm =>
    unfold Float.Model.UnpackedFloat.pack
    dsimp only
    split
    · exact ⟨_, _, fun _ => rfl, rfl⟩
    · next hsmall =>
      generalize (e + _ + _).toNat = biased at hsmall ⊢
      rw [show 2 ^ Format.binary64.exponentBits = 2048 from rfl] at hsmall
      split
      · refine ⟨_, _, fun hones => ?_, rfl⟩
        have hvalue := congrArg BitVec.toNat hones
        rw [BitVec.toNat_ofNat, show 2 ^ Format.binary64.exponentBits = 2048 from rfl,
          show (-BitVec.ofNat Format.binary64.exponentBits 1).toNat = 2047 from rfl] at hvalue
        omega
      · exact ⟨_, _, fun hones => absurd (congrArg BitVec.toNat hones) (by decide), rfl⟩

/-- What has no sign keeps none when it is stored. -/
theorem unpack_pack {u : Float.Model.UnpackedFloat} (h : Unsigned u) :
    Unsigned (Float.Model.pack u).unpack := by
  obtain ⟨e, m, hem, hpack⟩ := exists_components h
  have hbits : (Float.Model.pack u).toBits.toBitVec = packComponents .binary64 .positive e m := hpack
  rw [Float.Model.unpack, hbits]
  exact unsigned_components hem

theorem isUnsigned_pack {u : Float.Model.UnpackedFloat} (h : Unsigned u) :
    IsUnsigned (.ofModel (.pack u)) := by
  constructor
  · show (Float.Model.pack u).unpack.isNaN = false
    have hunpack := unpack_pack h
    generalize (Float.Model.pack u).unpack = v at hunpack ⊢
    cases hunpack <;> rfl
  · obtain ⟨e, m, -, hpack⟩ := exists_components h
    have hbits : (Float.ofModel (.pack u)).toBits.toNat = (0#1 ++ e ++ m).toNat :=
      congrArg BitVec.toNat hpack
    have hlow : (0#1 ++ e ++ m).toNat < 2 ^ 63 := by
      have hmsb : (0#1 ++ e ++ m).msb = false := by
        rw [BitVec.append_assoc, BitVec.msb_cast, BitVec.msb_append]
        rfl
      have := BitVec.msb_eq_false_iff_two_mul_lt.mp hmsb
      rw [show 2 ^ (1 + Format.binary64.exponentBits +
        Format.binary64.mantissaBitsWithoutImplicit) = 2 * 2 ^ 63 from rfl] at this
      omega
    rw [isNegative, hbits, decide_eq_false_iff_not, Nat.not_le]
    exact hlow

/-! ## Arithmetic -/

theorem unsigned_round (f : Format) (m : Nat) (e : Int) (a : Accuracy) :
    Unsigned (roundWithAccuracy f .positive m e a) :=
  unsigned_dite _

theorem exists_finite {u : Float.Model.UnpackedFloat} (h : isPositive u = true) :
    ∃ m e hm, u = .finite .positive m e hm := by
  cases u with
  | infinity | notANumber | zero => cases h
  | finite s m e hm =>
    cases s with
    | negative => cases h
    | positive => exact ⟨m, e, hm, rfl⟩

theorem unsigned_mul {u v : Float.Model.UnpackedFloat} (hu : Unsigned u) (hv : isPositive v = true) :
    Unsigned (mul .binary64 u v) := by
  obtain ⟨m, e, hm, rfl⟩ := exists_finite hv
  cases hu with
  | infinity => exact .infinity
  | zero => exact .zero
  | finite m' e' hm' => exact unsigned_round ..

theorem unsigned_div {u v : Float.Model.UnpackedFloat} (hu : Unsigned u) (hv : isPositive v = true) :
    Unsigned (div .binary64 u v) := by
  obtain ⟨m, e, hm, rfl⟩ := exists_finite hv
  cases hu with
  | infinity => exact .infinity
  | zero => exact .zero
  | finite m' e' hm' => exact unsigned_round ..

theorem unsigned_ofNat (n : Nat) : Unsigned (ofNat .binary64 n) := by
  unfold ofNat ofInt Float.Model.UnpackedFloat.normalize
  split
  · next h => simp only [Int.compare_eq_lt] at h; omega
  · exact .zero
  · unfold Float.Model.UnpackedFloat.round
    exact unsigned_round ..

theorem unsigned_ofScientific (m : Nat) (e : Int) : Unsigned (ofScientific .binary64 m e) := by
  unfold ofScientific
  by_cases hm : m = 0
  · rw [dif_pos hm]
    exact .zero
  rw [dif_neg hm]
  by_cases hlarge : e > 2 ^ Format.binary64.exponentBits
  · rw [if_pos hlarge]
    exact .infinity
  rw [if_neg hlarge]
  by_cases hsmall : e < -(2 ^ Format.binary64.exponentBits + ↑m.log2)
  · rw [if_pos hsmall]
    exact .zero
  rw [if_neg hsmall]
  by_cases hwhole : 0 ≤ e
  · rw [if_pos hwhole]
    exact unsigned_mul (.finite ..) rfl
  · rw [if_neg hwhole]
    exact unsigned_div (.finite ..) rfl

theorem power_isPositive {e : Nat} (h : e < Float.exactlyRepresentablePowersOfTen.size) :
    isPositive Float.exactlyRepresentablePowersOfTen[e].toModel.unpack = true := by
  revert e
  decide +kernel

/-- A decimal without a sign is a number without one, as it is stored. -/
theorem ofScientific_eq_pack (m : Nat) (negative : Bool) (e : Nat) :
    ∃ u, Unsigned u ∧ Float.ofScientific m negative e = .ofModel (.pack u) := by
  unfold Float.ofScientific
  split
  · simp only
    split
    · exact ⟨_, unsigned_div (unpack_pack (unsigned_ofNat _)) (power_isPositive _), rfl⟩
    · exact ⟨_, unsigned_mul (unpack_pack (unsigned_ofNat _)) (power_isPositive _), rfl⟩
  · exact ⟨_, unsigned_ofScientific .., rfl⟩

theorem ofScientific_isUnsigned (m : Nat) (negative : Bool) (e : Nat) :
    IsUnsigned (Float.ofScientific m negative e) := by
  obtain ⟨u, hu, heq⟩ := ofScientific_eq_pack m negative e
  rw [heq]
  exact isUnsigned_pack hu

theorem unsigned_ofNat_unpack (n : Nat) : Unsigned (Float.ofNat n).toModel.unpack := by
  obtain ⟨u, hu, heq⟩ := ofScientific_eq_pack n false 0
  show Unsigned (Float.ofScientific n false 0).toModel.unpack
  rw [heq]
  exact unpack_pack hu

/-! ## Reading -/

theorem nearest_isUnsigned (significand : Nat) (scale : Int) :
    IsUnsigned (nearest significand scale) := by
  unfold nearest
  simp only
  split
  · exact ⟨by decide +kernel, by decide +kernel⟩
  · split
    · exact ⟨by decide +kernel, by decide +kernel⟩
    · split
      · exact ⟨by decide +kernel, by decide +kernel⟩
      · exact ofScientific_isUnsigned ..

/-- A decimal without a sign is read as a number without one. -/
theorem readUnsigned?_isUnsigned {cs : List Char} {x : Float} (h : readUnsigned? cs = some x) :
    IsUnsigned x := by
  unfold readUnsigned? at h
  split at h
  all_goals
    simp only [Option.ite_none_left_eq_some, Option.map_eq_some_iff] at h
    obtain ⟨-, e, -, rfl⟩ := h
    exact nearest_isUnsigned ..

end MetricLayer.Decimal
