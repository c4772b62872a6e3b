import Mathlib.Algebra.Order.Field.Rat
import Mathlib.Data.List.TakeWhile
import Mathlib.Tactic.FieldSimp
import Mathlib.Tactic.Ring
import MetricLayer.Decimal.Reader
import MetricLayer.Decimal.Shortest

/-!
# Digits and the numbers that they stand for

`plainValue` is the number that digits with or without a point stand for. `Layout.positional` writes
a decimal as such digits, and the number that is read there is the decimal, wherever the point
stands and however many zeros were put around the digits.

Results:
1. `ofDigits_append` and `ofDigits_digits`: digits are read as they are written.
2. `plainValue_positional`: so are decimals.
-/

namespace MetricLayer.Decimal

/-! ## Whole numbers -/

theorem ofDigits_eq (cs : List Char) : ofDigits cs = Nat.ofDigitChars 10 cs 0 :=
  Nat.ofDigitChars_eq_foldl.symm

theorem ofDigits_append (a b : List Char) :
    ofDigits (a ++ b) = ofDigits a * 10 ^ b.length + ofDigits b := by
  simp only [ofDigits_eq, Nat.ofDigitChars_append]
  rw [Nat.ofDigitChars_eq_ofDigitChars_zero]
  ring

theorem ofDigits_zeros (n : Nat) : ofDigits (List.replicate n '0') = 0 := by
  simp [ofDigits_eq, Nat.ofDigitChars_replicate_zero]

theorem ofDigits_digits (d : Scaled) : ofDigits d.digits = d.significand := by
  rw [ofDigits_eq, Scaled.digits, Nat.ofDigitChars_ten_toDigits]

theorem isDigit_of_mem_digits {d : Scaled} {c : Char} (h : c ∈ d.digits) : c.isDigit = true :=
  Nat.isDigit_of_mem_toDigits (by decide) (by decide) h

theorem digits_ne_nil (d : Scaled) : d.digits ≠ [] := Nat.toDigits_ne_nil

/-! ## Decimals -/

/-- The number that a decimal stands for. -/
def Scaled.value (d : Scaled) : Rat := d.significand * (10 : Rat) ^ d.scale

/-- The number that digits with or without a point stand for. -/
def plainValue (cs : List Char) : Rat :=
  let whole := cs.takeWhile Char.isDigit
  let fraction := (cs.dropWhile Char.isDigit).drop 1
  (ofDigits (whole ++ fraction) : Rat) / 10 ^ fraction.length

theorem plainValue_whole {cs : List Char} (h : ∀ c ∈ cs, c.isDigit = true) :
    plainValue cs = ofDigits cs := by
  have htake : cs.takeWhile Char.isDigit = cs := List.takeWhile_eq_self_iff.mpr h
  have hdrop : cs.dropWhile Char.isDigit = [] := List.dropWhile_eq_nil_iff.mpr h
  simp [plainValue, htake, hdrop]

theorem plainValue_point {whole fraction : List Char} (h : ∀ c ∈ whole, c.isDigit = true) :
    plainValue (whole ++ '.' :: fraction) =
      (ofDigits (whole ++ fraction) : Rat) / 10 ^ fraction.length := by
  have htake : (whole ++ '.' :: fraction).takeWhile Char.isDigit = whole := by
    rw [List.takeWhile_append_of_pos h]
    simp
  have hdrop : (whole ++ '.' :: fraction).dropWhile Char.isDigit = '.' :: fraction := by
    rw [List.dropWhile_append_of_pos h]
    simp
  simp [plainValue, htake, hdrop]

namespace Layout

/-- The digits of a decimal whose point stands inside or in front of them, with zeros up to it. -/
theorem positional_fraction (l : Layout) {d : Scaled} (h : d.scale < 0) :
    ∃ whole fraction, l.positional d = whole ++ '.' :: fraction ∧ whole ≠ [] ∧
      (∀ c ∈ whole ++ fraction, c.isDigit = true) ∧ fraction.length = (-d.scale).toNat ∧
      ofDigits (whole ++ fraction) = d.significand := by
  have hscale : ¬ 0 ≤ d.scale := by omega
  obtain ⟨places, hplaces⟩ : ∃ n, n = (-d.scale).toNat := ⟨_, rfl⟩
  obtain ⟨padded, hpadded⟩ : ∃ cs : List Char,
    cs = List.replicate (places + 1 - d.digits.length) '0' ++ d.digits := ⟨_, rfl⟩
  have hlen : places + 1 ≤ padded.length := by
    rw [hpadded, List.length_append, List.length_replicate]
    omega
  have hdigits : ∀ c ∈ padded, c.isDigit = true := by
    intro c hc
    rw [hpadded] at hc
    rcases List.mem_append.mp hc with hc | hc
    · rw [List.eq_of_mem_replicate hc]
      rfl
    · exact isDigit_of_mem_digits hc
  refine ⟨padded.take (padded.length - places), padded.drop (padded.length - places), ?_, ?_, ?_,
    ?_, ?_⟩
  · simp only [positional, if_neg hscale, ← hplaces, ← hpadded]
  · intro hnil
    have := congrArg List.length hnil
    rw [List.length_take] at this
    simp only [List.length_nil] at this
    omega
  · rwa [List.take_append_drop]
  · rw [List.length_drop]
    omega
  · rw [List.take_append_drop, hpadded, ofDigits_append, ofDigits_zeros, ofDigits_digits]
    omega

/-- The digits of a decimal whose point stands behind them. -/
theorem positional_whole (l : Layout) {d : Scaled} (h : 0 ≤ d.scale) :
    ∃ whole, l.positional d = whole ++ (if l.pointZero then ['.', '0'] else []) ∧ whole ≠ [] ∧
      (∀ c ∈ whole, c.isDigit = true) ∧
      ofDigits whole = d.significand * 10 ^ d.scale.toNat := by
  refine ⟨d.digits ++ List.replicate d.scale.toNat '0', by simp only [positional, if_pos h], ?_, ?_,
    ?_⟩
  · simp [digits_ne_nil]
  · intro c hc
    rcases List.mem_append.mp hc with hc | hc
    · exact isDigit_of_mem_digits hc
    · rw [List.eq_of_mem_replicate hc]
      rfl
  · rw [ofDigits_append, ofDigits_digits, ofDigits_zeros, List.length_replicate, Nat.add_zero]

theorem zpow_of_nonneg {n : Int} (h : 0 ≤ n) : (10 : Rat) ^ n = 10 ^ n.toNat := by
  obtain ⟨m, rfl⟩ := Int.eq_ofNat_of_zero_le h
  simp

theorem zpow_of_neg {n : Int} (h : n < 0) : (10 : Rat) ^ n = 1 / 10 ^ (-n).toNat := by
  obtain ⟨m, rfl⟩ : ∃ m : Nat, n = -(m : Int) := ⟨(-n).toNat, by omega⟩
  simp

/-- A decimal is read as it is written. -/
theorem plainValue_positional (l : Layout) (d : Scaled) :
    plainValue (l.positional d) = d.value := by
  rcases lt_or_ge d.scale 0 with h | h
  · obtain ⟨whole, fraction, hcs, -, hdigits, hlen, hvalue⟩ := l.positional_fraction h
    rw [hcs, plainValue_point fun c hc => hdigits c (List.mem_append_left _ hc), hvalue, hlen,
      Scaled.value, zpow_of_neg h]
    ring
  · obtain ⟨whole, hcs, -, hdigits, hvalue⟩ := l.positional_whole h
    have hwhole : plainValue (l.positional d) = ofDigits whole := by
      rw [hcs]
      split
      · rw [plainValue_point hdigits, ofDigits_append]
        simp [ofDigits, digitValue]
      · rw [List.append_nil, plainValue_whole hdigits]
    rw [hwhole, hvalue, Scaled.value, zpow_of_nonneg h]
    push_cast
    ring

end Layout

/-- In running text a decimal is digits, and a point and digits behind them or nothing. -/
theorem running_positional (d : Scaled) :
    ∃ whole rest, running.positional d = whole ++ rest ∧ whole ≠ [] ∧
      (∀ c ∈ whole, c.isDigit = true) ∧ ∀ c ∈ rest, c.isDigit = true ∨ c = '.' := by
  rcases lt_or_ge d.scale 0 with h | h
  · obtain ⟨whole, fraction, hcs, hne, hdigits, -, -⟩ := running.positional_fraction h
    refine ⟨whole, '.' :: fraction, hcs, hne, fun c hc => hdigits c (List.mem_append_left _ hc), ?_⟩
    intro c hc
    rcases List.mem_cons.mp hc with rfl | hc
    · exact .inr rfl
    · exact .inl (hdigits c (List.mem_append_right _ hc))
  · obtain ⟨whole, hcs, hne, hdigits, -⟩ := running.positional_whole h
    exact ⟨whole, [], hcs, hne, hdigits, by simp⟩

end MetricLayer.Decimal
