import Mathlib.Tactic.Linarith
import MetricLayer.Proofs.Calendar.Periods

/-!
# Ranges to compare with

A range is compared with the one right before it, or with the one whose bounds lie twelve months or
one month earlier. As long as these bounds lie in the calendar, the range before has as many days
and ends where the range begins, so repeated steps lay the ranges side by side. A step of months can
make a range shorter, when both of its bounds become the last day of one month, but it keeps their
order.

Results:
1. `DayRange.previousPeriod_number`: the bounds of the range before a range.
2. `DayRange.shift_months`: the bounds of the range some months earlier.
3. `DayRange.previous_number`: the bounds after repeated steps.
4. `DayRange.shift_spec`: what all comparisons of a range lead to.
-/

namespace MetricLayer

namespace Date

/-- The day lies so many months before the other one: on the same day of its month, or on the last
day of a month that is too short. -/
structure IsMonthsBefore (e : Date) (n : Nat) (d : Date) : Prop where
  month : 12 * e.year + e.month + n = 12 * d.year + d.month
  day : e.day = min d.day (daysInMonth e.year e.month)

variable {d e : Date} {n : Nat}

theorem lt_iff_number : d.lt e = true ↔ d.number < e.number := by
  have hle : d.le e = true ↔ d.number ≤ e.number := le_iff_number
  rw [lt, Bool.and_eq_true, bne_iff_ne, hle, lt_iff_le_and_ne]
  exact and_congr_right fun _ => not_congr ⟨congrArg number, number_inj⟩

theorem isMonthsBefore_of_addMonths? (h : d.addMonths? (-n) = some e) : e.IsMonthsBefore n d := by
  obtain ⟨hmonths, hday⟩ := addMonths?_eq_some_iff.mp h
  have hd := d.month_mem
  have he := e.month_mem
  refine ⟨?_, hday⟩
  unfold monthNumber at hmonths
  omega

end Date

/-- The number of months that the comparison goes back, if it does so by months. -/
def Comparison.months? : Comparison → Option Nat
  | yearOverYear => some 12
  | monthOverMonth => some 1
  | previousPeriod => none

theorem Comparison.months_pos {c : Comparison} {n : Nat} (hc : c.months? = some n) : 0 < n := by
  cases c <;> cases hc <;> decide

namespace DayRange

variable {r r' : DayRange} {c : Comparison} {n k : Nat}

/-- The bounds that the comparison leads to lie in the calendar. -/
def StaysInside (r : DayRange) : Comparison → Prop
  | .yearOverYear => (r.start.back? .year 1).isSome ∧ (r.stop.back? .year 1).isSome
  | .monthOverMonth => (r.start.back? .month 1).isSome ∧ (r.stop.back? .month 1).isSome
  | .previousPeriod => (r.start.addDays? (-r.days)).isSome ∧ (r.stop.addDays? (-r.days)).isSome

theorem days_eq (h : r.start ≤ r.stop) : (r.days : Int) = r.stop.number - r.start.number + 1 := by
  have hnumbers := Date.le_iff_number.mp h
  unfold days
  omega

/-! ## The range before -/

/-- The range before a range ends with the day before it, if there is one in the calendar. -/
theorem previousPeriod_number (h : r.start ≤ r.stop) :
    (r.shift .previousPeriod).start.number = max (r.start.number - r.days) Date.first.number ∧
      (r.shift .previousPeriod).stop.number = max (r.start.number - 1) Date.first.number := by
  have hnumbers := Date.le_iff_number.mp h
  have hdays := days_eq h
  have hstart := Date.number_backDays r.start r.days
  have hstop := Date.number_backDays r.stop r.days
  have hordered : r.start.backDays r.days ≤ r.stop.backDays r.days := by
    rw [Date.le_iff_number]
    omega
  rw [shift, between_of_le hordered]
  refine ⟨hstart, ?_⟩
  show (r.stop.backDays r.days).number = _
  omega

theorem previousPeriod_inside (h : r.start ≤ r.stop) (hin : r.StaysInside .previousPeriod) :
    (r.shift .previousPeriod).start.number = r.start.number - r.days ∧
      (r.shift .previousPeriod).stop.number = r.stop.number - r.days := by
  obtain ⟨a, ha⟩ := Option.isSome_iff_exists.mp hin.1
  have hbound := a.number_mem.1
  rw [Date.addDays?_eq_some_iff.mp ha] at hbound
  have hdays := days_eq h
  have hnumbers := Date.le_iff_number.mp h
  obtain ⟨hstart, hstop⟩ := previousPeriod_number h
  omega

/-! ## Months earlier -/

theorem shift_months (hc : c.months? = some n) (hin : r.StaysInside c) :
    ∃ a b, r.start.addMonths? (-n) = some a ∧ r.stop.addMonths? (-n) = some b ∧
      r.shift c = between a b := by
  have hback : ∀ {unit : TimeUnit}, (r.start.back? unit 1).isSome ∧ (r.stop.back? unit 1).isSome →
      ∃ a b, r.start.back? unit 1 = some a ∧ r.stop.back? unit 1 = some b ∧
        between ((r.start.back? unit 1).getD .first) ((r.stop.back? unit 1).getD .first) =
          between a b := by
    rintro unit ⟨hstart, hstop⟩
    obtain ⟨a, ha⟩ := Option.isSome_iff_exists.mp hstart
    obtain ⟨b, hb⟩ := Option.isSome_iff_exists.mp hstop
    exact ⟨a, b, ha, hb, by rw [ha, hb]; rfl⟩
  cases c with
  | yearOverYear =>
    cases hc
    exact hback hin
  | monthOverMonth =>
    cases hc
    exact hback hin
  | previousPeriod => cases hc

/-- Bounds that lie in order still do so some months earlier. -/
theorem shift_months_of_le (h : r.start ≤ r.stop) (hc : c.months? = some n)
    (hin : r.StaysInside c) : r.start.addMonths? (-n) = some (r.shift c).start ∧
      r.stop.addMonths? (-n) = some (r.shift c).stop ∧ (r.shift c).start ≤ (r.shift c).stop := by
  obtain ⟨a, b, ha, hb, hshift⟩ := shift_months hc hin
  have hordered := Date.addMonths?_mono h ha hb
  rw [hshift, between_of_le hordered]
  exact ⟨ha, hb, hordered⟩

/-! ## Repeated steps -/

/-- The range so many periods of its length before a range. -/
def previous (r : DayRange) : Nat → DayRange
  | 0 => r
  | k + 1 => (r.previous k).shift .previousPeriod

/-- Each step goes back by the length of the range. -/
theorem previous_number (h : r.start ≤ r.stop)
    (hin : ∀ i < k, (r.previous i).StaysInside .previousPeriod) :
    (r.previous k).start.number = r.start.number - k * r.days ∧
      (r.previous k).stop.number = r.stop.number - k * r.days := by
  induction k with
  | zero => simp [previous]
  | succ k ih =>
    obtain ⟨hstart, hstop⟩ := ih fun i hi => hin i (hi.trans (Nat.lt_succ_self k))
    have hnumbers := Date.le_iff_number.mp h
    have hordered : (r.previous k).start ≤ (r.previous k).stop := by
      rw [Date.le_iff_number, hstart, hstop]
      omega
    have hdays : (r.previous k).days = r.days := by
      have hbefore := days_eq hordered
      have hall := days_eq h
      omega
    obtain ⟨hstart', hstop'⟩ := previousPeriod_inside hordered (hin k (Nat.lt_succ_self k))
    rw [previous, hstart', hstop', hdays, hstart, hstop]
    push_cast
    constructor <;> ring

/-- Ranges that lie between different steps have no day in common. -/
theorem previous_apart (h : r.start ≤ r.stop)
    (hin : ∀ i < k, (r.previous i).StaysInside .previousPeriod) {i j : Nat} (hij : i < j)
    (hj : j ≤ k) {d : Date} (hd : d ∈ r.previous i) : d ∉ r.previous j := by
  obtain ⟨hstart, -⟩ := previous_number (k := i) h fun l hl => hin l (by omega)
  obtain ⟨-, hstop⟩ := previous_number (k := j) h fun l hl => hin l (by omega)
  have hdays := days_eq h
  have hsteps : ((i : Int) + 1) * r.days ≤ j * r.days :=
    Int.mul_le_mul_of_nonneg_right (by omega) (Int.natCast_nonneg _)
  rw [mem_iff] at hd ⊢
  rw [hstart] at hd
  rw [hstop]
  intro hd'
  linarith [hd.1, hd'.2]

/-! ## Comparisons -/

/-- What the comparisons of a range lead to, as long as it stays in the calendar. -/
structure ShiftsWell (r : DayRange) : Prop where
  /-- The range before has as many days and ends with the day before the range. -/
  before : r.StaysInside .previousPeriod → (r.shift .previousPeriod).days = r.days ∧
    (r.shift .previousPeriod).stop.addDays? 1 = some r.start
  /-- A step of months leads from the first day to the first one and from the last to the last, and
  ends earlier. -/
  months : ∀ c n, c.months? = some n → r.StaysInside c →
    (r.shift c).start.IsMonthsBefore n r.start ∧ (r.shift c).stop.IsMonthsBefore n r.stop ∧
      (r.shift c).start ≤ (r.shift c).stop ∧ (r.shift c).stop.lt r.stop = true
  /-- It keeps the order of the first and of the last days of two ranges. -/
  monotone : ∀ c n (r' : DayRange), c.months? = some n → r.StaysInside c →
    r'.start ≤ r'.stop → r'.StaysInside c →
      (r.start ≤ r'.start → (r.shift c).start ≤ (r'.shift c).start) ∧
        (r.stop ≤ r'.stop → (r.shift c).stop ≤ (r'.shift c).stop)
  /-- Repeated steps lead to ranges of one length, side by side and without a day in common. -/
  repeated : ∀ k, (∀ i < k, (r.previous i).StaysInside .previousPeriod) →
    (∀ i ≤ k, (r.previous i).days = r.days) ∧
      (∀ i < k, (r.previous (i + 1)).stop.addDays? 1 = some (r.previous i).start) ∧
        ∀ i j, i < j → j ≤ k → ∀ d, d ∈ r.previous i → d ∉ r.previous j

/-- The comparisons of a range that stay in the calendar behave well. -/
theorem shift_spec (r : DayRange) (h : r.start ≤ r.stop) : r.ShiftsWell := by
  have hdays := days_eq h
  have hrepeated : ∀ k, (∀ i < k, (r.previous i).StaysInside .previousPeriod) →
      (∀ i ≤ k, (r.previous i).days = r.days) ∧
        ∀ i < k, (r.previous (i + 1)).stop.addDays? 1 = some (r.previous i).start := by
    intro k hin
    refine ⟨fun i hi => ?_, fun i hi => Date.addDays?_eq_some_iff.mpr ?_⟩
    · obtain ⟨hstart, hstop⟩ := previous_number (k := i) h fun l hl => hin l (by omega)
      rw [days, days, hstart, hstop]
      congr 2
      ring
    · obtain ⟨hstart, -⟩ := previous_number (k := i) h fun l hl => hin l (by omega)
      obtain ⟨-, hstop⟩ := previous_number (k := i + 1) h fun l hl => hin l (by omega)
      rw [hstart, hstop, hdays]
      push_cast
      ring
  refine ⟨fun hin => ?_, fun c n hc hin => ?_, fun c n r' hc hin h' hin' => ?_, fun k hin => ?_⟩
  · have hin' : ∀ i < 1, (r.previous i).StaysInside .previousPeriod := by
      intro i hi
      rwa [Nat.lt_one_iff.mp hi]
    obtain ⟨hlength, hnext⟩ := hrepeated 1 hin'
    exact ⟨hlength 1 le_rfl, hnext 0 Nat.zero_lt_one⟩
  · obtain ⟨hstart, hstop, hordered⟩ := shift_months_of_le h hc hin
    have hpos := Comparison.months_pos hc
    exact ⟨Date.isMonthsBefore_of_addMonths? hstart, Date.isMonthsBefore_of_addMonths? hstop,
      hordered, Date.lt_iff_number.mpr (Date.addMonths?_number_lt (by omega) hstop)⟩
  · obtain ⟨hstart, hstop, -⟩ := shift_months_of_le h hc hin
    obtain ⟨hstart', hstop', -⟩ := shift_months_of_le h' hc hin'
    exact ⟨fun hle => Date.addMonths?_mono hle hstart hstart',
      fun hle => Date.addMonths?_mono hle hstop hstop'⟩
  · obtain ⟨hlength, hnext⟩ := hrepeated k hin
    exact ⟨hlength, hnext, fun i j hij hj d hd => previous_apart h hin hij hj hd⟩

/-- The last days of March become the last day of February, and stay in order. -/
theorem shift_spec_march : ∃ r : DayRange, Date.ofCivil? 2024 3 30 = some r.start ∧
    Date.ofCivil? 2024 3 31 = some r.stop ∧ r.start ≤ r.stop ∧ r.ShiftsWell ∧
      r.StaysInside .monthOverMonth ∧ (r.shift .monthOverMonth).days = 1 := by
  let r : DayRange := ⟨⟨2024, 3, 30, by decide, by decide, by decide⟩,
    ⟨2024, 3, 31, by decide, by decide, by decide⟩⟩
  exact ⟨r, rfl, rfl, by decide, shift_spec r (by decide), ⟨by decide, by decide⟩, by decide⟩

end DayRange

end MetricLayer
