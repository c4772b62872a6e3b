import MetricLayer.Calendar.Period
import MetricLayer.Proofs.Calendar.Number

/-!
# Calendar periods

The weeks, months, quarters and years of the calendar are numbered. A period begins with a day that
comes before exactly the days of this period and of those behind it. The range of a period is made
of two such days: the one that the period begins with, and the day before the one that the next
period begins with. So it has the days of one number, and the periods of a unit tile the calendar.

Results:
1. `Date.IsStart.le_iff`: which days come behind the first day of a period.
2. `DayRange.mem_whole`: which days the range of a period has.
3. `this_period_tiles`: the periods of a unit tile the calendar.
-/

namespace MetricLayer

/-! ## Days of a range -/

instance : Membership Date DayRange := ⟨fun r d => r.start ≤ d ∧ d ≤ r.stop⟩

namespace DayRange

theorem mem_iff {r : DayRange} {d : Date} :
    d ∈ r ↔ r.start.number ≤ d.number ∧ d.number ≤ r.stop.number :=
  and_congr Date.le_iff_number Date.le_iff_number

theorem between_of_le {a b : Date} (h : a ≤ b) : between a b = ⟨a, b⟩ := if_pos h

theorem left_mem_between (a b : Date) : a ∈ between a b := by
  rw [mem_iff]
  unfold between
  split
  case isTrue h => exact ⟨le_rfl, Date.le_iff_number.mp h⟩
  case isFalse h =>
    rw [Date.le_iff_number, not_le] at h
    exact ⟨h.le, le_rfl⟩

end DayRange

namespace Date

theorem first_number : first.number = -95746130 := by decide

theorem last_number : last.number = 95745398 := by decide

theorem number_mem (d : Date) : first.number ≤ d.number ∧ d.number ≤ last.number :=
  ⟨le_iff_number.mp d.first_le, le_iff_number.mp d.le_last⟩

/-! ## The number of a period -/

/-- The days lie in one period of the unit: between the same Sundays, or in the same month, quarter
or year. -/
def SamePeriod (d e : Date) : TimeUnit → Prop
  | .day => d = e
  | .week => (d.number + 1) / 7 = (e.number + 1) / 7
  | .month => d.year = e.year ∧ d.month = e.month
  | .quarter => d.year = e.year ∧ (d.month - 1) / 3 = (e.month - 1) / 3
  | .year => d.year = e.year

/-- The number of the period of the unit that the day lies in. The days before a Sunday are numbered
by a multiple of 7 less 2. -/
def periodNumber (d : Date) : TimeUnit → Int
  | .day => d.number
  | .week => (d.number + 1) / 7
  | .month => d.monthNumber
  | .quarter => d.monthNumber / 3
  | .year => d.monthNumber / 12

theorem samePeriod_iff {d e : Date} (unit : TimeUnit) :
    d.SamePeriod e unit ↔ d.periodNumber unit = e.periodNumber unit := by
  have hd := d.month_mem
  have he := e.month_mem
  cases unit with
  | day => exact ⟨congrArg number, number_inj⟩
  | week => exact Iff.rfl
  | month | quarter | year =>
    simp only [SamePeriod, periodNumber, monthNumber]
    omega

/-- The day is the first one of the period with the number. -/
def IsStart (s : Date) (i : Int) : TimeUnit → Prop
  | .day => s.number = i
  | .week => s.number = 7 * i - 1
  | .month => s.day = 1 ∧ s.monthNumber = i
  | .quarter => s.day = 1 ∧ s.monthNumber = 3 * i
  | .year => s.day = 1 ∧ s.monthNumber = 12 * i

variable {unit : TimeUnit} {s t d e : Date} {i : Int}

/-- The first day of a period comes before the days of this period and of those behind it. -/
theorem IsStart.le_iff (h : s.IsStart i unit) : s ≤ e ↔ i ≤ e.periodNumber unit := by
  cases unit with
  | day => rw [le_iff_number, show s.number = i from h, periodNumber]
  | week =>
    rw [le_iff_number, show s.number = 7 * i - 1 from h, periodNumber]
    omega
  | month => rw [first_le_iff h.1, h.2, periodNumber]
  | quarter | year =>
    rw [first_le_iff h.1, h.2, periodNumber]
    omega

theorem IsStart.periodNumber_eq (h : s.IsStart i unit) : s.periodNumber unit = i := by
  cases unit with
  | day => exact h
  | week =>
    rw [periodNumber, show s.number = 7 * i - 1 from h]
    omega
  | month => exact h.2
  | quarter | year =>
    rw [periodNumber, h.2]
    omega

theorem IsStart.number_lt (hs : s.IsStart i unit) (ht : t.IsStart (i + 1) unit) :
    s.number < t.number := by
  have hnot : ¬t ≤ s := by
    rw [ht.le_iff, hs.periodNumber_eq]
    omega
  rwa [le_iff_number, not_le] at hnot

/-! ## The first day of a period -/

theorem exists_firstDay (d : Date) {m : Nat} (hm : 1 ≤ m ∧ m ≤ 12) :
    ∃ s, ofCivil? d.year m 1 = some s ∧ s.day = 1 ∧
      s.monthNumber = 12 * d.year + (m - 1 : Nat) :=
  ⟨⟨d.year, m, 1, d.year_mem, hm, le_rfl, daysInMonth_pos _ _⟩,
    ofCivil?_eq_some_iff.mpr ⟨rfl, rfl, rfl⟩, rfl, rfl⟩

/-- The first day of the period that a day lies in comes before the days of this period and of those
behind it. For the first week this is the first day of the calendar. -/
theorem startOf_le_iff (d e : Date) (unit : TimeUnit) :
    d.startOf unit ≤ e ↔ d.periodNumber unit ≤ e.periodNumber unit := by
  have hmonth := d.month_mem
  cases unit with
  | day => exact le_iff_number
  | week =>
    have hstart : (d.startOf .week).number =
        max (d.number - ((d.number + 1) % 7).toNat) first.number := number_backDays d _
    have hfirst := e.number_mem.1
    simp only [le_iff_number, periodNumber]
    omega
  | month =>
    obtain ⟨s, hs, hday, hmonths⟩ := d.exists_firstDay hmonth
    rw [startOf, hs, Option.getD_some, first_le_iff hday, hmonths]
    rfl
  | quarter =>
    obtain ⟨s, hs, hday, hmonths⟩ :=
      d.exists_firstDay (m := (d.month - 1) / 3 * 3 + 1) (by omega)
    rw [startOf, hs, Option.getD_some, first_le_iff hday, hmonths]
    simp only [periodNumber, monthNumber]
    omega
  | year =>
    obtain ⟨s, hs, hday, hmonths⟩ := d.exists_firstDay (m := 1) (by omega)
    rw [startOf, hs, Option.getD_some, first_le_iff hday, hmonths]
    simp only [periodNumber, monthNumber]
    omega

theorem periodNumber_mono (h : d ≤ e) (unit : TimeUnit) :
    d.periodNumber unit ≤ e.periodNumber unit := by
  have hmonths : d.monthNumber ≤ e.monthNumber := by
    rcases le_iff_months.mp h with hlt | ⟨heq, -⟩
    · exact hlt.le
    · exact heq.le
  rw [le_iff_number] at h
  cases unit with
  | day | month => assumption
  | week | quarter | year =>
    simp only [periodNumber]
    omega

/-- The first day of a period lies in the period. -/
theorem periodNumber_startOf (d : Date) (unit : TimeUnit) :
    (d.startOf unit).periodNumber unit = d.periodNumber unit := by
  have hbefore : d.startOf unit ≤ d := (startOf_le_iff d d unit).mpr le_rfl
  exact le_antisymm (periodNumber_mono hbefore unit)
    ((startOf_le_iff d _ unit).mp (le_iff_number.mpr le_rfl))

theorem startOf_eq (hs : s.IsStart (d.periodNumber unit) unit) : d.startOf unit = s := by
  refine number_inj (le_antisymm ?_ ?_)
  · exact le_iff_number.mp ((startOf_le_iff d s unit).mpr hs.periodNumber_eq.ge)
  · exact le_iff_number.mp (hs.le_iff.mpr (periodNumber_startOf d unit).ge)

/-- From the first day of a period, a step of the unit leads to that of the next one. -/
theorem forward_eq (hs : s.IsStart i unit) (ht : t.IsStart (i + 1) unit) :
    s.forward unit 1 = t := by
  have hdays : ∀ {k : Int}, t.number = s.number + k → (s.addDays? k).getD last = t := by
    intro k h
    rw [addDays?_eq_some_iff.mpr h, Option.getD_some]
  have hmonths : ∀ {k : Int}, s.day = 1 → t.day = 1 → t.monthNumber = s.monthNumber + k →
      (s.addMonths? k).getD last = t := by
    intro k hs ht h
    have hday : t.day = min s.day (daysInMonth t.year t.month) := by
      rw [hs, ht, min_eq_left (daysInMonth_pos _ _)]
    rw [addMonths?_eq_some_iff.mpr ⟨h, hday⟩, Option.getD_some]
  cases unit with
  | day => exact hdays (by rw [show s.number = i from hs]; exact ht)
  | week =>
    refine hdays ?_
    rw [show s.number = 7 * i - 1 from hs, show t.number = 7 * (i + 1) - 1 from ht]
    omega
  | month => exact hmonths hs.1 ht.1 (by rw [hs.2, ht.2]; rfl)
  | quarter | year =>
    refine hmonths hs.1 ht.1 ?_
    rw [hs.2, ht.2]
    omega

/-! ## Existence -/

/-- The periods up to the year 10000 begin with a day of the calendar. -/
theorem exists_isStart (unit : TimeUnit) (hyear : 1 ≤ d.year ∧ d.year ≤ 9999) {k : Int}
    (hk : 0 ≤ k ∧ k ≤ 2) : ∃ s : Date, s.IsStart (d.periodNumber unit + k) unit := by
  have hnumber : 0 ≤ d.number ∧ d.number < 366 * 9999 := by
    have hday := d.dayOfYear_mem
    have hlength : daysInYear d.year ≤ 366 := by
      unfold daysInYear
      split <;> omega
    rw [number_eq]
    unfold daysBeforeYear
    omega
  have hdays : ∀ {n : Int}, -7 ≤ n → n < 366 * 9999 + 21 → ∃ s : Date, s.number = n := by
    intro n hn hn'
    refine exists_number ?_ ?_
    · rw [first_number]
      omega
    · rw [last_number]
      omega
  have hmonths : ∀ {n : Int}, 0 ≤ n → n ≤ 12 * 10002 →
      ∃ s : Date, s.day = 1 ∧ s.monthNumber = n := by
    intro n hn hn'
    have hmin : minYear = -262143 := rfl
    have hmax : maxYear = 262142 := rfl
    refine ⟨⟨n / 12, (n % 12).toNat + 1, 1, by omega, by omega, le_rfl, daysInMonth_pos _ _⟩,
      rfl, ?_⟩
    simp only [monthNumber]
    omega
  have hmonth : 12 ≤ d.monthNumber ∧ d.monthNumber < 12 * 10000 := by
    have hmem := d.month_mem
    unfold monthNumber
    omega
  cases unit with
  | day | week => exact hdays (by rw [periodNumber]; omega) (by rw [periodNumber]; omega)
  | month | quarter | year =>
    exact hmonths (by rw [periodNumber]; omega) (by rw [periodNumber]; omega)

end Date

namespace DayRange

open Date

variable {unit : TimeUnit} {s t d e : Date} {i : Int}

/-- The range of a period ends before the first day of the next one. -/
theorem whole_eq (hs : s.IsStart (d.periodNumber unit) unit)
    (ht : t.IsStart (d.periodNumber unit + 1) unit) :
    ∃ u : Date, whole unit d = ⟨s, u⟩ ∧ u.number + 1 = t.number := by
  have hlt := hs.number_lt ht
  have hfirst := s.number_mem.1
  have hback := number_backDays t 1
  refine ⟨t.backDays 1, ?_, by omega⟩
  have hle : s ≤ t.backDays 1 := by
    rw [le_iff_number]
    omega
  rw [whole, startOf_eq hs, forward_eq hs ht]
  exact between_of_le hle

/-- The range of a period has the days with the number of the period. -/
theorem mem_whole (hs : s.IsStart (d.periodNumber unit) unit)
    (ht : t.IsStart (d.periodNumber unit + 1) unit) :
    e ∈ whole unit d ↔ e.periodNumber unit = d.periodNumber unit := by
  obtain ⟨u, hwhole, hu⟩ := whole_eq hs ht
  have hbefore : e ≤ u ↔ ¬t ≤ e := by
    rw [le_iff_number, le_iff_number]
    omega
  rw [hwhole]
  show s ≤ e ∧ e ≤ u ↔ _
  rw [hbefore, hs.le_iff, ht.le_iff]
  omega

/-- A day has the range of a period just if it has the number of the period. -/
theorem whole_eq_whole_iff (hs : s.IsStart (d.periodNumber unit) unit)
    (ht : t.IsStart (d.periodNumber unit + 1) unit) :
    whole unit e = whole unit d ↔ e.periodNumber unit = d.periodNumber unit := by
  constructor
  · intro h
    have hmem : e.startOf unit ∈ whole unit d := h ▸ left_mem_between _ _
    rw [← periodNumber_startOf e unit]
    exact (mem_whole hs ht).mp hmem
  · intro h
    obtain ⟨u, hwhole, hu⟩ := whole_eq hs ht
    obtain ⟨u', hwhole', hu'⟩ := whole_eq (h.symm ▸ hs) (h.symm ▸ ht)
    rw [hwhole, hwhole', number_inj (show u.number = u'.number by omega)]

/-- What has passed of a period are its days up to the day. -/
theorem mem_toDate (hs : s.IsStart (d.periodNumber unit) unit)
    (ht : t.IsStart (d.periodNumber unit + 1) unit) :
    e ∈ toDate unit d ↔ e ∈ whole unit d ∧ e ≤ d := by
  have hstart : d.startOf unit ≤ d := (startOf_le_iff d d unit).mpr le_rfl
  rw [toDate, between_of_le hstart, mem_whole hs ht]
  show d.startOf unit ≤ e ∧ e ≤ d ↔ _
  rw [startOf_le_iff]
  refine and_congr_left fun hle => ⟨fun hfrom => ?_, fun heq => heq.ge⟩
  exact le_antisymm (periodNumber_mono hle unit) hfrom

/-! ## Tiles -/

/-- The days of the period of the unit that the day lies in, as a text names them. -/
def this? (unit : TimeUnit) (d : Date) : Option DayRange := ofText? ("this " ++ unit.name) d

theorem this?_eq (hunit : unit ≠ .day) (d : Date) : this? unit d = some (whole unit d) := by
  have htext : RelativePeriod.ofText? ("this " ++ unit.name) = some (.this unit) := by
    cases unit with
    | day => exact absurd rfl hunit
    | week | month | quarter | year => decide +kernel
  rw [this?, ofText?, htext]
  rfl

theorem ofText?_toDate (hunit : unit ≠ .day) (d : Date) :
    ofText? (unit.name ++ " to date") d = some (toDate unit d) := by
  have htext : RelativePeriod.ofText? (unit.name ++ " to date") = some (.toDate unit) := by
    cases unit with
    | day => exact absurd rfl hunit
    | week | month | quarter | year => decide +kernel
  rw [ofText?, htext]
  rfl

/-- The range is one of the tiles that the periods of the unit divide the calendar into. -/
structure IsTile (r : DayRange) (unit : TimeUnit) (d : Date) : Prop where
  /-- The day lies in the range. -/
  self : d ∈ r
  /-- So do the days between the same Sundays, or of the same month, quarter or year, no others. -/
  same : ∀ e, e ∈ r ↔ d.SamePeriod e unit
  /-- These are the days that have the same range. -/
  shared : ∀ e, e ∈ r ↔ this? unit e = some r
  /-- The range of another day is the same, or it has no day in common with the range. -/
  apart : ∀ e : Date, 1 ≤ e.year ∧ e.year ≤ 9999 → ∃ r', this? unit e = some r' ∧
    (r' = r ∨ ∀ x, x ∈ r → x ∉ r')
  /-- The range of the day behind the range begins with this day. -/
  next : ∃ x r', r.stop.addDays? 1 = some x ∧ this? unit x = some r' ∧ r'.start = x
  /-- A week has seven days, of which the first one is a Sunday. -/
  week : unit = .week → r.days = 7 ∧ r.start.daysSinceSunday = 0
  /-- What has passed of the period are the days of the range up to the day. -/
  passed : ∃ p, ofText? (unit.name ++ " to date") d = some p ∧ ∀ e, e ∈ p ↔ e ∈ r ∧ e ≤ d

/-- The weeks, months, quarters and years of the calendar are its tiles. -/
theorem this_period_tiles (unit : TimeUnit) (hunit : unit ≠ .day) (d : Date)
    (hd : 1 ≤ d.year ∧ d.year ≤ 9999) : ∃ r, this? unit d = some r ∧ r.IsTile unit d := by
  obtain ⟨s, hs⟩ := exists_isStart unit hd (k := 0) (by omega)
  obtain ⟨t, ht⟩ := exists_isStart unit hd (k := 1) (by omega)
  obtain ⟨t', ht'⟩ := exists_isStart unit hd (k := 2) (by omega)
  rw [add_zero] at hs
  obtain ⟨u, hwhole, hu⟩ := whole_eq hs ht
  have hmem : ∀ e, e ∈ whole unit d ↔ e.periodNumber unit = d.periodNumber unit :=
    fun e => mem_whole hs ht
  refine ⟨_, this?_eq hunit d, (hmem d).mpr rfl, fun e => ?_, fun e => ?_, fun e he => ?_, ?_, ?_,
    _, ofText?_toDate hunit d, fun e => mem_toDate hs ht⟩
  · rw [hmem, samePeriod_iff, eq_comm]
  · rw [hmem, this?_eq hunit, Option.some.injEq, whole_eq_whole_iff hs ht]
  · obtain ⟨s', hs'⟩ := exists_isStart unit he (k := 0) (by omega)
    obtain ⟨u', hu'⟩ := exists_isStart unit he (k := 1) (by omega)
    rw [add_zero] at hs'
    refine ⟨_, this?_eq hunit e, or_iff_not_imp_right.mpr fun hcommon => ?_⟩
    push Not at hcommon
    obtain ⟨x, hx, hx'⟩ := hcommon
    rw [whole_eq_whole_iff hs ht, ← (mem_whole hs' hu').mp hx', (hmem x).mp hx]
  · -- the day behind the range is the first one of the next period
    have hnumber := ht.periodNumber_eq
    have hown : t.IsStart (t.periodNumber unit) unit := by rw [hnumber]; exact ht
    have hnext : t'.IsStart (t.periodNumber unit + 1) unit := by
      rw [hnumber, add_assoc]
      exact ht'
    obtain ⟨u', hwhole', -⟩ := whole_eq hown hnext
    refine ⟨t, _, ?_, this?_eq hunit t, ?_⟩
    · rw [hwhole]
      exact addDays?_eq_some_iff.mpr hu.symm
    · rw [hwhole']
  · rintro rfl
    have hstart : s.number = 7 * d.periodNumber .week - 1 := hs
    have hbehind : t.number = 7 * (d.periodNumber .week + 1) - 1 := ht
    rw [hwhole]
    constructor
    · show (u.number - s.number).natAbs + 1 = 7
      omega
    · show ((s.number + 1) % 7).toNat = 0
      omega

/-- The leap day lies in a month of 29 days. -/
theorem this_period_tiles_leapDay : TimeUnit.month ≠ .day ∧
    ∃ d : Date, Date.ofCivil? 2024 2 29 = some d ∧ (1 ≤ d.year ∧ d.year ≤ 9999) ∧
      ∃ r, this? .month d = some r ∧ r.IsTile .month d ∧ r.days = 29 ∧ r.stop = d := by
  obtain ⟨r, hr, htile⟩ := this_period_tiles .month (by decide)
    ⟨2024, 2, 29, by decide, by decide, by decide⟩ (by decide)
  refine ⟨by decide, _, rfl, by decide, r, hr, htile, ?_⟩
  rw [this?_eq (by decide)] at hr
  rw [← Option.some.inj hr]
  decide +kernel

end DayRange

end MetricLayer
