import Mathlib.Tactic.Ring
import MetricLayer.Calendar.DayRange

/-!
# The numbers of days and months

Days are numbered from the first day of year 1. The numbers follow the order of the calendar without
a gap, and the day with a number is found again from it: first its year, which a guess misses by one
at most, and then its month.

Months are numbered across the years, so that a step of months is a sum. The days are ordered by
their months and then by their place in the month; a step of months keeps this order, since all it
can do to two days of one month is to make them the last day of another one.

Results:
1. `Date.le_iff_number` and `Date.number_inj`: days are ordered, and told, by their numbers.
2. `Date.ofNumber?_eq_some_iff`: the day that is found for a number has it.
3. `Date.exists_number`: the calendar has no gaps.
4. `Date.number_backDays`: going back some days, down to the first day of the calendar.
5. `Date.le_iff_months`: days are ordered by months, then by days.
6. `Date.addMonths?_eq_some_iff`: the day that a step of months leads to.
7. `Date.addMonths?_mono`: steps of months keep the order of the days.
-/

namespace MetricLayer

/-! ## Years and months -/

/-- The number of days of a year. -/
def daysInYear (y : Int) : Nat := if isLeapYear y then 366 else 365

theorem daysBeforeYear_succ (y : Int) :
    daysBeforeYear (y + 1) = daysBeforeYear y + daysInYear y := by
  unfold daysBeforeYear daysInYear isLeapYear
  simp only [Bool.and_eq_true, Bool.or_eq_true, decide_eq_true_eq]
  split <;> omega

/-- The years before an earlier one have fewer days. -/
theorem daysBeforeYear_mono {y z : Int} (h : y ≤ z) : daysBeforeYear y ≤ daysBeforeYear z := by
  unfold daysBeforeYear
  omega

theorem daysInMonth_pos (y : Int) (m : Nat) : 1 ≤ daysInMonth y m := by
  unfold daysInMonth
  split
  · split <;> omega
  · split <;> omega

theorem daysBeforeMonth_succ (y : Int) {m : Nat} (h : 1 ≤ m) :
    daysBeforeMonth y (m + 1) = daysBeforeMonth y m + daysInMonth y m := by
  obtain ⟨k, rfl⟩ := Nat.exists_eq_add_of_le' h
  rfl

theorem daysBeforeMonth_mono (y : Int) {m n : Nat} (hm : 1 ≤ m) (h : m ≤ n) :
    daysBeforeMonth y m ≤ daysBeforeMonth y n := by
  induction h with
  | refl => exact le_rfl
  | step hle ih =>
    rw [Nat.succ_eq_add_one, daysBeforeMonth_succ y (hm.trans hle)]
    exact ih.trans (Nat.le_add_right _ _)

theorem daysBeforeMonth_thirteen (y : Int) : daysBeforeMonth y 13 = daysInYear y := by
  cases h : isLeapYear y <;> simp [daysBeforeMonth, daysInMonth, daysInYear, h]

namespace Date

/-! ## Order -/

/-- The place of the day in its year. -/
def dayOfYear (d : Date) : Nat := daysBeforeMonth d.year d.month + d.day

theorem number_eq (d : Date) : d.number = daysBeforeYear d.year + d.dayOfYear - 1 := by
  unfold number dayOfYear
  push_cast
  ring

theorem dayOfYear_mem (d : Date) : 1 ≤ d.dayOfYear ∧ d.dayOfYear ≤ daysInYear d.year := by
  have hmonth := daysBeforeMonth_succ d.year d.month_mem.1
  have hyear := daysBeforeMonth_mono d.year (Nat.le_add_left 1 d.month)
    (Nat.succ_le_succ d.month_mem.2)
  rw [daysBeforeMonth_thirteen] at hyear
  have hday := d.day_mem
  unfold dayOfYear
  omega

/-- An earlier day has a smaller number: by the year, then the month, then the day. -/
theorem number_lt_of_year {d e : Date} (h : d.year < e.year) : d.number < e.number := by
  have hyears := daysBeforeYear_mono (show d.year + 1 ≤ e.year from h)
  rw [daysBeforeYear_succ] at hyears
  have hd := d.dayOfYear_mem
  have he := e.dayOfYear_mem
  rw [number_eq, number_eq]
  omega

theorem number_lt_of_month {d e : Date} (hyear : d.year = e.year) (h : d.month < e.month) :
    d.number < e.number := by
  have hmonths := daysBeforeMonth_mono d.year (Nat.le_add_left 1 d.month) h
  rw [daysBeforeMonth_succ d.year d.month_mem.1] at hmonths
  have hd := d.day_mem
  have he := e.day_mem
  rw [number_eq, number_eq, dayOfYear, dayOfYear, ← hyear]
  omega

theorem number_lt_of_day {d e : Date} (hyear : d.year = e.year) (hmonth : d.month = e.month)
    (h : d.day < e.day) : d.number < e.number := by
  rw [number_eq, number_eq, dayOfYear, dayOfYear, ← hyear, ← hmonth]
  omega

theorem le_iff {d e : Date} : d ≤ e ↔ d.year < e.year ∨
    (d.year = e.year ∧ (d.month < e.month ∨ (d.month = e.month ∧ d.day ≤ e.day))) := by
  show d.le e = true ↔ _
  simp [le]

/-- Days are told by their numbers. -/
theorem number_inj {d e : Date} (h : d.number = e.number) : d = e := by
  have hyear : d.year = e.year := by
    rcases lt_trichotomy d.year e.year with hlt | heq | hlt
    · exact absurd h (number_lt_of_year hlt).ne
    · exact heq
    · exact absurd h (number_lt_of_year hlt).ne'
  have hmonth : d.month = e.month := by
    rcases lt_trichotomy d.month e.month with hlt | heq | hlt
    · exact absurd h (number_lt_of_month hyear hlt).ne
    · exact heq
    · exact absurd h (number_lt_of_month hyear.symm hlt).ne'
  have hday : d.day = e.day := by
    rcases lt_trichotomy d.day e.day with hlt | heq | hlt
    · exact absurd h (number_lt_of_day hyear hmonth hlt).ne
    · exact heq
    · exact absurd h (number_lt_of_day hyear.symm hmonth.symm hlt).ne'
  cases d
  cases e
  simp only [Date.mk.injEq]
  exact ⟨hyear, hmonth, hday⟩

/-- Days are ordered by their numbers. -/
theorem le_iff_number {d e : Date} : d ≤ e ↔ d.number ≤ e.number := by
  constructor
  · intro h
    rcases le_iff.mp h with hyear | ⟨hyear, hmonth | ⟨hmonth, hday⟩⟩
    · exact (number_lt_of_year hyear).le
    · exact (number_lt_of_month hyear hmonth).le
    · rcases hday.lt_or_eq with hday | hday
      · exact (number_lt_of_day hyear hmonth hday).le
      · rw [number_eq, number_eq, dayOfYear, dayOfYear, hyear, hmonth, hday]
  · intro h
    by_contra hnot
    rw [le_iff] at hnot
    have hlt : e.number < d.number := by
      rcases lt_trichotomy e.year d.year with hyear | hyear | hyear
      · exact number_lt_of_year hyear
      · rcases lt_trichotomy e.month d.month with hmonth | hmonth | hmonth
        · exact number_lt_of_month hyear hmonth
        · exact number_lt_of_day hyear hmonth (by omega)
        · omega
      · omega
    omega

/-! ## The day with a number -/

/-- The year that is found is the one that the day lies in. -/
theorem yearOfNumber_spec (n : Int) :
    daysBeforeYear (yearOfNumber n) ≤ n ∧ n < daysBeforeYear (yearOfNumber n + 1) := by
  -- On the average a year has 146097 / 400 days, which the guess counts.
  unfold yearOfNumber
  simp only
  split
  · next hbefore =>
    refine ⟨?_, by rwa [Int.sub_add_cancel]⟩
    clear hbefore
    unfold daysBeforeYear
    omega
  · next hfrom =>
    split
    · next hafter =>
      refine ⟨hafter, ?_⟩
      clear hafter hfrom
      unfold daysBeforeYear
      omega
    · next hbefore => exact ⟨by omega, by omega⟩

/-- A year is found from any of its days. -/
theorem yearOfNumber_eq {y n : Int} (h : daysBeforeYear y ≤ n) (h' : n < daysBeforeYear (y + 1)) :
    yearOfNumber n = y := by
  obtain ⟨hfrom, hbefore⟩ := yearOfNumber_spec n
  rcases lt_trichotomy (yearOfNumber n) y with hlt | heq | hlt
  · have hmono := daysBeforeYear_mono (show yearOfNumber n + 1 ≤ y from hlt)
    omega
  · exact heq
  · have hmono := daysBeforeYear_mono (show y + 1 ≤ yearOfNumber n from hlt)
    omega

/-- The month that is found, with a day in it, is the one that the count of days leads to. -/
theorem monthOfOffset_spec (y : Int) (fuel : Nat) {m offset : Nat} (hm : 1 ≤ m)
    (h : daysBeforeMonth y m + offset < daysBeforeMonth y (m + fuel + 1)) :
    ∃ m' d, monthOfOffset y fuel m offset = (m', d) ∧ m ≤ m' ∧ m' ≤ m + fuel ∧ 1 ≤ d ∧
      d ≤ daysInMonth y m' ∧ daysBeforeMonth y m + offset + 1 = daysBeforeMonth y m' + d := by
  induction fuel generalizing m offset with
  | zero =>
    rw [Nat.add_zero, daysBeforeMonth_succ y hm] at h
    exact ⟨m, offset + 1, rfl, le_rfl, le_rfl, by omega, by omega, by omega⟩
  | succ fuel ih =>
    rw [monthOfOffset]
    split
    · exact ⟨m, offset + 1, rfl, le_rfl, by omega, by omega, by omega, by omega⟩
    · next hlong =>
      have hnext := daysBeforeMonth_succ y hm
      have hrest : daysBeforeMonth y (m + 1) + (offset - daysInMonth y m) <
          daysBeforeMonth y (m + 1 + fuel + 1) := by
        rw [show m + 1 + fuel + 1 = m + (fuel + 1) + 1 by omega]
        omega
      obtain ⟨m', d, heq, hfrom, hto, hd, hd', hsum⟩ := ih (Nat.le_add_left 1 m) hrest
      exact ⟨m', d, heq, by omega, by omega, hd, hd', by omega⟩

/-- A number within the years of the calendar is that of the day that is found for it. -/
theorem ofNumber?_spec {n : Int} (hmin : minYear ≤ yearOfNumber n)
    (hmax : yearOfNumber n ≤ maxYear) : ∃ d, ofNumber? n = some d ∧ d.number = n := by
  obtain ⟨hfrom, hbefore⟩ := yearOfNumber_spec n
  rw [daysBeforeYear_succ] at hbefore
  have hoffset : daysBeforeMonth (yearOfNumber n) 1 +
      (n - daysBeforeYear (yearOfNumber n)).toNat <
        daysBeforeMonth (yearOfNumber n) (1 + 11 + 1) := by
    rw [show 1 + 11 + 1 = 13 from rfl, daysBeforeMonth_thirteen]
    show 0 + _ < _
    omega
  obtain ⟨m, d, heq, hm, hm', hd, hd', hsum⟩ :=
    monthOfOffset_spec (yearOfNumber n) 11 le_rfl hoffset
  refine ⟨⟨yearOfNumber n, m, d, ⟨hmin, hmax⟩, ⟨hm, hm'⟩, ⟨hd, hd'⟩⟩, ?_, ?_⟩
  · rw [ofNumber?]
    simp only [heq, ofCivil?]
    rw [dif_pos ⟨hmin, hmax⟩, dif_pos ⟨hm, hm'⟩, dif_pos ⟨hd, hd'⟩]
  · rw [number_eq, dayOfYear]
    have hfirst : daysBeforeMonth (yearOfNumber n) 1 = 0 := rfl
    simp only
    omega

theorem ofNumber?_number (d : Date) : ofNumber? d.number = some d := by
  have hmem := d.dayOfYear_mem
  have hyear : yearOfNumber d.number = d.year := by
    refine yearOfNumber_eq ?_ ?_
    · rw [number_eq]
      omega
    · rw [number_eq, daysBeforeYear_succ]
      omega
  obtain ⟨e, he, hnumber⟩ := ofNumber?_spec (hyear ▸ d.year_mem.1) (hyear ▸ d.year_mem.2)
  rw [he, number_inj hnumber]

/-- The day that is found for a number is the one that has it. -/
theorem ofNumber?_eq_some_iff {n : Int} {d : Date} : ofNumber? n = some d ↔ d.number = n := by
  constructor
  · intro h
    have hyear : minYear ≤ yearOfNumber n ∧ yearOfNumber n ≤ maxYear := by
      by_contra hnot
      rw [ofNumber?] at h
      simp only [ofCivil?, dif_neg hnot] at h
      cases h
    obtain ⟨e, he, hnumber⟩ := ofNumber?_spec hyear.1 hyear.2
    rw [h] at he
    rw [Option.some.inj he, hnumber]
  · rintro rfl
    exact ofNumber?_number d

theorem first_le (d : Date) : first ≤ d := by
  rw [le_iff]
  have hyear := d.year_mem.1
  have hmonth := d.month_mem.1
  have hday := d.day_mem.1
  show minYear < d.year ∨ (minYear = d.year ∧ (1 < d.month ∨ (1 = d.month ∧ 1 ≤ d.day)))
  omega

theorem le_last (d : Date) : d ≤ last := by
  rw [le_iff]
  have hyear := d.year_mem.2
  have hmonth := d.month_mem.2
  have hday := d.day_mem.2
  have hlong : daysInMonth d.year d.month ≤ 31 := by
    unfold daysInMonth
    split
    · split <;> omega
    · split <;> omega
  show d.year < maxYear ∨ (d.year = maxYear ∧ (d.month < 12 ∨ (d.month = 12 ∧ d.day ≤ 31)))
  omega

/-- Every number between those of the first and of the last day is that of a day. -/
theorem exists_number {n : Int} (hfirst : first.number ≤ n) (hlast : n ≤ last.number) :
    ∃ d : Date, d.number = n := by
  obtain ⟨hfrom, hbefore⟩ := yearOfNumber_spec n
  have hmin : minYear ≤ yearOfNumber n := by
    by_contra hnot
    have hmono := daysBeforeYear_mono (show yearOfNumber n + 1 ≤ minYear by omega)
    have hstart : first.number = daysBeforeYear minYear := by decide
    omega
  have hmax : yearOfNumber n ≤ maxYear := by
    by_contra hnot
    have hmono := daysBeforeYear_mono (show maxYear + 1 ≤ yearOfNumber n by omega)
    have hend : last.number = daysBeforeYear (maxYear + 1) - 1 := by decide
    omega
  obtain ⟨d, -, hnumber⟩ := ofNumber?_spec hmin hmax
  exact ⟨d, hnumber⟩

/-- Going back some days ends at the first day of the calendar. -/
theorem number_backDays (d : Date) (n : Nat) :
    (d.backDays n).number = max (d.number - n) first.number := by
  have hlast := le_iff_number.mp d.le_last
  unfold backDays addDays?
  by_cases hfirst : first.number ≤ d.number + -n
  · obtain ⟨e, he⟩ := exists_number hfirst (by omega)
    rw [← he, ofNumber?_number, Option.getD_some, he]
    omega
  · have hnone : ofNumber? (d.number + -n) = none := by
      refine Option.eq_none_iff_forall_ne_some.mpr fun e he => hfirst ?_
      rw [← ofNumber?_eq_some_iff.mp he]
      exact le_iff_number.mp e.first_le
    rw [hnone, Option.getD_none]
    omega

/-! ## Steps of months -/

/-- The number of months from the first month of year 0 to the month of the day. -/
def monthNumber (d : Date) : Int := 12 * d.year + (d.month - 1 : Nat)

theorem monthNumber_parts (d : Date) :
    d.monthNumber / 12 = d.year ∧ (d.monthNumber % 12).toNat + 1 = d.month := by
  have hmonth := d.month_mem
  unfold monthNumber
  omega

/-- Days are ordered by their months and by their places in the month. -/
theorem le_iff_months {d e : Date} : d ≤ e ↔ d.monthNumber < e.monthNumber ∨
    (d.monthNumber = e.monthNumber ∧ d.day ≤ e.day) := by
  have hd := d.month_mem
  have he := e.month_mem
  rw [le_iff]
  unfold monthNumber
  omega

/-- The first day of a month comes before the days of this month and of those behind it. -/
theorem first_le_iff {s e : Date} (h : s.day = 1) : s ≤ e ↔ s.monthNumber ≤ e.monthNumber := by
  have hday := e.day_mem.1
  rw [le_iff_months, h]
  omega

theorem ofCivil?_eq_some_iff {y : Int} {m d : Nat} {e : Date} :
    ofCivil? y m d = some e ↔ e.year = y ∧ e.month = m ∧ e.day = d := by
  unfold ofCivil?
  constructor
  · intro h
    split at h
    case isFalse => cases h
    split at h
    case isFalse => cases h
    split at h
    case isFalse => cases h
    rw [← Option.some.inj h]
    exact ⟨rfl, rfl, rfl⟩
  · rintro ⟨rfl, rfl, rfl⟩
    rw [dif_pos e.year_mem, dif_pos e.month_mem, dif_pos e.day_mem]

theorem addMonths?_eq (d : Date) (k : Int) : d.addMonths? k =
    ofCivil? ((d.monthNumber + k) / 12) (((d.monthNumber + k) % 12).toNat + 1)
      (min d.day (daysInMonth ((d.monthNumber + k) / 12)
        (((d.monthNumber + k) % 12).toNat + 1))) := rfl

/-- The day that a step of months leads to has the same place in its month, or is the last day of a
month that is too short. -/
theorem addMonths?_eq_some_iff {d e : Date} {k : Int} :
    d.addMonths? k = some e ↔ e.monthNumber = d.monthNumber + k ∧
      e.day = min d.day (daysInMonth e.year e.month) := by
  rw [addMonths?_eq, ofCivil?_eq_some_iff]
  constructor
  · rintro ⟨hyear, hmonth, hday⟩
    rw [← hyear, ← hmonth] at hday
    refine ⟨?_, hday⟩
    unfold monthNumber at hyear hmonth ⊢
    omega
  · rintro ⟨hmonths, hday⟩
    rw [← hmonths, e.monthNumber_parts.1, e.monthNumber_parts.2]
    exact ⟨rfl, rfl, hday⟩

/-- Steps of months keep the order of the days. -/
theorem addMonths?_mono {d d' e e' : Date} {k : Int} (h : d ≤ d') (he : d.addMonths? k = some e)
    (he' : d'.addMonths? k = some e') : e ≤ e' := by
  obtain ⟨hmonths, hday⟩ := addMonths?_eq_some_iff.mp he
  obtain ⟨hmonths', hday'⟩ := addMonths?_eq_some_iff.mp he'
  rcases le_iff_months.mp h with hlt | ⟨heq, hle⟩
  · exact le_iff_months.mpr (.inl (by omega))
  · -- the two days lead to one month, which has one length
    have hsame : e.monthNumber = e'.monthNumber := by omega
    have hlength : daysInMonth e.year e.month = daysInMonth e'.year e'.month := by
      rw [← e.monthNumber_parts.1, ← e.monthNumber_parts.2, hsame, e'.monthNumber_parts.1,
        e'.monthNumber_parts.2]
    refine le_iff_months.mpr (.inr ⟨hsame, ?_⟩)
    rw [hday, hday', hlength]
    exact min_le_min_right _ hle

/-- A step back of months leads to an earlier day. -/
theorem addMonths?_number_lt {d e : Date} {k : Int} (hk : k < 0) (he : d.addMonths? k = some e) :
    e.number < d.number := by
  obtain ⟨hmonths, -⟩ := addMonths?_eq_some_iff.mp he
  have hnot : ¬ d ≤ e := fun hle => by
    rcases le_iff_months.mp hle with hlt | ⟨heq, -⟩ <;> omega
  rwa [le_iff_number, not_le] at hnot

theorem addDays?_eq_some_iff {d e : Date} {k : Int} :
    d.addDays? k = some e ↔ e.number = d.number + k := ofNumber?_eq_some_iff

end Date

end MetricLayer
