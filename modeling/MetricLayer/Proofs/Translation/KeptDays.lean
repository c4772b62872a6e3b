import MetricLayer.Proofs.Calendar.Shifts
import MetricLayer.Proofs.Report.Literal
import MetricLayer.Proofs.Translation.Comparisons

/-!
# The days that a query keeps

A query over some days compares its time column with two bounds, which are its first parameters. In
a column of days these are the first and the last day. In a column of moments they are the midnight
that the first day begins with and the last second of the last day, so the moments behind that
second are lost.

But for these, a range and the range before it keep every value of their days exactly once. The
range before one that begins with the first day of the calendar is the exception, since there is no
day left for it.

Results:
1. `Literal.between_bounds`: which values lie between the bounds of some days.
2. `DayRange.xor_covers_previousPeriod`: which values a range and the range before it share out.
3. `Translation.keeps_days`: which values the queries of a translation keep.
-/

namespace MetricLayer

/-! ## Values of time columns -/

namespace Timestamp

/-- The place of the moment in its day, where every minute has room for a leap second. -/
def clock (t : Timestamp) : Nat :=
  ((t.hour * 60 + t.minute) * 61 + t.second) * digitValues 9 + t.nano

/-- The moment is later than 23:59:59 on its day. -/
def IsLate (t : Timestamp) : Prop :=
  t.hour = 23 ∧ t.minute = 59 ∧ (t.second = 59 ∧ 0 < t.nano ∨ t.second = 60)

theorem midnight_clock (d : Date) : (midnight d).clock = 0 := by
  simp [midnight, clock]

/-- A moment is late if it comes after the last second of its day. -/
theorem isLate_iff {t : Timestamp} (h : t.Exists) (d : Date) :
    t.IsLate ↔ ¬t.clock ≤ clock ⟨d, 23, 59, 59, 0⟩ := by
  obtain ⟨hhour, hminute, hsecond, hnano⟩ := h
  have hdigits : digitValues 9 = 1000000000 := rfl
  rw [hdigits] at hnano
  unfold IsLate clock
  rw [hdigits]
  simp only
  omega

end Timestamp

namespace Literal

/-- The order of a time column: by the day, and by the moment in it. -/
def AtMost : Literal → Literal → Prop
  | date d, date e => d ≤ e
  | moment t, moment u => t.date ≤ u.date ∧ (t.date = u.date → t.clock ≤ u.clock)
  | _, _ => False

/-- The day of a value of a time column. -/
def day? : Literal → Option Date
  | date d => some d
  | moment t => some t.date
  | _ => none

/-- The value is a moment behind the last second of its day. -/
def IsLate : Literal → Prop
  | moment t => t.IsLate
  | _ => False

end Literal

/-- The day of the value lies in the range, and the value is not behind its last second. -/
def DayRange.Covers (r : DayRange) (v : Literal) : Prop :=
  ∃ d, v.day? = some d ∧ r.start ≤ d ∧ d ≤ r.stop ∧ ¬(d = r.stop ∧ v.IsLate)

namespace Literal

/-- Between the bounds of some days lie the values of these days, but for those behind the last
second of the last day. -/
theorem between_bounds {type : DataType} (htype : type = .date ∨ type = .timestamp) {v : Literal}
    (hv : v.HasType type) (r : DayRange) :
    (dayStart type r.start).AtMost v ∧ v.AtMost (dayEnd type r.stop) ↔ r.Covers v := by
  rcases htype with rfl | rfl
  · obtain ⟨d, rfl⟩ := hv
    simp [dayStart, dayEnd, AtMost, DayRange.Covers, day?, IsLate]
  · obtain ⟨t, rfl, ht⟩ := hv
    have hlate := Timestamp.isLate_iff ht r.stop
    have hstart : (Timestamp.midnight r.start).clock ≤ t.clock := by
      rw [Timestamp.midnight_clock]
      exact Nat.zero_le _
    have hday : (Timestamp.midnight r.start).date = r.start := rfl
    simp only [dayStart, dayEnd, AtMost, DayRange.Covers, day?, IsLate, if_neg, reduceCtorEq,
      not_false_eq_true, hday, hstart, implies_true, and_true, Option.some.injEq, exists_eq_left',
      hlate, not_and, not_not]

end Literal

theorem Literal.dayStart_spec {type : DataType} (htype : type = .date ∨ type = .timestamp)
    (d : Date) : (dayStart type d).HasType type ∧ (dayStart type d).day? = some d ∧
      ¬(dayStart type d).IsLate := by
  rcases htype with rfl | rfl
  · exact ⟨⟨d, rfl⟩, rfl, not_false⟩
  · exact ⟨⟨_, rfl, Timestamp.midnight_exists d⟩, rfl, fun h => Nat.zero_ne_add_one 22 h.1⟩

namespace DayRange

variable {r : DayRange}

/-- A value that is not late is covered if its day lies in the range. -/
theorem covers_iff {v : Literal} (hlate : ¬v.IsLate) : r.Covers v ↔
    ∃ d, v.day? = some d ∧ r.start.number ≤ d.number ∧ d.number ≤ r.stop.number := by
  simp only [Covers, hlate, and_false, not_false_eq_true, and_true, Date.le_iff_number]

/-- A range and the one before it cover each value of their days once, if there is a day before. -/
theorem xor_covers_previousPeriod (h : r.start ≤ r.stop) (hfirst : r.start ≠ .first) {v : Literal}
    (hlate : ¬v.IsLate) : Xor (r.Covers v) ((r.shift .previousPeriod).Covers v) ↔
      (DayRange.mk (r.shift .previousPeriod).start r.stop).Covers v := by
  obtain ⟨hstart, hstop⟩ := previousPeriod_number h
  have hle := Date.le_iff_number.mp r.start.first_le
  have hne : r.start.number ≠ Date.first.number := fun heq => hfirst (Date.number_inj heq)
  have hnumbers := Date.le_iff_number.mp h
  have hdays : 1 ≤ (r.days : Int) := by
    unfold days
    omega
  simp only [xor_def, covers_iff hlate]
  cases v.day? with
  | none => simp
  | some d =>
    simp only [Option.some.injEq, exists_eq_left']
    omega

/-- The first day of the calendar has none before it, so its own values are covered twice. -/
theorem covers_first (h : r.start ≤ r.stop) (hfirst : r.start = .first) {v : Literal}
    (hlate : ¬v.IsLate) (hv : v.day? = some .first) :
    r.Covers v ∧ (r.shift .previousPeriod).Covers v ∧
      (DayRange.mk (r.shift .previousPeriod).start r.stop).Covers v := by
  obtain ⟨hstart, hstop⟩ := previousPeriod_number h
  have hnumbers := Date.le_iff_number.mp h
  have hdays : 0 ≤ (r.days : Int) := Int.natCast_nonneg _
  simp only [covers_iff hlate, hv, Option.some.injEq, exists_eq_left']
  rw [hfirst] at hnumbers hstart hstop ⊢
  omega

end DayRange

/-! ## Queries over days -/

/-- The value lies between the bounds that the statement binds. -/
def Statement.Keeps (st : Statement) (v : Literal) : Prop :=
  ∃ low high rest, st.parameters = ⟨"p1", low⟩ :: ⟨"p2", high⟩ :: rest ∧ low.AtMost v ∧
    v.AtMost high

theorem Statement.withDays_keeps {type : DataType} (htype : type = .date ∨ type = .timestamp)
    {v : Literal} (hv : v.HasType type) (st : Statement) (r : DayRange) :
    (st.withDays type r).Keeps v ↔ r.Covers v := by
  rw [← Literal.between_bounds htype hv]
  constructor
  · rintro ⟨low, high, rest, hparameters, hlow, hhigh⟩
    cases hparameters
    exact ⟨hlow, hhigh⟩
  · rintro ⟨hlow, hhigh⟩
    exact ⟨_, _, _, rfl, hlow, hhigh⟩

/-- The query of a report over some days first compares its time column with their bounds. -/
theorem Report.translate_filters {r : Report} {s : Schema} {settings : TranslationSettings}
    {t : Translation} {column : TimeColumn} {days : DayRange} (ht : r.translate s settings = .ok t)
    (hbound : r.timeBound? s = some (column, days)) :
    ∃ rest, t.query.filters = column.within days :: rest := by
  obtain ⟨plan, ws, hquery, -⟩ := translate_queries ht
  rw [hbound] at hquery
  obtain ⟨_, rows, _, _, -, -, -, hq⟩ := query_eq_ok hquery
  exact ⟨rows, by rw [hq]; rfl⟩

/-- The values of a time column that the queries of a translation keep. Their bounds are the first
two parameters. Each query keeps the values of the days that it is over, but for the moments behind
the last second of the last day. But for late moments, the query over a range and that over the
range before it keep every value of their days exactly once, just if the range does not begin with
the first day of the calendar. -/
theorem Translation.keeps_days (s : Schema) (settings : TranslationSettings) (r : Report)
    (t : Translation) (ht : r.translate s settings = .ok t) (column : TimeColumn) (days : DayRange)
    (hbound : r.timeBound? s = some (column, days))
    (htype : column.type = .date ∨ column.type = .timestamp) :
    (∃ rest, t.query.filters = column.within days :: rest) ∧
      (∀ v : Literal, v.HasType column.type → (t.statement.Keeps v ↔ days.Covers v)) ∧
      ∀ c ∈ t.comparisons, c.range = days.shift c.comparison ∧
        (∀ v : Literal, v.HasType column.type → (c.statement.Keeps v ↔ c.range.Covers v)) ∧
        (c.comparison = .previousPeriod → days.start ≤ days.stop →
          ((∀ v : Literal, v.HasType column.type → ¬v.IsLate →
            (Xor (t.statement.Keeps v) (c.statement.Keeps v) ↔
              (DayRange.mk c.range.start days.stop).Covers v)) ↔ days.start ≠ .first)) := by
  obtain ⟨⟨rest, hstep⟩, -⟩ := translate_inStep ht hbound
  have hwritten := translate_written ht
  have hmain : ∀ v : Literal, v.HasType column.type → (t.statement.Keeps v ↔ days.Covers v) := by
    intro v hv
    rw [hstep.statement_eq hwritten]
    exact Statement.withDays_keeps htype hv t.statement days
  refine ⟨Report.translate_filters ht hbound, hmain, fun c hc => ?_⟩
  obtain ⟨hrange, hstatement⟩ := hstep.comparison_eq hwritten hc
  have hcomparison : ∀ v : Literal, v.HasType column.type →
      (c.statement.Keeps v ↔ c.range.Covers v) := by
    intro v hv
    rw [hstatement]
    exact Statement.withDays_keeps htype hv t.statement c.range
  refine ⟨hrange, hcomparison, fun hprevious hordered => ⟨fun honce hfirst => ?_, ?_⟩⟩
  · -- The first value of the calendar is kept by both queries.
    obtain ⟨hv, hday, hlate⟩ := Literal.dayStart_spec htype .first
    obtain ⟨hcovers, hbefore, hall⟩ := DayRange.covers_first hordered hfirst hlate hday
    rw [← hprevious, ← hrange] at hbefore hall
    rcases (honce _ hv hlate).mpr hall with ⟨-, hnot⟩ | ⟨-, hnot⟩
    · exact hnot ((hcomparison _ hv).mpr hbefore)
    · exact hnot ((hmain _ hv).mpr hcovers)
  · intro hfirst v hv hlate
    rw [hmain v hv, hcomparison v hv, hrange, hprevious]
    exact DayRange.xor_covers_previousPeriod hordered hfirst hlate

namespace Sales

/-- The last second of the week, or later. -/
def weekEnd (nano : Nat) : Timestamp := ⟨(firstWeek true).stop, 23, 59, 59, nano⟩

theorem weekEnd_hasType {nano : Nat} (h : nano < digitValues 9) :
    (Literal.moment (weekEnd nano)).HasType .timestamp :=
  ⟨_, rfl, by simp [weekEnd, Timestamp.Exists, h]⟩

/-- The last second of the week is kept, and half a second behind it is not. -/
theorem keeps_days_moments : ∃ t,
    (comparedReport .previousPeriod).translate (datedSchema .timestamp) {} = .ok t ∧
      t.statement.Keeps (.moment (weekEnd 0)) ∧
      ¬t.statement.Keeps (.moment (weekEnd 500000000)) := by
  obtain ⟨t, ht⟩ := eq_ok_of_isOk
    (x := (comparedReport .previousPeriod).translate (datedSchema .timestamp) {})
    (by decide +kernel)
  have hbound : (comparedReport .previousPeriod).timeBound? (datedSchema .timestamp) =
      some (⟨⟨"Sales", "Day"⟩, .timestamp⟩, firstWeek true) := by decide +kernel
  obtain ⟨-, hkeeps, -⟩ := Translation.keeps_days (datedSchema .timestamp) {}
    (comparedReport .previousPeriod) t ht _ _ hbound (.inr rfl)
  refine ⟨t, ht, (hkeeps _ (weekEnd_hasType (by decide))).mpr ?_, fun hkept => ?_⟩
  · refine ⟨_, rfl, by decide, by decide, fun hlate => ?_⟩
    obtain ⟨-, -, -, ⟨-, hnano⟩ | hsecond⟩ := hlate
    · exact absurd hnano (by decide)
    · exact absurd hsecond (by decide)
  · obtain ⟨d, hd, -, -, hnot⟩ := (hkeeps _ (weekEnd_hasType (by decide))).mp hkept
    exact hnot ⟨(Option.some.inj hd).symm, rfl, rfl, .inl ⟨rfl, by decide⟩⟩

end Sales

end MetricLayer
