import MetricLayer.Calendar.DateText
import MetricLayer.Proofs.Decimal.Positional

/-!
# Days and moments are read as they are written

The wire text of a day or a moment is read back as that day or moment. Every part of a written form
takes exactly the characters that were written for it: the numbers have a fixed width, apart from a
year with a sign, which ends at the dash behind it, and a fraction, which ends the text.

Results:
1. `ofWire?_text`: a day is read as it is written.
2. `ofWire?_wire`: so is a moment that exists.
-/

namespace MetricLayer

namespace DateText

open Decimal (ofDigits)

/-! ## Numbers of a fixed width -/

theorem padded_digits (width n : Nat) : ∀ c ∈ (padded width n).toList, c.isDigit = true := by
  intro c hc
  simp only [padded, String.toList_ofList] at hc
  rcases List.mem_append.mp hc with hc | hc
  · rw [List.eq_of_mem_replicate hc]
    rfl
  · exact Nat.isDigit_of_mem_toDigits (by decide) (by decide) hc

theorem ofDigits_padded (width n : Nat) : ofDigits (padded width n).toList = n := by
  simp only [padded, String.toList_ofList]
  rw [Decimal.ofDigits_append, Decimal.ofDigits_zeros, Decimal.ofDigits_eq,
    Nat.ofDigitChars_ten_toDigits]
  omega

theorem padded_length {width n : Nat} (hw : 0 < width) (hn : n < 10 ^ width) :
    (padded width n).toList.length = width := by
  have := (Nat.length_toDigits_le_iff (b := 10) (by decide) hw).mpr hn
  simp only [padded, String.toList_ofList, List.length_append, List.length_replicate]
  omega

theorem padded_ne_nil (width n : Nat) : (padded width n).toList ≠ [] := by
  simp [padded, Nat.toDigits_ne_nil]

/-- As many digits are read as may be. -/
theorem readDigits?_some {ds : List Char} (hds : ∀ c ∈ ds, c.isDigit = true) (hne : ds ≠ [])
    (rest : List Char) : readDigits? (some ds.length) (ds ++ rest) = some (ofDigits ds, rest) := by
  simp [readDigits?, List.takeWhile_append_of_pos hds, hne]

/-- Digits are read up to something else. -/
theorem readDigits?_none {ds : List Char} (hds : ∀ c ∈ ds, c.isDigit = true) (hne : ds ≠ [])
    {rest : List Char} (hrest : rest.takeWhile Char.isDigit = []) :
    readDigits? none (ds ++ rest) = some (ofDigits ds, rest) := by
  simp [readDigits?, List.takeWhile_append_of_pos hds, hrest, hne]

theorem readDigits?_padded {width n : Nat} (hw : 0 < width) (hn : n < 10 ^ width)
    (rest : List Char) :
    readDigits? (some width) ((padded width n).toList ++ rest) = some (n, rest) := by
  have := readDigits?_some (padded_digits width n) (padded_ne_nil width n) rest
  rwa [padded_length hw hn, ofDigits_padded] at this

theorem isBlank_of_isDigit {c : Char} (h : c.isDigit = true) : Text.isBlank c = false := by
  have hall : ∀ n < 58, 48 ≤ n → Text.isBlank (Char.ofNat n) = false := by decide
  simp only [Char.isDigit, Bool.and_eq_true, decide_eq_true_eq] at h
  rw [← Char.ofNat_toNat c]
  exact hall c.toNat (Nat.lt_succ_of_le h.2) h.1

/-- There are no blanks in front of a number. -/
theorem dropWhile_padded (width n : Nat) (rest : List Char) :
    ((padded width n).toList ++ rest).dropWhile Text.isBlank =
      (padded width n).toList ++ rest := by
  obtain ⟨c, cs, hcs⟩ := List.exists_cons_of_ne_nil (padded_ne_nil width n)
  have hc := isBlank_of_isDigit (padded_digits width n c (hcs ▸ List.mem_cons_self))
  rw [hcs, List.cons_append, List.dropWhile_cons_of_neg (by simp [hc])]

/-! ## Parts -/

/-- The parts with one of the numbers set. -/
def Field.set (f : Field) (ps : Parts) (n : Nat) : Parts :=
  match f with
  | .year => { ps with year := n }
  | .month => { ps with month := n }
  | .day => { ps with day := n }
  | .hour => { ps with hour := n }
  | .minute => { ps with minute := n }
  | .second => { ps with second := n }

/-- A number of two digits is read as it is written. -/
theorem Part.read?_padded {f : Field} (hf : f ≠ .year) (ps : Parts) {n : Nat} (hn : n < 100)
    (rest : List Char) :
    (Part.number f).read? ps ((padded 2 n).toList ++ rest) = some (f.set ps n, rest) := by
  have hread := readDigits?_padded (by decide : 0 < 2) hn rest
  show f.read? ps _ = _
  cases f with
  | year => exact absurd rfl hf
  | month | day | hour | minute | second =>
    simp only [Field.read?, dropWhile_padded, hread, Option.map_some, Field.set]

/-- A year is read as it is written, if no digit follows. -/
theorem Part.read?_year (ps : Parts) (y : Int) {rest : List Char}
    (hrest : rest.takeWhile Char.isDigit = []) :
    (Part.number .year).read? ps ((writeYear y).toList ++ rest) =
      some ({ ps with year := y }, rest) := by
  show Field.year.read? ps _ = _
  have hdigits := readDigits?_none (padded_digits 4 y.natAbs) (padded_ne_nil 4 y.natAbs) hrest
  rw [ofDigits_padded] at hdigits
  unfold writeYear
  split
  · next h =>
    have hread := readDigits?_padded (by decide : 0 < 4) (n := y.toNat) (by omega) rest
    have hyear : (y.toNat : Int) = y := by omega
    obtain ⟨c, cs, hcs⟩ := List.exists_cons_of_ne_nil (padded_ne_nil 4 y.toNat)
    have hc := padded_digits 4 y.toNat c (hcs ▸ List.mem_cons_self)
    rw [Field.read?, dropWhile_padded]
    simp only
    rw [hcs] at hread ⊢
    rw [List.cons_append] at hread ⊢
    split
    · next heq =>
      rw [(List.cons.inj heq).1] at hc
      cases hc
    · next heq =>
      rw [(List.cons.inj heq).1] at hc
      cases hc
    · rw [hread, Option.map_some, hyear]
  · split
    · have hyear : -(y.natAbs : Int) = y := by omega
      have hsign : ("-" ++ padded 4 y.natAbs).toList ++ rest =
          '-' :: ((padded 4 y.natAbs).toList ++ rest) := by simp
      rw [hsign, Field.read?, List.dropWhile_cons_of_neg (by decide)]
      simp only [hdigits, Option.map_some, hyear]
    · have hyear : (y.natAbs : Int) = y := by omega
      have hsign : ("+" ++ padded 4 y.natAbs).toList ++ rest =
          '+' :: ((padded 4 y.natAbs).toList ++ rest) := by simp
      rw [hsign, Field.read?, List.dropWhile_cons_of_neg (by decide)]
      simp only [hdigits, Option.map_some, hyear]

/-- A gap of no characters is read where something stands that is not blank. -/
theorem Part.read?_gap (ps : Parts) {rest : List Char} (h : rest.dropWhile Text.isBlank = rest) :
    Part.gap.read? ps rest = some (ps, rest) := by
  rw [Part.read?, h]

theorem Part.read?_char (c : Char) (ps : Parts) (rest : List Char) :
    (Part.char c).read? ps (c :: rest) = some (ps, rest) := by
  simp [Part.read?]

theorem readParts?_cons {p : Part} {form : List Part} {ps ps' : Parts} {cs rest : List Char}
    (h : p.read? ps cs = some (ps', rest)) :
    readParts? (p :: form) ps cs = readParts? form ps' rest := by
  rw [readParts?, h, Option.bind_some]

/-! ## Fractions -/

/-- The digits of a fraction of so many groups are read back. -/
theorem nanosOf_padded {width n : Nat} (hw : 0 < width) (hwidth : width ≤ 9) (hn : n < 10 ^ width) :
    nanosOf (padded width n).toList = n * digitValues (9 - width) := by
  have hlen := padded_length hw hn
  rw [nanosOf]
  simp only [List.take_of_length_le (hlen.trans_le hwidth), hlen, ofDigits_padded]

theorem Part.read?_point (ps : Parts) {width n : Nat} (hw : 0 < width) (hwidth : width ≤ 9)
    (hn : n < 10 ^ width) :
    Part.fraction.read? ps ('.' :: (padded width n).toList) =
      some ({ ps with nano := n * digitValues (9 - width) }, []) := by
  have hdigits := padded_digits width n
  have htake : (padded width n).toList.takeWhile Char.isDigit = (padded width n).toList :=
    List.takeWhile_eq_self_iff.mpr hdigits
  have hdrop : (padded width n).toList.dropWhile Char.isDigit = [] :=
    List.dropWhile_eq_nil_iff.mpr hdigits
  have hne : (padded width n).toList.isEmpty = false := by
    simpa using padded_ne_nil width n
  rw [Part.read?]
  simp only [htake, hdrop, hne, nanosOf_padded hw hwidth hn, Bool.false_eq_true, if_false]

/-- The fraction of a second is read as it is written. -/
theorem Part.read?_fraction (ps : Parts) (hps : ps.nano = 0) {nano : Nat}
    (h : nano < digitValues 9) :
    Part.fraction.read? ps (fractionText nano).toList = some ({ ps with nano := nano }, []) := by
  have h : nano < 1000000000 := h
  have hset : ∀ n, n = nano → ({ ps with nano := n } : Parts) = { ps with nano := nano } := by
    rintro n rfl
    rfl
  have hpoint : ∀ s : String, ("." ++ s).toList = '.' :: s.toList := by simp
  unfold fractionText
  simp only [show digitValues 6 = 1000000 from rfl, show digitValues 3 = 1000 from rfl]
  split
  · next hzero =>
    show some (ps, []) = _
    rw [hzero, ← hps]
  · split
    · rw [hpoint, Part.read?_point ps (by decide) (by decide) (by omega)]
      simp only [show digitValues (9 - 3) = 1000000 from rfl]
      rw [hset _ (by omega)]
    · split
      · rw [hpoint, Part.read?_point ps (by decide) (by decide) (by omega)]
        simp only [show digitValues (9 - 6) = 1000 from rfl]
        rw [hset _ (by omega)]
      · rw [hpoint, Part.read?_point ps (by decide) (by decide) (by omega)]
        simp only [show digitValues (9 - 9) = 1 from rfl]
        rw [hset _ (by omega)]

/-! ## Fractions of seconds -/

end DateText

/-! ## Days -/

namespace Date

open DateText

theorem month_lt (d : Date) : d.month < 100 := by
  have := d.month_mem
  omega

theorem day_lt (d : Date) : d.day < 100 := by
  have hday := d.day_mem.2
  have hmonth : daysInMonth d.year d.month ≤ 31 := by
    unfold daysInMonth
    repeat' split
    all_goals omega
  omega

theorem toList_text (d : Date) : d.text.toList =
    (writeYear d.year).toList ++ '-' :: ((padded 2 d.month).toList ++ '-' :: (padded 2 d.day).toList)
      := by
  simp [text]

/-- The day at the beginning of a text is read as it is written. -/
theorem readParts?_text (d : Date) (ps : Parts) (form : List Part) {rest : List Char}
    (hrest : rest.dropWhile Text.isBlank = rest) :
    readParts? (wireDate ++ form) ps (d.text.toList ++ rest) =
      readParts? form { ps with year := d.year, month := d.month, day := d.day } rest := by
  have hdash : ∀ cs : List Char, ('-' :: cs).dropWhile Text.isBlank = '-' :: cs := fun cs =>
    List.dropWhile_cons_of_neg (by decide)
  rw [toList_text, wireDate]
  simp only [List.cons_append, List.append_assoc, List.nil_append]
  rw [readParts?_cons (Part.read?_year ps d.year rfl),
    readParts?_cons (Part.read?_gap _ (hdash _)), readParts?_cons (Part.read?_char _ _ _),
    readParts?_cons (Part.read?_padded (f := .month) (by decide) _ d.month_lt _),
    readParts?_cons (Part.read?_gap _ (hdash _)), readParts?_cons (Part.read?_char _ _ _),
    readParts?_cons (Part.read?_padded (f := .day) (by decide) _ d.day_lt _),
    readParts?_cons (Part.read?_gap _ hrest)]
  rfl

theorem ofCivil?_eq (d : Date) : ofCivil? d.year d.month d.day = some d := by
  simp [ofCivil?, d.year_mem, d.month_mem, d.day_mem]

/-- A day is read as it is written. -/
theorem ofWire?_text (d : Date) : ofWire? d.text = some d := by
  have hnil : ([] : List Char).dropWhile Text.isBlank = [] := rfl
  have hread := d.readParts?_text {} [] hnil
  rw [List.append_nil, List.append_nil] at hread
  simp only [ofWire?, readDate?, readAll?, hread, readParts?, Option.bind_some, ofCivil?_eq]

theorem text_inj {d e : Date} (h : d.text = e.text) : d = e := by
  have hread := d.ofWire?_text
  rw [h, e.ofWire?_text] at hread
  exact (Option.some.inj hread).symm

theorem not_mem_text (d : Date) : ' ' ∉ d.text.toList := by
  intro hmem
  have hdigits : ∀ width n, ' ' ∉ (padded width n).toList := fun width n hn =>
    absurd (padded_digits width n ' ' hn) (by decide)
  have hyear : ' ' ∉ (writeYear d.year).toList := by
    unfold writeYear
    split
    · exact hdigits _ _
    · rw [String.toList_append, List.mem_append]
      rintro (hsign | hn)
      · revert hsign
        split <;> decide
      · exact hdigits _ _ hn
  rw [toList_text, List.mem_append, List.mem_cons, List.mem_append, List.mem_cons] at hmem
  rcases hmem with h | h | h | h | h
  · exact hyear h
  · exact absurd h (by decide)
  · exact hdigits _ _ h
  · exact absurd h (by decide)
  · exact hdigits _ _ h

end Date

/-! ## Moments -/

namespace Timestamp

open DateText

/-- The moment exists. -/
def Exists (t : Timestamp) : Prop :=
  t.hour < 24 ∧ t.minute < 60 ∧ t.second ≤ 60 ∧ t.nano < digitValues 9

theorem ofParts?_exists {d : Date} {hour minute second nano : Nat} {t : Timestamp}
    (h : ofParts? d hour minute second nano = some t) : t.Exists := by
  unfold ofParts? at h
  split at h
  · next hparts =>
    cases h
    exact hparts
  · cases h

theorem midnight_exists (d : Date) : (midnight d).Exists := by simp [Exists, midnight, digitValues]

theorem toList_wire (t : Timestamp) : t.wire.toList =
    t.date.text.toList ++ 'T' :: ((padded 2 t.hour).toList ++ ':' :: ((padded 2 t.minute).toList ++
      ':' :: ((padded 2 t.second).toList ++ (fractionText t.nano).toList))) := by
  simp [wire, timeText]

/-- A moment that exists is read as it is written. -/
theorem ofWire?_wire {t : Timestamp} (h : t.Exists) : ofWire? t.wire = some t := by
  obtain ⟨hhour, hminute, hsecond, hnano⟩ := h
  have hcolon : ∀ cs : List Char, (':' :: cs).dropWhile Text.isBlank = ':' :: cs := fun cs =>
    List.dropWhile_cons_of_neg (by decide)
  have hread : readParts? wireTimestamp {} t.wire.toList = some
      ({ year := t.date.year, month := t.date.month, day := t.date.day, hour := t.hour,
          minute := t.minute, second := t.second, nano := t.nano }, []) := by
    rw [toList_wire, wireTimestamp,
      t.date.readParts?_text {} _ (List.dropWhile_cons_of_neg (by decide)),
      readParts?_cons (Part.read?_char _ _ _),
      readParts?_cons (Part.read?_padded (f := .hour) (by decide) _ (by omega) _),
      readParts?_cons (Part.read?_gap _ (hcolon _)), readParts?_cons (Part.read?_char _ _ _),
      readParts?_cons (Part.read?_padded (f := .minute) (by decide) _ (by omega) _),
      readParts?_cons (Part.read?_gap _ (hcolon _)), readParts?_cons (Part.read?_char _ _ _),
      readParts?_cons (Part.read?_padded (f := .second) (by decide) _ (by omega) _),
      readParts?_cons (Part.read?_fraction _ rfl hnano)]
    rfl
  simp only [ofWire?, readTimestamp?, readAll?, hread, Option.bind_some, Date.ofCivil?_eq]
  exact if_pos ⟨hhour, hminute, hsecond, hnano⟩

theorem wire_inj {t u : Timestamp} (ht : t.Exists) (hu : u.Exists) (h : t.wire = u.wire) :
    t = u := by
  have hread := ofWire?_wire ht
  rw [h, ofWire?_wire hu] at hread
  exact (Option.some.inj hread).symm

/-- There is a blank between the day and the time only. -/
theorem not_mem_timeText (t : Timestamp) : ' ' ∉ t.timeText.toList := by
  intro hmem
  simp only [timeText, String.toList_append, List.mem_append] at hmem
  have hdigits : ∀ n, ' ' ∉ (padded 2 n).toList := fun n hn =>
    absurd (padded_digits 2 n ' ' hn) (by decide)
  have hcolon : ' ' ∉ ":".toList := by decide
  rcases hmem with (((h | h) | h) | h) | h
  · exact hdigits _ h
  · exact hcolon h
  · exact hdigits _ h
  · exact hcolon h
  · exact hdigits _ h

/-- Moments with the same text to the second differ in the nanoseconds only. -/
theorem text_inj {t u : Timestamp} (ht : t.Exists) (hu : u.Exists) (hnano : t.nano = u.nano)
    (h : t.text = u.text) : t = u := by
  have hlists : t.date.text.toList ++ ' ' :: t.timeText.toList =
      u.date.text.toList ++ ' ' :: u.timeText.toList := by
    simpa [text] using congrArg String.toList h
  obtain ⟨hdate, -, htime⟩ :=
    (List.append_cons_inj_of_notMem t.date.not_mem_text t.not_mem_timeText).mp hlists
  refine wire_inj ht hu ?_
  rw [wire, wire, String.toList_inj.mp hdate, String.toList_inj.mp htime, hnano]

end Timestamp

end MetricLayer
