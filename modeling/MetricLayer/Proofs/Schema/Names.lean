import Mathlib.Data.Bool.AllAny
import MetricLayer.Proofs.Basic
import MetricLayer.Schema.Basic

/-!
# What a schema promises about names

Table names of a schema differ in more than letter case, so a table is found under its own name and
tables that are found under one name are one. `Schema.Declares` asks for a field in exactly the
spelling of the declaration, which is what `Schema.canonical?` gives.

Table names are compared in two ways: `sameName` looks at the lowercase forms of all letters, and
`Text.eqIgnoringAsciiCase` at ASCII letters only. Where the second finds agreement, so does the
first.

Results:
1. `sameName_of_ascii` and `ascii_of_sameName`: names that agree but for the case of ASCII letters
   agree but for letter case, and ASCII names do so only then.
2. `Schema.table?_of_mem` and `Schema.table_eq`: a table is found under its own name, and its name is
   that of no other one.
3. `Schema.canonical?_declares` and `Schema.Declares.table?_eq`: a canonical field is declared as it
   stands, and names the table it is declared in.
-/

namespace MetricLayer

/-! ## Two ways to compare names -/

namespace Text

/-- The letters that ASCII lower case changes. -/
def asciiCapitals : List Char := (List.range 26).map fun i => Char.ofNat (65 + i)

theorem toLower_eq_or_capital (c : Char) : c.toLower = c ∨ c ∈ asciiCapitals := by
  by_cases h : 65 ≤ c.toNat ∧ c.toNat ≤ 90
  · refine .inr (List.mem_map.mpr ⟨c.toNat - 65, List.mem_range.mpr (by omega), ?_⟩)
    rw [show 65 + (c.toNat - 65) = c.toNat by omega]
    exact Char.ofNat_toNat c
  · refine .inl ?_
    unfold Char.toLower
    rw [dif_neg]
    exact fun hc => h ⟨hc.1, hc.2⟩

/-- What full lower case looks at is the same for an ASCII letter and its small form. -/
theorem capital_spec : ∀ c ∈ asciiCapitals,
    Run.anyHas c.toLower casedRuns = Run.anyHas c casedRuns ∧
      Run.anyHas c.toLower caseIgnorableRuns = Run.anyHas c caseIgnorableRuns ∧
        Shift.apply c.toLower lowerShifts = Shift.apply c lowerShifts ∧
          c ≠ 'Σ' ∧ c ≠ 'İ' ∧ c.toLower ≠ 'Σ' ∧ c.toLower ≠ 'İ' := by
  rw [← List.all_iff_forall_prop]
  decide +kernel

theorem touchesCased_toLower (cs : List Char) :
    touchesCased (cs.map Char.toLower) = touchesCased cs := by
  induction cs with
  | nil => rfl
  | cons c cs ih =>
    have hclasses : Run.anyHas c.toLower casedRuns = Run.anyHas c casedRuns ∧
        Run.anyHas c.toLower caseIgnorableRuns = Run.anyHas c caseIgnorableRuns := by
      rcases toLower_eq_or_capital c with h | h
      · rw [h]
        exact ⟨rfl, rfl⟩
      · exact ⟨(capital_spec c h).1, (capital_spec c h).2.1⟩
    unfold touchesCased at ih ⊢
    rw [List.map_cons, List.dropWhile_cons, List.dropWhile_cons, hclasses.2]
    cases Run.anyHas c caseIgnorableRuns with
    | true => exact ih
    | false => exact hclasses.1

theorem lowerAt_toLower (before : List Char) (c : Char) (after : List Char) :
    lowerAt (before.map Char.toLower) c.toLower (after.map Char.toLower) = lowerAt before c after := by
  unfold lowerAt
  rw [touchesCased_toLower, touchesCased_toLower]
  rcases toLower_eq_or_capital c with h | h
  · rw [h]
  · obtain ⟨-, -, hshift, hsigma, hdot, hsigma', hdot'⟩ := capital_spec c h
    rw [if_neg hsigma, if_neg hdot, if_neg hsigma', if_neg hdot', hshift]

theorem lowerFrom_toLower (before cs : List Char) :
    lowerFrom (before.map Char.toLower) (cs.map Char.toLower) = lowerFrom before cs := by
  induction cs generalizing before with
  | nil => rfl
  | cons c cs ih =>
    rw [List.map_cons, lowerFrom, lowerFrom, lowerAt_toLower, ← List.map_cons, ih]

/-- The lowercase form does not depend on the case of ASCII letters. -/
theorem lower_lowerAscii (s : String) : lower (lowerAscii s) = lower s := by
  simp only [lower, lowerAscii, String.toList_ofList]
  exact congrArg String.ofList (lowerFrom_toLower [] s.toList)

/-- All characters are ASCII characters. -/
def IsAscii (s : String) : Prop := ∀ c ∈ s.toList, c.toNat < 128

instance (s : String) : Decidable (IsAscii s) :=
  decidable_of_iff (s.toList.all fun c => c.toNat < 128) (by simp [IsAscii])

theorem ascii_spec : ∀ n < 128, Char.ofNat n ≠ 'Σ' ∧ Char.ofNat n ≠ 'İ' ∧
    Shift.apply (Char.ofNat n) lowerShifts = (Char.ofNat n).toLower := by
  decide +kernel

theorem lowerFrom_ascii {cs : List Char} (h : ∀ c ∈ cs, c.toNat < 128) (before : List Char) :
    lowerFrom before cs = cs.map Char.toLower := by
  induction cs generalizing before with
  | nil => rfl
  | cons c cs ih =>
    obtain ⟨hc, hcs⟩ := List.forall_mem_cons.mp h
    obtain ⟨hsigma, hdot, hshift⟩ := ascii_spec c.toNat hc
    rw [Char.ofNat_toNat] at hsigma hdot hshift
    rw [lowerFrom, lowerAt, if_neg hsigma, if_neg hdot, hshift, ih hcs]
    rfl

/-- The lowercase form of an ASCII text changes ASCII letters only. -/
theorem lower_of_isAscii {s : String} (h : IsAscii s) : lower s = lowerAscii s :=
  congrArg String.ofList (lowerFrom_ascii h [])

end Text

theorem Text.eqIgnoringAsciiCase_refl (a : String) : Text.eqIgnoringAsciiCase a a = true :=
  beq_self_eq_true (Text.lowerAscii a)

theorem sameName_iff {a b : String} : sameName a b = true ↔ Text.lower a = Text.lower b := beq_iff_eq

theorem sameName_symm {a b : String} (h : sameName a b = true) : sameName b a = true :=
  sameName_iff.mpr (sameName_iff.mp h).symm

theorem sameName_trans {a b c : String} (h : sameName a b = true) (h' : sameName b c = true) :
    sameName a c = true :=
  sameName_iff.mpr ((sameName_iff.mp h).trans (sameName_iff.mp h'))

/-- Names that agree but for the case of ASCII letters agree but for letter case. -/
theorem sameName_of_ascii {a b : String} (h : Text.eqIgnoringAsciiCase a b = true) :
    sameName a b = true := by
  have hlower : Text.lowerAscii a = Text.lowerAscii b := beq_iff_eq.mp h
  rw [sameName_iff, ← Text.lower_lowerAscii a, hlower, Text.lower_lowerAscii b]

/-- Between ASCII names the two comparisons agree. -/
theorem ascii_of_sameName {a b : String} (ha : Text.IsAscii a) (hb : Text.IsAscii b)
    (h : sameName a b = true) : Text.eqIgnoringAsciiCase a b = true := by
  have hlower := sameName_iff.mp h
  rw [Text.lower_of_isAscii ha, Text.lower_of_isAscii hb] at hlower
  exact beq_iff_eq.mpr hlower

/-! ## Tables -/

namespace SchemaDefinition

/-- Without a repeated name the lowercase forms differ. -/
theorem firstRepeated?_eq_none {seen names : List String} (h : firstRepeated? seen names = none) :
    (names.map Text.lower).Nodup ∧ ∀ name ∈ names, Text.lower name ∉ seen := by
  induction names generalizing seen with
  | nil => exact ⟨.nil, nofun⟩
  | cons name names ih =>
    unfold firstRepeated? at h
    split at h
    · cases h
    · next hseen =>
      obtain ⟨hnodup, hall⟩ := ih h
      refine ⟨List.nodup_cons.mpr ⟨fun hmem => ?_, hnodup⟩, List.forall_mem_cons.mpr ⟨?_, ?_⟩⟩
      · obtain ⟨other, hother, heq⟩ := List.mem_map.mp hmem
        exact hall other hother (heq ▸ List.mem_cons_self)
      · simpa using hseen
      · exact fun other hother hin => hall other hother (List.mem_cons_of_mem _ hin)

end SchemaDefinition

namespace Schema

variable {s : Schema}

/-- The faults that a schema does not have. -/
theorem faultless (s : Schema) :
    SchemaDefinition.firstRepeated? []
        (s.definition.tables.map (·.name) ++ s.definition.views.map (·.name)) = none ∧
      ∀ r ∈ s.relationships, s.definition.relationshipFault? r = none := by
  have h := s.sound
  simp only [SchemaDefinition.fault?, Option.or_eq_none_iff, Option.map_eq_none_iff,
    List.findSome?_eq_none_iff] at h
  exact ⟨h.1, h.2.1⟩

theorem names_differ (s : Schema) : (s.tables.map fun t => Text.lower t.name).Nodup := by
  have h := (SchemaDefinition.firstRepeated?_eq_none s.faultless.1).1
  rw [List.map_append, List.map_map] at h
  exact (List.nodup_append.mp h).1

theorem table?_spec {name : String} {t : Table} (h : s.table? name = some t) :
    t ∈ s.tables ∧ sameName t.name name = true := by
  unfold table? SchemaDefinition.table? at h
  have hname := List.find?_some h
  exact ⟨List.mem_of_find?_eq_some h, hname⟩

/-- Tables whose names agree but for letter case are one. -/
theorem table_eq {t u : Table} (ht : t ∈ s.tables) (hu : u ∈ s.tables)
    (h : sameName t.name u.name = true) : t = u :=
  List.inj_on_of_nodup_map s.names_differ ht hu (sameName_iff.mp h)

theorem table?_of_sameName {t : Table} (ht : t ∈ s.tables) {name : String}
    (h : sameName t.name name = true) : s.table? name = some t := by
  have hsome : (s.table? name).isSome = true := List.find?_isSome.mpr ⟨t, ht, h⟩
  obtain ⟨u, hu⟩ := Option.isSome_iff_exists.mp hsome
  obtain ⟨hmem, hname⟩ := table?_spec hu
  rw [hu, table_eq hmem ht]
  rw [sameName_iff] at h hname ⊢
  exact hname.trans h.symm

/-- A table is found under its own name. -/
theorem table?_of_mem {t : Table} (ht : t ∈ s.tables) : s.table? t.name = some t :=
  table?_of_sameName ht (sameName_iff.mpr rfl)

/-! ## Fields -/

/-- The schema declares the field in exactly this spelling. -/
def Declares (s : Schema) (f : Field) : Prop :=
  ∃ t ∈ s.tables, t.name = f.table ∧ ∃ c ∈ t.columns, c.name = f.column

/-- The canonical spelling is that of the declaration. -/
theorem canonical?_declares {f g : Field} (h : s.canonical? f = some g) : s.Declares g := by
  obtain ⟨t, ht, h⟩ := Option.bind_eq_some_iff.mp h
  obtain ⟨c, hc, rfl⟩ := Option.map_eq_some_iff.mp h
  exact ⟨t, (table?_spec ht).1, rfl, c, List.mem_of_find?_eq_some hc, rfl⟩

theorem Declares.table?_eq {f : Field} (h : s.Declares f) :
    ∃ t ∈ s.tables, t.name = f.table ∧ s.table? f.table = some t := by
  obtain ⟨t, ht, hname, -⟩ := h
  exact ⟨t, ht, hname, hname ▸ table?_of_mem ht⟩

/-- The date column of a table is declared. -/
theorem dateColumn?_declares {t : Table} (ht : t ∈ s.tables) {column : String}
    (h : t.dateColumn? = some column) : s.Declares ⟨t.name, column⟩ := by
  obtain ⟨c, hc, rfl⟩ := Option.map_eq_some_iff.mp h
  exact ⟨t, ht, rfl, c, List.mem_of_find?_eq_some hc, rfl⟩

end Schema

end MetricLayer
