import MetricLayer.Proofs.Report.Draft
import MetricLayer.Proofs.Report.Effects

/-!
# Where conflicts come from

A stage of the mapping puts its conflicts behind those that are there already, and raises none
whose id is there. `Context.Raised` lists what a request can raise: a mention that means no entry, or
none for certain; values that a filter cannot take; filters that exclude each other; a metric that is
missing. Where the dictionary is valid for the schema, nothing else is raised.

Results:
1. `Context.IsValid.isComplete`: in a valid dictionary every metric is complete.
2. `resolve_error` and `resolveField_error`: what is raised about a mention.
3. `Context.Raising.final` and `map_raises`: what a whole request raises, given what its parts do.
4. `mapFilter_valid`: a filter is mapped if and only if it means an entry and can take its values.
5. `Context.Raised.source`: what raises a conflict is told from what the conflict is about.
-/

namespace MetricLayer

/-- The field has a column in exactly the cases in which it has a spelling. -/
theorem Schema.canonical?_isSome (s : Schema) (f : Field) :
    (s.canonical? f).isSome = (s.column? f).isSome := by
  unfold canonical? column? SchemaDefinition.column? table?
  cases s.definition.table? f.table with
  | none => rfl
  | some t =>
    simp only [Option.bind_some]
    exact Option.isSome_map

namespace Mapping

open Draft

variable {ctx : Context}

/-! ## Dictionaries that are valid for their schema -/

/-- The schema has everything that the dictionary refers to. -/
def Context.IsValid (ctx : Context) : Prop := ctx.dictionary.issues ctx.schema = []

namespace Context.IsValid

theorem hasField (h : ctx.IsValid) {e : MetricEntry} (he : e ∈ ctx.dictionary.metrics) :
    ctx.HasField e := by
  intro f hf
  rw [Schema.canonical?_isSome, ← Option.ne_none_iff_isSome]
  intro hnone
  have hfields := (List.append_eq_nil_iff.mp (List.append_eq_nil_iff.mp h).1).1
  have := List.filterMap_eq_nil_iff.mp hfields e he
  simp [hf, hnone] at this

theorem hasColumn (h : ctx.IsValid) {e : DimensionEntry} (he : e ∈ ctx.dictionary.dimensions) :
    (ctx.schema.canonical? e.definition.field).isSome = true := by
  rw [Schema.canonical?_isSome, ← Option.ne_none_iff_isSome]
  intro hnone
  have hfields := (List.append_eq_nil_iff.mp (List.append_eq_nil_iff.mp h).1).2
  have := List.filterMap_eq_nil_iff.mp hfields e he
  simp [hnone] at this

/-- What a formula refers to is in the dictionary. -/
theorem reference (h : ctx.IsValid) {e : MetricEntry} (he : e ∈ ctx.dictionary.metrics)
    {f : Formula} (hf : e.formula = some f) {r : String} (hr : r ∈ f.names) :
    ∃ e' ∈ ctx.dictionary.metrics, e'.definition.name = r := by
  have hreferences := List.flatMap_eq_nil_iff.mp (List.append_eq_nil_iff.mp h).2 e he
  rw [List.map_eq_nil_iff, List.filter_eq_nil_iff] at hreferences
  have hsome := hreferences r (by simpa [hf, Formula.references] using hr)
  rw [Option.isNone_iff_eq_none] at hsome
  obtain ⟨e', he'⟩ := Option.ne_none_iff_exists'.mp hsome
  exact ⟨e', (Dictionary.metric?_spec he').1, Dictionary.metric?_reference he hf hr he'⟩

/-- Every metric of a valid dictionary is complete. -/
theorem isComplete (h : ctx.IsValid) {e : MetricEntry} (he : e ∈ ctx.dictionary.metrics) :
    ctx.IsComplete e.definition.name := by
  intro other hneeds
  generalize hn : e.definition.name = n at hneeds
  induction hneeds generalizing e with
  | self => exact ⟨e, he, hn, h.hasField he⟩
  | reference hf hr _ ih =>
    obtain ⟨e₀, he₀, -, hformula⟩ := hf
    obtain ⟨e', he', hr'⟩ := h.reference he₀ hformula hr
    exact ih he' hr'

end Context.IsValid

/-! ## Raising conflicts -/

namespace Draft

/-- The ids of the open conflicts. -/
def ids (d : Draft) : List String := d.conflicts.map (·.id)

/-- Conflicts with the property are put behind those that are there, and no id comes twice. -/
structure Raises (P : Conflict → Prop) (d d' : Draft) : Prop where
  added : ∃ cs, d'.conflicts = d.conflicts ++ cs ∧ ∀ c ∈ cs, P c
  distinct : d.ids.Nodup → d'.ids.Nodup

namespace Raises

variable {P Q : Conflict → Prop} {a b d d' : Draft}

theorem same (h : d'.conflicts = d.conflicts) : Raises P d d' where
  added := ⟨[], by rw [h, List.append_nil], by simp⟩
  distinct := by rw [ids, ids, h]; exact id

theorem refl (d : Draft) : Raises P d d := .same rfl

theorem trans (h : Raises P a b) (h' : Raises P b d) : Raises P a d where
  added := by
    obtain ⟨cs, hcs, hP⟩ := h.added
    obtain ⟨cs', hcs', hP'⟩ := h'.added
    refine ⟨cs ++ cs', by rw [hcs', hcs, List.append_assoc], fun c hc => ?_⟩
    exact (List.mem_append.mp hc).elim (hP c) (hP' c)
  distinct hd := h'.distinct (h.distinct hd)

theorem mono (h : Raises P d d') (hPQ : ∀ c, P c → Q c) : Raises Q d d' where
  added := by
    obtain ⟨cs, hcs, hP⟩ := h.added
    exact ⟨cs, hcs, fun c hc => hPQ c (hP c hc)⟩
  distinct := h.distinct

theorem raise {c : Conflict} (hc : P c) (d : Draft) : Raises P d (d.raise c) := by
  by_cases hthere : d.conflicts.any (·.id = c.id) = true
  · exact .same (by rw [Draft.raise, Conflict.insert, if_pos hthere])
  · have hadded : (d.raise c).conflicts = d.conflicts ++ [c] := by
      rw [Draft.raise, Conflict.insert, if_neg hthere]
    refine ⟨⟨[c], hadded, by simpa using hc⟩, fun hd => ?_⟩
    have hnew : c.id ∉ d.conflicts.map (·.id) := by simpa using hthere
    rw [ids, hadded, List.map_append]
    exact List.Nodup.append hd (List.nodup_singleton _) (List.disjoint_singleton.mpr hnew)

theorem foldl {α : Type} {f : Draft → α → Draft} {xs : List α}
    (hf : ∀ d, ∀ x ∈ xs, Raises P d (f d x)) (d : Draft) : Raises P d (xs.foldl f d) :=
  List.foldlRecOn xs f (motive := Raises P d) (.refl d) fun _ hd x hx => hd.trans (hf _ x hx)

/-- A conflict that is open was open before or has been raised. -/
theorem mem (h : Raises P d d') {c : Conflict} (hc : c ∈ d'.conflicts) : c ∈ d.conflicts ∨ P c := by
  obtain ⟨cs, hcs, hP⟩ := h.added
  rw [hcs] at hc
  exact (List.mem_append.mp hc).imp_right (hP c)

/-- A conflict that was open stays so. -/
theorem subset (h : Raises P d d') : d.conflicts ⊆ d'.conflicts := by
  obtain ⟨cs, hcs, -⟩ := h.added
  rw [hcs]
  exact List.subset_append_left d.conflicts cs

theorem ids_subset (h : Raises P d d') : d.ids ⊆ d'.ids := List.map_subset _ h.subset

end Raises

/-- After a conflict was raised, its id is there. -/
theorem id_mem_raise (d : Draft) (c : Conflict) : c.id ∈ (d.raise c).ids := by
  rw [ids, raise, Conflict.insert]
  split
  · next h => simpa using h
  · simp

/-- After conflicts were raised, their ids are there. -/
theorem ids_mem_foldl_raise (cs : List Conflict) (d : Draft) :
    ∀ c ∈ cs, c.id ∈ (cs.foldl Draft.raise d).ids := by
  induction cs generalizing d with
  | nil => simp
  | cons c cs ih =>
    have hrest : Raises (fun _ => True) (d.raise c) (cs.foldl Draft.raise (d.raise c)) :=
      .foldl (fun _ _ _ => .raise trivial _) _
    intro c' hc'
    rcases List.mem_cons.mp hc' with rfl | hc'
    · exact hrest.ids_subset (d.id_mem_raise c')
    · exact ih (d.raise c) c' hc'

end Draft

/-! ## What is raised about a mention -/

/-- The conflict says that a phrase means no entry, or none for certain. -/
structure Unclear (entity : EntityKind) (term : String) (c : Conflict) : Prop where
  kind : c.kind = .ambiguous ∨ c.kind = .unknown
  id : c.id = Conflict.idOf c.kind entity term none
  of : c.entity = entity
  about : c.term = term
  value : c.value = none
  reported : c.reported = false

theorem choose_error {best : Candidate} {others : List Candidate} {entity : EntityKind}
    {term : String} {confidence : Float} {c : Conflict}
    (h : ctx.choose best others entity term confidence = .error c) : Unclear entity term c := by
  unfold Context.choose at h
  simp only at h
  split at h
  · cases h
    exact ⟨.inl rfl, rfl, rfl, rfl, rfl, rfl⟩
  · cases h

theorem choose_kind {best : Candidate} {others : List Candidate} {entity : EntityKind}
    {term : String} {confidence : Float} {c : Conflict}
    (h : ctx.choose best others entity term confidence = .error c) : c.kind = .ambiguous := by
  unfold Context.choose at h
  simp only at h
  split at h
  · cases h
    rfl
  · cases h

theorem Unclear.make (entity : EntityKind) (term message : String) (suggestions : List String) :
    Unclear entity term (.make .unknown entity term message suggestions none) :=
  ⟨.inr rfl, rfl, rfl, rfl, rfl, rfl⟩

theorem unknown_unclear (kind entity : EntityKind) (term : String) :
    Unclear entity term (ctx.unknown kind entity term) := .make ..

/-- What is raised about an answer is raised on the phrase that was asked about. -/
theorem Unclear.answeredWith {entity : EntityKind} {answer : String} {c : Conflict}
    (h : Unclear entity answer c) (term : String) :
    Unclear entity term (Context.answeredWith c term answer) :=
  ⟨h.kind, by rw [← h.of, ← h.value]; rfl, h.of, rfl, h.value, h.reported⟩

theorem resolvePhrase_error {kind entity : EntityKind} {term : String} {confidence : Float}
    {c : Conflict} (h : ctx.resolvePhrase kind entity term confidence = .error c) :
    Unclear entity term c := by
  unfold Context.resolvePhrase at h
  split at h
  · cases h
    exact unknown_unclear kind entity term
  · exact choose_error h

/-- What a mention of a kind fails with is what its phrase fails with, or the answer pinned to it. -/
theorem resolve_eq_error {kind entity : EntityKind} {term : String} {confidence : Float}
    {pinned : Option String} {c : Conflict}
    (h : ctx.resolve kind entity term confidence pinned = .error c) :
    ctx.resolvePhrase kind entity term confidence = .error c ∨
      ∃ answer c', ctx.resolvePhrase kind entity answer 1 = .error c' ∧
        c = Context.answeredWith c' term answer := by
  unfold Context.resolve at h
  split at h
  · exact .inl h
  · next answer =>
    split at h
    · cases h
    · split at h
      · cases h
      · next c' hphrase =>
        cases h
        exact .inr ⟨answer, c', hphrase, rfl⟩

theorem resolve_error {kind entity : EntityKind} {term : String} {confidence : Float}
    {pinned : Option String} {c : Conflict}
    (h : ctx.resolve kind entity term confidence pinned = .error c) : Unclear entity term c := by
  obtain hphrase | ⟨answer, c', hphrase, rfl⟩ := resolve_eq_error h
  · exact resolvePhrase_error hphrase
  · exact (resolvePhrase_error hphrase).answeredWith term

theorem resolveFieldPhrase_error {entity prefer : EntityKind} {term : String} {confidence : Float}
    {c : Conflict} (h : ctx.resolveFieldPhrase entity prefer term confidence = .error c) :
    Unclear entity term c := by
  unfold Context.resolveFieldPhrase at h
  simp only at h
  split at h
  · cases h
    exact unknown_unclear prefer entity term
  · split at h
    · cases h
      exact unknown_unclear prefer entity term
    · obtain ⟨c', hchoose, rfl⟩ := map_eq_error h
      exact choose_error hchoose

/-- What a mention of either kind fails with is what its phrase fails with, or the answer pinned to
it. -/
theorem resolveField_eq_error {entity prefer : EntityKind} {term : String} {confidence : Float}
    {pinned : Option String} {c : Conflict}
    (h : ctx.resolveField entity prefer term confidence pinned = .error c) :
    ctx.resolveFieldPhrase entity prefer term confidence = .error c ∨
      ∃ answer c', ctx.resolveFieldPhrase entity prefer answer 1 = .error c' ∧
        c = Context.answeredWith c' term answer := by
  unfold Context.resolveField at h
  split at h
  · exact .inl h
  · next answer =>
    split at h
    · cases h
    · split at h
      · cases h
      · next c' hphrase =>
        cases h
        exact .inr ⟨answer, c', hphrase, rfl⟩

theorem resolveField_error {entity prefer : EntityKind} {term : String} {confidence : Float}
    {pinned : Option String} {c : Conflict}
    (h : ctx.resolveField entity prefer term confidence pinned = .error c) :
    Unclear entity term c := by
  obtain hphrase | ⟨answer, c', hphrase, rfl⟩ := resolveField_eq_error h
  · exact resolveFieldPhrase_error hphrase
  · exact (resolveFieldPhrase_error hphrase).answeredWith term

/-! ## What is raised about an entry -/

/-- Something is missing that the dictionary refers to. -/
def Context.Gap (ctx : Context) (c : Conflict) : Prop := ¬ ctx.IsValid ∧ c.reported = false

/-- Whatever is missing of a metric, a metric is said to be unknown. -/
theorem addMetric_raises (fuel : Nat) (name term : String) (aggregation : Option Aggregation)
    (hidden : Bool) (d : Draft) :
    Raises (fun c => ∃ phrase, Unclear .metric phrase c) d
      (ctx.addMetric fuel name term aggregation hidden d) := by
  have hraise : ∀ (phrase message : String) (suggestions : List String) (d : Draft),
      Raises (fun c => ∃ phrase, Unclear .metric phrase c) d
        (d.raise (.make .unknown .metric phrase message suggestions none)) :=
    fun phrase message suggestions d => .raise ⟨phrase, .make ..⟩ d
  induction fuel generalizing name term aggregation hidden d with
  | zero => exact .refl d
  | succ fuel ih =>
    unfold Context.addMetric
    split
    · exact hraise _ _ _ d
    · simp only
      split
      · split
        · exact .refl d
        · exact .same rfl
      · split
        · exact hraise _ _ _ d
        · refine Raises.trans ?_ (.foldl (fun d' r _ => ?_) _)
          · exact .same rfl
          · split
            · exact ih r r none true d'
            · exact hraise _ _ _ d'

theorem includeMetric_raises {name : String} (hentry : ctx.HasEntry .metric name) (term : String)
    (aggregation : Option Aggregation) (hidden : Bool) (d : Draft) :
    Raises ctx.Gap d (ctx.includeMetric name term aggregation hidden d) := by
  by_cases hvalid : ctx.IsValid
  · obtain ⟨e, he, rfl, -⟩ := hasEntry_metric hentry
    exact .same (addMetric_conflicts _ (hvalid.isComplete he) term aggregation hidden d)
  · refine (addMetric_raises _ name term aggregation hidden d).mono ?_
    rintro c ⟨_, hc⟩
    exact ⟨hvalid, hc.reported⟩

/-- A dimension of a valid dictionary has a column. -/
theorem Context.IsValid.column (h : ctx.IsValid) {kind : EntityKind} (hkind : kind ≠ .metric)
    {name : String} (hentry : ctx.HasEntry kind name) : ctx.HasColumn name := by
  obtain ⟨e, hmem, rfl, he⟩ := hasEntry_dimension hkind hentry
  exact ⟨e, he, h.hasColumn hmem⟩

theorem gap_column {kind : EntityKind} (hkind : kind ≠ .metric) {name : String}
    (hentry : ctx.HasEntry kind name) {entity : EntityKind} {term : String} {c : Conflict}
    (h : ¬ ctx.HasColumn name ∧ Unclear entity term c) : ctx.Gap c :=
  ⟨fun hvalid => h.1 (hvalid.column hkind hentry), h.2.reported⟩

/-- A dimension without a column is said to be unknown, by the phrase. -/
theorem includeDimension_raises {kind : EntityKind} (hkind : kind ≠ .metric) {name : String}
    (hentry : ctx.HasEntry kind name) (term : String) (d : Draft) :
    Raises (fun c => ¬ ctx.HasColumn name ∧ Unclear .dimension term c) d
      (ctx.includeDimension name term d) := by
  obtain ⟨e, -, rfl, he⟩ := hasEntry_dimension hkind hentry
  unfold Context.includeDimension
  simp only [he]
  split
  · exact .refl d
  · split
    · exact .same rfl
    · next hnone =>
      refine .raise ⟨?_, .make ..⟩ d
      rintro ⟨e', he', hsome⟩
      obtain rfl := Option.some.inj (he.symm.trans he')
      rw [hnone] at hsome
      cases hsome

/-! ## What is raised about the values of a filter -/

namespace Context

/-- The type of the values that an entry is compared with. -/
def targetType? (ctx : Context) (kind : EntityKind) (name : String) : Option DataType :=
  match kind with
  | .metric => (ctx.dictionary.metric? name).map (·.definition.type)
  | _ => (ctx.dictionary.dimension? name).bind fun e =>
      (ctx.schema.canonical? e.definition.field).map ctx.columnType

/-- What is wrong with the values of a filter that are compared with values of the type. -/
def typeFaults (f : FilterMention) (type : DataType) : List Conflict :=
  if (operatorOf f).takes f.value.toList.length then
    valueConflicts f (valueType (operatorOf f) type)
  else [arityConflict f (operatorOf f)]

/-- The type of the values that a mentioned filter is compared with, if it means an entry. -/
def filterType? (ctx : Context) (f : FilterMention) : Option DataType :=
  match ctx.resolveField .filter .dimension f.field f.confidence f.pinned with
  | .ok (kind, name) => ctx.targetType? kind name
  | .error _ => none

/-- What is wrong with the values of a mentioned filter. -/
def faults (ctx : Context) (f : FilterMention) : List Conflict :=
  ((ctx.filterType? f).map (typeFaults f)).getD []

end Context

/-- An entry that a filter looks at has values of the type that its target has. -/
theorem filterTarget_type {d : Draft} (h : d.Sound ctx) (f : FilterMention) {kind : EntityKind}
    {name : String} {target : FilterTarget} {type : DataType}
    (hfound : (ctx.filterTarget f kind name d).2 = some (target, type)) :
    ctx.targetType? kind name = some type := by
  obtain ⟨m, rfl, hm, rfl, rfl⟩ | ⟨e, c, hkind, he, hc, rfl, rfl⟩ := filterTarget_found hfound
  · -- the metric is looked up among those of the draft, whose types are those of the entries
    have hsound := (Step.includeMetric h name f.field none true).sound
    obtain ⟨e, he, hename, -, htype, -⟩ := hsound.metrics m (List.mem_of_find?_eq_some hm)
    obtain rfl := hename.trans (metric?_name hm)
    rw [Context.targetType?, Dictionary.metric?_of_mem he, htype]
    rfl
  · have htype : ctx.targetType? kind name = (ctx.dictionary.dimension? name).bind fun e =>
        (ctx.schema.canonical? e.definition.field).map ctx.columnType := by
      cases kind <;> first | rfl | exact absurd rfl hkind
    rw [htype, he, Option.bind_some, hc]
    rfl

/-- A filter on a dimension without a column is said to be unknown. -/
theorem filterTarget_column_raises {kind : EntityKind} (hkind : kind ≠ .metric) {name : String}
    (hentry : ctx.HasEntry kind name) (f : FilterMention) (d : Draft) :
    Raises (fun c => ¬ ctx.HasColumn name ∧ Unclear .filter f.field c) d
      (ctx.filterTarget f kind name d).1 := by
  obtain ⟨e, -, rfl, he⟩ := hasEntry_dimension hkind hentry
  rw [filterTarget_column hkind he]
  split
  · exact .refl d
  · next hnone =>
    refine .raise ⟨?_, .make ..⟩ d
    rintro ⟨e', he', hsome⟩
    obtain rfl := Option.some.inj (he.symm.trans he')
    rw [hnone] at hsome
    cases hsome

theorem filterTarget_raises {kind : EntityKind} {name : String} (hentry : ctx.HasEntry kind name)
    (f : FilterMention) (d : Draft) : Raises ctx.Gap d (ctx.filterTarget f kind name d).1 := by
  by_cases hkind : kind = .metric
  · subst hkind
    exact includeMetric_raises hentry f.field none true d
  · exact (filterTarget_column_raises hkind hentry f d).mono fun _ => gap_column hkind hentry

/-- Adding a metric takes none away. -/
theorem addMetric_names_subset (fuel : Nat) (name term : String) (aggregation : Option Aggregation)
    (hidden : Bool) (d : Draft) :
    d.names ⊆ (ctx.addMetric fuel name term aggregation hidden d).names := by
  induction fuel generalizing name term aggregation hidden d with
  | zero => exact List.Subset.refl _
  | succ fuel ih =>
    unfold Context.addMetric
    split
    · exact List.Subset.refl _
    · simp only
      split
      · split
        · exact List.Subset.refl _
        · -- a metric that was hidden is shown, under its name
          intro n hn
          obtain ⟨m, hm, rfl⟩ := List.mem_map.mp hn
          refine List.mem_map.mpr ⟨_, List.mem_map_of_mem hm, ?_⟩
          split <;> rfl
      · split
        · exact List.Subset.refl _
        · refine List.foldlRecOn (motive := fun d' : Draft => d.names ⊆ d'.names) _ _ ?_ ?_
          · exact List.map_subset _ (List.subset_append_left _ _)
          · intro d' hd' r _
            split
            · exact List.Subset.trans hd' (ih r r none true d')
            · exact hd'

/-- A metric whose field is known is there after it was added. -/
theorem addMetric_mem (fuel : Nat) {e : MetricEntry} (he : e ∈ ctx.dictionary.metrics)
    (hfield : ctx.HasField e) (term : String) (aggregation : Option Aggregation) (hidden : Bool)
    (d : Draft) : e.definition.name ∈
      (ctx.addMetric (fuel + 1) e.definition.name term aggregation hidden d).names := by
  rcases addMetric_cases he fuel term aggregation hidden d with
    ⟨hthere, -⟩ | ⟨hno, -⟩ | ⟨-, -, heq⟩
  · exact addMetric_names_subset (fuel + 1) e.definition.name term aggregation hidden d hthere
  · exact absurd hfield hno
  · rw [heq]
    refine List.foldlRecOn (motive := fun d' : Draft => e.definition.name ∈ d'.names) _ _ ?_ ?_
    · simp [names, Context.newMetric]
    · intro d' hd' r _
      unfold Context.addReference
      split
      · exact addMetric_names_subset fuel r r none true d' hd'
      · exact hd'

/-- In a valid dictionary a metric is there after it was added. -/
theorem includeMetric_valid (hvalid : ctx.IsValid) {name : String}
    (hentry : ctx.HasEntry .metric name) (term : String) (aggregation : Option Aggregation)
    (hidden : Bool) (d : Draft) :
    name ∈ (ctx.includeMetric name term aggregation hidden d).names := by
  obtain ⟨e, he, rfl, -⟩ := hasEntry_metric hentry
  exact addMetric_mem _ he (hvalid.hasField he) term aggregation hidden d

/-- In a valid dictionary every entry can be looked at, and nothing is raised about it. -/
theorem filterTarget_valid (hvalid : ctx.IsValid) {d : Draft} (h : d.Sound ctx) {kind : EntityKind}
    {name : String} (hentry : ctx.HasEntry kind name) (f : FilterMention) :
    ∃ target type, (ctx.filterTarget f kind name d).2 = some (target, type) ∧
      ctx.targetType? kind name = some type ∧
        (ctx.filterTarget f kind name d).1.conflicts = d.conflicts := by
  have hsome : (ctx.filterTarget f kind name d).2.isSome = true := by
    by_cases hkind : kind = .metric
    · subst hkind
      have hin := includeMetric_valid hvalid hentry f.field none true d
      obtain ⟨m, hm⟩ := Option.isSome_iff_exists.mp (metric?_isSome.mpr hin)
      simp only [Context.filterTarget, hm, Option.map_some, Option.isSome_some]
    · obtain ⟨e, hmem, -, he⟩ := hasEntry_dimension hkind hentry
      obtain ⟨c, hc⟩ := Option.isSome_iff_exists.mp (hvalid.hasColumn hmem)
      rw [filterTarget_column hkind he, hc]
      rfl
  obtain ⟨⟨target, type⟩, hfound⟩ := Option.isSome_iff_exists.mp hsome
  refine ⟨target, type, hfound, filterTarget_type h f hfound, ?_⟩
  -- only gaps could be raised, and a valid dictionary has none
  obtain ⟨cs, hcs, hgap⟩ := (filterTarget_raises hentry f d).added
  rw [hcs, List.eq_nil_iff_forall_not_mem.mpr fun c hc => (hgap c hc).1 hvalid, List.append_nil]

theorem faults_eq {f : FilterMention} {kind : EntityKind} {name : String} {type : DataType}
    (hresolve : ctx.resolveField .filter .dimension f.field f.confidence f.pinned = .ok (kind, name))
    (htype : ctx.targetType? kind name = some type) : ctx.faults f = Context.typeFaults f type := by
  rw [Context.faults, Context.filterType?, hresolve]
  simp only [htype, Option.map_some, Option.getD_some]

/-- The mapping of a filter whose target is found. -/
theorem mapFilter_found {f : FilterMention} {kind : EntityKind} {name : String}
    (hresolve : ctx.resolveField .filter .dimension f.field f.confidence f.pinned = .ok (kind, name))
    {d d' : Draft} {target : FilterTarget} {type : DataType}
    (hfound : ctx.filterTarget f kind name (Context.warnOperator f d) = (d', some (target, type))) :
    ctx.mapFilter f d = ((Context.typeFaults f type).foldl Draft.raise d',
      if Context.typeFaults f type = [] then some (Context.filterOf f target type) else none) := by
  rw [mapFilter_eq hresolve, hfound]
  unfold Context.typeFaults
  cases htakes : (Context.operatorOf f).takes f.value.toList.length with
  | false => rfl
  | true =>
    simp only [Bool.not_true, Bool.false_eq_true, if_false, if_true]
    cases hvalues : Context.valueConflicts f (Context.valueType (Context.operatorOf f) type) with
    | nil => rfl
    | cons c cs => rfl

/-- A mapped filter is that of its mention, for a target that was found. -/
theorem mapFilter_mapped {f : FilterMention} {d : Draft} {x : ReportFilter}
    (hx : (ctx.mapFilter f d).2 = some x) : ∃ kind name target type,
      ctx.resolveField .filter .dimension f.field f.confidence f.pinned = .ok (kind, name) ∧
        ctx.filterTarget f kind name (Context.warnOperator f d) =
          ((ctx.mapFilter f d).1, some (target, type)) ∧
          x = Context.filterOf f target type := by
  cases hresolve : ctx.resolveField .filter .dimension f.field f.confidence f.pinned with
  | error c =>
    rw [Context.mapFilter, hresolve] at hx
    cases hx
  | ok entry =>
    obtain ⟨kind, name⟩ := entry
    cases hfound : ctx.filterTarget f kind name (Context.warnOperator f d) with
    | mk d' found =>
      cases found with
      | none =>
        rw [mapFilter_eq hresolve, hfound] at hx
        cases hx
      | some found =>
        obtain ⟨target, type⟩ := found
        rw [mapFilter_found hresolve hfound] at hx ⊢
        simp only at hx
        split at hx
        · next hnil =>
          refine ⟨kind, name, target, type, rfl, ?_, (Option.some.inj hx).symm⟩
          rw [hnil]
          exact hfound
        · cases hx

theorem warnOperator_conflicts (f : FilterMention) (d : Draft) :
    (Context.warnOperator f d).conflicts = d.conflicts := by
  unfold Context.warnOperator
  split <;> rfl

/-- Once a filter has looked for its target, it raises what is wrong with its values. -/
theorem mapFilter_faults {d : Draft} (h : d.Sound ctx) {f : FilterMention} {kind : EntityKind}
    {name : String}
    (hresolve : ctx.resolveField .filter .dimension f.field f.confidence f.pinned = .ok (kind, name)) :
    Raises (· ∈ ctx.faults f) (ctx.filterTarget f kind name (Context.warnOperator f d)).1
      (ctx.mapFilter f d).1 := by
  cases hfound : ctx.filterTarget f kind name (Context.warnOperator f d) with
  | mk d' found =>
    cases found with
    | none =>
      rw [mapFilter_eq hresolve, hfound]
      exact .refl d'
    | some found =>
      obtain ⟨target, type⟩ := found
      have htype := filterTarget_type (warnOperator_step h f).sound f (congrArg Prod.snd hfound)
      rw [mapFilter_found hresolve hfound, ← faults_eq hresolve htype]
      exact .foldl (fun d'' c hc => .raise hc d'') d'

/-- A filter raises what is raised about its mention, its target or its values. -/
theorem mapFilter_raises {P : Conflict → Prop} {f : FilterMention}
    (hmention : ∀ c, ctx.resolveField .filter .dimension f.field f.confidence f.pinned = .error c →
      P c)
    (htarget : ∀ kind name,
      ctx.resolveField .filter .dimension f.field f.confidence f.pinned = .ok (kind, name) →
        ∀ d, Raises P d (ctx.filterTarget f kind name d).1)
    (hvalues : ∀ c ∈ ctx.faults f, P c) {d : Draft} (h : d.Sound ctx) :
    Raises P d (ctx.mapFilter f d).1 := by
  cases hresolve : ctx.resolveField .filter .dimension f.field f.confidence f.pinned with
  | error c =>
    rw [Context.mapFilter, hresolve]
    exact .raise (hmention c hresolve) d
  | ok entry =>
    obtain ⟨kind, name⟩ := entry
    exact (Raises.same (warnOperator_conflicts f d)).trans <|
      (htarget kind name hresolve _).trans ((mapFilter_faults h hresolve).mono hvalues)

/-- Where the dictionary is valid, a filter that means an entry is mapped or raises what is wrong
with its values. -/
theorem mapFilter_valid (hvalid : ctx.IsValid) {d : Draft} (h : d.Sound ctx) {f : FilterMention}
    {entry : EntityKind × String}
    (hresolve : ctx.resolveField .filter .dimension f.field f.confidence f.pinned = .ok entry) :
    ((ctx.mapFilter f d).2.isSome = true ↔ ctx.faults f = []) ∧
      ∀ c ∈ ctx.faults f, c.id ∈ (ctx.mapFilter f d).1.ids := by
  obtain ⟨kind, name⟩ := entry
  obtain ⟨target, type, hfound, htype, -⟩ :=
    filterTarget_valid hvalid (warnOperator_step h f).sound (resolveField_entry hresolve) f
  obtain ⟨d', hd'⟩ : ∃ d', ctx.filterTarget f kind name (Context.warnOperator f d) =
      (d', some (target, type)) := ⟨_, Prod.ext rfl hfound⟩
  rw [mapFilter_found hresolve hd', faults_eq hresolve htype]
  constructor
  · by_cases hnil : Context.typeFaults f type = [] <;> simp [hnil]
  · simp only
    exact ids_mem_foldl_raise (Context.typeFaults f type) d'

/-! ## What a request raises -/

theorem addMetricMention_raises {P : Conflict → Prop} {m : MetricMention}
    (hmention : ∀ c, ctx.resolve .metric .metric m.name m.confidence m.pinned = .error c → P c)
    (hentry : ∀ name, ctx.resolve .metric .metric m.name m.confidence m.pinned = .ok name →
      ∀ d, Raises P d (ctx.includeMetric name m.name m.aggregation false d)) (d : Draft) :
    Raises P d (ctx.addMetricMention d m) := by
  unfold Context.addMetricMention
  cases hresolve : ctx.resolve .metric .metric m.name m.confidence m.pinned with
  | error c => exact .raise (hmention c hresolve) d
  | ok name => exact hentry name hresolve d

theorem addDimensionMention_raises {P : Conflict → Prop} {x : DimensionMention}
    (hmention : ∀ c, ctx.resolve .dimension .dimension x.name x.confidence x.pinned = .error c →
      P c)
    (hentry : ∀ name, ctx.resolve .dimension .dimension x.name x.confidence x.pinned = .ok name →
      ∀ d, Raises P d (ctx.includeDimension name x.name d)) (d : Draft) :
    Raises P d (ctx.addDimensionMention d x) := by
  unfold Context.addDimensionMention
  cases hresolve : ctx.resolve .dimension .dimension x.name x.confidence x.pinned with
  | error c => exact .raise (hmention c hresolve) d
  | ok name => exact hentry name hresolve d

theorem mapSort_raises {P : Conflict → Prop} {s : SortMention}
    (hmention : ∀ c, ctx.resolveField .sort .metric s.field 1 none = .error c → P c)
    (hmetric : ∀ name, ctx.resolveField .sort .metric s.field 1 none = .ok (.metric, name) →
      ∀ d, Raises P d (ctx.includeMetric name s.field none false d))
    (hdimension : ∀ kind name, kind ≠ .metric →
      ctx.resolveField .sort .metric s.field 1 none = .ok (kind, name) →
        ∀ d, Raises P d (ctx.includeDimension name s.field d)) (d : Draft) :
    Raises P d (ctx.mapSort s d).1 := by
  unfold Context.mapSort
  cases hresolve : ctx.resolveField .sort .metric s.field 1 none with
  | error c => exact .raise (hmention c hresolve) d
  | ok entry =>
    obtain ⟨kind, name⟩ := entry
    cases kind
    case metric => exact hmetric name hresolve d
    all_goals exact hdimension _ name (by decide) hresolve d

/-- The parts of a request raise conflicts with the property only. -/
structure Context.Raising (ctx : Context) (r : Request) (P : Conflict → Prop) : Prop where
  metrics : ∀ m ∈ r.metrics, ∀ d, Raises P d (ctx.addMetricMention d m)
  dimensions : ∀ x ∈ r.dimensions, ∀ d, Raises P d (ctx.addDimensionMention d x)
  filters : ∀ f ∈ r.filters, ∀ d, d.Sound ctx → Raises P d (ctx.mapFilter f d).1
  exclusive : ∀ c ∈ filterConflicts (ctx.filtersDraft r).2, P c
  sort : ∀ s, r.sortBy = some s → ∀ d, Raises P d (ctx.mapSort s d).1
  missing : ctx.lacksMetric r = true → P ctx.missingMetric

theorem mapFilters_raises {P : Conflict → Prop} {fs : List FilterMention}
    (hfs : ∀ f ∈ fs, ∀ d, d.Sound ctx → Raises P d (ctx.mapFilter f d).1) {d : Draft}
    (h : d.Sound ctx) : Raises P d (ctx.mapFilters fs d).1 := by
  induction fs generalizing d with
  | nil => exact .refl d
  | cons f fs ih =>
    rw [mapFilters_cons]
    exact (hfs f List.mem_cons_self d h).trans <|
      ih (fun g hg => hfs g (List.mem_cons_of_mem f hg)) (mapFilter_spec h f).1.sound

namespace Context.Raising

variable {r : Request} {P : Conflict → Prop}

theorem metricsDraft (h : ctx.Raising r P) :
    Raises P (Context.reportedDraft r) (ctx.metricsDraft r) :=
  .foldl (fun d m hm => h.metrics m hm d) _

theorem dimensionsDraft (h : ctx.Raising r P) :
    Raises P (ctx.metricsDraft r) (ctx.dimensionsDraft r) :=
  .foldl (fun d x hx => h.dimensions x hx d) _

theorem filtersDraft (h : ctx.Raising r P) :
    Raises P (ctx.dimensionsDraft r) (ctx.filtersDraft r).1 :=
  mapFilters_raises h.filters (dimensionsDraft_step ctx r).sound

theorem comparedDraft (h : ctx.Raising r P) :
    Raises P (ctx.filtersDraft r).1 (ctx.comparedDraft r) :=
  .foldl (fun d c hc => .raise (h.exclusive c hc) d) _

theorem sortedDraft (h : ctx.Raising r P) :
    Raises P (ctx.comparedDraft r) (ctx.sortedDraft r).1 := by
  unfold Context.sortedDraft
  split
  · next s hs => exact h.sort s hs _
  · exact .refl _

theorem finalDraft (h : ctx.Raising r P) : Raises P (ctx.sortedDraft r).1 (ctx.finalDraft r) := by
  unfold Context.finalDraft
  split
  · next hlacks => exact .raise (h.missing hlacks) _
  · exact .refl _

/-- From the conflicts between filters on. -/
theorem compared_final (h : ctx.Raising r P) : Raises P (ctx.comparedDraft r) (ctx.finalDraft r) :=
  h.sortedDraft.trans h.finalDraft

/-- From the filters on. -/
theorem filters_final (h : ctx.Raising r P) :
    Raises P (ctx.filtersDraft r).1 (ctx.finalDraft r) :=
  h.comparedDraft.trans h.compared_final

/-- From the metrics on. -/
theorem metrics_final (h : ctx.Raising r P) : Raises P (ctx.metricsDraft r) (ctx.finalDraft r) :=
  h.dimensionsDraft.trans (h.filtersDraft.trans h.filters_final)

/-- What the parts of a request raise, the whole request raises. -/
theorem final (h : ctx.Raising r P) :
    Raises P (Context.reportedDraft r) (ctx.finalDraft r) :=
  h.metricsDraft.trans h.metrics_final

end Context.Raising

/-- A filter is mapped on some draft, and what it raises there stays. -/
theorem mapFilters_at {fs : List FilterMention} {d : Draft} (h : d.Sound ctx) {f : FilterMention}
    (hf : f ∈ fs) : ∃ d', d'.Sound ctx ∧ (ctx.mapFilter f d').1.ids ⊆ (ctx.mapFilters fs d).1.ids ∧
      ∀ m, (ctx.mapFilter f d').2 = some m → (f, m) ∈ (ctx.mapFilters fs d).2 := by
  induction fs generalizing d with
  | nil => cases hf
  | cons g fs ih =>
    have hsound := (mapFilter_spec h g).1.sound
    rw [mapFilters_cons]
    rcases List.mem_cons.mp hf with rfl | hf
    · have hrest : Raises (fun _ => True) (ctx.mapFilter f d).1
          (ctx.mapFilters fs (ctx.mapFilter f d).1).1 :=
        mapFilters_raises (fun g _ _ => mapFilter_raises (fun _ _ => trivial)
          (fun _ _ hname d => (filterTarget_raises (resolveField_entry hname) g d).mono
            fun _ _ => trivial) fun _ _ => trivial) hsound
      exact ⟨d, h, hrest.ids_subset, fun m hm => by simp [hm]⟩
    · obtain ⟨d', hd', hids, hmapped⟩ := ih hsound hf
      exact ⟨d', hd', hids, fun m hm => List.mem_append_right _ (hmapped m hm)⟩

/-- What the mapping of a request can raise. -/
inductive Context.Raised (ctx : Context) (r : Request) : Conflict → Prop
  | metric {m : MetricMention} {c : Conflict} : m ∈ r.metrics →
      ctx.resolve .metric .metric m.name m.confidence m.pinned = .error c → Raised ctx r c
  | dimension {x : DimensionMention} {c : Conflict} : x ∈ r.dimensions →
      ctx.resolve .dimension .dimension x.name x.confidence x.pinned = .error c → Raised ctx r c
  | filter {f : FilterMention} {c : Conflict} : f ∈ r.filters →
      ctx.resolveField .filter .dimension f.field f.confidence f.pinned = .error c → Raised ctx r c
  /-- Values that the filter cannot take. -/
  | value {f : FilterMention} {c : Conflict} : f ∈ r.filters → c ∈ ctx.faults f → Raised ctx r c
  /-- Filters that exclude each other. -/
  | exclusive {c : Conflict} : c ∈ filterConflicts (ctx.filtersDraft r).2 → Raised ctx r c
  | sort {s : SortMention} {c : Conflict} : r.sortBy = some s →
      ctx.resolveField .sort .metric s.field 1 none = .error c → Raised ctx r c
  | missing : ctx.lacksMetric r = true → Raised ctx r ctx.missingMetric
  | gap {c : Conflict} : ctx.Gap c → Raised ctx r c

/-- The parts of a request raise what is listed. -/
theorem raising_raised (ctx : Context) (r : Request) : ctx.Raising r (ctx.Raised r) where
  metrics m hm := addMetricMention_raises (fun _ hc => .metric hm hc) fun name hname d =>
    (includeMetric_raises (resolve_entry hname) m.name m.aggregation false d).mono fun _ => .gap
  dimensions x hx := addDimensionMention_raises (fun _ hc => .dimension hx hc) fun name hname d =>
    (includeDimension_raises (by decide) (resolve_entry hname) x.name d).mono fun _ hc =>
      .gap (gap_column (by decide) (resolve_entry hname) hc)
  filters f hf d hd := mapFilter_raises (fun _ hc => .filter hf hc)
    (fun kind name hname d =>
      (filterTarget_raises (resolveField_entry hname) f d).mono fun _ => .gap)
    (fun _ hc => .value hf hc) hd
  exclusive _ hc := .exclusive hc
  sort s hs := mapSort_raises (fun _ hc => .sort hs hc)
    (fun name hname d =>
      (includeMetric_raises (resolveField_entry hname) s.field none false d).mono fun _ => .gap)
    (fun kind name hkind hname d =>
      (includeDimension_raises hkind (resolveField_entry hname) s.field d).mono fun _ hc =>
        .gap (gap_column hkind (resolveField_entry hname) hc))
  missing := .missing

/-- The open conflicts are those that came with the request and what its mapping raises. -/
theorem map_raises (ctx : Context) (r : Request) :
    Raises (ctx.Raised r) (Context.reportedDraft r) (ctx.finalDraft r) :=
  (raising_raised ctx r).final

/-- What is open in a draft on the way to the final one is open in the end. -/
theorem open_of_raises {P : Conflict → Prop} {r : Request} {d : Draft}
    (h : Raises P d (ctx.finalDraft r)) {c : Conflict} (hc : c ∈ d.conflicts) :
    c ∈ (ctx.map r).conflicts := by
  rw [ctx.map_eq]
  exact h.subset hc

/-- What is asked in a draft on the way to the final one is asked in the end. -/
theorem asked_of_raises {P : Conflict → Prop} {r : Request} {d : Draft}
    (h : Raises P d (ctx.finalDraft r)) {id : String} (hid : id ∈ d.ids) :
    ∃ c ∈ (ctx.map r).conflicts, c.id = id := by
  rw [ctx.map_eq]
  exact List.mem_map.mp (h.ids_subset hid)

theorem faults_cases {f : FilterMention} {c : Conflict} (h : c ∈ ctx.faults f) :
    ∃ type, ctx.filterType? f = some type ∧ c ∈ Context.typeFaults f type := by
  unfold Context.faults at h
  cases htype : ctx.filterType? f with
  | none =>
    rw [htype, Option.map_none, Option.getD_none] at h
    cases h
  | some type =>
    rw [htype, Option.map_some, Option.getD_some] at h
    exact ⟨type, rfl, h⟩

theorem filterType?_cases {f : FilterMention} {type : DataType}
    (h : ctx.filterType? f = some type) : ∃ kind name,
      ctx.resolveField .filter .dimension f.field f.confidence f.pinned = .ok (kind, name) ∧
        ctx.targetType? kind name = some type := by
  unfold Context.filterType? at h
  split at h
  · next kind name hresolve => exact ⟨kind, name, hresolve, h⟩
  · cases h

/-- Where the dictionary is valid, what is wrong with the values of a filter is asked about. -/
theorem exists_open_fault (hvalid : ctx.IsValid) {r : Request} {f : FilterMention}
    (hf : f ∈ r.filters) {c : Conflict} (hc : c ∈ ctx.faults f) :
    ∃ c' ∈ (ctx.map r).conflicts, c'.id = c.id := by
  obtain ⟨type, htype, -⟩ := faults_cases hc
  obtain ⟨kind, name, hresolve, -⟩ := filterType?_cases htype
  obtain ⟨d, hd, hids, -⟩ := mapFilters_at (dimensionsDraft_step ctx r).sound hf
  exact asked_of_raises (raising_raised ctx r).filters_final
    (hids ((mapFilter_valid hvalid hd hresolve).2 c hc))

/-- Where the dictionary is valid, a filter without faults is mapped. -/
theorem exists_mapped (hvalid : ctx.IsValid) {r : Request} {f : FilterMention} (hf : f ∈ r.filters)
    {type : DataType} (htype : ctx.filterType? f = some type) (hnil : ctx.faults f = []) :
    ∃ target, Context.filterOf f target type ∈ (ctx.map r).report.filters := by
  obtain ⟨kind, name, hresolve, htarget⟩ := filterType?_cases htype
  obtain ⟨d, hd, -, hmapped⟩ := mapFilters_at (dimensionsDraft_step ctx r).sound hf
  obtain ⟨target, type', hfound, htype', -⟩ :=
    filterTarget_valid hvalid (warnOperator_step hd f).sound (resolveField_entry hresolve) f
  obtain rfl := Option.some.inj (htarget.symm.trans htype')
  refine ⟨target, ?_⟩
  have hin := hmapped (Context.filterOf f target type) (by
    rw [mapFilter_found hresolve (Prod.ext rfl hfound), ← faults_eq hresolve htarget, if_pos hnil])
  rw [ctx.map_eq, List.mem_mergeSort]
  exact List.mem_map_of_mem hin

/-- What is wrong with the values of a filter: one of them, or their number. -/
theorem typeFaults_cases {f : FilterMention} {type : DataType} {c : Conflict}
    (h : c ∈ Context.typeFaults f type) :
    (∃ v ∈ f.value.toList, ∃ e, Literal.coerce (Context.valueType (Context.operatorOf f) type) v =
        .error e ∧ c = Context.valueConflict f v e) ∨
      ((Context.operatorOf f).takes f.value.toList.length = false ∧
        c = Context.arityConflict f (Context.operatorOf f)) := by
  unfold Context.typeFaults at h
  split at h
  · obtain ⟨v, hv, hc⟩ := List.mem_filterMap.mp h
    refine .inl ⟨v, hv, ?_⟩
    split at hc
    · cases hc
    · next e he => exact ⟨e, he, (Option.some.inj hc).symm⟩
  · next htakes =>
    exact .inr ⟨by simpa using htakes, List.mem_singleton.mp h⟩

/-- A conflict about the values of a filter tells the phrase of the filter and the refused value. -/
structure Refuses (f : FilterMention) (c : Conflict) : Prop where
  kind : c.kind = .invalidValue
  of : c.entity = .filter
  about : c.term = f.field
  id : c.id = Conflict.idOf .invalidValue .filter f.field (some (c.value.getD ""))
  value : c.value.getD "" ∈ f.value.toList ∨ c.value.getD "" = f.value.text
  reported : c.reported = false

/-- A conflict that is made from a refused value of the filter. -/
theorem Refuses.make {f : FilterMention} {v : String} (hv : v ∈ f.value.toList ∨ v = f.value.text)
    (message : String) :
    Refuses f (.make .invalidValue .filter f.field message [] (some v)) :=
  ⟨rfl, rfl, rfl, rfl, hv, rfl⟩

theorem faults_refuse {f : FilterMention} {c : Conflict} (h : c ∈ ctx.faults f) : Refuses f c := by
  obtain ⟨type, -, hc⟩ := faults_cases h
  rcases typeFaults_cases hc with ⟨v, hv, e, -, rfl⟩ | ⟨-, rfl⟩
  · exact .make (.inl hv) _
  · exact .make (.inr rfl) _

/-- What is raised about filters that exclude each other. -/
structure Excludes (c : Conflict) : Prop where
  kind : c.kind = .conflicting
  of : c.entity = .filter
  id : c.id = Conflict.idOf .conflicting .filter c.term none
  reported : c.reported = false

theorem filterConflicts_exclude {fs : List (FilterMention × ReportFilter)} {c : Conflict}
    (h : c ∈ filterConflicts fs) : Excludes c := by
  obtain ⟨key, -, hc⟩ := List.mem_filterMap.mp h
  unfold conflictingFilters? at hc
  split at hc
  · cases hc
  · split at hc
    · cases hc
      exact ⟨rfl, rfl, rfl, rfl⟩
    · cases hc

/-- What a mapping raises did not come with the request. -/
theorem Context.Raised.reported {r : Request} {c : Conflict} (h : ctx.Raised r c) :
    c.reported = false := by
  cases h with
  | metric _ h => exact (resolve_error h).reported
  | dimension _ h => exact (resolve_error h).reported
  | filter _ h => exact (resolveField_error h).reported
  | value _ h => exact (faults_refuse h).reported
  | exclusive h => exact (filterConflicts_exclude h).reported
  | sort _ h => exact (resolveField_error h).reported
  | missing _ => rfl
  | gap h => exact h.2

/-- The id of a conflict that a mapping raises follows from what it is about. -/
theorem Context.Raised.id_eq (hvalid : ctx.IsValid) {r : Request} {c : Conflict}
    (h : ctx.Raised r c) : ∃ term value, c.id = Conflict.idOf c.kind c.entity term value := by
  have hunclear {entity : EntityKind} {term : String} (hc : Unclear entity term c) :
      ∃ term value, c.id = Conflict.idOf c.kind c.entity term value :=
    ⟨term, none, by rw [hc.of]; exact hc.id⟩
  cases h with
  | metric _ h => exact hunclear (resolve_error h)
  | dimension _ h => exact hunclear (resolve_error h)
  | filter _ h => exact hunclear (resolveField_error h)
  | @value f _ _ h =>
    have hc := faults_refuse h
    exact ⟨f.field, _, by rw [hc.kind, hc.of]; exact hc.id⟩
  | exclusive h =>
    have hc := filterConflicts_exclude h
    exact ⟨c.term, none, by rw [hc.kind, hc.of]; exact hc.id⟩
  | sort _ h => exact hunclear (resolveField_error h)
  | missing _ => exact ⟨"", none, rfl⟩
  | gap h => exact absurd hvalid h.1

/-- What of a request raises a conflict, by the kind of the conflict and its part of the request. -/
def Context.Source (ctx : Context) (r : Request) (c : Conflict) : Prop :=
  match c.kind with
  | .ambiguous | .unknown =>
    match c.entity with
    | .metric => ∃ m ∈ r.metrics,
        ctx.resolve .metric .metric m.name m.confidence m.pinned = .error c
    | .dimension => ∃ x ∈ r.dimensions,
        ctx.resolve .dimension .dimension x.name x.confidence x.pinned = .error c
    | .filter => ∃ f ∈ r.filters,
        ctx.resolveField .filter .dimension f.field f.confidence f.pinned = .error c
    | .sort => ∃ s, r.sortBy = some s ∧
        ctx.resolveField .sort .metric s.field 1 none = .error c
    | .timeRange => False
  | .missingRequired => c = ctx.missingMetric ∧ ctx.lacksMetric r = true
  | .invalidValue => ∃ f ∈ r.filters, c ∈ ctx.faults f
  | .conflicting => c ∈ filterConflicts (ctx.filtersDraft r).2

/-- Where the dictionary is valid, the kind of a conflict and its part of the request tell what raises
it. -/
theorem Context.Raised.source (hvalid : ctx.IsValid) {r : Request} {c : Conflict}
    (h : ctx.Raised r c) : ctx.Source r c := by
  unfold Context.Source
  cases h with
  | metric hm h =>
    have hc := resolve_error h
    rcases hc.kind with hkind | hkind <;> simp only [hkind, hc.of] <;> exact ⟨_, hm, h⟩
  | dimension hx h =>
    have hc := resolve_error h
    rcases hc.kind with hkind | hkind <;> simp only [hkind, hc.of] <;> exact ⟨_, hx, h⟩
  | filter hf h =>
    have hc := resolveField_error h
    rcases hc.kind with hkind | hkind <;> simp only [hkind, hc.of] <;> exact ⟨_, hf, h⟩
  | value hf h =>
    simp only [(faults_refuse h).kind]
    exact ⟨_, hf, h⟩
  | exclusive h =>
    simp only [(filterConflicts_exclude h).kind]
    exact h
  | sort hs h =>
    have hc := resolveField_error h
    rcases hc.kind with hkind | hkind <;> simp only [hkind, hc.of] <;> exact ⟨_, hs, h⟩
  | missing h => exact ⟨rfl, h⟩
  | gap h => exact absurd hvalid h.1

end Mapping

end MetricLayer
