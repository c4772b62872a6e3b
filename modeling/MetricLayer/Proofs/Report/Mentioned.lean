import MetricLayer.Clarification.Response
import MetricLayer.Proofs.Clarification.Rounds
import MetricLayer.Proofs.Report.Clear

/-!
# Conflicts that can be answered

A conflict is asked about by a phrase, and an answer is given to the mentions of that phrase. So a
conflict whose phrase the request does not mention is asked about for ever. Where everything that the
dictionary refers to is there, this never happens. Where something is missing, it depends on how the
request gets there: a metric or dimension that is mentioned itself can be replaced by an answer, but
one that a filter or a sort means, or that a formula refers to, is said to be an unknown metric or
dimension although none is mentioned.

Where the dictionary is not valid for the schema, the mapping can also raise conflicts about entries
that the request does not mention: metrics that something is missing of, and the dimension that a
sort means. `Mapping.Context.Comes` lists all that a request raises over any dictionary, each with
what it is about.

Results:
1. `CanAnswer.unclear`, `CanAnswer.refuses` and `CanAnswer.exclusive`: conflicts that can be answered.
2. `raising_canAnswer`: what a request raises if the dictionary is answerable.
3. `conflicts_mentioned_iff`: which dictionaries are.
4. `raising_comes` and `comes_of_open`: everything that a request raises over any dictionary, and the
   questions of a round, are listed.
-/

namespace MetricLayer

namespace Request

/-- The phrases that the request mentions things of a kind by. -/
def phrases (r : Request) : EntityKind → List String
  | .metric => r.metrics.map (·.name)
  | .dimension => r.dimensions.map (·.name)
  | .filter => r.filters.map (·.field)
  | .sort => r.sortBy.toList.map (·.field)
  | .timeRange => []

/-- The conflict is about a phrase that the request mentions something of its kind by, and every
answer that is not blank is taken. -/
structure CanAnswer (r : Request) (c : Conflict) : Prop where
  mentioned : ∃ phrase ∈ r.phrases c.entity, Term.ofPhrase phrase = Term.ofPhrase c.term
  taken : ∀ answer, Text.trim answer ≠ "" → (r.respond c answer).2 = none

/-- An answer is pinned to what is mentioned. -/
theorem pin_taken {r : Request} {c : Conflict}
    (h : ∃ phrase ∈ r.phrases c.entity, Term.ofPhrase phrase = Term.ofPhrase c.term)
    (answer : String) : (r.pin c answer).2 = none := by
  obtain ⟨phrase, hphrase, hterm⟩ := h
  have hany {α : Type} {xs : List α} {name : α → String} (hin : phrase ∈ xs.map name) :
      xs.any (fun x => sameTerm (name x) c.term) = true := by
    obtain ⟨x, hx, rfl⟩ := List.mem_map.mp hin
    exact List.any_eq_true.mpr ⟨x, hx, beq_iff_eq.mpr hterm⟩
  unfold pin
  cases hentity : c.entity with
  | metric =>
    rw [hentity] at hphrase
    simp only [hany hphrase, if_true]
  | dimension =>
    rw [hentity] at hphrase
    simp only [hany hphrase, if_true]
  | filter =>
    rw [hentity] at hphrase
    simp only [hany hphrase, if_true]
  | sort =>
    rw [hentity] at hphrase
    have hsort : r.sortBy.any (sameTerm ·.field c.term) = true := by
      obtain ⟨s, hs, rfl⟩ := List.mem_map.mp hphrase
      rw [Option.mem_toList.mp hs]
      exact beq_iff_eq.mpr hterm
    simp only [hsort, if_true]
  | timeRange => rfl

namespace CanAnswer

open Mapping

variable {r : Request} {c : Conflict}

/-- A mention that means no entry, or none for certain, gets the answer pinned to it. -/
theorem unclear {entity : EntityKind} {phrase : String} (hphrase : phrase ∈ r.phrases entity)
    (hc : Unclear entity phrase c) : r.CanAnswer c := by
  have hmentioned : ∃ phrase ∈ r.phrases c.entity, Term.ofPhrase phrase = Term.ofPhrase c.term :=
    ⟨phrase, hc.of ▸ hphrase, by rw [hc.about]⟩
  refine ⟨hmentioned, fun answer hanswer => ?_⟩
  rw [respond_pin hc.kind hanswer]
  exact pin_taken hmentioned _

/-- A filter whose values are refused gets the answer in their place. -/
theorem refuses {f : FilterMention} (hf : f ∈ r.filters) (hc : Refuses f c) : r.CanAnswer c := by
  refine ⟨⟨f.field, ?_, by rw [hc.about]⟩, fun answer hanswer => ?_⟩
  · rw [hc.of]
    exact List.mem_map_of_mem hf
  · have hreplaced (new : String) :
        (replaceValue? c.term (c.value.getD "") new f).isSome = true := by
      rw [replaceValue?, hc.about, sameTerm, if_pos (beq_self_eq_true _), Option.isSome_map]
      unfold FilterValues.replace?
      rcases hc.value with hvalue | hvalue
      · rw [if_pos (List.contains_iff_mem.mpr hvalue)]
        rfl
      · split
        · rfl
        · rw [if_pos hvalue.symm]
          rfl
    have hany (new : String) : (r.filters.any fun f =>
        (replaceValue? c.term (c.value.getD "") new f).isSome) = true :=
      List.any_eq_true.mpr ⟨f, hf, hreplaced new⟩
    unfold respond
    simp only
    rw [if_neg (by simpa using hanswer), hc.kind]
    simp only [replaceValues]
    rw [if_pos (hany _)]

/-- Filters that exclude each other are decided between. -/
theorem excludes {f : FilterMention} (hf : f ∈ r.filters) (hc : Excludes c)
    (hterm : c.term = f.field) (hinvolved : f.describe ∈ c.suggestions) : r.CanAnswer c := by
  refine ⟨⟨f.field, ?_, by rw [hterm]⟩, fun answer hanswer => ?_⟩
  · rw [hc.of]
    exact List.mem_map_of_mem hf
  · have hgroup : (r.filters.filter (isInvolved c)).isEmpty = false := by
      rw [List.isEmpty_eq_false_iff_exists_mem]
      exact ⟨f, List.mem_filter.mpr ⟨hf, List.contains_iff_mem.mpr hinvolved⟩⟩
    unfold respond
    simp only
    rw [if_neg (by simpa using hanswer), hc.kind]
    simp only [decideFilters, hgroup]
    rfl

end CanAnswer

end Request

namespace Mapping

open Draft

variable {ctx : Context} {r : Request}

/-! ## Filters -/

/-- A mapped filter keeps its phrase. -/
theorem mapFilter_term {f : FilterMention} {d : Draft} {x : ReportFilter}
    (hx : (ctx.mapFilter f d).2 = some x) : x.term = f.field := by
  obtain ⟨-, -, target, type, -, -, rfl⟩ := mapFilter_mapped hx
  rfl

theorem mapFilters_mention {fs : List FilterMention} {d : Draft} :
    ∀ x ∈ (ctx.mapFilters fs d).2, x.1 ∈ fs ∧ x.2.term = x.1.field := by
  induction fs generalizing d with
  | nil => simp [Context.mapFilters]
  | cons f fs ih =>
    intro x hx
    rw [mapFilters_cons] at hx
    rcases List.mem_append.mp hx with hx | hx
    · obtain ⟨y, hy, rfl⟩ := Option.map_eq_some_iff.mp (Option.mem_toList.mp hx)
      exact ⟨List.mem_cons_self, mapFilter_term hy⟩
    · exact ⟨List.mem_cons_of_mem f (ih x hx).1, (ih x hx).2⟩

/-- A conflict between filters is about one of them, and offers its condition. -/
theorem filterConflicts_about {fs : List (FilterMention × ReportFilter)} {c : Conflict}
    (hc : c ∈ filterConflicts fs) :
    ∃ x ∈ fs, c.term = x.2.term ∧ x.1.describe ∈ c.suggestions := by
  obtain ⟨key, -, hc⟩ := List.mem_filterMap.mp hc
  unfold conflictingFilters? at hc
  split at hc
  · cases hc
  · next mention first rest hgroup =>
    have hmem : (mention, first) ∈ fs := List.mem_of_mem_filter (hgroup ▸ List.mem_cons_self)
    split at hc
    · cases hc
      refine ⟨(mention, first), hmem, rfl, List.mem_append_left _ ?_⟩
      rw [List.mem_eraseDups, hgroup]
      exact List.mem_cons_self
    · cases hc

/-! ## What is raised where nothing is missing out of sight -/

/-- What a metric is calculated from is known if its own field is, and what filters and sorts mean
can be looked at. -/
structure Context.Answerable (ctx : Context) : Prop where
  metrics : ∀ e ∈ ctx.dictionary.metrics, ctx.HasField e → ctx.IsComplete e.definition.name
  filters : ∀ (f : FilterMention) (name : String),
    ctx.resolveField .filter .dimension f.field f.confidence f.pinned = .ok (.metric, name) →
      ctx.IsComplete name
  sorts : ∀ (s : SortMention) (kind : EntityKind) (name : String),
    ctx.resolveField .sort .metric s.field 1 none = .ok (kind, name) →
      ∃ type, ctx.TargetFits kind name type

/-- Where the dictionary is valid, nothing is missing. -/
theorem Context.IsValid.answerable (h : ctx.IsValid) : ctx.Answerable where
  metrics _ he _ := h.isComplete he
  filters _ _ hname := by
    obtain ⟨e, he, rfl, -⟩ := hasEntry_metric (resolveField_entry hname)
    exact h.isComplete he
  sorts _ kind _ hname := by
    have hentry := resolveField_entry hname
    by_cases hkind : kind = .metric
    · subst hkind
      obtain ⟨e, he, rfl, -⟩ := hasEntry_metric hentry
      exact Context.targetFits_metric.mpr (h.isComplete he)
    · exact (Context.targetFits_column hkind).mpr (h.column hkind hentry)

/-- A metric whose field is missing is said to be unknown by the phrase that it is mentioned by. -/
theorem includeMetric_unclear {e : MetricEntry} (he : e ∈ ctx.dictionary.metrics)
    (hcomplete : ctx.HasField e → ctx.IsComplete e.definition.name) (term : String)
    (aggregation : Option Aggregation) (hidden : Bool) (d : Draft) :
    Raises (Unclear .metric term) d
      (ctx.includeMetric e.definition.name term aggregation hidden d) := by
  by_cases hfield : ctx.HasField e
  · exact .same (addMetric_conflicts _ (hcomplete hfield) term aggregation hidden d)
  · unfold Context.includeMetric
    rcases addMetric_cases he ctx.dictionary.metrics.length term aggregation hidden d with
      ⟨-, heq⟩ | ⟨-, message, heq⟩ | ⟨-, hyes, -⟩
    · rw [heq]
      refine .same ?_
      split <;> rfl
    · rw [heq]
      exact .raise (.make ..) d
    · exact absurd hyes hfield

/-- In an answerable dictionary the parts of a request raise what can be answered. -/
theorem raising_canAnswer (h : ctx.Answerable) (r : Request) :
    ctx.Raising r fun c => c.kind ≠ .missingRequired → r.CanAnswer c where
  metrics m hm := by
    have hphrase : m.name ∈ r.phrases .metric := List.mem_map_of_mem hm
    refine addMetricMention_raises (fun c hc _ => .unclear hphrase (resolve_error hc)) ?_
    intro name hname d
    obtain ⟨e, he, rfl, -⟩ := hasEntry_metric (resolve_entry hname)
    exact (includeMetric_unclear he (h.metrics e he) m.name m.aggregation false d).mono
      fun c hc _ => .unclear hphrase hc
  dimensions x hx := by
    have hphrase : x.name ∈ r.phrases .dimension := List.mem_map_of_mem hx
    refine addDimensionMention_raises (fun c hc _ => .unclear hphrase (resolve_error hc)) ?_
    exact fun name hname d =>
      (includeDimension_raises (by decide) (resolve_entry hname) x.name d).mono
        fun c hc _ => .unclear hphrase hc.2
  filters f hf d hd := by
    have hphrase : f.field ∈ r.phrases .filter := List.mem_map_of_mem hf
    refine mapFilter_raises (fun c hc _ => .unclear hphrase (resolveField_error hc)) ?_
      (fun c hc _ => .refuses hf (faults_refuse hc)) hd
    intro kind name hname d
    by_cases hkind : kind = .metric
    · subst hkind
      exact .same (addMetric_conflicts _ (h.filters f name hname) f.field none true d)
    · exact (filterTarget_column_raises hkind (resolveField_entry hname) f d).mono
        fun c hc _ => .unclear hphrase hc.2
  exclusive c hc _ := by
    obtain ⟨x, hx, hterm, hinvolved⟩ := filterConflicts_about hc
    obtain ⟨hmention, hfield⟩ := mapFilters_mention x hx
    exact .excludes hmention (filterConflicts_exclude hc) (hterm.trans hfield) hinvolved
  sort s hs := by
    have hphrase : s.field ∈ r.phrases .sort := by simp [Request.phrases, hs]
    refine mapSort_raises (fun c hc _ => .unclear hphrase (resolveField_error hc)) ?_ ?_
    · intro name hname d
      have hcomplete := Context.targetFits_metric.mp (h.sorts s .metric name hname)
      exact .same (addMetric_conflicts _ hcomplete s.field none false d)
    · intro kind name hkind hname d
      have hcolumn := (Context.targetFits_column hkind).mp (h.sorts s kind name hname)
      exact (includeDimension_raises hkind (resolveField_entry hname) s.field d).mono
        fun c hc => absurd hcolumn hc.1
  missing _ hkind := absurd rfl hkind

/-! ## What is missing out of sight -/

namespace Draft

/-- The drafts have the same conflicts, and metrics of the same names. -/
structure Alike (d d' : Draft) : Prop where
  names : d'.names = d.names
  conflicts : d'.conflicts = d.conflicts

theorem Alike.raise {d d' : Draft} (h : Alike d d') (c : Conflict) :
    Alike (d.raise c) (d'.raise c) :=
  ⟨h.names, congrArg c.insert h.conflicts⟩

theorem Alike.add {d d' : Draft} (h : Alike d d') {m m' : ReportMetric} (hname : m'.name = m.name) :
    Alike { d with metrics := d.metrics ++ [m] } { d' with metrics := d'.metrics ++ [m'] } := by
  refine ⟨?_, h.conflicts⟩
  have hnames : d'.metrics.map (·.name) = d.metrics.map (·.name) := h.names
  simp only [Draft.names, List.map_append, hnames, List.map_cons, hname]

end Draft

/-- What is raised about a metric that is added hidden does not depend on how others are shown. -/
theorem addMetric_alike (fuel : Nat) {d d' : Draft} (h : Alike d d') (name term : String) :
    Alike (ctx.addMetric fuel name term none true d) (ctx.addMetric fuel name term none true d') := by
  induction fuel generalizing d d' name term with
  | zero => exact h
  | succ fuel ih =>
    unfold Context.addMetric
    cases ctx.dictionary.metric? name with
    | none => exact h.raise _
    | some e =>
      have hthere : (d'.metric? e.definition.name).isSome = (d.metric? e.definition.name).isSome := by
        rw [Bool.eq_iff_iff, metric?_isSome, metric?_isSome, h.names]
      simp only [hthere, if_true]
      split
      · exact h
      · split
        · exact h.raise _
        · refine List.foldl_rel (h.add rfl) fun r _ d d' h => ?_
          split
          · exact ih h r r
          · exact h.raise _

theorem addReference_alike (fuel : Nat) (name r : String) {d d' : Draft} (h : Alike d d') :
    Alike (ctx.addReference fuel name d r) (ctx.addReference fuel name d' r) := by
  unfold Context.addReference
  split
  · exact addMetric_alike fuel h r r
  · exact h.raise _

/-- What is raised about the references of a metric does not depend on the phrase. -/
theorem includeMetric_conflicts_eq {e : MetricEntry} (he : e ∈ ctx.dictionary.metrics)
    (hfield : ctx.HasField e) (term term' : String) :
    (ctx.includeMetric e.definition.name term none false {}).conflicts =
      (ctx.includeMetric e.definition.name term' none false {}).conflicts := by
  have hadded (term : String) : ctx.includeMetric e.definition.name term none false {} =
      ((e.formula.map Formula.references).getD []).foldl
        (ctx.addReference ctx.dictionary.metrics.length e.definition.name)
        { metrics := [ctx.newMetric e term none false] } := by
    unfold Context.includeMetric
    rcases addMetric_cases he ctx.dictionary.metrics.length term none false {} with
      ⟨hthere, -⟩ | ⟨hno, -⟩ | ⟨-, -, heq⟩
    · cases hthere
    · exact absurd hfield hno
    · exact heq
  rw [hadded, hadded]
  have halike : Alike { metrics := [ctx.newMetric e term' none false] }
      { metrics := [ctx.newMetric e term none false] } :=
    Alike.add (d := {}) ⟨rfl, rfl⟩ rfl
  exact (List.foldl_rel halike fun r _ _ _ h => addReference_alike _ _ r h).conflicts

/-- Every open conflict that did not come with the request can be answered, unless the request lacks
a metric altogether. -/
def Context.AlwaysAnswered (ctx : Context) : Prop :=
  ∀ r, ∀ c ∈ (ctx.map r).conflicts, c.reported = false → c.kind ≠ .missingRequired → r.CanAnswer c

namespace Context.AlwaysAnswered

theorem mentioned (h : ctx.AlwaysAnswered) {entity : EntityKind} {term : String} {c : Conflict}
    (hopen : c ∈ (ctx.map r).conflicts) (hc : Unclear entity term c) :
    ∃ phrase ∈ r.phrases entity, Term.ofPhrase phrase = Term.ofPhrase c.term := by
  have hkind : c.kind ≠ .missingRequired := by
    rcases hc.kind with hkind | hkind <;> rw [hkind] <;> decide
  exact hc.of ▸ (h r c hopen hc.reported hkind).mentioned

/-- If a metric lacks something besides its field, two mentions of it raise the same, which is about
the phrase of one of them at most. -/
theorem isComplete (h : ctx.AlwaysAnswered) {e : MetricEntry} (he : e ∈ ctx.dictionary.metrics)
    (hfield : ctx.HasField e) : ctx.IsComplete e.definition.name := by
  by_contra hno
  have hexact : ctx.exactName? .metric e.definition.name = some e.definition.name := by
    rw [exactName?, Dictionary.metric?_of_mem he]
    rfl
  have hentry := exactName?_entry hexact
  have hne : (ctx.includeMetric e.definition.name "" none false {}).conflicts ≠ [] := fun hnil =>
    hno ((includeMetric_conflicts (sound_empty ctx) closed_empty hentry "" none false).mp hnil).2
  obtain ⟨c, hc⟩ := List.exists_mem_of_ne_nil _ hne
  obtain ⟨phrase, hunclear⟩ := ((addMetric_raises _ _ _ _ _ _).mem hc).resolve_left List.not_mem_nil
  have hsame (term : String) : Term.ofPhrase term = Term.ofPhrase c.term := by
    have hopen : c ∈ (ctx.map
        { metrics := [{ name := term, pinned := some e.definition.name }] }).conflicts := by
      refine open_of_raises (raising_raised ctx _).metrics_final ?_
      show c ∈ (ctx.addMetricMention {} _).conflicts
      simp only [addMetricMention, resolve, hexact]
      exact includeMetric_conflicts_eq he hfield "" term ▸ hc
    obtain ⟨phrase, hphrase, hterm⟩ := h.mentioned hopen hunclear
    rwa [List.mem_singleton.mp hphrase] at hterm
  have hdiffer : Term.ofPhrase "" ≠ Term.ofPhrase "a" := by decide +kernel
  exact hdiffer ((hsame "").trans (hsame "a").symm)

/-- A metric that a filter means is complete: the filter mentions no metric. -/
theorem filter_isComplete (h : ctx.AlwaysAnswered) {f : FilterMention} {name : String}
    (hname : ctx.resolveField .filter .dimension f.field f.confidence f.pinned =
      .ok (.metric, name)) : ctx.IsComplete name := by
  by_contra hno
  have hwarn := warnOperator_step (sound_empty ctx) f
  have hne : (ctx.filterTarget f .metric name (warnOperator f {})).1.conflicts ≠ [] := by
    intro hnil
    exact hno ((includeMetric_conflicts hwarn.sound (hwarn.closed [] closed_empty)
      (resolveField_entry hname) f.field none true).mp hnil).2
  obtain ⟨c, hc⟩ := List.exists_mem_of_ne_nil _ hne
  obtain hthere | ⟨phrase, hunclear⟩ := (addMetric_raises _ _ _ _ _ _).mem hc
  · rw [warnOperator_conflicts] at hthere
    cases hthere
  have hopen : c ∈ (ctx.map { filters := [f] }).conflicts := by
    refine open_of_raises (raising_raised ctx _).filters_final ?_
    show c ∈ (ctx.mapFilter f {}).1.conflicts
    exact (mapFilter_faults (sound_empty ctx) hname).subset hc
  obtain ⟨_, hphrase, -⟩ := h.mentioned hopen hunclear
  cases hphrase

/-- What a sort means can be looked at: the sort mentions no metric and no dimension. -/
theorem sort_fits (h : ctx.AlwaysAnswered) {s : SortMention} {kind : EntityKind} {name : String}
    (hname : ctx.resolveField .sort .metric s.field 1 none = .ok (kind, name)) :
    ∃ type, ctx.TargetFits kind name type := by
  by_contra hno
  have hne : (ctx.mapSort s {}).1.conflicts ≠ [] := by
    intro hnil
    obtain ⟨-, kind', name', type, hname', hfits⟩ :=
      (mapSort_does (sound_empty ctx) closed_empty s).conflicts.mp hnil
    cases hname.symm.trans hname'
    exact hno ⟨type, hfits⟩
  obtain ⟨c, hc⟩ := List.exists_mem_of_ne_nil _ hne
  have hraises : Raises (fun c => ∃ entity phrase, (entity = .metric ∨ entity = .dimension) ∧
      Unclear entity phrase c) {} (ctx.mapSort s {}).1 := by
    refine mapSort_raises (fun c hc => ?_) (fun name _ d => ?_) (fun kind name hkind hname d => ?_) {}
    · cases hname.symm.trans hc
    · exact (addMetric_raises _ name s.field none false d).mono
        fun _ ⟨phrase, hc⟩ => ⟨.metric, phrase, .inl rfl, hc⟩
    · exact (includeDimension_raises hkind (resolveField_entry hname) s.field d).mono
        fun _ hc => ⟨.dimension, s.field, .inr rfl, hc.2⟩
  obtain ⟨entity, phrase, hentity, hunclear⟩ := (hraises.mem hc).resolve_left List.not_mem_nil
  have hopen : c ∈ (ctx.map { sortBy := some s }).conflicts := by
    refine open_of_raises (raising_raised ctx _).finalDraft ?_
    have hcompared : ctx.comparedDraft { sortBy := some s } = {} := by
      show (filterConflicts []).foldl Draft.raise {} = {}
      simp [filterConflicts, targetKeys]
    simpa only [sortedDraft, hcompared] using hc
  obtain ⟨_, hphrase, -⟩ := h.mentioned hopen hunclear
  rcases hentity with rfl | rfl <;> cases hphrase

end Context.AlwaysAnswered

/-- Every open conflict that did not come with the request can be answered just if the dictionary is
answerable, as one that is valid for the schema is. -/
theorem conflicts_mentioned_iff (ctx : Context) :
    (ctx.IsValid → ctx.AlwaysAnswered) ∧ (ctx.AlwaysAnswered ↔ ctx.Answerable) := by
  have hiff : ctx.AlwaysAnswered ↔ ctx.Answerable := by
    constructor
    · intro h
      exact ⟨fun e he => h.isComplete he, fun f name => h.filter_isComplete,
        fun s kind name => h.sort_fits⟩
    · intro h r c hopen hfound hkind
      rw [ctx.map_eq] at hopen
      rcases (raising_canAnswer h r).final.mem hopen with hreported | hanswer
      · rw [(reportedDraft_isReported r c hreported).reported] at hfound
        cases hfound
      · exact hanswer hkind
  exact ⟨fun hvalid => hiff.mpr hvalid.answerable, hiff⟩

end Mapping

namespace Wagers

open Mapping

/-- A metric whose field is not in the schema. -/
def fee : MetricDefinition := { name := "Fee", field := some ⟨"Bets", "Fee"⟩, type := .integer }

def withFee : Mapping.Context :=
  { context with dictionary :=
      { definition := { vocabulary with metrics := vocabulary.metrics ++ [fee] }
        metrics := dictionary.metrics ++ [⟨fee, ⟨"fee", []⟩, none⟩]
        dimensions := dictionary.dimensions
        built := by decide +kernel } }

/-- The turnover where the fee is set. -/
def charged : Request :=
  { metrics := [{ name := "turnover", pinned := some "Turnover" }]
    filters := [{ field := "fee", operator := "is not null", pinned := some "Fee" }] }

/-- The fee is filtered by, and said to be an unknown metric although none is mentioned as a fee. -/
theorem charged_unanswered :
    (∃ c ∈ (withFee.map charged).conflicts, c.reported = false ∧ c.kind = .unknown ∧
      c.entity = .metric ∧ c.term = "fee") ∧ ¬ withFee.Answerable := by
  have hopen : ∃ c ∈ (withFee.map charged).conflicts, c.reported = false ∧ c.kind = .unknown ∧
      c.entity = .metric ∧ c.term = "fee" := by decide +kernel
  refine ⟨hopen, fun hanswerable => ?_⟩
  have hanswered := (conflicts_mentioned_iff withFee).2.mpr hanswerable
  obtain ⟨c, hc, hfound, hkind, hentity, hterm⟩ := hopen
  obtain ⟨phrase, hphrase, hsame⟩ := (hanswered charged c hc hfound (by rw [hkind]; decide)).mentioned
  rw [hentity] at hphrase
  rw [List.mem_singleton.mp hphrase, hterm] at hsame
  have hdiffer : Term.ofPhrase "turnover" ≠ Term.ofPhrase "fee" := by decide +kernel
  exact hdiffer hsame

end Wagers

/-! ## Everything that a request raises -/

namespace Mapping

open Draft

variable {ctx : Context}

/-- The request sorts by a phrase that means a dimension without a column, and the conflict is about
the phrase. -/
def Context.SortLacks (ctx : Context) (r : Request) (c : Conflict) : Prop :=
  ∃ s kind name, r.sortBy = some s ∧ s.field = c.term ∧ kind ≠ .metric ∧
    ctx.resolveField .sort .metric s.field 1 none = .ok (kind, name) ∧ ¬ ctx.HasColumn name

/-- What the mapping of a request raises over any dictionary. -/
inductive Context.Comes (ctx : Context) (r : Request) : Conflict → Prop
  | mention {entity : EntityKind} {phrase : String} {c : Conflict} : phrase ∈ r.phrases entity →
      Unclear entity phrase c → Comes ctx r c
  /-- Something is missing of a metric, whatever leads to it. -/
  | metric {phrase : String} {c : Conflict} : Unclear .metric phrase c → Comes ctx r c
  | sort {phrase : String} {c : Conflict} : Unclear .dimension phrase c → ctx.SortLacks r c →
      Comes ctx r c
  | value {f : FilterMention} {c : Conflict} : f ∈ r.filters → Refuses f c → Comes ctx r c
  | exclusive {c : Conflict} : c ∈ filterConflicts (ctx.filtersDraft r).2 → Comes ctx r c
  | missing : Comes ctx r ctx.missingMetric

theorem includeMetric_comes (name term : String) (aggregation : Option Aggregation) (hidden : Bool)
    (r : Request) (d : Draft) :
    Raises (ctx.Comes r) d (ctx.includeMetric name term aggregation hidden d) :=
  (addMetric_raises _ name term aggregation hidden d).mono fun _ ⟨_, hc⟩ => .metric hc

/-- The parts of a request raise what is listed. -/
theorem raising_comes (ctx : Context) (r : Request) : ctx.Raising r (ctx.Comes r) where
  metrics m hm := addMetricMention_raises
    (fun _ hc => .mention (List.mem_map_of_mem hm) (resolve_error hc))
    fun name _ d => includeMetric_comes name m.name m.aggregation false r d
  dimensions x hx := by
    have hphrase : x.name ∈ r.phrases .dimension := List.mem_map_of_mem hx
    exact addDimensionMention_raises (fun _ hc => .mention hphrase (resolve_error hc))
      fun name hname d => (includeDimension_raises (by decide) (resolve_entry hname) x.name d).mono
        fun _ hc => .mention hphrase hc.2
  filters f hf d hd := by
    have hphrase : f.field ∈ r.phrases .filter := List.mem_map_of_mem hf
    refine mapFilter_raises (fun _ hc => .mention hphrase (resolveField_error hc)) ?_
      (fun _ hc => .value hf (faults_refuse hc)) hd
    intro kind name hname d
    by_cases hkind : kind = .metric
    · subst hkind
      exact includeMetric_comes name f.field none true r d
    · exact (filterTarget_column_raises hkind (resolveField_entry hname) f d).mono
        fun _ hc => .mention hphrase hc.2
  exclusive _ hc := .exclusive hc
  sort s hs := by
    have hphrase : s.field ∈ r.phrases .sort := by simp [Request.phrases, hs]
    refine mapSort_raises (fun _ hc => .mention hphrase (resolveField_error hc))
      (fun name _ d => includeMetric_comes name s.field none false r d) ?_
    exact fun kind name hkind hname d =>
      (includeDimension_raises hkind (resolveField_entry hname) s.field d).mono fun _ hc =>
        .sort hc.2 ⟨s, kind, name, hs, hc.2.about.symm, hkind, hname, hc.1⟩
  missing _ := .missing

/-- A question that did not come with the request is one of those that are listed. -/
theorem comes_of_open {r : Request} {round : Round} (hround : round.Of ctx r) {c : Conflict}
    (hopen : c ∈ round.request.conflicts) (hfound : c.reported = false) : ctx.Comes r c := by
  rw [hround.request, hround.outcome, ctx.map_eq] at hopen
  refine ((raising_comes ctx r).final.mem hopen).resolve_left fun hreported => ?_
  cases hfound.symm.trans (reportedDraft_isReported r c hreported).reported

end Mapping

end MetricLayer
