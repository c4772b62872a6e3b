import MetricLayer.Proofs.Clarification.Answers
import MetricLayer.Proofs.Report.Kept
import MetricLayer.Proofs.Report.Mentioned

/-!
# No silent pick

A mention that has no entry pinned to it is looked up among the entries of its kind. It maps to the
best of them only if no other one fits as well. Scores that differ by less than is worth telling
apart count as equal too, but equal ones always do: a score is a positive number that is not too
large, so what is equal to it leaves nothing when it is taken from it. Where two entries share the
best score, the mention raises a conflict, which is open in the end unless a conflict that came with
the request has its id already.

Results:
1. `resolve_picks` and `resolve_asks`: what a mention maps to, and when it raises a conflict.
2. `no_silent_pick`: how the entries for a phrase are ranked, and that none is picked where two are
   equal.
-/

namespace MetricLayer

open Mapping

namespace Mapping

open Draft

variable {ctx : Context}

/-- The entry has a better score for the phrase than any other one. -/
def Context.IsOnlyBest (ctx : Context) (kind : EntityKind) (phrase name : String) : Prop :=
  ∃ score, ctx.dictionary.Scores ctx.settings kind phrase name score ∧
    ∀ name' score', ctx.dictionary.Scores ctx.settings kind phrase name' score' → name' ≠ name →
      score' < score

/-- Two entries have equal scores for the phrase, and none has a better one. -/
def Context.SharesBest (ctx : Context) (kind : EntityKind) (phrase : String) : Prop :=
  ∃ a b score score', a ≠ b ∧ ctx.dictionary.Scores ctx.settings kind phrase a score ∧
    ctx.dictionary.Scores ctx.settings kind phrase b score' ∧ (score == score') = true ∧
    ∀ name score'', ctx.dictionary.Scores ctx.settings kind phrase name score'' → ¬ score < score''

/-! ## Equal scores -/

/-- Equal scores are tied. -/
theorem tied_of_beq {x y : Float} (hx : Decimal.isPositive x.toModel.unpack = true)
    (h : (x == y) = true) : Context.tied x y = true := by
  unfold Context.tied
  rw [Decimal.sub_of_beq hx h]
  decide +kernel

/-- What is ranked behind a candidate has no better score. -/
theorem place_le {a b : Candidate} (ha : a.score.isNaN = false) (hb : b.score.isNaN = false)
    (h : b.score < a.score ∨ (a.score == b.score) = true ∧ a.name < b.name) :
    Decimal.place b.score ≤ Decimal.place a.score := by
  rcases h with h | ⟨h, -⟩
  · exact ((Decimal.lt_iff_place hb ha).mp h).le
  · exact ((Decimal.beq_iff_place ha hb).mp h).ge

section Lookup

variable {kind : EntityKind} {phrase : String} {best next : Candidate} {others : List Candidate}

theorem lookup_phrase {c : Candidate} (h : c ∈ ctx.lookup kind phrase) :
    Term.ofPhrase phrase ≠ "" := by
  intro hempty
  simp [Context.lookup, Dictionary.lookup, hempty] at h

theorem mem_lookup {c : Candidate} : c ∈ ctx.lookup kind phrase ↔ Term.ofPhrase phrase ≠ "" ∧
    c.kind = kind ∧ ctx.dictionary.Scores ctx.settings kind phrase c.name c.score := by
  constructor
  · intro h
    have hphrase := lookup_phrase h
    exact ⟨hphrase, ((ctx.dictionary.lookup_ranks ctx.settings kind hphrase).listed c).mp h⟩
  · rintro ⟨hphrase, h⟩
    exact ((ctx.dictionary.lookup_ranks ctx.settings kind hphrase).listed c).mpr h

theorem lookup_isNaN {c : Candidate} (h : c ∈ ctx.lookup kind phrase) : c.score.isNaN = false := by
  obtain ⟨-, -, _, _, -, -, -, hpos⟩ := mem_lookup.mp h
  exact Decimal.isNaN_of_lt hpos

/-- The candidates of a lookup have descending scores. -/
theorem lookup_descends (ctx : Context) (kind : EntityKind) (phrase : String) :
    (ctx.lookup kind phrase).Pairwise fun a b =>
       Decimal.place b.score ≤ Decimal.place a.score := by
  by_cases hphrase : Term.ofPhrase phrase = ""
  · simp [Context.lookup, Dictionary.lookup, hphrase]
  · exact (ctx.dictionary.lookup_ranks ctx.settings kind hphrase).ordered.imp_of_mem
      fun ha hb => place_le (lookup_isNaN ha) (lookup_isNaN hb)

/-- A candidate is the first one or behind it. -/
theorem place_le_best (h : ctx.lookup kind phrase = best :: others) {c : Candidate}
    (hc : c ∈ ctx.lookup kind phrase) : Decimal.place c.score ≤ Decimal.place best.score := by
  have hdescends := lookup_descends ctx kind phrase
  rw [h] at hdescends hc
  rcases List.mem_cons.mp hc with rfl | hc
  · exact le_rfl
  · exact (List.pairwise_cons.mp hdescends).1 c hc

/-- A candidate is the first one, the second one or behind that. -/
theorem place_le_next (h : ctx.lookup kind phrase = best :: next :: others) {c : Candidate}
    (hc : c ∈ next :: others) : Decimal.place c.score ≤ Decimal.place next.score := by
  have hdescends := lookup_descends ctx kind phrase
  rw [h] at hdescends
  rcases List.mem_cons.mp hc with rfl | hc
  · exact le_rfl
  · exact (List.pairwise_cons.mp (List.pairwise_cons.mp hdescends).2).1 c hc

/-- The first two candidates are tied if their scores are equal. -/
theorem tied_of_place (h : ctx.lookup kind phrase = best :: next :: others)
    (hplace : Decimal.place next.score = Decimal.place best.score) :
    Context.tied best.score next.score = true := by
  have hbest : best ∈ ctx.lookup kind phrase := h ▸ List.mem_cons_self
  have hnext : next ∈ ctx.lookup kind phrase := h ▸ List.mem_cons_of_mem _ List.mem_cons_self
  refine tied_of_beq (mem_lookup.mp hbest).2.2.isPositive ?_
  exact (Decimal.beq_iff_place (lookup_isNaN hbest) (lookup_isNaN hnext)).mpr hplace.symm

variable {entity : EntityKind} {term name : String} {confidence : Float}

theorem choose_not_tied (h : ctx.choose best (next :: others) entity term confidence = .ok name) :
    Context.tied best.score next.score = false := by
  unfold Context.choose at h
  simp only at h
  split at h
  · cases h
  · next hclear =>
    rw [Bool.or_eq_true, not_or] at hclear
    simpa using hclear.1

theorem choose_of_tied (h : Context.tied best.score next.score = true) :
    ∃ c, ctx.choose best (next :: others) entity term confidence = .error c := by
  unfold Context.choose
  simp only [List.head?_cons, Option.any_some, h, Bool.true_or, if_true]
  exact ⟨_, rfl⟩

/-- What a mention maps to is the only entry with the best score. -/
theorem resolve_picks (h : ctx.resolve kind kind phrase confidence none = .ok name) :
    ctx.IsOnlyBest kind phrase name := by
  simp only [Context.resolve, Context.resolvePhrase] at h
  cases hlookup : ctx.lookup kind phrase with
  | nil =>
    rw [hlookup] at h
    cases h
  | cons best others =>
    rw [hlookup] at h
    have hchoose : ctx.choose best others kind phrase confidence = .ok name := h
    have hbest : best ∈ ctx.lookup kind phrase := hlookup ▸ List.mem_cons_self
    obtain ⟨hphrase, -, hscores⟩ := mem_lookup.mp hbest
    rw [choose_eq_ok hchoose]
    refine ⟨best.score, hscores, fun name' score' hscores' hne => ?_⟩
    have hmem : (⟨kind, name', score'⟩ : Candidate) ∈ ctx.lookup kind phrase :=
      mem_lookup.mpr ⟨hphrase, rfl, hscores'⟩
    refine (Decimal.lt_iff_place (lookup_isNaN hmem) (lookup_isNaN hbest)).mpr ?_
    have hbehind : (⟨kind, name', score'⟩ : Candidate) ∈ others := by
      rw [hlookup] at hmem
      exact (List.mem_cons.mp hmem).resolve_left fun heq => hne (congrArg Candidate.name heq)
    cases others with
    | nil => cases hbehind
    | cons next others =>
      have hnext : next ∈ ctx.lookup kind phrase :=
        hlookup ▸ List.mem_cons_of_mem _ List.mem_cons_self
      have hne : Decimal.place next.score ≠ Decimal.place best.score := fun heq =>
        Bool.noConfusion ((tied_of_place hlookup heq).symm.trans (choose_not_tied hchoose))
      have hle := place_le_next hlookup hbehind
      calc Decimal.place score' ≤ Decimal.place next.score := hle
        _ < Decimal.place best.score := (place_le_best hlookup hnext).lt_of_ne hne

/-- Where entries share the best score, a mention maps to none of them. -/
theorem resolve_asks (hphrase : Term.ofPhrase phrase ≠ "") (h : ctx.SharesBest kind phrase)
    (confidence : Float) : ∃ c, ctx.resolve kind kind phrase confidence none = .error c ∧
      c.kind = .ambiguous := by
  obtain ⟨a, b, score, score', hne, ha, hb, hequal, hgreatest⟩ := h
  have ha' : (⟨kind, a, score⟩ : Candidate) ∈ ctx.lookup kind phrase :=
    mem_lookup.mpr ⟨hphrase, rfl, ha⟩
  have hb' : (⟨kind, b, score'⟩ : Candidate) ∈ ctx.lookup kind phrase :=
    mem_lookup.mpr ⟨hphrase, rfl, hb⟩
  have hequal := (Decimal.beq_iff_place (lookup_isNaN ha') (lookup_isNaN hb')).mp hequal
  simp only [Context.resolve, Context.resolvePhrase]
  cases hlookup : ctx.lookup kind phrase with
  | nil =>
    rw [hlookup] at ha'
    cases ha'
  | cons best others =>
    have hbest : best ∈ ctx.lookup kind phrase := hlookup ▸ List.mem_cons_self
    have hgreatest := hgreatest best.name best.score (mem_lookup.mp hbest).2.2
    rw [Decimal.lt_iff_place (lookup_isNaN ha') (lookup_isNaN hbest), not_lt] at hgreatest
    have htop : Decimal.place best.score = Decimal.place score :=
      hgreatest.antisymm (place_le_best hlookup ha')
    -- one of the two is behind the first candidate
    obtain ⟨c, hc, hplace⟩ : ∃ c ∈ others, Decimal.place c.score = Decimal.place score := by
      rw [hlookup] at ha' hb'
      rcases List.mem_cons.mp ha' with rfl | hbehind
      · rcases List.mem_cons.mp hb' with heq | hbehind
        · exact absurd (congrArg Candidate.name heq).symm hne
        · exact ⟨_, hbehind, hequal.symm⟩
      · exact ⟨_, hbehind, rfl⟩
    cases others with
    | nil => cases hc
    | cons next others =>
      have hnext : next ∈ ctx.lookup kind phrase :=
        hlookup ▸ List.mem_cons_of_mem _ List.mem_cons_self
      have hsecond : Decimal.place next.score = Decimal.place best.score :=
        (place_le_best hlookup hnext).antisymm
          ((htop.trans hplace.symm).le.trans (place_le_next hlookup hc))
      obtain ⟨c, herror⟩ : ∃ c, ctx.choose best (next :: others) kind phrase confidence = .error c :=
        choose_of_tied (tied_of_place hlookup hsecond)
      exact ⟨c, herror, choose_kind herror⟩

end Lookup

/-! ## What is open in the end -/

/-- The request mentions the phrase as one of the kind, and no entry is pinned to it. -/
def MentionsUnpinned (r : Request) (kind : EntityKind) (phrase : String) (confidence : Float) :
    Prop :=
  match kind with
  | .metric => ∃ m ∈ r.metrics, m.name = phrase ∧ m.confidence = confidence ∧ m.pinned = none
  | .dimension => ∃ x ∈ r.dimensions, x.name = phrase ∧ x.confidence = confidence ∧ x.pinned = none
  | _ => False

/-- What one of the elements does to the open conflicts is there after all of them. -/
theorem mem_ids_foldl {α : Type} {P : Conflict → Prop} {f : Draft → α → Draft} {xs : List α}
    (hf : ∀ x ∈ xs, ∀ d, Raises P d (f d x)) {x : α} (hx : x ∈ xs) {id : String}
    (hid : ∀ d, id ∈ (f d x).ids) (d : Draft) : id ∈ (xs.foldl f d).ids := by
  obtain ⟨before, after, rfl⟩ := List.append_of_mem hx
  rw [List.foldl_append, List.foldl_cons]
  refine (Raises.foldl (fun d y hy => hf y ?_ d) _).ids_subset (hid _)
  exact List.mem_append_right _ (List.mem_cons_of_mem _ hy)

variable {r : Request} {kind : EntityKind} {phrase : String} {confidence : Float}

/-- What a mention raises is open in the end, or another conflict with its id is. -/
theorem asked_of_error (hmention : MentionsUnpinned r kind phrase confidence) {c : Conflict}
    (h : ctx.resolve kind kind phrase confidence none = .error c) :
    ∃ c' ∈ (ctx.map r).conflicts, c'.id = c.id := by
  have hraising := raising_comes ctx r
  cases kind with
  | metric =>
    obtain ⟨m, hm, rfl, rfl, hpinned⟩ := hmention
    refine asked_of_raises hraising.metrics_final (mem_ids_foldl hraising.metrics hm (fun d => ?_) _)
    rw [Context.addMetricMention, hpinned, h]
    exact d.id_mem_raise c
  | dimension =>
    obtain ⟨x, hx, rfl, rfl, hpinned⟩ := hmention
    refine asked_of_raises (hraising.filtersDraft.trans hraising.filters_final)
      (mem_ids_foldl hraising.dimensions hx (fun d => ?_) _)
    rw [Context.addDimensionMention, hpinned, h]
    exact d.id_mem_raise c
  | filter | sort | timeRange => exact hmention.elim

/-- The conflict says that several entries of the kind fit the phrase. -/
structure SaysSeveral (entity : EntityKind) (phrase : String) (c : Conflict) : Prop where
  kind : c.kind = .ambiguous
  of : c.entity = entity
  about : Term.ofPhrase c.term = Term.ofPhrase phrase

/-- The conflict came with the request. -/
def CameWith (r : Request) (c : Conflict) : Prop :=
  ∃ c' ∈ r.conflicts, c = ({ c' with reported := true } : Conflict).ensureId

theorem reportedDraft_cameWith (r : Request) :
    Raises (CameWith r) {} (Context.reportedDraft r) :=
  .foldl (fun d c hc => .raise ⟨c, hc, rfl⟩ d) _

theorem Unclear.saysSeveral {entity : EntityKind} {term : String} {c : Conflict}
    (h : Unclear entity term c) (hid : c.id = Conflict.idOf .ambiguous kind phrase none) :
    SaysSeveral kind phrase c := by
  obtain ⟨hkind, hentity, -⟩ := Conflict.idOf_inj (h.id.symm.trans hid)
  have hid' := h.id.symm.trans hid
  rw [hkind, hentity] at hid'
  exact ⟨hkind, h.of.trans hentity, h.about ▸ Conflict.idOf_eq_iff.mp hid'⟩

/-- An open conflict with the id of one that says that several entries fit says so, or it came with
the request. -/
theorem saysSeveral_of_id {c : Conflict} (hc : c ∈ (ctx.map r).conflicts)
    (hid : c.id = Conflict.idOf .ambiguous kind phrase none) :
    SaysSeveral kind phrase c ∨ CameWith r c := by
  rw [ctx.map_eq] at hc
  rcases (raising_comes ctx r).final.mem hc with hreported | hcomes
  · exact .inr (((reportedDraft_cameWith r).mem hreported).resolve_left List.not_mem_nil)
  · refine .inl ?_
    cases hcomes with
    | mention _ h => exact h.saysSeveral hid
    | metric h => exact h.saysSeveral hid
    | sort h _ => exact h.saysSeveral hid
    | value _ h => cases (Conflict.idOf_inj (h.id.symm.trans hid)).1
    | exclusive h => cases (Conflict.idOf_inj ((filterConflicts_exclude h).id.symm.trans hid)).1
    | missing =>
      have hid : Conflict.idOf .missingRequired .metric "" none =
        Conflict.idOf .ambiguous kind phrase none := hid
      cases (Conflict.idOf_inj hid).1

/-! ## No silent pick -/

/-- The names of the entries of a kind that a report shows. -/
def shownNames (r : Report) : EntityKind → List String
  | .metric => r.visibleMetrics.map (·.name)
  | .dimension => r.dimensions.map (·.name)
  | _ => []

/-- No entry is picked for a mention while another one fits as well. -/
structure Context.NeverPicks (ctx : Context) (r : Request) (kind : EntityKind) (phrase : String)
    (confidence : Float) : Prop where
  /-- What the mention maps to is the only entry with the best score. -/
  picks : ∀ name, ctx.resolve kind kind phrase confidence none = .ok name →
    ctx.IsOnlyBest kind phrase name
  /-- Where no conflict is open, this entry is shown. -/
  shown : (ctx.map r).isResolved = true →
    ∃ name ∈ shownNames (ctx.map r).report kind, ctx.IsOnlyBest kind phrase name
  /-- Where entries share the best score, the mention maps to none of them. -/
  refuses : ctx.SharesBest kind phrase → ∃ c,
    ctx.resolve kind kind phrase confidence none = .error c ∧ SaysSeveral kind phrase c
  /-- This is open in the end, unless a conflict that came with the request has its id. -/
  asked : ctx.SharesBest kind phrase → ∃ c ∈ (ctx.map r).conflicts,
    c.id = Conflict.idOf .ambiguous kind phrase none ∧ (SaysSeveral kind phrase c ∨ CameWith r c)

theorem shown_of_isResolved (hmention : MentionsUnpinned r kind phrase confidence)
    (h : (ctx.map r).isResolved = true) : ∃ name ∈ shownNames (ctx.map r).report kind,
      ctx.resolve kind kind phrase confidence none = .ok name := by
  cases kind with
  | metric =>
    obtain ⟨m, hm, rfl, rfl, hpinned⟩ := hmention
    obtain ⟨x, hx, hmeaning, -⟩ := map_keeps_metric h hm
    exact ⟨x.name, List.mem_map_of_mem hx, hpinned ▸ meaning?_eq_some.mp hmeaning⟩
  | dimension =>
    obtain ⟨m, hm, rfl, rfl, hpinned⟩ := hmention
    obtain ⟨x, hx, hresolve⟩ := map_keeps_dimension h hm
    exact ⟨x.name, List.mem_map_of_mem hx, hpinned ▸ hresolve⟩
  | filter | sort | timeRange => exact hmention.elim

/-- The entries that match a phrase are all listed, the best first, and none of them is picked where
two have the best score. -/
theorem no_silent_pick (ctx : Context) (r : Request) (kind : EntityKind) {phrase : String}
    (hphrase : Term.ofPhrase phrase ≠ "") :
    ctx.dictionary.Ranks ctx.settings kind phrase ∧ ∀ confidence,
      MentionsUnpinned r kind phrase confidence → ctx.NeverPicks r kind phrase confidence := by
  refine ⟨ctx.dictionary.lookup_ranks ctx.settings kind hphrase, fun confidence hmention => ?_⟩
  have hrefuses (hshares : ctx.SharesBest kind phrase) : ∃ c,
      ctx.resolve kind kind phrase confidence none = .error c ∧
        c.id = Conflict.idOf .ambiguous kind phrase none ∧ SaysSeveral kind phrase c := by
    obtain ⟨c, herror, hkind⟩ := resolve_asks hphrase hshares confidence
    have hid := hkind ▸ (resolve_error herror).id
    exact ⟨c, herror, hid, (resolve_error herror).saysSeveral hid⟩
  refine ⟨fun name => resolve_picks, fun h => ?_, fun h => ?_, fun h => ?_⟩
  · obtain ⟨name, hname, hresolve⟩ := shown_of_isResolved hmention h
    exact ⟨name, hname, resolve_picks hresolve⟩
  · obtain ⟨c, herror, -, hsays⟩ := hrefuses h
    exact ⟨c, herror, hsays⟩
  · obtain ⟨c, herror, hid, -⟩ := hrefuses h
    obtain ⟨c', hc', hid'⟩ := asked_of_error hmention herror
    exact ⟨c', hc', hid'.trans hid, saysSeveral_of_id hc' (hid'.trans hid)⟩

end Mapping

namespace Wagers

/-- The phrase contains the names of two metrics. -/
def torn : Request := { metrics := [{ name := "stake turnover" }] }

theorem scores_torn {name : String} {score : Float} :
    context.dictionary.Scores context.settings .metric "stake turnover" name score ↔
      (name = "Stake" ∨ name = "Turnover") ∧ score = 0.8 := by
  have hcandidates : context.dictionary.candidates context.settings .metric
      (Term.ofPhrase "stake turnover") = [⟨.metric, "Stake", 0.8⟩, ⟨.metric, "Turnover", 0.8⟩] := by
    decide +kernel
  have hmem := @Dictionary.mem_candidates context.dictionary context.settings .metric
    "stake turnover" ⟨.metric, name, score⟩
  rw [hcandidates] at hmem
  simpa [or_and_right] using hmem.symm

theorem sharesBest_torn : context.SharesBest .metric "stake turnover" := by
  refine ⟨"Stake", "Turnover", 0.8, 0.8, by decide, scores_torn.mpr ⟨.inl rfl, rfl⟩,
    scores_torn.mpr ⟨.inr rfl, rfl⟩, by decide +kernel, fun name score h => ?_⟩
  rw [(scores_torn.mp h).2]
  decide +kernel

theorem no_silent_pick_torn :
    Term.ofPhrase "stake turnover" ≠ "" ∧
      context.dictionary.Ranks context.settings .metric "stake turnover" ∧
      MentionsUnpinned torn .metric "stake turnover" 1 ∧
      context.SharesBest .metric "stake turnover" ∧
      context.NeverPicks torn .metric "stake turnover" 1 := by
  have hphrase : Term.ofPhrase "stake turnover" ≠ "" := by decide +kernel
  have hmention : MentionsUnpinned torn .metric "stake turnover" 1 :=
    ⟨_, List.mem_cons_self, rfl, rfl, rfl⟩
  obtain ⟨hranks, hnever⟩ := no_silent_pick context torn .metric hphrase
  exact ⟨hphrase, hranks, hmention, sharesBest_torn, hnever 1 hmention⟩

/-- A conflict came with the request that says that the phrase is unknown, and has the id of the one
that would say that several metrics fit. -/
def shadowed : Request :=
  { torn with
    conflicts := [{ id := "ambiguous|metric|stake turnover", kind := .unknown, entity := .metric
                    term := "stake turnover" }] }

/-- What came with the request stays open, and nothing says that several metrics fit. -/
theorem shadowed_hides :
    Term.ofPhrase "stake turnover" ≠ "" ∧
      MentionsUnpinned shadowed .metric "stake turnover" 1 ∧
      context.SharesBest .metric "stake turnover" ∧
      ¬ ∃ c ∈ (context.map shadowed).conflicts, c.kind = .ambiguous := by
  refine ⟨by decide +kernel, ⟨_, List.mem_cons_self, rfl, rfl, rfl⟩, sharesBest_torn, ?_⟩
  obtain ⟨c, herror, hkind⟩ := resolve_asks (by decide +kernel) sharesBest_torn 1
  have hid : c.id = "ambiguous|metric|stake turnover" := by
    rw [(resolve_error herror).id, hkind]
    decide +kernel
  have hcompared : context.comparedDraft shadowed = context.metricsDraft shadowed := by
    show (filterConflicts []).foldl Draft.raise (context.metricsDraft shadowed) = _
    simp [filterConflicts, targetKeys]
  have hfinal : context.finalDraft shadowed = context.comparedDraft shadowed := by
    rw [Context.finalDraft, if_neg (by simp [Context.lacksMetric, shadowed, torn])]
    rfl
  have hmetrics : context.metricsDraft shadowed = (Context.reportedDraft shadowed).raise c := by
    show context.addMetricMention _ _ = _
    unfold Context.addMetricMention
    rw [show context.resolve .metric .metric _ _ _ = .error c from herror]
  have hreported : (Context.reportedDraft shadowed).conflicts =
      [{ id := "ambiguous|metric|stake turnover", kind := .unknown, entity := .metric
         term := "stake turnover", reported := true }] := by
    decide +kernel
  rw [context.map_eq, hfinal, hcompared, hmetrics, Draft.raise, Conflict.insert, hreported]
  simp [hid]

end Wagers

end MetricLayer
