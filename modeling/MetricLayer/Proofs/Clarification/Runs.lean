import MetricLayer.Proofs.Clarification.Rounds

/-!
# Runs of rounds

A request can go through any number of rounds, with answers of any kind between them, and each round
may be served by another process. What stays the same from the first request on is said by
`Request.Keeps`: a response pins an entry to mentions or puts a mention behind them, changes or drops
filters, renames the sort, or sets the time range.

Results:
1. `respond_keeps` and `respond_timeRange`: what one response leaves as it is.
2. `Answered.all_from`: what all responses to a round leave as it is.
3. `Run.keeps`, `Run.staysOpen` and `Run.timeRange`: the same for any number of rounds.
4. `run_invariant`: what holds in every round of a run.
-/

namespace MetricLayer

open Mapping

/-! ## What stays the same -/

/-- Every item keeps its place, changed as the relation allows; others may follow. -/
def Extends {α : Type} (rel : α → α → Prop) (xs ys : List α) : Prop :=
  ∀ (i : Nat) (x : α), xs[i]? = some x → ∃ y, ys[i]? = some y ∧ rel x y

namespace Extends

variable {α : Type} {rel : α → α → Prop}

theorem refl (h : ∀ x, rel x x) (xs : List α) : Extends rel xs xs := fun _ x hx => ⟨x, hx, h x⟩

theorem trans (h : ∀ x y z, rel x y → rel y z → rel x z) {xs ys zs : List α}
    (hxy : Extends rel xs ys) (hyz : Extends rel ys zs) : Extends rel xs zs := by
  intro i x hx
  obtain ⟨y, hy, hrel⟩ := hxy i x hx
  obtain ⟨z, hz, hrel'⟩ := hyz i y hy
  exact ⟨z, hz, h x y z hrel hrel'⟩

theorem append (h : ∀ x, rel x x) (xs ys : List α) : Extends rel xs (xs ++ ys) := by
  intro i x hx
  exact ⟨x, by rw [List.getElem?_append_left (List.getElem?_eq_some_iff.mp hx).1, hx], h x⟩

theorem changeWhere (p : α → Bool) {f : α → α} (h : ∀ x, rel x x) (hf : ∀ x, rel x (f x))
    (xs : List α) : Extends rel xs (changeWhere p f xs) := by
  intro i x hx
  refine ⟨if p x then f x else x, by simp [MetricLayer.changeWhere, hx], ?_⟩
  split
  · exact hf x
  · exact h x

end Extends

/-- The mention is the same one, at most with another entry chosen for it. -/
def MetricMention.Pins (m m' : MetricMention) : Prop :=
  m' = m ∨ ∃ entry, m' = { m with pinned := some entry }

/-- The mention is the same one, at most with another entry chosen for it. -/
def DimensionMention.Pins (x x' : DimensionMention) : Prop :=
  x' = x ∨ ∃ entry, x' = { x with pinned := some entry }

theorem MetricMention.Pins.trans (a b c : MetricMention) (h : a.Pins b) (h' : b.Pins c) :
    a.Pins c := by
  rcases h with rfl | ⟨_, rfl⟩
  · exact h'
  · rcases h' with rfl | ⟨entry, rfl⟩
    · exact .inr ⟨_, rfl⟩
    · exact .inr ⟨entry, rfl⟩

theorem DimensionMention.Pins.trans (a b c : DimensionMention) (h : a.Pins b) (h' : b.Pins c) :
    a.Pins c := by
  rcases h with rfl | ⟨_, rfl⟩
  · exact h'
  · rcases h' with rfl | ⟨entry, rfl⟩
    · exact .inr ⟨_, rfl⟩
    · exact .inr ⟨entry, rfl⟩

/-- What responses leave of a request as it is. -/
structure Request.Keeps (r r' : Request) : Prop where
  question : r'.question = r.question
  limit : r'.limit = r.limit
  comparisons : r'.comparisons = r.comparisons
  confidence : r'.overallConfidence = r.overallConfidence
  metrics : Extends MetricMention.Pins r.metrics r'.metrics
  dimensions : Extends DimensionMention.Pins r.dimensions r'.dimensions
  /-- Filters may be dropped, but none is added, and each keeps its phrase. -/
  fields : (r'.filters.map (·.field)).Sublist (r.filters.map (·.field))
  direction : r'.sortBy.map (·.direction) = r.sortBy.map (·.direction)

namespace Request

namespace Keeps

theorem refl (r : Request) : r.Keeps r :=
  ⟨rfl, rfl, rfl, rfl, .refl (fun _ => .inl rfl) _, .refl (fun _ => .inl rfl) _, .refl _, rfl⟩

theorem trans {a b c : Request} (h : a.Keeps b) (h' : b.Keeps c) : a.Keeps c where
  question := h'.question.trans h.question
  limit := h'.limit.trans h.limit
  comparisons := h'.comparisons.trans h.comparisons
  confidence := h'.confidence.trans h.confidence
  metrics := h.metrics.trans MetricMention.Pins.trans h'.metrics
  dimensions := h.dimensions.trans DimensionMention.Pins.trans h'.dimensions
  fields := h'.fields.trans h.fields
  direction := h'.direction.trans h.direction

end Keeps

/-! ## One response -/

theorem pinMetrics_keeps (term answer : String) (r : Request) :
    r.Keeps (r.pinMetrics term answer) :=
  { Keeps.refl r with
    metrics := .changeWhere _ (fun _ => .inl rfl) (fun _ => .inr ⟨answer, rfl⟩) _ }

theorem pinDimensions_keeps (term answer : String) (r : Request) :
    r.Keeps (r.pinDimensions term answer) :=
  { Keeps.refl r with
    dimensions := .changeWhere _ (fun _ => .inl rfl) (fun _ => .inr ⟨answer, rfl⟩) _ }

theorem addMetric_keeps (name answer : String) (r : Request) : r.Keeps (r.addMetric name answer) :=
  { Keeps.refl r with metrics := .append (fun _ => .inl rfl) _ _ }

theorem addDimension_keeps (name answer : String) (r : Request) :
    r.Keeps (r.addDimension name answer) :=
  { Keeps.refl r with dimensions := .append (fun _ => .inl rfl) _ _ }

/-- Filters that are changed one by one keep their phrases. -/
theorem fields_map {f : FilterMention → FilterMention} (hf : ∀ x, (f x).field = x.field)
    (fs : List FilterMention) : (fs.map f).map (·.field) = fs.map (·.field) := by
  rw [List.map_map]
  exact List.map_congr_left fun x _ => hf x

theorem pinFilters_keeps (term answer : String) (r : Request) :
    r.Keeps (r.pinFilters term answer) := by
  have hfields : (r.pinFilters term answer).filters.map (·.field) = r.filters.map (·.field) :=
    fields_map (fun x => by split <;> rfl) r.filters
  exact { Keeps.refl r with fields := by rw [hfields] }

theorem nameSort_keeps (term answer : String) (r : Request) : r.Keeps (r.nameSort term answer) := by
  refine { Keeps.refl r with direction := ?_ }
  rw [nameSort, Option.map_map]
  refine Option.map_congr fun s _ => ?_
  simp only [Function.comp_apply]
  split <;> rfl

theorem pin_keeps (r : Request) (c : Conflict) (answer : String) :
    r.Keeps (r.pin c answer).1 := by
  have helsewhere (r' : Request) (h : r.Keeps r') :
      r.Keeps ((r'.pinFilters c.term answer).nameSort c.term answer) :=
    (h.trans (pinFilters_keeps c.term answer r')).trans (nameSort_keeps c.term answer _)
  unfold pin
  cases c.entity
  case metric =>
    simp only
    split
    · exact pinMetrics_keeps c.term answer r
    · split
      · exact addMetric_keeps c.term answer r
      · exact .refl r
  case dimension =>
    simp only
    split
    · exact helsewhere _ (pinDimensions_keeps c.term answer r)
    · split
      · exact helsewhere _ (addDimension_keeps c.term answer r)
      · exact helsewhere r (.refl r)
  case filter =>
    simp only
    split
    · exact pinFilters_keeps c.term answer r
    · exact .refl r
  case sort =>
    simp only
    split
    · exact nameSort_keeps c.term answer r
    · exact .refl r
  case timeRange => exact { Keeps.refl r with }

theorem replaceValues_keeps (r : Request) (c : Conflict) (answer : String) :
    r.Keeps (r.replaceValues c answer).1 := by
  have hfield : ∀ f : FilterMention,
      ((replaceValue? c.term (c.value.getD "") answer f).getD f).field = f.field := by
    intro f
    unfold replaceValue?
    split
    · cases f.value.replace? (c.value.getD "") answer <;> rfl
    · rfl
  unfold replaceValues
  simp only
  split
  · exact { Keeps.refl r with fields := by rw [fields_map hfield] }
  · exact .refl r

theorem keepFirst_fields (involved p : FilterMention → Bool) {change : FilterMention → FilterMention}
    (hchange : ∀ f, (change f).field = f.field) (fs : List FilterMention) :
    ((keepFirst involved p change fs).map (·.field)).Sublist (fs.map (·.field)) := by
  induction fs with
  | nil => exact .refl _
  | cons f fs ih =>
    unfold keepFirst
    split
    · split
      · rw [List.map_cons, List.map_cons, hchange]
        exact (List.filter_sublist.map _).cons_cons _
      · exact ih.cons _
    · exact ih.cons_cons _

theorem decideFilters_keeps (r : Request) (c : Conflict) (answer : String) :
    r.Keeps (r.decideFilters c answer).1 := by
  unfold decideFilters
  simp only
  split
  · exact .refl r
  · refine { Keeps.refl r with fields := ?_ }
    simp only
    split
    · exact keepFirst_fields (isInvolved c) _ (by simp) r.filters
    · split
      · exact List.filter_sublist.map _
      · split
        · exact keepFirst_fields (isInvolved c) _ (fun _ => rfl) r.filters
        · exact keepFirst_fields (isInvolved c) _ (by simp) r.filters

/-- A response leaves most of a request as it is. -/
theorem respond_keeps (r : Request) (c : Conflict) (response : String) :
    r.Keeps (r.respond c response).1 := by
  unfold respond
  simp only
  split
  · exact .refl r
  · cases c.kind
    case ambiguous | unknown => exact pin_keeps r c _
    case missingRequired =>
      simp only
      split
      · exact addDimension_keeps _ _ r
      · exact addMetric_keeps _ _ r
    case invalidValue => exact replaceValues_keeps r c _
    case conflicting => exact decideFilters_keeps r c _

/-- A response leaves the open conflicts as they are, and the time range where that is not what the
conflict is about. -/
theorem respond_timeRange (r : Request) (c : Conflict) (response : String) :
    (r.respond c response).1.conflicts = r.conflicts ∧
      ((r.respond c response).1.timeRange = r.timeRange ∨
        c.entity = .timeRange ∧ (r.respond c response).2 = none) := by
  have hpin (answer : String) : (r.pin c answer).1.conflicts = r.conflicts ∧
      ((r.pin c answer).1.timeRange = r.timeRange ∨
        c.entity = .timeRange ∧ (r.pin c answer).2 = none) := by
    unfold pin
    cases c.entity
    case timeRange => exact ⟨rfl, .inr ⟨rfl, rfl⟩⟩
    all_goals
      simp only
      repeat' split
      all_goals exact ⟨rfl, .inl rfl⟩
  unfold respond
  simp only
  split
  · exact ⟨rfl, .inl rfl⟩
  · cases c.kind
    case ambiguous | unknown => exact hpin _
    case missingRequired =>
      simp only
      split <;> exact ⟨rfl, .inl rfl⟩
    case invalidValue =>
      simp only [replaceValues]
      split <;> exact ⟨rfl, .inl rfl⟩
    case conflicting =>
      simp only [decideFilters]
      split <;> exact ⟨rfl, .inl rfl⟩

end Request

/-! ## All responses to a round -/

namespace Answered

/-- What the responses so far have left of the request as it was. -/
structure From (r : Request) (a : Answered) : Prop where
  keeps : r.Keeps a.request
  conflicts : a.request.conflicts = r.conflicts
  /-- The time range changes only in answer to a question about it. -/
  timeRange : a.request.timeRange = r.timeRange ∨
    ∃ c ∈ r.conflicts, c.entity = .timeRange ∧ c.id ∈ a.ids

theorem step_from {r : Request} {a : Answered} (h : a.From r) (p : String × String) :
    (step r.conflicts a p).From r := by
  rcases step_cases r.conflicts a p with ⟨-, hstep⟩ | ⟨c, hc, hid, hstep⟩
  · rw [hstep]
    exact ⟨h.keeps, h.conflicts, h.timeRange⟩
  · have hkeeps := h.keeps.trans (a.request.respond_keeps c p.2)
    obtain ⟨hconflicts, htime⟩ := a.request.respond_timeRange c p.2
    generalize a.request.respond c p.2 = answer at hkeeps hconflicts htime hstep
    rcases hstep with ⟨hnone, hstep⟩ | ⟨e, hsome, hstep⟩ <;> rw [hstep]
    · refine ⟨hkeeps, hconflicts.trans h.conflicts, ?_⟩
      rcases htime with htime | ⟨hentity, -⟩
      · rcases h.timeRange with hsame | ⟨c', hc', hentity, hid'⟩
        · exact .inl (htime.trans hsame)
        · exact .inr ⟨c', hc', hentity, List.mem_append_left _ hid'⟩
      · exact .inr ⟨c, hc, hentity, by simp [hid]⟩
    · refine ⟨hkeeps, hconflicts.trans h.conflicts, ?_⟩
      rcases htime with htime | ⟨-, hnone⟩
      · simp only [htime]
        exact h.timeRange
      · rw [hsome] at hnone
        cases hnone

/-- The responses to a round leave most of its request as it is. -/
theorem all_from (r : Request) (responses : Responses) : (all r responses).From r :=
  List.foldlRecOn (motive := fun a : Answered => a.From r) _ _
    ⟨.refl r, rfl, .inl rfl⟩ fun _ h p _ => step_from h p

end Answered

/-! ## Any number of rounds -/

/-- Rounds over one dictionary and schema that follow each other, with the responses to each but the
last. Settings and day are those of whoever serves the round. -/
inductive Run (dictionary : Dictionary) (schema : Schema) :
    Round → List (Round × Responses) → Round → Prop
  | refl (round : Round) : Run dictionary schema round [] round
  | answer {first mid next : Round} {turns : List (Round × Responses)} {responses : Responses}
      (settings : MappingSettings) (today : Date) :
      Run dictionary schema first turns mid →
      Context.apply ⟨dictionary, schema, settings, today⟩ mid.request responses = .ok next →
      Run dictionary schema first (turns ++ [(mid, responses)]) next

/-- One of the responses to a conflict of the id was not refused. -/
def AnsweredIn (turns : List (Round × Responses)) (id : String) : Prop :=
  ∃ turn ∈ turns, id ∈ (Answered.all turn.1.request turn.2).ids

theorem AnsweredIn.append_left {turns turns' : List (Round × Responses)} {id : String}
    (h : AnsweredIn turns id) : AnsweredIn (turns ++ turns') id := by
  obtain ⟨turn, hturn, hid⟩ := h
  exact ⟨turn, List.mem_append_left _ hturn, hid⟩

/-- The round maps some request over the dictionary and the schema. -/
def Round.IsMapping (dictionary : Dictionary) (schema : Schema) (round : Round) : Prop :=
  ∃ settings today r, round.Of ⟨dictionary, schema, settings, today⟩ r

/-- What a round hands out fits together. -/
structure Round.Consistent (stamp : String) (round : Round) : Prop where
  state : round.state = .resolved ∧ round.outcome.conflicts = [] ∨
    round.state = .needsClarification ∧ round.outcome.conflicts ≠ []
  distinct : (round.outcome.conflicts.map (·.id)).Nodup
  prompts : round.prompts = round.outcome.conflicts.map Conflict.prompt
  asked : round.prompts.map (·.conflictId) = round.outcome.conflicts.map (·.id)
  conflicts : round.request.conflicts = round.outcome.conflicts
  snapshot : round.request.snapshot = some stamp

theorem Round.Of.consistent {ctx : Mapping.Context} {r : Request} {round : Round}
    (h : round.Of ctx r) : round.Consistent ctx.stamp where
  state := h.state
  distinct := by
    rw [h.outcome]
    exact map_ids_nodup ctx r
  prompts := h.prompts
  asked := by
    rw [h.prompts, List.map_map]
    rfl
  conflicts := by rw [h.request]
  snapshot := by rw [h.request]

/-- The reported conflicts that are not answered are taken as they are by the next mapping. -/
theorem Round.Of.reportedDraft_open {ctx : Mapping.Context} {r : Request} {round : Round}
    (h : round.Of ctx r) {a : Answered} (ha : a.request.conflicts = round.request.conflicts) :
    Context.reportedDraft a.openRequest = { conflicts := a.openRequest.conflicts } := by
  -- what stays open was open before: its ids differ, and its marks are there already
  have hsublist : a.openRequest.conflicts.Sublist (ctx.map r).conflicts := by
    have hopen : round.request.conflicts = (ctx.map r).conflicts := by rw [h.request, h.outcome]
    rw [← hopen, ← ha]
    exact List.filter_sublist
  refine reportedDraft_same (fun c hc => ?_) ((map_ids_nodup ctx r).sublist (hsublist.map _))
  obtain ⟨-, hopen⟩ := List.mem_filter.mp hc
  exact isReported_of_mem (hsublist.subset hc) (Bool.and_eq_true_iff.mp hopen).1

/-- An open conflict that came with the request is still open after the next round, unless a
response to it was not refused. -/
theorem Round.Of.staysOpen {ctx ctx' : Mapping.Context} {r : Request} {round : Round}
    (h : round.Of ctx r) (responses : Responses) {c : Conflict} (hc : c ∈ round.request.conflicts)
    (hreported : c.reported = true) :
    c ∈ (Context.apply.continued ctx' round.request responses).request.conflicts ∨
      c.id ∈ (Answered.all round.request responses).ids := by
  rw [or_iff_not_imp_right]
  intro hid
  have hconflicts := (Answered.all_from round.request responses).conflicts
  have hnext := ctx'.continued_of round.request responses
  generalize Answered.all round.request responses = a at hid hconflicts hnext
  obtain ⟨cs, hcs, -⟩ := map_conflicts ctx' a.openRequest
  rw [hnext.request, hnext.outcome, hcs, h.reportedDraft_open hconflicts]
  refine List.mem_append_left _ (List.mem_filter.mpr ⟨hconflicts ▸ hc, ?_⟩)
  simp [hreported, hid]

namespace Run

variable {dictionary : Dictionary} {schema : Schema} {first last : Round}
  {turns : List (Round × Responses)}

theorem isMapping (h : Run dictionary schema first turns last)
    (hfirst : first.IsMapping dictionary schema) : last.IsMapping dictionary schema := by
  cases h with
  | refl => exact hfirst
  | answer settings today _ h =>
    exact ⟨settings, today, _, Context.apply_eq_ok h ▸ Context.continued_of _ _ _⟩

theorem trans {mid : Round} {turns' : List (Round × Responses)}
    (h : Run dictionary schema first turns mid) (h' : Run dictionary schema mid turns' last) :
    Run dictionary schema first (turns ++ turns') last := by
  induction h' with
  | refl => rwa [List.append_nil]
  | answer settings today _ happly ih =>
    rw [← List.append_assoc]
    exact ih.answer settings today happly

theorem keeps (h : Run dictionary schema first turns last) :
    first.request.Keeps last.request := by
  induction h with
  | refl => exact .refl _
  | @answer mid _ _ responses settings today _ h ih =>
    obtain rfl := Context.apply_eq_ok h
    have hfrom := Answered.all_from mid.request responses
    exact ih.trans { hfrom.keeps with }

/-- A conflict that came with the request stays open until a response to it is not refused. -/
theorem staysOpen (h : Run dictionary schema first turns last)
    (hfirst : first.IsMapping dictionary schema) {c : Conflict}
    (hc : c ∈ first.request.conflicts) (hreported : c.reported = true) :
    c ∈ last.request.conflicts ∨ AnsweredIn turns c.id := by
  induction h with
  | refl => exact .inl hc
  | @answer mid _ _ responses settings today hrun h ih =>
    obtain rfl := Context.apply_eq_ok h
    obtain ⟨_, _, r, hmid⟩ := hrun.isMapping hfirst
    -- once it is answered nothing is said about it any more
    rcases ih with hopen | hanswered
    · refine (hmid.staysOpen responses hopen hreported).imp_right fun hid => ?_
      exact ⟨(mid, responses), by simp, hid⟩
    · exact .inr hanswered.append_left

/-- The time range changes only in answer to a question about it. -/
theorem timeRange (h : Run dictionary schema first turns last) :
    last.request.timeRange = first.request.timeRange ∨ ∃ turn ∈ turns,
      ∃ c ∈ turn.1.request.conflicts, c.entity = .timeRange ∧
        c.id ∈ (Answered.all turn.1.request turn.2).ids := by
  induction h with
  | refl => exact .inl rfl
  | @answer mid _ _ responses settings today _ h ih =>
    obtain rfl := Context.apply_eq_ok h
    rcases (Answered.all_from mid.request responses).timeRange with hsame | hanswered
    · rcases ih with hsame' | ⟨turn, hturn, hanswered⟩
      · exact .inl (hsame.trans hsame')
      · exact .inr ⟨turn, List.mem_append_left _ hturn, hanswered⟩
    · exact .inr ⟨(mid, responses), by simp, hanswered⟩

end Run

/-- A conflict that came with the request is open in the first round, by its id. -/
theorem begin_reported (ctx : Mapping.Context) (r : Request) {c : Conflict} (hc : c ∈ r.conflicts) :
    ∃ c' ∈ (ctx.begin r).request.conflicts, c'.id = c.ensureId.id ∧ c'.reported = true := by
  let marked (c : Conflict) := ({ c with reported := true } : Conflict).ensureId
  have hid : (marked c).id = c.ensureId.id := by
    simp only [marked, Conflict.ensureId]
    split <;> rfl
  have hdraft : Context.reportedDraft r = (r.conflicts.map marked).foldl Draft.raise {} :=
    List.foldl_map.symm
  have hthere : (marked c).id ∈ (Context.reportedDraft r).conflicts.map (·.id) := by
    rw [hdraft]
    exact Draft.ids_mem_foldl_raise _ {} _ (List.mem_map_of_mem hc)
  obtain ⟨c', hc', hid'⟩ := List.mem_map.mp hthere
  obtain ⟨cs, hcs, -⟩ := map_conflicts ctx r
  have hbegin := ctx.begin_of r
  refine ⟨c', ?_, hid'.trans hid, (reportedDraft_isReported r c' hc').reported⟩
  rw [hbegin.request, hbegin.outcome, hcs]
  exact List.mem_append_left _ hc'

/-- In every round of every run of rounds over one dictionary and schema, whatever the responses are:
the round is resolved if no conflict is open and asks about all of them otherwise; what it hands out
fits together and can be answered; a conflict that came with the request stays open until a response
to it is not refused, counted from any round of the run; and of the first request everything is
kept that `Request.Keeps` names, and the time range unless a question about it was answered. -/
theorem run_invariant {dictionary : Dictionary} {schema : Schema} (settings : MappingSettings)
    (today : Date) (r : Request) {past turns : List (Round × Responses)} {mid last : Round}
    (hpast : Run dictionary schema (Context.begin ⟨dictionary, schema, settings, today⟩ r) past mid)
    (hturns : Run dictionary schema mid turns last) :
    last.Consistent (Stamp.ofFingerprints dictionary.fingerprint schema.fingerprint) ∧
      (∀ c ∈ mid.request.conflicts, c.reported = true →
        c ∈ last.request.conflicts ∨ AnsweredIn turns c.id) ∧
      (∀ c ∈ r.conflicts, c.ensureId.id ∈ last.request.conflicts.map (·.id) ∨
        AnsweredIn (past ++ turns) c.ensureId.id) ∧
      r.Keeps last.request ∧
      (last.request.timeRange = r.timeRange ∨ ∃ turn ∈ past ++ turns,
        ∃ c ∈ turn.1.request.conflicts, c.entity = .timeRange ∧
          c.id ∈ (Answered.all turn.1.request turn.2).ids) ∧
      ∀ settings today responses, ∃ next,
        Context.apply ⟨dictionary, schema, settings, today⟩ last.request responses = .ok next := by
  have hbegin := Context.begin_of ⟨dictionary, schema, settings, today⟩ r
  have hmid := hpast.isMapping ⟨settings, today, r, hbegin⟩
  obtain ⟨settings', today', r', hlast⟩ := hturns.isMapping hmid
  have hrun := hpast.trans hturns
  refine ⟨hlast.consistent, fun c hc hreported => hturns.staysOpen hmid hc hreported,
    ?_, ?_, ?_, ?_⟩
  · -- the first round marks the conflicts of the request and gives them their ids
    intro c hc
    obtain ⟨c', hc', hid, hreported⟩ := begin_reported ⟨dictionary, schema, settings, today⟩ r hc
    rw [← hid]
    exact (hrun.staysOpen ⟨settings, today, r, hbegin⟩ hc' hreported).imp_left List.mem_map_of_mem
  · have hfirst : r.Keeps (Context.begin ⟨dictionary, schema, settings, today⟩ r).request :=
      { Request.Keeps.refl r with }
    exact hfirst.trans hrun.keeps
  · have htime := hrun.timeRange
    rw [hbegin.request] at htime
    exact htime
  · -- settings and day are no part of a stamp
    intro settings today responses
    have hstamp : Context.stamp ⟨dictionary, schema, settings, today⟩ =
        Context.stamp ⟨dictionary, schema, settings', today'⟩ := by
      simp only [Context.stamp]
    exact ⟨_, Context.apply_isOk hstamp hlast responses⟩

namespace Wagers

/-- The first round about the wagers, an answer that is too short, and the round after it. -/
def shortAnswer : Responses := [("invalid_value|filter|title|Ch", "Chess")]

theorem shortAnswer_run : Run dictionary schema (context.begin halfRange)
    [(context.begin halfRange, shortAnswer)]
    (Context.apply.continued context (context.begin halfRange).request shortAnswer) :=
  (Run.refl _).answer {} Date.first
    (Context.apply_isOk rfl (context.begin_of halfRange) shortAnswer)

/-- The conflict that came with the request about the wagers is open after the answer. -/
theorem run_invariant_shortAnswer :
    Run dictionary schema (context.begin halfRange) [] (context.begin halfRange) ∧
    Run dictionary schema (context.begin halfRange) [(context.begin halfRange, shortAnswer)]
      (Context.apply.continued context (context.begin halfRange).request shortAnswer) ∧
    (Context.apply.continued context (context.begin halfRange).request shortAnswer).Consistent
      (Stamp.ofFingerprints dictionary.fingerprint schema.fingerprint) ∧
    (∀ c ∈ (context.begin halfRange).request.conflicts, c.reported = true →
      c ∈ (Context.apply.continued context (context.begin halfRange).request
        shortAnswer).request.conflicts ∨
          AnsweredIn [(context.begin halfRange, shortAnswer)] c.id) ∧
    halfRange.Keeps
      (Context.apply.continued context (context.begin halfRange).request shortAnswer).request := by
  have h := run_invariant {} Date.first halfRange (Run.refl (context.begin halfRange)) shortAnswer_run
  exact ⟨.refl _, shortAnswer_run, h.1, h.2.1, h.2.2.2.1⟩

end Wagers

end MetricLayer
