import MetricLayer.Clarification.Round
import MetricLayer.Proofs.Report.Raised
import MetricLayer.Proofs.Translation.Resolved

/-!
# Rounds that are handed out

No state is kept between rounds, so all that the next mapping knows is in the request that comes
back. It holds the conflicts of the last mapping, those that came with the request marked as
reported. These are kept, and all others are found again. So a request that comes back without an
answer is mapped as before, whatever conflicts it came with.

Results:
1. `Context.HandsOut.of`: what a round is, given the request that it maps.
2. `Context.continue_isOk`: the request of a round is taken back under the same definitions.
3. `map_openConflicts`: a request is mapped as before with the reported ones of its open conflicts.
4. `apply_unanswered`: without an answer to an open conflict the next round is the same.
-/

namespace MetricLayer

open Mapping

/-! ## What a round is -/

/-- The round maps the request, asks about the conflicts that are open then, and hands them out. -/
structure Round.Of (ctx : Mapping.Context) (r : Request) (round : Round) : Prop where
  outcome : round.outcome = ctx.map r
  request : round.request =
    { r with conflicts := round.outcome.conflicts, snapshot := some ctx.stamp }
  prompts : round.prompts = round.outcome.conflicts.map Conflict.prompt
  state : round.state = .resolved ∧ round.outcome.conflicts = [] ∨
    round.state = .needsClarification ∧ round.outcome.conflicts ≠ []

/-- Rounds with one mapping differ in their warnings only. -/
theorem Round.Of.eq {ctx : Mapping.Context} {r r' : Request} {round round' : Round}
    (h : round.Of ctx r) (h' : round'.Of ctx r') (houtcome : ctx.map r' = ctx.map r)
    (hrequest : { r' with conflicts := r.conflicts, snapshot := r.snapshot } = r) :
    round' = { round with warnings := round'.warnings } := by
  have hsame : round'.outcome = round.outcome := by rw [h.outcome, h'.outcome, houtcome]
  have hstate : round'.state = round.state := by
    -- a state tells whether a conflict is open, and nothing else
    rcases h.state with ⟨hs, hcs⟩ | ⟨hs, hcs⟩ <;> rcases h'.state with ⟨hs', hcs'⟩ | ⟨hs', hcs'⟩
    · rw [hs, hs']
    · exact absurd (hsame ▸ hcs) hcs'
    · exact absurd (hsame ▸ hcs') hcs
    · rw [hs, hs']
  have hrequest' : round'.request = round.request := by
    rw [h.request, h'.request, hsame, ← hrequest]
  have hprompts : round'.prompts = round.prompts := by rw [h.prompts, h'.prompts, hsame]
  rw [← hsame, ← hstate, ← hrequest', ← hprompts]

namespace Mapping

variable {ctx : Context}

namespace Context

/-- The round is one that the context hands out. -/
inductive HandsOut (ctx : Context) : Round → Prop
  | begin (r : Request) : HandsOut ctx (ctx.begin r)
  | apply {r : Request} {responses : Responses} {round : Round} :
      ctx.apply r responses = .ok round → HandsOut ctx round

theorem round_of (ctx : Context) (r : Request) {state : ClarificationState}
    (hstate : state = .mapped ∨ state = .clarified) (warnings : List RoundWarning) :
    (ctx.round r state warnings).Of ctx r where
  outcome := rfl
  request := rfl
  prompts := rfl
  state := by
    simp only [Context.round]
    cases (ctx.map r).conflicts with
    | nil => exact .inl ⟨by rcases hstate with rfl | rfl <;> rfl, rfl⟩
    | cons c cs => exact .inr ⟨by rcases hstate with rfl | rfl <;> rfl, List.cons_ne_nil c cs⟩

theorem begin_of (ctx : Context) (r : Request) : (ctx.begin r).Of ctx r :=
  ctx.round_of r (.inl rfl) []

theorem continued_of (ctx : Context) (r : Request) (responses : Responses) :
    (apply.continued ctx r responses).Of ctx (Answered.all r responses).openRequest :=
  have h := ctx.round_of (Answered.all r responses).openRequest (.inr rfl)
    (Answered.all r responses).warnings
  ⟨h.outcome, h.request, h.prompts, h.state⟩

/-- Answers are taken where the stamp is the current one or there is none. -/
theorem apply_eq_ok {r : Request} {responses : Responses} {round : Round}
    (h : ctx.apply r responses = .ok round) : round = apply.continued ctx r responses := by
  unfold apply at h
  split at h
  · split at h
    · exact (Except.ok.inj h).symm
    · cases h
  · exact (Except.ok.inj h).symm

/-- A round that is handed out maps some request. -/
theorem HandsOut.of {round : Round} (h : ctx.HandsOut round) : ∃ r, round.Of ctx r := by
  cases h with
  | begin r => exact ⟨r, ctx.begin_of r⟩
  | apply h => exact ⟨_, apply_eq_ok h ▸ ctx.continued_of _ _⟩

/-- The request of a round is taken back under the same definitions. -/
theorem apply_isOk {ctx' : Context} (hstamp : ctx'.stamp = ctx.stamp) {r : Request} {round : Round}
    (h : round.Of ctx r) (responses : Responses) :
    ctx'.apply round.request responses = .ok (apply.continued ctx' round.request responses) := by
  unfold apply
  rw [h.request]
  simp only [hstamp, if_true]

end Context

/-! ## The conflicts that came with a request -/

/-- A conflict that came with a request is marked so, and has an id. -/
structure IsReported (c : Conflict) : Prop where
  reported : c.reported = true
  hasId : c.id.isEmpty = false

theorem idOf_isEmpty (kind : ConflictKind) (entity : EntityKind) (term : String)
    (value : Option String) : (Conflict.idOf kind entity term value).isEmpty = false := by
  have hkind : kind.name ≠ "" := by cases kind <;> decide
  simp [Conflict.idOf, hkind]

theorem ensureId_isReported (c : Conflict) :
    IsReported ({ c with reported := true } : Conflict).ensureId := by
  unfold Conflict.ensureId
  split
  · exact ⟨rfl, idOf_isEmpty _ _ _ _⟩
  · next h => exact ⟨rfl, by simpa using h⟩

/-- A conflict that came with a request stays as it is when it comes back. -/
theorem IsReported.ensureId_eq {c : Conflict} (h : IsReported c) :
    ({ c with reported := true } : Conflict).ensureId = c := by
  have hsame : ({ c with reported := true } : Conflict) = c := by
    rw [← h.reported]
  rw [hsame, Conflict.ensureId, h.hasId]
  rfl

/-- Raising conflicts changes nothing else. -/
theorem foldl_raise_eq (cs : List Conflict) (d : Draft) :
    cs.foldl Draft.raise d = { d with conflicts := (cs.foldl Draft.raise d).conflicts } := by
  induction cs generalizing d with
  | nil => rfl
  | cons c cs ih =>
    rw [List.foldl_cons, ih]
    rfl

theorem reportedDraft_eq (r : Request) :
    Context.reportedDraft r = { conflicts := (Context.reportedDraft r).conflicts } := by
  unfold Context.reportedDraft
  rw [← List.foldl_map]
  exact foldl_raise_eq _ {}

/-- Conflicts with ids of their own are all raised. -/
theorem foldl_raise_distinct (cs : List Conflict) (d : Draft)
    (h : (d.conflicts ++ cs).Pairwise (·.id ≠ ·.id)) :
    cs.foldl Draft.raise d = { d with conflicts := d.conflicts ++ cs } := by
  induction cs generalizing d with
  | nil => rw [List.append_nil]; rfl
  | cons c cs ih =>
    -- the ids differ, so nothing of the draft stands in the way of the next conflict
    have hnew : d.conflicts.any (·.id = c.id) = false := by
      rw [List.any_eq_false]
      intro c' hc'
      simpa using (List.pairwise_append.mp h).2.2 c' hc' c List.mem_cons_self
    have hraise : d.raise c = { d with conflicts := d.conflicts ++ [c] } := by
      rw [Draft.raise, Conflict.insert, hnew]
      rfl
    rw [List.foldl_cons, hraise, ih _ (by simpa using h)]
    simp only [List.append_assoc, List.singleton_append]

theorem reportedDraft_raises (r : Request) :
    Draft.Raises IsReported {} (Context.reportedDraft r) :=
  .foldl (fun d c _ => .raise (ensureId_isReported c) d) _

theorem reportedDraft_isReported (r : Request) :
    ∀ c ∈ (Context.reportedDraft r).conflicts, IsReported c := fun _ hc =>
  ((reportedDraft_raises r).mem hc).resolve_left List.not_mem_nil

theorem reportedDraft_distinct (r : Request) :
    (Context.reportedDraft r).ids.Nodup :=
  (reportedDraft_raises r).distinct List.nodup_nil

/-- The conflicts that came with a request are first among the open ones, and stay as they are. -/
theorem map_conflicts (ctx : Context) (r : Request) :
    ∃ cs, (ctx.map r).conflicts = (Context.reportedDraft r).conflicts ++ cs ∧
      ∀ c ∈ cs, ctx.Raised r c := by
  rw [ctx.map_eq]
  exact (map_raises ctx r).added

/-- No two open conflicts have one id. -/
theorem map_ids_nodup (ctx : Context) (r : Request) : ((ctx.map r).conflicts.map (·.id)).Nodup := by
  rw [ctx.map_eq]
  exact (map_raises ctx r).distinct (reportedDraft_distinct r)

/-- The reported ones of the open conflicts are those that came with the request. -/
theorem filter_reported (ctx : Context) (r : Request) :
    (ctx.map r).conflicts.filter (·.reported) = (Context.reportedDraft r).conflicts := by
  obtain ⟨cs, hcs, hraised⟩ := map_conflicts ctx r
  have hfirst := List.filter_eq_self.mpr fun c hc => (reportedDraft_isReported r c hc).reported
  have hrest : cs.filter (·.reported) = [] :=
    List.filter_eq_nil_iff.mpr fun c hc => by simp [(hraised c hc).reported]
  rw [hcs, List.filter_append, hfirst, hrest, List.append_nil]

/-- The mapping depends on the conflicts of a request only through those that are reported. -/
theorem map_congr {r : Request} {cs : List Conflict} (snapshot : Option String)
    (h : Context.reportedDraft { r with conflicts := cs } = Context.reportedDraft r) :
    ctx.map { r with conflicts := cs, snapshot } = ctx.map r := by
  unfold Context.reportedDraft at h
  unfold Context.map
  rw [h]
  rfl

/-- An open conflict that did not come with the request was raised by the mapping. -/
theorem raised_of_open {ctx : Context} {r : Request} {round : Round} (hround : round.Of ctx r)
    {c : Conflict} (hopen : c ∈ round.request.conflicts) (hfound : c.reported = false) :
    ctx.Raised r c := by
  rw [hround.request, hround.outcome] at hopen
  obtain ⟨cs, hcs, hraised⟩ := map_conflicts ctx r
  rw [hcs] at hopen
  rcases List.mem_append.mp hopen with hin | hin
  · have hreported := (reportedDraft_isReported r c hin).reported
    rw [hfound] at hreported
    cases hreported
  · exact hraised c hin

/-- An open conflict is known by its id. -/
theorem open_unique {ctx : Context} {r : Request} {round : Round} (hround : round.Of ctx r)
    {c c' : Conflict} (hc : c ∈ round.request.conflicts) (hc' : c' ∈ round.request.conflicts)
    (hid : c'.id = c.id) : c' = c := by
  have hnodup : (round.request.conflicts.map (·.id)).Nodup := by
    rw [hround.request, hround.outcome]
    exact map_ids_nodup ctx r
  exact List.inj_on_of_nodup_map hnodup hc' hc hid

/-- The reported ones of the open conflicts came with the request. -/
theorem isReported_of_mem {ctx : Context} {r : Request} {c : Conflict}
    (hc : c ∈ (ctx.map r).conflicts) (hreported : c.reported = true) : IsReported c := by
  refine reportedDraft_isReported r c ?_
  rw [← filter_reported ctx r]
  exact List.mem_filter.mpr ⟨hc, hreported⟩

/-- Conflicts that came with a request before are taken as they are. -/
theorem reportedDraft_same {r : Request} (h : ∀ c ∈ r.conflicts, IsReported c)
    (hids : (r.conflicts.map (·.id)).Nodup) :
    Context.reportedDraft r = { conflicts := r.conflicts } := by
  have hsame : r.conflicts.foldl
      (fun d c => d.raise ({ c with reported := true } : Conflict).ensureId) {} =
        r.conflicts.foldl Draft.raise {} :=
    List.foldl_ext _ _ _ fun d c hc => by rw [(h c hc).ensureId_eq]
  rw [Context.reportedDraft, hsame]
  exact foldl_raise_distinct r.conflicts {} (List.pairwise_map.mp hids)

/-- A request with the reported ones of its open conflicts is mapped as before. -/
theorem map_openConflicts (ctx : Context) (r : Request) (snapshot : Option String) :
    ctx.map { r with conflicts := (ctx.map r).conflicts.filter (·.reported), snapshot } =
      ctx.map r := by
  refine map_congr snapshot ?_
  have hsame := reportedDraft_same (r := { r with conflicts := (Context.reportedDraft r).conflicts })
    (reportedDraft_isReported r) (reportedDraft_distinct r)
  rw [filter_reported, hsame]
  exact (reportedDraft_eq r).symm

/-! ## Requests that come back without an answer -/

end Mapping

namespace Responses

theorem mem_insert {id response : String} {rs : Responses} {p : String × String}
    (h : p ∈ rs.insert id response) : p = (id, response) ∨ p ∈ rs := by
  induction rs with
  | nil => exact .inl (List.mem_singleton.mp h)
  | cons q rs ih =>
    obtain ⟨i, r⟩ := q
    simp only [insert] at h
    split at h
    · exact (List.mem_cons.mp h).imp_right (List.mem_cons_of_mem _)
    · split at h
      · exact List.mem_cons.mp h
      · rcases List.mem_cons.mp h with rfl | h
        · exact .inr List.mem_cons_self
        · exact (ih h).imp_right (List.mem_cons_of_mem _)

/-- Every response that counts was given. -/
theorem mem_of_mem_ordered {rs : Responses} {p : String × String} (h : p ∈ rs.ordered) :
    p ∈ rs := by
  have hfold : ∀ acc : Responses, p ∈ rs.foldl (fun acc q => insert q.1 q.2 acc) acc →
      p ∈ acc ∨ p ∈ rs := by
    clear h
    induction rs with
    | nil => exact fun _ h => .inl h
    | cons q rs ih =>
      intro acc h
      rcases ih _ h with h | h
      · rcases mem_insert h with rfl | h
        · exact .inr List.mem_cons_self
        · exact .inl h
      · exact .inr (List.mem_cons_of_mem _ h)
  exact (hfold [] h).resolve_left List.not_mem_nil

end Responses

namespace Request

/-- A blank response changes nothing. -/
theorem respond_blank (r : Request) (c : Conflict) {response : String}
    (h : Text.trim response = "") : r.respond c response = (r, some .blank) := by
  simp [respond, h]

/-- The answer to a question what a phrase means is pinned. -/
theorem respond_pin {r : Request} {c : Conflict} (hkind : c.kind = .ambiguous ∨ c.kind = .unknown)
    {response : String} (h : Text.trim response ≠ "") :
    r.respond c response = r.pin c (Text.trim response) := by
  unfold respond
  simp only
  rw [if_neg (by simpa using h)]
  rcases hkind with hkind | hkind <;> rw [hkind]

end Request

namespace Answered

/-- The response is to no conflict of the list, or it is blank. -/
def Idle (cs : List Conflict) (p : String × String) : Prop :=
  (∀ c ∈ cs, c.id ≠ p.1) ∨ Text.trim p.2 = ""

instance (cs : List Conflict) (p : String × String) : Decidable (Idle cs p) :=
  inferInstanceAs (Decidable (_ ∨ _))

/-- What a response does: nothing, if it is to no conflict of the list, and otherwise what it does to
the request, whether it is refused or not. -/
theorem step_cases (cs : List Conflict) (a : Answered) (p : String × String) :
    (∀ c ∈ cs, c.id ≠ p.1) ∧
        step cs a p = { a with warnings := a.warnings ++ [.notOpen p.1] } ∨
      ∃ c ∈ cs, c.id = p.1 ∧
        ((a.request.respond c p.2).2 = none ∧ step cs a p =
            { a with request := (a.request.respond c p.2).1, ids := a.ids ++ [p.1] } ∨
          ∃ e, (a.request.respond c p.2).2 = some e ∧ step cs a p =
            { a with
              request := (a.request.respond c p.2).1
              warnings := a.warnings ++ [.refused p.1 e] }) := by
  obtain ⟨id, text⟩ := p
  unfold step
  cases hfind : cs.find? (·.id = id) with
  | none =>
    refine .inl ⟨fun c hc hid => ?_, by simp only [hfind]⟩
    simpa using List.find?_eq_none.mp hfind c hc (by simpa using hid)
  | some c =>
    refine .inr ⟨c, List.mem_of_find?_eq_some hfind, by simpa using List.find?_some hfind, ?_⟩
    simp only [hfind]
    cases a.request.respond c text with
    | mk request error =>
      cases error with
      | none => exact .inl ⟨rfl, rfl⟩
      | some e => exact .inr ⟨e, rfl, rfl⟩

/-- A response that is idle changes nothing besides the warnings. -/
theorem step_idle {cs : List Conflict} {p : String × String} (h : Idle cs p) (a : Answered) :
    ∃ warnings, step cs a p = { a with warnings } := by
  rcases step_cases cs a p with ⟨-, hstep⟩ | ⟨c, hc, hid, hstep⟩
  · exact ⟨_, hstep⟩
  · have hblank : Text.trim p.2 = "" := h.resolve_left fun hnone => hnone c hc hid
    rw [a.request.respond_blank c hblank] at hstep
    rcases hstep with ⟨hnone, -⟩ | ⟨e, -, hstep⟩
    · cases hnone
    · exact ⟨_, hstep⟩

theorem all_idle {r : Request} {responses : Responses}
    (h : ∀ p ∈ responses, Idle r.conflicts p) :
    ∃ warnings, all r responses = { request := r, warnings } := by
  unfold all
  refine List.foldlRecOn (motive := fun a : Answered => ∃ warnings, a = { request := r, warnings })
    _ _ ⟨[], rfl⟩ ?_
  rintro _ ⟨warnings, rfl⟩ p hp
  exact step_idle (h p (Responses.mem_of_mem_ordered hp)) _

end Answered

namespace Mapping

variable {ctx : Context}

/-- The answers to a round that are all for conflicts that are not open, or blank, give the same
round again; only the warnings differ. -/
theorem apply_unanswered {round : Round} (h : ctx.HandsOut round) {responses : Responses}
    (hresponses : ∀ p ∈ responses, Answered.Idle round.request.conflicts p) :
    ∃ warnings, ctx.apply round.request responses = .ok { round with warnings } := by
  obtain ⟨r, h⟩ := h.of
  obtain ⟨warnings, hall⟩ := Answered.all_idle hresponses
  -- what is mapped next is the old request with the reported ones of its open conflicts
  have hnext := Context.continued_of ctx round.request responses
  have hopen : (Answered.all round.request responses).openRequest = { r with
      conflicts := (ctx.map r).conflicts.filter (·.reported), snapshot := some ctx.stamp } := by
    rw [hall]
    simp only [Answered.openRequest, h.request, h.outcome, List.contains_nil, Bool.not_false,
      Bool.and_true]
  rw [hopen] at hnext
  exact ⟨_, (Context.apply_isOk rfl h responses).trans
    (congrArg Except.ok (h.eq hnext (map_openConflicts ctx r _) rfl))⟩

end Mapping

namespace Wagers

/-- The turnover by title, with one title where a range asks for two, and with a conflict that came
twice and without an id. -/
def halfRange : Request :=
  { request "Ch" with
    filters := [{
      field := "title"
      operator := "between"
      value := .one "Ch"
      pinned := some "Title" }]
    conflicts := [⟨"", .unknown, .metric, "Margin", "", [], none, false⟩,
      ⟨"", .unknown, .metric, "margin", "", [], none, true⟩] }

/-- One answer is blank, and one is to a question that was not asked. -/
theorem apply_unanswered_halfRange :
    (∀ p ∈ [("invalid_value|filter|title|Ch", "  "), ("unknown|metric|odds", "Stake")],
      Answered.Idle (context.begin halfRange).request.conflicts p) ∧
    ∃ warnings, context.apply (context.begin halfRange).request
      [("invalid_value|filter|title|Ch", "  "), ("unknown|metric|odds", "Stake")] =
        .ok { context.begin halfRange with warnings } := by
  have hidle : ∀ p ∈ [("invalid_value|filter|title|Ch", "  "), ("unknown|metric|odds", "Stake")],
      Answered.Idle (context.begin halfRange).request.conflicts p := by decide +kernel
  exact ⟨hidle, Mapping.apply_unanswered (.begin halfRange) hidle⟩

end Wagers

end MetricLayer
