import MetricLayer.Proofs.Clarification.Runs
import MetricLayer.Proofs.Report.Shown
import MetricLayer.Proofs.Text.Trim

/-!
# Answers that name an entry

A question about a mentioned metric or dimension is settled by the name of an entry: the answer is
pinned to every mention of the term, a pinned name is found exactly, and so the next mapping shows the
entry. That the question is not asked again needs more: no other part of a request raises a conflict
of the same id. An id tells the kind of the conflict and the part of the request that it is about,
and these are never the same for two of the ways in which a conflict is raised.

Results:
1. `Conflict.idOf_inj`: what an id tells.
2. `Request.pin_mentions`: an answer is pinned to the mentions of its term and to no others.
3. `resolve_pinned`: a mention means the entry whose name is pinned to it.
4. `apply_named`: questions that are answered by names are settled.
-/

namespace MetricLayer

/-! ## What an id tells -/

namespace Conflict

theorem kind_name_inj {k k' : ConflictKind} (h : k.name = k'.name) : k = k' := by
  cases k <;> cases k' <;> first | rfl | (revert h; decide)

theorem entity_name_inj {e e' : EntityKind} (h : e.name = e'.name) : e = e' := by
  cases e <;> cases e' <;> first | rfl | (revert h; decide)

theorem bar_notMem_kind (k : ConflictKind) : '|' ∉ k.name.toList := by cases k <;> decide

theorem bar_notMem_entity (e : EntityKind) : '|' ∉ e.name.toList := by cases e <;> decide

/-- The part of an id behind the kind and the part of the request. -/
def idTail (term : String) (value : Option String) : String :=
  Term.ofPhrase term ++ match value with
    | some v => "|" ++ Text.trim v
    | none => ""

theorem toList_idOf (kind : ConflictKind) (entity : EntityKind) (term : String)
    (value : Option String) : (idOf kind entity term value).toList =
      kind.name.toList ++ '|' :: (entity.name.toList ++ '|' :: (idTail term value).toList) := by
  simp only [idOf, idTail, String.toList_append, List.append_assoc]
  rfl

/-- Two texts begin the same up to their first bar. -/
theorem append_bar_inj {a b x y : List Char} (ha : '|' ∉ a) (hb : '|' ∉ b)
    (h : a ++ '|' :: x = b ++ '|' :: y) : a = b ∧ x = y := by
  induction a generalizing b with
  | nil =>
    cases b with
    | nil => exact ⟨rfl, List.tail_eq_of_cons_eq h⟩
    | cons c b => exact absurd (List.head_eq_of_cons_eq h ▸ List.mem_cons_self) hb
  | cons c a ih =>
    cases b with
    | nil => exact absurd ((List.head_eq_of_cons_eq h).symm ▸ List.mem_cons_self) ha
    | cons c' b =>
      obtain ⟨rfl, htail⟩ := List.cons_eq_cons.mp h
      obtain ⟨rfl, hrest⟩ := ih (fun hin => ha (List.mem_cons_of_mem c hin))
        (fun hin => hb (List.mem_cons_of_mem c hin)) htail
      exact ⟨rfl, hrest⟩

/-- An id tells the kind of the conflict and the part of the request, and what it is about. -/
theorem idOf_inj {k k' : ConflictKind} {e e' : EntityKind} {t t' : String} {v v' : Option String}
    (h : idOf k e t v = idOf k' e' t' v') : k = k' ∧ e = e' ∧ idTail t v = idTail t' v' := by
  have hlist := congrArg String.toList h
  rw [toList_idOf, toList_idOf] at hlist
  obtain ⟨hk, hrest⟩ := append_bar_inj (bar_notMem_kind k) (bar_notMem_kind k') hlist
  obtain ⟨he, htail⟩ := append_bar_inj (bar_notMem_entity e) (bar_notMem_entity e') hrest
  exact ⟨kind_name_inj (String.toList_inj.mp hk), entity_name_inj (String.toList_inj.mp he),
    String.toList_inj.mp htail⟩

/-- Conflicts of a kind about one part of a request are told apart by their terms. -/
theorem idOf_eq_iff {k : ConflictKind} {e : EntityKind} {t t' : String} :
    idOf k e t none = idOf k e t' none ↔ Term.ofPhrase t = Term.ofPhrase t' := by
  constructor
  · intro h
    simpa [idTail] using (idOf_inj h).2.2
  · intro h
    simp only [idOf, h]

end Conflict

/-! ## Pinning an answer -/

namespace Request

/-- The phrases of the mentions of a kind with the entries that are pinned to them. -/
def mentions (r : Request) : EntityKind → List (String × Option String)
  | .metric => r.metrics.map fun m => (m.name, m.pinned)
  | .dimension => r.dimensions.map fun x => (x.name, x.pinned)
  | _ => []

/-- A mention with an answer pinned to it, if it has the term. -/
def pinMention (term answer : String) (x : String × Option String) : String × Option String :=
  if sameTerm x.1 term then (x.1, some answer) else x

theorem sameTerm_iff {a b : String} : sameTerm a b = true ↔ Term.ofPhrase a = Term.ofPhrase b := by
  simp [sameTerm]

theorem pinMetrics_mentions (term answer : String) (r : Request) (k : EntityKind) :
    (r.pinMetrics term answer).mentions k =
      if k = .metric then (r.mentions k).map (pinMention term answer) else r.mentions k := by
  cases k <;> simp only [mentions, pinMetrics, reduceCtorEq, if_false, if_true]
  simp only [changeWhere, List.map_map]
  refine List.map_congr_left fun m _ => ?_
  simp only [Function.comp_apply, pinMention]
  split <;> rfl

theorem pinDimensions_mentions (term answer : String) (r : Request) (k : EntityKind) :
    (r.pinDimensions term answer).mentions k =
      if k = .dimension then (r.mentions k).map (pinMention term answer) else r.mentions k := by
  cases k <;> simp only [mentions, pinDimensions, reduceCtorEq, if_false, if_true]
  simp only [changeWhere, List.map_map]
  refine List.map_congr_left fun m _ => ?_
  simp only [Function.comp_apply, pinMention]
  split <;> rfl

/-- The answer to a question about a mentioned metric or dimension is pinned to the mentions of the
term, and to no others. -/
theorem pin_mentions {r : Request} {c : Conflict} (answer : String)
    (hentity : c.entity = .metric ∨ c.entity = .dimension)
    (hused : ∃ x ∈ r.mentions c.entity, Term.ofPhrase x.1 = Term.ofPhrase c.term) (k : EntityKind) :
    (r.pin c answer).1.mentions k =
      if k = c.entity then (r.mentions k).map (pinMention c.term answer) else r.mentions k := by
  obtain ⟨x, hx, hterm⟩ := hused
  unfold pin
  rcases hentity with hentity | hentity <;> rw [hentity] at hx ⊢
  · obtain ⟨m, hm, rfl⟩ := List.mem_map.mp hx
    have hany : r.metrics.any (sameTerm ·.name c.term) = true :=
      List.any_eq_true.mpr ⟨m, hm, sameTerm_iff.mpr hterm⟩
    simp only [hany, if_true]
    exact pinMetrics_mentions c.term answer r k
  · obtain ⟨m, hm, rfl⟩ := List.mem_map.mp hx
    have hany : r.dimensions.any (sameTerm ·.name c.term) = true :=
      List.any_eq_true.mpr ⟨m, hm, sameTerm_iff.mpr hterm⟩
    simp only [hany, if_true]
    rw [← pinDimensions_mentions c.term answer r k]
    rfl

end Request

namespace Mapping

variable {ctx : Context}

/-- A mention means the entry whose name is pinned to it. -/
theorem exactName?_trim {kind : EntityKind} (hkind : kind = .metric ∨ kind = .dimension)
    {name : String} (h : ctx.HasEntry kind name) :
    ctx.exactName? kind (Text.trim name) = some name := by
  rcases hkind with rfl | rfl
  · obtain ⟨e, -, hname, he⟩ := hasEntry_metric h
    rw [Context.exactName?, Dictionary.metric?, Term.ofPhrase_trim, ← Dictionary.metric?, he, ← hname]
    rfl
  · obtain ⟨e, -, hname, he⟩ := hasEntry_dimension (by decide) h
    rw [Context.exactName?, Dictionary.dimension?, Term.ofPhrase_trim, ← Dictionary.dimension?, he,
      ← hname]
    rfl

theorem resolve_pinned {kind : EntityKind} (hkind : kind = .metric ∨ kind = .dimension)
    {name : String} (h : ctx.HasEntry kind name) (term : String) (confidence : Float) :
    ctx.resolve kind kind term confidence (some (Text.trim name)) = .ok name := by
  rw [Context.resolve]
  simp only [exactName?_trim hkind h]

/-- The response names the entry that a question about a mention asks for. -/
structure Context.Names (ctx : Context) (round : Round) (c : Conflict) (p : String × String) :
    Prop where
  isOpen : c ∈ round.request.conflicts
  id : c.id = p.1
  kind : c.kind = .ambiguous ∨ c.kind = .unknown
  entity : c.entity = .metric ∨ c.entity = .dimension
  found : c.reported = false
  entry : ctx.HasEntry c.entity p.2
  notBlank : Text.trim p.2 ≠ ""

/-- Conflicts of one id that are raised are of one kind and about one part of a request. -/
theorem Context.Raised.alike (hvalid : ctx.IsValid) {r r' : Request} {c c' : Conflict}
    (h : ctx.Raised r c) (h' : ctx.Raised r' c') (hid : c'.id = c.id) :
    c'.kind = c.kind ∧ c'.entity = c.entity := by
  obtain ⟨t, v, hc⟩ := h.id_eq hvalid
  obtain ⟨t', v', hc'⟩ := h'.id_eq hvalid
  obtain ⟨hkind, hentity, -⟩ := Conflict.idOf_inj ((hc'.symm.trans hid).trans hc)
  exact ⟨hkind, hentity⟩

/-- Questions of one id what a phrase means are about one term. -/
theorem Unclear.term_eq {entity entity' : EntityKind} {term term' : String} {c c' : Conflict}
    (h : Unclear entity term c) (h' : Unclear entity' term' c') (hid : c'.id = c.id) :
    Term.ofPhrase term' = Term.ofPhrase term := by
  obtain ⟨hkind, hentity, -⟩ := Conflict.idOf_inj ((h'.id.symm.trans hid).trans h.id)
  have hids := (h'.id.symm.trans hid).trans h.id
  rw [hkind, hentity] at hids
  exact Conflict.idOf_eq_iff.mp hids

/-- A conflict that was raised about a metric or a dimension was raised about a mention. -/
theorem raised_mention (hvalid : ctx.IsValid) {r : Request} {c : Conflict} (h : ctx.Raised r c)
    (hkind : c.kind = .ambiguous ∨ c.kind = .unknown)
    (hentity : c.entity = .metric ∨ c.entity = .dimension) :
    Unclear c.entity c.term c ∧
      ((∃ m ∈ r.metrics, c.entity = .metric ∧ c.term = m.name ∧
          ctx.resolve .metric .metric m.name m.confidence m.pinned = .error c) ∨
        ∃ x ∈ r.dimensions, c.entity = .dimension ∧ c.term = x.name ∧
          ctx.resolve .dimension .dimension x.name x.confidence x.pinned = .error c) := by
  cases h with
  | @metric m _ hm h =>
    have hc := resolve_error h
    exact ⟨hc.of ▸ hc.about ▸ hc, .inl ⟨m, hm, hc.of, hc.about, h⟩⟩
  | @dimension x _ hx h =>
    have hc := resolve_error h
    exact ⟨hc.of ▸ hc.about ▸ hc, .inr ⟨x, hx, hc.of, hc.about, h⟩⟩
  | filter _ h => simp [(resolveField_error h).of] at hentity
  | value _ h => simp [(faults_refuse h).kind] at hkind
  | exclusive h => simp [(filterConflicts_exclude h).kind] at hkind
  | sort _ h => simp [(resolveField_error h).of] at hentity
  | missing _ => simp [Context.missingMetric, Conflict.make] at hkind
  | gap h => exact absurd hvalid h.1

namespace Context.Names

variable {round : Round} {c c' : Conflict} {p : String × String}

/-- A question is known by the id that the response is for. -/
theorem unique {r : Request} (hround : round.Of ctx r) (h : ctx.Names round c p)
    (hc' : c' ∈ round.request.conflicts) (hid : c'.id = p.1) : c' = c :=
  open_unique hround h.isOpen hc' (hid.trans h.id.symm)

/-- The answer is pinned. -/
theorem respond_eq (h : ctx.Names round c p) (r : Request) :
    r.respond c p.2 = r.pin c (Text.trim p.2) := Request.respond_pin h.kind h.notBlank

theorem raised {r : Request} (hround : round.Of ctx r) (h : ctx.Names round c p) :
    ctx.Raised r c := raised_of_open hround h.isOpen h.found

theorem unclear (hvalid : ctx.IsValid) {r : Request} (hround : round.Of ctx r)
    (h : ctx.Names round c p) : Unclear c.entity c.term c :=
  (raised_mention hvalid (h.raised hround) h.kind h.entity).1

/-- The question is about a mention. -/
theorem exists_mention (hvalid : ctx.IsValid) {r : Request} (hround : round.Of ctx r)
    (h : ctx.Names round c p) : ∃ x ∈ round.request.mentions c.entity, x.1 = c.term := by
  rw [hround.request]
  obtain ⟨-, ⟨m, hm, hentity, hterm, -⟩ | ⟨x, hx, hentity, hterm, -⟩⟩ :=
    raised_mention hvalid (h.raised hround) h.kind h.entity <;> rw [hentity]
  · exact ⟨_, List.mem_map_of_mem hm, hterm.symm⟩
  · exact ⟨_, List.mem_map_of_mem hx, hterm.symm⟩

end Context.Names

/-! ## All answers to a round -/

/-- The answers so far are pinned to the mentions that they are about. -/
structure Context.HasPinned (ctx : Context) (round : Round) (ps : Responses) (a : Answered) :
    Prop where
  names : ∀ k, (a.request.mentions k).map (·.1) = (round.request.mentions k).map (·.1)
  pinned : ∀ p ∈ ps, ∀ c, ctx.Names round c p → ∀ x ∈ a.request.mentions c.entity,
    Term.ofPhrase x.1 = Term.ofPhrase c.term → x.2 = some (Text.trim p.2)

/-- A mentioned metric of an answered term means the entry that the answer names. -/
theorem Context.HasPinned.metric {round : Round} {ps : Responses} {a : Answered}
    (h : ctx.HasPinned round ps a) {p : String × String} (hp : p ∈ ps) {c : Conflict}
    (hc : ctx.Names round c p) (hmetric : c.entity = .metric) {m : MetricMention}
    (hm : m ∈ a.request.metrics) (hterm : Term.ofPhrase m.name = Term.ofPhrase c.term) :
    ctx.resolve .metric .metric m.name m.confidence m.pinned = .ok p.2 := by
  have hpin : m.pinned = some (Text.trim p.2) :=
    h.pinned p hp c hc (m.name, m.pinned) (hmetric ▸ List.mem_map_of_mem hm) hterm
  rw [hpin]
  exact resolve_pinned (.inl rfl) (hmetric ▸ hc.entry) m.name m.confidence

/-- A mentioned dimension of an answered term means the entry that the answer names. -/
theorem Context.HasPinned.dimension {round : Round} {ps : Responses} {a : Answered}
    (h : ctx.HasPinned round ps a) {p : String × String} (hp : p ∈ ps) {c : Conflict}
    (hc : ctx.Names round c p) (hdimension : c.entity = .dimension) {x : DimensionMention}
    (hx : x ∈ a.request.dimensions) (hterm : Term.ofPhrase x.name = Term.ofPhrase c.term) :
    ctx.resolve .dimension .dimension x.name x.confidence x.pinned = .ok p.2 := by
  have hpin : x.pinned = some (Text.trim p.2) :=
    h.pinned p hp c hc (x.name, x.pinned) (hdimension ▸ List.mem_map_of_mem hx) hterm
  rw [hpin]
  exact resolve_pinned (.inr rfl) (hdimension ▸ hc.entry) x.name x.confidence

/-- No two of the responses are about one term. -/
def Context.Apart (ctx : Context) (round : Round) (ps : Responses) : Prop :=
  ∀ p ∈ ps, ∀ p' ∈ ps, ∀ c c', ctx.Names round c p → ctx.Names round c' p' →
    c.entity = c'.entity → Term.ofPhrase c.term = Term.ofPhrase c'.term → p = p'

/-- The answer to a question is pinned to the mentions of the kind that have its term, and to none
but these. -/
theorem Context.HasPinned.mentions_step (hvalid : ctx.IsValid) {r : Request} {round : Round}
    (hround : round.Of ctx r) {ps : Responses} {a : Answered} (h : ctx.HasPinned round ps a)
    {q : String × String} {c : Conflict} (hc : ctx.Names round c q) (k : EntityKind) :
    (Answered.step round.request.conflicts a q).request.mentions k =
      if k = c.entity then (a.request.mentions k).map (Request.pinMention c.term (Text.trim q.2))
      else a.request.mentions k := by
  obtain ⟨x₀, hx₀, hterm₀⟩ := hc.exists_mention hvalid hround
  -- the mention that the question is about is still there
  have hused : ∃ x ∈ a.request.mentions c.entity, Term.ofPhrase x.1 = Term.ofPhrase c.term := by
    have hin := List.mem_map_of_mem (f := (·.1)) hx₀
    rw [← h.names c.entity] at hin
    obtain ⟨x, hx, hname⟩ := List.mem_map.mp hin
    exact ⟨x, hx, by rw [hname, hterm₀]⟩
  rw [← Request.pin_mentions (Text.trim q.2) hc.entity hused, ← hc.respond_eq]
  rcases Answered.step_cases round.request.conflicts a q with ⟨hnone, -⟩ | ⟨c', hc', hid, hstep⟩
  · exact absurd hc.id (hnone c hc.isOpen)
  · obtain rfl := hc.unique hround hc' hid
    rcases hstep with ⟨-, hstep⟩ | ⟨e, -, hstep⟩ <;> rw [hstep]

theorem Context.HasPinned.step (hvalid : ctx.IsValid) {r : Request} {round : Round}
    (hround : round.Of ctx r) {all ps : Responses} (hapart : ctx.Apart round all)
    (hps : ps ⊆ all) {a : Answered} (h : ctx.HasPinned round ps a) {q : String × String}
    (hq : q ∈ all) {c : Conflict} (hc : ctx.Names round c q) :
    ctx.HasPinned round (ps ++ [q]) (Answered.step round.request.conflicts a q) := by
  have hmentions := h.mentions_step hvalid hround hc
  have hname (x : String × Option String) :
      (Request.pinMention c.term (Text.trim q.2) x).1 = x.1 := by
    unfold Request.pinMention
    split <;> rfl
  constructor
  case names =>
    intro k
    rw [hmentions, ← h.names k]
    split
    · rw [List.map_map]
      exact List.map_congr_left fun x _ => hname x
    · rfl
  case pinned =>
    intro p hp c' hc' x hx hterm
    rw [hmentions] at hx
    split at hx
    · next hentity =>
      obtain ⟨x, hin, rfl⟩ := List.mem_map.mp hx
      rw [hname] at hterm
      by_cases hsame : sameTerm x.1 c.term = true
      · -- both answers are about the term of the mention, so they are one
        have hpq : p = q := by
          refine hapart p ?_ q hq c' c hc' hc hentity ?_
          · rcases List.mem_append.mp hp with hp | hp
            · exact hps hp
            · rwa [List.mem_singleton.mp hp]
          · rw [← hterm, Request.sameTerm_iff.mp hsame]
        rw [Request.pinMention, if_pos hsame, hpq]
      · rw [Request.pinMention, if_neg hsame]
        rcases List.mem_append.mp hp with hp | hp
        · exact h.pinned p hp c' hc' x hin hterm
        · rw [List.mem_singleton] at hp
          subst hp
          obtain rfl := hc.unique hround hc'.isOpen hc'.id
          exact absurd (Request.sameTerm_iff.mpr hterm) hsame
    · next hentity =>
      rcases List.mem_append.mp hp with hp | hp
      · exact h.pinned p hp c' hc' x hx hterm
      · rw [List.mem_singleton] at hp
        subst hp
        obtain rfl := hc.unique hround hc'.isOpen hc'.id
        exact absurd rfl hentity

theorem hasPinned_all (hvalid : ctx.IsValid) {r : Request} {round : Round}
    (hround : round.Of ctx r) {responses : Responses}
    (hnames : ∀ p ∈ responses.ordered, ∃ c, ctx.Names round c p)
    (hapart : ctx.Apart round responses.ordered) :
    ctx.HasPinned round responses.ordered (Answered.all round.request responses) := by
  have hfold : ∀ (qs ps : Responses) (a : Answered), ps ++ qs = responses.ordered →
      ctx.HasPinned round ps a → ctx.HasPinned round responses.ordered
        (qs.foldl (Answered.step round.request.conflicts) a) := by
    intro qs
    induction qs with
    | nil =>
      intro ps a hall h
      rw [List.append_nil] at hall
      rwa [← hall]
    | cons q qs ih =>
      intro ps a hall h
      have hq : q ∈ responses.ordered := by rw [← hall]; simp
      have hps : ps ⊆ responses.ordered := by rw [← hall]; exact List.subset_append_left _ _
      obtain ⟨c, hc⟩ := hnames q hq
      refine ih (ps ++ [q]) _ (by rw [List.append_assoc]; exact hall) ?_
      exact h.step hvalid hround hapart hps hq hc
  exact hfold _ [] _ rfl ⟨fun _ => rfl, by simp⟩

/-- A question that did not come with the request is asked again only if it is raised again. -/
theorem raised_again {r : Request} {round : Round} (hround : round.Of ctx r) {a : Answered}
    (hfrom : a.From round.request) {c c' : Conflict} (hopen : c ∈ round.request.conflicts)
    (hfound : c.reported = false) (hc' : c' ∈ (ctx.map a.openRequest).conflicts)
    (hid : c'.id = c.id) : ctx.Raised a.openRequest c' := by
  obtain ⟨cs, hcs, hraised⟩ := map_conflicts ctx a.openRequest
  rw [hcs, hround.reportedDraft_open hfrom.conflicts] at hc'
  rcases List.mem_append.mp hc' with hin | hin
  · -- a conflict that came with the request is another one
    obtain ⟨hin, hreported⟩ := List.mem_filter.mp hin
    obtain rfl := open_unique hround hopen (hfrom.conflicts ▸ hin) hid
    simp [hfound] at hreported
  · exact hraised c' hin

/-- An answered question is not asked again. -/
theorem answered_notOpen (hvalid : ctx.IsValid) {r : Request} {round : Round}
    (hround : round.Of ctx r) {a : Answered} (hfrom : a.From round.request) {ps : Responses}
    (hpinned : ctx.HasPinned round ps a) {p : String × String} (hp : p ∈ ps) {c : Conflict}
    (hc : ctx.Names round c p) :
    ∀ c' ∈ (ctx.map a.openRequest).conflicts, c'.id ≠ p.1 := by
  intro c' hc' hid
  have hid := hid.trans hc.id.symm
  have hraised := raised_again hround hfrom hc.isOpen hc.found hc' hid
  obtain ⟨hkind, hentity⟩ := (hc.raised hround).alike hvalid hraised hid
  obtain ⟨hunclear, hmention⟩ := raised_mention hvalid hraised (hkind ▸ hc.kind)
    (hentity ▸ hc.entity)
  have hterm := (hc.unclear hvalid hround).term_eq hunclear hid
  rcases hmention with ⟨m, hm, hmetric, hname, herror⟩ | ⟨x, hx, hdimension, hname, herror⟩
  · have hresolve := hpinned.metric hp hc (hentity ▸ hmetric) hm (hname ▸ hterm)
    rw [herror] at hresolve
    cases hresolve
  · have hresolve := hpinned.dimension hp hc (hentity ▸ hdimension) hx (hname ▸ hterm)
    rw [herror] at hresolve
    cases hresolve

/-- Where the dictionary is valid and every response names the entry that a question about a mention
asks for, no two about one term, none of the answered questions is asked again, and every mention of
such a term means the entry that was named, which is in the report and shown. The mentions are those
of the round that was answered. -/
theorem apply_named (hvalid : ctx.IsValid) {round : Round} (hround : ctx.HandsOut round)
    {responses : Responses} (hnames : ∀ p ∈ responses.ordered, ∃ c, ctx.Names round c p)
    (hapart : ctx.Apart round responses.ordered) :
    ∃ next, ctx.apply round.request responses = .ok next ∧
      (next.request.metrics.map (·.name) = round.request.metrics.map (·.name) ∧
        next.request.dimensions.map (·.name) = round.request.dimensions.map (·.name)) ∧
      ∀ p ∈ responses.ordered, ∀ c, ctx.Names round c p →
        (∀ c' ∈ next.request.conflicts, c'.id ≠ p.1) ∧
        (c.entity = .metric → ∀ m ∈ next.request.metrics,
          Term.ofPhrase m.name = Term.ofPhrase c.term →
            ctx.resolve .metric .metric m.name m.confidence m.pinned = .ok p.2 ∧
              ∃ x ∈ next.outcome.report.metrics, x.name = p.2 ∧ x.hidden = false) ∧
        (c.entity = .dimension → ∀ x ∈ next.request.dimensions,
          Term.ofPhrase x.name = Term.ofPhrase c.term →
            ctx.resolve .dimension .dimension x.name x.confidence x.pinned = .ok p.2 ∧
              ∃ y ∈ next.outcome.report.dimensions, y.name = p.2) := by
  obtain ⟨r, hround⟩ := hround.of
  have hpinned := hasPinned_all hvalid hround hnames hapart
  have hfrom := Answered.all_from round.request responses
  have hnext := ctx.continued_of round.request responses
  refine ⟨_, Context.apply_isOk rfl hround responses, ?_⟩
  generalize Context.apply.continued ctx round.request responses = next at hnext
  generalize Answered.all round.request responses = a at hpinned hfrom hnext
  rw [hnext.request, hnext.outcome]
  refine ⟨⟨?_, ?_⟩, fun p hp c hc =>
    ⟨?_, fun hmetric m hm hterm => ?_, fun hdimension x hx hterm => ?_⟩⟩
  · have h := hpinned.names .metric
    simp only [Request.mentions, List.map_map] at h
    exact h
  · have h := hpinned.names .dimension
    simp only [Request.mentions, List.map_map] at h
    exact h
  · exact answered_notOpen hvalid hround hfrom hpinned hp hc
  · have hresolve := hpinned.metric hp hc hmetric hm hterm
    exact ⟨hresolve, metric_shown hvalid (r := a.openRequest) hm hresolve⟩
  · have hresolve := hpinned.dimension hp hc hdimension hx hterm
    exact ⟨hresolve, dimension_shown hvalid (r := a.openRequest) hx hresolve⟩

end Mapping

namespace Wagers

/-- The wagers, where only words of the vocabulary are understood. -/
def strict : Mapping.Context := { context with settings := { fuzzyMatching := false } }

/-- A metric and a dimension by words that the vocabulary does not have. -/
def unheard : Request := { metrics := [{ name := "Margins" }], dimensions := [{ name := "player" }] }

def entries : Responses :=
  [("unknown|metric|margin", "Stake"), ("unknown|dimension|player", "Title")]

/-- Both questions about the wagers are settled by the names of entries. -/
theorem apply_named_entries :
    strict.IsValid ∧ (∀ p ∈ entries.ordered, ∃ c, strict.Names (strict.begin unheard) c p) ∧
    strict.Apart (strict.begin unheard) entries.ordered ∧
    ∃ next, strict.apply (strict.begin unheard).request entries = .ok next ∧
      (∀ c ∈ next.request.conflicts, c.id ≠ "unknown|metric|margin") ∧
      ∃ x ∈ next.outcome.report.dimensions, x.name = "Title" := by
  have hvalid : strict.IsValid := by
    unfold Mapping.Context.IsValid
    decide +kernel
  have hmetric : ∀ c ∈ (strict.begin unheard).request.conflicts,
      c.id = "unknown|metric|margin" → c.entity = .metric := by decide +kernel
  have hdimension : ∀ c ∈ (strict.begin unheard).request.conflicts,
      c.id = "unknown|dimension|player" →
        c.entity = .dimension ∧ Term.ofPhrase c.term = "player" := by decide +kernel
  have hnames : ∀ p ∈ entries.ordered, ∃ c, strict.Names (strict.begin unheard) c p := by
    have hopen : ∀ p ∈ entries.ordered, ∃ c ∈ (strict.begin unheard).request.conflicts,
        c.id = p.1 ∧ (c.kind = .ambiguous ∨ c.kind = .unknown) ∧
          (c.entity = .metric ∨ c.entity = .dimension) ∧ c.reported = false ∧
            p.2 ∈ (strict.dictionary.entriesOf c.entity).map (·.1) ∧ Text.trim p.2 ≠ "" := by
      decide +kernel
    intro p hp
    obtain ⟨c, hc, hid, hkind, hentity, hfound, hentry, hblank⟩ := hopen p hp
    exact ⟨c, hc, hid, hkind, hentity, hfound, hentry, hblank⟩
  have hordered : entries.ordered =
      [("unknown|dimension|player", "Title"), ("unknown|metric|margin", "Stake")] := by
    decide +kernel
  have hapart : strict.Apart (strict.begin unheard) entries.ordered := by
    intro p hp p' hp' c c' hc hc' hsame _
    rw [hordered] at hp hp'
    simp only [List.mem_cons, List.not_mem_nil, or_false] at hp hp'
    rcases hp with rfl | rfl <;> rcases hp' with rfl | rfl
    · rfl
    · rw [(hdimension c hc.isOpen hc.id).1, hmetric c' hc'.isOpen hc'.id] at hsame
      cases hsame
    · rw [hmetric c hc.isOpen hc.id, (hdimension c' hc'.isOpen hc'.id).1] at hsame
      cases hsame
    · rfl
  obtain ⟨next, happly, ⟨-, hsame⟩, hall⟩ :=
    Mapping.apply_named hvalid (.begin unheard) hnames hapart
  refine ⟨hvalid, hnames, hapart, next, happly, ?_, ?_⟩
  · obtain ⟨c, hc⟩ := hnames ("unknown|metric|margin", "Stake") (by rw [hordered]; simp)
    exact (hall _ (by rw [hordered]; simp) c hc).1
  · obtain ⟨c, hc⟩ := hnames ("unknown|dimension|player", "Title") (by rw [hordered]; simp)
    obtain ⟨hentity, hterm⟩ := hdimension c hc.isOpen hc.id
    have hnext : next.request.dimensions.map (·.name) = ["player"] := hsame
    obtain ⟨x, hx, hname⟩ := List.mem_map.mp (hnext ▸ List.mem_singleton_self "player")
    have hplayer : Term.ofPhrase x.name = Term.ofPhrase c.term := by
      rw [hname, hterm]
      decide +kernel
    exact ((hall _ (by rw [hordered]; simp) c hc).2.2 hentity x hx hplayer).2

end Wagers

end MetricLayer
