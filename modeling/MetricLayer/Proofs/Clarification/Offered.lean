import MetricLayer.Proofs.Clarification.Decided
import MetricLayer.Proofs.Clarification.Overruled
import MetricLayer.Proofs.Report.Conditions

/-!
# Options that are offered

A question that is answered by an option offers the names of entries, or the conditions of filters
that exclude each other. Whoever picks an option expects that the question is not asked again. The
name of an entry settles what a mention means, and one condition settles which filter counts, except
that conditions are offered in words: filters whose conditions differ in letter case only exclude
each other, but each of their options stands for all of them, so the question comes back for good.
A sort has no entry pinned to it, and is asked about again where the name of the entry that was
chosen is the term that was asked about.

Results:
1. `resolve_offers` and `resolveField_offers`: what a question about a mention offers.
2. `Request.keepFirst_short` and `decided_group`: what is left of the filters that are asked about.
3. `offered_open_iff`: after which options a question is still open.
-/

namespace MetricLayer

namespace Mapping

variable {ctx : Context}

/-! ## What is offered for a mention -/

theorem choose_offers {best : Candidate} {others : List Candidate} {entity : EntityKind}
    {term : String} {confidence : Float} {c : Conflict}
    (h : ctx.choose best others entity term confidence = .error c) :
    ∀ o ∈ c.suggestions, ∃ x ∈ best :: others, x.name = o := by
  unfold Context.choose at h
  simp only at h
  split at h
  · cases h
    intro o ho
    obtain ⟨x, hx, hname⟩ := List.mem_map.mp ho
    exact ⟨x, List.mem_of_mem_take hx, hname⟩
  · cases h

theorem resolvePhrase_offers {kind entity : EntityKind} {term : String} {confidence : Float}
    {c : Conflict} (h : ctx.resolvePhrase kind entity term confidence = .error c)
    (hkind : c.kind = .ambiguous) : ∀ o ∈ c.suggestions, ctx.HasEntry kind o := by
  unfold Context.resolvePhrase at h
  split at h
  · cases h
    cases hkind
  · next best others hlookup =>
    intro o ho
    obtain ⟨x, hx, rfl⟩ := choose_offers h o ho
    exact lookup_entry (hlookup ▸ hx)

/-- A question what a metric or a dimension means offers names of entries. -/
theorem resolve_offers {kind entity : EntityKind} {term : String} {confidence : Float}
    {pinned : Option String} {c : Conflict}
    (h : ctx.resolve kind entity term confidence pinned = .error c) (hkind : c.kind = .ambiguous) :
    ∀ o ∈ c.suggestions, ctx.HasEntry kind o := by
  obtain hphrase | ⟨answer, c', hphrase, rfl⟩ := resolve_eq_error h
  · exact resolvePhrase_offers hphrase hkind
  · exact resolvePhrase_offers (c := c') hphrase hkind

theorem resolveFieldPhrase_offers {entity prefer : EntityKind} {term : String} {confidence : Float}
    {c : Conflict} (h : ctx.resolveFieldPhrase entity prefer term confidence = .error c)
    (hkind : c.kind = .ambiguous) :
    ∀ o ∈ c.suggestions, ctx.HasEntry prefer o ∨ ctx.HasEntry (Context.otherKind prefer) o := by
  unfold Context.resolveFieldPhrase at h
  simp only at h
  split at h
  · cases h
    cases hkind
  · split at h
    · cases h
      cases hkind
    · next best others hbest =>
      obtain ⟨c', hchoose, rfl⟩ := map_eq_error h
      intro o ho
      obtain ⟨x, hx, rfl⟩ := choose_offers hchoose o ho
      rw [← hbest] at hx
      split at hx
      all_goals simp only at hx
      · exact .inl (lookup_entry hx)
      · exact .inr (lookup_entry hx)

/-- A question what a filter or a sort means offers names of entries of either kind. -/
theorem resolveField_offers {entity prefer : EntityKind} {term : String} {confidence : Float}
    {pinned : Option String} {c : Conflict}
    (h : ctx.resolveField entity prefer term confidence pinned = .error c)
    (hkind : c.kind = .ambiguous) :
    ∀ o ∈ c.suggestions, ctx.HasEntry prefer o ∨ ctx.HasEntry (Context.otherKind prefer) o := by
  obtain hphrase | ⟨answer, c', hphrase, rfl⟩ := resolveField_eq_error h
  · exact resolveFieldPhrase_offers hphrase hkind
  · exact resolveFieldPhrase_offers (c := c') hphrase hkind

/-! ## What an option means -/

/-- A filter means an entry whose name is pinned to it. -/
theorem resolveField_pinned {name : String}
    (h : ctx.HasEntry .dimension name ∨ ctx.HasEntry .metric name) (term : String)
    (confidence : Float) : ∃ entry, ctx.resolveField .filter .dimension term confidence
      (some (Text.trim name)) = .ok entry := by
  unfold Context.resolveField
  simp only [Context.otherKind, List.findSome?_cons, List.findSome?_nil]
  rcases h with h | h
  · rw [exactName?_trim (.inr rfl) h]
    exact ⟨_, rfl⟩
  · rw [exactName?_trim (.inl rfl) h]
    cases ctx.exactName? .dimension (Text.trim name) <;> exact ⟨_, rfl⟩

/-- What a phrase may mean depends on its term only. -/
theorem lookup_congr {phrase phrase' : String} (h : Term.ofPhrase phrase = Term.ofPhrase phrase')
    (kind : EntityKind) : ctx.lookup kind phrase = ctx.lookup kind phrase' := by
  simp only [Context.lookup, Dictionary.lookup, h]

theorem choose_again {best : Candidate} {others : List Candidate} {entity : EntityKind}
    {term : String} {confidence : Float} {c : Conflict}
    (h : ctx.choose best others entity term confidence = .error c) (term' : String) :
    ∃ c', ctx.choose best others entity term' confidence = .error c' := by
  unfold Context.choose at h ⊢
  simp only at h ⊢
  split at h
  · next hunsure =>
    rw [if_pos hunsure]
    exact ⟨_, rfl⟩
  · cases h

/-- A phrase of the same term is as ambiguous. -/
theorem resolveFieldPhrase_again {entity prefer : EntityKind} {term : String} {confidence : Float}
    {c : Conflict} (h : ctx.resolveFieldPhrase entity prefer term confidence = .error c)
    (hkind : c.kind = .ambiguous) {term' : String}
    (hterm : Term.ofPhrase term' = Term.ofPhrase term) : ∃ c',
      ctx.resolveFieldPhrase entity prefer term' confidence = .error c' ∧ c'.kind = .ambiguous := by
  unfold Context.resolveFieldPhrase at h ⊢
  simp only [lookup_congr hterm] at h ⊢
  split at h
  · cases h
    cases hkind
  · next hsome =>
    rw [if_neg hsome]
    split at h
    · cases h
      cases hkind
    · obtain ⟨c₀, hchoose, -⟩ := map_eq_error h
      obtain ⟨c', hagain⟩ := choose_again hchoose term'
      rw [hagain]
      exact ⟨c', rfl, choose_kind hagain⟩

/-! ## What an option leaves of filters -/

end Mapping

/-- The request that is mapped after one response to the round. -/
def Round.after (round : Round) (id response : String) : Request :=
  (Answered.all round.request [(id, response)]).openRequest

/-- The answer is the condition of the filter, in any letter case, and does not ask for all
values. -/
def FilterMention.isChosen (answer : String) (f : FilterMention) : Bool :=
  !Text.eqIgnoringAsciiCase answer Mapping.mergeOption &&
    Text.eqIgnoringAsciiCase f.describe answer

namespace Request

/-- Of the filters that are decided between, one stays at most. -/
theorem keepFirst_short {involved p q : FilterMention → Bool}
    {change : FilterMention → FilterMention} {fs : List FilterMention}
    (hq : ∀ f ∈ fs, q f = true → involved f = true) :
    ((keepFirst involved p change fs).filter q).length ≤ 1 := by
  induction fs with
  | nil => exact Nat.zero_le 1
  | cons f fs ih =>
    have hrest := fun g hg => hq g (List.mem_cons_of_mem f hg)
    unfold keepFirst
    split
    · split
      · have hnone : (fs.filter (!involved ·)).filter q = [] :=
          List.filter_eq_nil_iff.mpr fun g hg hyes => by
            obtain ⟨hg, hout⟩ := List.mem_filter.mp hg
            simp [hrest g hg hyes] at hout
        rw [List.filter_cons, hnone]
        split <;> simp
      · exact ih hrest
    · next hout =>
      have hno : q f = false :=
        Bool.eq_false_iff.mpr fun hyes => hout (hq f List.mem_cons_self hyes)
      rw [List.filter_cons_of_neg (by simp [hno])]
      exact ih hrest

/-- Which filters stay depends on the filters only. -/
theorem decideFilters_congr {r r' : Request} (h : r'.filters = r.filters) (c : Conflict)
    (answer : String) :
    (r'.decideFilters c answer).1.filters = (r.decideFilters c answer).1.filters := by
  unfold decideFilters
  simp only [h]
  split
  · exact h
  · rfl

/-- Of the filters that are decided between, those that are chosen stay, or where there are none,
one of them. -/
theorem decideFilters_cases {r : Request} {c : Conflict}
    (hsome : ∃ f ∈ r.filters, isInvolved c f = true) (answer : String) :
    (∃ p change, (r.decideFilters c answer).1.filters =
        keepFirst (isInvolved c) p change r.filters) ∧
      (∀ f ∈ r.filters, isInvolved c f = true → f.isChosen answer = false) ∨
    (r.decideFilters c answer).1.filters =
      r.filters.filter fun f => !isInvolved c f || f.isChosen answer := by
  obtain ⟨f, hf, hin⟩ := hsome
  have hgroup : (r.filters.filter (isInvolved c)).isEmpty = false :=
    List.isEmpty_eq_false_iff_exists_mem.mpr ⟨f, List.mem_filter.mpr ⟨hf, hin⟩⟩
  unfold decideFilters FilterMention.isChosen
  simp only [hgroup, Bool.false_eq_true, if_false]
  split
  · next hmerge => exact .inl ⟨⟨_, _, rfl⟩, fun _ _ _ => by simp [hmerge]⟩
  · next hmerge =>
    simp only [Bool.eq_false_iff.mpr hmerge, Bool.not_false, Bool.true_and]
    split
    · exact .inr rfl
    · next hother =>
      refine .inl ⟨by split <;> exact ⟨_, _, rfl⟩, fun g hg hinvolved => ?_⟩
      simpa using List.any_eq_false.mp (Bool.eq_false_iff.mpr hother) g
        (List.mem_filter.mpr ⟨hg, hinvolved⟩)

end Request

namespace Mapping

variable {ctx : Context}

theorem group_content (hvalid : ctx.IsValid) (r : Request) (key : String) :
    (ctx.group r key).map withContent =
      (r.filters.filterMap fun f => (ctx.content? f).map (f, ·)).filter (·.2.key = key) := by
  rw [← mapFilters_content hvalid r.filters (dimensionsDraft_step ctx r).sound, List.filter_map]
  rfl

/-- The filters of a target are those that look at it. -/
theorem group_mentions (hvalid : ctx.IsValid) (r : Request) (key : String) :
    (ctx.group r key).map (·.1) = r.filters.filter (ctx.looksAt key) := by
  have hmentions : (ctx.group r key).map (·.1) = ((ctx.group r key).map withContent).map (·.1) := by
    rw [List.map_map]
    rfl
  rw [hmentions, group_content hvalid]
  generalize r.filters = fs
  induction fs with
  | nil => rfl
  | cons f fs ih =>
    rw [List.filterMap_cons, List.filter_cons, ← ih, Context.looksAt]
    cases ctx.content? f with
    | none => rfl
    | some x => by_cases hkey : x.key = key <;> simp [hkey]

/-- Filters that stay say what they said. -/
theorem group_filter (hvalid : ctx.IsValid) {r r' : Request} {p : FilterMention → Bool}
    (h : r'.filters = r.filters.filter p) (key : String) :
    (ctx.group r' key).map withContent = ((ctx.group r key).filter (p ·.1)).map withContent := by
  have hfilter : ((ctx.group r key).filter (p ·.1)).map withContent =
      ((ctx.group r key).map withContent).filter (p ·.1) := by
    rw [List.filter_map]
    rfl
  rw [hfilter, group_content hvalid, group_content hvalid, h]
  generalize r.filters = fs
  induction fs with
  | nil => rfl
  | cons f fs ih =>
    cases hcontent : ctx.content? f with
    | none => cases hp : p f <;> simpa [List.filterMap_cons, hp, hcontent] using ih
    | some x =>
      cases hp : p f <;> by_cases hkey : x.key = key <;>
        simpa [List.filterMap_cons, hp, hcontent, hkey] using ih

theorem group_congr (hvalid : ctx.IsValid) {r r' : Request} (h : r'.filters = r.filters)
    (key : String) :
    conflictingFilters? (ctx.group r' key) = conflictingFilters? (ctx.group r key) :=
  conflictingFilters?_congr (by rw [group_content hvalid, group_content hvalid, h])

/-- The filters of the target that is asked about are those of the request that look at it, and they
are all decided between. -/
theorem group_involved (hvalid : ctx.IsValid) {r : Request} {key : String} {c : Conflict}
    (hkey : conflictingFilters? (ctx.group r key) = some c) :
    (∀ x ∈ ctx.group r key, x.1 ∈ r.filters ∧ Request.isInvolved c x.1 = true) ∧
      ∀ f ∈ r.filters, ctx.looksAt key f = true → Request.isInvolved c f = true := by
  have hinvolved : ∀ x ∈ ctx.group r key, Request.isInvolved c x.1 = true := fun x hx =>
    List.contains_iff_mem.mpr ((mem_suggestions hkey _).mpr (.inl ⟨x, hx, rfl⟩))
  refine ⟨fun x hx => ⟨?_, hinvolved x hx⟩, fun f hf hlooks => ?_⟩
  · have hin := List.mem_map_of_mem (f := (·.1)) hx
    rw [group_mentions hvalid] at hin
    exact List.mem_of_mem_filter hin
  · have hin := List.mem_filter.mpr ⟨hf, hlooks⟩
    rw [← group_mentions hvalid] at hin
    obtain ⟨x, hx, rfl⟩ := List.mem_map.mp hin
    exact hinvolved x hx

theorem exists_mem_group {group : List (FilterMention × ReportFilter)} {c : Conflict}
    (h : conflictingFilters? group = some c) : ∃ x, x ∈ group :=
  List.exists_mem_of_ne_nil group fun hnil => by
    rw [hnil] at h
    cases h

/-- What an answer leaves of the filters that are asked about raises a conflict just if those that
are chosen do. -/
theorem decided_group (hvalid : ctx.IsValid) {r r' : Request} {key answer : String} {c : Conflict}
    (hkey : conflictingFilters? (ctx.group r key) = some c)
    (hfilters : r'.filters = (r.decideFilters c answer).1.filters) :
    conflictingFilters? (ctx.group r' key) =
      conflictingFilters? ((ctx.group r key).filter (·.1.isChosen answer)) := by
  obtain ⟨hinvolved, hlooks⟩ := group_involved hvalid hkey
  obtain ⟨x, hx⟩ := exists_mem_group hkey
  rcases Request.decideFilters_cases ⟨x.1, hinvolved x hx⟩ answer with
    ⟨⟨p, change, hkeep⟩, hnone⟩ | hstay
  · -- where one filter is kept, no two of the target are left, and none was chosen
    have hshort : (ctx.group r' key).length ≤ 1 := by
      rw [← List.length_map (·.1), group_mentions hvalid, hfilters, hkeep]
      exact Request.keepFirst_short hlooks
    have hnil : (ctx.group r key).filter (·.1.isChosen answer) = [] :=
      List.filter_eq_nil_iff.mpr fun y hy => by
        simp [hnone y.1 (hinvolved y hy).1 (hinvolved y hy).2]
    rw [conflictingFilters?_short hshort, hnil]
    rfl
  · refine conflictingFilters?_congr ?_
    rw [group_filter hvalid (hfilters.trans hstay) key]
    refine congrArg _ (List.filter_congr fun y hy => ?_)
    simp [(hinvolved y hy).2]

/-- The filters exclude each other, and the first one goes by the phrase of the question. -/
def AsksAgain (c : Conflict) (fs : List (FilterMention × ReportFilter)) : Prop :=
  anyIncompatible (fs.map (·.2)) = true ∧ fs.head?.any (sameTerm ·.2.term c.term) = true

instance (c : Conflict) (fs : List (FilterMention × ReportFilter)) : Decidable (AsksAgain c fs) :=
  inferInstanceAs (Decidable (_ ∧ _))

theorem asksAgain_iff {c : Conflict} (hc : Excludes c) {fs : List (FilterMention × ReportFilter)} :
    AsksAgain c fs ↔ ∃ c', conflictingFilters? fs = some c' ∧ c'.id = c.id := by
  rw [hc.id]
  unfold AsksAgain conflictingFilters?
  cases fs with
  | nil => simp
  | cons x fs =>
    simp only [List.head?_cons, Option.any_some, Request.sameTerm_iff]
    cases anyIncompatible ((x :: fs).map (·.2)) with
    | true => simp [Conflict.make, Conflict.idOf_eq_iff]
    | false => simp

/-! ## What is asked about -/

/-- The mapping of the request leaves a question of the id. -/
def Context.Asks (ctx : Context) (r : Request) (id : String) : Prop :=
  ∃ c ∈ (ctx.map r).conflicts, c.id = id

/-- What filters that exclude each other raise is asked about. -/
theorem asks_of_exclusive {r : Request} {key : String} {c : Conflict}
    (h : conflictingFilters? (ctx.group r key) = some c) : ctx.Asks r c.id := by
  have hin : c ∈ filterConflicts (ctx.filtersDraft r).2 := by
    obtain ⟨x, hx⟩ := exists_mem_group h
    obtain ⟨hx, hkey⟩ := List.mem_filter.mp hx
    refine List.mem_filterMap.mpr ⟨key, ?_, h⟩
    rw [targetKeys, List.mem_mergeSort, List.mem_eraseDups]
    exact List.mem_map.mpr ⟨x, hx, of_decide_eq_true hkey⟩
  exact asked_of_raises (raising_raised ctx r).compared_final
    (Draft.ids_mem_foldl_raise _ (ctx.filtersDraft r).1 c hin)

/-- A sort that means nothing for certain is asked about. -/
theorem asks_of_sort {r : Request} {s : SortMention} (hs : r.sortBy = some s) {c : Conflict}
    (h : ctx.resolveField .sort .metric s.field 1 none = .error c) : ctx.Asks r c.id := by
  have hids : c.id ∈ (ctx.sortedDraft r).1.ids := by
    unfold Context.sortedDraft Context.mapSort
    simp only [hs, h]
    exact (ctx.comparedDraft r).id_mem_raise c
  exact asked_of_raises (raising_raised ctx r).finalDraft hids

/-- The question was raised by the mapping, is answered by an option, and offers this one. -/
structure Context.Offers (ctx : Context) (round : Round) (c : Conflict) (o : String) : Prop where
  isOpen : c ∈ round.request.conflicts
  found : c.reported = false
  kind : c.promptKind = .selection ∨ c.promptKind = .confirmation
  option : o ∈ c.suggestions

namespace Context.Offers

variable {r : Request} {round : Round} {c c' : Conflict} {o : String}

theorem raised (hround : round.Of ctx r) (h : ctx.Offers round c o) : ctx.Raised r c :=
  raised_of_open hround h.isOpen h.found

/-- A question that is asked again is raised by the same part of the request. -/
theorem again (hvalid : ctx.IsValid) (hround : round.Of ctx r) (h : ctx.Offers round c o)
    (hasks : ctx.Asks (round.after c.id o) c.id) : ∃ c', c'.id = c.id ∧
      ctx.Source (round.after c.id o) c' ∧ c'.kind = c.kind ∧ c'.entity = c.entity := by
  obtain ⟨c', hc', hid⟩ := hasks
  have hraised := raised_again hround (Answered.all_from round.request _) h.isOpen h.found hc' hid
  exact ⟨c', hid, hraised.source hvalid, (h.raised hround).alike hvalid hraised hid⟩

/-- After a blank option the question is still open. -/
theorem blank (hround : round.Of ctx r) (h : ctx.Offers round c o) (hblank : Text.trim o = "") :
    ctx.Asks (round.after c.id o) c.id := by
  have hidle : ∀ p ∈ [(c.id, o)], Answered.Idle round.request.conflicts p :=
    fun p hp => .inr ((List.mem_singleton.mp hp) ▸ hblank)
  obtain ⟨warnings, hall⟩ := Answered.all_idle hidle
  have hopen : Round.after round c.id o = { r with
      conflicts := (ctx.map r).conflicts.filter (·.reported), snapshot := some ctx.stamp } := by
    rw [Round.after, hall]
    simp only [Answered.openRequest, hround.request, hround.outcome, List.contains_nil,
      Bool.not_false, Bool.and_true]
  have hin := h.isOpen
  rw [hround.request, hround.outcome] at hin
  refine ⟨c, ?_, rfl⟩
  rwa [hopen, map_openConflicts]

/-- The name of an entry settles what a mentioned metric or dimension means. -/
theorem mention (hvalid : ctx.IsValid) (hround : round.Of ctx r) (h : ctx.Offers round c o)
    (hblank : Text.trim o ≠ "") (hkind : c.kind = .ambiguous)
    (hentity : c.entity = .metric ∨ c.entity = .dimension) :
    ¬ ctx.Asks (round.after c.id o) c.id := by
  have hentry : ctx.HasEntry c.entity o := by
    obtain ⟨-, ⟨m, -, hmetric, -, herror⟩ | ⟨x, -, hdimension, -, herror⟩⟩ :=
      raised_mention hvalid (h.raised hround) (.inl hkind) hentity
    · exact hmetric ▸ resolve_offers herror hkind o h.option
    · exact hdimension ▸ resolve_offers herror hkind o h.option
  have hnames : ctx.Names round c (c.id, o) :=
    ⟨h.isOpen, rfl, .inl hkind, hentity, h.found, hentry, hblank⟩
  have hall : ∀ p ∈ Responses.ordered [(c.id, o)], ∃ c, ctx.Names round c p :=
    fun p hp => ⟨c, List.mem_singleton.mp hp ▸ hnames⟩
  have hapart : ctx.Apart round (Responses.ordered [(c.id, o)]) :=
    fun p hp p' hp' _ _ _ _ _ _ => (List.mem_singleton.mp hp).trans (List.mem_singleton.mp hp').symm
  have hpinned := hasPinned_all hvalid hround hall hapart
  rintro ⟨c', hc', hid⟩
  exact answered_notOpen hvalid hround (Answered.all_from _ _) hpinned (List.mem_singleton_self _)
    hnames c' hc' hid

/-- The name of an entry is pinned to what the question is about. -/
theorem pinned (hround : round.Of ctx r) (h : ctx.Offers round c o) (hblank : Text.trim o ≠ "")
    (hkind : c.kind = .ambiguous) : (Answered.all round.request [(c.id, o)]).request =
      (round.request.pin c (Text.trim o)).1 := by
  rw [all_one hround h.isOpen, Request.respond_pin (.inl hkind) hblank]

/-- The name of an entry settles what a mentioned filter means. -/
theorem filter (hvalid : ctx.IsValid) (hround : round.Of ctx r) (h : ctx.Offers round c o)
    (hblank : Text.trim o ≠ "") (hkind : c.kind = .ambiguous) (hentity : c.entity = .filter) :
    ¬ ctx.Asks (round.after c.id o) c.id := by
  intro hasks
  obtain ⟨c', hid, hsource', hkind', hentity'⟩ := h.again hvalid hround hasks
  have hsource := (h.raised hround).source hvalid
  simp only [Context.Source, hkind, hentity, hkind', hentity'] at hsource hsource'
  obtain ⟨f, -, herror⟩ := hsource
  obtain ⟨f', hf', herror'⟩ := hsource'
  have hterm : sameTerm f'.field c.term = true := by
    rw [Request.sameTerm_iff, (resolveField_error herror).about]
    exact (resolveField_error herror).term_eq (resolveField_error herror') hid
  have hfilters : f' ∈ (round.request.pinFilters c.term (Text.trim o)).filters := by
    rw [← Request.pin_filter hentity, ← h.pinned hround hblank hkind]
    exact hf'
  rcases Request.mem_changeWhere hfilters with ⟨-, hother⟩ | ⟨g, -, rfl⟩
  · cases hterm.symm.trans hother
  · obtain ⟨entry, hentry⟩ :=
      resolveField_pinned (resolveField_offers herror hkind o h.option) g.field g.confidence
    cases hentry.symm.trans herror'

/-- The sort is then one by the name of the entry, which is asked about again where it is the same
term. -/
theorem sort_iff (hvalid : ctx.IsValid) (hround : round.Of ctx r) (h : ctx.Offers round c o)
    (hblank : Text.trim o ≠ "") (hkind : c.kind = .ambiguous) (hentity : c.entity = .sort) :
    ctx.Asks (round.after c.id o) c.id ↔ sameTerm o c.term = true := by
  have hsource := (h.raised hround).source hvalid
  simp only [Context.Source, hkind, hentity] at hsource
  obtain ⟨s, hs, herror⟩ := hsource
  have hunclear := resolveField_error herror
  have hnamed : (round.after c.id o).sortBy = some { s with field := Text.trim o } := by
    show (Answered.all round.request [(c.id, o)]).request.sortBy = _
    rw [h.pinned hround hblank hkind, Request.pin_sort hentity, hunclear.about]
    simp [Request.nameSort, hround.request, hs, Request.sameTerm_self]
  rw [Request.sameTerm_iff, hunclear.about, ← Term.ofPhrase_trim o]
  constructor
  · intro hasks
    obtain ⟨c', hid, hsource', hkind', hentity'⟩ := h.again hvalid hround hasks
    simp only [Context.Source, hkind, hentity, hkind', hentity'] at hsource'
    obtain ⟨s', hs', herror'⟩ := hsource'
    cases hnamed.symm.trans hs'
    exact hunclear.term_eq (resolveField_error herror') hid
  · intro hterm
    have hphrase : ctx.resolveFieldPhrase .sort .metric s.field 1 = .error c := herror
    obtain ⟨c', hagain, hkind'⟩ := resolveFieldPhrase_again hphrase hkind hterm
    have hnext : ctx.resolveField .sort .metric (Text.trim o) 1 none = .error c' := by
      rw [Context.resolveField, hagain]
    have hid : c'.id = c.id := by
      rw [(resolveFieldPhrase_error hagain).id, hunclear.id, hkind', hkind]
      exact Conflict.idOf_eq_iff.mpr hterm
    exact hid ▸ asks_of_sort hnamed hnext

/-- A metric that is added is not missing. -/
theorem missing (hvalid : ctx.IsValid) (hround : round.Of ctx r) (h : ctx.Offers round c o)
    (hblank : Text.trim o ≠ "") (hkind : c.kind = .missingRequired) :
    ¬ ctx.Asks (round.after c.id o) c.id := by
  intro hasks
  obtain ⟨c', -, hsource', hkind', -⟩ := h.again hvalid hround hasks
  have hsource := (h.raised hround).source hvalid
  simp only [Context.Source, hkind, hkind'] at hsource hsource'
  obtain ⟨rfl, -⟩ := hsource
  have hlacks := hsource'.2
  simp only [Context.lacksMetric, Bool.and_eq_true, List.isEmpty_iff] at hlacks
  have hnone : (Answered.all round.request [(ctx.missingMetric.id, o)]).request.metrics = [] :=
    hlacks.1.1
  have hadded : round.request.respond ctx.missingMetric o =
      (round.request.addMetric (Text.trim o) (Text.trim o), none) := by
    unfold Request.respond
    simp only
    rw [if_neg (by simpa using hblank)]
    rfl
  rw [all_one hround h.isOpen, hadded] at hnone
  simp [Request.addMetric] at hnone

/-- The option decides between the filters. -/
theorem decided (hround : round.Of ctx r) (h : ctx.Offers round c o) (hblank : Text.trim o ≠ "")
    (hkind : c.kind = .conflicting) : (round.after c.id o).filters =
      (r.decideFilters c (Text.trim o)).1.filters := by
  have hrespond : round.request.respond c o = round.request.decideFilters c (Text.trim o) := by
    unfold Request.respond
    simp only [hkind]
    rw [if_neg (by simpa using hblank)]
  show (Answered.all round.request [(c.id, o)]).request.filters = _
  rw [all_one hround h.isOpen, hrespond]
  exact Request.decideFilters_congr (by rw [hround.request]) c _

/-- Filters of one target raise the question again, just if those of the target that is asked about
do that were chosen, or those of another target. -/
theorem decided_iff (hvalid : ctx.IsValid) (hround : round.Of ctx r) (h : ctx.Offers round c o)
    (hblank : Text.trim o ≠ "") (hkind : c.kind = .conflicting) {next : Request}
    (hnext : next.filters = (round.after c.id o).filters) :
    ctx.Asks (round.after c.id o) c.id ↔
    (∃ key, conflictingFilters? (ctx.group r key) = some c ∧
      AsksAgain c ((ctx.group r key).filter (·.1.isChosen (Text.trim o)))) ∨
    ∃ key, conflictingFilters? (ctx.group r key) ≠ some c ∧ AsksAgain c (ctx.group next key) := by
  have hsource := (h.raised hround).source hvalid
  simp only [Context.Source, hkind] at hsource
  have hexcludes := filterConflicts_exclude hsource
  have hgroups : ctx.Asks (round.after c.id o) c.id ↔
      ∃ key, AsksAgain c (ctx.group next key) := by
    simp only [asksAgain_iff hexcludes, group_congr hvalid hnext]
    constructor
    · intro hasks
      obtain ⟨c', hid, hsource', hkind', -⟩ := h.again hvalid hround hasks
      simp only [Context.Source, hkind, hkind'] at hsource'
      obtain ⟨key, -, hkey⟩ := List.mem_filterMap.mp hsource'
      exact ⟨key, c', hkey, hid⟩
    · rintro ⟨key, c', hkey, hid⟩
      have hasks := asks_of_exclusive hkey
      rwa [hid] at hasks
  have hchosen {key : String} (hkey : conflictingFilters? (ctx.group r key) = some c) :
      AsksAgain c (ctx.group next key) ↔
        AsksAgain c ((ctx.group r key).filter (·.1.isChosen (Text.trim o))) := by
    rw [asksAgain_iff hexcludes, asksAgain_iff hexcludes,
      decided_group hvalid hkey (hnext.trans (h.decided hround hblank hkind))]
  rw [hgroups]
  constructor
  · rintro ⟨key, hasks⟩
    by_cases hkey : conflictingFilters? (ctx.group r key) = some c
    · exact .inl ⟨key, hkey, (hchosen hkey).mp hasks⟩
    · exact .inr ⟨key, hkey, hasks⟩
  · rintro (⟨key, hkey, hasks⟩ | ⟨key, -, hasks⟩)
    · exact ⟨key, (hchosen hkey).mpr hasks⟩
    · exact ⟨key, hasks⟩

end Context.Offers

/-- Where the dictionary is valid, an option that a question offers settles it, with three kinds of
exceptions. A blank option is refused. A sort is asked about again by the name of the entry that was
chosen, which is the same question where the name has the term of the phrase. And of filters that
exclude each other, all those stay whose condition is the option in any letter case, and they raise
the question again where they still exclude each other. The filters of another target that go by the
same phrase can raise it as well. -/
theorem offered_open_iff (hvalid : ctx.IsValid) {r : Request} {round : Round}
    (hround : round.Of ctx r) {c : Conflict} {o : String} (h : ctx.Offers round c o) :
    ∃ next, ctx.apply round.request [(c.id, o)] = .ok next ∧
      ((∃ c' ∈ next.request.conflicts, c'.id = c.id) ↔
        Text.trim o = "" ∨
        c.kind = .ambiguous ∧ c.entity = .sort ∧ sameTerm o c.term = true ∨
        c.kind = .conflicting ∧
          ((∃ key, conflictingFilters? (ctx.group r key) = some c ∧
              AsksAgain c ((ctx.group r key).filter (·.1.isChosen (Text.trim o)))) ∨
            ∃ key, conflictingFilters? (ctx.group r key) ≠ some c ∧
              AsksAgain c (ctx.group next.request key))) := by
  refine ⟨_, Context.apply_isOk rfl hround _, ?_⟩
  have hnext := ctx.continued_of round.request [(c.id, o)]
  generalize Context.apply.continued ctx round.request [(c.id, o)] = next at hnext
  have hasks : (∃ c' ∈ next.request.conflicts, c'.id = c.id) ↔
      ctx.Asks (round.after c.id o) c.id := by
    rw [hnext.request, hnext.outcome]
    rfl
  rw [hasks]
  by_cases hblank : Text.trim o = ""
  · exact iff_of_true (h.blank hround hblank) (.inl hblank)
  have hprompt := h.kind
  cases hkind : c.kind with
  | ambiguous =>
    cases hentity : c.entity with
    | metric =>
      exact iff_of_false (h.mention hvalid hround hblank hkind (.inl hentity)) (by simp [hblank])
    | dimension =>
      exact iff_of_false (h.mention hvalid hround hblank hkind (.inr hentity)) (by simp [hblank])
    | filter =>
      exact iff_of_false (h.filter hvalid hround hblank hkind hentity) (by simp [hblank])
    | sort =>
      rw [h.sort_iff hvalid hround hblank hkind hentity]
      simp [hblank]
    | timeRange =>
      have hsource := (h.raised hround).source hvalid
      simp only [Context.Source, hkind, hentity] at hsource
  | missingRequired =>
    exact iff_of_false (h.missing hvalid hround hblank hkind) (by simp [hblank])
  | conflicting =>
    have hfilters : next.request.filters = (round.after c.id o).filters := by
      rw [hnext.request]
      rfl
    rw [h.decided_iff hvalid hround hblank hkind hfilters]
    simp [hblank]
  | unknown => simp [Conflict.promptKind, hkind] at hprompt
  | invalidValue => simp [Conflict.promptKind, hkind] at hprompt

end Mapping

namespace Wagers

open Mapping

/-- The turnover of wagers on a title that is spelled in two ways. -/
def spelled : Request :=
  { metrics := [{ name := "turnover", pinned := some "Turnover" }]
    filters := [{ field := "title", value := .one "Chess", pinned := some "Title" },
      { field := "title", value := .one "chess", pinned := some "Title" }] }

theorem spelled_conflicts : (context.begin spelled).request.conflicts =
    ["Games.Title"].filterMap fun key => conflictingFilters? (context.group spelled key) := by
  have hkeys : targetKeys (context.filtersDraft spelled).2 = ["Games.Title"] := by
    have hnames : ((context.filtersDraft spelled).2.map (·.2.targetKey)).eraseDups =
        ["Games.Title"] := by decide +kernel
    rw [targetKeys, hnames]
    exact List.mergeSort_singleton _
  have hfinal : context.finalDraft spelled = context.comparedDraft spelled := rfl
  show (context.map spelled).conflicts = _
  rw [context.map_eq, hfinal, Context.comparedDraft, filterConflicts, hkeys]
  decide +kernel

/-- Whichever spelling is chosen, the question between the two comes back. -/
theorem offered_open_iff_spelled : context.IsValid ∧
    ∃ c, context.Offers (context.begin spelled) c "equals Chess" ∧
      ∃ next, context.apply (context.begin spelled).request [(c.id, "equals Chess")] = .ok next ∧
        ∃ c' ∈ next.request.conflicts, c'.id = c.id := by
  have hvalid : context.IsValid := by
    unfold Mapping.Context.IsValid
    decide +kernel
  have hopen : ∃ c ∈ (context.begin spelled).request.conflicts,
      c.reported = false ∧ c.kind = .conflicting ∧ "equals Chess" ∈ c.suggestions ∧
        conflictingFilters? (context.group spelled "Games.Title") = some c ∧
          AsksAgain c ((context.group spelled "Games.Title").filter
            (·.1.isChosen (Text.trim "equals Chess"))) := by
    rw [spelled_conflicts]
    decide +kernel
  obtain ⟨c, hc, hfound, hkind, hoption, hkey, hagain⟩ := hopen
  have hoffers : context.Offers (context.begin spelled) c "equals Chess" :=
    ⟨hc, hfound, .inr (by rw [Conflict.promptKind, hkind]), hoption⟩
  obtain ⟨next, hnext, hiff⟩ := offered_open_iff hvalid (context.begin_of spelled) hoffers
  exact ⟨hvalid, c, hoffers, next, hnext, hiff.mpr (.inr (.inr ⟨hkind, .inl ⟨_, hkey, hagain⟩⟩))⟩

end Wagers

end MetricLayer
