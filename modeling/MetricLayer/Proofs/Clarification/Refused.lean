import MetricLayer.Proofs.Clarification.Runs
import MetricLayer.Proofs.Report.Mentioned

/-!
# Responses that are refused

A response that is refused should leave the request as it was. The one way in which it does not is a
question about a dimension that the request does not mention: the answer is given to the filters and
the sort of the phrase before it turns out that no dimension has it. Such a question is open only if
the request sorts by a dimension whose column is not in the schema.

Results:
1. `Request.respond_refused`: what a response that is refused does to the request.
2. `Answered.undisturbed`: the same for all responses to a request.
3. `raised_lacking`: where a question about a dimension that is not mentioned comes from.
4. `refused_unchanged_iff`: which requests and which rounds a refused response can change.
-/

namespace MetricLayer

open Mapping

/-! ## One response -/

namespace Request

/-- The mapping asks about a dimension that the request does not mention. -/
structure LacksDimension (r : Request) (c : Conflict) : Prop where
  kind : c.kind = .ambiguous ∨ c.kind = .unknown
  entity : c.entity = .dimension
  found : c.reported = false
  unmentioned : ∀ x ∈ r.dimensions, sameTerm x.name c.term = false

/-- The answer is to such a question, and there is a filter or a sort of the phrase that means
something else so far. -/
structure Strays (r : Request) (c : Conflict) (answer : String) : Prop
    extends r.LacksDimension c where
  notBlank : answer ≠ ""
  elsewhere : (∃ f ∈ r.filters, sameTerm f.field c.term = true ∧ f.pinned ≠ some answer) ∨
    ∃ s, r.sortBy = some s ∧ sameTerm s.field c.term = true ∧ s.field ≠ answer

theorem sameTerm_self (phrase : String) : sameTerm phrase phrase = true := beq_self_eq_true _

/-- The request where the filters and the sort of a phrase mean the entry. -/
def retarget (r : Request) (term answer : String) : Request :=
  (r.pinFilters term answer).nameSort term answer

theorem changeWhere_eq_self {α : Type} {p : α → Bool} {f : α → α} {xs : List α} :
    changeWhere p f xs = xs ↔ ∀ x ∈ xs, p x = true → f x = x := by
  induction xs with
  | nil => simp [changeWhere]
  | cons x xs ih =>
    have hcons : changeWhere p f (x :: xs) = (if p x then f x else x) :: changeWhere p f xs := rfl
    rw [hcons, List.cons_eq_cons, ih, List.forall_mem_cons]
    refine and_congr_left' ?_
    split <;> simp_all

theorem pinFilters_filters {r : Request} {term answer : String} :
    (r.pinFilters term answer).filters = r.filters ↔
      ∀ f ∈ r.filters, sameTerm f.field term = true → f.pinned = some answer := by
  rw [pinFilters, changeWhere_eq_self]
  refine forall₂_congr fun f _ => imp_congr_right fun _ => ?_
  constructor
  · exact fun h => (congrArg FilterMention.pinned h).symm
  · intro h
    rw [← h]

theorem nameSort_sortBy {r : Request} {term answer : String} :
    (r.nameSort term answer).sortBy = r.sortBy ↔
      ∀ s, r.sortBy = some s → sameTerm s.field term = true → s.field = answer := by
  rw [nameSort]
  cases r.sortBy with
  | none => simp
  | some s =>
    simp only [Option.map_some, Option.some.injEq, forall_eq']
    split
    · next hterm =>
      simp only [hterm, forall_const]
      constructor
      · exact fun h => (congrArg SortMention.field h).symm
      · intro h
        rw [← h]
    · next hterm => simp [hterm]

/-- Nothing changes where the filters and the sort of the phrase mean the entry already. -/
theorem retarget_eq_self {r : Request} {term answer : String} :
    r.retarget term answer = r ↔
      (∀ f ∈ r.filters, sameTerm f.field term = true → f.pinned = some answer) ∧
        ∀ s, r.sortBy = some s → sameTerm s.field term = true → s.field = answer := by
  have hparts : r.retarget term answer = { r with
      filters := (r.pinFilters term answer).filters
      sortBy := (r.nameSort term answer).sortBy } := rfl
  rw [← pinFilters_filters, ← nameSort_sortBy]
  constructor
  · intro h
    exact ⟨(congrArg Request.filters h :), (congrArg Request.sortBy h :)⟩
  · rintro ⟨hfilters, hsort⟩
    rw [hparts, hfilters, hsort]

/-- An answer to such a question is refused after it was given to the filters and the sort. -/
theorem LacksDimension.respond_eq {r : Request} {c : Conflict} (h : r.LacksDimension c)
    {response : String} (hanswer : Text.trim response ≠ "") :
    r.respond c response =
      (r.retarget c.term (Text.trim response), some (.termUnused .dimension c.term)) := by
  have hnone : r.dimensions.any (sameTerm ·.name c.term) = false :=
    List.any_eq_false.mpr fun x hx => by simp [h.unmentioned x hx]
  rw [respond_pin h.kind hanswer, pin, h.entity]
  simp only [hnone, h.found, Bool.false_eq_true, if_false]
  rfl

/-- An answer that is pinned to nothing changes nothing, unless it is about a dimension. -/
theorem pin_refused {r : Request} {c : Conflict} {answer : String} {e : ResponseError}
    (h : (r.pin c answer).2 = some e) :
    (r.pin c answer).1 = r ∨ c.entity = .dimension ∧ c.reported = false ∧
      ∀ x ∈ r.dimensions, sameTerm x.name c.term = false := by
  unfold pin at h ⊢
  cases hentity : c.entity with
  | metric =>
    simp only [hentity] at h ⊢
    split at h
    · cases h
    · next hnone =>
      rw [if_neg hnone]
      split at h
      · cases h
      · next hfound => exact .inl (by rw [if_neg hfound])
  | dimension =>
    simp only [hentity] at h ⊢
    split at h
    · cases h
    · next hnone =>
      rw [if_neg hnone]
      split at h
      · cases h
      · next hfound =>
        rw [if_neg hfound]
        refine .inr ⟨trivial, by simpa using hfound, fun x hx => ?_⟩
        simpa using List.any_eq_false.mp (by simpa using hnone) x hx
  | filter =>
    simp only [hentity] at h ⊢
    split at h
    · cases h
    · next hnone => exact .inl (by rw [if_neg hnone])
  | sort =>
    simp only [hentity] at h ⊢
    split at h
    · cases h
    · next hnone => exact .inl (by rw [if_neg hnone])
  | timeRange =>
    rw [hentity] at h
    cases h

/-- A response that is refused changes nothing, unless it answers such a question. -/
theorem refused_cases {r : Request} {c : Conflict} {response : String} {e : ResponseError}
    (h : (r.respond c response).2 = some e) :
    (r.respond c response).1 = r ∨ r.LacksDimension c ∧ Text.trim response ≠ "" := by
  by_cases hblank : Text.trim response = ""
  · rw [respond_blank r c hblank]
    exact .inl rfl
  have hpinned (hkind : c.kind = .ambiguous ∨ c.kind = .unknown) :
      (r.respond c response).1 = r ∨ r.LacksDimension c ∧ Text.trim response ≠ "" := by
    rw [respond_pin hkind hblank] at h ⊢
    exact (pin_refused h).imp_right fun ⟨hentity, hfound, hnone⟩ =>
      ⟨⟨hkind, hentity, hfound, hnone⟩, hblank⟩
  cases hkind : c.kind with
  | ambiguous => exact hpinned (.inl hkind)
  | unknown => exact hpinned (.inr hkind)
  | missingRequired =>
    -- what is missing is added, whatever it is
    simp only [respond, hkind] at h
    rw [if_neg (by simpa using hblank)] at h
    split at h <;> cases h
  | invalidValue =>
    left
    simp only [respond, hkind, replaceValues] at h ⊢
    rw [if_neg (by simpa using hblank)] at h ⊢
    split at h
    · cases h
    · next hnone => rw [if_neg hnone]
  | conflicting =>
    left
    simp only [respond, hkind, decideFilters] at h ⊢
    rw [if_neg (by simpa using hblank)] at h ⊢
    split at h
    · next hgone => rw [if_pos hgone]
    · cases h

/-- A response that is refused leaves the request as it was if it does not stray; if it does, the
filters and the sort of the phrase mean the answer from then on. -/
theorem respond_refused {r : Request} {c : Conflict} {response : String} {e : ResponseError}
    (h : (r.respond c response).2 = some e) :
    ((r.respond c response).1 = r ↔ ¬ r.Strays c (Text.trim response)) ∧
      ((r.respond c response).1 = r ∨
        (r.respond c response).1 = r.retarget c.term (Text.trim response)) := by
  by_cases hlacks : r.LacksDimension c ∧ Text.trim response ≠ ""
  · obtain ⟨hlacks, hanswer⟩ := hlacks
    rw [hlacks.respond_eq hanswer]
    refine ⟨?_, .inr rfl⟩
    rw [retarget_eq_self]
    constructor
    · rintro ⟨hfilters, hsort⟩ hstrays
      rcases hstrays.elsewhere with ⟨f, hf, hterm, hother⟩ | ⟨s, hs, hterm, hother⟩
      · exact hother (hfilters f hf hterm)
      · exact hother (hsort s hs hterm)
    · intro hstays
      constructor
      · intro f hf hterm
        by_contra hother
        exact hstays ⟨hlacks, hanswer, .inl ⟨f, hf, hterm, hother⟩⟩
      · intro s hs hterm
        by_contra hother
        exact hstays ⟨hlacks, hanswer, .inr ⟨s, hs, hterm, hother⟩⟩
  · have hsame := (refused_cases h).resolve_right hlacks
    exact ⟨⟨fun _ hstrays => hlacks ⟨hstrays.toLacksDimension, hstrays.notBlank⟩, fun _ => hsame⟩,
      .inl hsame⟩

/-- What a request keeps does not come to lack a dimension. -/
theorem Keeps.lacks {r r' : Request} (hkeeps : r.Keeps r') {c : Conflict}
    (h : r'.LacksDimension c) : r.LacksDimension c where
  kind := h.kind
  entity := h.entity
  found := h.found
  unmentioned x hx := by
    obtain ⟨i, hi⟩ := List.mem_iff_getElem?.mp hx
    obtain ⟨y, hy, hpins⟩ := hkeeps.dimensions i x hi
    have hname : y.name = x.name := by rcases hpins with rfl | ⟨_, rfl⟩ <;> rfl
    rw [← hname]
    exact h.unmentioned y (List.mem_of_getElem? hy)

end Request

/-! ## All responses -/

namespace Answered

/-- What the responses have done to a request, in their order. -/
def after (r : Request) (responses : Responses) : Answered :=
  responses.foldl (step r.conflicts) { request := r }

/-- No response changes the request and is refused, whatever other responses it comes with. -/
def Undisturbed (r : Request) : Prop :=
  ∀ (responses before rest : Responses) (p : String × String) (e : ResponseError),
    responses.ordered = before ++ p :: rest →
      (step r.conflicts (after r before) p).warnings =
        (after r before).warnings ++ [.refused p.1 e] →
          (step r.conflicts (after r before) p).request = (after r before).request

theorem after_from (r : Request) (responses : Responses) : (after r responses).From r :=
  List.foldlRecOn (motive := fun a : Answered => a.From r) _ _
    ⟨.refl r, rfl, .inl rfl⟩ fun _ h p _ => step_from h p

/-- A request that lacks no dimension that is asked about is left as it was. -/
theorem undisturbed {r : Request} (h : ∀ c ∈ r.conflicts, ¬ r.LacksDimension c) :
    Undisturbed r := by
  intro responses before rest p e _ hrefused
  have hfrom := after_from r before
  rcases step_cases r.conflicts (after r before) p with
    ⟨-, hstep⟩ | ⟨c, hc, -, ⟨-, hstep⟩ | ⟨e', hsome, hstep⟩⟩
  · rw [hstep]
  · -- a response that is taken adds no warning
    rw [hstep] at hrefused
    exact absurd hrefused (by simp)
  · rcases Request.refused_cases hsome with hsame | ⟨hlacks, -⟩
    · rw [hstep, hsame]
    · exact absurd (hfrom.keeps.lacks hlacks) (h c hc)

/-- A response to one open question. -/
theorem step_refused {r : Request} {c : Conflict} (hc : c ∈ r.conflicts)
    (hunique : ∀ c' ∈ r.conflicts, c'.id = c.id → c' = c) {response : String} {e : ResponseError}
    (hrefused : (r.respond c response).2 = some e) :
    step r.conflicts { request := r } (c.id, response) =
      { request := (r.respond c response).1, warnings := [.refused c.id e] } := by
  rcases step_cases r.conflicts { request := r } (c.id, response) with
    ⟨hnone, -⟩ | ⟨c', hc', hid, hstep⟩
  · exact absurd rfl (hnone c hc)
  · obtain rfl := hunique c' hc' hid
    rcases hstep with ⟨hnone, -⟩ | ⟨e', hsome, hstep⟩
    · cases hrefused.symm.trans hnone
    · cases hrefused.symm.trans hsome
      exact hstep

end Answered

namespace Mapping

variable {ctx : Context}

/-! ## Rounds -/

/-- A question about a dimension that is not mentioned is about the phrase of the sort. -/
theorem raised_lacking {r : Request} {round : Round} (hround : round.Of ctx r) {c : Conflict}
    (hc : c ∈ round.request.conflicts) (h : round.request.LacksDimension c) :
    ctx.SortLacks round.request c := by
  have hcomes := comes_of_open hround hc h.found
  rw [hround.request] at h ⊢
  have hentity := h.entity
  cases hcomes with
  | mention hphrase hunclear =>
    rw [hunclear.of] at hentity
    subst hentity
    obtain ⟨x, hx, hname⟩ := List.mem_map.mp hphrase
    have hterm := h.unmentioned x hx
    rw [hname, hunclear.about, Request.sameTerm_self] at hterm
    cases hterm
  | metric hunclear => cases hunclear.of.symm.trans hentity
  | sort _ hsort => exact hsort
  | value _ hrefuses => cases hrefuses.of.symm.trans hentity
  | exclusive hexcludes => cases (filterConflicts_exclude hexcludes).of.symm.trans hentity
  | missing => cases hentity

/-- There is always something else to answer. -/
theorem exists_other (phrase : String) : ∃ answer, Text.trim answer ≠ "" ∧
    phrase ≠ Text.trim answer := by
  have ha : Text.trim "a" = "a" := by decide +kernel
  have hb : Text.trim "b" = "b" := by decide +kernel
  by_cases h : phrase = "a"
  · exact ⟨"b", by rw [hb]; decide, by rw [hb, h]; decide⟩
  · exact ⟨"a", by rw [ha]; decide, by rwa [ha]⟩

/-- The rounds in which a response that is refused can change the request. -/
theorem undisturbed_iff {r : Request} {round : Round} (hround : round.Of ctx r) :
    Answered.Undisturbed round.request ↔
      ∀ c ∈ round.request.conflicts, ¬ round.request.LacksDimension c := by
  refine ⟨fun h c hc hlacks => ?_, Answered.undisturbed⟩
  obtain ⟨s, -, -, hs, hfield, -⟩ := raised_lacking hround hc hlacks
  obtain ⟨answer, hanswer, hother⟩ := exists_other s.field
  have hrespond := hlacks.respond_eq hanswer
  have hstep := Answered.step_refused hc (fun _ hc' => open_unique hround hc hc')
    (congrArg Prod.snd hrespond)
  have hsame := h [(c.id, answer)] [] [] (c.id, answer) _ rfl (congrArg Answered.warnings hstep)
  rw [Answered.after, List.foldl_nil, hstep, hrespond] at hsame
  have hterm : sameTerm s.field c.term = true := hfield ▸ Request.sameTerm_self _
  exact hother ((Request.retarget_eq_self.mp hsame).2 s hs hterm)

/-- A response that is refused leaves the request exactly as it was, unless it answers a question
about a dimension that the request does not mention and a filter or the sort of the phrase means
something else so far; then these mean the answer. In a round that is handed out such a question is
about a sort by a dimension without a column. So the refused responses to a round change nothing, in
whatever company they come, just if no such question is open, and never where the dictionary is valid
for the schema. -/
theorem refused_unchanged_iff (ctx : Context) :
    (∀ (r : Request) (c : Conflict) (response : String) (e : ResponseError),
      (r.respond c response).2 = some e →
        ((r.respond c response).1 = r ↔ ¬ r.Strays c (Text.trim response)) ∧
          ((r.respond c response).1 = r ∨
            (r.respond c response).1 = r.retarget c.term (Text.trim response))) ∧
    ∀ round, ctx.HandsOut round →
      (Answered.Undisturbed round.request ↔
        ∀ c ∈ round.request.conflicts, ¬ round.request.LacksDimension c) ∧
      (∀ c ∈ round.request.conflicts, round.request.LacksDimension c →
        ctx.SortLacks round.request c) ∧
      (ctx.IsValid → Answered.Undisturbed round.request) := by
  refine ⟨fun r c response e h => Request.respond_refused h, fun round hround => ?_⟩
  obtain ⟨r, hround⟩ := hround.of
  refine ⟨undisturbed_iff hround, fun c hc h => raised_lacking hround hc h, fun hvalid => ?_⟩
  refine Answered.undisturbed fun c hc h => ?_
  obtain ⟨s, kind, name, -, -, hkind, hname, hno⟩ := raised_lacking hround hc h
  exact hno (hvalid.column hkind (resolveField_entry hname))

end Mapping

namespace Wagers

/-- The question that a sort by a dimension without a column raises. -/
def regionQuestion : Conflict :=
  .make .unknown .dimension "region" "Dimension 'Region' uses Games.Region, which is not in the schema"
    [] none

/-- The turnover by title, sorted by the region. -/
def byRegion : Request :=
  { request "Ch" with sortBy := some ⟨"region", .asc⟩, conflicts := [regionQuestion] }

/-- The answer is refused, and the request sorts by the title from then on. -/
theorem refused_unchanged_region :
    (byRegion.respond regionQuestion "Title").2 = some (.termUnused .dimension "region") ∧
      (byRegion.respond regionQuestion "Title").1 ≠ byRegion ∧
      (byRegion.respond regionQuestion "Title").1 = byRegion.retarget "region" "Title" := by
  have hrefused : (byRegion.respond regionQuestion "Title").2 =
      some (.termUnused .dimension "region") := by decide +kernel
  have hstrays : byRegion.Strays regionQuestion (Text.trim "Title") :=
    { kind := .inr rfl
      entity := rfl
      found := rfl
      unmentioned := by decide +kernel
      notBlank := by decide +kernel
      elsewhere := .inr ⟨⟨"region", .asc⟩, rfl, by decide +kernel⟩ }
  have h := (Mapping.refused_unchanged_iff context).1 byRegion regionQuestion "Title" _ hrefused
  have hchanged := fun hsame => h.1.mp hsame hstrays
  have hretarget := h.2.resolve_left hchanged
  rw [show Text.trim "Title" = "Title" by decide +kernel] at hretarget
  exact ⟨hrefused, hchanged, hretarget⟩

end Wagers

end MetricLayer
