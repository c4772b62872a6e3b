import MetricLayer.Proofs.Report.Mentioned
import MetricLayer.Proofs.Schema.Names
import MetricLayer.Proofs.Text.Trim

/-!
# Filters that exclude each other

An answer to a question about filters of one target is meant for these filters. The question does not
say which they are: they are found again by the words for their conditions, which it offers as
options. A filter of another target that happens to have a condition in the same words is decided
between as well, and can be dropped. All filters whose conditions are in other words stay.

Results:
1. `Request.decideFilters_sublist`: the filters whose conditions are not offered stay as they are.
2. `Request.decideFilters_new`: a new value takes the place of all conditions that are offered.
3. `mem_suggestions`: what a question about filters offers.
4. `decided_keeps_iff`: when an answer leaves all filters of other targets as they are.
-/

namespace MetricLayer

open Mapping

/-! ## One response -/

/-- What a filter says: its phrase and its condition. -/
def FilterMention.said (f : FilterMention) : String × String × FilterValues × Bool :=
  (f.field, f.operator, f.value, f.negated)

/-- What a filter says tells the words for its condition. -/
theorem FilterMention.describe_eq {f g : FilterMention} (h : f.said = g.said) :
    f.describe = g.describe := by
  simp only [said, Prod.mk.injEq] at h
  obtain ⟨-, hoperator, hvalue, hnegated⟩ := h
  simp only [describe, operator?, hoperator, hvalue, hnegated]

namespace Request

variable {involved p : FilterMention → Bool} {change : FilterMention → FilterMention}

/-- What is not involved stays. -/
theorem keepFirst_sublist (fs : List FilterMention) :
    (fs.filter (!involved ·)).Sublist (keepFirst involved p change fs) := by
  induction fs with
  | nil => exact .refl _
  | cons f fs ih =>
    unfold keepFirst
    cases hf : involved f with
    | false => simpa [hf] using ih
    | true =>
      simp only [List.filter_cons, hf, Bool.not_true, Bool.false_eq_true, if_false, if_true]
      split
      · exact .cons _ (.refl _)
      · exact ih

/-- Besides what is not involved, only what is changed stays. -/
theorem mem_keepFirst {fs : List FilterMention} {x : FilterMention}
    (h : x ∈ keepFirst involved p change fs) : involved x = false ∨ ∃ f ∈ fs, x = change f := by
  induction fs with
  | nil => cases h
  | cons f fs ih =>
    have hrest (h : x ∈ keepFirst involved p change fs) :
        involved x = false ∨ ∃ g ∈ f :: fs, x = change g :=
      (ih h).imp_right fun ⟨g, hg, hx⟩ => ⟨g, List.mem_cons_of_mem f hg, hx⟩
    unfold keepFirst at h
    split at h
    · split at h
      · rcases List.mem_cons.mp h with rfl | h
        · exact .inr ⟨f, List.mem_cons_self, rfl⟩
        · exact .inl (by simpa using (List.mem_filter.mp h).2)
      · exact hrest h
    · next hf =>
      rcases List.mem_cons.mp h with rfl | h
      · exact .inl (by simpa using hf)
      · exact hrest h

/-- The filters whose conditions are not offered stay as they are, in their order. -/
theorem decideFilters_sublist (r : Request) (c : Conflict) (answer : String) :
    (r.filters.filter (!isInvolved c ·)).Sublist (r.decideFilters c answer).1.filters := by
  unfold decideFilters
  simp only
  split
  · exact List.filter_sublist
  · simp only
    split
    · exact keepFirst_sublist r.filters
    · split
      · exact List.monotone_filter_right _ fun f hf => by simp_all
      · split
        · exact keepFirst_sublist r.filters
        · exact keepFirst_sublist r.filters

theorem respond_sublist {c : Conflict} (hkind : c.kind = .conflicting) (r : Request)
    (response : String) :
    (r.filters.filter (!isInvolved c ·)).Sublist (r.respond c response).1.filters := by
  unfold respond
  simp only [hkind]
  split
  · exact List.filter_sublist
  · exact decideFilters_sublist r c _

/-- Texts of different lengths differ in more than letter case. -/
theorem differ_of_length {a b : String} (h : a.toList.length ≠ b.toList.length) :
    Text.eqIgnoringAsciiCase a b = false := by
  rw [Text.eqIgnoringAsciiCase, beq_eq_false_iff_ne]
  intro hsame
  have hlength := congrArg (fun s : String => s.toList.length) hsame
  simp only [Text.lowerAscii, String.toList_ofList, List.length_map] at hlength
  exact h hlength

/-- There is always a text that is longer than others. -/
theorem exists_longer (texts : List String) : ∃ answer, Text.trim answer = answer ∧ answer ≠ "" ∧
    ∀ t ∈ texts, t.toList.length < answer.toList.length := by
  let n := (texts.map (·.toList.length)).sum + 1
  have hletters : ∀ x ∈ List.replicate n 'a', Text.isBlank x = false := by
    intro x hx
    rw [List.eq_of_mem_replicate hx]
    decide +kernel
  refine ⟨String.ofList (List.replicate n 'a'), ?_, ?_, fun t ht => ?_⟩
  · -- there is no blank to cut off
    obtain ⟨before, after, hbefore, hafter, hall⟩ := Text.exists_trimChars (List.replicate n 'a')
    have hnone {xs : List Char} (hxs : xs ⊆ List.replicate n 'a')
        (hblank : ∀ x ∈ xs, Text.isBlank x = true) : xs = [] :=
      List.eq_nil_iff_forall_not_mem.mpr fun x hx => by
        cases (hblank x hx).symm.trans (hletters x (hxs hx))
    have hb : before = [] := hnone (by
      conv_rhs => rw [hall, List.append_assoc]
      exact List.subset_append_left _ _) hbefore
    have ha : after = [] := hnone (by
      conv_rhs => rw [hall]
      exact List.subset_append_right _ _) hafter
    rw [hb, ha, List.nil_append, List.append_nil] at hall
    rw [Text.trim, String.toList_ofList, ← hall]
  · intro hempty
    have hlength := congrArg (fun s : String => s.toList.length) hempty
    simp [n] at hlength
  · have hle : t.toList.length ≤ (texts.map (·.toList.length)).sum :=
      List.single_le_sum (fun _ _ => Nat.zero_le _) _ (List.mem_map_of_mem ht)
    rw [String.toList_ofList, List.length_replicate]
    omega

/-- The answer is neither the condition nor a value of a filter, and does not ask for all values. -/
structure IsNew (r : Request) (answer : String) : Prop where
  all : Text.eqIgnoringAsciiCase answer mergeOption = false
  conditions : ∀ f ∈ r.filters, Text.eqIgnoringAsciiCase f.describe answer = false
  values : ∀ f ∈ r.filters, ∀ v ∈ f.value.toList, Text.eqIgnoringAsciiCase v answer = false

/-- A new value takes the place of all conditions that are offered. -/
theorem decideFilters_new {r : Request} {c : Conflict} {answer : String} (h : r.IsNew answer)
    (hinvolved : ∃ f ∈ r.filters, isInvolved c f = true) :
    (r.decideFilters c answer).1.filters = keepFirst (isInvolved c) (fun _ => true)
      (fun f => { f with operator := "equals", value := .one answer, negated := false })
      r.filters := by
  obtain ⟨f, hf, hin⟩ := hinvolved
  have hgroup : (r.filters.filter (isInvolved c)).isEmpty = false :=
    List.isEmpty_eq_false_iff_exists_mem.mpr ⟨f, List.mem_filter.mpr ⟨hf, hin⟩⟩
  have hchosen : (r.filters.filter (isInvolved c)).any
      (fun f => Text.eqIgnoringAsciiCase f.describe answer) = false :=
    List.any_eq_false.mpr fun f hf => by simp [h.conditions f (List.mem_of_mem_filter hf)]
  have hvalue : (r.filters.filter (isInvolved c)).any
      (fun f => f.value.toList.any (Text.eqIgnoringAsciiCase · answer)) = false :=
    List.any_eq_false.mpr fun f hf => by
      simpa using h.values f (List.mem_of_mem_filter hf)
  simp only [decideFilters, hgroup, h.all, hchosen, hvalue, Bool.false_eq_true, if_false]

/-- After a new value, no filter says what one said whose condition was offered. -/
theorem not_said_new {r : Request} {c : Conflict} {answer : String} (h : r.IsNew answer)
    {f : FilterMention} (hf : f ∈ r.filters) (hin : isInvolved c f = true) :
    f.said ∉ (r.decideFilters c answer).1.filters.map FilterMention.said := by
  rw [decideFilters_new h ⟨f, hf, hin⟩]
  intro hsaid
  obtain ⟨x, hx, hsame⟩ := List.mem_map.mp hsaid
  rcases mem_keepFirst hx with hout | ⟨g, hg, rfl⟩
  · -- the words for its condition would not be offered
    rw [isInvolved, FilterMention.describe_eq hsame, ← isInvolved, hin] at hout
    cases hout
  · have hvalue : f.value = .one answer :=
      (congrArg (·.2.2.1) hsame).symm
    have hother := h.values f hf answer (by simp [hvalue, FilterValues.toList])
    rw [Text.eqIgnoringAsciiCase_refl] at hother
    cases hother

/-- There is always an answer that is new. -/
theorem exists_new (r : Request) :
    ∃ answer, Text.trim answer = answer ∧ answer ≠ "" ∧ r.IsNew answer := by
  -- it is longer than all texts that it is compared with
  let texts := mergeOption :: r.filters.flatMap fun f => f.describe :: f.value.toList
  obtain ⟨answer, htrim, hblank, hlong⟩ := exists_longer texts
  have hmem {f : FilterMention} (hf : f ∈ r.filters) {t : String}
      (ht : t ∈ f.describe :: f.value.toList) : t ∈ texts :=
    List.mem_cons_of_mem _ (List.mem_flatMap.mpr ⟨f, hf, ht⟩)
  refine ⟨answer, htrim, hblank, ?_, ?_, ?_⟩
  · exact differ_of_length (hlong mergeOption List.mem_cons_self).ne'
  · exact fun f hf => differ_of_length (hlong _ (hmem hf List.mem_cons_self)).ne
  · exact fun f hf v hv =>
      differ_of_length (hlong _ (hmem hf (List.mem_cons_of_mem _ hv))).ne

end Request

namespace Mapping

variable {ctx : Context}

/-! ## Rounds -/

/-- The mentioned filters that are mapped to the target, with what they are mapped to. -/
def Context.group (ctx : Context) (r : Request) (key : String) :
    List (FilterMention × ReportFilter) :=
  (ctx.filtersDraft r).2.filter (·.2.targetKey = key)

/-- The mentioned filters that are mapped to another target, in their order. -/
def Context.bystanders (ctx : Context) (r : Request) (key : String) : List FilterMention :=
  ((ctx.filtersDraft r).2.filter (·.2.targetKey ≠ key)).map (·.1)

theorem mapFilters_sublist (fs : List FilterMention) (d : Draft) :
    ((ctx.mapFilters fs d).2.map (·.1)).Sublist fs := by
  induction fs generalizing d with
  | nil => exact .refl _
  | cons f fs ih =>
    rw [mapFilters_cons]
    cases (ctx.mapFilter f d).2 with
    | none => exact (ih _).cons f
    | some x => exact (ih _).cons_cons f

theorem bystanders_sublist (r : Request) (key : String) :
    (ctx.bystanders r key).Sublist r.filters :=
  (List.filter_sublist.map _).trans (mapFilters_sublist r.filters _)

/-- A question about filters offers the conditions of the filters that exclude each other, and to keep
all values where each of them has to equal one. -/
theorem mem_suggestions {group : List (FilterMention × ReportFilter)} {c : Conflict}
    (h : conflictingFilters? group = some c) (text : String) :
    text ∈ c.suggestions ↔ (∃ x ∈ group, x.1.describe = text) ∨
      text = mergeOption ∧ ∀ x ∈ group, x.2.operator = .equals ∧ x.2.negated = false := by
  unfold conflictingFilters? at h
  split at h
  · cases h
  · next mention first rest =>
    generalize (mention, first) :: rest = group at h ⊢
    have hall : (group.all fun x => x.2.operator = .equals && !x.2.negated) = true ↔
        ∀ x ∈ group, x.2.operator = .equals ∧ x.2.negated = false := by
      simp [List.all_eq_true]
    split at h
    · cases h
      rw [← hall]
      simp only [Conflict.make, List.mem_append, List.mem_eraseDups, List.mem_map]
      refine or_congr Iff.rfl ?_
      split
      · next hyes => rw [List.mem_singleton, and_iff_left hyes]
      · next hno => exact iff_of_false List.not_mem_nil fun h => hno h.2
    · cases h

/-- The condition of a filter is not offered where it is in other words than those of the group. -/
theorem not_offered {group : List (FilterMention × ReportFilter)} {c : Conflict}
    (h : conflictingFilters? group = some c) (f : FilterMention) :
    f.describe ∉ c.suggestions ↔ (∀ x ∈ group, f.describe ≠ x.1.describe) ∧
      (mergeOption ∈ c.suggestions → f.describe ≠ mergeOption) := by
  constructor
  · intro hno
    refine ⟨fun x hx hsame => hno ?_, fun hmerge hsame => hno (hsame ▸ hmerge)⟩
    exact (mem_suggestions h _).mpr (.inl ⟨x, hx, hsame.symm⟩)
  · rintro ⟨hgroup, hmerge⟩ hin
    rcases (mem_suggestions h _).mp hin with ⟨x, hx, hsame⟩ | ⟨hsame, -⟩
    · exact hgroup x hx hsame.symm
    · exact hmerge (hsame ▸ hin) hsame

/-- A question about filters that did not come with the request is about filters of one target. -/
theorem exists_group {r : Request} {round : Round} (hround : round.Of ctx r) {c : Conflict}
    (hopen : c ∈ round.request.conflicts) (hkind : c.kind = .conflicting)
    (hfound : c.reported = false) : ∃ key, conflictingFilters? (ctx.group r key) = some c := by
  have hunclear {entity : EntityKind} {phrase : String} (h : Unclear entity phrase c) :
      ¬ c.kind = .conflicting := by
    rcases h.kind with h | h <;> rw [h] <;> decide
  cases comes_of_open hround hopen hfound with
  | mention _ h => exact absurd hkind (hunclear h)
  | metric h => exact absurd hkind (hunclear h)
  | sort h _ => exact absurd hkind (hunclear h)
  | value _ h => cases h.kind.symm.trans hkind
  | exclusive h =>
    obtain ⟨key, -, hkey⟩ := List.mem_filterMap.mp h
    exact ⟨key, hkey⟩
  | missing => cases hkind

/-- The request after one response. -/
theorem all_one {r : Request} {round : Round} (hround : round.Of ctx r) {c : Conflict}
    (hopen : c ∈ round.request.conflicts) (response : String) :
    (Answered.all round.request [(c.id, response)]).request =
      (round.request.respond c response).1 := by
  show (Answered.step round.request.conflicts { request := round.request }
    (c.id, response)).request = _
  rcases Answered.step_cases round.request.conflicts { request := round.request }
    (c.id, response) with ⟨hnone, -⟩ | ⟨c', hc', hid, hstep⟩
  · exact absurd rfl (hnone c hopen)
  · obtain rfl := open_unique hround hopen hc' hid
    rcases hstep with ⟨-, hstep⟩ | ⟨e, -, hstep⟩ <;> rw [hstep]

/-- The filters of the round after one response. -/
theorem apply_one {r : Request} {round : Round} (hround : round.Of ctx r) {c : Conflict}
    (hopen : c ∈ round.request.conflicts) (response : String) :
    ∃ next, ctx.apply round.request [(c.id, response)] = .ok next ∧
      next.request.filters = (round.request.respond c response).1.filters := by
  refine ⟨_, Context.apply_isOk rfl hround _, ?_⟩
  rw [(ctx.continued_of round.request _).request, ← all_one hround hopen response]
  rfl

/-- A question about filters that exclude each other is about the filters of one target. An answer
leaves all filters as they are, in their order, whose conditions are not offered. So all filters of
other targets still say what they said after every answer, just if the condition of none of them is
offered, which happens where it is in the words of one of the filters that are asked about. -/
theorem decided_keeps_iff {r : Request} {round : Round} (hround : round.Of ctx r) {c : Conflict}
    (hopen : c ∈ round.request.conflicts) (hkind : c.kind = .conflicting)
    (hfound : c.reported = false) :
    (∃ key, conflictingFilters? (ctx.group r key) = some c) ∧
    (∀ answer, ∃ next, ctx.apply round.request [(c.id, answer)] = .ok next ∧
      (r.filters.filter (!c.suggestions.contains ·.describe)).Sublist next.request.filters) ∧
    ∀ key, conflictingFilters? (ctx.group r key) = some c →
      ((∀ answer next, ctx.apply round.request [(c.id, answer)] = .ok next →
        ((ctx.bystanders r key).map FilterMention.said).Sublist
          (next.request.filters.map FilterMention.said)) ↔
      ∀ f ∈ ctx.bystanders r key, (∀ x ∈ ctx.group r key, f.describe ≠ x.1.describe) ∧
        (mergeOption ∈ c.suggestions → f.describe ≠ mergeOption)) := by
  have hfilters : round.request.filters = r.filters := by rw [hround.request]
  have hframe (answer : String) : ∃ next, ctx.apply round.request [(c.id, answer)] = .ok next ∧
      (r.filters.filter (!Request.isInvolved c ·)).Sublist next.request.filters := by
    obtain ⟨next, hnext, heq⟩ := apply_one hround hopen answer
    refine ⟨next, hnext, ?_⟩
    rw [heq, ← hfilters]
    exact Request.respond_sublist hkind round.request answer
  refine ⟨exists_group hround hopen hkind hfound, hframe, fun key hkey => ?_⟩
  have hsublist : (ctx.bystanders r key).Sublist r.filters := bystanders_sublist r key
  rw [forall₂_congr fun f _ => (not_offered hkey f).symm]
  constructor
  · intro h f hf hoffered
    -- a new value takes the place of all conditions that are offered
    have hin : f ∈ round.request.filters := hfilters ▸ hsublist.subset hf
    obtain ⟨answer, htrim, hblank, hnew⟩ := round.request.exists_new
    obtain ⟨next, hnext, heq⟩ := apply_one hround hopen answer
    have hrespond : round.request.respond c answer = round.request.decideFilters c answer := by
      unfold Request.respond
      simp only [htrim, hkind]
      rw [if_neg (by simpa using hblank)]
    have hsaid := (h answer next hnext).subset (List.mem_map_of_mem hf)
    rw [heq, hrespond] at hsaid
    exact Request.not_said_new hnew hin (List.contains_iff_mem.mpr hoffered) hsaid
  · intro h answer next hnext
    obtain ⟨next', hnext', hstay⟩ := hframe answer
    cases hnext.symm.trans hnext'
    have hself : (ctx.bystanders r key).filter (!Request.isInvolved c ·) =
        ctx.bystanders r key :=
      List.filter_eq_self.mpr fun f hf => by simpa [Request.isInvolved] using h f hf
    rw [← hself]
    exact ((hsublist.filter _).trans hstay).map _

end Mapping

namespace Wagers

open Mapping

/-- The turnover of wagers whose title is missing and not missing, and whose day is missing. -/
def untitled : Request :=
  { metrics := [{ name := "turnover", pinned := some "Turnover" }]
    filters := [{ field := "title", operator := "is null", pinned := some "Title" },
      { field := "title", operator := "is not null", pinned := some "Title" },
      { field := "day", operator := "is null", pinned := some "Day" }] }

theorem untitled_keys : targetKeys (context.filtersDraft untitled).2 =
    ["Bets.Placed", "Games.Title"] := by
  have hkeys : ((context.filtersDraft untitled).2.map (·.2.targetKey)).eraseDups =
      ["Games.Title", "Bets.Placed"] := by decide +kernel
  rw [targetKeys, hkeys]
  simp [List.mergeSort]

theorem untitled_conflicts : (context.begin untitled).request.conflicts =
    ["Bets.Placed", "Games.Title"].filterMap fun key =>
      conflictingFilters? (context.group untitled key) := by
  have hfinal : context.finalDraft untitled = context.comparedDraft untitled := rfl
  show (context.map untitled).conflicts = _
  rw [context.map_eq, hfinal, Context.comparedDraft, filterConflicts, untitled_keys]
  decide +kernel

/-- The question is about the titles, but it offers the condition of the day as well, so there is an
answer after which nothing is said about the day. -/
theorem decided_keeps_iff_untitled :
    ∃ c ∈ (context.begin untitled).request.conflicts,
      c.kind = .conflicting ∧ c.reported = false ∧
      conflictingFilters? (context.group untitled "Games.Title") = some c ∧
      (context.bystanders untitled "Games.Title").map (·.field) = ["day"] ∧
      ∃ answer next, context.apply (context.begin untitled).request [(c.id, answer)] = .ok next ∧
        ¬ ((context.bystanders untitled "Games.Title").map FilterMention.said).Sublist
          (next.request.filters.map FilterMention.said) := by
  have hopen : ∃ c ∈ (context.begin untitled).request.conflicts,
      c.kind = .conflicting ∧ c.reported = false ∧
      conflictingFilters? (context.group untitled "Games.Title") = some c := by
    rw [untitled_conflicts]
    decide +kernel
  obtain ⟨c, hc, hkind, hfound, hgroup⟩ := hopen
  refine ⟨c, hc, hkind, hfound, hgroup, by decide +kernel, ?_⟩
  have hiff := (decided_keeps_iff (context.begin_of untitled) hc hkind hfound).2.2 _ hgroup
  have halike : ∃ f ∈ context.bystanders untitled "Games.Title",
      ∃ x ∈ context.group untitled "Games.Title", f.describe = x.1.describe := by decide +kernel
  obtain ⟨f, hf, x, hx, hsame⟩ := halike
  by_contra hno
  push Not at hno
  exact (hiff.mp hno f hf).1 x hx hsame

end Wagers

end MetricLayer
