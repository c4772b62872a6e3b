import Mathlib.Data.List.TFAE
import Mathlib.Tactic.TFAE
import MetricLayer.Proofs.Pattern.Scan
import MetricLayer.Proofs.Question.Termination

/-!
# Conditions of a text

The first conditions of a text are found by a scan, and each of them has followers, which begin with
"and", one right behind the other. The scan goes on behind the first condition and not behind its
last follower. As the field of a follower can have several words, one of them can be a word that a
first condition begins with: "and players with device is mobile" is a follower in which "with device
is mobile" is found once more.

`Condition.ReadsOn` is the reading that goes on behind the followers. It is the reading of the text
if and only if no first condition begins within a follower.

Results:
1. `Condition.exists_adjoin_withChain`: a first condition and its followers stand one right behind
   the other.
2. `Dictionary.request_filters`: a request has one filter for each condition, in their order.
3. `Dictionary.conditions_apart_iff`: the conditions of a text share no character if and only if no
   first condition begins within a follower.
-/

namespace MetricLayer

namespace Span

/-- No place lies in both spans. -/
def Apart (s t : Span) : Prop := ∀ i, ¬ (s.covers i = true ∧ t.covers i = true)

/-- The one span ends before the other one begins. -/
def Before (s t : Span) : Prop := s.stop ≤ t.start

theorem covers_iff {s : Span} {i : Nat} : s.covers i = true ↔ s.start ≤ i ∧ i < s.stop := by
  simp [covers]

theorem Before.apart {s t : Span} (h : s.Before t) : s.Apart t := by
  rintro i ⟨hs, ht⟩
  rw [covers_iff] at hs ht
  unfold Before at h
  omega

theorem Apart.symm {s t : Span} (h : s.Apart t) : t.Apart s := fun i hi => h i hi.symm

end Span

namespace Condition

open Cursor (place)

variable {cs : List Char} {m : Pattern.Match} {found : List Condition} {i j k : Nat}

/-- The matches of the first conditions. -/
def firsts (cs : List Char) : List Pattern.Match := Phrase.firstCondition.findAll cs

/-- The conditions that follow a first one. -/
def followers (cs : List Char) (m : Pattern.Match) : List Condition :=
  chain cs.length (cs.drop m.span.stop) m.span.stop

theorem scan_firsts (cs : List Char) : Phrase.firstCondition.Scan cs 0 (firsts cs) :=
  have hneeds : Phrase.firstCondition.needsOther Text.blanks = true := by decide +kernel
  Pattern.scan_findAll (Pattern.takesSome_of_needsOther hneeds) cs

/-! ## Conditions one behind the other -/

/-- The conditions fill the text from one place to the other, each one beginning where the one in
front of it ends. -/
inductive Adjoin : Nat → List Condition → Nat → Prop
  | nil {i : Nat} : Adjoin i [] i
  | cons {i j : Nat} {c : Condition} {found : List Condition} (hstart : c.span.start = i)
      (hlt : i < c.span.stop) (rest : Adjoin c.span.stop found j) : Adjoin i (c :: found) j

namespace Adjoin

theorem le (h : Adjoin i found j) : i ≤ j := by
  induction h with
  | nil => exact Nat.le_refl _
  | cons _ hlt _ ih => omega

theorem mem (h : Adjoin i found j) {c : Condition} (hc : c ∈ found) :
    i ≤ c.span.start ∧ c.span.start < c.span.stop ∧ c.span.stop ≤ j := by
  induction h with
  | nil => cases hc
  | cons hstart hlt rest ih =>
    rcases List.mem_cons.mp hc with rfl | hc
    · exact ⟨by omega, by omega, rest.le⟩
    · obtain ⟨hfrom, hspan⟩ := ih hc
      exact ⟨by omega, hspan⟩

theorem pairwise (h : Adjoin i found j) : found.Pairwise fun a b => a.span.Before b.span := by
  induction h with
  | nil => exact .nil
  | cons _ _ rest ih => exact .cons (fun c hc => (rest.mem hc).1) ih

/-- Every place in between lies in one of the conditions. -/
theorem exists_covers (h : Adjoin i found j) (hik : i ≤ k) (hkj : k < j) :
    ∃ c ∈ found, c.span.covers k = true := by
  induction h with
  | nil => omega
  | @cons _ _ c _ hstart _ _ ih =>
    rcases Nat.lt_or_ge k c.span.stop with hstop | hstop
    · exact ⟨c, List.mem_cons_self, Span.covers_iff.mpr ⟨by omega, hstop⟩⟩
    · obtain ⟨c', hc', hcovers⟩ := ih hstop hkj
      exact ⟨c', List.mem_cons_of_mem c hc', hcovers⟩

end Adjoin

theorem exists_adjoin_chain (fuel : Nat) (hi : i ≤ cs.length) :
    ∃ stop ≤ cs.length, Adjoin i (chain fuel (cs.drop i) i) stop := by
  induction fuel generalizing i with
  | zero => exact ⟨i, hi, .nil⟩
  | succ fuel ih =>
    rw [chain_succ]
    cases hnext : next? cs i with
    | none => exact ⟨i, hi, .nil⟩
    | some c =>
      obtain ⟨hstart, hlt, hle⟩ := next?_spec hnext
      obtain ⟨stop, hstop, hadjoin⟩ := ih hle
      exact ⟨stop, hstop, .cons hstart hlt hadjoin⟩

/-- The followers of a first condition begin where it ends. -/
theorem exists_adjoin_followers (hm : m ∈ firsts cs) :
    ∃ stop ≤ cs.length, Adjoin m.span.stop (followers cs m) stop :=
  exists_adjoin_chain cs.length ((scan_firsts cs).mem hm).2.2.1

/-- A first condition and its followers stand one right behind the other. -/
theorem exists_adjoin_withChain (hm : m ∈ firsts cs) :
    ∃ stop ≤ cs.length, Adjoin m.span.start (withChain cs m) stop := by
  obtain ⟨stop, hle, hadjoin⟩ := exists_adjoin_followers hm
  exact ⟨stop, hle, .cons rfl ((scan_firsts cs).mem hm).2.1 hadjoin⟩

/-- Every condition of a text takes some of it. -/
theorem span_of_mem_list {c : Condition} (hc : c ∈ list cs) :
    c.span.start < c.span.stop ∧ c.span.stop ≤ cs.length := by
  obtain ⟨m, hm, hc⟩ := List.mem_flatMap.mp hc
  obtain ⟨stop, hle, hadjoin⟩ := exists_adjoin_withChain hm
  obtain ⟨-, hlt, hstop⟩ := hadjoin.mem hc
  exact ⟨hlt, Nat.le_trans hstop hle⟩

/-! ## First conditions within followers -/

/-- No first condition begins within a follower of a first condition. -/
def NoneWithin (cs : List Char) : Prop :=
  ∀ m ∈ firsts cs, ∀ c ∈ followers cs m, ∀ i, c.span.covers i = true →
    Phrase.firstCondition.matchAt (place cs i) = none

/-- The conditions from a place on, if each first condition is looked for behind the followers of
the one in front of it. -/
inductive ReadsOn (cs : List Char) : Nat → List Condition → Prop
  | done {i : Nat} (hnone : ∀ j, i ≤ j → j ≤ cs.length →
      Phrase.firstCondition.matchAt (place cs j) = none) : ReadsOn cs i []
  | next {i stop : Nat} {m : Pattern.Match} {found : List Condition} (hstart : i ≤ m.span.start)
      (hfree : ∀ j, i ≤ j → j < m.span.start →
        Phrase.firstCondition.matchAt (place cs j) = none)
      (hmatch : Phrase.firstCondition.matchAt (place cs m.span.start) = some m)
      (hadjoin : Adjoin m.span.start (withChain cs m) stop) (rest : ReadsOn cs stop found) :
      ReadsOn cs i (withChain cs m ++ found)

theorem ReadsOn.le_start (h : ReadsOn cs i found) {c : Condition} (hc : c ∈ found) :
    i ≤ c.span.start := by
  induction h with
  | done => cases hc
  | next hstart _ _ hadjoin _ ih =>
    rcases List.mem_append.mp hc with hc | hc
    · exact Nat.le_trans hstart (hadjoin.mem hc).1
    · exact Nat.le_trans hstart (Nat.le_trans hadjoin.le (ih hc))

/-- The reading that goes on behind the followers reads no character twice. -/
theorem ReadsOn.pairwise (h : ReadsOn cs i found) :
    found.Pairwise fun a b => a.span.Before b.span := by
  induction h with
  | done => exact .nil
  | next _ _ _ hadjoin rest ih =>
    refine List.pairwise_append.mpr ⟨hadjoin.pairwise, ih, fun a ha b hb => ?_⟩
    exact Nat.le_trans (hadjoin.mem ha).2.2 (rest.le_start hb)

/-- Where nothing begins within the followers, the scan may as well go on behind them. -/
theorem readsOn_of_scan {ms : List Pattern.Match} (h : Phrase.firstCondition.Scan cs i ms)
    (hms : ∀ m ∈ ms, m ∈ firsts cs) (hnone : NoneWithin cs) :
    ReadsOn cs i (ms.flatMap (withChain cs)) := by
  induction ms generalizing i with
  | nil =>
    cases h with
    | done hfree => exact .done hfree
  | cons m ms ih =>
    obtain ⟨hm, hms⟩ := List.forall_mem_cons.mp hms
    cases h with
    | next hstart hfree hlt _ hmatch rest =>
      obtain ⟨stop, -, hfollowers⟩ := exists_adjoin_followers hm
      have hlater : Phrase.firstCondition.Scan cs stop ms :=
        rest.later hfollowers.le fun k hk hstop => by
          obtain ⟨c, hc, hcovers⟩ := hfollowers.exists_covers hk hstop
          exact hnone m hm c hc k hcovers
      exact .next hstart hfree hmatch (.cons rfl hlt hfollowers) (ih hlater hms)

/-- If a first condition begins within a follower, then one of those that are found does. -/
theorem exists_first_within (hm : m ∈ firsts cs) {c : Condition} (hc : c ∈ followers cs m)
    (hcovers : c.span.covers i = true)
    (hmatch : Phrase.firstCondition.matchAt (place cs i) ≠ none) :
    ∃ c' ∈ followers cs m, ∃ m' ∈ firsts cs, c'.span.covers m'.span.start = true := by
  obtain ⟨stop, hle, hfollowers⟩ := exists_adjoin_followers hm
  have hspan := hfollowers.mem hc
  rw [Span.covers_iff] at hcovers
  obtain ⟨m', hm', hstart, hstop⟩ :=
    (scan_firsts cs).exists_covers (Nat.zero_le i) (by omega) hmatch
  have hlt := ((scan_firsts cs).mem hm).2.1
  have hne : m ≠ m' := by
    rintro rfl
    omega
  -- the scan finds `m'` in front of `m` or behind it, and `i` lies behind `m`
  have hapart := (scan_firsts cs).apart hm hm' hne
  obtain ⟨c', hc', hcovers'⟩ := hfollowers.exists_covers (k := m'.span.start) (by omega) (by omega)
  exact ⟨c', hc', m', hm', hcovers'⟩

/-- If no two conditions share a character, the scan finds none within the followers. -/
theorem covers_eq_false_of_apart (h : ((list cs).map span).Pairwise Span.Apart) (hm : m ∈ firsts cs)
    {c : Condition} (hc : c ∈ followers cs m) {m' : Pattern.Match} (hm' : m' ∈ firsts cs) :
    c.span.covers m'.span.start = false := by
  by_contra hcovers
  rw [Bool.not_eq_false] at hcovers
  obtain ⟨-, hbetween⟩ := List.pairwise_flatMap.mp (List.pairwise_map.mp h)
  obtain ⟨stop, -, hfollowers⟩ := exists_adjoin_followers hm
  have hspan := hfollowers.mem hc
  have hlt := ((scan_firsts cs).mem hm').2.1
  have hne : m ≠ m' := by
    rintro rfl
    rw [Span.covers_iff] at hcovers
    omega
  let R (m m' : Pattern.Match) : Prop :=
    ∀ a ∈ withChain cs m, ∀ b ∈ withChain cs m', a.span.Apart b.span
  have hsymm : Std.Symm R := ⟨fun _ _ h b hb a ha => (h a ha b hb).symm⟩
  have hapart : R m m' := List.Pairwise.forall hbetween hm hm' hne
  exact hapart c (List.mem_cons_of_mem _ hc) (ofMatch m' cs 0) List.mem_cons_self m'.span.start
    ⟨hcovers, Span.covers_iff.mpr ⟨Nat.le_refl _, hlt⟩⟩

/-- Whether no character is read twice, seen from the spans, from the first conditions and from the
reading that goes on behind the followers. -/
theorem tfae_noneWithin (cs : List Char) :
    [NoneWithin cs,
      ReadsOn cs 0 (list cs),
      ((list cs).map span).Pairwise Span.Before,
      ((list cs).map span).Pairwise Span.Apart,
      ∀ m ∈ firsts cs, ∀ c ∈ followers cs m, ∀ m' ∈ firsts cs,
        c.span.covers m'.span.start = false].TFAE := by
  tfae_have 1 → 2 := readsOn_of_scan (scan_firsts cs) fun _ hm => hm
  tfae_have 2 → 3 := fun h => List.pairwise_map.mpr h.pairwise
  tfae_have 3 → 4 := List.Pairwise.imp Span.Before.apart
  tfae_have 4 → 5 := fun h m hm c hc m' hm' => covers_eq_false_of_apart h hm hc hm'
  tfae_have 5 → 1 := by
    intro h m hm c hc i hcovers
    by_contra hmatch
    obtain ⟨c', hc', m', hm', hcovers'⟩ := exists_first_within hm hc hcovers hmatch
    rw [h m hm c' hc' m' hm'] at hcovers'
    cases hcovers'
  tfae_finish

end Condition

/-! ## Filters of a request -/

namespace Reading

variable {r : Reading}

/-- The text in which the conditions of a question are looked for: the question without the
comparisons, the period and the limit. -/
def conditionText (question : String) : List Char :=
  (ofText question).comparisons.period.limit.1.rest

theorem filters_limit : r.limit.1.request.filters = r.request.filters := by
  unfold limit
  split
  · rfl
  · split <;> rfl

theorem filters_period : r.period.request.filters = r.request.filters := by
  unfold period
  split <;> rfl

theorem filters_sort : r.sort.request.filters = r.request.filters := by
  unfold sort
  split <;> rfl

theorem filters_groupings : r.groupings.request.filters = r.request.filters := by
  suffices h : ∀ fuel (r : Reading),
      (Grouping.readAll fuel r).request.filters = r.request.filters from h _ r
  intro fuel
  induction fuel with
  | zero => exact fun _ => rfl
  | succ fuel ih =>
    intro r
    rw [Grouping.readAll]
    split
    · rfl
    · exact ih _

theorem filters_metricTerms? {ps : List Pattern} {t : Reading} (h : metricTerms? ps r = some t) :
    t.request.filters = r.request.filters := by
  have hread (p : Pattern) (fuel : Nat) (r t : Reading)
      (h : MetricTerm.readAll? p fuel r = some t) : t.request.filters = r.request.filters := by
    induction fuel generalizing r with
    | zero => rw [← Option.some.inj h]
    | succ fuel ih =>
      rw [MetricTerm.readAll?] at h
      split at h
      · rw [← Option.some.inj h]
      · split at h
        · have hrest := ih _ h
          exact hrest
        · cases h
  induction ps generalizing r with
  | nil => rw [← Option.some.inj h]
  | cons p ps ih =>
    obtain ⟨s, hs, ht⟩ := Option.bind_eq_some_iff.mp h
    rw [ih ht, hread p _ r s hs]

theorem filters_toRequest (ranking : Option Direction) :
    (r.toRequest ranking).filters = r.request.filters := by
  have hlead : r.leadMetric.request.filters = r.request.filters := by
    unfold leadMetric
    split
    · split <;> rfl
    · rfl
  rw [← hlead]
  unfold toRequest rank
  dsimp only
  split <;> rfl

end Reading

namespace Dictionary

/-- A request has one filter for each condition, in the order in which they are read. -/
theorem request_filters {d : Dictionary} {question : String} {request : Request}
    (h : d.request question = .ok request) :
    request.filters = (Condition.list (Reading.conditionText question)).map Condition.filter := by
  obtain ⟨-, hextracts⟩ := request_eq_ok_iff.mp h
  obtain ⟨t, ht, rfl⟩ := extracts_iff.mp hextracts
  rw [Reading.filters_toRequest, Reading.filters_metricTerms? ht, Reading.filters_groupings,
    Reading.filters_sort]
  have hnone : (Reading.ofText question).comparisons.period.limit.1.request.filters = [] := by
    rw [Reading.filters_limit, Reading.filters_period]
    rfl
  show _ ++ _ = _
  rw [hnone]
  rfl

/-- A question gives one filter for each of its conditions, and each condition takes text. No
character is read for two of them if and only if no first condition begins within a follower. This
is also when the conditions are read in the order of the text, when the scan finds no first condition
within a follower, and when the reading is the one that goes on behind the followers. -/
theorem conditions_apart_iff (d : Dictionary) :
    (∀ question request, d.request question = .ok request → request.filters =
      (Condition.list (Reading.conditionText question)).map Condition.filter) ∧
    ∀ cs, (∀ c ∈ Condition.list cs, c.span.start < c.span.stop ∧ c.span.stop ≤ cs.length) ∧
      [Condition.NoneWithin cs,
        Condition.ReadsOn cs 0 (Condition.list cs),
        ((Condition.list cs).map Condition.span).Pairwise Span.Before,
        ((Condition.list cs).map Condition.span).Pairwise Span.Apart,
        ∀ m ∈ Condition.firsts cs, ∀ c ∈ Condition.followers cs m, ∀ m' ∈ Condition.firsts cs,
          c.span.covers m'.span.start = false].TFAE :=
  ⟨fun _ _ => request_filters, fun cs =>
    ⟨fun _ => Condition.span_of_mem_list, Condition.tfae_noneWithin cs⟩⟩

end Dictionary

/-- Without a dictionary every question that is not blank gives a request. -/
theorem Dictionary.exists_request_empty {question : String}
    (h : Text.isBlankText question = false) :
    ∃ request, Dictionary.empty.request question = .ok request := by
  have hreturns : Dictionary.empty.Returns question :=
    Dictionary.NoBlankPhrase.returns (fun _ hm => by cases hm) question
  rcases hreturns with hblank | ⟨request, hextracts⟩
  · rw [h] at hblank
    cases hblank
  · exact ⟨request, Dictionary.request_eq_ok_iff.mpr ⟨h, hextracts⟩⟩

namespace Wagers

/-- A question with two conditions, in the second of which "with" belongs to the field. -/
def twoConditions : String := "deposits where country is UK and players with device is mobile"

/-- The question gives three filters. The last one is read from characters that were read before. -/
theorem conditions_apart_iff_players :
    (∃ request, Dictionary.empty.request twoConditions = .ok request ∧
      request.filters.map (fun f => (f.field, f.value)) = [("country", .one "UK"),
        ("players with device", .one "mobile"), ("device", .one "mobile")]) ∧
    let spans := (Condition.list (Reading.conditionText twoConditions)).map Condition.span
    spans = [⟨9, 28⟩, ⟨28, 62⟩, ⟨41, 62⟩] ∧ ¬ spans.Pairwise Span.Apart ∧
      ¬ Condition.NoneWithin (Reading.conditionText twoConditions) := by
  obtain ⟨hfilters, hconditions⟩ := Dictionary.conditions_apart_iff Dictionary.empty
  have htext : Reading.conditionText twoConditions = twoConditions.toList := by decide +kernel
  have hspans : (Condition.list twoConditions.toList).map Condition.span =
      [⟨9, 28⟩, ⟨28, 62⟩, ⟨41, 62⟩] := by decide +kernel
  have hread : (Condition.list twoConditions.toList).map
      (fun c => (c.filter.field, c.filter.value)) =
      [("country", .one "UK"), ("players with device", .one "mobile"),
        ("device", .one "mobile")] := by decide +kernel
  have hshared : ¬ ((Condition.list twoConditions.toList).map Condition.span).Pairwise
      Span.Apart := by
    rw [hspans]
    intro h
    have hlast := (List.pairwise_cons.mp (List.pairwise_cons.mp h).2).1 ⟨41, 62⟩
    exact hlast (List.mem_singleton_self _) 41 (by decide)
  obtain ⟨-, htfae⟩ := hconditions twoConditions.toList
  have hnone : ¬ Condition.NoneWithin twoConditions.toList :=
    fun h => hshared ((htfae.out 0 3).mp h)
  have hwords : Text.isBlankText twoConditions = false := by decide +kernel
  obtain ⟨request, hrequest⟩ := Dictionary.exists_request_empty hwords
  rw [htext]
  refine ⟨⟨request, hrequest, ?_⟩, hspans, hshared, hnone⟩
  rw [hfilters twoConditions request hrequest, htext, List.map_map]
  exact hread

end Wagers

end MetricLayer
