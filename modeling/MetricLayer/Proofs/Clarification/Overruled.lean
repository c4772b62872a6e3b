import MetricLayer.Proofs.Clarification.Answers
import MetricLayer.Proofs.Clarification.Refused

/-!
# Answers that overrule others

The answers to a round are applied one after another, in the order of the ids of their questions. An
answer about a dimension is meant for the filters and the sort of its phrase as well, also where these
have an answer of their own. So of two answers that a filter has the later one counts, and the id of a
question decides which that is. Mentioned metrics and dimensions have one answer each, which stands.

Results:
1. `Request.mem_pins_pin` and `Request.pin_sortBy`: what one answer does to the mentions and the sort.
2. `Ruling.stands`: the last answer that covers a mention is pinned to it.
3. `Ruling.filter_stands_iff` and `Ruling.sort_stands_iff`: when the own answer of a filter or of the
   sort stands beside one about the dimension.
4. `answers_stand_iff`: which answers to a round stand.
-/

namespace MetricLayer

open Mapping

/-- An answer with the question that it is to. -/
structure Ruling where
  question : Conflict
  answer : String
  deriving DecidableEq, Repr

namespace Ruling

/-- The answer is meant for what is mentioned by the phrase: things of the kind that the question is
about, and where that is a dimension, filters and the sort as well. -/
structure Covers (x : Ruling) (k : EntityKind) (phrase : String) : Prop where
  kind : x.question.entity = k ∨ x.question.entity = .dimension ∧ (k = .filter ∨ k = .sort)
  term : sameTerm phrase x.question.term = true

theorem covers_iff {x : Ruling} {k : EntityKind} {phrase : String} : x.Covers k phrase ↔
    (x.question.entity = k ∨ x.question.entity = .dimension ∧ (k = .filter ∨ k = .sort)) ∧
      sameTerm phrase x.question.term = true :=
  ⟨fun h => ⟨h.kind, h.term⟩, fun h => ⟨h.1, h.2⟩⟩

instance (x : Ruling) (k : EntityKind) (phrase : String) : Decidable (x.Covers k phrase) :=
  decidable_of_iff _ covers_iff.symm

end Ruling

namespace Request

/-! ## One answer -/

/-- The phrases of what is mentioned of a kind, with the entries that are pinned to them. -/
def pins (r : Request) : EntityKind → List (String × Option String)
  | .metric => r.metrics.map fun m => (m.name, m.pinned)
  | .dimension => r.dimensions.map fun x => (x.name, x.pinned)
  | .filter => r.filters.map fun f => (f.field, f.pinned)
  | _ => []

/-- Nothing changes where nothing has the property. -/
theorem changeWhere_of_none {α : Type} {p : α → Bool} {f : α → α} {xs : List α}
    (h : ¬ xs.any p = true) : changeWhere p f xs = xs :=
  changeWhere_eq_self.mpr fun x hx hp => absurd (List.any_eq_true.mpr ⟨x, hx, hp⟩) h

/-- An answer about a metric changes the metrics of the phrase, or adds one. -/
theorem pin_metric {r : Request} {c : Conflict} {answer : String} (h : c.entity = .metric) :
    (r.pin c answer).1 = r.pinMetrics c.term answer ∨
      (r.pin c answer).1 = (r.pinMetrics c.term answer).addMetric c.term answer := by
  have hnone (hno : ¬ r.metrics.any (sameTerm ·.name c.term) = true) :
      r.pinMetrics c.term answer = r := by
    rw [pinMetrics, changeWhere_of_none hno]
  unfold pin
  simp only [h]
  split
  · exact .inl rfl
  · next hno =>
    rw [hnone hno]
    split
    · exact .inr rfl
    · exact .inl rfl

/-- An answer about a dimension changes the dimensions of the phrase, or adds one, and changes the
filters and the sort of the phrase. -/
theorem pin_dimension {r : Request} {c : Conflict} {answer : String} (h : c.entity = .dimension) :
    (r.pin c answer).1 = (r.pinDimensions c.term answer).retarget c.term answer ∨
      (r.pin c answer).1 =
        ((r.pinDimensions c.term answer).addDimension c.term answer).retarget c.term answer := by
  have hnone (hno : ¬ r.dimensions.any (sameTerm ·.name c.term) = true) :
      r.pinDimensions c.term answer = r := by
    rw [pinDimensions, changeWhere_of_none hno]
  unfold pin
  simp only [h]
  split
  · exact .inl rfl
  · next hno =>
    rw [hnone hno]
    split
    · exact .inr rfl
    · exact .inl rfl

/-- An answer about a filter changes the filters of the phrase. -/
theorem pin_filter {r : Request} {c : Conflict} {answer : String} (h : c.entity = .filter) :
    (r.pin c answer).1 = r.pinFilters c.term answer := by
  unfold pin
  simp only [h]
  split
  · rfl
  · next hno =>
    rw [pinFilters, changeWhere_of_none hno]

/-- An answer about the sort changes the sort, if it has the phrase. -/
theorem pin_sort {r : Request} {c : Conflict} {answer : String} (h : c.entity = .sort) :
    (r.pin c answer).1 = r.nameSort c.term answer := by
  unfold pin
  simp only [h]
  split
  · rfl
  · next hno =>
    have hsame : (r.nameSort c.term answer).sortBy = r.sortBy := by
      rw [nameSort_sortBy]
      intro s hs hterm
      rw [hs] at hno
      exact absurd hterm hno
    have hparts : r.nameSort c.term answer =
        { r with sortBy := (r.nameSort c.term answer).sortBy } := rfl
    rw [hparts, hsame]

theorem mem_changeWhere {α : Type} {p : α → Bool} {f : α → α} {xs : List α} {y : α}
    (h : y ∈ changeWhere p f xs) : y ∈ xs ∧ p y = false ∨ ∃ x, p x = true ∧ y = f x := by
  obtain ⟨x, hx, rfl⟩ := List.mem_map.mp h
  split
  · next hyes => exact .inr ⟨x, hyes, rfl⟩
  · next hno => exact .inl ⟨hx, by simpa using hno⟩

/-- What is mentioned by the phrase, of kinds with the property, has the answer pinned to it, and all
else is as before. -/
def PinsTo (p : EntityKind → Prop) (term answer : String) (r r' : Request) : Prop :=
  ∀ k, ∀ y ∈ r'.pins k, y ∈ r.pins k ∧ (p k → sameTerm y.1 term = false) ∨
    p k ∧ sameTerm y.1 term = true ∧ y.2 = some answer

namespace PinsTo

variable {p q : EntityKind → Prop} {term answer : String} {r r' r'' : Request}

theorem trans (h : PinsTo p term answer r r') (h' : PinsTo q term answer r' r'') :
    PinsTo (fun k => p k ∨ q k) term answer r r'' := by
  intro k y hy
  rcases h' k y hy with ⟨hy, hno⟩ | ⟨hq, hterm, hpin⟩
  · rcases h k y hy with ⟨hy, hno'⟩ | ⟨hp, hterm, hpin⟩
    · exact .inl ⟨hy, fun hpq => hpq.elim hno' hno⟩
    · exact .inr ⟨.inl hp, hterm, hpin⟩
  · exact .inr ⟨.inr hq, hterm, hpin⟩

theorem same (h : ∀ k, r'.pins k = r.pins k) : PinsTo (fun _ => False) term answer r r' :=
  fun k _ hy => .inl ⟨h k ▸ hy, False.elim⟩

theorem pinMetrics (term answer : String) (r : Request) :
    PinsTo (· = .metric) term answer r (r.pinMetrics term answer) := by
  intro k y hy
  cases k
  case metric =>
    obtain ⟨m', hm', rfl⟩ := List.mem_map.mp hy
    rcases mem_changeWhere hm' with ⟨hm, hno⟩ | ⟨m, hterm, rfl⟩
    · exact .inl ⟨List.mem_map_of_mem hm, fun _ => hno⟩
    · exact .inr ⟨rfl, hterm, rfl⟩
  all_goals exact .inl ⟨hy, nofun⟩

theorem pinDimensions (term answer : String) (r : Request) :
    PinsTo (· = .dimension) term answer r (r.pinDimensions term answer) := by
  intro k y hy
  cases k
  case dimension =>
    obtain ⟨x', hx', rfl⟩ := List.mem_map.mp hy
    rcases mem_changeWhere hx' with ⟨hx, hno⟩ | ⟨x, hterm, rfl⟩
    · exact .inl ⟨List.mem_map_of_mem hx, fun _ => hno⟩
    · exact .inr ⟨rfl, hterm, rfl⟩
  all_goals exact .inl ⟨hy, nofun⟩

theorem pinFilters (term answer : String) (r : Request) :
    PinsTo (· = .filter) term answer r (r.pinFilters term answer) := by
  intro k y hy
  cases k
  case filter =>
    obtain ⟨f', hf', rfl⟩ := List.mem_map.mp hy
    rcases mem_changeWhere hf' with ⟨hf, hno⟩ | ⟨f, hterm, rfl⟩
    · exact .inl ⟨List.mem_map_of_mem hf, fun _ => hno⟩
    · exact .inr ⟨rfl, hterm, rfl⟩
  all_goals exact .inl ⟨hy, nofun⟩

theorem retarget (term answer : String) (r : Request) :
    PinsTo (fun k => k = .filter ∨ False) term answer r (r.retarget term answer) :=
  (pinFilters term answer r).trans (.same fun k => by cases k <;> rfl)

/-- Adding a metric that has the phrase and the answer. -/
theorem addMetric (h : PinsTo p term answer r r') (hp : p .metric) :
    PinsTo p term answer r (r'.addMetric term answer) := by
  intro k y hy
  cases k
  case metric =>
    simp only [pins, Request.addMetric, List.map_append, List.mem_append] at hy
    rcases hy with hy | hy
    · exact h .metric y hy
    · rw [List.map_singleton, List.mem_singleton] at hy
      exact .inr ⟨hp, hy ▸ sameTerm_self term, by rw [hy]⟩
  all_goals exact h _ y hy

/-- Adding a dimension that has the phrase and the answer. -/
theorem addDimension (h : PinsTo p term answer r r') (hp : p .dimension) :
    PinsTo p term answer r (r'.addDimension term answer) := by
  intro k y hy
  cases k
  case dimension =>
    simp only [pins, Request.addDimension, List.map_append, List.mem_append] at hy
    rcases hy with hy | hy
    · exact h .dimension y hy
    · rw [List.map_singleton, List.mem_singleton] at hy
      exact .inr ⟨hp, hy ▸ sameTerm_self term, by rw [hy]⟩
  all_goals exact h _ y hy

/-- The property can be changed where nothing is mentioned. -/
theorem covers (h : PinsTo p term answer r r') {c : Conflict} (hterm : c.term = term)
    (hp : ∀ k, k = .metric ∨ k = .dimension ∨ k = .filter →
      (p k ↔ c.entity = k ∨ c.entity = .dimension ∧ (k = .filter ∨ k = .sort)))
    {k : EntityKind} {y : String × Option String} (hy : y ∈ r'.pins k) :
    y ∈ r.pins k ∧ ¬ Ruling.Covers ⟨c, answer⟩ k y.1 ∨
      Ruling.Covers ⟨c, answer⟩ k y.1 ∧ y.2 = some answer := by
  have hk : k = .metric ∨ k = .dimension ∨ k = .filter := by
    cases k <;> first | decide | cases hy
  rw [Ruling.covers_iff, ← hp k hk, hterm]
  rcases h k y hy with ⟨hy, hno⟩ | ⟨hpk, hterm, hpin⟩
  · exact .inl ⟨hy, fun ⟨hpk, hterm⟩ => by rw [hno hpk] at hterm; cases hterm⟩
  · exact .inr ⟨⟨hpk, hterm⟩, hpin⟩

end PinsTo

/-- An answer is pinned to all that it covers, and all else is as before. -/
theorem mem_pins_pin {r : Request} {c : Conflict} {answer : String} {k : EntityKind}
    {y : String × Option String} (hy : y ∈ (r.pin c answer).1.pins k) :
    y ∈ r.pins k ∧ ¬ Ruling.Covers ⟨c, answer⟩ k y.1 ∨
      Ruling.Covers ⟨c, answer⟩ k y.1 ∧ y.2 = some answer := by
  cases hentity : c.entity with
  | metric =>
    have h : PinsTo (· = .metric) c.term answer r (r.pin c answer).1 := by
      rcases pin_metric hentity with heq | heq <;> rw [heq]
      · exact .pinMetrics c.term answer r
      · exact (PinsTo.pinMetrics c.term answer r).addMetric rfl
    refine h.covers rfl (fun k _ => ?_) hy
    cases k <;> simp [hentity]
  | dimension =>
    have h : PinsTo (fun k => k = .dimension ∨ k = .filter ∨ False) c.term answer r
        (r.pin c answer).1 := by
      rcases pin_dimension hentity with heq | heq <;> rw [heq]
      · exact (PinsTo.pinDimensions c.term answer r).trans (.retarget c.term answer _)
      · exact ((PinsTo.pinDimensions c.term answer r).addDimension rfl).trans
          (.retarget c.term answer _)
    refine h.covers rfl (fun k hk => ?_) hy
    rcases hk with rfl | rfl | rfl <;> simp [hentity]
  | filter =>
    rw [pin_filter hentity] at hy
    refine (PinsTo.pinFilters c.term answer r).covers rfl (fun k _ => ?_) hy
    cases k <;> simp [hentity]
  | sort =>
    rw [pin_sort hentity] at hy
    have h : PinsTo (fun _ => False) c.term answer r (r.nameSort c.term answer) :=
      .same fun k => by cases k <;> rfl
    refine h.covers rfl (fun k hk => ?_) hy
    rcases hk with rfl | rfl | rfl <;> simp [hentity]
  | timeRange =>
    have h : PinsTo (fun _ => False) c.term answer r (r.pin c answer).1 := by
      refine .same fun k => ?_
      unfold pin
      simp only [hentity]
      cases k <;> rfl
    refine h.covers rfl (fun k hk => ?_) hy
    rcases hk with rfl | rfl | rfl <;> simp [hentity]

/-- The sort names the answer if that covers its phrase, and is as before otherwise. -/
theorem pin_sortBy (r : Request) (c : Conflict) (answer : String) :
    (r.pin c answer).1.sortBy = r.sortBy.map fun s =>
      if Ruling.Covers ⟨c, answer⟩ .sort s.field then { s with field := answer } else s := by
  have hcovers (phrase : String) : Ruling.Covers ⟨c, answer⟩ .sort phrase ↔
      (c.entity = .sort ∨ c.entity = .dimension) ∧ sameTerm phrase c.term = true := by
    rw [Ruling.covers_iff]
    simp
  simp only [hcovers]
  have hnamed : (r.nameSort c.term answer).sortBy = r.sortBy.map fun s =>
      if sameTerm s.field c.term = true then { s with field := answer } else s := rfl
  cases hentity : c.entity with
  | metric =>
    have hsame : (r.pin c answer).1.sortBy = r.sortBy := by
      rcases pin_metric hentity with heq | heq <;> rw [heq] <;> rfl
    simp [hsame]
  | dimension =>
    have hsame : (r.pin c answer).1.sortBy = (r.nameSort c.term answer).sortBy := by
      rcases pin_dimension hentity with heq | heq <;> rw [heq] <;> rfl
    simp [hsame, hnamed]
  | filter =>
    have hsame : (r.pin c answer).1.sortBy = r.sortBy := by rw [pin_filter hentity]; rfl
    simp [hsame]
  | sort => simp [pin_sort hentity, hnamed]
  | timeRange =>
    have hsame : (r.pin c answer).1.sortBy = r.sortBy := by
      unfold pin
      simp only [hentity]
    simp [hsame]

end Request

namespace Ruling

/-! ## All answers -/

/-- The request after answers, in their order. -/
def pinAll (xs : List Ruling) (r : Request) : Request :=
  xs.foldl (fun r x => (r.pin x.question x.answer).1) r

/-- The phrase of the sort after answers, in their order. -/
def renamed (xs : List Ruling) (phrase : String) : String :=
  xs.foldl (fun phrase x => if x.Covers .sort phrase then x.answer else phrase) phrase

/-- What no answer covers was mentioned before. -/
theorem mem_pins_pinAll {xs : List Ruling} {r : Request} {k : EntityKind}
    {y : String × Option String} (hy : y ∈ (pinAll xs r).pins k)
    (hnone : ∀ z ∈ xs, ¬ z.Covers k y.1) : y ∈ r.pins k := by
  induction xs generalizing r with
  | nil => exact hy
  | cons x xs ih =>
    have hin := ih hy fun z hz => hnone z (List.mem_cons_of_mem x hz)
    rcases Request.mem_pins_pin hin with ⟨hin, -⟩ | ⟨hcovers, -⟩
    · exact hin
    · exact absurd hcovers (hnone x List.mem_cons_self)

/-- The last answer that covers a mention is pinned to it. -/
theorem stands {before after : List Ruling} {x : Ruling} {r : Request} {k : EntityKind}
    {y : String × Option String} (hy : y ∈ (pinAll (before ++ x :: after) r).pins k)
    (hcovers : x.Covers k y.1) (hnone : ∀ z ∈ after, ¬ z.Covers k y.1) : y.2 = some x.answer := by
  rw [pinAll, List.foldl_append, List.foldl_cons] at hy
  rcases Request.mem_pins_pin (mem_pins_pinAll hy hnone) with ⟨-, hno⟩ | ⟨-, hpin⟩
  · exact absurd hcovers hno
  · exact hpin

theorem pinAll_sortBy (xs : List Ruling) (r : Request) :
    (pinAll xs r).sortBy = r.sortBy.map fun s => { s with field := renamed xs s.field } := by
  induction xs generalizing r with
  | nil =>
    show r.sortBy = r.sortBy.map fun s => s
    exact Option.map_id'.symm
  | cons x xs ih =>
    have hrest := ih (r.pin x.question x.answer).1
    rw [Request.pin_sortBy, Option.map_map] at hrest
    refine hrest.trans (Option.map_congr fun s _ => ?_)
    rw [Function.comp_apply, renamed, renamed, List.foldl_cons]
    split <;> rfl

theorem renamed_append (xs ys : List Ruling) (phrase : String) :
    renamed (xs ++ ys) phrase = renamed ys (renamed xs phrase) := List.foldl_append

/-- A phrase that no answer covers is not renamed. -/
theorem renamed_eq_self {xs : List Ruling} {phrase : String}
    (h : ∀ z ∈ xs, ¬ z.Covers .sort phrase) : renamed xs phrase = phrase := by
  induction xs with
  | nil => rfl
  | cons x xs ih =>
    rw [renamed, List.foldl_cons, if_neg (h x List.mem_cons_self)]
    exact ih fun z hz => h z (List.mem_cons_of_mem x hz)

/-- The first answer that covers the phrase of the sort stands if no later one covers the answer. -/
theorem renamed_stands {before after : List Ruling} {x : Ruling} {phrase : String}
    (hcovers : x.Covers .sort phrase) (hbefore : ∀ z ∈ before, ¬ z.Covers .sort phrase)
    (hafter : ∀ z ∈ after, ¬ z.Covers .sort x.answer) :
    renamed (before ++ x :: after) phrase = x.answer := by
  rw [renamed_append, renamed_eq_self hbefore, renamed, List.foldl_cons, if_pos hcovers]
  exact renamed_eq_self hafter

/-- No two of the answers are about things of one kind by one phrase. -/
def Apart (xs : List Ruling) : Prop :=
  xs.Pairwise fun x y => x.question.entity = y.question.entity →
    sameTerm x.question.term y.question.term = false

instance (xs : List Ruling) : Decidable (Apart xs) := inferInstanceAs (Decidable (xs.Pairwise _))

/-- Two answers that cover one mention are not about things of one kind. -/
theorem Apart.differ {before after : List Ruling} {x z : Ruling}
    (h : Apart (before ++ x :: after)) (hz : z ∈ before ∨ z ∈ after) {k : EntityKind}
    {phrase : String} (hx : x.Covers k phrase) (hz' : z.Covers k phrase) :
    z.question.entity ≠ x.question.entity := by
  intro hentity
  have hxt := Request.sameTerm_iff.mp hx.term
  have hzt := Request.sameTerm_iff.mp hz'.term
  obtain ⟨-, hafter, hbetween⟩ := List.pairwise_append.mp h
  rcases hz with hz | hz
  · have hno := hbetween z hz x List.mem_cons_self hentity
    rw [Request.sameTerm_iff.mpr (hzt.symm.trans hxt)] at hno
    cases hno
  · have hno := (List.pairwise_cons.mp hafter).1 z hz hentity.symm
    rw [Request.sameTerm_iff.mpr (hxt.symm.trans hzt)] at hno
    cases hno

/-- An answer about a metric or a dimension is the only one that covers the mentions of its phrase. -/
theorem Apart.alone {before after : List Ruling} {x : Ruling} (h : Apart (before ++ x :: after))
    (hentity : x.question.entity = .metric ∨ x.question.entity = .dimension) {phrase : String}
    (hx : x.Covers x.question.entity phrase) : ∀ z ∈ after, ¬ z.Covers x.question.entity phrase := by
  intro z hz hz'
  refine h.differ (.inr hz) hx hz' (hz'.kind.resolve_right fun ⟨_, hk⟩ => ?_)
  rcases hentity with hentity | hentity <;> rw [hentity] at hk <;> simp at hk

/-- Besides an answer about filters or the sort, only answers about dimensions cover their phrases. -/
theorem Apart.dimension {before after : List Ruling} {x z : Ruling}
    (h : Apart (before ++ x :: after)) (hz : z ∈ before ∨ z ∈ after) {phrase : String}
    (hx : x.Covers x.question.entity phrase) (hz' : z.Covers x.question.entity phrase) :
    z.question.entity = .dimension :=
  (hz'.kind.resolve_left (h.differ hz hx hz')).1

/-- An answer about filters stands if no later answer that covers them is another one. -/
theorem filter_stands_iff {before after : List Ruling} {x : Ruling}
    (h : Apart (before ++ x :: after)) (hentity : x.question.entity = .filter) {r : Request}
    {y : String × Option String} (hy : y ∈ (pinAll (before ++ x :: after) r).pins .filter)
    (hx : x.Covers .filter y.1) :
    y.2 = some x.answer ↔ ∀ z ∈ after, z.Covers .filter y.1 → z.answer = x.answer := by
  -- the last answer that covers the filter is the one about the dimension, if there is one
  have hlast : ∀ z ∈ after, z.Covers .filter y.1 → y.2 = some z.answer := by
    intro z hz hz'
    have hzd := h.dimension (.inr hz) (hentity ▸ hx) (hentity ▸ hz')
    obtain ⟨between, rest, rfl⟩ := List.append_of_mem hz
    have hsplit : before ++ x :: (between ++ z :: rest) = (before ++ x :: between) ++ z :: rest := by
      rw [List.append_assoc, List.cons_append]
    refine stands (hsplit ▸ hy) hz' fun w hw hw' => ?_
    have hwd := h.dimension (.inr (by simp [hw])) (hentity ▸ hx) (hentity ▸ hw')
    exact (hsplit ▸ h).differ (.inr hw) hz' hw' (hwd.trans hzd.symm)
  constructor
  · intro hstands z hz hz'
    exact Option.some.inj ((hlast z hz hz').symm.trans hstands)
  · intro hsame
    by_cases hcovered : ∃ z ∈ after, z.Covers .filter y.1
    · obtain ⟨z, hz, hz'⟩ := hcovered
      rw [hlast z hz hz', hsame z hz hz']
    · exact stands hy hx fun z hz hz' => hcovered ⟨z, hz, hz'⟩

/-- An answer about the sort stands if no earlier answer that covers it is another one, where the
answers are not phrases that are asked about. -/
theorem sort_stands_iff {before after : List Ruling} {x : Ruling}
    (h : Apart (before ++ x :: after)) (hentity : x.question.entity = .sort) {phrase : String}
    (hx : x.Covers .sort phrase)
    (hsettled : ∀ y ∈ before ++ x :: after, ∀ z ∈ before ++ x :: after, ¬ z.Covers .sort y.answer) :
    renamed (before ++ x :: after) phrase = x.answer ↔
      ∀ z ∈ before, z.Covers .sort phrase → z.answer = x.answer := by
  -- the first answer that covers the sort is the one about the dimension, if it comes first
  have hfirst : ∀ z ∈ before, z.Covers .sort phrase →
      renamed (before ++ x :: after) phrase = z.answer := by
    intro z hz hz'
    have hzd := h.dimension (.inl hz) (hentity ▸ hx) (hentity ▸ hz')
    have hzs := hsettled z (List.mem_append_left _ hz)
    obtain ⟨first, between, rfl⟩ := List.append_of_mem hz
    have hsplit : (first ++ z :: between) ++ x :: after = first ++ z :: (between ++ x :: after) := by
      rw [List.append_assoc, List.cons_append]
    rw [hsplit] at hzs ⊢
    refine renamed_stands hz' (fun w hw hw' => ?_) fun w hw =>
      hzs w (List.mem_append_right _ (List.mem_cons_of_mem z hw))
    have hwd := h.dimension (.inl (by simp [hw])) (hentity ▸ hx) (hentity ▸ hw')
    exact (hsplit ▸ h).differ (.inl hw) hz' hw' (hwd.trans hzd.symm)
  constructor
  · intro hstands z hz hz'
    exact (hfirst z hz hz').symm.trans hstands
  · intro hsame
    by_cases hcovered : ∃ z ∈ before, z.Covers .sort phrase
    · obtain ⟨z, hz, hz'⟩ := hcovered
      rw [hfirst z hz hz', hsame z hz hz']
    · refine renamed_stands hx (fun z hz hz' => hcovered ⟨z, hz, hz'⟩) fun z hz => ?_
      exact hsettled x (by simp) z (by simp [hz])

end Ruling

/-! ## Rounds -/

namespace Request

/-- The answer to an open question, if the response gives one. -/
def ruling? (r : Request) (p : String × String) : Option Ruling :=
  if Text.trim p.2 = "" then none
  else (r.conflicts.find? (·.id = p.1)).map (⟨·, Text.trim p.2⟩)

/-- The answers to open questions, in the order in which they are applied. -/
def rulings (r : Request) (responses : Responses) : List Ruling :=
  responses.ordered.filterMap r.ruling?

end Request

namespace Answered

theorem step_request (cs : List Conflict) (a : Answered) (p : String × String) :
    (step cs a p).request = (cs.find? (·.id = p.1)).elim a.request fun c =>
      (a.request.respond c p.2).1 := by
  obtain ⟨id, response⟩ := p
  unfold step
  cases hfind : cs.find? (·.id = id) with
  | none => simp only [hfind, Option.elim_none]
  | some c =>
    simp only [hfind, Option.elim_some]
    cases a.request.respond c response with
    | mk request error => cases error <;> rfl

/-- A response to a question of the kind is pinned, and any that gives no answer changes nothing. -/
theorem step_pinAll {r : Request} {p : String × String} (a : Answered)
    (hkind : ∀ x ∈ r.ruling? p, x.question.kind = .ambiguous ∨ x.question.kind = .unknown) :
    (step r.conflicts a p).request = Ruling.pinAll (r.ruling? p).toList a.request := by
  rw [step_request]
  unfold Request.ruling? at hkind ⊢
  cases hfind : r.conflicts.find? (·.id = p.1) with
  | none =>
    rw [Option.map_none, ite_self]
    rfl
  | some c =>
    rw [hfind] at hkind
    by_cases hblank : Text.trim p.2 = ""
    · rw [if_pos hblank, Option.elim_some, Request.respond_blank _ c hblank]
      rfl
    · rw [if_neg hblank] at hkind ⊢
      rw [Option.elim_some, Request.respond_pin (hkind ⟨c, Text.trim p.2⟩ rfl) hblank]
      rfl

theorem all_pinAll {r : Request} {responses : Responses}
    (hkind : ∀ x ∈ r.rulings responses,
      x.question.kind = .ambiguous ∨ x.question.kind = .unknown) :
    (all r responses).request = Ruling.pinAll (r.rulings responses) r := by
  unfold Request.rulings at hkind ⊢
  unfold all
  have hfold : ∀ (ps : Responses) (a : Answered),
      (∀ x ∈ ps.filterMap r.ruling?,
        x.question.kind = .ambiguous ∨ x.question.kind = .unknown) →
      (ps.foldl (step r.conflicts) a).request =
        Ruling.pinAll (ps.filterMap r.ruling?) a.request := by
    intro ps
    induction ps with
    | nil => exact fun _ _ => rfl
    | cons p ps ih =>
      intro a hkind
      have hsplit : (p :: ps).filterMap r.ruling? =
          (r.ruling? p).toList ++ ps.filterMap r.ruling? := by
        rw [List.filterMap_cons]
        cases r.ruling? p <;> rfl
      rw [hsplit] at hkind ⊢
      rw [List.foldl_cons, ih _ fun x hx => hkind x (List.mem_append_right _ hx),
        step_pinAll a fun x hx => hkind x (List.mem_append_left _ (Option.mem_toList.mpr hx))]
      exact List.foldl_append.symm
  exact hfold _ _ hkind

end Answered

namespace Mapping

variable {ctx : Context}

/-- Of the answers to questions what a phrase means, of which no two are about things of one kind by
one phrase, those about metrics and dimensions stand, whatever the order of their ids: the mentions of
the phrase have them pinned, and mean the entries that they name. An answer about filters stands
unless a later one about a dimension of the phrase is another one. The sort is renamed by the answers
about sorts and dimensions in turn; so its own answer stands, where no answer is a phrase that is
asked about, unless an earlier one about a dimension of the phrase is another one. -/
theorem answers_stand_iff {round : Round} (hround : ctx.HandsOut round) {responses : Responses}
    (hkind : ∀ x ∈ round.request.rulings responses,
      x.question.kind = .ambiguous ∨ x.question.kind = .unknown)
    (hapart : Ruling.Apart (round.request.rulings responses)) :
    ∃ next, ctx.apply round.request responses = .ok next ∧
      ∀ before x after, round.request.rulings responses = before ++ x :: after →
        (x.question.entity = .metric → ∀ m ∈ next.request.metrics,
          sameTerm m.name x.question.term = true → m.pinned = some x.answer ∧
            ∀ name, ctx.HasEntry .metric name → Text.trim name = x.answer →
              ctx.resolve .metric .metric m.name m.confidence m.pinned = .ok name) ∧
        (x.question.entity = .dimension → ∀ y ∈ next.request.dimensions,
          sameTerm y.name x.question.term = true → y.pinned = some x.answer ∧
            ∀ name, ctx.HasEntry .dimension name → Text.trim name = x.answer →
              ctx.resolve .dimension .dimension y.name y.confidence y.pinned = .ok name) ∧
        (x.question.entity = .filter → ∀ f ∈ next.request.filters,
          sameTerm f.field x.question.term = true → (f.pinned = some x.answer ↔
            ∀ z ∈ after, z.Covers .filter f.field → z.answer = x.answer)) ∧
        (x.question.entity = .sort → ∀ s, round.request.sortBy = some s →
          sameTerm s.field x.question.term = true →
            ∃ s', next.request.sortBy = some s' ∧
              s'.field = Ruling.renamed (round.request.rulings responses) s.field ∧
              ((∀ y ∈ round.request.rulings responses, ∀ z ∈ round.request.rulings responses,
                  ¬ z.Covers .sort y.answer) →
                (s'.field = x.answer ↔
                  ∀ z ∈ before, z.Covers .sort s.field → z.answer = x.answer))) := by
  obtain ⟨r, hround⟩ := hround.of
  refine ⟨_, Context.apply_isOk rfl hround responses, ?_⟩
  have hnext := (ctx.continued_of round.request responses).request
  generalize Context.apply.continued ctx round.request responses = next at hnext
  have hall := Answered.all_pinAll hkind
  intro before x after hsplit
  rw [hsplit] at hapart hall
  have hmetrics : next.request.metrics =
      (Ruling.pinAll (before ++ x :: after) round.request).metrics := by rw [hnext, ← hall]; rfl
  have hdimensions : next.request.dimensions =
      (Ruling.pinAll (before ++ x :: after) round.request).dimensions := by rw [hnext, ← hall]; rfl
  have hfilters : next.request.filters =
      (Ruling.pinAll (before ++ x :: after) round.request).filters := by rw [hnext, ← hall]; rfl
  have hsort : next.request.sortBy =
      (Ruling.pinAll (before ++ x :: after) round.request).sortBy := by rw [hnext, ← hall]; rfl
  refine ⟨fun hentity m hm hterm => ?_, fun hentity y hy hterm => ?_,
    fun hentity f hf hterm => ?_, fun hentity s hs hterm => ?_⟩
  · have hcovers : x.Covers x.question.entity m.name := ⟨.inl rfl, hterm⟩
    have hin : (m.name, m.pinned) ∈
        (Ruling.pinAll (before ++ x :: after) round.request).pins x.question.entity := by
      rw [hmetrics] at hm
      rw [hentity]
      exact List.mem_map_of_mem hm
    have hpin : m.pinned = some x.answer :=
      Ruling.stands hin hcovers (hapart.alone (.inl hentity) hcovers)
    refine ⟨hpin, fun name hentry hname => ?_⟩
    rw [hpin, ← hname]
    exact resolve_pinned (.inl rfl) hentry m.name m.confidence
  · have hcovers : x.Covers x.question.entity y.name := ⟨.inl rfl, hterm⟩
    have hin : (y.name, y.pinned) ∈
        (Ruling.pinAll (before ++ x :: after) round.request).pins x.question.entity := by
      rw [hdimensions] at hy
      rw [hentity]
      exact List.mem_map_of_mem hy
    have hpin : y.pinned = some x.answer :=
      Ruling.stands hin hcovers (hapart.alone (.inr hentity) hcovers)
    refine ⟨hpin, fun name hentry hname => ?_⟩
    rw [hpin, ← hname]
    exact resolve_pinned (.inr rfl) hentry y.name y.confidence
  · rw [hfilters] at hf
    have hin : (f.field, f.pinned) ∈
        (Ruling.pinAll (before ++ x :: after) round.request).pins .filter :=
      List.mem_map_of_mem hf
    exact Ruling.filter_stands_iff hapart hentity hin ⟨.inl hentity, hterm⟩
  · rw [Ruling.pinAll_sortBy, hs] at hsort
    refine ⟨_, hsort, by rw [hsplit], fun hsettled => ?_⟩
    rw [hsplit] at hsettled
    exact Ruling.sort_stands_iff hapart hentity ⟨.inl hentity, hterm⟩ hsettled

end Mapping

namespace Wagers

/-- The question what the titles are, in two places. -/
def doubt (id : String) (entity : EntityKind) : Conflict :=
  ⟨id, .unknown, entity, "title", "", [], none, true⟩

/-- The turnover by title for some titles, where two questions came with the request. -/
def doubted : Request :=
  { request "Ch" with conflicts := [doubt "a" .filter, doubt "b" .dimension] }

def opposed : Responses := [("a", "Day"), ("b", "Title")]

theorem doubted_rulings : (context.begin doubted).request.rulings opposed =
    [⟨doubt "a" .filter, "Day"⟩, ⟨doubt "b" .dimension, "Title"⟩] := by decide +kernel

/-- The titles are to be days in the filter, but that is overruled by the answer about the dimension. -/
theorem answers_stand_iff_opposed :
    (∀ x ∈ (context.begin doubted).request.rulings opposed,
      x.question.kind = .ambiguous ∨ x.question.kind = .unknown) ∧
    Ruling.Apart ((context.begin doubted).request.rulings opposed) ∧
    ∃ next, context.apply (context.begin doubted).request opposed = .ok next ∧
      next.request.filters.map (·.field) = ["title"] ∧
      ∀ f ∈ next.request.filters, sameTerm f.field "title" = true → f.pinned ≠ some "Day" := by
  have hkind : ∀ x ∈ (context.begin doubted).request.rulings opposed,
      x.question.kind = .ambiguous ∨ x.question.kind = .unknown := by
    rw [doubted_rulings]
    decide
  have hapart : Ruling.Apart ((context.begin doubted).request.rulings opposed) := by
    rw [doubted_rulings]
    decide +kernel
  obtain ⟨next, hnext, hall⟩ := Mapping.answers_stand_iff (.begin doubted) hkind hapart
  obtain ⟨-, -, hfilters, -⟩ := hall [] ⟨doubt "a" .filter, "Day"⟩
    [⟨doubt "b" .dimension, "Title"⟩] doubted_rulings
  refine ⟨hkind, hapart, next, hnext, ?_, fun f hf hterm hpin => ?_⟩
  · rw [Mapping.Context.apply_eq_ok hnext]
    decide +kernel
  · have hsame := (hfilters rfl f hf hterm).mp hpin ⟨doubt "b" .dimension, "Title"⟩ (by simp)
      ⟨.inr ⟨rfl, .inl rfl⟩, hterm⟩
    exact absurd hsame (by decide)

end Wagers

end MetricLayer
