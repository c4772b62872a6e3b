import MetricLayer.Proofs.Store.Flights

/-!
# One computation for many callers

What a store that is used promises to those that share it, over every list of events: any number of
callers, any keys, and every order in which their steps, their cancellations and the changes of the
store from outside can come.

`Singleflight s events` collects the promises for the state that `events` lead to from `s`.

Results:
1. `Failing.step`: a flight whose computation has failed lands with that error and with nothing else.
2. `Taken.step`: a slot stays with the caller that took it.
3. `run_misses`: the misses count the computations that were started.
4. `singleflight_run`: a store that is used keeps every promise after every run.
-/

namespace MetricLayer

namespace SharedStore

variable {α : Type}

/-! ## The promises -/

/-- The key for which a caller computes, leading a flight. -/
def computingFor? (s : SharedStore α) (i : Nat) : Option String :=
  s.callers[i]?.bind fun c =>
    match c.phase with
    | .computing _ => some c.key
    | _ => none

/-- How many computations start when `e` happens. -/
def starts (s : SharedStore α) (e : Event α) : Nat :=
  (List.range (s.step e).callers.length).countP fun i =>
    ((s.step e).computingFor? i).isSome && (s.computingFor? i).isNone

/-- How many computations are started in a run. -/
def started (s : SharedStore α) : List (Event α) → Nat
  | [] => 0
  | e :: es => s.starts e + (s.step e).started es

/-- The caller leads a flight for the key, and its next step ends the computation. -/
def Yields (s : SharedStore α) (i : Nat) (key : String) (flight : Nat) (r : Computed α) : Prop :=
  ∃ c, s.callers[i]? = some c ∧ c.key = key ∧ c.phase = .computing flight ∧ c.supplied = some r

/-- What callers that share a store can rely on when `events` have happened since `s₀`. -/
structure Singleflight (s₀ : SharedStore α) (events : List (Event α)) : Prop where
  /-- At most one caller computes for a key. -/
  computes_once : ∀ i j key, (s₀.run events).computingFor? i = some key →
    (s₀.run events).computingFor? j = some key → i = j
  /-- A computation starts only where nobody computes for the key and no entry of it is fresh. -/
  starts_alone : ∀ e i key, ((s₀.run events).step e).computingFor? i = some key →
    (s₀.run events).computingFor? i ≠ some key →
      (∀ j, (s₀.run events).computingFor? j ≠ some key) ∧
        ∀ x ∈ (s₀.run events).fresh, x.key ≠ key
  /-- A slot is given back by the caller that took it and by nobody else. -/
  slot_owned : ∀ pre i post slot, events = pre ++ .act i :: post →
    slot ∉ (s₀.run pre).slots → slot ∈ (s₀.run (pre ++ [.act i])).slots →
      ∀ e, slot ∈ (s₀.run events).slots → slot ∉ ((s₀.run events).step e).slots → e = .act i
  /-- Only a caller that takes the slot of its key makes a slot. -/
  slot_taken : ∀ e slot, slot ∉ (s₀.run events).slots → slot ∈ ((s₀.run events).step e).slots →
    ∃ i, e = .act i
  /-- Who waits has an outcome already, or a leader for the same key that has still to land. -/
  awaited : ∀ (i : Nat) (c : Caller α) (f : Nat),
    (s₀.run events).callers[i]? = some c → c.phase = .waiting f →
      (∃ l, (s₀.run events).landing? f = some l) ∨
        ∃ (j : Nat) (d : Caller α), (s₀.run events).callers[j]? = some d ∧ d.key = c.key ∧
          d.phase.leads? = some f
  /-- Nobody is forgotten: who waits can go on, or its leader can, or the leader still computes. -/
  wakes : ∀ (i : Nat) (c : Caller α) (f : Nat),
    (s₀.run events).callers[i]? = some c → c.phase = .waiting f →
      ((s₀.run events).act i).isSome ∨
        ∃ (j : Nat) (d : Caller α), (s₀.run events).callers[j]? = some d ∧
          d.phase.leads? = some f ∧
            (((s₀.run events).act j).isSome ∨ (d.phase = .computing f ∧ d.supplied = none))
  /-- A value that a caller gets was computed in this run for its key. -/
  value_computed : ∀ (i : Nat) (c : Caller α) (v : α),
    (s₀.run events).callers[i]? = some c → c.phase = .finished (.ok v) →
      ∃ pre j post f, events = pre ++ .act j :: post ∧ (s₀.run pre).Yields j c.key f (.ok v)
  /-- A value that is stored was computed in this run for its key; errors are not stored. -/
  entry_computed : ∀ x ∈ (s₀.run events).store.entries,
    ∃ pre j post f, events = pre ++ .act j :: post ∧ (s₀.run pre).Yields j x.key f (.ok x.value)
  /-- Who waits for a flight whose computation has failed gets the error, unless it goes away
  itself. -/
  error_reaches : ∀ pre j mid post key f e, events = pre ++ .act j :: mid ++ post →
    (s₀.run pre).Yields j key f (.error e) →
      ∀ (i : Nat) (c : Caller α), (s₀.run (pre ++ .act j :: mid)).callers[i]? = some c →
        c.phase = .waiting f →
          ∃ d, (s₀.run events).callers[i]? = some d ∧
            ((d.phase = .waiting f ∧
                ∀ l, (s₀.run events).landing? f = some l → l = .done (.error (.underCache e))) ∨
              d.phase = .finished (.error (.underCache e)) ∨
              (d.phase = .finished (.error .cancelled) ∧ d.cancelled = true) ∨
              d.phase = .dropped)
  /-- Only who was cancelled is told so. -/
  cancelled_only : ∀ (i : Nat) (c : Caller α),
    (s₀.run events).callers[i]? = some c → c.phase = .finished (.error .cancelled) →
      c.cancelled = true
  /-- The misses are the computations that were started. -/
  misses_started : (s₀.run events).misses = s₀.started events

/-! ## Computing -/

theorem computingFor?_eq_some {s : SharedStore α} {i : Nat} {key : String} :
    s.computingFor? i = some key ↔
      ∃ c f, s.callers[i]? = some c ∧ c.key = key ∧ c.phase = .computing f := by
  unfold computingFor?
  constructor
  · intro h
    obtain ⟨c, hc, h⟩ := Option.bind_eq_some_iff.mp h
    split at h
    · next f hp => exact ⟨c, f, hc, Option.some.inj h, hp⟩
    · cases h
  · rintro ⟨c, f, hc, rfl, hp⟩
    simp [hc, hp]

theorem Moves.computing {s u : SharedStore α} {i f : Nat} {c : Caller α} {p : Phase α}
    (h : Moves s i c p u (.computing f)) :
    p = .checking f ∧ (s.lookup c.key).2 = none ∧ u.misses = s.misses + 1 := by
  generalize hq : Phase.computing f = q at h
  cases h
  case begin missing =>
    cases hq
    exact ⟨rfl, missing, rfl⟩
  case enter => split at hq <;> cases hq
  case land _ _ r => cases r <;> cases hq
  all_goals cases hq

theorem Leaves.not_computing {result : Option (Computed α)} {p : Phase α} {f : Nat} :
    ¬ Leaves result p (.computing f) := by
  intro h
  generalize hq : Phase.computing f = q at h
  cases h
  case alone | waiting => cases result <;> cases hq
  all_goals cases hq

/-- A caller that starts to compute has looked its key up in vain, with the slot in its hands. -/
theorem step_computes {s : SharedStore α} {e : Event α} {i : Nat} {key : String}
    (h : (s.step e).computingFor? i = some key) :
    s.computingFor? i = some key ∨
      ∃ c f, e = .act i ∧ s.callers[i]? = some c ∧ c.key = key ∧ c.phase = .checking f ∧
        (s.lookup key).2 = none ∧ (s.step e).misses = s.misses + 1 := by
  obtain ⟨d, f, hd, rfl, hf⟩ := computingFor?_eq_some.mp h
  rcases step_caller_back hd with hp | ⟨c, hc, hkey, hturns⟩
  · rw [hp] at hf
    cases hf
  rw [hkey]
  rw [hf] at hturns
  rcases hturns with hp | ⟨rfl, u, hmoves, hs⟩ | ⟨-, -, hleaves⟩ | ⟨-, hleaves⟩
  · exact .inl (computingFor?_eq_some.mpr ⟨c, f, hc, rfl, hp.symm⟩)
  · obtain ⟨hp, missing, hmisses⟩ := hmoves.computing
    exact .inr ⟨c, f, rfl, hc, rfl, hp, missing, hs ▸ hmisses⟩
  · exact absurd hleaves Leaves.not_computing
  · exact absurd hleaves Leaves.not_computing

/-- At most one caller computes for a key. -/
theorem Flights.computes_once {made : String → Computed α → Prop} {s : SharedStore α}
    (h : Flights made s) {i j : Nat} {key : String} (hi : s.computingFor? i = some key)
    (hj : s.computingFor? j = some key) : i = j := by
  obtain ⟨c, f, hc, hck, hf⟩ := computingFor?_eq_some.mp hi
  obtain ⟨d, g, hd, hdk, hg⟩ := computingFor?_eq_some.mp hj
  exact h.holding_once hc hd (f := f) (g := g) (by rw [hf]; rfl) (by rw [hg]; rfl)
    (hck.trans hdk.symm)

/-- Where a computation starts, nobody computes for the key and no entry of it is fresh. -/
theorem Flights.starts_alone {made : String → Computed α → Prop} {s : SharedStore α}
    (h : Flights made s) {e : Event α} {i : Nat} {key : String}
    (hafter : (s.step e).computingFor? i = some key) (hbefore : s.computingFor? i ≠ some key) :
    (∀ j, s.computingFor? j ≠ some key) ∧ ∀ x ∈ s.fresh, x.key ≠ key := by
  obtain hsame | ⟨c, f, -, hc, rfl, hp, missing, -⟩ := step_computes hafter
  · exact absurd hsame hbefore
  refine ⟨fun j hj => ?_, fun x hx hkey => ?_⟩
  · obtain ⟨d, g, hd, hkey, hg⟩ := computingFor?_eq_some.mp hj
    obtain rfl := h.holding_once hc hd (f := f) (g := g) (by rw [hp]; rfl) (by rw [hg]; rfl)
      hkey.symm
    rw [hd] at hc
    cases hc
    rw [hp] at hg
    cases hg
  · simp only [fresh, Store.fresh, List.mem_mergeSort, List.mem_filter] at hx
    obtain ⟨hx, hfresh⟩ := hx
    rw [h.keys_differ.lookup_none missing x hx hkey] at hfresh
    cases hfresh

/-- Nothing else counts as a miss. -/
theorem step_misses_eq (s : SharedStore α) (e : Event α) :
    (s.step e).misses = s.misses ∨
      ∃ i, s.computingFor? i = none ∧ ((s.step e).computingFor? i).isSome = true := by
  have happens := step_happens s e
  generalize s.step e = t at happens ⊢
  cases happens
  case moves i c u q hc hmoves =>
    generalize hp : c.phase = p at hmoves
    cases hmoves
    case begin f missing =>
      refine .inr ⟨i, by simp [computingFor?, hc, hp], ?_⟩
      simp [computingFor?, setPhase, updateCaller, lookup, hc]
    all_goals exact .inl rfl
  all_goals exact .inl rfl

theorem step_misses (s : SharedStore α) (e : Event α) :
    (s.step e).misses = s.misses + s.starts e := by
  -- whoever starts to compute is the caller that makes the step
  have actor : ∀ i, ((s.step e).computingFor? i).isSome = true → (s.computingFor? i).isNone = true →
      e = .act i ∧ (s.step e).misses = s.misses + 1 := by
    intro i hsome hnone
    obtain ⟨key, hkey⟩ := Option.isSome_iff_exists.mp hsome
    rcases step_computes hkey with h | ⟨c, f, he, -, -, -, -, hmisses⟩
    · rw [h] at hnone
      cases hnone
    · exact ⟨he, hmisses⟩
  rcases step_misses_eq s e with hsame | ⟨i, hnone, hsome⟩
  · have hzero : s.starts e = 0 := by
      refine List.countP_eq_zero.mpr fun i _ hi => ?_
      rw [Bool.and_eq_true] at hi
      have := (actor i hi.1 hi.2).2
      omega
    omega
  · obtain ⟨rfl, hmisses⟩ := actor i hsome (by rw [hnone]; rfl)
    have hi : i < (s.step (.act i)).callers.length := by
      obtain ⟨key, hkey⟩ := Option.isSome_iff_exists.mp hsome
      obtain ⟨d, f, hd, -⟩ := computingFor?_eq_some.mp hkey
      exact (List.getElem?_eq_some_iff.mp hd).1
    have hone : s.starts (.act i) = 1 := by
      have honly : s.starts (.act i) =
          (List.range (s.step (.act i)).callers.length).countP (· == i) := by
        refine List.countP_congr fun j _ => ?_
        rw [Bool.and_eq_true, beq_iff_eq]
        constructor
        · intro hj
          exact (Event.act.inj (actor j hj.1 hj.2).1).symm
        · rintro rfl
          exact ⟨hsome, by rw [hnone]; rfl⟩
      rw [honly]
      exact List.count_eq_one_of_mem List.nodup_range (List.mem_range.mpr hi)
    rw [hmisses, hone]

theorem run_misses (s : SharedStore α) (events : List (Event α)) :
    (s.run events).misses = s.misses + s.started events := by
  induction events generalizing s with
  | nil => rfl
  | cons e es ih =>
    have hrest : ((s.step e).run es).misses = (s.step e).misses + (s.step e).started es := ih _
    rw [step_misses] at hrest
    show ((s.step e).run es).misses = s.misses + (s.starts e + (s.step e).started es)
    omega

/-! ## Slots -/

/-- How an event changes the slots. -/
theorem step_slots (s : SharedStore α) (e : Event α) :
    ((s.step e).slots = s.slots ∧ (s.step e).flights.length = s.flights.length) ∨
      (∃ i c, e = .act i ∧ s.callers[i]? = some c ∧
        s.step e = { s with
          slots := (c.key, s.flights.length) :: s.slots
          flights := s.flights ++ [none] }.setPhase i (.checking s.flights.length)) ∨
      (∃ i c f l r, e = .act i ∧ s.callers[i]? = some c ∧ c.phase = .closing f l r ∧
        (s.step e).slots = s.slots.filter (·.1 ≠ c.key) ∧
        (s.step e).flights.length = s.flights.length) := by
  generalize hst : s.step e = t
  have happens : Happens s e t := hst ▸ step_happens s e
  cases happens
  case moves i c u q hc hmoves =>
    generalize hp : c.phase = p at hmoves
    cases hmoves
    case lead => exact .inr (.inl ⟨i, c, rfl, hc, rfl⟩)
    case giveBack => exact .inr (.inr ⟨i, c, _, _, _, rfl, hc, hp, rfl, rfl⟩)
    case land => exact .inl ⟨rfl, List.length_set⟩
    all_goals exact .inl ⟨rfl, rfl⟩
  all_goals exact .inl ⟨rfl, rfl⟩

/-- Caller `i` has the slot for as long as the slot is there; `f` has been given out. -/
def Taken (s : SharedStore α) (i : Nat) (key : String) (f : Nat) : Prop :=
  f < s.flights.length ∧ ((key, f) ∈ s.slots →
    ∃ c, s.callers[i]? = some c ∧ c.key = key ∧ c.phase.holds? = some f)

/-- A caller that holds a flight goes on to hold it, until it gives the slot back. -/
theorem Turns.holds {s : SharedStore α} {i f : Nat} {c : Caller α} {e : Event α} {q : Phase α}
    (h : Turns s i c e q) (hholds : c.phase.holds? = some f) :
    q.holds? = some f ∨ (s.step e).slots = s.slots.filter (·.1 ≠ c.key) := by
  rcases h with rfl | ⟨-, u, hmoves, hs⟩ | ⟨-, -, hleaves⟩ | ⟨-, hleaves⟩
  · exact .inl hholds
  · rw [hs]
    cases hp : c.phase <;> rw [hp] at hholds hmoves <;> cases hmoves <;>
      first | exact .inl hholds | exact .inr rfl | cases hholds
  · cases hp : c.phase <;> rw [hp] at hholds hleaves <;> cases hleaves <;> exact .inl hholds
  · cases hp : c.phase <;> rw [hp] at hholds hleaves <;> cases hleaves <;> exact .inl hholds

theorem Taken.step {s : SharedStore α} {i f : Nat} {key : String} (h : s.Taken i key f)
    (e : Event α) : (s.step e).Taken i key f := by
  obtain ⟨hf, hheld⟩ := h
  -- a slot that is there now was there before, since new ones have new numbers
  have old : f < (s.step e).flights.length ∧ ((key, f) ∈ (s.step e).slots → (key, f) ∈ s.slots) := by
    rcases step_slots s e with ⟨hslots, hlen⟩ | ⟨j, b, -, -, hs⟩ | ⟨j, b, g, l, r, -, -, -, hslots, hlen⟩
    · exact ⟨hlen ▸ hf, fun h => hslots ▸ h⟩
    · rw [hs]
      refine ⟨?_, fun h => ?_⟩
      · simp only [setPhase, updateCaller, List.length_append, List.length_singleton]
        omega
      · rcases List.mem_cons.mp h with heq | h
        · cases heq
          omega
        · exact h
    · exact ⟨hlen ▸ hf, fun h => (List.mem_filter.mp (hslots ▸ h)).1⟩
  refine ⟨old.1, fun hmem => ?_⟩
  obtain ⟨c, hc, rfl, hholds⟩ := hheld (old.2 hmem)
  obtain ⟨d, hd, hkey, -, hturns⟩ := step_caller hc e
  refine ⟨d, hd, hkey, ?_⟩
  rcases hturns.holds hholds with h | hslots
  · exact h
  · rw [hslots] at hmem
    simp at hmem

theorem Taken.run {s : SharedStore α} {i f : Nat} {key : String} (h : s.Taken i key f)
    (es : List (Event α)) : (s.run es).Taken i key f := by
  induction es generalizing s with
  | nil => exact h
  | cons e es ih => exact ih (h.step e)

/-- The caller that takes a slot has it. -/
theorem taken_of_mem {s : SharedStore α} {e : Event α} {key : String} {f : Nat}
    (hbefore : (key, f) ∉ s.slots) (hafter : (key, f) ∈ (s.step e).slots) :
    ∃ i, e = .act i ∧ (s.step e).Taken i key f := by
  rcases step_slots s e with ⟨hslots, -⟩ | ⟨i, c, he, hc, hs⟩ | ⟨i, c, g, l, r, -, -, -, hslots, -⟩
  · exact absurd (hslots ▸ hafter) hbefore
  · refine ⟨i, he, ?_⟩
    rw [hs] at hafter ⊢
    rcases List.mem_cons.mp hafter with heq | h
    · cases heq
      refine ⟨by simp [setPhase, updateCaller], fun _ => ?_⟩
      exact ⟨_, updateCaller_self hc, rfl, rfl⟩
    · exact absurd h hbefore
  · exact absurd (List.mem_filter.mp (hslots ▸ hafter)).1 hbefore

/-- Who gives a slot back has it. -/
theorem Flights.giver {made : String → Computed α → Prop} {s : SharedStore α} (h : Flights made s)
    {e : Event α} {key : String} {f : Nat} (hbefore : (key, f) ∈ s.slots)
    (hafter : (key, f) ∉ (s.step e).slots) :
    ∃ i c, e = .act i ∧ s.callers[i]? = some c ∧ c.key = key ∧ c.phase.holds? = some f := by
  rcases step_slots s e with ⟨hslots, -⟩ | ⟨i, c, -, -, hs⟩ | ⟨i, c, g, l, r, he, hc, hp, hslots, -⟩
  · exact absurd (hslots ▸ hbefore) hafter
  · rw [hs] at hafter
    exact absurd (List.mem_cons_of_mem _ hbefore) hafter
  · have hholds : c.phase.holds? = some g := by rw [hp]; rfl
    have hkey : c.key = key := by
      by_contra hne
      refine hafter (hslots ▸ List.mem_filter.mpr ⟨hbefore, ?_⟩)
      simpa using fun h : key = c.key => hne h.symm
    refine ⟨i, c, he, hc, hkey, ?_⟩
    have hmine := h.held_slot i c g hc hholds
    rw [hkey] at hmine
    rw [hholds, slot_unique h.slots_differ hbefore hmine]

/-! ## Waiting -/

/-- Who waits can go on, or its leader can, or the leader still computes. -/
theorem Flights.wakes {made : String → Computed α → Prop} {s : SharedStore α} (h : Flights made s)
    {i f : Nat} {c : Caller α} (hc : s.callers[i]? = some c) (hp : c.phase = .waiting f) :
    (s.act i).isSome ∨ ∃ (j : Nat) (d : Caller α), s.callers[j]? = some d ∧
      d.phase.leads? = some f ∧
        ((s.act j).isSome ∨ (d.phase = .computing f ∧ d.supplied = none)) := by
  rcases h.awaited i c f hc hp with ⟨l, hl, -⟩ | ⟨j, d, hd, -, hleads⟩
  · left
    simp [SharedStore.act, hc, hp, landing?, hl]
  · refine .inr ⟨j, d, hd, hleads, ?_⟩
    cases hq : d.phase <;> rw [hq] at hleads <;> cases hleads
    case inr.computing.refl =>
      cases hsupplied : d.supplied with
      | none => exact .inr ⟨rfl, rfl⟩
      | some r => exact .inl (by simp [SharedStore.act, hd, hq, hsupplied])
    case inr.checking.refl =>
      left
      simp only [SharedStore.act, hd, hq, Option.bind_some]
      split <;> rfl
    all_goals exact .inl (by simp [SharedStore.act, hd, hq])

/-! ## Failing -/

/-- What a flight lands with when its computation has failed. -/
def failure (e : TranslationError) : Landing α := .done (.error (.underCache e))

/-- The computation of a flight has failed: everybody knows, or the leader is about to tell. -/
def Failing (s : SharedStore α) (f : Nat) (e : TranslationError) : Prop :=
  s.landing? f = some (failure e) ∨
    ∃ (j : Nat) (d : Caller α) (r : Option (Computed α)), s.callers[j]? = some d ∧
      (d.phase = .closing f (failure e) r ∨ d.phase = .landing f (failure e) r)

/-- How a flight has landed does not change any more. -/
theorem Flights.step_landing {made : String → Computed α → Prop} {s : SharedStore α}
    (h : Flights made s) {f : Nat} {l : Landing α} (hl : s.landing? f = some l) (e : Event α) :
    (s.step e).landing? f = some l := by
  have hl : s.flights[f]? = some (some l) := Option.join_eq_some_iff.mp hl
  refine Option.join_eq_some_iff.mpr ?_
  have happens := step_happens s e
  generalize s.step e = t at happens ⊢
  cases happens
  case moves i c u q hc hmoves =>
    generalize hp : c.phase = p at hmoves
    cases hmoves
    case lead =>
      have hf := (List.getElem?_eq_some_iff.mp hl).1
      exact (List.getElem?_append_left hf).trans hl
    case land g l' r =>
      have hopen := h.led_open i c g hc (by rw [hp]; rfl)
      have hgf : g ≠ f := by
        rintro rfl
        rw [hl] at hopen
        cases hopen
      exact (List.getElem?_set_ne hgf).trans hl
    all_goals exact hl
  all_goals exact hl

theorem Failing.landing {made : String → Computed α → Prop} {s : SharedStore α} {f : Nat}
    {e : TranslationError} (hf : s.Failing f e) (h : Flights made s) {l : Landing α}
    (hl : s.landing? f = some l) : l = failure e := by
  rcases hf with hf | ⟨j, d, r, hd, hp⟩
  · exact Option.some.inj (hl.symm.trans hf)
  · have hleads : d.phase.leads? = some f := by rcases hp with hp | hp <;> rw [hp] <;> rfl
    rw [landing?, h.led_open j d f hd hleads] at hl
    cases hl

theorem Failing.step {made : String → Computed α → Prop} {s : SharedStore α} {f : Nat}
    {e : TranslationError} (hf : s.Failing f e) (h : Flights made s) (ev : Event α) :
    (s.step ev).Failing f e := by
  rcases hf with hf | ⟨j, c, r, hc, hp⟩
  · exact .inl (h.step_landing hf ev)
  obtain ⟨d, hd, -, -, hturns⟩ := step_caller hc ev
  rcases hturns with hsame | ⟨-, u, hmoves, hs⟩ | ⟨-, -, hleaves⟩ | ⟨-, hleaves⟩
  · exact .inr ⟨j, d, r, hd, by rwa [hsame]⟩
  · rcases hp with hp | hp
    · rw [hp] at hmoves
      generalize hq : d.phase = q at hmoves
      cases hmoves
      exact .inr ⟨j, d, r, hd, .inr hq⟩
    · have hopen := h.led_open j c f hc (by rw [hp]; rfl)
      have hlt := (List.getElem?_eq_some_iff.mp hopen).1
      rw [hp] at hmoves
      generalize d.phase = q at hmoves hs
      cases hmoves
      left
      rw [hs]
      simp [landing?, setPhase, updateCaller, hlt]
  · rcases hp with hp | hp <;> rw [hp] at hleaves <;> cases hleaves
  · rcases hp with hp | hp <;> rw [hp] at hleaves <;> cases hleaves

/-- The caller waits for the flight, or has its error, or has gone away. -/
def Told (s : SharedStore α) (i f : Nat) (e : TranslationError) : Prop :=
  ∃ d, s.callers[i]? = some d ∧
    (d.phase = .waiting f ∨ d.phase = .finished (.error (.underCache e)) ∨
      (d.phase = .finished (.error .cancelled) ∧ d.cancelled = true) ∨ d.phase = .dropped)

theorem Told.step {made : String → Computed α → Prop} {s : SharedStore α} {i f : Nat}
    {e : TranslationError} (ht : s.Told i f e) (hf : s.Failing f e) (h : Flights made s)
    (ev : Event α) : (s.step ev).Told i f e := by
  obtain ⟨c, hc, hphase⟩ := ht
  obtain ⟨d, hd, -, hcancelled, hturns⟩ := step_caller hc ev
  refine ⟨d, hd, ?_⟩
  rcases hturns with hsame | ⟨-, u, hmoves, -⟩ | ⟨-, hquit, hleaves⟩ | ⟨-, hleaves⟩
  · rw [hsame]
    exact hphase.imp_right (.imp_right (.imp_left fun ⟨hp, h⟩ => ⟨hp, hcancelled h⟩))
  · rcases hphase with hp | hp | ⟨hp, -⟩ | hp
    · rw [hp] at hmoves
      generalize hq : d.phase = q at hmoves
      cases hmoves
      case receive landed => cases hf.landing h landed
      case receiveError landed =>
        cases hf.landing h landed
        exact .inr (.inl rfl)
      case startAgain landed => cases hf.landing h landed
    all_goals
      rw [hp] at hmoves
      cases hmoves
  · rcases hphase with hp | hp | ⟨hp, -⟩ | hp
    · rw [hp] at hleaves
      generalize hq : d.phase = q at hleaves
      cases hleaves
      exact .inr (.inr (.inl ⟨rfl, hcancelled hquit⟩))
    all_goals
      rw [hp] at hleaves
      generalize d.phase = q at hleaves
      cases hleaves
    all_goals contradiction
  · rcases hphase with hp | hp | ⟨hp, -⟩ | hp
    all_goals
      rw [hp] at hleaves
      generalize hq : d.phase = q at hleaves
      cases hleaves
    all_goals exact .inr (.inr (.inr rfl))

section Runs

variable {made : List (Event α) → String → Computed α → Prop} {s : SharedStore α}
  {pre : List (Event α)} {i f : Nat} {e : TranslationError}

/-- A flight whose computation has failed stays so in every run. -/
theorem Failing.run (flights : ∀ es, Flights (made es) (s.run es)) (hf : (s.run pre).Failing f e)
    (es : List (Event α)) : (s.run (pre ++ es)).Failing f e := by
  induction es using List.reverseRecOn with
  | nil => rwa [List.append_nil]
  | append_singleton es ev ih =>
    rw [← List.append_assoc, run_snoc]
    exact ih.step (flights _) ev

theorem Told.run (flights : ∀ es, Flights (made es) (s.run es)) (ht : (s.run pre).Told i f e)
    (hf : (s.run pre).Failing f e) (es : List (Event α)) : (s.run (pre ++ es)).Told i f e := by
  induction es using List.reverseRecOn with
  | nil => rwa [List.append_nil]
  | append_singleton es ev ih =>
    rw [← List.append_assoc, run_snoc]
    exact ih.step (hf.run flights es) (flights _) ev

end Runs

theorem Yields.failing {s : SharedStore α} {j f : Nat} {key : String} {e : TranslationError}
    (h : s.Yields j key f (.error e)) : (s.step (.act j)).Failing f e := by
  obtain ⟨c, hc, -, hp, hsupplied⟩ := h
  have hs : s.step (.act j) =
      s.setPhase j (.closing f (failure e) (some (.error (.underCache e)))) := by
    simp [SharedStore.step, act, hc, hp, hsupplied, compute, failure]
  rw [hs]
  exact .inr ⟨j, _, _, updateCaller_self hc, .inl rfl⟩

/-! ## All of it -/

theorem singleflight_run (settings : CacheSettings) (now : Instant) (events : List (Event α))
    (enabled : settings.enabled = true) :
    Singleflight (SharedStore.start settings now) events := by
  have flights := Flights.run (α := α) settings now
  generalize hs₀ : (SharedStore.start settings now : SharedStore α) = s₀ at flights ⊢
  have h := flights events
  have used : ∀ es, (s₀.run es).settings.enabled = true := by
    intro es
    rw [run_settings, ← hs₀]
    exact enabled
  have mine : ∀ {key r}, s₀.HasComputed events key r →
      ∃ pre j post f, events = pre ++ .act j :: post ∧ (s₀.run pre).Yields j key f r := by
    rintro key r ⟨pre, j, post, hevents, c, hc, hkey, hr, hp | ⟨f, hp⟩⟩
    · have := (flights pre).phase_ok j c hc
      simp only [PhaseOk, hp, used pre, Bool.true_eq_false] at this
    · exact ⟨pre, j, post, f, hevents, c, hc, hkey, hp, hr⟩
  constructor
  case computes_once => exact fun i j key hi hj => h.computes_once hi hj
  case starts_alone => exact fun e i key hafter hbefore => h.starts_alone hafter hbefore
  case slot_owned =>
    rintro pre i post ⟨key, f⟩ rfl hfree htaken e hheld hgiven
    rw [run_snoc] at htaken
    obtain ⟨i', ⟨⟩, taken⟩ := taken_of_mem hfree htaken
    have taken : (s₀.run (pre ++ .act i :: post)).Taken i key f := by
      rw [run_append]
      exact taken.run post
    obtain ⟨c, hc, hck, hcf⟩ := taken.2 hheld
    obtain ⟨j, d, rfl, hd, hdk, hdf⟩ := h.giver hheld hgiven
    rw [h.holding_once hc hd hcf hdf (hck.trans hdk.symm)]
  case slot_taken =>
    rintro e ⟨key, f⟩ hfree htaken
    obtain ⟨i, he, -⟩ := taken_of_mem hfree htaken
    exact ⟨i, he⟩
  case awaited =>
    intro i c f hc hp
    refine (h.awaited i c f hc hp).imp_left ?_
    rintro ⟨l, hl, -⟩
    exact ⟨l, Option.join_eq_some_iff.mpr hl⟩
  case wakes => exact fun i c f hc hp => h.wakes hc hp
  case value_computed =>
    intro i c v hc hp
    have hok := h.phase_ok i c hc
    rw [PhaseOk, hp] at hok
    exact mine hok
  case entry_computed => exact fun x hx => mine (h.stored x hx)
  case error_reaches =>
    rintro pre j mid post key f e rfl hyields i c hc hp
    have hfailing : (s₀.run (pre ++ .act j :: mid)).Failing f e := by
      rw [List.append_cons]
      exact Failing.run flights (run_snoc s₀ pre (.act j) ▸ hyields.failing) mid
    -- from the failure on, whoever waits for the flight is told its error
    have htold : (s₀.run (pre ++ .act j :: mid)).Told i f e := ⟨c, hc, .inl hp⟩
    obtain ⟨d, hd, hphase⟩ := htold.run flights hfailing post
    refine ⟨d, hd, hphase.imp_left fun hw => ⟨hw, fun l hl => ?_⟩⟩
    exact (hfailing.run flights post).landing h hl
  case cancelled_only =>
    intro i c hc hp
    have hok := h.phase_ok i c hc
    rw [PhaseOk, hp] at hok
    rcases hok with ⟨-, hcancelled⟩ | ⟨cause, -, hcause⟩
    · exact hcancelled
    · rw [if_pos (used events)] at hcause
      cases hcause
  case misses_started =>
    rw [run_misses, ← hs₀]
    exact Nat.zero_add _

/-- Two callers of one key, of whom the first computes and the second waits for it. -/
theorem singleflight_run_pair :
    ({} : CacheSettings).enabled = true ∧
      Singleflight (SharedStore.start {} ⟨0⟩ : SharedStore Nat)
        [.arrive "k" none (some (.ok 7)), .arrive "k" none none, .act 0, .act 0, .act 0, .act 0,
          .act 1, .act 1, .act 1, .cancel 1, .act 0, .act 0, .act 0, .quit 1] :=
  ⟨rfl, singleflight_run {} ⟨0⟩ _ rfl⟩

end SharedStore

end MetricLayer
