import MetricLayer.Store.Shared

/-!
# What a caller can do

Every case of a caller's step, once. `Moves` has one constructor for each way in which a step can go,
with what the caller found out on its way, `Leaves` one for each point at which a caller can go away,
and `Happens` one for each kind of event. What is proved about a step goes over these cases and does
not open `act`, `quit` or `drop`.

Results:
1. `step_happens`: everything that an event does is one of these cases.
2. `step_caller` and `step_caller_back`: what becomes of one caller, whatever happens.
-/

namespace MetricLayer

namespace SharedStore

variable {α : Type}

/-- In its own step, caller `i`, which is `c`, leaves the store as `u`, apart from what it is about to
do itself. -/
inductive Moves (s : SharedStore α) (i : Nat) (c : Caller α) :
    Phase α → SharedStore α → Phase α → Prop
  | enter : Moves s i c .arriving
      (s.updateCaller i fun c => { c with tier := Tier.ofRange c.range s.today })
      (if s.settings.enabled then .looking else .alone)
  | hit {v : α} (found : (s.lookup c.key).2 = some v) :
      Moves s i c .looking (s.lookup c.key).1 (.finished (.ok v))
  | miss (missing : (s.lookup c.key).2 = none) :
      Moves s i c .looking (s.lookup c.key).1 .claiming
  | join {f : Nat} (taken : s.slots.lookup c.key = some f) : Moves s i c .claiming s (.waiting f)
  | lead (free : s.slots.lookup c.key = none) :
      Moves s i c .claiming
        { s with slots := (c.key, s.flights.length) :: s.slots, flights := s.flights ++ [none] }
        (.checking s.flights.length)
  | hitLate {f : Nat} {v : α} (found : (s.lookup c.key).2 = some v) :
      Moves s i c (.checking f) (s.lookup c.key).1 (.closing f (.done (.ok v)) (some (.ok v)))
  | begin {f : Nat} (missing : (s.lookup c.key).2 = none) :
      Moves s i c (.checking f) { (s.lookup c.key).1 with misses := s.misses + 1 } (.computing f)
  | succeed {f : Nat} {v : α} (result : c.supplied = some (.ok v)) :
      Moves s i c (.computing f) s (.keeping f v)
  | fail {f : Nat} {e : TranslationError} (result : c.supplied = some (.error e)) :
      Moves s i c (.computing f) s
        (.closing f (.done (.error (.underCache e))) (some (.error (.underCache e))))
  | computeAlone {r : Computed α} (result : c.supplied = some r) : Moves s i c .alone s (.finished r)
  | keep {f : Nat} {v : α} :
      Moves s i c (.keeping f v)
        { s with store := s.store.put s.settings s.now c.key v c.tier }
        (.closing f (.done (.ok v)) (some (.ok v)))
  | giveBack {f : Nat} {l : Landing α} {r : Option (Computed α)} :
      Moves s i c (.closing f l r) { s with slots := s.slots.filter (·.1 ≠ c.key) } (.landing f l r)
  | land {f : Nat} {l : Landing α} {r : Option (Computed α)} :
      Moves s i c (.landing f l r) { s with flights := s.flights.set f (some l) } (.ending r)
  | receive {f : Nat} {v : α} (landed : s.landing? f = some (.done (.ok v))) :
      Moves s i c (.waiting f) { s with hits := s.hits + 1 } (.finished (.ok v))
  | receiveError {f : Nat} {e : TranslationError} (landed : s.landing? f = some (.done (.error e))) :
      Moves s i c (.waiting f) s (.finished (.error e))
  | startAgain {f : Nat} (landed : s.landing? f = some .abandoned) : Moves s i c (.waiting f) s .looking

/-- A caller that goes away, with `result` in the place of the one that it would have got. -/
inductive Leaves (result : Option (Computed α)) : Phase α → Phase α → Prop
  | beforeStart : result = none → Leaves result .arriving .dropped
  | computing {f : Nat} : Leaves result (.computing f) (.closing f .abandoned result)
  | alone : Leaves result .alone (.ending result)
  | waiting {f : Nat} : Leaves result (.waiting f) (.ending result)
  | afterEnd {r : Computed α} : result = none → Leaves result (.finished r) .dropped

/-! ## Callers after a change -/

theorem callers_updateCaller {s : SharedStore α} {i j : Nat} {g : Caller α → Caller α}
    {d : Caller α} (h : (s.updateCaller i g).callers[j]? = some d) :
    (j = i ∧ ∃ c, s.callers[i]? = some c ∧ d = g c) ∨ (j ≠ i ∧ s.callers[j]? = some d) := by
  simp only [updateCaller, List.getElem?_modify] at h
  by_cases hij : i = j
  · subst hij
    simp only [if_true] at h
    obtain ⟨c, hc, rfl⟩ := Option.map_eq_some_iff.mp h
    exact .inl ⟨rfl, c, hc, rfl⟩
  · simp only [hij, if_false] at h
    exact .inr ⟨fun e => hij e.symm, by simpa using h⟩

theorem updateCaller_self {s : SharedStore α} {i : Nat} {g : Caller α → Caller α} {c : Caller α}
    (h : s.callers[i]? = some c) : (s.updateCaller i g).callers[i]? = some (g c) := by
  simp [updateCaller, h]

theorem updateCaller_other {s : SharedStore α} {i j : Nat} {g : Caller α → Caller α}
    (hji : j ≠ i) : (s.updateCaller i g).callers[j]? = s.callers[j]? := by
  have hij : i ≠ j := fun e => hji e.symm
  simp [updateCaller, hij]

/-! ## Every step is one of these -/

variable {s t : SharedStore α} {i : Nat}

theorem updateCaller_updateCaller (s : SharedStore α) (i : Nat) (f g : Caller α → Caller α) :
    (s.updateCaller i f).updateCaller i g = s.updateCaller i (g ∘ f) := by
  simp [updateCaller, List.modify_modify_eq]

theorem act_moves (h : s.act i = some t) :
    ∃ c u q, s.callers[i]? = some c ∧ Moves s i c c.phase u q ∧ t = u.setPhase i q := by
  obtain ⟨c, hc, h⟩ := Option.bind_eq_some_iff.mp h
  cases hp : c.phase
  all_goals simp only [hp] at h
  case arriving =>
    cases h
    refine ⟨c, _, _, hc, by rw [hp]; exact Moves.enter, ?_⟩
    simp only [setPhase, updateCaller_updateCaller, Function.comp_def]
  case looking =>
    split at h
    · next s' v hl =>
      cases h
      obtain rfl : (s.lookup c.key).1 = s' := congrArg Prod.fst hl
      exact ⟨c, _, _, hc, hp ▸ .hit (congrArg Prod.snd hl), rfl⟩
    · next s' hl =>
      cases h
      obtain rfl : (s.lookup c.key).1 = s' := congrArg Prod.fst hl
      exact ⟨c, _, _, hc, hp ▸ .miss (congrArg Prod.snd hl), rfl⟩
  case claiming =>
    cases h
    unfold claim
    split
    · next hslot => exact ⟨c, _, _, hc, hp ▸ .join hslot, rfl⟩
    · next hslot => exact ⟨c, _, _, hc, hp ▸ .lead hslot, rfl⟩
  case checking f =>
    split at h
    · next s' v hl =>
      cases h
      obtain rfl : (s.lookup c.key).1 = s' := congrArg Prod.fst hl
      exact ⟨c, _, _, hc, hp ▸ .hitLate (congrArg Prod.snd hl), rfl⟩
    · next s' hl =>
      cases h
      obtain rfl : (s.lookup c.key).1 = s' := congrArg Prod.fst hl
      exact ⟨c, _, _, hc, hp ▸ .begin (congrArg Prod.snd hl), rfl⟩
  case computing f =>
    obtain ⟨r, hr, rfl⟩ := Option.map_eq_some_iff.mp h
    cases r with
    | ok v => exact ⟨c, _, _, hc, hp ▸ .succeed hr, rfl⟩
    | error e => exact ⟨c, _, _, hc, hp ▸ .fail hr, rfl⟩
  case alone =>
    obtain ⟨r, hr, rfl⟩ := Option.map_eq_some_iff.mp h
    exact ⟨c, _, _, hc, hp ▸ .computeAlone hr, rfl⟩
  case keeping f v =>
    cases h
    exact ⟨c, _, _, hc, hp ▸ .keep, rfl⟩
  case closing f l r =>
    cases h
    exact ⟨c, _, _, hc, hp ▸ .giveBack, rfl⟩
  case landing f l r =>
    cases h
    exact ⟨c, _, _, hc, hp ▸ .land, rfl⟩
  case waiting f =>
    obtain ⟨l, hl, rfl⟩ := Option.map_eq_some_iff.mp h
    match l, hl with
    | .done (.ok v), hl => exact ⟨c, _, _, hc, hp ▸ .receive hl, rfl⟩
    | .done (.error e), hl => exact ⟨c, _, _, hc, hp ▸ .receiveError hl, rfl⟩
    | .abandoned, hl => exact ⟨c, _, _, hc, hp ▸ .startAgain hl, rfl⟩
  case finished => cases h
  case dropped => cases h

theorem leave_leaves {result : Option (Computed α)} {p : Phase α} (h : s.leave i result p = some t) :
    ∃ q, Leaves result p q ∧ t = s.setPhase i q := by
  unfold leave at h
  split at h <;> cases h
  · exact ⟨_, .computing, rfl⟩
  · exact ⟨_, .alone, rfl⟩
  · exact ⟨_, .waiting, rfl⟩

theorem quit_leaves (h : s.quit i = some t) :
    ∃ c q, s.callers[i]? = some c ∧ c.cancelled = true ∧
      Leaves (some (.error .cancelled)) c.phase q ∧ t = s.setPhase i q := by
  obtain ⟨c, hc, h⟩ := Option.bind_eq_some_iff.mp h
  split at h
  · next hcancelled =>
    obtain ⟨q, hq, ht⟩ := leave_leaves h
    exact ⟨c, q, hc, hcancelled, hq, ht⟩
  · cases h

theorem drop_leaves (h : s.drop i = some t) :
    ∃ c q, s.callers[i]? = some c ∧ Leaves none c.phase q ∧ t = s.setPhase i q := by
  obtain ⟨c, hc, h⟩ := Option.bind_eq_some_iff.mp h
  split at h
  · next hp =>
    cases h
    exact ⟨c, _, hc, hp ▸ .beforeStart rfl, rfl⟩
  · next hp =>
    cases h
    exact ⟨c, _, hc, hp ▸ .afterEnd rfl, rfl⟩
  · obtain ⟨q, hq, ht⟩ := leave_leaves h
    exact ⟨c, q, hc, hq, ht⟩

/-- What can happen when an event comes: a step of a caller, a caller that goes away, a change from
outside, or nothing, where the event cannot happen. -/
inductive Happens (s : SharedStore α) : Event α → SharedStore α → Prop
  | moves {i : Nat} {c : Caller α} {u : SharedStore α} {q : Phase α}
      (caller : s.callers[i]? = some c) (moves : Moves s i c c.phase u q) :
      Happens s (.act i) (u.setPhase i q)
  | quits {i : Nat} {c : Caller α} {q : Phase α} (caller : s.callers[i]? = some c)
      (cancelled : c.cancelled = true)
      (leaves : Leaves (some (.error .cancelled)) c.phase q) : Happens s (.quit i) (s.setPhase i q)
  | drops {i : Nat} {c : Caller α} {q : Phase α} (caller : s.callers[i]? = some c)
      (leaves : Leaves none c.phase q) : Happens s (.drop i) (s.setPhase i q)
  | nothing {e : Event α} : Happens s e s
  | arrives {key : String} {range : Option DayRange} {supplied : Option (Computed α)} :
      Happens s (.arrive key range supplied)
        { s with callers := s.callers ++ [{ key, range, supplied }] }
  | supplies {i : Nat} {r : Computed α} :
      Happens s (.supply i r)
        (s.updateCaller i fun c => { c with supplied := c.supplied.or (some r) })
  | cancels {i : Nat} : Happens s (.cancel i) (s.updateCaller i ({ · with cancelled := true }))
  | invalidates {key : String} : Happens s (.invalidate key) { s with store := s.store.erase key }
  | clears : Happens s .clear { s with store := {} }
  | advances {seconds : Nat} : Happens s (.advance seconds) { s with now := s.now.advance seconds }
  | setsDate {d : Date} : Happens s (.setDate d) { s with now := .ofDate d }

theorem step_happens (s : SharedStore α) (e : Event α) : Happens s e (s.step e) := by
  cases e with
  | act i =>
    simp only [step]
    cases h : s.act i with
    | none => exact .nothing
    | some t =>
      obtain ⟨c, u, q, hc, hmoves, rfl⟩ := act_moves h
      exact .moves hc hmoves
  | quit i =>
    simp only [step]
    cases h : s.quit i with
    | none => exact .nothing
    | some t =>
      obtain ⟨c, q, hc, hcancelled, hleaves, rfl⟩ := quit_leaves h
      exact .quits hc hcancelled hleaves
  | drop i =>
    simp only [step]
    cases h : s.drop i with
    | none => exact .nothing
    | some t =>
      obtain ⟨c, q, hc, hleaves, rfl⟩ := drop_leaves h
      exact .drops hc hleaves
  | arrive => exact .arrives
  | supply => exact .supplies
  | cancel => exact .cancels
  | invalidate => exact .invalidates
  | clear => exact .clears
  | advance => exact .advances
  | setDate => exact .setsDate

/-! ## One caller while something happens -/

/-- What becomes of caller `j`, which is `c`, when `e` happens: nothing, or one of the cases above. -/
def Turns (s : SharedStore α) (j : Nat) (c : Caller α) (e : Event α) (q : Phase α) : Prop :=
  q = c.phase ∨
    (e = .act j ∧ ∃ u, Moves s j c c.phase u q ∧ s.step e = u.setPhase j q) ∨
    (e = .quit j ∧ c.cancelled = true ∧ Leaves (some (.error .cancelled)) c.phase q) ∨
    (e = .drop j ∧ Leaves none c.phase q)

theorem Moves.settings {c : Caller α} {p q : Phase α} {u : SharedStore α} (h : Moves s i c p u q) :
    u.settings = s.settings := by
  cases h <;> rfl

/-- Apart from its phase, a step changes nothing in a caller that others could see. -/
theorem Moves.caller {c : Caller α} {p q : Phase α} {u : SharedStore α} (h : Moves s i c p u q)
    {j : Nat} {b : Caller α} (hb : s.callers[j]? = some b) :
    ∃ b', u.callers[j]? = some b' ∧ b'.key = b.key ∧ b'.cancelled = b.cancelled ∧
      b'.phase = b.phase := by
  cases h
  case enter =>
    by_cases hji : j = i
    · subst hji
      exact ⟨_, updateCaller_self hb, rfl, rfl, rfl⟩
    · exact ⟨b, (updateCaller_other hji).trans hb, rfl, rfl, rfl⟩
  all_goals exact ⟨b, hb, rfl, rfl, rfl⟩

theorem Moves.length {c : Caller α} {p q : Phase α} {u : SharedStore α} (h : Moves s i c p u q) :
    u.callers.length = s.callers.length := by
  cases h <;> first | rfl | exact List.length_modify ..

theorem step_settings (s : SharedStore α) (e : Event α) : (s.step e).settings = s.settings := by
  have happens := step_happens s e
  generalize s.step e = t at happens ⊢
  cases happens
  case moves hmoves => exact hmoves.settings
  all_goals rfl

/-- A change of the phase of caller `i`, seen from caller `j`. -/
theorem setPhase_caller {j : Nat} {c : Caller α} (hc : s.callers[j]? = some c) (i : Nat)
    (q : Phase α) :
    ∃ d, (s.setPhase i q).callers[j]? = some d ∧ d.key = c.key ∧ d.cancelled = c.cancelled ∧
      ((j ≠ i ∧ d.phase = c.phase) ∨ (j = i ∧ d.phase = q)) := by
  by_cases hji : j = i
  · subst hji
    exact ⟨_, updateCaller_self hc, rfl, rfl, .inr ⟨rfl, rfl⟩⟩
  · exact ⟨c, (updateCaller_other hji).trans hc, rfl, rfl, .inl ⟨hji, rfl⟩⟩

/-- A caller that is there stays, with its key. -/
theorem step_caller {j : Nat} {c : Caller α} (hc : s.callers[j]? = some c) (e : Event α) :
    ∃ d, (s.step e).callers[j]? = some d ∧ d.key = c.key ∧
      (c.cancelled = true → d.cancelled = true) ∧ Turns s j c e d.phase := by
  generalize hst : s.step e = t
  have happens : Happens s e t := hst ▸ step_happens s e
  cases happens
  case moves i b u q hb hmoves =>
    obtain ⟨c', hc', hkey, hcancelled, hphase⟩ := hmoves.caller hc
    obtain ⟨d, hd, hdkey, hdcancelled, hdphase⟩ := setPhase_caller hc' i q
    refine ⟨d, hd, hdkey.trans hkey, fun h => by rw [hdcancelled, hcancelled, h], ?_⟩
    rcases hdphase with ⟨-, hdphase⟩ | ⟨rfl, rfl⟩
    · exact .inl (hdphase.trans hphase)
    · obtain rfl := Option.some.inj (hb.symm.trans hc)
      exact .inr (.inl ⟨rfl, u, hmoves, hst⟩)
  case quits i b q hb hcancelled hleaves =>
    obtain ⟨d, hd, hdkey, hdcancelled, hdphase⟩ := setPhase_caller hc i q
    refine ⟨d, hd, hdkey, fun h => by rw [hdcancelled, h], ?_⟩
    rcases hdphase with ⟨-, hdphase⟩ | ⟨rfl, rfl⟩
    · exact .inl hdphase
    · obtain rfl := Option.some.inj (hb.symm.trans hc)
      exact .inr (.inr (.inl ⟨rfl, hcancelled, hleaves⟩))
  case drops i b q hb hleaves =>
    obtain ⟨d, hd, hdkey, hdcancelled, hdphase⟩ := setPhase_caller hc i q
    refine ⟨d, hd, hdkey, fun h => by rw [hdcancelled, h], ?_⟩
    rcases hdphase with ⟨-, hdphase⟩ | ⟨rfl, rfl⟩
    · exact .inl hdphase
    · obtain rfl := Option.some.inj (hb.symm.trans hc)
      exact .inr (.inr (.inr ⟨rfl, hleaves⟩))
  case arrives key range supplied =>
    have hj := (List.getElem?_eq_some_iff.mp hc).1
    exact ⟨c, by simp only [List.getElem?_append_left hj, hc], rfl, id, .inl rfl⟩
  case supplies i r =>
    by_cases hji : j = i
    · subst hji
      exact ⟨_, updateCaller_self hc, rfl, id, .inl rfl⟩
    · exact ⟨c, (updateCaller_other hji).trans hc, rfl, id, .inl rfl⟩
  case cancels i =>
    by_cases hji : j = i
    · subst hji
      exact ⟨_, updateCaller_self hc, rfl, fun _ => rfl, .inl rfl⟩
    · exact ⟨c, (updateCaller_other hji).trans hc, rfl, id, .inl rfl⟩
  all_goals exact ⟨c, hc, rfl, id, .inl rfl⟩

/-- Only an arrival makes a further caller, and one at a time. -/
theorem step_length (s : SharedStore α) (e : Event α) :
    (s.step e).callers.length = s.callers.length ∨
      ∃ key range supplied, e = .arrive key range supplied := by
  have happens := step_happens s e
  generalize s.step e = t at happens ⊢
  cases happens
  case moves hmoves => exact .inl ((List.length_modify ..).trans hmoves.length)
  case arrives key range supplied => exact .inr ⟨key, range, supplied, rfl⟩
  case quits | drops | supplies | cancels => exact .inl (List.length_modify ..)
  all_goals exact .inl rfl

/-- Where a caller comes from that is there after something has happened. -/
theorem step_caller_back {e : Event α} {j : Nat} {d : Caller α}
    (hd : (s.step e).callers[j]? = some d) :
    d.phase = .arriving ∨ ∃ c, s.callers[j]? = some c ∧ d.key = c.key ∧ Turns s j c e d.phase := by
  cases hc : s.callers[j]? with
  | some c =>
    obtain ⟨d', hd', hkey, -, hturns⟩ := step_caller hc e
    obtain rfl := Option.some.inj (hd'.symm.trans hd)
    exact .inr ⟨c, rfl, hkey, hturns⟩
  | none =>
    left
    have hj : s.callers.length ≤ j := List.getElem?_eq_none_iff.mp hc
    have hj' : j < (s.step e).callers.length := (List.getElem?_eq_some_iff.mp hd).1
    rcases step_length s e with hlen | ⟨key, range, supplied, rfl⟩
    · omega
    · simp only [step, List.getElem?_append_right hj] at hd
      obtain rfl := List.mem_singleton.mp (List.mem_of_getElem? hd)
      rfl

end SharedStore

end MetricLayer
