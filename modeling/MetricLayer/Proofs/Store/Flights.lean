import Mathlib.Data.List.Induction
import Mathlib.Data.List.Nodup
import MetricLayer.Proofs.Store.Entries
import MetricLayer.Proofs.Store.Moves

/-!
# Flights under way

What ties the slots, the flights, the callers and the entries of a shared store together, whatever
the order in which its callers make their steps:

* `Phase.holds?` and `Phase.leads?`: the flight whose slot a caller has, and the flight that it still
  has to land. A caller gives the slot back before it lands the flight, so it leads a little longer.
* `Flights made s`: every slot has one holder, every flight that is led is open and has one leader,
  everybody who waits has a leader or a landing for the own key, and every value in sight was
  computed for the key under which it is found. `made` says what has been computed for which key.

Results:
1. `Flights.start`: nothing is under way at first.
2. `Flights.step`: every event keeps `Flights`, if `made` holds of the computation that it ends.
3. `Flights.run`: `Flights` holds after every run, with what has been computed in the run.
4. `Flights.holding_once`: a key has at most one caller that holds its slot.
-/

namespace MetricLayer

namespace Phase

variable {α : Type}

/-- The flight whose slot a caller of the phase has. -/
def holds? : Phase α → Option Nat
  | checking f => some f
  | computing f => some f
  | keeping f _ => some f
  | closing f _ _ => some f
  | _ => none

/-- The flight that a caller of the phase has to land. -/
def leads? : Phase α → Option Nat
  | landing f _ _ => some f
  | p => p.holds?

theorem leads?_of_holds? {p : Phase α} {f : Nat} (h : p.holds? = some f) : p.leads? = some f := by
  cases p <;> first | exact h | cases h

theorem holds?_of_leads? {p : Phase α} (h : p.leads? = none) : p.holds? = none := by
  cases hf : p.holds? with
  | none => rfl
  | some f => rw [leads?_of_holds? hf] at h; cases h

end Phase

/-! ## What has been computed -/

section Results

variable {α : Type} (made : String → Computed α → Prop) (enabled : Bool)

/-- The caller's result was computed for its key, with errors wrapped by a store that is used, or
the caller was cancelled. -/
def ResultOk (c : Caller α) : Computed α → Prop
  | .ok v => made c.key (.ok v)
  | .error e =>
    (e = .cancelled ∧ c.cancelled = true) ∨
      ∃ cause, made c.key (.error cause) ∧ e = if enabled then .underCache cause else cause

/-- The landing tells what was computed for the key. -/
def LandingOk (key : String) : Landing α → Prop
  | .done (.ok v) => made key (.ok v)
  | .done (.error e) => ∃ cause, made key (.error cause) ∧ e = .underCache cause
  | .abandoned => True

/-- What the caller has at hand was computed for its key. -/
def PhaseOk (c : Caller α) : Prop :=
  match c.phase with
  | .arriving => True
  | .looking => enabled = true
  | .claiming => enabled = true
  | .checking _ => enabled = true
  | .computing _ => enabled = true
  | .alone => enabled = false
  | .keeping _ v => enabled = true ∧ made c.key (.ok v)
  | .closing _ l r =>
    enabled = true ∧ LandingOk made c.key l ∧ ∀ x, r = some x → ResultOk made enabled c x
  | .landing _ l r =>
    enabled = true ∧ LandingOk made c.key l ∧ ∀ x, r = some x → ResultOk made enabled c x
  | .waiting _ => enabled = true
  | .finished r => ResultOk made enabled c r
  | .dropped => True

variable {made enabled}

theorem ResultOk.mono {made' : String → Computed α → Prop} (hm : ∀ k r, made k r → made' k r)
    {c d : Caller α} (hk : d.key = c.key) (hc : c.cancelled = true → d.cancelled = true)
    {r : Computed α} (h : ResultOk made enabled c r) : ResultOk made' enabled d r := by
  cases r with
  | ok v => exact hm _ _ (hk ▸ h)
  | error e =>
    rcases h with ⟨he, hcancelled⟩ | ⟨cause, hmade, he⟩
    · exact .inl ⟨he, hc hcancelled⟩
    · exact .inr ⟨cause, hm _ _ (hk ▸ hmade), he⟩

theorem LandingOk.mono {made' : String → Computed α → Prop} (hm : ∀ k r, made k r → made' k r)
    {key : String} {l : Landing α} (h : LandingOk made key l) : LandingOk made' key l := by
  match l, h with
  | .done (.ok _), h => exact hm _ _ h
  | .done (.error _), ⟨cause, hmade, he⟩ => exact ⟨cause, hm _ _ hmade, he⟩
  | .abandoned, _ => trivial

theorem PhaseOk.mono {made' : String → Computed α → Prop} (hm : ∀ k r, made k r → made' k r)
    {c d : Caller α} (hk : d.key = c.key) (hp : d.phase = c.phase)
    (hc : c.cancelled = true → d.cancelled = true) (h : PhaseOk made enabled c) :
    PhaseOk made' enabled d := by
  unfold PhaseOk at h ⊢
  rw [hp]
  split at h
  case h_7 => exact ⟨h.1, hm _ _ (hk ▸ h.2)⟩
  case h_8 | h_9 =>
    exact ⟨h.1, hk ▸ h.2.1.mono hm, fun x hx => (h.2.2 x hx).mono hm hk hc⟩
  case h_11 => exact h.mono hm hk hc
  all_goals exact h

/-- What a landing tells is a result for everybody who waits for it. -/
theorem LandingOk.result {c : Caller α} {r : Computed α} (h : LandingOk made c.key (.done r)) :
    ResultOk made true c r := by
  cases r with
  | ok _ => exact h
  | error _ => exact .inr (by simpa [LandingOk] using h)

end Results

/-! ## The invariant -/

namespace SharedStore

variable {α : Type}

/-- Somebody leads the flight for the key, or it has landed with what was computed for the key. -/
def Awaited (made : String → Computed α → Prop) (s : SharedStore α) (key : String) (f : Nat) :
    Prop :=
  (∃ l, s.flights[f]? = some (some l) ∧ LandingOk made key l) ∨
    ∃ (j : Nat) (d : Caller α), s.callers[j]? = some d ∧ d.key = key ∧ d.phase.leads? = some f

/-- The caller is done with a computation of its own, which gave the result. -/
def Completes (s : SharedStore α) (i : Nat) (key : String) (r : Computed α) : Prop :=
  ∃ c, s.callers[i]? = some c ∧ c.key = key ∧ c.supplied = some r ∧
    (c.phase = .alone ∨ ∃ f, c.phase = .computing f)

/-- The state of everything that is under way. -/
structure Flights (made : String → Computed α → Prop) (s : SharedStore α) : Prop where
  slot_held : ∀ k f, (k, f) ∈ s.slots →
    ∃ (i : Nat) (c : Caller α), s.callers[i]? = some c ∧ c.key = k ∧ c.phase.holds? = some f
  held_slot : ∀ (i : Nat) (c : Caller α) (f : Nat),
    s.callers[i]? = some c → c.phase.holds? = some f → (c.key, f) ∈ s.slots
  slots_differ : (s.slots.map (·.1)).Nodup
  led_once : ∀ (i j : Nat) (c d : Caller α) (f : Nat), s.callers[i]? = some c →
    s.callers[j]? = some d → c.phase.leads? = some f → d.phase.leads? = some f → i = j
  led_open : ∀ (i : Nat) (c : Caller α) (f : Nat),
    s.callers[i]? = some c → c.phase.leads? = some f → s.flights[f]? = some none
  awaited : ∀ (i : Nat) (c : Caller α) (f : Nat),
    s.callers[i]? = some c → c.phase = .waiting f → s.Awaited made c.key f
  phase_ok : ∀ (i : Nat) (c : Caller α),
    s.callers[i]? = some c → PhaseOk made s.settings.enabled c
  stored : ∀ e ∈ s.store.entries, made e.key (.ok e.value)
  keys_differ : s.store.KeysDiffer

theorem Awaited.mono {made made' : String → Computed α → Prop} {s : SharedStore α} {key : String}
    {f : Nat} (hm : ∀ k r, made k r → made' k r) (h : s.Awaited made key f) :
    s.Awaited made' key f :=
  h.imp (fun ⟨l, hl, hok⟩ => ⟨l, hl, hok.mono hm⟩) id

theorem mem_of_lookup {slots : List (String × Nat)} {key : String} {f : Nat}
    (h : slots.lookup key = some f) : (key, f) ∈ slots := by
  obtain ⟨l, r, rfl, -⟩ := List.lookup_eq_some_iff.mp h
  simp

theorem not_mem_of_lookup {slots : List (String × Nat)} {key : String}
    (h : slots.lookup key = none) : key ∉ slots.map (·.1) := by
  intro hmem
  obtain ⟨⟨k, f⟩, hkf, rfl⟩ := List.mem_map.mp hmem
  have := List.lookup_eq_none_iff.mp h (k, f) hkf
  simp at this

/-- A key has one slot at most. -/
theorem slot_unique {slots : List (String × Nat)} (h : (slots.map (·.1)).Nodup) {key : String}
    {f g : Nat} (hf : (key, f) ∈ slots) (hg : (key, g) ∈ slots) : f = g := by
  have := List.inj_on_of_nodup_map h hf hg rfl
  exact (Prod.mk.inj this).2

/-- After a caller has changed its phase, it has the new one and the others are as they were. -/
theorem callers_setPhase {s : SharedStore α} {i j : Nat} {p : Phase α} {c d : Caller α}
    (hc : s.callers[i]? = some c) (hd : (s.setPhase i p).callers[j]? = some d) :
    (j = i ∧ d = { c with phase := p }) ∨ (j ≠ i ∧ s.callers[j]? = some d) := by
  obtain ⟨rfl, b, hb, rfl⟩ | hd := callers_updateCaller hd
  · obtain rfl := Option.some.inj (hb.symm.trans hc)
    exact .inl ⟨rfl, rfl⟩
  · exact .inr hd

/-- Who is not the caller that changes its phase stays. -/
theorem setPhase_other {s : SharedStore α} {i j : Nat} {p : Phase α} {c d : Caller α}
    (hc : s.callers[i]? = some c) (hd : s.callers[j]? = some d) (hne : d ≠ c) :
    (s.setPhase i p).callers[j]? = some d := by
  refine (updateCaller_other ?_).trans hd
  rintro rfl
  exact hne (Option.some.inj (hd.symm.trans hc))

/-! ## What keeps the invariant -/

namespace Flights

variable {made : String → Computed α → Prop} {s : SharedStore α}

theorem mono {made' : String → Computed α → Prop} (hm : ∀ k r, made k r → made' k r)
    (h : Flights made s) : Flights made' s where
  slot_held := h.slot_held
  held_slot := h.held_slot
  slots_differ := h.slots_differ
  led_once := h.led_once
  led_open := h.led_open
  awaited i c f hc hw := (h.awaited i c f hc hw).mono hm
  phase_ok i c hc := (h.phase_ok i c hc).mono hm rfl rfl id
  stored e he := hm _ _ (h.stored e he)
  keys_differ := h.keys_differ

/-- Nothing is under way in a store that nobody has used. -/
theorem start (settings : CacheSettings) (now : Instant) :
    Flights made (SharedStore.start settings now : SharedStore α) := by
  constructor <;> simp [SharedStore.start, Store.KeysDiffer]

/-- The time and the counts do not matter, and the entries only as far as their values go. -/
theorem withStore (h : Flights made s) {t : SharedStore α} (hsettings : t.settings = s.settings)
    (hslots : t.slots = s.slots) (hflights : t.flights = s.flights)
    (hcallers : t.callers = s.callers) (hstored : ∀ e ∈ t.store.entries, made e.key (.ok e.value))
    (hkeys : t.store.KeysDiffer) : Flights made t where
  slot_held := by rw [hslots, hcallers]; exact h.slot_held
  held_slot := by rw [hslots, hcallers]; exact h.held_slot
  slots_differ := by rw [hslots]; exact h.slots_differ
  led_once := by rw [hcallers]; exact h.led_once
  led_open := by rw [hflights, hcallers]; exact h.led_open
  awaited := by simp only [Awaited, hflights, hcallers]; exact h.awaited
  phase_ok := by rw [hsettings, hcallers]; exact h.phase_ok
  stored := hstored
  keys_differ := hkeys

/-- A caller may change as long as it has the same key and leads and holds the same flight. -/
theorem updateCaller (h : Flights made s) {i : Nat} {g : Caller α → Caller α} {c : Caller α}
    (hc : s.callers[i]? = some c) (hkey : (g c).key = c.key)
    (hleads : (g c).phase.leads? = c.phase.leads?) (hholds : (g c).phase.holds? = c.phase.holds?)
    (hwaits : ∀ f, (g c).phase = .waiting f → s.Awaited made c.key f)
    (hok : PhaseOk made s.settings.enabled (g c)) : Flights made (s.updateCaller i g) := by
  -- every caller after the change stands for one before it, with the same part in the flights
  have back : ∀ (j : Nat) (d : Caller α), (s.updateCaller i g).callers[j]? = some d →
      ∃ b, s.callers[j]? = some b ∧ d.key = b.key ∧ d.phase.leads? = b.phase.leads? ∧
        d.phase.holds? = b.phase.holds? := by
    intro j d hd
    rcases callers_updateCaller hd with ⟨rfl, b, hb, rfl⟩ | ⟨-, hd⟩
    · obtain rfl : c = b := Option.some.inj (hc.symm.trans hb)
      exact ⟨c, hc, hkey, hleads, hholds⟩
    · exact ⟨d, hd, rfl, rfl, rfl⟩
  have forth : ∀ (j : Nat) (b : Caller α), s.callers[j]? = some b →
      ∃ d, (s.updateCaller i g).callers[j]? = some d ∧ d.key = b.key ∧
        d.phase.leads? = b.phase.leads? ∧ d.phase.holds? = b.phase.holds? := by
    intro j b hb
    by_cases hji : j = i
    · subst hji
      obtain rfl : c = b := Option.some.inj (hc.symm.trans hb)
      exact ⟨g c, updateCaller_self hc, hkey, hleads, hholds⟩
    · exact ⟨b, (updateCaller_other hji).trans hb, rfl, rfl, rfl⟩
  have still : ∀ key f, s.Awaited made key f → (s.updateCaller i g).Awaited made key f := by
    intro key f ha
    refine ha.imp id ?_
    rintro ⟨j, b, hb, hbk, hbf⟩
    obtain ⟨d, hd, hdk, hdl, -⟩ := forth j b hb
    exact ⟨j, d, hd, hdk.trans hbk, hdl.trans hbf⟩
  constructor
  case slot_held =>
    intro k f hkf
    obtain ⟨j, b, hb, hbk, hbf⟩ := h.slot_held k f hkf
    obtain ⟨d, hd, hdk, -, hdh⟩ := forth j b hb
    exact ⟨j, d, hd, hdk.trans hbk, hdh.trans hbf⟩
  case held_slot =>
    intro j d f hd hf
    obtain ⟨b, hb, hdk, -, hdh⟩ := back j d hd
    rw [hdk]
    exact h.held_slot j b f hb (hdh.symm.trans hf)
  case slots_differ => exact h.slots_differ
  case led_once =>
    intro j₁ j₂ d₁ d₂ f hd₁ hd₂ hf₁ hf₂
    obtain ⟨b₁, hb₁, -, hl₁, -⟩ := back j₁ d₁ hd₁
    obtain ⟨b₂, hb₂, -, hl₂, -⟩ := back j₂ d₂ hd₂
    exact h.led_once j₁ j₂ b₁ b₂ f hb₁ hb₂ (hl₁.symm.trans hf₁) (hl₂.symm.trans hf₂)
  case led_open =>
    intro j d f hd hf
    obtain ⟨b, hb, -, hl, -⟩ := back j d hd
    exact h.led_open j b f hb (hl.symm.trans hf)
  case awaited =>
    intro j d f hd hw
    rcases callers_updateCaller hd with ⟨rfl, b, hb, rfl⟩ | ⟨-, hd⟩
    · obtain rfl : c = b := Option.some.inj (hc.symm.trans hb)
      rw [hkey]
      exact still _ _ (hwaits f hw)
    · exact still _ _ (h.awaited j d f hd hw)
  case phase_ok =>
    intro j d hd
    rcases callers_updateCaller hd with ⟨rfl, b, hb, rfl⟩ | ⟨-, hd⟩
    · obtain rfl : c = b := Option.some.inj (hc.symm.trans hb)
      exact hok
    · exact h.phase_ok j d hd
  case stored => exact h.stored
  case keys_differ => exact h.keys_differ

/-- What is known of a caller may change while it stays in its phase. -/
theorem sameParts (h : Flights made s) (i : Nat) (g : Caller α → Caller α)
    (hkey : ∀ c, (g c).key = c.key) (hphase : ∀ c, (g c).phase = c.phase)
    (hcancelled : ∀ c, c.cancelled = true → (g c).cancelled = true) :
    Flights made (s.updateCaller i g) := by
  cases hc : s.callers[i]? with
  | none =>
    have : s.updateCaller i g = s := by
      have hi : s.callers.length ≤ i := List.getElem?_eq_none_iff.mp hc
      simp [SharedStore.updateCaller, List.modify_eq_self hi]
    rwa [this]
  | some c =>
    refine h.updateCaller hc (hkey c) (by rw [hphase]) (by rw [hphase]) ?_ ?_
    · exact fun f hw => h.awaited i c f hc ((hphase c).symm.trans hw)
    · exact (h.phase_ok i c hc).mono (fun _ _ => id) (hkey c) (hphase c) (hcancelled c)

/-- A caller may go on to a phase in which it has the same part in the flights. -/
theorem setPhase (h : Flights made s) {i : Nat} {c : Caller α} {p : Phase α}
    (hc : s.callers[i]? = some c) (hleads : p.leads? = c.phase.leads?)
    (hholds : p.holds? = c.phase.holds?) (hwaits : ∀ f, p = .waiting f → s.Awaited made c.key f)
    (hok : PhaseOk made s.settings.enabled { c with phase := p }) :
    Flights made (s.setPhase i p) :=
  h.updateCaller hc rfl hleads hholds hwaits hok

/-- A further caller, who has not done anything yet. -/
theorem arrive (h : Flights made s) (key : String) (range : Option DayRange)
    (supplied : Option (Computed α)) :
    Flights made { s with callers := s.callers ++ [{ key, range, supplied }] } := by
  have back : ∀ (j : Nat) (d : Caller α),
      (s.callers ++ [({ key, range, supplied } : Caller α)])[j]? = some d →
      s.callers[j]? = some d ∨ d.phase = .arriving := by
    intro j d hd
    rcases Nat.lt_or_ge j s.callers.length with hj | hj
    · rw [List.getElem?_append_left hj] at hd
      exact .inl hd
    · rw [List.getElem?_append_right hj] at hd
      obtain rfl := List.mem_singleton.mp (List.mem_of_getElem? hd)
      exact .inr rfl
  have forth : ∀ (j : Nat) (b : Caller α), s.callers[j]? = some b →
      (s.callers ++ [({ key, range, supplied } : Caller α)])[j]? = some b := by
    intro j b hb
    rw [List.getElem?_append_left (List.getElem?_eq_some_iff.mp hb).1]
    exact hb
  constructor
  case slot_held =>
    intro k f hkf
    obtain ⟨j, b, hb, hrest⟩ := h.slot_held k f hkf
    exact ⟨j, b, forth j b hb, hrest⟩
  case held_slot =>
    intro j d f hd hf
    rcases back j d hd with hd | hp
    · exact h.held_slot j d f hd hf
    · rw [hp] at hf; cases hf
  case slots_differ => exact h.slots_differ
  case led_once =>
    intro j₁ j₂ d₁ d₂ f hd₁ hd₂ hf₁ hf₂
    rcases back j₁ d₁ hd₁ with hd₁ | hp
    · rcases back j₂ d₂ hd₂ with hd₂ | hp
      · exact h.led_once j₁ j₂ d₁ d₂ f hd₁ hd₂ hf₁ hf₂
      · rw [hp] at hf₂; cases hf₂
    · rw [hp] at hf₁; cases hf₁
  case led_open =>
    intro j d f hd hf
    rcases back j d hd with hd | hp
    · exact h.led_open j d f hd hf
    · rw [hp] at hf; cases hf
  case awaited =>
    intro j d f hd hw
    rcases back j d hd with hd | hp
    · exact (h.awaited j d f hd hw).imp id fun ⟨j, b, hb, hrest⟩ => ⟨j, b, forth j b hb, hrest⟩
    · rw [hp] at hw; cases hw
  case phase_ok =>
    intro j d hd
    rcases back j d hd with hd | hp
    · exact h.phase_ok j d hd
    · simp [PhaseOk, hp]
  case stored => exact h.stored
  case keys_differ => exact h.keys_differ

/-- A caller takes the slot of its key, which is free, and leads a new flight. -/
theorem lead (h : Flights made s) {i : Nat} {c : Caller α} (hc : s.callers[i]? = some c)
    (hp : c.phase = .claiming) (hslot : s.slots.lookup c.key = none) :
    Flights made
      ({ s with slots := (c.key, s.flights.length) :: s.slots, flights := s.flights ++ [none] }
        |>.setPhase i (.checking s.flights.length)) := by
  have henabled : s.settings.enabled = true := by simpa [PhaseOk, hp] using h.phase_ok i c hc
  -- the new flight has a number that no caller can know
  have old : ∀ (j : Nat) (d : Caller α) (f : Nat), s.callers[j]? = some d →
      d.phase.leads? = some f → f < s.flights.length := fun j d f hd hf =>
    (List.getElem?_eq_some_iff.mp (h.led_open j d f hd hf)).1
  have kept : ∀ (f : Nat) (o : Option (Landing α)), s.flights[f]? = some o →
      (s.flights ++ [none])[f]? = some o := by
    intro f o hf
    rw [List.getElem?_append_left (List.getElem?_eq_some_iff.mp hf).1]
    exact hf
  have back := fun j d => callers_setPhase (p := .checking s.flights.length) (j := j) (d := d) hc
  have still : ∀ key f, s.Awaited made key f → Awaited made
      ({ s with slots := (c.key, s.flights.length) :: s.slots, flights := s.flights ++ [none] }
        |>.setPhase i (.checking s.flights.length)) key f := by
    intro key f ha
    refine ha.imp (fun ⟨l, hl, hok⟩ => ⟨l, kept f _ hl, hok⟩) ?_
    rintro ⟨j, d, hd, hrest⟩
    refine ⟨j, d, setPhase_other hc hd ?_, hrest⟩
    rintro rfl
    rw [hp] at hrest
    cases hrest.2
  constructor
  case slot_held =>
    intro k f hkf
    rcases List.mem_cons.mp hkf with heq | hkf
    · cases heq
      exact ⟨i, _, updateCaller_self hc, rfl, rfl⟩
    · obtain ⟨j, d, hd, hk, hf⟩ := h.slot_held k f hkf
      refine ⟨j, d, setPhase_other hc hd ?_, hk, hf⟩
      rintro rfl
      rw [hp] at hf
      cases hf
  case held_slot =>
    intro j d f hd hf
    rcases back j d hd with ⟨rfl, rfl⟩ | ⟨-, hd⟩
    · cases hf
      exact List.mem_cons_self
    · exact List.mem_cons_of_mem _ (h.held_slot j d f hd hf)
  case slots_differ =>
    exact List.nodup_cons.mpr ⟨not_mem_of_lookup hslot, h.slots_differ⟩
  case led_once =>
    intro j₁ j₂ d₁ d₂ f hd₁ hd₂ hf₁ hf₂
    rcases back j₁ d₁ hd₁ with ⟨hj₁, rfl⟩ | ⟨-, hb₁⟩ <;>
      rcases back j₂ d₂ hd₂ with ⟨hj₂, rfl⟩ | ⟨-, hb₂⟩
    · exact hj₁.trans hj₂.symm
    · cases hf₁
      exact absurd (old j₂ d₂ _ hb₂ hf₂) (Nat.lt_irrefl _)
    · cases hf₂
      exact absurd (old j₁ d₁ _ hb₁ hf₁) (Nat.lt_irrefl _)
    · exact h.led_once j₁ j₂ d₁ d₂ f hb₁ hb₂ hf₁ hf₂
  case led_open =>
    intro j d f hd hf
    rcases back j d hd with ⟨rfl, rfl⟩ | ⟨-, hd⟩
    · cases hf
      simp [SharedStore.setPhase, SharedStore.updateCaller]
    · exact kept f _ (h.led_open j d f hd hf)
  case awaited =>
    intro j d f hd hw
    rcases back j d hd with ⟨rfl, rfl⟩ | ⟨-, hd⟩
    · cases hw
    · exact still _ _ (h.awaited j d f hd hw)
  case phase_ok =>
    intro j d hd
    rcases back j d hd with ⟨rfl, rfl⟩ | ⟨-, hd⟩
    · exact henabled
    · exact h.phase_ok j d hd
  case stored => exact h.stored
  case keys_differ => exact h.keys_differ

/-- A caller gives the slot of its key back and goes on to land the flight. -/
theorem giveBack (h : Flights made s) {i : Nat} {c : Caller α} {f : Nat} {l : Landing α}
    {r : Option (Computed α)} (hc : s.callers[i]? = some c) (hp : c.phase = .closing f l r) :
    Flights made
      ({ s with slots := s.slots.filter (·.1 ≠ c.key) }.setPhase i (.landing f l r)) := by
  have hleads : c.phase.leads? = some f := by rw [hp]; rfl
  have mine : (c.key, f) ∈ s.slots := h.held_slot i c f hc (by rw [hp]; rfl)
  have back := fun j d => callers_setPhase (p := .landing f l r) (j := j) (d := d) hc
  have led : ∀ (j : Nat) (d : Caller α) (g : Nat),
      (s.setPhase i (.landing f l r)).callers[j]? = some d → d.phase.leads? = some g →
        ∃ b, s.callers[j]? = some b ∧ b.phase.leads? = some g := by
    intro j d g hd hg
    rcases back j d hd with ⟨rfl, rfl⟩ | ⟨-, hd⟩
    · exact ⟨c, hc, hleads.trans hg⟩
    · exact ⟨d, hd, hg⟩
  constructor
  case slot_held =>
    intro k g hkg
    obtain ⟨hkg, hk⟩ := List.mem_filter.mp hkg
    obtain ⟨j, d, hd, rfl, hg⟩ := h.slot_held k g hkg
    refine ⟨j, d, setPhase_other hc hd ?_, rfl, hg⟩
    rintro rfl
    simp at hk
  case held_slot =>
    intro j d g hd hg
    rcases back j d hd with ⟨-, rfl⟩ | ⟨hji, hb⟩
    · cases hg
    · have hslot := h.held_slot j d g hb hg
      refine List.mem_filter.mpr ⟨hslot, ?_⟩
      -- whoever holds a slot of the same key is the caller itself
      simp only [ne_eq, decide_not, Bool.not_eq_true', decide_eq_false_iff_not]
      intro hk
      rw [hk] at hslot
      obtain rfl := slot_unique h.slots_differ hslot mine
      exact hji (h.led_once j i d c g hb hc (Phase.leads?_of_holds? hg) hleads)
  case slots_differ => exact h.slots_differ.sublist (List.filter_sublist.map _)
  case led_once =>
    intro j₁ j₂ d₁ d₂ g hd₁ hd₂ hg₁ hg₂
    obtain ⟨b₁, hb₁, hg₁⟩ := led j₁ d₁ g hd₁ hg₁
    obtain ⟨b₂, hb₂, hg₂⟩ := led j₂ d₂ g hd₂ hg₂
    exact h.led_once j₁ j₂ b₁ b₂ g hb₁ hb₂ hg₁ hg₂
  case led_open =>
    intro j d g hd hg
    obtain ⟨b, hb, hg⟩ := led j d g hd hg
    exact h.led_open j b g hb hg
  case awaited =>
    intro j d g hd hw
    rcases back j d hd with ⟨-, rfl⟩ | ⟨-, hd⟩
    · cases hw
    · refine (h.awaited j d g hd hw).imp id ?_
      rintro ⟨j', d', hd', hk, hg⟩
      by_cases hdc : d' = c
      · subst hdc
        exact ⟨i, _, updateCaller_self hc, hk, hleads.symm.trans hg⟩
      · exact ⟨j', d', setPhase_other hc hd' hdc, hk, hg⟩
  case phase_ok =>
    intro j d hd
    rcases back j d hd with ⟨rfl, rfl⟩ | ⟨-, hd⟩
    · have hok := h.phase_ok j c hc
      simp only [PhaseOk, hp] at hok
      exact ⟨hok.1, hok.2.1, fun x hx => (hok.2.2 x hx).mono (fun _ _ => id) rfl id⟩
    · exact h.phase_ok j d hd
  case stored => exact h.stored
  case keys_differ => exact h.keys_differ

/-- A caller lands its flight, which everybody who waits for it gets to know. -/
theorem land (h : Flights made s) {i : Nat} {c : Caller α} {f : Nat} {l : Landing α}
    {r : Option (Computed α)} (hc : s.callers[i]? = some c) (hp : c.phase = .landing f l r) :
    Flights made ({ s with flights := s.flights.set f (some l) }.setPhase i (.ending r)) := by
  have hleads : c.phase.leads? = some f := by rw [hp]; rfl
  have hok := h.phase_ok i c hc
  simp only [PhaseOk, hp] at hok
  have ending : ∀ g, (Phase.ending r).leads? ≠ some g ∧ (Phase.ending r).holds? ≠ some g ∧
      Phase.ending r ≠ .waiting g := by
    intro g
    cases r <;> simp [Phase.ending, Phase.leads?, Phase.holds?]
  have back := fun j d => callers_setPhase (p := .ending r) (j := j) (d := d) hc
  have led : ∀ (j : Nat) (d : Caller α) (g : Nat),
      (s.setPhase i (.ending r)).callers[j]? = some d → d.phase.leads? = some g →
        j ≠ i ∧ s.callers[j]? = some d := by
    intro j d g hd hg
    rcases back j d hd with ⟨-, rfl⟩ | h'
    · exact absurd hg (ending g).1
    · exact h'
  constructor
  case slot_held =>
    intro k g hkg
    obtain ⟨j, d, hd, hk, hg⟩ := h.slot_held k g hkg
    refine ⟨j, d, setPhase_other hc hd ?_, hk, hg⟩
    rintro rfl
    rw [hp] at hg
    cases hg
  case held_slot =>
    intro j d g hd hg
    exact h.held_slot j d g (led j d g hd (Phase.leads?_of_holds? hg)).2 hg
  case slots_differ => exact h.slots_differ
  case led_once =>
    intro j₁ j₂ d₁ d₂ g hd₁ hd₂ hg₁ hg₂
    exact h.led_once j₁ j₂ d₁ d₂ g (led j₁ d₁ g hd₁ hg₁).2 (led j₂ d₂ g hd₂ hg₂).2 hg₁ hg₂
  case led_open =>
    intro j d g hd hg
    obtain ⟨hji, hd⟩ := led j d g hd hg
    have hfg : f ≠ g := by
      rintro rfl
      exact hji (h.led_once j i d c f hd hc hg hleads)
    exact (List.getElem?_set_ne hfg).trans (h.led_open j d g hd hg)
  case awaited =>
    intro j d g hd hw
    rcases back j d hd with ⟨-, rfl⟩ | ⟨-, hd⟩
    · exact absurd hw (ending g).2.2
    · by_cases hfg : f = g
      · subst hfg
        -- the leader of the flight that the caller waits for is the one that lands it
        refine .inl ⟨l, ?_, ?_⟩
        · have hf := (List.getElem?_eq_some_iff.mp (h.led_open i c f hc hleads)).1
          simp [SharedStore.setPhase, SharedStore.updateCaller, hf]
        · rcases h.awaited j d f hd hw with ⟨l', hl', -⟩ | ⟨j', d', hd', hk, hg⟩
          · rw [h.led_open i c f hc hleads] at hl'
            cases hl'
          · obtain rfl := h.led_once j' i d' c f hd' hc hg hleads
            obtain rfl := Option.some.inj (hd'.symm.trans hc)
            exact hk ▸ hok.2.1
      · refine (h.awaited j d g hd hw).imp ?_ ?_
        · rintro ⟨l', hl', hok'⟩
          exact ⟨l', (List.getElem?_set_ne hfg).trans hl', hok'⟩
        · rintro ⟨j', d', hd', hk, hg⟩
          refine ⟨j', d', setPhase_other hc hd' ?_, hk, hg⟩
          rintro rfl
          exact hfg (Option.some.inj (hleads.symm.trans hg))
  case phase_ok =>
    intro j d hd
    rcases back j d hd with ⟨rfl, rfl⟩ | ⟨-, hd⟩
    · cases r with
      | none => trivial
      | some x => exact (hok.2.2 x rfl).mono (fun _ _ => id) rfl id
    · exact h.phase_ok j d hd
  case stored => exact h.stored
  case keys_differ => exact h.keys_differ

/-- A look-up leaves the flights alone, and what it finds was computed for the key. -/
theorem lookup (h : Flights made s) (key : String) : Flights made (s.lookup key).1 := by
  refine h.withStore rfl rfl rfl rfl ?_ (h.keys_differ.lookup s.now key)
  intro e he
  obtain ⟨e', he', hkey, hvalue⟩ := Store.lookup_entry he
  exact hkey ▸ hvalue ▸ h.stored e' he'

theorem lookup_found (h : Flights made s) {key : String} {v : α}
    (hv : (s.lookup key).2 = some v) : made key (.ok v) := by
  obtain ⟨e, he, rfl, rfl, -⟩ := Store.lookup_some hv
  exact h.stored e he

/-- What a caller gets to know of the flight that it waits for was computed for its key. -/
theorem landed (h : Flights made s) {i : Nat} {c : Caller α} {f : Nat} {l : Landing α}
    (hc : s.callers[i]? = some c) (hp : c.phase = .waiting f) (hl : s.landing? f = some l) :
    LandingOk made c.key l := by
  have hl : s.flights[f]? = some (some l) := Option.join_eq_some_iff.mp hl
  rcases h.awaited i c f hc hp with ⟨l', hl', hok⟩ | ⟨j, d, hd, -, hf⟩
  · rw [hl] at hl'
    cases hl'
    exact hok
  · rw [h.led_open j d f hd hf] at hl
    cases hl

/-- A caller that has found or got its result has come to its end. -/
theorem finish (h : Flights made s) {i : Nat} {c : Caller α} {r : Computed α}
    (hc : s.callers[i]? = some c) (hp : c.phase.leads? = none)
    (hr : ResultOk made s.settings.enabled c r) : Flights made (s.setPhase i (.finished r)) := by
  refine h.setPhase hc hp.symm ?_ (by rintro f ⟨⟩) (hr.mono (fun _ _ => id) rfl id)
  exact (Phase.holds?_of_leads? hp).symm

/-- The step of a caller keeps the invariant, if what it computes was computed. -/
theorem act (h : Flights made s) {i : Nat} {c : Caller α} {u : SharedStore α} {q : Phase α}
    (hc : s.callers[i]? = some c) (hmoves : Moves s i c c.phase u q)
    (hmade : ∀ key r, s.Completes i key r → made key r) : Flights made (u.setPhase i q) := by
  have hok := h.phase_ok i c hc
  generalize hp : c.phase = p at hmoves
  simp only [PhaseOk, hp] at hok
  cases hmoves
  case enter =>
    have h' := h.sameParts i (fun c => { c with tier := Tier.ofRange c.range s.today })
      (fun _ => rfl) (fun _ => rfl) (fun _ => id)
    cases henabled : s.settings.enabled
    all_goals
      refine h'.setPhase (updateCaller_self hc) (by rw [hp]; rfl) (by rw [hp]; rfl)
        (by rintro f ⟨⟩) henabled
  case hit v found => exact (h.lookup c.key).finish hc (by rw [hp]; rfl) (h.lookup_found found)
  case miss =>
    exact (h.lookup c.key).setPhase hc (by rw [hp]; rfl) (by rw [hp]; rfl) (by rintro f ⟨⟩) hok
  case join f taken =>
    obtain ⟨j, d, hd, hk, hf⟩ := h.slot_held _ _ (mem_of_lookup taken)
    refine h.setPhase hc (by rw [hp]; rfl) (by rw [hp]; rfl) ?_ hok
    rintro g ⟨⟩
    exact .inr ⟨j, d, hd, hk, Phase.leads?_of_holds? hf⟩
  case lead free => exact h.lead hc hp free
  case hitLate f v found =>
    have hv := h.lookup_found found
    refine (h.lookup c.key).setPhase hc (by rw [hp]; rfl) (by rw [hp]; rfl) (by rintro f ⟨⟩) ?_
    exact ⟨hok, hv, by rintro x ⟨⟩; exact hv⟩
  case begin f missing =>
    have h' := h.lookup c.key
    have h' := h'.withStore (t := { (s.lookup c.key).1 with misses := s.misses + 1 })
      rfl rfl rfl rfl h'.stored h'.keys_differ
    exact h'.setPhase hc (by rw [hp]; rfl) (by rw [hp]; rfl) (by rintro f ⟨⟩) hok
  case succeed f v result =>
    have hv := hmade c.key _ ⟨c, hc, rfl, result, .inr ⟨f, hp⟩⟩
    exact h.setPhase hc (by rw [hp]; rfl) (by rw [hp]; rfl) (by rintro f ⟨⟩) ⟨hok, hv⟩
  case fail f e result =>
    have he := hmade c.key _ ⟨c, hc, rfl, result, .inr ⟨f, hp⟩⟩
    refine h.setPhase hc (by rw [hp]; rfl) (by rw [hp]; rfl) (by rintro f ⟨⟩) ?_
    refine ⟨hok, ⟨e, he, rfl⟩, ?_⟩
    rintro x ⟨⟩
    exact .inr ⟨e, he, by rw [if_pos hok]⟩
  case computeAlone r result =>
    have hr := hmade c.key r ⟨c, hc, rfl, result, .inl hp⟩
    refine h.finish hc (by rw [hp]; rfl) ?_
    cases r with
    | ok v => exact hr
    | error e => exact .inr ⟨e, hr, by simp [hok]⟩
  case keep f v =>
    have h' := h.withStore (t := { s with store := s.store.put s.settings s.now c.key v c.tier })
      rfl rfl rfl rfl ?_ (h.keys_differ.put ..)
    · refine h'.setPhase hc (by rw [hp]; rfl) (by rw [hp]; rfl) (by rintro f ⟨⟩) ?_
      exact ⟨hok.1, hok.2, by rintro x ⟨⟩; exact hok.2⟩
    · intro e he
      rcases Store.put_entry he with he | ⟨hk, hv⟩
      · exact h.stored e he
      · rw [hk, hv]
        exact hok.2
  case giveBack f l r => exact h.giveBack hc hp
  case land f l r => exact h.land hc hp
  case receive f v landed =>
    have h' := h.withStore (t := { s with hits := s.hits + 1 }) rfl rfl rfl rfl h.stored
      h.keys_differ
    exact h'.finish hc (by rw [hp]; rfl) (h.landed hc hp landed)
  case receiveError f e landed =>
    refine h.finish hc (by rw [hp]; rfl) ?_
    rw [hok]
    exact (h.landed hc hp landed).result
  case startAgain f landed =>
    exact h.setPhase hc (by rw [hp]; rfl) (by rw [hp]; rfl) (by rintro f ⟨⟩) hok

/-- A caller that goes away gives up its flight; what it is left with must be a result for it. -/
theorem leave (h : Flights made s) {i : Nat} {c : Caller α} {q : Phase α}
    {result : Option (Computed α)} (hc : s.callers[i]? = some c)
    (hresult : ∀ r, result = some r → ResultOk made s.settings.enabled c r)
    (hleaves : Leaves result c.phase q) : Flights made (s.setPhase i q) := by
  have hok := h.phase_ok i c hc
  generalize hp : c.phase = p at hleaves
  simp only [PhaseOk, hp] at hok
  have gone : c.phase.leads? = none → Flights made (s.setPhase i .dropped) := by
    intro hleads
    refine h.setPhase hc hleads.symm ?_ (by rintro f ⟨⟩) trivial
    exact (Phase.holds?_of_leads? hleads).symm
  have ended : c.phase.leads? = none → Flights made (s.setPhase i (.ending result)) := by
    intro hleads
    cases result with
    | some r => exact h.finish hc hleads (hresult r rfl)
    | none => exact gone hleads
  cases hleaves
  case beforeStart => exact gone (by rw [hp]; rfl)
  case computing f =>
    refine h.setPhase hc (by rw [hp]; rfl) (by rw [hp]; rfl) (by rintro f ⟨⟩) ⟨hok, trivial, ?_⟩
    exact fun r hr => (hresult r hr).mono (fun _ _ => id) rfl id
  case alone => exact ended (by rw [hp]; rfl)
  case waiting f => exact ended (by rw [hp]; rfl)
  case afterEnd r => exact gone (by rw [hp]; rfl)

/-- Every event keeps the invariant, if what the event ends was computed. -/
theorem step (h : Flights made s) (e : Event α)
    (hmade : ∀ i, e = .act i → ∀ key r, s.Completes i key r → made key r) :
    Flights made (s.step e) := by
  have happens := step_happens s e
  generalize s.step e = t at happens ⊢
  cases happens
  case moves i c u q hc hmoves => exact h.act hc hmoves (hmade i rfl)
  case quits i c q hc hcancelled hleaves =>
    refine h.leave hc ?_ hleaves
    rintro r ⟨⟩
    exact .inl ⟨rfl, hcancelled⟩
  case drops i c q hc hleaves => exact h.leave hc (by rintro r ⟨⟩) hleaves
  case nothing => exact h
  case arrives key range supplied => exact h.arrive key range supplied
  case supplies i r => exact h.sameParts i _ (fun _ => rfl) (fun _ => rfl) (fun _ => id)
  case cancels i => exact h.sameParts i _ (fun _ => rfl) (fun _ => rfl) (fun _ _ => rfl)
  case invalidates key =>
    exact h.withStore rfl rfl rfl rfl (fun e he => h.stored e (Store.mem_erase.mp he).1)
      (h.keys_differ.erase key)
  case clears => exact h.withStore rfl rfl rfl rfl (by rintro e ⟨⟩) List.nodup_nil
  case advances | setsDate => exact h.withStore rfl rfl rfl rfl h.stored h.keys_differ

/-- Two callers that hold the slot of one key are one caller. -/
theorem holding_once (h : Flights made s) {i j : Nat} {c d : Caller α} {f g : Nat}
    (hc : s.callers[i]? = some c) (hd : s.callers[j]? = some d) (hf : c.phase.holds? = some f)
    (hg : d.phase.holds? = some g) (hkey : c.key = d.key) : i = j := by
  have hcf := h.held_slot i c f hc hf
  have hdg := h.held_slot j d g hd hg
  rw [hkey] at hcf
  obtain rfl := slot_unique h.slots_differ hcf hdg
  exact h.led_once i j c d f hc hd (Phase.leads?_of_holds? hf) (Phase.leads?_of_holds? hg)

end Flights

/-! ## Along a run -/

/-- Among the events from `s` on, a computation for the key came to its end and gave the result. -/
def HasComputed (s : SharedStore α) (events : List (Event α)) (key : String) (r : Computed α) : Prop :=
  ∃ pre i post, events = pre ++ .act i :: post ∧ (s.run pre).Completes i key r

theorem run_append (s : SharedStore α) (es es' : List (Event α)) :
    s.run (es ++ es') = (s.run es).run es' :=
  List.foldl_append

theorem run_snoc (s : SharedStore α) (es : List (Event α)) (e : Event α) :
    s.run (es ++ [e]) = (s.run es).step e :=
  run_append s es [e]

theorem run_settings (s : SharedStore α) (es : List (Event α)) :
    (s.run es).settings = s.settings := by
  induction es generalizing s with
  | nil => rfl
  | cons e es ih => exact (ih (s.step e)).trans (step_settings s e)

/-- The invariant holds after every run, with what has been computed in the run. -/
theorem Flights.run (settings : CacheSettings) (now : Instant) (events : List (Event α)) :
    Flights ((SharedStore.start settings now).HasComputed events)
      ((SharedStore.start settings now).run events) := by
  induction events using List.reverseRecOn with
  | nil => exact Flights.start settings now
  | append_singleton es e ih =>
    rw [run_snoc]
    refine (ih.mono ?_).step e ?_
    · rintro key r ⟨pre, i, post, rfl, h⟩
      exact ⟨pre, i, post ++ [e], by simp, h⟩
    · rintro i rfl key r h
      exact ⟨es, i, [], rfl, h⟩

end SharedStore

end MetricLayer
