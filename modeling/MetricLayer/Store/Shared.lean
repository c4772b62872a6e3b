import MetricLayer.Store.Key
import MetricLayer.Store.Basic
import MetricLayer.Translation.Error

/-!
# Sharing computations

Many callers ask for translations at the same time, and those that ask for the same one share its
computation. The first caller of a key takes the key's slot and leads a flight; the callers after it
wait for the flight to land. A flight lands with a value, which is stored, or with an error, which
is not; if its leader goes away it is abandoned, and those that wait start again.

A caller makes its way in steps, `SharedStore.act`, between which other callers can make theirs. An
`Event` is a step of one caller or something that happens from outside, so that a list of events is
one way in which everything can interleave, and `SharedStore.settle` is the way in which every
caller goes on until it has to wait.
-/

namespace MetricLayer

/-- What a computation gives. -/
abbrev Computed (α : Type) := Except TranslationError α

/-- How a flight ends. -/
inductive Landing (α : Type) where
  | done (result : Computed α)
  | abandoned

/-- What a caller is about to do. -/
inductive Phase (α : Type) where
  /-- To find out whether the store is used and how soon its value will expire. -/
  | arriving
  /-- To look its key up. -/
  | looking
  /-- To take the slot of its key, or to wait for the flight that has it. -/
  | claiming
  /-- To look its key up once more, with the slot taken. -/
  | checking (flight : Nat)
  /-- To compute, leading a flight. -/
  | computing (flight : Nat)
  /-- To compute without the store. -/
  | alone
  /-- To store the value. -/
  | keeping (flight : Nat) (value : α)
  /-- To give the slot back. -/
  | closing (flight : Nat) (landing : Landing α) (result : Option (Computed α))
  /-- To tell those that wait. -/
  | landing (flight : Nat) (landing : Landing α) (result : Option (Computed α))
  /-- To wait for a flight. -/
  | waiting (flight : Nat)
  | finished (result : Computed α)
  | dropped

namespace Phase

variable {α : Type}

/-- What a caller is left with after its flight has landed: its result, unless it was dropped. -/
def ending : Option (Computed α) → Phase α
  | some r => finished r
  | none => dropped

end Phase

/-- Somebody who asks for a translation. -/
structure Caller (α : Type) where
  key : String
  /-- The days of the report, which decide how soon its value expires. -/
  range : Option DayRange
  tier : Tier := .live
  /-- What the caller's own computation gives, once it is there. -/
  supplied : Option (Computed α)
  cancelled : Bool := false
  phase : Phase α := .arriving

/-- A store with the callers that share it. -/
structure SharedStore (α : Type) where
  settings : CacheSettings
  now : Instant
  store : Store α := {}
  /-- The keys whose flight is under way, with its number. -/
  slots : List (String × Nat) := []
  /-- How the flights have landed so far, by number. -/
  flights : List (Option (Landing α)) := []
  callers : List (Caller α) := []
  /-- How many callers were served without computing. -/
  hits : Nat := 0
  /-- How many computations were started. -/
  misses : Nat := 0

/-- What can happen to a shared store. -/
inductive Event (α : Type) where
  | arrive (key : String) (range : Option DayRange) (supplied : Option (Computed α))
  /-- The caller takes its next step. -/
  | act (caller : Nat)
  /-- The caller notices that it was cancelled. -/
  | quit (caller : Nat)
  /-- The caller's computation is done. -/
  | supply (caller : Nat) (result : Computed α)
  | cancel (caller : Nat)
  | drop (caller : Nat)
  | invalidate (key : String)
  | clear
  | advance (seconds : Nat)
  | setDate (d : Date)

namespace SharedStore

variable {α : Type} (s : SharedStore α)

/-- The shared store that nobody has used yet. -/
def start (settings : CacheSettings) (now : Instant) : SharedStore α := { settings, now }

/-- The day. -/
def today : Date := s.now.date

/-- Changes a caller. -/
def updateCaller (i : Nat) (f : Caller α → Caller α) : SharedStore α :=
  { s with callers := s.callers.modify i f }

/-- Sets what a caller is about to do. -/
def setPhase (i : Nat) (p : Phase α) : SharedStore α := s.updateCaller i ({ · with phase := p })

/-- How a flight has landed, if it has. -/
def landing? (flight : Nat) : Option (Landing α) := (s.flights[flight]?).join

/-- Looks the key of a caller up; a value that is found counts as a hit. -/
def lookup (key : String) : SharedStore α × Option α :=
  let (store, found) := s.store.lookup s.now key
  ({ s with store, hits := s.hits + if found.isSome then 1 else 0 }, found)

/-- The step of a caller that takes the slot of its key or finds it taken. -/
def claim (i : Nat) (key : String) : SharedStore α :=
  match s.slots.lookup key with
  | some flight => s.setPhase i (.waiting flight)
  | none =>
    let flight := s.flights.length
    { s with slots := (key, flight) :: s.slots, flights := s.flights ++ [none] }.setPhase i
      (.checking flight)

/-- The step of a caller whose computation is done. -/
def compute (i flight : Nat) : Computed α → SharedStore α
  | .ok v => s.setPhase i (.keeping flight v)
  | .error e =>
    let failed : Computed α := .error (.underCache e)
    s.setPhase i (.closing flight (.done failed) (some failed))

/-- The step of a caller whose flight has landed. -/
def receive (i : Nat) : Landing α → SharedStore α
  | .done (.ok v) => { s with hits := s.hits + 1 }.setPhase i (.finished (.ok v))
  | .done (.error e) => s.setPhase i (.finished (.error e))
  | .abandoned => s.setPhase i .looking

/-- The next step of a caller, unless it has to wait or has come to its end. -/
def act (i : Nat) : Option (SharedStore α) :=
  s.callers[i]?.bind fun c =>
    match c.phase with
    | .arriving =>
      some (s.updateCaller i fun c =>
        { c with
          tier := Tier.ofRange c.range s.today
          phase := if s.settings.enabled then .looking else .alone })
    | .looking =>
      match s.lookup c.key with
      | (s, some v) => some (s.setPhase i (.finished (.ok v)))
      | (s, none) => some (s.setPhase i .claiming)
    | .claiming => some (s.claim i c.key)
    | .checking flight =>
      match s.lookup c.key with
      | (s, some v) => some (s.setPhase i (.closing flight (.done (.ok v)) (some (.ok v))))
      | (s, none) => some ({ s with misses := s.misses + 1 }.setPhase i (.computing flight))
    | .computing flight => c.supplied.map (s.compute i flight)
    | .alone => c.supplied.map fun r => s.setPhase i (.finished r)
    | .keeping flight v =>
      let store := s.store.put s.settings s.now c.key v c.tier
      some ({ s with store }.setPhase i (.closing flight (.done (.ok v)) (some (.ok v))))
    | .closing flight l r =>
      some ({ s with slots := s.slots.filter (·.1 ≠ c.key) }.setPhase i (.landing flight l r))
    | .landing flight l r =>
      some ({ s with flights := s.flights.set flight (some l) }.setPhase i (.ending r))
    | .waiting flight => (s.landing? flight).map (s.receive i)
    | .finished _ => none
    | .dropped => none

/-- What becomes of a caller that leaves while it computes or waits: `result` is what it is left
with. -/
def leave (i : Nat) (result : Option (Computed α)) : Phase α → Option (SharedStore α)
  | .computing flight => some (s.setPhase i (.closing flight .abandoned result))
  | .alone => some (s.setPhase i (.ending result))
  | .waiting _ => some (s.setPhase i (.ending result))
  | _ => none

/-- A cancelled caller leaves. -/
def quit (i : Nat) : Option (SharedStore α) :=
  s.callers[i]?.bind fun c =>
    if c.cancelled then s.leave i (some (.error .cancelled)) c.phase else none

/-- A caller is dropped: it leaves without a result, or forgets the one that it has. -/
def drop (i : Nat) : Option (SharedStore α) :=
  s.callers[i]?.bind fun c =>
    match c.phase with
    | .arriving => some (s.setPhase i .dropped)
    | .finished _ => some (s.setPhase i .dropped)
    | p => s.leave i none p

/-- What an event makes of the store. An event that cannot happen changes nothing. -/
def step : Event α → SharedStore α
  | .arrive key range supplied =>
    { s with callers := s.callers ++ [{ key, range, supplied }] }
  | .act i => (s.act i).getD s
  | .quit i => (s.quit i).getD s
  | .supply i r =>
    s.updateCaller i fun c => { c with supplied := c.supplied.or (some r) }
  | .cancel i => s.updateCaller i ({ · with cancelled := true })
  | .drop i => (s.drop i).getD s
  | .invalidate key => { s with store := s.store.erase key }
  | .clear => { s with store := {} }
  | .advance seconds => { s with now := s.now.advance seconds }
  | .setDate d => { s with now := .ofDate d }

/-- What a list of events makes of the store. -/
def run (s : SharedStore α) (events : List (Event α)) : SharedStore α := events.foldl step s

/-- The next event of a caller, if it has one. A caller that is cancelled leaves where it can. -/
def nextEvent? (i : Nat) : Option (Event α) :=
  if (s.quit i).isSome then some (.quit i)
  else if (s.act i).isSome then some (.act i)
  else none

/-- Lets the first caller that can go on do so, until all have to wait; `fuel` bounds the steps. -/
def settleWithin : Nat → SharedStore α → SharedStore α
  | 0, s => s
  | fuel + 1, s =>
    match (List.range s.callers.length).findSome? s.nextEvent? with
    | some e => settleWithin fuel (s.step e)
    | none => s

/-- Lets all callers go on until they have to wait. A caller comes to its end or to a wait within
ten steps, and starts again only when another one has left. -/
def settle : SharedStore α :=
  let n := s.callers.length + 1
  settleWithin (10 * n * n) s

/-- The result of a caller that has one. -/
def result? (i : Nat) : Option (Computed α) :=
  s.callers[i]?.bind fun c =>
    match c.phase with
    | .finished r => some r
    | _ => none

/-- The entries that can still be used. -/
def fresh : List (Entry α) := s.store.fresh s.now

end SharedStore

end MetricLayer
