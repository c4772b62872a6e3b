import MetricLayer.Calendar.Instant
import MetricLayer.Report.Basic
import MetricLayer.Settings.Basic

/-!
# The store of translations

A bounded map from keys to values that expire. A value is live if it may change today, and
historical otherwise; live values expire sooner and make room first. When there is no room for a new
key, all expired entries go; if there are none, the entry goes that is least by tier, last access
and key.
-/

namespace MetricLayer

/-- How soon a value expires. -/
inductive Tier where
  | live
  | historical
  deriving DecidableEq, Repr

namespace Tier

/-- The word for the tier. -/
def name : Tier → String
  | live => "live"
  | historical => "historical"

/-- The tier of a report over the days: historical if they are all past. -/
def ofRange (range : Option DayRange) (today : Date) : Tier :=
  match range with
  | some r => if r.touches today then live else historical
  | none => live

/-- How many seconds a value of the tier lives. -/
def ttl (s : CacheSettings) : Tier → Nat
  | live => s.liveTtlSeconds
  | historical => s.historicalTtlSeconds

end Tier

/-- A stored value. -/
structure Entry (α : Type) where
  key : String
  value : α
  tier : Tier
  created : Instant
  expires : Instant
  lastAccess : Instant
  deriving Repr

namespace Entry

variable {α : Type}

/-- The entry can still be used. -/
def isFresh (e : Entry α) (now : Instant) : Bool := now < e.expires

/-- The one entry makes room before the other: by tier, live first, then by last access, then by
key. -/
def goesBefore (a b : Entry α) : Bool :=
  match a.tier, b.tier with
  | .live, .historical => true
  | .historical, .live => false
  | _, _ => a.lastAccess < b.lastAccess || (a.lastAccess == b.lastAccess && a.key < b.key)

end Entry

/-- The stored values, each key once. -/
structure Store (α : Type) where
  entries : List (Entry α) := []
  deriving Repr

namespace Store

variable {α : Type}

/-- The entry of the key. -/
def find? (s : Store α) (key : String) : Option (Entry α) := s.entries.find? (·.key = key)

/-- The store without the key. -/
def erase (s : Store α) (key : String) : Store α := ⟨s.entries.filter (·.key ≠ key)⟩

/-- The store with the last access of the key set. -/
def touch (s : Store α) (key : String) (now : Instant) : Store α :=
  ⟨s.entries.map fun e => if e.key = key then { e with lastAccess := now } else e⟩

/-- Looks a key up. An expired entry is removed, and any other one is accessed now. -/
def lookup (s : Store α) (now : Instant) (key : String) : Store α × Option α :=
  match s.find? key with
  | none => (s, none)
  | some e => if e.isFresh now then (s.touch key now, some e.value) else (s.erase key, none)

/-- The entry that makes room first. -/
def victim? : List (Entry α) → Option (Entry α)
  | [] => none
  | e :: es => some (es.foldl (fun best e => if e.goesBefore best then e else best) e)

/-- Makes room once: all expired entries go, or else the one that makes room first. -/
def evict (now : Instant) (es : List (Entry α)) : List (Entry α) :=
  let fresh := es.filter (·.isFresh now)
  if fresh.length < es.length then fresh
  else match victim? es with
    | some v => es.filter (·.key ≠ v.key)
    | none => es

/-- Makes room until fewer entries than the capacity are left; `fuel` bounds the number of times. -/
def makeRoom (capacity : Nat) (now : Instant) : Nat → List (Entry α) → List (Entry α)
  | 0, es => es
  | fuel + 1, es =>
    if es.length < capacity then es else makeRoom capacity now fuel (evict now es)

/-- Stores a value under a key. A store without capacity keeps nothing. -/
def put (s : Store α) (settings : CacheSettings) (now : Instant) (key : String) (value : α)
    (tier : Tier) : Store α :=
  if settings.capacity = 0 then s
  else
    let kept :=
      if (s.find? key).isSome then s.entries
      else makeRoom settings.capacity now s.entries.length s.entries
    let entry : Entry α :=
      { key, value, tier, created := now, lastAccess := now
        expires := now.plus (tier.ttl settings) }
    ⟨kept.filter (·.key ≠ key) ++ [entry]⟩

/-- The entries that can still be used, in the order of their keys. -/
def fresh (s : Store α) (now : Instant) : List (Entry α) :=
  (s.entries.filter (·.isFresh now)).mergeSort fun a b => decide (a.key ≤ b.key)

end Store

end MetricLayer
