import MetricLayer.Json.Basic
import MetricLayer.Store.Shared

/-!
# The state of a store as a data tree

How often the store could answer, and what it holds.
-/

namespace MetricLayer

open Json (ofList)

/-- An entry without its value. -/
def Entry.toJson {α : Type} (e : Entry α) : Json :=
  .obj [("key", .str e.key), ("tier", .str e.tier.name), ("created_at", .str e.created.wire),
    ("expires_at", .str e.expires.wire), ("last_access", .str e.lastAccess.wire)]

/-- The counts of a store and the entries that can still be used. -/
def SharedStore.toJson {α : Type} (s : SharedStore α) : Json :=
  .obj [("hits", .ofNat s.hits), ("misses", .ofNat s.misses), ("entries", .ofNat s.fresh.length),
    ("capacity", .ofNat s.settings.capacity), ("keys", ofList Entry.toJson s.fresh)]

end MetricLayer
