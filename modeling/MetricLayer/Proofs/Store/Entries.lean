import MetricLayer.Proofs.Basic
import MetricLayer.Store.Basic

/-!
# The entries of a store

What an operation does to the entries, told by membership: no operation makes up an entry. Looking a
key up and making room keep entries or drop them, apart from the time of the last access, and storing
a value adds the one entry of that value.

Results:
1. `lookup_entry` and `put_entry`: where an entry comes from.
2. `lookup_some` and `KeysDiffer.lookup_none`: what the answer of a look-up says about the entries.
3. `KeysDiffer` is kept by every operation.
-/

namespace MetricLayer

namespace Store

variable {α : Type}

/-! ## Finding and dropping -/

theorem find?_some {s : Store α} {key : String} {e : Entry α} (h : s.find? key = some e) :
    e ∈ s.entries ∧ e.key = key := by
  refine ⟨List.mem_of_find?_eq_some h, ?_⟩
  simpa using List.find?_some h

theorem mem_erase {s : Store α} {key : String} {e : Entry α} :
    e ∈ (s.erase key).entries ↔ e ∈ s.entries ∧ e.key ≠ key := by
  simp [erase]

/-- An entry after an access is an entry from before it. -/
theorem mem_touch {s : Store α} {key : String} {now : Instant} {e : Entry α}
    (h : e ∈ (s.touch key now).entries) :
    ∃ e' ∈ s.entries, e'.key = e.key ∧ e'.value = e.value := by
  simp only [touch, List.mem_map] at h
  obtain ⟨e', he', rfl⟩ := h
  refine ⟨e', he', ?_⟩
  split <;> exact ⟨rfl, rfl⟩

/-! ## Looking up -/

/-- A look-up leaves entries that were there. -/
theorem lookup_entry {s : Store α} {now : Instant} {key : String} {e : Entry α}
    (h : e ∈ (s.lookup now key).1.entries) :
    ∃ e' ∈ s.entries, e'.key = e.key ∧ e'.value = e.value := by
  unfold lookup at h
  split at h
  · exact ⟨e, h, rfl, rfl⟩
  · split at h
    · exact mem_touch h
    · exact ⟨e, (mem_erase.mp h).1, rfl, rfl⟩

/-- A value that is found is that of a fresh entry of the key. -/
theorem lookup_some {s : Store α} {now : Instant} {key : String} {v : α}
    (h : (s.lookup now key).2 = some v) :
    ∃ e ∈ s.entries, e.key = key ∧ e.value = v ∧ e.isFresh now = true := by
  unfold lookup at h
  split at h
  · cases h
  · next e he =>
    split at h
    · next hf =>
      cases h
      exact ⟨e, (find?_some he).1, (find?_some he).2, rfl, hf⟩
    · cases h

/-! ## Making room and storing -/

theorem evict_sublist (now : Instant) (es : List (Entry α)) : (evict now es).Sublist es := by
  simp only [evict]
  split
  · exact List.filter_sublist
  · split
    · exact List.filter_sublist
    · exact List.Sublist.refl es

theorem makeRoom_sublist (capacity : Nat) (now : Instant) (fuel : Nat) (es : List (Entry α)) :
    (makeRoom capacity now fuel es).Sublist es := by
  induction fuel generalizing es with
  | zero => exact List.Sublist.refl es
  | succ fuel ih =>
    unfold makeRoom
    split
    · exact List.Sublist.refl es
    · exact (ih _).trans (evict_sublist now es)

/-- A stored entry was there before or is that of the new value. -/
theorem put_entry {s : Store α} {settings : CacheSettings} {now : Instant} {key : String} {v : α}
    {tier : Tier} {e : Entry α} (h : e ∈ (s.put settings now key v tier).entries) :
    e ∈ s.entries ∨ (e.key = key ∧ e.value = v) := by
  unfold put at h
  split at h
  · exact .inl h
  · simp only [List.mem_append, List.mem_filter, List.mem_singleton] at h
    rcases h with ⟨hkept, -⟩ | rfl
    · left
      split at hkept
      · exact hkept
      · exact (makeRoom_sublist ..).subset hkept
    · exact .inr ⟨rfl, rfl⟩

/-! ## Each key once -/

/-- No two entries have the same key. -/
def KeysDiffer (s : Store α) : Prop := (s.entries.map (·.key)).Nodup

theorem KeysDiffer.erase {s : Store α} (h : s.KeysDiffer) (key : String) :
    (s.erase key).KeysDiffer :=
  List.Nodup.sublist (List.filter_sublist.map _) h

theorem KeysDiffer.touch {s : Store α} (h : s.KeysDiffer) (key : String) (now : Instant) :
    (s.touch key now).KeysDiffer := by
  have hkeys : (s.touch key now).entries.map (·.key) = s.entries.map (·.key) := by
    simp only [Store.touch, List.map_map]
    refine List.map_congr_left fun e _ => ?_
    simp only [Function.comp]
    split <;> rfl
  simpa [KeysDiffer, hkeys] using h

theorem KeysDiffer.lookup {s : Store α} (h : s.KeysDiffer) (now : Instant) (key : String) :
    (s.lookup now key).1.KeysDiffer := by
  unfold Store.lookup
  split
  · exact h
  · split
    · exact h.touch key now
    · exact h.erase key

theorem KeysDiffer.put {s : Store α} (h : s.KeysDiffer) (settings : CacheSettings) (now : Instant)
    (key : String) (v : α) (tier : Tier) : (s.put settings now key v tier).KeysDiffer := by
  unfold Store.put
  split
  · exact h
  · have hkept : ∀ es : List (Entry α), es.Sublist s.entries →
        ((es.filter (·.key ≠ key)).map (·.key) ++ [key]).Nodup := by
      intro es hes
      refine List.nodup_append.mpr
        ⟨List.Nodup.sublist ((List.filter_sublist.trans hes).map _) h, by simp, ?_⟩
      intro a ha b hb
      obtain ⟨e, he, rfl⟩ := List.mem_map.mp ha
      rw [List.mem_singleton.mp hb]
      simpa using (List.mem_filter.mp he).2
    simp only [KeysDiffer, List.map_append, List.map_cons, List.map_nil]
    apply hkept
    split
    · exact List.Sublist.refl _
    · exact makeRoom_sublist ..

/-- The entry that is found for a key is the only one. -/
theorem KeysDiffer.find?_of_mem {s : Store α} (h : s.KeysDiffer) {e : Entry α}
    (he : e ∈ s.entries) : s.find? e.key = some e :=
  find?_key h he

/-- Where a look-up finds nothing, no entry of the key is fresh. -/
theorem KeysDiffer.lookup_none {s : Store α} (h : s.KeysDiffer) {now : Instant} {key : String}
    (hnone : (s.lookup now key).2 = none) :
    ∀ e ∈ s.entries, e.key = key → e.isFresh now = false := by
  rintro e he rfl
  simp only [Store.lookup, h.find?_of_mem he] at hnone
  split at hnone
  · cases hnone
  · next hf => simpa using hf

end Store

end MetricLayer
