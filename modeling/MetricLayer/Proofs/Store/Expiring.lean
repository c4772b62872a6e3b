import Mathlib.Data.List.Induction
import Mathlib.Data.Prod.Lex
import Mathlib.Data.String.Basic
import MetricLayer.Proofs.Store.Entries

/-!
# A bounded map that forgets

Seen from outside, a store is a map from keys to values with two limits: a value counts until it
expires, and there are never more entries than the capacity. An `Operation` is what can be done with
a store or happen to its clock, so that a list of operations is one way to use it.

How long a value stands is told in two ways that do not look at the answers of the store.
`StandsUntil` reads it off the list of operations: the value was stored last under its key, and no
later operation ends its time. `MakesRoom` reads off the entries which of them have to go for a new
key.

Results:
1. `goesBefore_iff` and `victim?_isLeast`: the entry that makes room is the least by tier, last
   access and key.
2. `mem_put` and `length_put`: what storing a value leaves, and how much.
3. `step_holds` and `run_holds`: an unexpired value is held exactly as long as it stands.
4. `run_told`: an entry says truly when its value was stored and its key used last.
5. `run_isExpiringMap`: the store is a bounded map whose values expire.
-/

namespace MetricLayer

/-! ## Who makes room -/

/-- The place of the tier where room is made: live values go first. -/
def Tier.rank : Tier → Nat
  | live => 0
  | historical => 1

theorem Instant.nanos_inj {a b : Instant} : a.nanos = b.nanos ↔ a = b := by
  cases a
  cases b
  exact ⟨congrArg _, congrArg _⟩

namespace Entry

variable {α : Type}

/-- What decides which entry makes room: its tier, then its last access, then its key. -/
def priority (e : Entry α) : ℕ ×ₗ ℤ ×ₗ String :=
  toLex (e.tier.rank, toLex (e.lastAccess.nanos, e.key))

theorem goesBefore_iff {a b : Entry α} : a.goesBefore b = true ↔ a.priority < b.priority := by
  have hsame : (a.lastAccess < b.lastAccess || (a.lastAccess == b.lastAccess && a.key < b.key)) =
      true ↔ toLex (a.lastAccess.nanos, a.key) < toLex (b.lastAccess.nanos, b.key) := by
    rw [Prod.Lex.toLex_lt_toLex]
    simp only [Bool.or_eq_true, Bool.and_eq_true, decide_eq_true_eq, beq_iff_eq]
    exact or_congr Iff.rfl (and_congr_left' Instant.nanos_inj.symm)
  unfold priority
  rw [Prod.Lex.toLex_lt_toLex]
  unfold goesBefore
  cases a.tier <;> cases b.tier
  case live.historical | historical.live => simp [Tier.rank]
  all_goals simpa only [lt_irrefl, true_and, false_or] using hsame

theorem key_of_priority {a b : Entry α} (h : a.priority = b.priority) : a.key = b.key := by
  have h := congrArg (fun p => (ofLex (ofLex p).2).2) h
  exact h

end Entry

namespace Store

variable {α : Type}

theorem foldl_isLeast (es : List (Entry α)) (best : Entry α) :
    es.foldl (fun best e => if e.goesBefore best then e else best) best ∈ best :: es ∧
      ∀ e ∈ best :: es,
        (es.foldl (fun best e => if e.goesBefore best then e else best) best).priority ≤
          e.priority := by
  induction es generalizing best with
  | nil => simp
  | cons x xs ih =>
    rw [List.foldl_cons]
    by_cases hx : x.goesBefore best = true
    · rw [if_pos hx]
      obtain ⟨hmem, hleast⟩ := ih x
      refine ⟨List.mem_cons_of_mem _ hmem, List.forall_mem_cons.mpr ⟨?_, hleast⟩⟩
      exact (hleast x List.mem_cons_self).trans (Entry.goesBefore_iff.mp hx).le
    · rw [if_neg hx]
      obtain ⟨hmem, hleast⟩ := ih best
      refine ⟨?_, ?_⟩
      · rcases List.mem_cons.mp hmem with h | h
        · exact List.mem_cons.mpr (.inl h)
        · exact List.mem_cons_of_mem _ (List.mem_cons_of_mem _ h)
      · intro e he
        rcases List.mem_cons.mp he with rfl | he
        · exact hleast e List.mem_cons_self
        rcases List.mem_cons.mp he with rfl | he
        · have hle := not_lt.mp fun h => hx (Entry.goesBefore_iff.mpr h)
          exact (hleast best List.mem_cons_self).trans hle
        · exact hleast e (List.mem_cons_of_mem _ he)

/-- The entry that makes room first is the least. -/
theorem victim?_isLeast {es : List (Entry α)} {v : Entry α} (h : victim? es = some v) :
    v ∈ es ∧ ∀ e ∈ es, v.priority ≤ e.priority := by
  cases es with
  | nil => cases h
  | cons e es =>
    cases h
    exact foldl_isLeast es e

/-- The entry goes where room is made among the entries: it has expired, or none has and it is the
least of all. -/
def MakesRoom (now : Instant) (es : List (Entry α)) (e : Entry α) : Prop :=
  e ∈ es ∧ (e.isFresh now = false ∨
    (∀ x ∈ es, x.isFresh now = true) ∧ ∀ x ∈ es, e.priority ≤ x.priority)

/-! ## Making room -/

theorem fresh_length_lt_iff {now : Instant} {es : List (Entry α)} :
    (es.filter (·.isFresh now)).length < es.length ↔ ∃ e ∈ es, e.isFresh now = false := by
  rw [← not_iff_not]
  simp only [not_lt, not_exists, not_and, Bool.not_eq_false]
  rw [← List.filter_eq_self]
  exact ⟨fun h => List.filter_sublist.eq_of_length_le h, fun h => h.symm ▸ Nat.le_refl _⟩

theorem evict_length_lt {now : Instant} {es : List (Entry α)} (h : es ≠ []) :
    (evict now es).length < es.length := by
  simp only [evict]
  split
  · next hlt => exact hlt
  · split
    · next v hv =>
      obtain ⟨hmem, -⟩ := victim?_isLeast hv
      refine (List.filter_sublist.length_le).lt_of_ne fun hlen => ?_
      have hall := List.filter_eq_self.mp (List.filter_sublist.eq_of_length hlen) v hmem
      simp at hall
    · next hnone =>
      cases es with
      | nil => exact absurd rfl h
      | cons e es => cases hnone

theorem mem_evict {s : Store α} (hs : s.KeysDiffer) {now : Instant} {e : Entry α} :
    e ∈ evict now s.entries ↔ e ∈ s.entries ∧ ¬ MakesRoom now s.entries e := by
  simp only [evict]
  split
  · next hlt =>
    obtain ⟨x, hx, hexpired⟩ := fresh_length_lt_iff.mp hlt
    rw [List.mem_filter]
    refine and_congr_right fun he => ?_
    constructor
    · rintro hfresh ⟨-, hgone | ⟨hall, -⟩⟩
      · rw [hfresh] at hgone
        cases hgone
      · rw [hall x hx] at hexpired
        cases hexpired
    · exact fun hstays => by_contra fun hf => hstays ⟨he, .inl (by simpa using hf)⟩
  · next hlt =>
    have hall : ∀ x ∈ s.entries, x.isFresh now = true := by
      intro x hx
      by_contra hf
      exact hlt (fresh_length_lt_iff.mpr ⟨x, hx, by simpa using hf⟩)
    split
    · next v hv =>
      obtain ⟨hmem, hleast⟩ := victim?_isLeast hv
      rw [List.mem_filter, decide_eq_true_eq]
      refine and_congr_right fun he => not_congr ?_
      constructor
      · intro hkey
        obtain rfl : e = v := by
          have hfind := hs.find?_of_mem he
          rw [hkey, hs.find?_of_mem hmem] at hfind
          exact (Option.some.inj hfind).symm
        exact ⟨he, .inr ⟨hall, hleast⟩⟩
      · rintro ⟨-, hgone | ⟨-, hfirst⟩⟩
        · rw [hall e he] at hgone
          cases hgone
        · exact Entry.key_of_priority ((hfirst v hmem).antisymm (hleast e he))
    · next hnone =>
      cases hentries : s.entries with
      | nil => simp
      | cons x xs =>
        rw [hentries] at hnone
        cases hnone

/-- A store that is no more than full makes room at one stroke. -/
theorem makeRoom_of_full {capacity : Nat} {now : Instant} {es : List (Entry α)}
    (hpos : 0 < capacity) (hfull : capacity ≤ es.length) (hbounded : es.length ≤ capacity) :
    makeRoom capacity now es.length es = evict now es := by
  have hne : es ≠ [] := by
    rintro rfl
    exact absurd hfull (Nat.not_le.mpr hpos)
  obtain ⟨n, hn⟩ := Nat.exists_eq_succ_of_ne_zero (mt List.length_eq_zero_iff.mp hne)
  have hroom : (evict now es).length < capacity := (evict_length_lt hne).trans_le hbounded
  rw [hn, makeRoom, if_neg (by omega)]
  cases n with
  | zero => rfl
  | succ n => rw [makeRoom, if_pos hroom]

/-! ## Storing -/

/-- The entry goes when a value is stored under the key: the key is new, the store is full and the
entry makes room. -/
def Evicts (settings : CacheSettings) (now : Instant) (s : Store α) (key : String) (e : Entry α) :
    Prop :=
  s.find? key = none ∧ settings.capacity ≤ s.entries.length ∧ MakesRoom now s.entries e

/-- The entry of a value that is stored. -/
def newEntry (settings : CacheSettings) (now : Instant) (key : String) (v : α) (tier : Tier) :
    Entry α :=
  { key, value := v, tier, created := now, expires := now.plus (tier.ttl settings)
    lastAccess := now }

/-- The store is no more than full, and each key is there once. -/
structure WithinBounds (settings : CacheSettings) (s : Store α) : Prop where
  keys_differ : s.KeysDiffer
  bounded : s.entries.length ≤ settings.capacity

variable {settings : CacheSettings} {s : Store α} {now : Instant} {key : String} {v : α}
  {tier : Tier}

theorem put_entries (hpos : 0 < settings.capacity) (hs : s.WithinBounds settings) :
    ∃ kept : List (Entry α),
      (s.put settings now key v tier).entries =
        kept.filter (·.key ≠ key) ++ [newEntry settings now key v tier] ∧
      (∀ e, e ∈ kept ↔ e ∈ s.entries ∧ ¬ s.Evicts settings now key e) ∧
      ((∃ e ∈ kept, e.key = key) ∧ kept.length ≤ settings.capacity ∨
        kept.length < settings.capacity) := by
  unfold put
  rw [if_neg (by omega)]
  cases hfind : s.find? key with
  | some x =>
    refine ⟨s.entries, rfl, fun e => ?_, .inl ⟨⟨x, find?_some hfind⟩, hs.bounded⟩⟩
    simp [Evicts, hfind]
  | none =>
    refine ⟨_, rfl, ?_⟩
    rw [if_neg (by simp)]
    by_cases hroom : s.entries.length < settings.capacity
    · have hsame : makeRoom settings.capacity now s.entries.length s.entries = s.entries := by
        cases s.entries.length with
        | zero => rfl
        | succ n => rw [makeRoom, if_pos hroom]
      rw [hsame]
      refine ⟨fun e => ?_, .inr hroom⟩
      simp [Evicts, Nat.not_le.mpr hroom]
    · have hfull : settings.capacity ≤ s.entries.length := Nat.not_lt.mp hroom
      rw [makeRoom_of_full hpos hfull hs.bounded]
      refine ⟨fun e => ?_, .inr ((evict_length_lt ?_).trans_le hs.bounded)⟩
      · rw [mem_evict hs.keys_differ]
        simp [Evicts, hfind, hfull]
      · rintro hnil
        rw [hnil] at hfull
        exact absurd hfull (Nat.not_le.mpr hpos)

/-- What is held after a value was stored: its entry, and of the others all that did not have to
go. -/
theorem mem_put (hpos : 0 < settings.capacity) (hs : s.WithinBounds settings) {e : Entry α} :
    e ∈ (s.put settings now key v tier).entries ↔
      e = newEntry settings now key v tier ∨
        e ∈ s.entries ∧ e.key ≠ key ∧ ¬ s.Evicts settings now key e := by
  obtain ⟨kept, hput, hkept, -⟩ :=
    @put_entries _ settings s now key v tier hpos hs
  rw [hput, List.mem_append, List.mem_filter, hkept, List.mem_singleton, decide_eq_true_eq]
  tauto

theorem WithinBounds.put (hpos : 0 < settings.capacity) (hs : s.WithinBounds settings) :
    (s.put settings now key v tier).WithinBounds settings := by
  refine ⟨hs.keys_differ.put .., ?_⟩
  obtain ⟨kept, hput, -, hlength⟩ :=
    @put_entries _ settings s now key v tier hpos hs
  rw [hput, List.length_append, List.length_singleton]
  rcases hlength with ⟨⟨e, he, hkey⟩, hlength⟩ | hlength
  · have hlt : (kept.filter (·.key ≠ key)).length < kept.length := by
      refine (List.filter_sublist.length_le).lt_of_ne fun hlen => ?_
      have hall := List.filter_eq_self.mp (List.filter_sublist.eq_of_length hlen) e he
      simp [hkey] at hall
    omega
  · have hle := (List.filter_sublist (l := kept) (p := (·.key ≠ key))).length_le
    omega

/-! ## Using a store -/

/-- What can be done with a store, and what can happen to its clock. -/
inductive Operation (α : Type) where
  | lookup (key : String)
  | put (key : String) (value : α) (tier : Tier)
  | invalidate (key : String)
  | clear
  /-- The clock moves on by so many nanoseconds. -/
  | wait (nanos : Nat)

/-- A store and its clock. -/
structure Clocked (α : Type) where
  store : Store α := {}
  now : Instant

/-- What an operation leaves. -/
def Clocked.step (settings : CacheSettings) (c : Clocked α) : Operation α → Clocked α
  | .lookup key => { c with store := (c.store.lookup c.now key).1 }
  | .put key v tier => { c with store := c.store.put settings c.now key v tier }
  | .invalidate key => { c with store := c.store.erase key }
  | .clear => { c with store := {} }
  | .wait nanos => { c with now := ⟨c.now.nanos + nanos⟩ }

/-- What is left of an empty store after the operations. -/
def run (settings : CacheSettings) (start : Instant) (ops : List (Operation α)) : Clocked α :=
  ops.foldl (Clocked.step settings) { now := start }

/-- The operation ends the time of the value that stands under the key. -/
inductive Ends (settings : CacheSettings) (c : Clocked α) (key : String) : Operation α → Prop
  | replaced {v : α} {tier : Tier} : Ends settings c key (.put key v tier)
  | invalidated : Ends settings c key (.invalidate key)
  | cleared : Ends settings c key .clear
  | evicted {other : String} {v : α} {tier : Tier} {e : Entry α} :
      c.store.Evicts settings c.now other e → e.key = key → Ends settings c key (.put other v tier)

/-- The value was stored under the key, to expire at the instant, and no operation has ended its
time since. -/
def StandsUntil (settings : CacheSettings) (start : Instant) (ops : List (Operation α))
    (key : String) (v : α) (expires : Instant) : Prop :=
  ∃ before tier after, ops = before ++ .put key v tier :: after ∧
    expires = (run settings start before).now.plus (tier.ttl settings) ∧
    ∀ early op late, after = early ++ op :: late →
      ¬ Ends settings (run settings start (before ++ .put key v tier :: early)) key op

/-- The operation stores a value under the key or looks the key up. -/
inductive Uses (key : String) : Operation α → Prop
  | lookup : Uses key (.lookup key)
  | put {v : α} {tier : Tier} : Uses key (.put key v tier)

/-- The entry is that of the value which was stored last under its key, accessed when an operation
used the key last. -/
structure Told (settings : CacheSettings) (start : Instant) (ops : List (Operation α))
    (e : Entry α) : Prop where
  stored : ∃ before after, ops = before ++ .put e.key e.value e.tier :: after ∧
    (∀ v tier, .put e.key v tier ∉ after) ∧
    e.created = (run settings start before).now ∧ e.expires = e.created.plus (e.tier.ttl settings)
  used : ∃ before op after, ops = before ++ op :: after ∧ Uses e.key op ∧
    (∀ x ∈ after, ¬ Uses e.key x) ∧ e.lastAccess = (run settings start before).now

/-- A bounded map whose values expire, after the operations. -/
structure IsExpiringMap (settings : CacheSettings) (start : Instant) (ops : List (Operation α)) :
    Prop where
  /-- There are never more entries than the capacity, and none twice. -/
  within_bounds : (run settings start ops).store.WithinBounds settings
  /-- An entry says truly when its value was stored and its key used last. -/
  told : ∀ e ∈ (run settings start ops).store.entries, Told settings start ops e
  /-- A value is found as long as it stands and has not expired. -/
  lookup_iff : ∀ key v,
    ((run settings start ops).store.lookup (run settings start ops).now key).2 = some v ↔
      ∃ expires, StandsUntil settings start ops key v expires ∧
        (run settings start ops).now < expires
  /-- A value that is stored is held, and of the others go the old one of the key and those that
  make room for a new key in a full store. -/
  mem_put : ∀ key v tier e,
    e ∈ ((run settings start ops).store.put settings (run settings start ops).now key v
      tier).entries ↔
        e = newEntry settings (run settings start ops).now key v tier ∨
          e ∈ (run settings start ops).store.entries ∧ e.key ≠ key ∧
            ¬ (run settings start ops).store.Evicts settings (run settings start ops).now key e
  /-- In a full store without expired entries exactly one makes room for a new key. -/
  one_goes : ∀ key, (run settings start ops).store.find? key = none →
    settings.capacity ≤ (run settings start ops).store.entries.length →
    (∀ x ∈ (run settings start ops).store.entries,
      x.isFresh (run settings start ops).now = true) →
    ∃! e, (run settings start ops).store.Evicts settings (run settings start ops).now key e
  /-- The entries that are listed are those that have not expired. -/
  mem_fresh : ∀ e, e ∈ (run settings start ops).store.fresh (run settings start ops).now ↔
    e ∈ (run settings start ops).store.entries ∧ (run settings start ops).now < e.expires
  /-- They are listed by their keys, each once. -/
  fresh_sorted : ((run settings start ops).store.fresh (run settings start ops).now).Pairwise
    fun a b => a.key < b.key

/-! ## Bounds -/

theorem WithinBounds.empty : ({} : Store α).WithinBounds settings :=
  ⟨List.nodup_nil, Nat.zero_le _⟩

theorem WithinBounds.erase (hs : s.WithinBounds settings) (key : String) :
    (s.erase key).WithinBounds settings :=
  ⟨hs.keys_differ.erase key, (List.length_filter_le _ _).trans hs.bounded⟩

theorem WithinBounds.lookup (hs : s.WithinBounds settings) (now : Instant) (key : String) :
    (s.lookup now key).1.WithinBounds settings := by
  refine ⟨hs.keys_differ.lookup now key, ?_⟩
  unfold Store.lookup
  split
  · exact hs.bounded
  · split
    · simpa [touch] using hs.bounded
    · exact (hs.erase key).bounded

theorem WithinBounds.step (hpos : 0 < settings.capacity) {c : Clocked α}
    (hc : c.store.WithinBounds settings) (op : Operation α) :
    (c.step settings op).store.WithinBounds settings := by
  cases op with
  | lookup key => exact hc.lookup c.now key
  | put key v tier => exact hc.put hpos
  | invalidate key => exact hc.erase key
  | clear => exact .empty
  | wait nanos => exact hc

variable {start : Instant} {ops : List (Operation α)}

theorem run_snoc (settings : CacheSettings) (start : Instant) (ops : List (Operation α))
    (op : Operation α) : run settings start (ops ++ [op]) = (run settings start ops).step settings op := by
  simp [run]

theorem run_withinBounds (hpos : 0 < settings.capacity) (start : Instant)
    (ops : List (Operation α)) : (run settings start ops).store.WithinBounds settings := by
  induction ops using List.reverseRecOn with
  | nil => exact .empty
  | append_singleton ops op ih =>
    rw [run_snoc]
    exact ih.step hpos op

/-! ## What is held -/

/-- The store has an entry with the value under the key, which expires at the instant. -/
def Holds (s : Store α) (key : String) (v : α) (expires : Instant) : Prop :=
  ∃ e ∈ s.entries, e.key = key ∧ e.value = v ∧ e.expires = expires

theorem holds_touch {other : String} {expires : Instant} :
    (s.touch other now).Holds key v expires ↔ s.Holds key v expires := by
  constructor
  · rintro ⟨e, he, hkey, hv, hexpires⟩
    obtain ⟨x, hx, rfl⟩ := List.mem_map.mp he
    refine ⟨x, hx, ?_⟩
    split at hkey <;> split at hv <;> split at hexpires <;> exact ⟨hkey, hv, hexpires⟩
  · rintro ⟨x, hx, hkey, hv, hexpires⟩
    refine ⟨_, List.mem_map_of_mem hx, ?_⟩
    split <;> exact ⟨hkey, hv, hexpires⟩

/-- Looking a key up keeps what has not expired. -/
theorem holds_lookup (hs : s.KeysDiffer) {other : String} {expires : Instant}
    (hfresh : now < expires) :
    (s.lookup now other).1.Holds key v expires ↔ s.Holds key v expires := by
  unfold lookup
  split
  · rfl
  · next x hx =>
    obtain ⟨hmem, rfl⟩ := find?_some hx
    split
    · exact holds_touch
    · next hgone =>
      refine exists_congr fun e => ?_
      rw [mem_erase, and_assoc]
      refine and_congr_right fun he => and_iff_right_of_imp ?_
      rintro ⟨-, -, rfl⟩ hkey
      -- the entry of the key is the one that has expired
      have hfind := hs.find?_of_mem he
      rw [hkey, hx] at hfind
      cases hfind
      exact hgone (decide_eq_true hfresh)

/-- What an operation does to values that have not expired when it is done: a stored one is held, and
any other is held as long as its time does not end. -/
theorem step_holds (hpos : 0 < settings.capacity) {c : Clocked α}
    (hc : c.store.WithinBounds settings) {op : Operation α} {expires : Instant}
    (hfresh : c.now < expires) :
    (c.step settings op).store.Holds key v expires ↔
      (∃ tier, op = .put key v tier ∧ expires = c.now.plus (tier.ttl settings)) ∨
        c.store.Holds key v expires ∧ ¬ Ends settings c key op := by
  cases op with
  | lookup other =>
    have hstays : ¬ Ends settings c key (.lookup other) := nofun
    simpa [hstays, Clocked.step] using holds_lookup hc.keys_differ hfresh
  | wait nanos =>
    have hstays : ¬ Ends settings c key (.wait nanos) := nofun
    simp [hstays, Clocked.step]
  | clear => simp [Clocked.step, Holds, Ends.cleared]
  | invalidate other =>
    simp only [Clocked.step, Holds, mem_erase, reduceCtorEq, false_and, exists_false, false_or]
    constructor
    · rintro ⟨e, ⟨he, hne⟩, rfl, hv, hexpires⟩
      exact ⟨⟨e, he, rfl, hv, hexpires⟩, fun | .invalidated => hne rfl⟩
    · rintro ⟨⟨e, he, rfl, hv, hexpires⟩, hstays⟩
      exact ⟨e, ⟨he, fun hkey => hstays (hkey ▸ .invalidated)⟩, rfl, hv, hexpires⟩
  | put other w tier =>
    simp only [Clocked.step, Holds, Store.mem_put hpos hc]
    constructor
    · rintro ⟨e, rfl | ⟨he, hne, hstays⟩, rfl, rfl, rfl⟩
      · exact .inl ⟨tier, rfl, rfl⟩
      · refine .inr ⟨⟨e, he, rfl, rfl, rfl⟩, ?_⟩
        rintro (_ | _ | _ | ⟨hgoes, hkey⟩)
        · exact hne rfl
        · have hsame := hc.keys_differ.find?_of_mem he
          rw [← hkey, hc.keys_differ.find?_of_mem hgoes.2.2.1] at hsame
          exact hstays (Option.some.inj hsame ▸ hgoes)
    · rintro (⟨tier', hput, rfl⟩ | ⟨⟨e, he, rfl, rfl, rfl⟩, hstays⟩)
      · cases hput
        exact ⟨_, .inl rfl, rfl, rfl, rfl⟩
      · refine ⟨e, .inr ⟨he, ?_, fun hgoes => hstays (.evicted hgoes rfl)⟩, rfl, rfl, rfl⟩
        rintro rfl
        exact hstays .replaced

theorem standsUntil_snoc {op : Operation α} {expires : Instant} :
    StandsUntil settings start (ops ++ [op]) key v expires ↔
      (∃ tier, op = .put key v tier ∧
        expires = (run settings start ops).now.plus (tier.ttl settings)) ∨
      StandsUntil settings start ops key v expires ∧ ¬ Ends settings (run settings start ops) key op := by
  constructor
  · rintro ⟨before, tier, after, hops, hexpires, hstays⟩
    rcases List.eq_nil_or_concat' after with rfl | ⟨after, last, rfl⟩
    · obtain ⟨rfl, hop⟩ := List.append_inj' hops rfl
      exact .inl ⟨tier, List.singleton_inj.mp hop, hexpires⟩
    · rw [← List.cons_append, ← List.append_assoc] at hops
      obtain ⟨rfl, hop⟩ := List.append_inj' hops rfl
      obtain rfl := List.singleton_inj.mp hop
      refine .inr ⟨⟨before, tier, after, rfl, hexpires, ?_⟩, hstays after op [] rfl⟩
      rintro early op' late rfl
      exact hstays early op' (late ++ [op]) (by simp)
  · rintro (⟨tier, rfl, hexpires⟩ | ⟨⟨before, tier, after, rfl, hexpires, hstays⟩, hlast⟩)
    · exact ⟨ops, tier, [], rfl, hexpires, fun early op late h => by simp at h⟩
    · refine ⟨before, tier, after ++ [op], by simp, hexpires, fun early op' late h => ?_⟩
      rcases List.eq_nil_or_concat' late with rfl | ⟨late, last, rfl⟩
      · obtain ⟨rfl, hop⟩ := List.append_inj' h rfl
        obtain rfl := List.singleton_inj.mp hop
        exact hlast
      · rw [← List.cons_append, ← List.append_assoc] at h
        exact hstays early op' late (List.append_inj' h rfl).1

theorem now_le_step (c : Clocked α) (op : Operation α) : c.now ≤ (c.step settings op).now := by
  cases op with
  | wait nanos => exact Int.le_add_of_nonneg_right (Int.natCast_nonneg nanos)
  | _ => exact Int.le_refl _

/-- An unexpired value is held as long as it stands. -/
theorem run_holds (hpos : 0 < settings.capacity) (start : Instant) (ops : List (Operation α))
    {expires : Instant} (hfresh : (run settings start ops).now < expires) :
    (run settings start ops).store.Holds key v expires ↔
      StandsUntil settings start ops key v expires := by
  induction ops using List.reverseRecOn with
  | nil => simp [run, Holds, StandsUntil]
  | append_singleton ops op ih =>
    rw [run_snoc] at hfresh ⊢
    have hbefore := Int.lt_of_le_of_lt (now_le_step _ op) hfresh
    rw [step_holds hpos (run_withinBounds hpos start ops) hbefore, standsUntil_snoc, ih hbefore]

/-! ## What entries tell -/

/-- Where an entry comes from: it is that of a value just stored, or it was there and its key was
looked up or not used at all. -/
theorem step_entry (hpos : 0 < settings.capacity) {c : Clocked α}
    (hc : c.store.WithinBounds settings) {op : Operation α} {e : Entry α}
    (h : e ∈ (c.step settings op).store.entries) :
    (∃ v tier, op = .put e.key v tier ∧ e = newEntry settings c.now e.key v tier) ∨
      (∃ x ∈ c.store.entries, op = .lookup e.key ∧ e = { x with lastAccess := c.now }) ∨
        (e ∈ c.store.entries ∧ ¬ Uses e.key op) := by
  cases op with
  | wait nanos => exact .inr (.inr ⟨h, by rintro ⟨⟩⟩)
  | clear => cases h
  | invalidate key => exact .inr (.inr ⟨(mem_erase.mp h).1, by rintro ⟨⟩⟩)
  | put key v tier =>
    rcases (Store.mem_put hpos hc).mp h with rfl | ⟨he, hne, -⟩
    · exact .inl ⟨v, tier, rfl, rfl⟩
    · refine .inr (.inr ⟨he, ?_⟩)
      rintro ⟨⟩
      exact hne rfl
  | lookup key =>
    simp only [Clocked.step, lookup] at h
    cases hfind : c.store.find? key with
    | none =>
      rw [hfind] at h
      refine .inr (.inr ⟨h, ?_⟩)
      rintro ⟨⟩
      rw [hc.keys_differ.find?_of_mem h] at hfind
      cases hfind
    | some x =>
      simp only [hfind] at h
      split at h
      · obtain ⟨y, hy, rfl⟩ := List.mem_map.mp h
        by_cases hkey : y.key = key
        · rw [if_pos hkey]
          exact .inr (.inl ⟨y, hy, by rw [← hkey], rfl⟩)
        · rw [if_neg hkey]
          refine .inr (.inr ⟨hy, ?_⟩)
          rintro ⟨⟩
          exact hkey rfl
      · obtain ⟨he, hne⟩ := mem_erase.mp h
        refine .inr (.inr ⟨he, ?_⟩)
        rintro ⟨⟩
        exact hne rfl

theorem run_told (hpos : 0 < settings.capacity) (start : Instant) (ops : List (Operation α)) :
    ∀ e ∈ (run settings start ops).store.entries, Told settings start ops e := by
  induction ops using List.reverseRecOn with
  | nil => exact nofun
  | append_singleton ops op ih =>
    intro e he
    rw [run_snoc] at he
    rcases step_entry hpos (run_withinBounds hpos start ops) he with
      ⟨v, tier, rfl, hnew⟩ | ⟨x, hx, rfl, hsame⟩ | ⟨he, hunused⟩
    · rw [hnew]
      exact ⟨⟨ops, [], rfl, by simp, rfl, rfl⟩, ⟨ops, _, [], rfl, .put, by simp, rfl⟩⟩
    · obtain ⟨⟨before, after, hops, hlast, hcreated, hexpires⟩, -⟩ := ih x hx
      rw [hsame]
      refine ⟨⟨before, after ++ [.lookup x.key], by simp [hops], ?_, hcreated, hexpires⟩,
        ⟨ops, _, [], rfl, .lookup, by simp, rfl⟩⟩
      simpa using hlast
    · obtain ⟨⟨before, after, hops, hlast, htimes⟩, before', op', after', hops', huse, hrest, hused⟩ :=
        ih e he
      constructor
      · refine ⟨before, after ++ [op], by simp [hops], fun v tier hmem => ?_, htimes⟩
        rcases List.mem_append.mp hmem with hmem | hmem
        · exact hlast v tier hmem
        · exact hunused (List.mem_singleton.mp hmem ▸ .put)
      · refine ⟨before', op', after' ++ [op], by simp [hops'], huse, fun y hy => ?_, hused⟩
        rcases List.mem_append.mp hy with hy | hy
        · exact hrest y hy
        · exact List.mem_singleton.mp hy ▸ hunused

/-! ## The whole store -/

theorem KeysDiffer.lookup_iff (hs : s.KeysDiffer) :
    (s.lookup now key).2 = some v ↔ ∃ expires, s.Holds key v expires ∧ now < expires := by
  constructor
  · intro h
    obtain ⟨e, he, hkey, hv, hfresh⟩ := lookup_some h
    exact ⟨e.expires, ⟨e, he, hkey, hv, rfl⟩, of_decide_eq_true hfresh⟩
  · rintro ⟨_, ⟨e, he, rfl, rfl, rfl⟩, hfresh⟩
    have hfresh : e.isFresh now = true := decide_eq_true hfresh
    simp only [Store.lookup, hs.find?_of_mem he]
    rw [if_pos hfresh]

/-- In a full store without expired entries one entry makes room, the least. -/
theorem KeysDiffer.existsUnique_makesRoom (hs : s.KeysDiffer) (hne : s.entries ≠ [])
    (hall : ∀ x ∈ s.entries, x.isFresh now = true) : ∃! e, MakesRoom now s.entries e := by
  obtain ⟨x, xs, hentries⟩ := List.exists_cons_of_ne_nil hne
  obtain ⟨v, hv⟩ : ∃ v, victim? s.entries = some v := by
    rw [hentries]
    exact ⟨_, rfl⟩
  obtain ⟨hmem, hleast⟩ := victim?_isLeast hv
  refine ⟨v, ⟨hmem, .inr ⟨hall, hleast⟩⟩, ?_⟩
  rintro e ⟨he, hgone | ⟨-, hfirst⟩⟩
  · rw [hall e he] at hgone
    cases hgone
  · have hkey := Entry.key_of_priority ((hfirst v hmem).antisymm (hleast e he))
    have hfind := hs.find?_of_mem he
    rw [hkey, hs.find?_of_mem hmem] at hfind
    exact (Option.some.inj hfind).symm

theorem mem_fresh {e : Entry α} : e ∈ s.fresh now ↔ e ∈ s.entries ∧ now < e.expires := by
  simp [fresh, Entry.isFresh]

theorem KeysDiffer.fresh_sorted (hs : s.KeysDiffer) (now : Instant) :
    (s.fresh now).Pairwise fun a b => a.key < b.key := by
  have hsorted : (s.fresh now).Pairwise fun a b => decide (a.key ≤ b.key) = true :=
    List.pairwise_mergeSort (fun a b c hab hbc => by simp at *; exact hab.trans hbc)
      (fun a b => by simpa using le_total a.key b.key) _
  have hdiffer : (s.fresh now).Pairwise fun a b => a.key ≠ b.key := by
    refine List.pairwise_map.mp ((List.mergeSort_perm ..).map _ |>.nodup_iff.mpr ?_)
    exact List.Nodup.sublist (List.filter_sublist.map _) hs
  exact (hsorted.and hdiffer).imp fun h => lt_of_le_of_ne (of_decide_eq_true h.1) h.2

/-- A store of at least one place is a bounded map whose values expire, however it is used. -/
theorem run_isExpiringMap (settings : CacheSettings) (start : Instant) (ops : List (Operation α))
    (hpos : 1 ≤ settings.capacity) : IsExpiringMap settings start ops := by
  have hbounds := run_withinBounds hpos start ops
  constructor
  case within_bounds => exact hbounds
  case told => exact run_told hpos start ops
  case lookup_iff =>
    intro key v
    rw [hbounds.keys_differ.lookup_iff]
    exact exists_congr fun expires => and_congr_left fun h => run_holds hpos start ops h
  case mem_put => exact fun key v tier e => Store.mem_put hpos hbounds
  case one_goes =>
    intro key hnew hfull hall
    have hne : (run settings start ops).store.entries ≠ [] := by
      intro hnil
      rw [hnil] at hfull
      exact absurd hfull (Nat.not_le.mpr hpos)
    obtain ⟨e, he, hunique⟩ := hbounds.keys_differ.existsUnique_makesRoom hne hall
    exact ⟨e, ⟨hnew, hfull, he⟩, fun x hx => hunique x hx.2.2⟩
  case mem_fresh => exact fun e => Store.mem_fresh
  case fresh_sorted => exact hbounds.keys_differ.fresh_sorted _

/-- Two places, and a value that has to go for a third one although it came later, since the other
two are historical or newer. -/
theorem run_isExpiringMap_third :
    1 ≤ ({ capacity := 2 } : CacheSettings).capacity ∧
      IsExpiringMap { capacity := 2 } ⟨0⟩ [.put "past" 1 .historical, .wait 5, .put "today" 2 .live,
        .wait 5, .put "now" 3 .live, .lookup "past", .lookup "today", .wait Instant.dayNanos,
        .put "later" 4 .live, .invalidate "later", .clear] :=
  ⟨by decide, run_isExpiringMap _ _ _ (by decide)⟩

end Store

end MetricLayer
