import MetricLayer.Pattern.Basic
import Mathlib.Data.List.Basic

/-!
# What patterns take

Whatever a match goes on to do, the text that it goes past is a piece that the pattern takes:
`Pattern.Takes` says which pieces these are, wherever they stand. Whether a pattern matches depends
on what stands around, and which piece counts depends on the order of the ways to match; neither is
needed to know what a match takes out of a text.

Results:
1. `Pattern.run_takes`: a match moves on by a piece that the pattern takes.
2. `Pattern.find_spec`: so does the first match of a text, and it is a match at the place where its
   span begins.
3. `Pattern.exists_notMem_of_needsOther`: a pattern that needs a character outside a list takes one.
4. `Pattern.count_le_of_most`: how often a character is taken at most.
-/

namespace MetricLayer

namespace Cursor

@[simp] theorem skip_zero (c : Cursor) : c.skip 0 = c := rfl

theorem skip_succ {c : Cursor} {x : Char} {xs : List Char} (h : c.rest = x :: xs) (n : Nat) :
    c.skip (n + 1) = skip ⟨c.offset + 1, some x, xs⟩ n := by
  rw [skip, h]

theorem rest_skip (c : Cursor) (n : Nat) : (c.skip n).rest = c.rest.drop n := by
  induction n generalizing c with
  | zero => rfl
  | succ n ih =>
    cases h : c.rest with
    | nil => rw [skip, h, h, List.drop_nil]
    | cons x xs => rw [skip_succ h, ih, List.drop_succ_cons]

theorem offset_skip {c : Cursor} {n : Nat} (h : n ≤ c.rest.length) :
    (c.skip n).offset = c.offset + n := by
  induction n generalizing c with
  | zero => rfl
  | succ n ih =>
    cases hrest : c.rest with
    | nil => simp [hrest] at h
    | cons x xs =>
      rw [hrest, List.length_cons] at h
      rw [skip_succ hrest, ih (by simpa using h)]
      simp only
      omega

theorem skip_skip (c : Cursor) (m n : Nat) : (c.skip m).skip n = c.skip (m + n) := by
  induction m generalizing c with
  | zero => rw [skip_zero, Nat.zero_add]
  | succ m ih =>
    cases h : c.rest with
    | nil =>
      have hstay (k : Nat) : c.skip k = c := by
        cases k with
        | zero => rfl
        | succ k => rw [skip, h]
      rw [hstay, hstay, hstay]
    | cons x xs => rw [skip_succ h, ih, Nat.succ_add, skip_succ h]

/-- What stands in front of a place further on is the last character that was skipped. -/
theorem before_skip {c : Cursor} {n : Nat} (h : n < c.rest.length) :
    (c.skip (n + 1)).before = c.rest[n]? := by
  induction n generalizing c with
  | zero =>
    cases hrest : c.rest with
    | nil => simp [hrest] at h
    | cons x xs => rw [skip_succ hrest, skip_zero, List.getElem?_cons_zero]
  | succ n ih =>
    cases hrest : c.rest with
    | nil => simp [hrest] at h
    | cons x xs =>
      rw [hrest, List.length_cons] at h
      rw [skip_succ hrest, ih (by simpa using h), List.getElem?_cons_succ]

/-- The second place is the one behind the text, which stands at the first place. -/
structure Passes (c : Cursor) (u : List Char) (c' : Cursor) : Prop where
  rest : c.rest = u ++ c'.rest
  skip : c' = c.skip u.length

namespace Passes

variable {c c' c'' : Cursor} {u v : List Char}

theorem refl (c : Cursor) : c.Passes [] c := ⟨rfl, rfl⟩

theorem cons {x : Char} {xs : List Char} (h : c.rest = x :: xs) :
    c.Passes [x] ⟨c.offset + 1, some x, xs⟩ :=
  ⟨h, (skip_succ h 0).symm⟩

theorem of_rest (h : c.rest = u ++ v) :
    c.Passes u (c.skip u.length) ∧ (c.skip u.length).rest = v := by
  have hbehind : (c.skip u.length).rest = v := by rw [rest_skip, h, List.drop_left]
  exact ⟨⟨h.trans (hbehind ▸ rfl), rfl⟩, hbehind⟩

theorem trans (h : c.Passes u c') (h' : c'.Passes v c'') : c.Passes (u ++ v) c'' where
  rest := by rw [h.rest, h'.rest, List.append_assoc]
  skip := by rw [h'.skip, h.skip, skip_skip, List.length_append]

theorem offset (h : c.Passes u c') : c'.offset = c.offset + u.length := by
  rw [h.skip, offset_skip]
  rw [h.rest, List.length_append]
  exact Nat.le_add_right _ _

end Passes

end Cursor

namespace Pattern

/-! ## Pieces -/

/-- The pattern takes the piece of text where it matches. -/
def Takes : Pattern → List Char → Prop
  | empty, u => u = []
  | char p, u => ∃ x, u = [x] ∧ p x = true
  | seq a b, u => ∃ v w, u = v ++ w ∧ a.Takes v ∧ b.Takes w
  | alt a b, u => a.Takes u ∨ b.Takes u
  | many _ a, u => ∃ vs : List (List Char), u = vs.flatten ∧ ∀ v ∈ vs, a.Takes v
  | group _ a, u => a.Takes u
  | start, u => u = []
  | stop, u => u = []
  | edge, u => u = []

variable {α : Type}

/-- The continuation succeeds behind a piece that the pattern takes. -/
def MovesOn (p : Pattern) (c : Cursor) (k : Cursor → Groups → Option α) (r : α) : Prop :=
  ∃ n g, n ≤ c.rest.length ∧ p.Takes (c.rest.take n) ∧ k (c.skip n) g = some r

theorem movesOn_here {p : Pattern} (hp : p.Takes []) {c : Cursor} {g : Groups}
    {k : Cursor → Groups → Option α} {r : α} (h : k c g = some r) : p.MovesOn c k r :=
  ⟨0, g, Nat.zero_le _, hp, h⟩

/-- Behind one piece, another one. -/
theorem MovesOn.seq {a b : Pattern} {c : Cursor} {k k' : Cursor → Groups → Option α} {r : α}
    (ha : a.MovesOn c k' r) (hb : ∀ c' g, k' c' g = some r → b.MovesOn c' k r) :
    (a.seq b).MovesOn c k r := by
  obtain ⟨m, g, hm, htake, hk⟩ := ha
  obtain ⟨n, g', hn, htake', hk⟩ := hb _ g hk
  rw [Cursor.rest_skip] at hn htake'
  rw [Cursor.skip_skip] at hk
  rw [List.length_drop] at hn
  exact ⟨m + n, g', by omega, ⟨_, _, List.take_add, htake, htake'⟩, hk⟩

theorem turns_takes {greedy : Bool} {a : Pattern}
    (ha : ∀ (c : Cursor) (g : Groups) (k : Cursor → Groups → Option α) (r : α),
      a.run c g k = some r → a.MovesOn c k r)
    {fuel : Nat} {c : Cursor} {g : Groups} {k : Cursor → Groups → Option α} {r : α}
    (h : turns greedy a.run fuel c g k = some r) : (many greedy a).MovesOn c k r := by
  have hnone : (many greedy a).Takes [] := ⟨[], rfl, by simp⟩
  induction fuel generalizing c g with
  | zero => exact movesOn_here hnone h
  | succ fuel ih =>
    have hmore : a.run c g (fun c' g' =>
        if c.offset < c'.offset then turns greedy a.run fuel c' g' k else none) = some r →
        (many greedy a).MovesOn c k r := fun h => by
      obtain ⟨n, g', hn, ⟨v, w, hsplit, hv, ws, rfl, hws⟩, hk⟩ :=
        MovesOn.seq (a := a) (b := many greedy a) (k := k) (ha _ _ _ _ h) fun c' g' hk => by
          split at hk
          · exact ih hk
          · cases hk
      exact ⟨n, g', hn, ⟨v :: ws, hsplit, List.forall_mem_cons.mpr ⟨hv, hws⟩⟩, hk⟩
    simp only [turns] at h
    split at h
    · rcases Option.or_eq_some_iff.mp h with h | ⟨-, h⟩
      · exact hmore h
      · exact movesOn_here hnone h
    · rcases Option.or_eq_some_iff.mp h with h | ⟨-, h⟩
      · exact movesOn_here hnone h
      · exact hmore h

/-- A match moves on by a piece that the pattern takes. -/
theorem run_takes {p : Pattern} {c : Cursor} {g : Groups} {k : Cursor → Groups → Option α} {r : α}
    (h : p.run c g k = some r) : p.MovesOn c k r := by
  induction p generalizing c g k r with
  | empty => exact movesOn_here (p := empty) rfl h
  | char p =>
    cases hrest : c.rest with
    | nil => simp [run, hrest] at h
    | cons x xs =>
      simp only [run, hrest] at h
      split at h
      · next hx =>
        refine ⟨1, g, by simp [hrest], ⟨x, by simp [hrest], hx⟩, ?_⟩
        rw [Cursor.skip_succ hrest, Cursor.skip_zero]
        exact h
      · cases h
  | seq a b iha ihb => exact (iha h).seq fun c' g hk => ihb hk
  | alt a b iha ihb =>
    rcases Option.or_eq_some_iff.mp h with h | ⟨-, h⟩
    · obtain ⟨n, g', hn, htake, hk⟩ := iha h
      exact ⟨n, g', hn, .inl htake, hk⟩
    · obtain ⟨n, g', hn, htake, hk⟩ := ihb h
      exact ⟨n, g', hn, .inr htake, hk⟩
  | many greedy a ih => exact turns_takes (fun _ _ _ _ => ih) h
  | group n a ih =>
    obtain ⟨m, g', hm, htake, hk⟩ := ih h
    exact ⟨m, _, hm, htake, hk⟩
  | start | stop | edge =>
    simp only [run] at h
    split at h
    · exact ⟨0, g, Nat.zero_le _, rfl, h⟩
    · cases h

/-- The text that a match goes past, and the place behind it. -/
theorem run_passes {p : Pattern} {c : Cursor} {g : Groups} {k : Cursor → Groups → Option α} {r : α}
    (h : p.run c g k = some r) :
    ∃ u c' g', c.Passes u c' ∧ p.Takes u ∧ k c' g' = some r := by
  obtain ⟨n, g', hn, htake, hk⟩ := run_takes h
  refine ⟨c.rest.take n, c.skip n, g', ⟨?_, ?_⟩, htake, hk⟩
  · rw [Cursor.rest_skip, List.take_append_drop]
  · rw [List.length_take_of_le hn]

/-! ## Matches -/

theorem matchAt_spec {p : Pattern} {c : Cursor} {m : Match} (h : p.matchAt c = some m) :
    ∃ n ≤ c.rest.length, p.Takes (c.rest.take n) ∧ m.span = ⟨c.offset, c.offset + n⟩ ∧
      m.after = c.skip n := by
  obtain ⟨n, g, hn, htake, hm⟩ := run_takes h
  obtain rfl := Option.some.inj hm
  exact ⟨n, hn, htake, by rw [Cursor.offset_skip hn], rfl⟩

/-- The first match is at the first place where the pattern matches. -/
theorem findFrom_spec {p : Pattern} {offset : Nat} {before : Option Char} {cs : List Char}
    {m : Match} (h : p.findFrom offset before cs = some m) :
    ∃ i ≤ cs.length, p.matchAt (Cursor.skip ⟨offset, before, cs⟩ i) = some m ∧
      ∀ j < i, p.matchAt (Cursor.skip ⟨offset, before, cs⟩ j) = none := by
  induction cs generalizing offset before with
  | nil => exact ⟨0, Nat.le_refl 0, h, by simp⟩
  | cons x xs ih =>
    rcases Option.or_eq_some_iff.mp h with h | ⟨hnone, h⟩
    · exact ⟨0, Nat.zero_le _, h, by simp⟩
    · obtain ⟨i, hi, h, hfree⟩ := ih h
      refine ⟨i + 1, Nat.succ_le_succ hi, h, fun j hj => ?_⟩
      cases j with
      | zero => exact hnone
      | succ j => exact hfree j (Nat.lt_of_succ_lt_succ hj)

theorem findFrom_eq_none {p : Pattern} {offset : Nat} {before : Option Char} {cs : List Char}
    (h : p.findFrom offset before cs = none) {i : Nat} (hi : i ≤ cs.length) :
    p.matchAt (Cursor.skip ⟨offset, before, cs⟩ i) = none := by
  induction cs generalizing offset before i with
  | nil =>
    obtain rfl : i = 0 := Nat.le_zero.mp hi
    exact h
  | cons x xs ih =>
    obtain ⟨hnone, h⟩ := Option.or_eq_none_iff.mp h
    cases i with
    | zero => exact hnone
    | succ i => exact ih h (Nat.le_of_succ_le_succ hi)

/-- What the first match of a text takes, and where. -/
theorem find_spec {p : Pattern} {cs : List Char} {m : Match} (h : p.find cs = some m) :
    p.matchAt ((Cursor.ofText cs).skip m.span.start) = some m ∧ m.span.start ≤ m.span.stop ∧
      m.span.stop ≤ cs.length ∧ p.Takes (m.span.of cs) := by
  obtain ⟨i, hi, h, -⟩ := findFrom_spec h
  obtain ⟨n, hn, htake, hspan, -⟩ := matchAt_spec h
  have hoffset : (Cursor.skip ⟨0, none, cs⟩ i).offset = i := by
    rw [Cursor.offset_skip hi, Nat.zero_add]
  rw [Cursor.rest_skip] at hn htake
  rw [List.length_drop] at hn
  rw [hoffset] at hspan
  simp only [hspan, Span.of, Span.length, Nat.add_sub_cancel_left]
  exact ⟨h, Nat.le_add_right i n, by simp only at hi hn; omega, htake⟩

theorem findAll_eq_nil {p : Pattern} {cs : List Char} (h : p.find cs = none) :
    p.findAll cs = [] := by
  have hfrom : p.findFrom (Cursor.ofText cs).offset (Cursor.ofText cs).before
      (Cursor.ofText cs).rest = none := h
  rw [findAll, findAllFrom, hfrom]

/-- A match at the start of a text is its first one. -/
theorem find_of_matchAt {p : Pattern} {cs : List Char} {m : Match}
    (h : p.matchAt (Cursor.ofText cs) = some m) : p.find cs = some m := by
  cases cs with
  | nil => exact h
  | cons x xs =>
    unfold Cursor.ofText at h
    rw [find, findFrom, h]
    rfl

/-- A match of a pattern that asks for the start of the text begins there. -/
theorem start_eq_zero_of_find {p : Pattern} {cs : List Char} {m : Match}
    (h : (seq start p).find cs = some m) : m.span.start = 0 := by
  obtain ⟨hmatch, hle, hstop, -⟩ := find_spec h
  cases hzero : m.span.start with
  | zero => rfl
  | succ i =>
    have hbefore : ((Cursor.ofText cs).skip (i + 1)).before = cs[i]? :=
      Cursor.before_skip (c := Cursor.ofText cs) (by show i < cs.length; omega)
    rw [List.getElem?_eq_getElem (by omega)] at hbefore
    simp [hzero, matchAt, run, hbefore] at hmatch

/-! ## Characters of pieces -/

/-- Every piece that the pattern takes has a character outside the list. -/
def needsOther (xs : List Char) : Pattern → Bool
  | char p => xs.all fun x => !p x
  | seq a b => a.needsOther xs || b.needsOther xs
  | alt a b => a.needsOther xs && b.needsOther xs
  | group _ a => a.needsOther xs
  | _ => false

theorem exists_notMem_of_needsOther {xs : List Char} {p : Pattern} (h : p.needsOther xs = true)
    {u : List Char} (hu : p.Takes u) : ∃ y ∈ u, y ∉ xs := by
  induction p generalizing u with
  | char p =>
    obtain ⟨y, rfl, hy⟩ := hu
    refine ⟨y, List.mem_singleton_self y, fun hmem => ?_⟩
    simpa [hy] using List.all_eq_true.mp h y hmem
  | seq a b iha ihb =>
    obtain ⟨v, w, rfl, hv, hw⟩ := hu
    rcases Bool.or_eq_true_iff.mp h with h | h
    · obtain ⟨y, hy, hmem⟩ := iha h hv
      exact ⟨y, List.mem_append_left w hy, hmem⟩
    · obtain ⟨y, hy, hmem⟩ := ihb h hw
      exact ⟨y, List.mem_append_right v hy, hmem⟩
  | alt a b iha ihb =>
    obtain ⟨ha, hb⟩ := Bool.and_eq_true_iff.mp h
    exact hu.elim (iha ha) (ihb hb)
  | group n a ih => exact ih h hu
  | empty | many | start | stop | edge => cases h

theorem needsOther_all {xs : List Char} {p : Pattern} {ps : List Pattern} (hp : p ∈ ps)
    (h : p.needsOther xs = true) : (all ps).needsOther xs = true := by
  fun_induction all ps with
  | case1 => cases hp
  | case2 q => exact List.mem_singleton.mp hp ▸ h
  | case3 q ps _ ih =>
    rcases List.mem_cons.mp hp with rfl | hp
    · exact Bool.or_eq_true_iff.mpr (.inl h)
    · exact Bool.or_eq_true_iff.mpr (.inr (ih hp))

/-- How often a piece that the pattern takes has the character at most, if there is a bound. -/
def most (x : Char) : Pattern → Option Nat
  | char p => some (if p x then 1 else 0)
  | seq a b => do return (← a.most x) + (← b.most x)
  | alt a b => do return max (← a.most x) (← b.most x)
  | many _ a => if a.most x = some 0 then some 0 else none
  | group _ a => a.most x
  | _ => some 0

theorem count_le_of_most {x : Char} {p : Pattern} {n : Nat} (h : p.most x = some n)
    {u : List Char} (hu : p.Takes u) : u.count x ≤ n := by
  induction p generalizing u n with
  | char p =>
    obtain ⟨y, rfl, hy⟩ := hu
    obtain rfl := Option.some.inj h
    by_cases hx : y = x
    · subst hx
      simp [hy]
    · simp [hx]
  | seq a b iha ihb =>
    obtain ⟨v, w, rfl, hv, hw⟩ := hu
    obtain ⟨m, hm, h⟩ := Option.bind_eq_some_iff.mp h
    obtain ⟨n, hn, h⟩ := Option.bind_eq_some_iff.mp h
    obtain rfl := Option.some.inj h
    rw [List.count_append]
    exact Nat.add_le_add (iha hm hv) (ihb hn hw)
  | alt a b iha ihb =>
    obtain ⟨m, hm, h⟩ := Option.bind_eq_some_iff.mp h
    obtain ⟨n, hn, h⟩ := Option.bind_eq_some_iff.mp h
    obtain rfl := Option.some.inj h
    rcases hu with hu | hu
    · exact Nat.le_trans (iha hm hu) (Nat.le_max_left m n)
    · exact Nat.le_trans (ihb hn hu) (Nat.le_max_right m n)
  | many greedy a ih =>
    obtain ⟨vs, rfl, hvs⟩ := hu
    unfold most at h
    split at h
    · next hzero =>
      have hnone : ∀ v ∈ vs, v.count x = 0 := fun v hv => Nat.le_zero.mp (ih hzero (hvs v hv))
      rw [List.count_flatten, List.map_congr_left hnone]
      simp
    · cases h
  | group m a ih => exact ih h hu
  | empty | start | stop | edge =>
    obtain rfl : u = [] := hu
    exact Nat.zero_le n

theorem exists_most_all {x : Char} {ps : List Pattern} (h : ∀ p ∈ ps, ∃ n, p.most x = some n) :
    ∃ n, (all ps).most x = some n := by
  fun_induction all ps with
  | case1 => exact ⟨0, rfl⟩
  | case2 p => exact h p (List.mem_singleton_self p)
  | case3 p ps _ ih =>
    obtain ⟨m, hm⟩ := h p List.mem_cons_self
    obtain ⟨n, hn⟩ := ih fun q hq => h q (List.mem_cons_of_mem p hq)
    exact ⟨m + n, by simp [most, hm, hn]⟩

end Pattern

end MetricLayer
