import Mathlib.Data.List.Pairwise
import MetricLayer.Proofs.Pattern.Pieces

/-!
# Scanning a text

All matches of a pattern in a text are found by a scan: the first match at or after a place, then
the first one at or after the place behind it, and so on. `Pattern.Scan` says which matches these
are, without a bound on their number. It is about patterns that never match the empty text, so each
match moves the scan on.

Results:
1. `Pattern.scan_findAll`: all matches of a text are those of the scan from its start.
2. `Pattern.Scan.pairwise` and `Pattern.Scan.exists_covers`: no two of them share a character, and
   a place where the pattern matches lies within one of them.
-/

namespace MetricLayer

namespace Cursor

/-- The place with so many characters of the text in front of it. -/
def place (cs : List Char) (i : Nat) : Cursor := (ofText cs).skip i

variable {cs : List Char} {i : Nat}

theorem rest_place (cs : List Char) (i : Nat) : (place cs i).rest = cs.drop i := rest_skip _ _

theorem offset_place (h : i ≤ cs.length) : (place cs i).offset = i :=
  (offset_skip h).trans (Nat.zero_add i)

theorem skip_place (cs : List Char) (i n : Nat) : (place cs i).skip n = place cs (i + n) :=
  skip_skip _ _ _

end Cursor

namespace Pattern

open Cursor (place)

variable {p : Pattern} {cs : List Char} {i : Nat} {m : Match} {ms : List Match}

/-- The pattern takes at least one character. -/
def TakesSome (p : Pattern) : Prop := ¬ p.Takes []

theorem takesSome_of_needsOther {xs : List Char} (h : p.needsOther xs = true) : p.TakesSome := by
  intro hnil
  obtain ⟨y, hy, -⟩ := exists_notMem_of_needsOther h hnil
  cases hy

/-- What a match at a place of a text takes. -/
theorem matchAt_place (h : p.matchAt (place cs i) = some m) (hi : i ≤ cs.length) :
    m.span.start = i ∧ i ≤ m.span.stop ∧ m.span.stop ≤ cs.length ∧ p.Takes (m.span.of cs) ∧
      m.after = place cs m.span.stop := by
  obtain ⟨n, hn, htake, hspan, hafter⟩ := matchAt_spec h
  rw [Cursor.rest_place, List.length_drop] at hn
  rw [Cursor.rest_place] at htake
  rw [Cursor.offset_place hi] at hspan
  rw [Cursor.skip_place] at hafter
  simp only [hspan, Span.of, Span.length, Nat.add_sub_cancel_left]
  exact ⟨trivial, Nat.le_add_right i n, by omega, htake, hafter⟩

theorem TakesSome.lt (hp : p.TakesSome) (h : p.matchAt (place cs i) = some m)
    (hi : i ≤ cs.length) : i < m.span.stop := by
  obtain ⟨hstart, hle, -, htake, -⟩ := matchAt_place h hi
  refine Nat.lt_of_le_of_ne hle fun heq => hp ?_
  have hzero : m.span.length = 0 := by unfold Span.length; omega
  rwa [Span.of, hzero, List.take_zero] at htake

/-! ## Scans -/

/-- The matches are those of a scan of the text from the place on. -/
inductive Scan (p : Pattern) (cs : List Char) : Nat → List Match → Prop
  | done {i : Nat} (hnone : ∀ j, i ≤ j → j ≤ cs.length → p.matchAt (place cs j) = none) :
      Scan p cs i []
  | next {i : Nat} {m : Match} {ms : List Match} (hstart : i ≤ m.span.start)
      (hfree : ∀ j, i ≤ j → j < m.span.start → p.matchAt (place cs j) = none)
      (hlt : m.span.start < m.span.stop) (hle : m.span.stop ≤ cs.length)
      (hmatch : p.matchAt (place cs m.span.start) = some m) (rest : Scan p cs m.span.stop ms) :
      Scan p cs i (m :: ms)

theorem scan_findAllFrom (hp : p.TakesSome) {fuel : Nat} (hi : i ≤ cs.length)
    (hfuel : cs.length < i + fuel) : Scan p cs i (p.findAllFrom fuel (place cs i)) := by
  induction fuel generalizing i with
  | zero => omega
  | succ fuel ih =>
    have hrest : (place cs i).rest.length = cs.length - i := by
      rw [Cursor.rest_place, List.length_drop]
    have hskip (j : Nat) : Cursor.skip ⟨(place cs i).offset, (place cs i).before,
        (place cs i).rest⟩ j = place cs (i + j) := Cursor.skip_place cs i j
    rw [findAllFrom]
    split
    · next hnone =>
      refine .done fun j hij hj => ?_
      have h := findFrom_eq_none hnone (i := j - i) (by omega)
      rwa [hskip, Nat.add_sub_cancel' hij] at h
    · next m hm =>
      obtain ⟨k, hk, hmatch, hfree⟩ := findFrom_spec hm
      rw [hskip] at hmatch
      have hik : i + k ≤ cs.length := by omega
      obtain ⟨hstart, -, hstop, -, hafter⟩ := matchAt_place hmatch hik
      have hlt := hp.lt hmatch hik
      rw [if_pos (by omega), hafter]
      refine .next (by omega) (fun j hij hj => ?_) (by omega) hstop (by rwa [hstart])
        (ih hstop (by omega))
      have h := hfree (j - i) (by omega)
      rwa [hskip, Nat.add_sub_cancel' hij] at h

/-- All matches of a text are those of the scan from its start. -/
theorem scan_findAll (hp : p.TakesSome) (cs : List Char) : Scan p cs 0 (p.findAll cs) :=
  scan_findAllFrom hp (Nat.zero_le _) (by omega)

namespace Scan

/-- A match of a scan begins at or after the place where the scan begins. -/
theorem mem (h : Scan p cs i ms) (hm : m ∈ ms) :
    i ≤ m.span.start ∧ m.span.start < m.span.stop ∧ m.span.stop ≤ cs.length ∧
      p.matchAt (place cs m.span.start) = some m := by
  induction h with
  | done => cases hm
  | next hstart _ hlt hle hmatch _ ih =>
    rcases List.mem_cons.mp hm with rfl | hm
    · exact ⟨hstart, hlt, hle, hmatch⟩
    · obtain ⟨hfrom, hrest⟩ := ih hm
      exact ⟨by omega, hrest⟩

/-- Each match of a scan ends before the next one begins. -/
theorem pairwise (h : Scan p cs i ms) : ms.Pairwise fun a b => a.span.stop ≤ b.span.start := by
  induction h with
  | done => exact .nil
  | next _ _ _ _ _ rest ih => exact .cons (fun m hm => (rest.mem hm).1) ih

/-- Two matches of a scan stand one behind the other. -/
theorem apart (h : Scan p cs i ms) {m' : Match} (hm : m ∈ ms) (hm' : m' ∈ ms) (hne : m ≠ m') :
    m.span.stop ≤ m'.span.start ∨ m'.span.stop ≤ m.span.start := by
  let R (a b : Match) : Prop := a.span.stop ≤ b.span.start ∨ b.span.stop ≤ a.span.start
  have hsymm : Std.Symm R := ⟨fun _ _ h => h.symm⟩
  have hpairwise : ms.Pairwise R := h.pairwise.imp fun h => Or.inl h
  exact hpairwise.forall hm hm' hne

/-- Where the pattern matches, the scan has a match. -/
theorem exists_covers (h : Scan p cs i ms) {j : Nat} (hij : i ≤ j) (hj : j ≤ cs.length)
    (hmatch : p.matchAt (place cs j) ≠ none) :
    ∃ m ∈ ms, m.span.start ≤ j ∧ j < m.span.stop := by
  induction h with
  | done hnone => exact absurd (hnone j hij hj) hmatch
  | @next i m ms _ hfree _ _ _ _ ih =>
    rcases Nat.lt_or_ge j m.span.stop with hstop | hstop
    · refine ⟨m, List.mem_cons_self, ?_, hstop⟩
      by_contra hbefore
      exact hmatch (hfree j hij (by omega))
    · obtain ⟨m', hm', hcovers⟩ := ih hstop
      exact ⟨m', List.mem_cons_of_mem m hm', hcovers⟩

/-- A scan can begin later, if the pattern does not match in between. -/
theorem later (h : Scan p cs i ms) {j : Nat} (hij : i ≤ j)
    (hfree : ∀ k, i ≤ k → k < j → p.matchAt (place cs k) = none) : Scan p cs j ms := by
  cases h with
  | done hnone => exact .done fun k hjk hk => hnone k (by omega) hk
  | @next _ m ms hstart hbefore hlt hle hmatch rest =>
    have hjm : j ≤ m.span.start := by
      by_contra hin
      rw [hfree m.span.start hstart (by omega)] at hmatch
      cases hmatch
    exact .next hjm (fun k hjk hk => hbefore k (by omega) hk) hlt hle hmatch rest

end Scan

end Pattern

end MetricLayer
