import MetricLayer.Proofs.Pattern.Pieces
import MetricLayer.Proofs.Text.Words
import MetricLayer.Question.Basic

/-!
# Loops of reading

Groupings, metrics and chained conditions are read in loops that go on as long as something is
found. `Loop` is such a loop without a bound on its turns; that it comes to an end is a statement of
its own. The definitions count their turns instead. Here each of them is shown to give what its loop
ends with, so that the count never cuts a loop short.

Results:
1. `Loop.unique` and `Loop.ends`: a loop has one end at most, and has one if every turn makes
   something smaller.
2. `Reading.Consumes.size_lt`: a turn that takes text out leaves less to read.
3. `Grouping.loop_iff`, `MetricTerm.loop_iff`, `Condition.exists_loop`: the ends of the three loops.
4. `MetricTerm.not_loop_of_stuck`: a match that takes nothing is found for ever.
-/

namespace MetricLayer

/-! ## Loops -/

/-- The loop that takes turns from the first state ends in the second one, where no turn is left. -/
inductive Loop {σ : Type} (turn : σ → Option σ) : σ → σ → Prop
  | done {s : σ} (h : turn s = none) : Loop turn s s
  | next {s s' t : σ} (h : turn s = some s') (rest : Loop turn s' t) : Loop turn s t

namespace Loop

variable {σ : Type} {turn : σ → Option σ} {s s' t t' : σ}

theorem iff_of_none (h : turn s = none) : Loop turn s t ↔ s = t := by
  refine ⟨fun hloop => ?_, fun heq => heq ▸ done h⟩
  cases hloop with
  | done => rfl
  | next h' => rw [h] at h'; cases h'

theorem iff_of_some (h : turn s = some s') : Loop turn s t ↔ Loop turn s' t := by
  refine ⟨fun hloop => ?_, next h⟩
  cases hloop with
  | done h' => rw [h] at h'; cases h'
  | next h' rest =>
    rw [h] at h'
    obtain rfl := Option.some.inj h'
    exact rest

/-- A loop ends in one state at most. -/
theorem unique (h : Loop turn s t) (h' : Loop turn s t') : t = t' := by
  induction h with
  | done hs => exact (iff_of_none hs).mp h'
  | next hs _ ih => exact ih ((iff_of_some hs).mp h')

/-- A loop ends if every turn makes something smaller. -/
theorem ends (size : σ → Nat) (hturn : ∀ s s', turn s = some s' → size s' < size s) (s : σ) :
    ∃ t, Loop turn s t := by
  induction h : size s using Nat.strongRecOn generalizing s with
  | _ n ih =>
    cases hs : turn s with
    | none => exact ⟨s, done hs⟩
    | some s' =>
      obtain ⟨t, ht⟩ := ih (size s') (h ▸ hturn s s' hs) s' rfl
      exact ⟨t, next hs ht⟩

/-- A loop does not end if a property of its state makes a turn possible and holds after it. -/
theorem not_of_kept {P : σ → Prop} (hturn : ∀ s, P s → ∃ s', turn s = some s' ∧ P s') (hs : P s) :
    ¬ Loop turn s t := by
  intro h
  induction h with
  | done h =>
    obtain ⟨s', h', -⟩ := hturn _ hs
    rw [h] at h'
    cases h'
  | next h _ ih =>
    obtain ⟨s', h', hs'⟩ := hturn _ hs
    rw [h] at h'
    exact ih (Option.some.inj h' ▸ hs')

end Loop

/-! ## Taking text out -/

/-- The spaces that stand for a piece of text once it is read. -/
def spacesFor (u : List Char) : List Char := u.flatMap fun c => List.replicate c.utf8Size ' '

theorem isBlank_of_mem_spacesFor {u : List Char} {c : Char} (h : c ∈ spacesFor u) :
    Text.isBlank c = true := by
  obtain ⟨x, -, hc⟩ := List.mem_flatMap.mp h
  rw [List.eq_of_mem_replicate hc]
  rfl

theorem blankOutFrom_behind {s : Span} {i : Nat} (h : s.stop ≤ i) (cs : List Char) :
    blankOutFrom [s] i cs = cs := by
  induction cs generalizing i with
  | nil => rfl
  | cons c cs ih =>
    have hfree : [s].any (·.covers i) = false := by simp [Span.covers]; omega
    rw [blankOutFrom, hfree, ih (by omega)]
    rfl

theorem blankOutFrom_within {s : Span} {i : Nat} (hstart : s.start ≤ i) (n : Nat)
    (hn : s.stop = i + n) (cs : List Char) :
    blankOutFrom [s] i cs = spacesFor (cs.take n) ++ cs.drop n := by
  induction n generalizing i cs with
  | zero => rw [blankOutFrom_behind (by omega)]; rfl
  | succ n ih =>
    cases cs with
    | nil => rfl
    | cons c cs =>
      have hcovered : [s].any (·.covers i) = true := by simp [Span.covers]; omega
      rw [blankOutFrom, hcovered, ih (by omega) (by omega)]
      simp [spacesFor]

theorem blankOutFrom_before {s : Span} {i : Nat} (u cs : List Char) (h : i + u.length ≤ s.start) :
    blankOutFrom [s] i (u ++ cs) = u ++ blankOutFrom [s] (i + u.length) cs := by
  induction u generalizing i with
  | nil => rfl
  | cons c u ih =>
    rw [List.length_cons] at h
    have hfree : [s].any (·.covers i) = false := by simp [Span.covers]; omega
    rw [List.cons_append, blankOutFrom, hfree, ih (by omega), List.length_cons, Nat.add_right_comm]
    rfl

/-- A span blanked out leaves what stands in front of it and behind it. -/
theorem blankOut_span {s : Span} (hs : s.start ≤ s.stop) (cs : List Char) :
    blankOut [s] cs = cs.take s.start ++ spacesFor (s.of cs) ++ cs.drop s.stop := by
  have hfront := blankOutFrom_before (s := s) (i := 0) (cs.take s.start) (cs.drop s.start)
    (by simp only [List.length_take]; omega)
  rw [List.take_append_drop, Nat.zero_add] at hfront
  have hbehind : (cs.drop s.start).drop s.length = cs.drop s.stop := by
    rw [List.drop_drop, Span.length, Nat.add_sub_cancel' hs]
  rw [blankOut, hfront, List.append_assoc, Span.of, ← hbehind]
  congr 1
  by_cases hlength : s.start ≤ cs.length
  · rw [List.length_take_of_le hlength]
    exact blankOutFrom_within (Nat.le_refl _) s.length (by unfold Span.length; omega) _
  · rw [List.drop_eq_nil_of_le (by omega), List.take_nil, List.drop_nil]
    rfl

theorem Span.mem_widened {s : Span} {cs : List Char} {c : Char} (h : c ∈ s.of cs) (n : Nat) :
    c ∈ Span.of ⟨s.start, s.stop + n⟩ cs := by
  have hlength : s.length ≤ Span.length ⟨s.start, s.stop + n⟩ :=
    Nat.sub_le_sub_right (Nat.le_add_right _ _) _
  unfold Span.of at h ⊢
  rw [← Nat.min_eq_left hlength, ← List.take_take] at h
  exact List.mem_of_mem_take h

namespace Reading

/-- The second reading is the first one without a piece of text that is more than blanks. Only
spaces are left of the piece. -/
def Consumes (r r' : Reading) : Prop :=
  ∃ front piece behind, r.rest = front ++ piece ++ behind ∧
    (∃ c ∈ piece, Text.isBlank c = false) ∧ r'.rest = front ++ spacesFor piece ++ behind

/-- There is less to read after something was taken out. -/
theorem Consumes.size_lt {r r' : Reading} (h : r.Consumes r') : r'.size < r.size := by
  obtain ⟨front, piece, behind, hrest, ⟨c, hc, hblank⟩, hrest'⟩ := h
  have hspaces : (spacesFor piece).countP (!Text.isBlank ·) = 0 :=
    List.countP_eq_zero.mpr fun x hx => by simp [isBlank_of_mem_spacesFor hx]
  have hpiece : 0 < piece.countP (!Text.isBlank ·) :=
    List.countP_pos_iff.mpr ⟨c, hc, by simp [hblank]⟩
  simp only [size, hrest, hrest', List.countP_append]
  omega

theorem consumes_blank {r : Reading} {s : Span} (hs : s.start ≤ s.stop) {c : Char}
    (hc : c ∈ s.of r.rest) (hblank : Text.isBlank c = false) (request : Request) :
    r.Consumes (({ r with request } : Reading).blank [s]) := by
  refine ⟨_, s.of r.rest, _, ?_, ⟨c, hc, hblank⟩, blankOut_span hs r.rest⟩
  rw [Span.of, List.append_assoc]
  conv_rhs => rw [show s.stop = s.start + s.length by unfold Span.length; omega, ← List.drop_drop]
  rw [List.take_append_drop, List.take_append_drop]

end Reading

/-! ## Patterns that take text -/

namespace Pattern

/-- Every piece that the pattern takes is empty or more than blanks. -/
def TakesText (p : Pattern) : Prop :=
  ∀ u, p.Takes u → u ≠ [] → ∃ c ∈ u, Text.isBlank c = false

theorem exists_not_isBlank {p : Pattern} (hp : p.needsOther Text.blanks = true) {u : List Char}
    (hu : p.Takes u) : ∃ c ∈ u, Text.isBlank c = false := by
  obtain ⟨c, hc, hmem⟩ := exists_notMem_of_needsOther hp hu
  exact ⟨c, hc, by simpa using mt Text.mem_blanks hmem⟩

end Pattern

/-! ## Groupings -/

namespace Grouping

/-- One turn: the first grouping is read and taken out. -/
def turn? (r : Reading) : Option Reading :=
  (Phrase.grouping.find r.rest).map fun m =>
    let found := names (r.rest.drop m.span.stop)
    let mentions := found.1.map fun name => ({ name, confidence := 0.9 } : DimensionMention)
    let request := { r.request with dimensions := r.request.dimensions ++ mentions }
    ({ r with request } : Reading).blank [⟨m.span.start, m.span.stop + found.2⟩]

theorem readAll_succ (fuel : Nat) (r : Reading) :
    readAll (fuel + 1) r = match turn? r with
      | none => r
      | some r' => readAll fuel r' := by
  rw [readAll, turn?]
  cases Phrase.grouping.find r.rest <;> rfl

/-- A turn takes the word that introduces the grouping out of the text. -/
theorem consumes_of_turn? {r r' : Reading} (h : turn? r = some r') : r.Consumes r' := by
  obtain ⟨m, hm, rfl⟩ := Option.map_eq_some_iff.mp h
  obtain ⟨-, hle, -, htake⟩ := Pattern.find_spec hm
  have hneeds : Phrase.grouping.needsOther Text.blanks = true := by decide +kernel
  obtain ⟨c, hc, hblank⟩ := Pattern.exists_not_isBlank hneeds htake
  -- the names behind the word are taken out with it
  have hwide := Span.mem_widened hc (names (r.rest.drop m.span.stop)).2
  refine Reading.consumes_blank ?_ hwide hblank _
  exact Nat.le_trans hle (Nat.le_add_right _ _)

/-- The groupings that are read are those that the loop reads. -/
theorem loop_iff {fuel : Nat} {r t : Reading} (h : r.size < fuel) :
    Loop turn? r t ↔ readAll fuel r = t := by
  induction fuel generalizing r with
  | zero => cases h
  | succ fuel ih =>
    rw [readAll_succ]
    cases hr : turn? r with
    | none => exact Loop.iff_of_none hr
    | some r' =>
      have hlt := (consumes_of_turn? hr).size_lt
      exact (Loop.iff_of_some hr).trans (ih (by omega))

end Grouping

/-! ## Metrics -/

namespace MetricTerm

/-- One turn: the first place of the pattern is read and taken out, even if nothing is there. -/
def turn? (p : Pattern) (r : Reading) : Option Reading :=
  (p.find r.rest).map fun m =>
    let mention : MetricMention :=
      { name := Text.trim (m.span.text r.rest)
        aggregation := aggregation? (r.rest.take m.span.start) }
    let request := { r.request with metrics := r.request.metrics ++ [mention] }
    ({ r with request } : Reading).blank [m.span]

theorem readAll?_succ (p : Pattern) (fuel : Nat) (r : Reading) :
    readAll? p (fuel + 1) r = match p.find r.rest with
      | none => some r
      | some m =>
        if m.span.start < m.span.stop then (turn? p r).bind (readAll? p fuel) else none := by
  rw [readAll?, turn?]
  cases p.find r.rest <;> rfl

/-- A turn takes something out of the text if it matches something, and blanks are not all. -/
theorem consumes_of_find {p : Pattern} (hp : p.TakesText) {r : Reading} {m : Pattern.Match}
    (hm : p.find r.rest = some m) (hspan : m.span.start < m.span.stop) :
    ∃ r', turn? p r = some r' ∧ r.Consumes r' := by
  obtain ⟨-, hle, hstop, htake⟩ := Pattern.find_spec hm
  have hlength : (m.span.of r.rest).length = m.span.length := by
    simp only [Span.of, Span.length, List.length_take, List.length_drop]
    omega
  obtain ⟨c, hc, hblank⟩ := hp _ htake fun hnil => by
    rw [hnil, Span.length, List.length_nil] at hlength
    omega
  exact ⟨_, by rw [turn?, hm]; rfl, Reading.consumes_blank hle hc hblank _⟩

/-- A turn of a pattern that needs more than blanks takes something out of the text. -/
theorem consumes_of_turn? {p : Pattern} (hp : p.needsOther Text.blanks = true) {r r' : Reading}
    (h : turn? p r = some r') : r.Consumes r' := by
  obtain ⟨m, hm, -⟩ := Option.map_eq_some_iff.mp h
  obtain ⟨-, -, -, htake⟩ := Pattern.find_spec hm
  obtain ⟨c, hc, -⟩ := Pattern.exists_not_isBlank hp htake
  have hspan : m.span.start < m.span.stop := by
    by_contra hempty
    have hzero : m.span.length = 0 := Nat.sub_eq_zero_of_le (Nat.le_of_not_lt hempty)
    simp [Span.of, hzero] at hc
  obtain ⟨r'', hturn, hconsumes⟩ :=
    consumes_of_find (fun u hu _ => Pattern.exists_not_isBlank hp hu) hm hspan
  exact Option.some.inj (hturn.symm.trans h) ▸ hconsumes

/-- A turn that matches nothing leaves the text as it is. -/
theorem turn?_of_stuck {p : Pattern} {r : Reading} {m : Pattern.Match}
    (hm : p.find r.rest = some m) (hspan : m.span.start = m.span.stop) :
    ∃ r', turn? p r = some r' ∧ r'.rest = r.rest := by
  refine ⟨_, by rw [turn?, hm]; rfl, ?_⟩
  have hnone : m.span.of r.rest = [] := by simp [Span.of, Span.length, hspan]
  show blankOut [m.span] r.rest = r.rest
  rw [blankOut_span (Nat.le_of_eq hspan), hnone, ← hspan]
  simp [spacesFor]

/-- A match that takes nothing is found for ever. -/
theorem not_loop_of_stuck {p : Pattern} {r t : Reading} {m : Pattern.Match}
    (hm : p.find r.rest = some m) (hspan : m.span.start = m.span.stop) :
    ¬ Loop (turn? p) r t := by
  refine Loop.not_of_kept (P := fun s => s.rest = r.rest) (fun s hs => ?_) rfl
  rw [← hs] at hm ⊢
  exact turn?_of_stuck hm hspan

/-- The places of a pattern that are read are those that the loop reads, and there are none if the
loop has no end. -/
theorem loop_iff {p : Pattern} (hp : p.TakesText) {fuel : Nat} {r t : Reading} (h : r.size < fuel) :
    Loop (turn? p) r t ↔ readAll? p fuel r = some t := by
  induction fuel generalizing r with
  | zero => cases h
  | succ fuel ih =>
    rw [readAll?_succ]
    cases hm : p.find r.rest with
    | none =>
      have hturn : turn? p r = none := by rw [turn?, hm]; rfl
      exact (Loop.iff_of_none hturn).trans Option.some_inj.symm
    | some m =>
      dsimp only
      split
      · next hspan =>
        obtain ⟨r', hturn, hconsumes⟩ := consumes_of_find hp hm hspan
        have hlt := hconsumes.size_lt
        rw [Loop.iff_of_some hturn, ih (by omega), hturn]
        rfl
      · next hspan =>
        have hle := (Pattern.find_spec hm).2.1
        exact iff_of_false (not_loop_of_stuck hm (by omega)) (by simp)

end MetricTerm

/-! ## Conditions -/

namespace Condition

/-- The condition that follows right behind a place of the text. -/
def next? (cs : List Char) (i : Nat) : Option Condition :=
  (Phrase.chainedCondition.find (cs.drop i)).map fun m => ofMatch m (cs.drop i) i

/-- The conditions read one behind the other so far, and the place behind the last one. -/
structure Chained where
  found : List Condition
  stop : Nat

/-- One turn: the condition right behind the last one is read. -/
def Chained.turn? (cs : List Char) (s : Chained) : Option Chained :=
  (next? cs s.stop).map fun c => ⟨s.found ++ [c], c.span.stop⟩

/-- A condition that follows begins where the last one ends, and takes text. -/
theorem next?_spec {cs : List Char} {i : Nat} {c : Condition} (h : next? cs i = some c) :
    c.span.start = i ∧ i < c.span.stop ∧ c.span.stop ≤ cs.length := by
  obtain ⟨m, hm, rfl⟩ := Option.map_eq_some_iff.mp h
  obtain ⟨-, -, hstop, htake⟩ := Pattern.find_spec hm
  have hstart : m.span.start = 0 := Pattern.start_eq_zero_of_find hm
  have hneeds : Phrase.chainedCondition.needsOther Text.blanks = true := by decide +kernel
  obtain ⟨x, hx, -⟩ := Pattern.exists_not_isBlank hneeds htake
  have hlength : 0 < m.span.length :=
    Nat.pos_of_ne_zero fun hzero => by simp [Span.of, hzero] at hx
  rw [List.length_drop] at hstop
  simp only [Span.length, hstart] at hlength
  simp only [ofMatch, Span.shift, hstart]
  omega

theorem chain_succ (fuel : Nat) (cs : List Char) (i : Nat) :
    chain (fuel + 1) (cs.drop i) i = match next? cs i with
      | none => []
      | some c => c :: chain fuel (cs.drop c.span.stop) c.span.stop := by
  rw [chain, next?]
  cases Phrase.chainedCondition.find (cs.drop i) with
  | none => rfl
  | some m => simp [ofMatch, Span.shift, List.drop_drop, Nat.add_comm]

/-- The loop ends with the conditions of the chain behind those that it began with. -/
theorem exists_loop_chain {fuel : Nat} {cs : List Char} {i : Nat} (h : cs.length ≤ i + fuel)
    (found : List Condition) :
    ∃ stop, Loop (Chained.turn? cs) ⟨found, i⟩ ⟨found ++ chain fuel (cs.drop i) i, stop⟩ := by
  induction fuel generalizing i found with
  | zero =>
    have hnone : next? cs i = none := Option.eq_none_iff_forall_ne_some.mpr fun c hc => by
      have := next?_spec hc
      omega
    refine ⟨i, ?_⟩
    rw [chain, List.append_nil]
    exact .done (by rw [Chained.turn?, hnone]; rfl)
  | succ fuel ih =>
    rw [chain_succ]
    cases hnext : next? cs i with
    | none =>
      refine ⟨i, ?_⟩
      rw [List.append_nil]
      exact .done (by rw [Chained.turn?, hnext]; rfl)
    | some c =>
      have hspec := next?_spec hnext
      obtain ⟨stop, hloop⟩ := ih (i := c.span.stop) (by omega) (found ++ [c])
      rw [List.append_assoc] at hloop
      exact ⟨stop, .next (by rw [Chained.turn?, hnext]; rfl) hloop⟩

/-- The loop that begins behind a first condition ends with the condition and its chain. -/
theorem exists_loop (cs : List Char) (m : Pattern.Match) :
    ∃ stop, Loop (Chained.turn? cs) ⟨[ofMatch m cs 0], m.span.stop⟩ ⟨withChain cs m, stop⟩ :=
  exists_loop_chain (Nat.le_add_left _ _) [ofMatch m cs 0]

end Condition

end MetricLayer
