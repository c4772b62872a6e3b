import Mathlib.Logic.Relation
import MetricLayer.Proofs.Basic
import MetricLayer.Vocabulary.Cycle

/-!
# Graphs with and without cycles

Where `cyclic?` finds nothing, there is no cycle: the walk leaves every node behind, no node has an
edge to itself, and every edge leads forward in the list that the walk gives. The place in that list
is a rank which every edge brings down.

A node that `cyclic?` names lies on a cycle. While a walk is at a node, the nodes that were found and
not left behind are those through which it came, so they lead to the node. An edge that leads back
in the list goes to one of them.

Results:
1. `visit_spec`: what a walk has seen when it comes back.
2. `exists_rank`: the rank of a graph in which no cycle was found.
3. `visit_kept`: the nodes that a walk has left behind are in an order in which every edge that leads
   back is part of a cycle.
4. `cyclic?_some` and `cyclic?_eq_none_iff`: a cycle is found if there is one, and named by a node on
   it.
-/

namespace MetricLayer.Cycle

variable {g : Graph}

/-! ## The walk -/

/-- What has become of a walk: nothing is forgotten, and every node that was found since has been
left behind and has no edge to itself. -/
structure Extends (g : Graph) (w w' : Walk) : Prop where
  found : ∀ n ∈ w.found, n ∈ w'.found
  finished : ∀ n ∈ w.finished, n ∈ w'.finished
  left : ∀ n ∈ w'.found, n ∈ w.found ∨ (n ∈ w'.finished ∧ n ∉ g.targets n)

theorem Extends.refl (w : Walk) : Extends g w w := ⟨fun _ => id, fun _ => id, fun _ => .inl⟩

theorem Extends.trans {u v w : Walk} (huv : Extends g u v) (hvw : Extends g v w) :
    Extends g u w where
  found n hn := hvw.found n (huv.found n hn)
  finished n hn := hvw.finished n (huv.finished n hn)
  left n hn := by
    rcases hvw.left n hn with hv | hleft
    · rcases huv.left n hv with hu | ⟨hfinished, hloop⟩
      · exact .inl hu
      · exact .inr ⟨hvw.finished n hfinished, hloop⟩
    · exact .inr hleft

theorem foldlM_extends {f : Walk → String → Except String Walk}
    (hf : ∀ w n w', f w n = .ok w' → Extends g w w') {ns : List String} {w w' : Walk}
    (h : ns.foldlM f w = .ok w') : Extends g w w' := by
  induction ns generalizing w with
  | nil =>
    cases h
    exact .refl _
  | cons n ns ih =>
    rw [List.foldlM_cons] at h
    obtain ⟨v, hv, h⟩ := bind_eq_ok h
    exact (hf w n v hv).trans (ih h)

/-- A walk that is sent to a node has found it before, or it finds the node, goes to its targets and
leaves it behind. -/
theorem visit_eq_ok {fuel : Nat} {w w' : Walk} {n : String}
    (h : visit g (fuel + 1) w n = .ok w') :
    n ∈ w.found ∧ w' = w ∨
      n ∉ w.found ∧ n ∉ g.targets n ∧
        ∃ v, (g.targets n).foldlM (visit g fuel) { w with found := n :: w.found } = .ok v ∧
          w' = { v with finished := n :: v.finished } := by
  unfold visit at h
  split at h
  · next hfound =>
    cases h
    exact .inl ⟨by simpa using hfound, rfl⟩
  next hnew =>
  split at h
  · cases h
  next hloop =>
  obtain ⟨v, hfold, h⟩ := bind_eq_ok h
  cases h
  exact .inr ⟨by simpa using hnew, by simpa using hloop, v, hfold, rfl⟩

theorem visit_spec (fuel : Nat) (w : Walk) (n : String) (w' : Walk)
    (h : visit g fuel w n = .ok w') : Extends g w w' := by
  induction fuel generalizing w n w' with
  | zero =>
    cases h
    exact .refl w
  | succ fuel ih =>
    obtain ⟨-, rfl⟩ | ⟨-, hloop, v, hfold, rfl⟩ := visit_eq_ok h
    · exact .refl w'
    have hv := foldlM_extends ih hfold
    constructor
    case found => exact fun m hm => hv.found m (List.mem_cons_of_mem _ hm)
    case finished => exact fun m hm => List.mem_cons_of_mem _ (hv.finished m hm)
    case left =>
      intro m hm
      rcases hv.left m hm with hm | ⟨hfinished, hm⟩
      · rcases List.mem_cons.mp hm with rfl | hm
        · exact .inr ⟨List.mem_cons_self, hloop⟩
        · exact .inl hm
      · exact .inr ⟨List.mem_cons_of_mem _ hfinished, hm⟩

/-- With fuel left, a walk finds the node that it is sent to. -/
theorem visit_found {fuel : Nat} {w w' : Walk} {n : String} (h : visit g (fuel + 1) w n = .ok w') :
    n ∈ w'.found := by
  obtain ⟨hfound, rfl⟩ | ⟨-, -, v, hfold, rfl⟩ := visit_eq_ok h
  · exact hfound
  · exact (foldlM_extends (visit_spec fuel) hfold).found n List.mem_cons_self

theorem foldlM_visit_found {fuel : Nat} {ns : List String} {w w' : Walk}
    (h : ns.foldlM (visit g (fuel + 1)) w = .ok w') : ∀ n ∈ ns, n ∈ w'.found := by
  induction ns generalizing w with
  | nil => simp
  | cons n ns ih =>
    rw [List.foldlM_cons] at h
    obtain ⟨v, hv, h⟩ := bind_eq_ok h
    refine List.forall_mem_cons.mpr ⟨?_, ih h⟩
    exact (foldlM_extends (visit_spec _) h).found n (visit_found hv)

/-- The walk over all nodes leaves every node behind, and none has an edge to itself. -/
theorem order_spec {ns : List String} (h : order g = .ok ns) {n : String} (hn : n ∈ g.nodes) :
    n ∈ ns ∧ n ∉ g.targets n := by
  obtain ⟨w, hfold, h⟩ := bind_eq_ok h
  cases h
  rcases (foldlM_extends (visit_spec _) hfold).left n (foldlM_visit_found hfold n hn) with hnil | h
  · cases hnil
  · exact h

/-! ## The rank -/

/-- Where no edge leads back, an edge to a node comes from the node or from before it. -/
theorem backEdge?_none {before ns : List String} (h : backEdge? g before ns = none)
    {pre post : List String} {n m : String} (hns : ns = pre ++ n :: post) (hm : m ∈ g.sources)
    (hedge : n ∈ g.targets m) : m = n ∨ m ∈ pre ∨ m ∈ before := by
  induction ns generalizing before pre with
  | nil => simp at hns
  | cons x xs ih =>
    unfold backEdge? at h
    split at h
    · cases h
    · next hfind =>
      cases pre with
      | nil =>
        cases hns
        have := List.find?_eq_none.mp hfind m hm
        simp only [List.contains_eq_mem, List.mem_cons, hedge, decide_true, Bool.and_true,
          Bool.not_eq_true', decide_eq_false_iff_not, not_not] at this
        rcases this with rfl | hbefore
        · exact .inl rfl
        · exact .inr (.inr hbefore)
      | cons y pre =>
        cases hns
        rcases ih h rfl with rfl | hpre | hbefore
        · exact .inl rfl
        · exact .inr (.inl (List.mem_cons_of_mem _ hpre))
        · rcases List.mem_cons.mp hbefore with rfl | hbefore
          · exact .inr (.inl List.mem_cons_self)
          · exact .inr (.inr hbefore)

/-- A graph in which no cycle is found has a rank that every edge between nodes brings down. -/
theorem exists_rank (hsources : ∀ m ∈ g.nodes, m ∈ g.sources) (h : cyclic? g = none) :
    ∃ rank : String → Nat, ∀ m ∈ g.nodes, ∀ n ∈ g.nodes, n ∈ g.targets m → rank n < rank m := by
  unfold cyclic? at h
  split at h
  · cases h
  · next ns horder =>
    refine ⟨fun n => ns.length - ns.idxOf n, fun m hm n hn hedge => ?_⟩
    obtain ⟨hmem, -⟩ := order_spec horder hn
    obtain ⟨-, hloop⟩ := order_spec horder hm
    have hlt := List.idxOf_lt_length_of_mem hmem
    -- cut the list where the target stands for the first time
    have hcut : ns = ns.take (ns.idxOf n) ++ n :: ns.drop (ns.idxOf n + 1) := by
      conv => lhs; rw [← List.take_append_drop (ns.idxOf n) ns]
      rw [List.drop_eq_getElem_cons hlt, List.getElem_idxOf]
    rcases backEdge?_none h hcut (hsources m hm) hedge with rfl | hpre | hnil
    · exact absurd hedge hloop
    · have hm : m ∈ ns := (order_spec horder hm).1
      have hbefore := (List.mem_take_iff_idxOf_lt hm).mp hpre
      show ns.length - ns.idxOf n < ns.length - ns.idxOf m
      omega
    · cases hnil

/-! ## The node that is named -/

/-- The graph has an edge from the first node to the second. -/
def Graph.Edge (g : Graph) (m n : String) : Prop := n ∈ g.targets m

/-- Edges lead to nodes, and come from those that are the sources. -/
structure Graph.IsDrawn (g : Graph) : Prop where
  targets : ∀ m n, g.Edge m n → n ∈ g.nodes
  sources : ∀ n, n ∈ g.sources ↔ n ∈ g.nodes

/-- An edge from a node of the list leads forward in the list, or to a node that leads to it. -/
inductive BackIsRound (g : Graph) : List String → Prop
  | nil : BackIsRound g []
  | cons {n : String} {ns : List String} :
      (∀ m, g.Edge n m → m ∈ ns ∨ Relation.ReflTransGen g.Edge m n) → BackIsRound g ns →
        BackIsRound g (n :: ns)

namespace Walk

/-- The nodes that the walk has left behind are some of those it found, and edges that lead back among
them are part of a cycle. -/
structure Sound (g : Graph) (w : Walk) : Prop where
  finished : ∀ n ∈ w.finished, n ∈ w.found
  nodup : w.finished.Nodup
  round : BackIsRound g w.finished

/-- The nodes that the walk has found and not left behind lead to the node. -/
def LeadsTo (g : Graph) (w : Walk) (n : String) : Prop :=
  ∀ m ∈ w.found, m ∉ w.finished → Relation.ReflTransGen g.Edge m n

/-- The fuel suffices for the nodes that are still to be found. -/
def HasFuel (g : Graph) (w : Walk) (fuel : Nat) : Prop :=
  (g.nodes.filter fun n => n ∉ w.found).length < fuel

end Walk

/-- What has become of a sound walk: it is sound, and has left no node behind that it had found
before. -/
structure Kept (g : Graph) (w w' : Walk) : Prop extends Extends g w w' where
  sound : w'.Sound g
  fresh : ∀ n ∈ w'.finished, n ∈ w.finished ∨ n ∉ w.found

theorem Kept.trans {u v w : Walk} (huv : Kept g u v) (hvw : Kept g v w) : Kept g u w where
  toExtends := huv.toExtends.trans hvw.toExtends
  sound := hvw.sound
  fresh n hn := by
    rcases hvw.fresh n hn with hv | hv
    · exact huv.fresh n hv
    · exact .inr fun hu => hv (huv.found n hu)

theorem Walk.LeadsTo.extends {w w' : Walk} {n : String} (h : w.LeadsTo g n)
    (hw : Extends g w w') : w'.LeadsTo g n := by
  intro m hm hopen
  rcases hw.left m hm with hm | ⟨hm, -⟩
  · exact h m hm fun hleft => hopen (hw.finished m hleft)
  · exact absurd hm hopen

theorem Walk.HasFuel.extends {w w' : Walk} {fuel : Nat} (h : w.HasFuel g fuel)
    (hw : ∀ n ∈ w.found, n ∈ w'.found) : w'.HasFuel g fuel := by
  refine Nat.lt_of_le_of_lt (List.Sublist.length_le ?_) h
  refine List.monotone_filter_right _ fun n hn => ?_
  simp only [decide_eq_true_eq] at hn ⊢
  exact fun hfound => hn (hw n hfound)

/-- Finding a node takes one unit of fuel. -/
theorem Walk.HasFuel.find {w : Walk} {fuel : Nat} {n : String} (h : w.HasFuel g (fuel + 1))
    (hn : n ∈ g.nodes) (hnew : n ∉ w.found) :
    ({ w with found := n :: w.found } : Walk).HasFuel g fuel := by
  refine Nat.lt_of_lt_of_le ?_ (Nat.le_of_lt_succ h)
  have hrest : (g.nodes.filter fun m => m ∉ n :: w.found) =
      (g.nodes.filter fun m => m ∉ w.found).filter (· ≠ n) := by
    rw [List.filter_filter]
    exact List.filter_congr fun m _ => by simp
  show (g.nodes.filter fun m => m ∉ n :: w.found).length <
    (g.nodes.filter fun m => m ∉ w.found).length
  rw [hrest, List.length_filter_lt_length_iff_exists]
  exact ⟨n, List.mem_filter.mpr ⟨hn, by simpa using hnew⟩, by simp⟩

theorem foldlM_kept {f : Walk → String → Except String Walk} {fuel : Nat}
    (hf : ∀ (w : Walk) (n : String) (w' : Walk), n ∈ g.nodes → w.HasFuel g fuel → w.Sound g →
      w.LeadsTo g n → f w n = .ok w' → Kept g w w' ∧ n ∈ w'.found)
    {ns : List String} {w w' : Walk} (hns : ∀ n ∈ ns, n ∈ g.nodes) (hfuel : w.HasFuel g fuel)
    (hw : w.Sound g) (hleads : ∀ n ∈ ns, w.LeadsTo g n) (h : ns.foldlM f w = .ok w') :
    Kept g w w' ∧ ∀ n ∈ ns, n ∈ w'.found := by
  induction ns generalizing w with
  | nil =>
    cases h
    exact ⟨⟨.refl _, hw, fun _ => .inl⟩, nofun⟩
  | cons n ns ih =>
    rw [List.foldlM_cons] at h
    obtain ⟨v, hv, h⟩ := bind_eq_ok h
    obtain ⟨hkept, hfound⟩ := hf w n v (hns n List.mem_cons_self) hfuel hw
      (hleads n List.mem_cons_self) hv
    obtain ⟨hrest, hall⟩ := ih (fun m hm => hns m (List.mem_cons_of_mem _ hm))
      (hfuel.extends hkept.found) hkept.sound
      (fun m hm => (hleads m (List.mem_cons_of_mem _ hm)).extends hkept.toExtends) h
    refine ⟨hkept.trans hrest, List.forall_mem_cons.mpr ⟨hrest.found n hfound, hall⟩⟩

/-- A walk stays sound while it goes through nodes that lead to where it is. -/
theorem visit_kept (hg : g.IsDrawn) (fuel : Nat) (w : Walk) (n : String) (w' : Walk)
    (hn : n ∈ g.nodes) (hfuel : w.HasFuel g fuel) (hw : w.Sound g) (hleads : w.LeadsTo g n)
    (h : visit g fuel w n = .ok w') : Kept g w w' ∧ n ∈ w'.found := by
  induction fuel generalizing w n w' with
  | zero => exact absurd hfuel (Nat.not_lt_zero _)
  | succ fuel ih =>
    refine ⟨?_, visit_found h⟩
    have hextends := visit_spec _ _ _ _ h
    obtain ⟨-, rfl⟩ | ⟨hnew, -, v, hfold, rfl⟩ := visit_eq_ok h
    · exact ⟨hextends, hw, fun _ => .inl⟩
    have hleft : n ∉ w.finished := fun hin => hnew (hw.finished n hin)
    -- from the node itself, and so from all nodes on the way to it, its targets are reached
    have hstart : ({ w with found := n :: w.found } : Walk).Sound g :=
      ⟨fun m hm => List.mem_cons_of_mem _ (hw.finished m hm), hw.nodup, hw.round⟩
    have hway : ∀ m ∈ g.targets n, ({ w with found := n :: w.found } : Walk).LeadsTo g m := by
      intro m hm x hx hopen
      rcases List.mem_cons.mp hx with rfl | hx
      · exact .single hm
      · exact (hleads x hx hopen).tail hm
    obtain ⟨hkept, hfound⟩ := foldlM_kept ih (fun m hm => hg.targets n m hm)
      (hfuel.find hn hnew) hstart hway hfold
    have hfinished : n ∉ v.finished := fun hin => by
      rcases hkept.fresh n hin with hin | hin
      · exact hleft hin
      · exact hin List.mem_cons_self
    refine ⟨hextends, ⟨?_, ?_, .cons (fun m hm => ?_) hkept.sound.round⟩, ?_⟩
    · refine List.forall_mem_cons.mpr ⟨hkept.found n List.mem_cons_self, hkept.sound.finished⟩
    · exact List.nodup_cons.mpr ⟨hfinished, hkept.sound.nodup⟩
    · by_cases hm' : m ∈ v.finished
      · exact .inl hm'
      · -- a target that is not left behind was found on the way to the node
        right
        rcases hkept.left m (hfound m hm) with hin | ⟨hin, -⟩
        · rcases List.mem_cons.mp hin with rfl | hin
          · exact .refl
          · exact hleads m hin fun hleft => hm' (hkept.finished m hleft)
        · exact absurd hin hm'
    · refine List.forall_mem_cons.mpr ⟨.inr hnew, fun m hm => ?_⟩
      exact (hkept.fresh m hm).imp_right fun hin hold => hin (List.mem_cons_of_mem _ hold)

/-- The walk over all nodes leaves each behind once. -/
theorem order_round (hg : g.IsDrawn) {ns : List String} (h : order g = .ok ns) :
    ns.Nodup ∧ BackIsRound g ns := by
  obtain ⟨w, hfold, h⟩ := bind_eq_ok h
  cases h
  have hfuel : ({} : Walk).HasFuel g (g.nodes.length + 1) :=
    Nat.lt_succ_of_le (List.length_filter_le ..)
  obtain ⟨hkept, -⟩ := foldlM_kept (visit_kept hg _) (fun _ => id) hfuel
    ⟨nofun, .nil, .nil⟩ (fun _ _ _ hm => nomatch hm) hfold
  exact ⟨hkept.sound.nodup, hkept.sound.round⟩

theorem foldlM_eq_error {f : Walk → String → Except String Walk} {e : String}
    {ns : List String} {w : Walk} (h : ns.foldlM f w = .error e) :
    ∃ w n, n ∈ ns ∧ f w n = .error e := by
  induction ns generalizing w with
  | nil => cases h
  | cons n ns ih =>
    rw [List.foldlM_cons] at h
    cases hn : f w n with
    | error e' =>
      rw [hn] at h
      cases h
      exact ⟨w, n, List.mem_cons_self, hn⟩
    | ok v =>
      rw [hn] at h
      obtain ⟨u, m, hm, hfm⟩ := ih h
      exact ⟨u, m, List.mem_cons_of_mem _ hm, hfm⟩

theorem visit_error (fuel : Nat) (w : Walk) (n m : String) (h : visit g fuel w n = .error m) :
    g.Edge m m := by
  induction fuel generalizing w n with
  | zero => cases h
  | succ fuel ih =>
    unfold visit at h
    split at h
    · cases h
    · split at h
      · next hloop =>
        cases h
        show m ∈ g.targets m
        simpa using hloop
      · cases hfold : (g.targets n).foldlM (visit g fuel) { w with found := n :: w.found } with
        | error e =>
          rw [hfold] at h
          cases h
          obtain ⟨u, x, -, hx⟩ := foldlM_eq_error hfold
          exact ih u x hx
        | ok v =>
          rw [hfold] at h
          cases h

theorem backEdge?_some {before ns : List String} {m : String} (h : backEdge? g before ns = some m) :
    ∃ pre n post, ns = pre ++ n :: post ∧ m ∈ g.sources ∧ g.Edge m n ∧ m ≠ n ∧ m ∉ pre ∧
      m ∉ before := by
  induction ns generalizing before with
  | nil => cases h
  | cons n ns ih =>
    unfold backEdge? at h
    split at h
    · next m' hfind =>
      cases h
      have hm := List.find?_some hfind
      simp only [List.contains_eq_mem, List.mem_cons, not_or, Bool.and_eq_true, Bool.not_eq_true',
        decide_eq_false_iff_not, decide_eq_true_eq] at hm
      exact ⟨[], n, ns, rfl, List.mem_of_find?_eq_some hfind, hm.2, hm.1.1, nofun, hm.1.2⟩
    · obtain ⟨pre, x, post, rfl, hm, hedge, hne, hpre, hbefore⟩ := ih h
      rw [List.mem_cons, not_or] at hbefore
      refine ⟨n :: pre, x, post, rfl, hm, hedge, hne, ?_, hbefore.2⟩
      rw [List.mem_cons, not_or]
      exact ⟨hbefore.1, hpre⟩

theorem BackIsRound.of_append {pre post : List String} (h : BackIsRound g (pre ++ post)) :
    BackIsRound g post := by
  induction pre with
  | nil => exact h
  | cons n pre ih =>
    cases h with
    | cons _ h => exact ih h

/-- A node that is named lies on a cycle. -/
theorem cyclic?_some (hg : g.IsDrawn) {m : String} (h : cyclic? g = some m) :
    Relation.TransGen g.Edge m m := by
  unfold cyclic? at h
  split at h
  · next n horder =>
    cases h
    cases hfold : g.nodes.foldlM (visit g (g.nodes.length + 1)) {} with
    | error e =>
      rw [order, hfold] at horder
      cases horder
      obtain ⟨w, n, -, hn⟩ := foldlM_eq_error hfold
      exact .single (visit_error _ _ _ _ hn)
    | ok w =>
      rw [order, hfold] at horder
      cases horder
  · next ns horder =>
    obtain ⟨hnodup, hround⟩ := order_round hg horder
    obtain ⟨pre, n, post, rfl, hm, hedge, hne, hpre, -⟩ := backEdge?_some h
    -- the source of the edge stands behind its target
    have hmem : m ∈ post := by
      have := (order_spec horder ((hg.sources m).mp hm)).1
      simpa [hpre, hne] using this
    obtain ⟨between, rest, rfl⟩ := List.append_of_mem hmem
    have hpost := hround.of_append
    rw [← List.cons_append] at hpost
    cases hpost.of_append with
    | cons hback _ =>
      have hcycle : Relation.ReflTransGen g.Edge n m := by
        refine (hback n hedge).resolve_left fun hn => ?_
        have := (List.nodup_cons.mp (List.nodup_append.mp hnodup).2.1).1
        exact this (by simp [hn])
      exact .head' hedge hcycle

/-- No cycle is found if and only if there is none. -/
theorem cyclic?_eq_none_iff (hg : g.IsDrawn) :
    cyclic? g = none ↔ ∀ n, ¬ Relation.TransGen g.Edge n n := by
  constructor
  · intro h n hcycle
    obtain ⟨rank, hrank⟩ := exists_rank (fun m hm => (hg.sources m).mpr hm) h
    have hn : n ∈ g.nodes := by
      obtain ⟨m, -, hedge⟩ := Relation.TransGen.tail'_iff.mp hcycle
      exact hg.targets m n hedge
    have hdown : ∀ m, Relation.TransGen g.Edge n m → rank m < rank n := by
      intro m hm
      induction hm with
      | single hedge => exact hrank n hn _ (hg.targets _ _ hedge) hedge
      | tail hpath hedge ih =>
        obtain ⟨x, -, hlast⟩ := Relation.TransGen.tail'_iff.mp hpath
        exact Nat.lt_trans (hrank _ (hg.targets _ _ hlast) _ (hg.targets _ _ hedge) hedge) ih
    exact absurd (hdown n hcycle) (Nat.lt_irrefl _)
  · intro h
    cases hfound : cyclic? g with
    | none => rfl
    | some n => exact absurd (cyclic?_some hg hfound) (h n)

end MetricLayer.Cycle
