import Mathlib.Data.List.Lex
import Mathlib.Data.Prod.Lex
import Mathlib.Data.String.Basic
import MetricLayer.Proofs.Schema.Names
import MetricLayer.Schema.Graph

/-!
# What join paths are made of

A join path is a walk: it begins at one table, every step goes on from the table that the step
before has reached, and it ends at the goal. Of parallel relationships, which connect the same two
tables, a path only ever takes the first, because the tie break looks at the place in the
declaration last.

The names in a step are those of the relationship as it was written, so the walk is one through the
names of the schema if relationships are written like the tables they mean.

Results:
1. `Schema.joinPath?_walk`: a join path is a walk along first edges.
2. `Schema.exists_joinPath?`: tables with an edge between them have a path of one step.
3. `Schema.Walk.follows`: where the relationships that joins are made along are spelled as declared,
   the steps follow each other by name.
-/

namespace MetricLayer

/-! ## The order of trails -/

namespace Trail

/-- What a trail is judged by: the tables that are joined already, if the rule looks at them, then
the names on the way and the last edge. -/
def rank (rule : TieBreak) (t : Trail) : ℕᵒᵈ ×ₗ List String ×ₗ ℕ :=
  match rule with
  | .preferJoined => toLex (OrderDual.toDual t.joined, toLex (t.names, t.edge))
  | .lexicographic => toLex (OrderDual.toDual 0, toLex (t.names, t.edge))

theorem better_iff {rule : TieBreak} {a b : Trail} :
    a.better rule b = true ↔ a.rank rule < b.rank rule := by
  cases rule <;>
    simp [better, rank, Prod.Lex.toLex_lt_toLex]

/-- The better of two trails, the first one if none is better. -/
theorem foldl_better {rule : TieBreak} (ts : List Trail) (t : Trail) :
    ts.foldl (fun best t => if t.better rule best then t else best) t ∈ t :: ts ∧
      ∀ x ∈ t :: ts,
        (ts.foldl (fun best t => if t.better rule best then t else best) t).rank rule ≤
          x.rank rule := by
  induction ts generalizing t with
  | nil => simp
  | cons u ts ih =>
    rw [List.foldl_cons]
    obtain ⟨hmem, hle⟩ := ih (if u.better rule t then u else t)
    have hfirst := hle _ List.mem_cons_self
    refine ⟨?_, ?_⟩
    · rcases List.mem_cons.mp hmem with h | h
      · rw [h]
        split <;> simp
      · exact List.mem_cons_of_mem _ (List.mem_cons_of_mem _ h)
    · have hboth : ((if u.better rule t then u else t).rank rule ≤ t.rank rule) ∧
          (if u.better rule t then u else t).rank rule ≤ u.rank rule := by
        split
        · next h => exact ⟨(better_iff.mp h).le, le_rfl⟩
        · next h => exact ⟨le_rfl, not_lt.mp fun hlt => h (better_iff.mpr hlt)⟩
      intro x hx
      rcases List.mem_cons.mp hx with rfl | hx
      · exact hfirst.trans hboth.1
      · rcases List.mem_cons.mp hx with rfl | hx
        · exact hfirst.trans hboth.2
        · exact hle x (List.mem_cons_of_mem _ hx)

end Trail

/-! ## Edges -/

namespace Edge

/-- The edge leads from one table to another. -/
def Leads (e : Edge) (a b : String) : Prop := e.touches a = true ∧ e.other a = b

theorem leads_iff {e : Edge} {a b : String} (hab : a ≠ b) :
    e.Leads a b ↔ (e.source = a ∧ e.target = b) ∨ (e.source = b ∧ e.target = a) := by
  unfold Leads touches other
  simp only [Bool.or_eq_true, decide_eq_true_eq]
  by_cases ha : e.source = a
  · simp only [ha, if_pos, true_or, true_and, hab, false_and, or_false]
  · simp only [ha, if_false, false_or, false_and]
    exact and_comm

theorem Leads.symm {e : Edge} {a b : String} (hab : a ≠ b) (h : e.Leads a b) : e.Leads b a :=
  (leads_iff hab.symm).mpr ((leads_iff hab).mp h).symm

end Edge

namespace Schema

variable {s : Schema}

theorem mem_edges {e : Edge} :
    e ∈ s.edges ↔ s.relationships[e.index]? = some e.relationship ∧
      ∃ t u, s.table? e.relationship.fromTable = some t ∧
        s.table? e.relationship.toTable = some u ∧ t.name = e.source ∧ u.name = e.target := by
  unfold edges
  rw [List.mem_filterMap]
  constructor
  · rintro ⟨⟨r, i⟩, hr, he⟩
    have hr := List.mem_zipIdx_iff_getElem?.mp hr
    simp only at he
    split at he
    · next t u ht hu =>
      cases he
      exact ⟨hr, t, u, ht, hu, rfl, rfl⟩
    · cases he
  · rintro ⟨hr, t, u, ht, hu, hsource, htarget⟩
    refine ⟨(e.relationship, e.index), List.mem_zipIdx_iff_getElem?.mpr hr, ?_⟩
    simp only [ht, hu, hsource, htarget]

/-- The edge is the first of those that connect two different tables. -/
structure FirstEdge (s : Schema) (e : Edge) (a b : String) : Prop where
  mem : e ∈ s.edges
  leads : e.Leads a b
  differ : a ≠ b
  first : ∀ e' ∈ s.edges, e'.Leads a b → e.index ≤ e'.index

theorem FirstEdge.symm {e : Edge} {a b : String} (h : s.FirstEdge e a b) : s.FirstEdge e b a :=
  ⟨h.mem, h.leads.symm h.differ, h.differ.symm,
    fun e' he' hleads => h.first e' he' (hleads.symm h.differ.symm)⟩

/-- An edge is told by its place in the declaration. -/
theorem edge_eq_of_index {e e' : Edge} (he : e ∈ s.edges) (he' : e' ∈ s.edges)
    (hindex : e.index = e'.index) : e = e' := by
  obtain ⟨hr, t, u, ht, hu, hsource, htarget⟩ := mem_edges.mp he
  obtain ⟨hr', t', u', ht', hu', hsource', htarget'⟩ := mem_edges.mp he'
  have hrelationship : e.relationship = e'.relationship := by
    rw [hindex, hr'] at hr
    exact (Option.some.inj hr).symm
  rw [hrelationship] at ht hu
  obtain rfl := Option.some.inj (ht.symm.trans ht')
  obtain rfl := Option.some.inj (hu.symm.trans hu')
  obtain ⟨index, source, target, relationship⟩ := e
  obtain ⟨index', source', target', relationship'⟩ := e'
  simp only at hindex hrelationship hsource htarget hsource' htarget'
  rw [hindex, hrelationship, ← hsource, ← hsource', ← htarget, ← htarget']

/-- Two tables have one first edge. -/
theorem FirstEdge.unique {e e' : Edge} {a b : String} (h : s.FirstEdge e a b)
    (h' : s.FirstEdge e' a b) : e = e' :=
  edge_eq_of_index h.mem h'.mem
    (Nat.le_antisymm (h.first e' h'.mem h'.leads) (h'.first e h.mem h.leads))

/-! ## Walks -/

/-- The steps lead from one table to another along first edges. -/
inductive Walk (s : Schema) (start : String) : List JoinStep → String → Prop
  | nil : Walk s start [] start
  | concat {path : List JoinStep} {a b : String} {e : Edge} : Walk s start path a →
      s.FirstEdge e a b → Walk s start (path ++ [e.stepFrom a]) b

/-- The best of the paths to a further table goes on along a first edge. -/
theorem extend?_spec {rule : TieBreak} {joined : String → Bool} {layer : Layer} {table : String}
    (hnew : ∀ x ∈ layer, x.1 ≠ table) {t : Trail}
    (h : s.extend? rule joined layer table = some t) :
    ∃ x ∈ layer, ∃ e, s.FirstEdge e x.1 table ∧
      t = ⟨x.2.joined + if joined table then 1 else 0, x.2.names ++ [table], e.index,
        x.2.steps ++ [e.stepFrom x.1]⟩ := by
  unfold extend? at h
  simp only at h
  split at h
  · cases h
  · next first rest htrails =>
    obtain ⟨hmem, hbest⟩ := Trail.foldl_better rest first
    rw [Option.some.inj h, ← htrails] at hmem hbest
    obtain ⟨x, hx, hmem⟩ := List.mem_flatMap.mp hmem
    obtain ⟨e, he, ht⟩ := List.mem_map.mp hmem
    obtain ⟨he, hleads⟩ := List.mem_filter.mp he
    have hleads : e.Leads x.1 table := by simpa [Edge.Leads] using hleads
    refine ⟨x, hx, e, ⟨he, hleads, hnew x hx, fun e' he' hleads' => ?_⟩, ht.symm⟩
    -- the trail along a parallel edge differs in that edge only
    have hparallel := hbest _ (List.mem_flatMap.mpr ⟨x, hx, List.mem_map.mpr
      ⟨e', List.mem_filter.mpr ⟨he', by simpa [Edge.Leads] using hleads'⟩, rfl⟩⟩)
    rw [← ht] at hparallel
    cases rule <;> simpa [Trail.rank, Prod.Lex.toLex_le_toLex] using hparallel

theorem mem_nextLayer {rule : TieBreak} {joined : String → Bool} {reached : List String}
    {layer : Layer} {x : String × Trail} (h : x ∈ s.nextLayer rule joined reached layer) :
    x.1 ∉ reached ∧ s.extend? rule joined layer x.1 = some x.2 := by
  obtain ⟨table, htable, hx⟩ := List.mem_filterMap.mp h
  obtain ⟨t, ht, rfl⟩ := Option.map_eq_some_iff.mp hx
  exact ⟨by simpa using (List.mem_filter.mp htable).2, ht⟩

/-- A path that is found is a walk. -/
theorem search?_walk {rule : TieBreak} {joined : String → Bool} {start goal : String} (depth : Nat)
    {reached : List String} {layer : Layer} {path : List JoinStep}
    (hreached : ∀ x ∈ layer, x.1 ∈ reached) (hwalk : ∀ x ∈ layer, s.Walk start x.2.steps x.1)
    (h : s.search? rule joined goal depth reached layer = some path) : s.Walk start path goal := by
  induction depth generalizing reached layer with
  | zero => cases h
  | succ depth ih =>
    have hnext : ∀ x ∈ s.nextLayer rule joined reached layer, s.Walk start x.2.steps x.1 := by
      intro x hx
      obtain ⟨hnew, hextend⟩ := mem_nextLayer hx
      obtain ⟨y, hy, e, hfirst, hsteps⟩ := extend?_spec
        (fun y hy (heq : y.1 = x.1) => hnew (heq ▸ hreached y hy)) hextend
      rw [hsteps]
      exact (hwalk y hy).concat hfirst
    unfold search? at h
    simp only at h
    split at h
    · cases h
    · split at h
      · next trail hfound =>
        cases h
        obtain ⟨before, after, hlayer, -⟩ := List.lookup_eq_some_iff.mp hfound
        exact hnext (goal, trail) (hlayer ▸ List.mem_append_right _ List.mem_cons_self)
      · refine ih (fun x hx => ?_) hnext h
        exact List.mem_append_right _ (List.mem_map_of_mem hx)

/-- A join path is a walk. -/
theorem joinPath?_walk {rule : TieBreak} {joined : List String} {depth : Nat} {t u : Table}
    (ht : t ∈ s.tables) (hu : u ∈ s.tables) {path : List JoinStep}
    (h : s.joinPath? rule joined depth t.name u.name = some path) : s.Walk t.name path u.name := by
  unfold joinPath? at h
  simp only [table?_of_mem ht, table?_of_mem hu] at h
  split at h
  · next heq =>
    cases h
    rw [← heq]
    exact .nil
  · refine search?_walk depth ?_ ?_ h
    · exact List.forall_mem_singleton.mpr (List.mem_singleton_self _)
    · exact List.forall_mem_singleton.mpr .nil

theorem lookup_filterMap {α β : Type} [BEq α] [LawfulBEq α] {f : α → Option β} {xs : List α} {k : α}
    (hk : k ∈ xs) : (xs.filterMap fun x => (f x).map (x, ·)).lookup k = f k := by
  cases hf : f k with
  | none =>
    rw [List.lookup_eq_none_iff]
    intro p hp
    obtain ⟨x, -, hx⟩ := List.mem_filterMap.mp hp
    obtain ⟨y, hy, rfl⟩ := Option.map_eq_some_iff.mp hx
    rw [bne_iff_ne]
    rintro rfl
    rw [hf] at hy
    cases hy
  | some y =>
    induction xs with
    | nil => cases hk
    | cons x xs ih =>
      by_cases hkx : k = x
      · subst hkx
        simp [hf]
      · have hrest := ih ((List.mem_cons.mp hk).resolve_left hkx)
        have hne : (k == x) = false := beq_eq_false_iff_ne.mpr hkx
        rw [List.filterMap_cons]
        cases f x with
        | none => exact hrest
        | some z => simpa [List.lookup_cons, hne] using hrest

/-- Tables with an edge between them have a path of one step. -/
theorem exists_joinPath? {rule : TieBreak} {joined : List String} {depth : Nat} {t u : Table}
    (ht : t ∈ s.tables) (hu : u ∈ s.tables) {e : Edge} (he : s.FirstEdge e t.name u.name) :
    s.joinPath? rule joined (depth + 1) t.name u.name = some [e.stepFrom t.name] := by
  unfold joinPath?
  simp only [table?_of_mem ht, table?_of_mem hu, if_neg he.differ]
  unfold search?
  generalize hjoined : (fun name => joined.any (Text.eqIgnoringAsciiCase · name)) = isJoined
  have hlookup : (s.nextLayer rule isJoined [t.name] [(t.name, .start)]).lookup u.name =
      s.extend? rule isJoined [(t.name, .start)] u.name := by
    refine lookup_filterMap (List.mem_filter.mpr ⟨List.mem_map_of_mem hu, ?_⟩)
    simpa using he.differ.symm
  have hsome : ∃ trail, s.extend? rule isJoined [(t.name, .start)] u.name = some trail := by
    unfold extend?
    simp only
    split
    · next hnone =>
      have hmem : e ∈ s.edges.filter fun e => e.touches t.name && e.other t.name = u.name :=
        List.mem_filter.mpr ⟨he.mem, by simpa [Edge.Leads] using he.leads⟩
      simp only [List.flatMap_singleton, List.map_eq_nil_iff] at hnone
      rw [hnone] at hmem
      cases hmem
    · exact ⟨_, rfl⟩
  obtain ⟨trail, htrail⟩ := hsome
  obtain ⟨x, hx, e', hfirst, hsteps⟩ := extend?_spec
    (fun x hx => by rw [List.mem_singleton.mp hx]; exact he.differ) htrail
  obtain rfl := List.mem_singleton.mp hx
  obtain rfl := he.unique hfirst
  rw [htrail] at hlookup
  simp only [hlookup, hsteps]
  split
  · next hempty =>
    rw [List.isEmpty_iff.mp hempty] at hlookup
    cases hlookup
  · rfl

/-! ## Spelling -/

/-- Both ends of the relationship are written as the schema declares them. -/
def IsSpelled (s : Schema) (r : Relationship) : Prop :=
  s.Declares ⟨r.fromTable, r.fromColumn⟩ ∧ s.Declares ⟨r.toTable, r.toColumn⟩

/-- Joins are made along the relationship: it is the first one between two different tables. -/
def JoinsAlong (s : Schema) (r : Relationship) : Prop :=
  ∃ e a b, s.FirstEdge e a b ∧ e.relationship = r

theorem stepFrom_eq_or (e : Edge) (a : String) :
    e.stepFrom a = e.relationship ∨ e.stepFrom a = e.relationship.reverse := by
  unfold Edge.stepFrom
  split
  · exact .inl rfl
  · exact .inr rfl

theorem isSpelled_reverse {r : Relationship} : s.IsSpelled r.reverse ↔ s.IsSpelled r := and_comm

theorem isSpelled_stepFrom {e : Edge} {a : String} :
    s.IsSpelled (e.stepFrom a) ↔ s.IsSpelled e.relationship := by
  rcases stepFrom_eq_or e a with h | h
  · rw [h]
  · rw [h, isSpelled_reverse]

/-- From its second table an edge is walked backwards: the names of two tables differ in more than
letter case, so the relationship is not written like that table. -/
theorem stepFrom_target {e : Edge} (he : e ∈ s.edges) (hdiffer : e.source ≠ e.target) :
    e.stepFrom e.target = e.relationship.reverse := by
  obtain ⟨-, t, u, ht, hu, hsource, htarget⟩ := mem_edges.mp he
  unfold Edge.stepFrom
  rw [if_neg]
  intro hsame
  rw [← htarget] at hsame
  have hname := sameName_trans (table?_spec ht).2 (sameName_of_ascii hsame)
  have heq := table_eq (table?_spec ht).1 (table?_spec hu).1 hname
  exact hdiffer (hsource.symm.trans (heq ▸ htarget))

/-- A first edge that is spelled as declared is walked from the one table to the other. -/
theorem FirstEdge.stepFrom_spec {e : Edge} {a b : String} (h : s.FirstEdge e a b)
    (hspelled : s.IsSpelled e.relationship) :
    (e.stepFrom a).fromTable = a ∧ (e.stepFrom a).toTable = b := by
  obtain ⟨-, t, u, ht, hu, hsource, htarget⟩ := mem_edges.mp h.mem
  have hfrom : e.relationship.fromTable = e.source := by
    obtain ⟨t', -, hname, hfound⟩ := hspelled.1.table?_eq
    obtain rfl := Option.some.inj (ht.symm.trans hfound)
    exact hname.symm.trans hsource
  have hto : e.relationship.toTable = e.target := by
    obtain ⟨u', -, hname, hfound⟩ := hspelled.2.table?_eq
    obtain rfl := Option.some.inj (hu.symm.trans hfound)
    exact hname.symm.trans htarget
  obtain ⟨rfl, rfl⟩ | ⟨rfl, rfl⟩ := (Edge.leads_iff h.differ).mp h.leads
  · unfold Edge.stepFrom
    rw [hfrom, if_pos (Text.eqIgnoringAsciiCase_refl e.source)]
    exact ⟨hfrom, hto⟩
  · rw [stepFrom_target h.mem h.differ.symm]
    exact ⟨hto, hfrom⟩

/-- Each step begins where the one before has ended. -/
def Follows (start : String) : List JoinStep → Prop
  | [] => True
  | step :: steps => step.fromTable = start ∧ Follows step.toTable steps

/-- Where the steps end. -/
def endOf (start : String) (steps : List JoinStep) : String :=
  steps.foldl (fun _ step => step.toTable) start

theorem endOf_concat (start : String) (steps : List JoinStep) (step : JoinStep) :
    endOf start (steps ++ [step]) = step.toTable := by
  simp [endOf]

theorem follows_concat {start : String} {steps : List JoinStep} {step : JoinStep} :
    Follows start (steps ++ [step]) ↔ Follows start steps ∧ step.fromTable = endOf start steps := by
  induction steps generalizing start with
  | nil => simp [Follows, endOf]
  | cons first steps ih =>
    rw [List.cons_append, Follows, Follows, ih, and_assoc]
    rfl

/-- The step is a relationship of the schema, in one of its directions, along which joins are
made. -/
def IsStep (s : Schema) (step : JoinStep) : Prop :=
  ∃ r ∈ s.relationships, s.JoinsAlong r ∧ (step = r ∨ step = r.reverse)

theorem FirstEdge.isStep {e : Edge} {a b : String} (h : s.FirstEdge e a b) (c : String) :
    s.IsStep (e.stepFrom c) :=
  ⟨e.relationship, List.mem_of_getElem? (mem_edges.mp h.mem).1, ⟨e, a, b, h, rfl⟩,
    stepFrom_eq_or e c⟩

theorem Walk.isStep {start goal : String} {path : List JoinStep} (h : s.Walk start path goal) :
    ∀ step ∈ path, s.IsStep step := by
  induction h with
  | nil => exact nofun
  | concat _ hfirst ih =>
    exact List.forall_mem_append.mpr ⟨ih, List.forall_mem_singleton.mpr (hfirst.isStep _)⟩

/-- Where the relationships that joins are made along are spelled as declared, the steps of a walk
follow each other by name. -/
theorem Walk.follows (hspelled : ∀ r, s.JoinsAlong r → s.IsSpelled r) {start goal : String}
    {path : List JoinStep} (h : s.Walk start path goal) :
    Follows start path ∧ endOf start path = goal := by
  induction h with
  | nil => exact ⟨trivial, rfl⟩
  | concat _ hfirst ih =>
    obtain ⟨hfrom, hto⟩ := hfirst.stepFrom_spec (hspelled _ ⟨_, _, _, hfirst, rfl⟩)
    rw [follows_concat, endOf_concat, ih.2]
    exact ⟨⟨ih.1, hfrom⟩, hto⟩

end Schema

end MetricLayer
