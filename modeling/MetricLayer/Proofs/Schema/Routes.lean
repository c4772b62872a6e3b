import Mathlib.Combinatorics.SimpleGraph.Metric
import MetricLayer.Proofs.Schema.Order

/-!
# Shortest routes

The tables of a schema are the nodes of a graph, in which those with a relationship between them are
adjacent. A route is a walk in this graph along first edges, and what a search finds is told by it:
the steps, the names on the way and how many of them are joined already.

Layer `n` of a search holds the tables at distance `n` from the start, each with the best of the
shortest routes to it (`IsLayer`). That a layer is followed by the next is the principle of
optimality. A shortest route goes on from a shortest route to the table before, and the better of two
routes of one length stays the better one when both go on to the same table.

Results:
1. `Schema.search?_spec`: a search finds a best route if the goal is in reach, and nothing otherwise.
2. `Schema.joinPath?_spec`: there is a path if and only if the distance is within the depth.
3. `Schema.joinPath?_best`: the path is made of the joins along a best route, and where its steps
   name the tables of this route.
-/

namespace MetricLayer

/-! ## Better sequences of tables -/

namespace TieBreak

variable {rule : TieBreak} {joined : String → Bool} {names names' names'' : List String}

/-- The first sequence of tables is at least as good as the second: it has more tables that are
joined already, if the rule looks at them, or else smaller names. -/
def Prefers (rule : TieBreak) (joined : String → Bool) (names names' : List String) : Prop :=
  match rule with
  | .preferJoined => names'.countP joined < names.countP joined ∨
      names.countP joined = names'.countP joined ∧ names ≤ names'
  | .lexicographic => names ≤ names'

theorem Prefers.trans (h : rule.Prefers joined names names')
    (h' : rule.Prefers joined names' names'') : rule.Prefers joined names names'' := by
  cases rule with
  | lexicographic => exact le_trans (α := List String) h h'
  | preferJoined =>
    rcases h with hlt | ⟨heq, hle⟩ <;> rcases h' with hlt' | ⟨heq', hle'⟩
    · exact .inl (hlt'.trans hlt)
    · exact .inl (heq' ▸ hlt)
    · exact .inl (heq ▸ hlt')
    · exact .inr ⟨heq.trans heq', hle.trans hle'⟩

/-- Sequences of one length stay in order when both are continued by the same table. -/
theorem concat_le_concat (hlength : names.length = names'.length) (h : names ≤ names')
    (table : String) : names ++ [table] ≤ names' ++ [table] := by
  induction names generalizing names' with
  | nil => rw [List.length_eq_zero_iff.mp hlength.symm]
  | cons a names ih =>
    cases names' with
    | nil => cases hlength
    | cons b names' =>
      rw [List.cons_append, List.cons_append]
      rcases h.eq_or_lt with heq | hlt
      · rw [(List.cons.inj heq).1, (List.cons.inj heq).2]
      · rcases List.cons_lt_cons_iff.mp hlt with hab | ⟨rfl, hrest⟩
        · exact (List.cons_lt_cons_iff.mpr (.inl hab)).le
        · exact List.cons_le_cons a (ih (Nat.succ.inj hlength) hrest.le)

/-- The better of two sequences of one length stays the better one. -/
theorem Prefers.concat (hlength : names.length = names'.length)
    (h : rule.Prefers joined names names') (table : String) :
    rule.Prefers joined (names ++ [table]) (names' ++ [table]) := by
  cases rule with
  | lexicographic => exact concat_le_concat hlength h table
  | preferJoined =>
    simp only [Prefers, List.countP_append, Nat.add_lt_add_iff_right, Nat.add_right_cancel_iff]
    exact h.imp_right fun ⟨heq, hle⟩ => ⟨heq, concat_le_concat hlength hle table⟩

end TieBreak

namespace Schema

variable {s : Schema}

/-! ## Distances -/

/-- The graph of the tables: two of them are adjacent if there is a relationship between them. -/
def graph (s : Schema) : SimpleGraph String where
  Adj a b := a ≠ b ∧ ∃ e ∈ s.edges, e.Leads a b
  symm := ⟨fun _ _ ⟨hab, e, he, hleads⟩ => ⟨hab.symm, e, he, hleads.symm hab⟩⟩
  loopless := ⟨fun _ h => h.1 rfl⟩

theorem FirstEdge.adj {e : Edge} {a b : String} (h : s.FirstEdge e a b) : s.graph.Adj a b :=
  ⟨h.differ, e, h.mem, h.leads⟩

theorem exists_firstEdge {a b : String} (h : s.graph.Adj a b) : ∃ e, s.FirstEdge e a b := by
  obtain ⟨hab, e, he, hleads⟩ := h
  obtain ⟨first, ⟨hmem, hfirst⟩, hmin⟩ := (measure Edge.index).wf.has_min
    {e | e ∈ s.edges ∧ e.Leads a b} ⟨e, he, hleads⟩
  exact ⟨first, hmem, hfirst, hab, fun e' he' hleads' => Nat.not_lt.mp (hmin e' ⟨he', hleads'⟩)⟩

/-- A node with an edge is a table. -/
theorem FirstEdge.mem_names {e : Edge} {a b : String} (h : s.FirstEdge e a b) :
    b ∈ s.tables.map (·.name) := by
  obtain ⟨-, t, u, ht, hu, hsource, htarget⟩ := mem_edges.mp h.mem
  rcases (Edge.leads_iff h.differ).mp h.leads with ⟨-, hb⟩ | ⟨hb, -⟩
  · exact List.mem_map.mpr ⟨u, (table?_spec hu).1, htarget.trans hb⟩
  · exact List.mem_map.mpr ⟨t, (table?_spec ht).1, hsource.trans hb⟩

/-- A join between two tables along an edge. -/
structure Hop where
  edge : Edge
  source : String
  target : String

/-- The join as a step of a path. -/
def Hop.step (h : Hop) : JoinStep := h.edge.stepFrom h.source

/-- The hops lead from one table to another along first edges. -/
inductive Route (s : Schema) (start : String) : List Hop → String → Prop
  | nil : Route s start [] start
  | concat {hops : List Hop} {h : Hop} : Route s start hops h.source →
      s.FirstEdge h.edge h.source h.target → Route s start (hops ++ [h]) h.target

variable {start goal : String} {hops : List Hop}

theorem Route.edist_le (h : s.Route start hops goal) : s.graph.edist start goal ≤ hops.length := by
  suffices ∃ w : s.graph.Walk start goal, w.length = hops.length by
    obtain ⟨w, hw⟩ := this
    exact hw ▸ SimpleGraph.edist_le w
  induction h with
  | nil => exact ⟨.nil, rfl⟩
  | concat _ hfirst ih =>
    obtain ⟨w, hw⟩ := ih
    exact ⟨w.concat hfirst.adj, by simp [hw]⟩

/-- Every walk in the graph is along some route. -/
theorem exists_route (w : s.graph.Walk start goal) :
    ∃ hops, s.Route start hops goal ∧ hops.length = w.length := by
  induction w using SimpleGraph.Walk.concatRec with
  | Hnil => exact ⟨[], .nil, rfl⟩
  | Hconcat w hadj ih =>
    obtain ⟨hops, hroute, hlength⟩ := ih
    obtain ⟨e, he⟩ := exists_firstEdge hadj
    exact ⟨hops ++ [⟨e, _, _⟩], .concat hroute he, by simp [hlength]⟩

/-- Where a distance is finite, there is a route as long as it. -/
theorem exists_shortest {n : ℕ} (h : s.graph.edist start goal = n) :
    ∃ hops, s.Route start hops goal ∧ hops.length = n := by
  obtain ⟨w, hw⟩ := SimpleGraph.exists_walk_of_edist_eq_coe h
  obtain ⟨hops, hroute, hlength⟩ := exists_route w
  exact ⟨hops, hroute, hlength.trans hw⟩

/-- Adjacent tables differ by one in their distance at most. -/
theorem edist_succ_le {a b : String} (h : s.graph.Adj a b) {n : ℕ}
    (ha : s.graph.edist start a ≤ n) : s.graph.edist start b ≤ (n + 1 : ℕ) :=
  calc s.graph.edist start b
    _ ≤ s.graph.edist start a + s.graph.edist a b := SimpleGraph.edist_triangle
    _ ≤ n + 1 := add_le_add ha (SimpleGraph.edist_eq_one_iff_adj.mpr h).le
    _ = (n + 1 : ℕ) := by push_cast; rfl

/-- The table before the end of a shortest route is one join nearer. -/
theorem Route.edist_source {h : Hop} {n : ℕ} (hroute : s.Route start hops h.source)
    (hfirst : s.FirstEdge h.edge h.source h.target) (hlength : hops.length = n)
    (hgoal : s.graph.edist start h.target = (n + 1 : ℕ)) :
    s.graph.edist start h.source = n := by
  refine le_antisymm (hlength ▸ hroute.edist_le) (not_lt.mp fun hlt => ?_)
  obtain ⟨m, hm⟩ := ENat.ne_top_iff_exists.mp hlt.ne_top
  rw [← hm, Nat.cast_lt] at hlt
  have hnear := edist_succ_le hfirst.adj hm.ge
  rw [hgoal, Nat.cast_le] at hnear
  omega

/-! ## Layers -/

/-- The route is the best of the shortest ones between two tables. -/
structure BestRoute (s : Schema) (rule : TieBreak) (joined : String → Bool) (start : String)
    (hops : List Hop) (goal : String) : Prop where
  route : s.Route start hops goal
  shortest : (hops.length : ℕ∞) = s.graph.edist start goal
  best : ∀ others, s.Route start others goal → others.length = hops.length →
    rule.Prefers joined (hops.map (·.target)) (others.map (·.target))

/-- What the search knows of a route. -/
def trailOf (joined : String → Bool) (hops : List Hop) (edge : ℕ) : Trail :=
  ⟨(hops.map (·.target)).countP joined, hops.map (·.target), edge, hops.map Hop.step⟩

theorem trailOf_concat {joined : String → Bool} {hops : List Hop} {hop : Hop} (edge : ℕ)
    {edge' : ℕ} : trailOf joined (hops ++ [hop]) edge' =
      ⟨(trailOf joined hops edge).joined + if joined hop.target then 1 else 0,
        (trailOf joined hops edge).names ++ [hop.target], edge',
        (trailOf joined hops edge).steps ++ [hop.step]⟩ := by
  simp [trailOf, List.countP_append, List.countP_singleton]

/-- The better trail is that of the better route. -/
theorem prefers_of_rank {rule : TieBreak} {joined : String → Bool} {hops hops' : List Hop}
    {edge edge' : ℕ}
    (h : (trailOf joined hops edge).rank rule ≤ (trailOf joined hops' edge').rank rule) :
    rule.Prefers joined (hops.map (·.target)) (hops'.map (·.target)) := by
  have hle := Trail.bareRank_le h
  cases rule with
  | preferJoined =>
    simp only [Trail.bareRank, Prod.Lex.toLex_le_toLex, OrderDual.toDual_lt_toDual,
      OrderDual.toDual_inj] at hle
    exact hle
  | lexicographic =>
    simp only [Trail.bareRank, Prod.Lex.toLex_le_toLex, lt_self_iff_false, true_and,
      false_or] at hle
    exact hle

/-- The layer holds the tables at distance `n` from the start with the best routes to them, when the
tables up to there have been reached. -/
structure IsLayer (s : Schema) (rule : TieBreak) (joined : String → Bool) (start : String) (n : ℕ)
    (reached : List String) (layer : Layer) : Prop where
  reached_iff : ∀ a, a ∈ reached ↔ s.graph.edist start a ≤ n
  exists_iff : ∀ a, (∃ trail, (a, trail) ∈ layer) ↔ s.graph.edist start a = n
  best : ∀ x ∈ layer, ∃ hops edge, s.BestRoute rule joined start hops x.1 ∧
    x.2 = trailOf joined hops edge

variable {rule : TieBreak} {joined : String → Bool} {n : ℕ} {reached : List String} {layer : Layer}

theorem bestRoute_nil : s.BestRoute rule joined start [] start where
  route := .nil
  shortest := by simp
  best others _ hlength := by
    rw [List.length_eq_zero_iff.mp hlength]
    cases rule <;> simp [TieBreak.Prefers]

/-- The search begins with the start. -/
theorem isLayer_start : s.IsLayer rule joined start 0 [start] [(start, .start)] where
  reached_iff a := by simp [eq_comm (a := a)]
  exists_iff a := by simp [eq_comm (a := a)]
  best := List.forall_mem_singleton.mpr ⟨[], 0, bestRoute_nil, rfl⟩

/-- The best continuation of the best trails of a layer is the best trail to a table behind it. -/
theorem IsLayer.extend?_best (h : s.IsLayer rule joined start n reached layer) {table : String}
    (htable : s.graph.edist start table = (n + 1 : ℕ)) {t : Trail}
    (ht : s.extend? rule joined layer table = some t) :
    ∃ hops edge, s.BestRoute rule joined start hops table ∧ t = trailOf joined hops edge := by
  have hnear : ∀ x ∈ layer, s.graph.edist start x.1 = n := fun x hx =>
    (h.exists_iff x.1).mp ⟨x.2, hx⟩
  have hnew : ∀ x ∈ layer, x.1 ≠ table := by
    rintro x hx rfl
    have hn := hnear x hx
    rw [htable, Nat.cast_inj] at hn
    omega
  obtain ⟨x, hx, e, hfirst, heq⟩ := extend?_spec hnew ht
  obtain ⟨hops, edge, hprevious, htrail⟩ := h.best x hx
  have hlength : hops.length = n := Nat.cast_inj.mp (hprevious.shortest.trans (hnear x hx))
  have ht' : t = trailOf joined (hops ++ [⟨e, x.1, table⟩]) e.index := by
    rw [heq, htrail, trailOf_concat edge]
    rfl
  refine ⟨_, _, ⟨.concat hprevious.route hfirst, ?_, fun others hothers hsame => ?_⟩, ht'⟩
  · rw [htable, List.length_append, hlength]
    rfl
  · rw [List.length_append, hlength] at hsame
    cases hothers with
    | nil => cases hsame
    | @concat before hop hbefore hlast =>
      -- the other route is no better than the one over the best route to the table before
      have hbeforeLength : before.length = n := by simpa using hsame
      obtain ⟨y, hy⟩ :=
        (h.exists_iff hop.source).mpr (hbefore.edist_source hlast hbeforeLength htable)
      obtain ⟨hops', edge', hbest', rfl⟩ := h.best _ hy
      have hlength' : hops'.length = n :=
        Nat.cast_inj.mp (hbest'.shortest.trans (hnear _ hy))
      have hover : rule.Prefers joined ((hops' ++ [hop]).map (·.target))
          ((before ++ [hop]).map (·.target)) := by
        rw [List.map_append, List.map_append]
        refine (hbest'.best before hbefore (by rw [hlength', hbeforeLength])).concat ?_ hop.target
        rw [List.length_map, List.length_map, hlength', hbeforeLength]
      have hchosen : t.rank rule ≤ (trailOf joined (hops' ++ [hop]) hop.edge.index).rank rule := by
        rw [extend?_eq] at ht
        refine (Trail.best?_spec ht).2 _ <|
          mem_trails.mpr ⟨_, hy, hop.edge, hlast.mem, hlast.leads, ?_⟩
        exact trailOf_concat edge' ..
      rw [ht'] at hchosen
      exact (prefers_of_rank hchosen).trans hover

theorem mem_nextLayer_iff {x : String × Trail} :
    x ∈ s.nextLayer rule joined reached layer ↔ x.1 ∈ s.tables.map (·.name) ∧ x.1 ∉ reached ∧
      s.extend? rule joined layer x.1 = some x.2 := by
  constructor
  · intro h
    obtain ⟨table, htable, hx⟩ := List.mem_filterMap.mp h
    obtain ⟨t, ht, rfl⟩ := Option.map_eq_some_iff.mp hx
    obtain ⟨hmem, hnew⟩ := List.mem_filter.mp htable
    exact ⟨hmem, by simpa using hnew, ht⟩
  · rintro ⟨hmem, hnew, ht⟩
    refine List.mem_filterMap.mpr ⟨x.1, List.mem_filter.mpr ⟨hmem, by simpa using hnew⟩, ?_⟩
    rw [ht]
    rfl

/-- A table that is one join farther than a layer is in the next. -/
theorem IsLayer.exists_next (h : s.IsLayer rule joined start n reached layer) {a : String}
    (ha : s.graph.edist start a = (n + 1 : ℕ)) :
    ∃ trail, (a, trail) ∈ s.nextLayer rule joined reached layer := by
  obtain ⟨hops, hroute, hlength⟩ := exists_shortest ha
  cases hroute with
  | nil => cases hlength
  | @concat before hop hbefore hlast =>
    obtain ⟨trail, htrail⟩ := (h.exists_iff hop.source).mpr
      (hbefore.edist_source hlast (by simpa using hlength) ha)
    have hmem : _ ∈ trails joined hop.target s.edges layer :=
      mem_trails.mpr ⟨_, htrail, hop.edge, hlast.mem, hlast.leads, rfl⟩
    obtain ⟨best, hbest⟩ : ∃ best, s.extend? rule joined layer hop.target = some best := by
      rw [extend?_eq]
      cases htrails : trails joined hop.target s.edges layer with
      | nil => rw [htrails] at hmem; cases hmem
      | cons t ts => exact ⟨_, rfl⟩
    refine ⟨best, mem_nextLayer_iff.mpr ⟨hlast.mem_names, fun hreached => ?_, hbest⟩⟩
    have hle := (h.reached_iff hop.target).mp hreached
    rw [ha, Nat.cast_le] at hle
    omega

theorem le_succ_iff {x : ℕ∞} : x ≤ (n + 1 : ℕ) ↔ x ≤ n ∨ x = (n + 1 : ℕ) := by
  rw [le_iff_lt_or_eq, Nat.cast_succ, ENat.lt_natCast_add_one_iff]

/-- A layer is followed by the next one. -/
theorem IsLayer.next (h : s.IsLayer rule joined start n reached layer) :
    s.IsLayer rule joined start (n + 1)
      (reached ++ (s.nextLayer rule joined reached layer).map (·.1))
      (s.nextLayer rule joined reached layer) := by
  have hfar : ∀ x ∈ s.nextLayer rule joined reached layer,
      s.graph.edist start x.1 = (n + 1 : ℕ) := by
    intro x hx
    obtain ⟨-, hnew, hextend⟩ := mem_nextLayer_iff.mp hx
    have hin : ∀ y ∈ layer, s.graph.edist start y.1 ≤ n := fun y hy =>
      ((h.exists_iff y.1).mp ⟨y.2, hy⟩).le
    obtain ⟨y, hy, e, hfirst, -⟩ := extend?_spec
      (fun y hy (heq : y.1 = x.1) => hnew ((h.reached_iff x.1).mpr (heq ▸ hin y hy))) hextend
    exact (le_succ_iff.mp (edist_succ_le hfirst.adj (hin y hy))).resolve_left
      fun hle => hnew ((h.reached_iff x.1).mpr hle)
  refine ⟨fun a => ?_, fun a => ⟨fun ⟨trail, ha⟩ => hfar _ ha, h.exists_next⟩, fun x hx => ?_⟩
  · rw [List.mem_append, h.reached_iff, le_succ_iff, List.mem_map]
    refine or_congr_right ⟨?_, fun ha => ?_⟩
    · rintro ⟨x, hx, rfl⟩
      exact hfar x hx
    · obtain ⟨trail, htrail⟩ := h.exists_next ha
      exact ⟨_, htrail, rfl⟩
  · exact h.extend?_best (hfar x hx) (mem_nextLayer_iff.mp hx).2.2

/-- Behind an empty layer there is nothing. -/
theorem Route.edist_le_of_gap {a : String} (hgap : ∀ b, s.graph.edist start b ≠ (n + 1 : ℕ))
    (h : s.Route start hops a) : s.graph.edist start a ≤ n := by
  induction h with
  | nil => simp
  | concat _ hfirst ih =>
    exact (le_succ_iff.mp (edist_succ_le hfirst.adj ih)).resolve_right (hgap _)

/-! ## Searches -/

/-- A search finds a best route if the goal is in reach, and nothing otherwise. -/
theorem search?_spec (depth : ℕ) (h : s.IsLayer rule joined start n reached layer)
    (hgoal : ¬s.graph.edist start goal ≤ n) :
    ((s.search? rule joined goal depth reached layer).isSome ↔
        s.graph.edist start goal ≤ (n + depth : ℕ)) ∧
      ∀ path, s.search? rule joined goal depth reached layer = some path →
        ∃ hops, s.BestRoute rule joined start hops goal ∧ path = hops.map Hop.step := by
  induction depth generalizing n reached layer with
  | zero => exact ⟨by simpa [search?] using hgoal, fun path h => by cases h⟩
  | succ depth ih =>
    have hnext := h.next
    unfold search?
    simp only
    split
    · next hempty =>
      have hgap : ∀ b, s.graph.edist start b ≠ (n + 1 : ℕ) := by
        intro b hb
        obtain ⟨trail, htrail⟩ := h.exists_next hb
        rw [List.isEmpty_iff.mp hempty] at htrail
        cases htrail
      refine ⟨⟨Bool.noConfusion, fun hle => (hgoal ?_).elim⟩, fun path h => by cases h⟩
      obtain ⟨m, hm⟩ := ENat.ne_top_iff_exists.mp (hle.trans_lt (ENat.natCast_lt_top _)).ne
      obtain ⟨hops, hroute, -⟩ := exists_shortest hm.symm
      exact hroute.edist_le_of_gap hgap
    · split
      · next trail hfound =>
        obtain ⟨before, after, hlayer, -⟩ := List.lookup_eq_some_iff.mp hfound
        have hmem : (goal, trail) ∈ s.nextLayer rule joined reached layer :=
          hlayer ▸ List.mem_append_right _ List.mem_cons_self
        have hdistance := (hnext.exists_iff goal).mp ⟨trail, hmem⟩
        refine ⟨⟨fun _ => ?_, fun _ => rfl⟩, fun path hpath => ?_⟩
        · rw [hdistance, Nat.cast_le]
          omega
        · obtain ⟨hops, edge, hbest, rfl⟩ := hnext.best _ hmem
          exact ⟨hops, hbest, (Option.some.inj hpath).symm⟩
      · next hnone =>
        have hstill : ¬s.graph.edist start goal ≤ (n + 1 : ℕ) := by
          rw [le_succ_iff, not_or]
          refine ⟨hgoal, fun heq => ?_⟩
          obtain ⟨trail, htrail⟩ := h.exists_next heq
          have hkey := List.lookup_eq_none_iff.mp hnone _ htrail
          simp at hkey
        rw [show n + (depth + 1) = n + 1 + depth by omega]
        exact ih hnext hstill

/-- A path between tables is made of the joins along a best route, and there is one if and only if
the tables are within the depth of each other. -/
theorem joinPath?_spec {t u : Table} (ht : s.table? start = some t) (hu : s.table? goal = some u)
    (rule : TieBreak) (names : List String) (depth : ℕ) :
    ((s.joinPath? rule names depth start goal).isSome ↔
        s.graph.edist t.name u.name ≤ depth) ∧
      ∀ path, s.joinPath? rule names depth start goal = some path →
        ∃ hops, s.BestRoute rule (fun name => names.any (Text.eqIgnoringAsciiCase · name))
          t.name hops u.name ∧ path = hops.map Hop.step := by
  unfold joinPath?
  simp only [ht, hu]
  split
  · next heq =>
    rw [heq]
    refine ⟨by simp, fun path hpath => ⟨[], bestRoute_nil, (Option.some.inj hpath).symm⟩⟩
  · next hne =>
    have hstart : ¬s.graph.edist t.name u.name ≤ (0 : ℕ) := by simpa using hne
    simpa only [Nat.zero_add] using search?_spec depth isLayer_start hstart

/-- Every path is found along a best route between the tables that its ends name. -/
theorem joinPath?_route {names : List String} {depth : ℕ} {path : List JoinStep}
    (h : s.joinPath? rule names depth start goal = some path) :
    ∃ t u hops, s.table? start = some t ∧ s.table? goal = some u ∧
      s.BestRoute rule (fun name => names.any (Text.eqIgnoringAsciiCase · name))
        t.name hops u.name ∧
      path = hops.map Hop.step := by
  have hknown := h
  unfold joinPath? at hknown
  split at hknown
  · next t u ht hu =>
    obtain ⟨hops, hbest, hpath⟩ := (joinPath?_spec ht hu rule names depth).2 path h
    exact ⟨t, u, hops, ht, hu, hbest, hpath⟩
  · cases hknown

/-! ## Where the steps lead -/

theorem Route.firstEdge (h : s.Route start hops goal) :
    ∀ hop ∈ hops, s.FirstEdge hop.edge hop.source hop.target := by
  induction h with
  | nil => exact nofun
  | concat _ hfirst ih =>
    exact List.forall_mem_append.mpr ⟨ih, List.forall_mem_singleton.mpr hfirst⟩

/-- The declared name of the table that a step leads to. -/
def leadsTo? (s : Schema) (step : JoinStep) : Option String := (s.table? step.toTable).map (·.name)

/-- The direction of the hop is told by the spelling: a relationship that is walked forwards is
written like the table it is walked from, but for the case of ASCII letters. -/
def Hop.IsTold (h : Hop) : Prop :=
  h.edge.source = h.source →
    Text.eqIgnoringAsciiCase h.edge.relationship.fromTable h.source = true

/-- The step of a hop begins and ends like the hop where its direction is told, and the other way
round where it is not. -/
theorem Hop.step_ends {h : Hop} (hfirst : s.FirstEdge h.edge h.source h.target) :
    (h.IsTold → sameName h.step.fromTable h.source = true ∧
        sameName h.step.toTable h.target = true) ∧
      (¬h.IsTold → sameName h.step.fromTable h.target = true ∧
        sameName h.step.toTable h.source = true) := by
  obtain ⟨-, t, u, ht, hu, hsource, htarget⟩ := mem_edges.mp hfirst.mem
  have hfrom : sameName h.edge.relationship.fromTable h.edge.source = true :=
    hsource ▸ sameName_symm (table?_spec ht).2
  have hto : sameName h.edge.relationship.toTable h.edge.target = true :=
    htarget ▸ sameName_symm (table?_spec hu).2
  rcases (Edge.leads_iff hfirst.differ).mp hfirst.leads with ⟨hs, hg⟩ | ⟨hs, hg⟩
  · -- forwards: only the spelling can keep the relationship as it is
    unfold Hop.step Edge.stepFrom Hop.IsTold
    simp only [hs, hg, forall_const] at hfrom hto ⊢
    refine ⟨fun htold => ?_, fun huntold => ?_⟩
    · rw [if_pos htold]
      exact ⟨hfrom, hto⟩
    · rw [if_neg huntold]
      exact ⟨hto, hfrom⟩
  · -- backwards: the direction is told whatever the spelling
    have hdiffer : h.edge.source ≠ h.edge.target := by
      rw [hs, hg]
      exact hfirst.differ.symm
    have htold : h.IsTold := fun heq => (hdiffer (heq.trans hg.symm)).elim
    have hstep : h.step = h.edge.relationship.reverse := by
      rw [Hop.step, ← hg, stepFrom_target hfirst.mem hdiffer]
    rw [hstep, ← hs, ← hg]
    exact ⟨fun _ => ⟨hto, hfrom⟩, fun hnot => (hnot htold).elim⟩

theorem leadsTo?_of_sameName {step : JoinStep} {name : String}
    (hname : name ∈ s.tables.map (·.name)) (h : sameName step.toTable name = true) :
    s.leadsTo? step = some name := by
  obtain ⟨t, ht, rfl⟩ := List.mem_map.mp hname
  rw [leadsTo?, table?_of_sameName ht (sameName_symm h), Option.map_some]

/-- A step leads to the table behind it where its direction is told, and back where it is not. -/
theorem Hop.leadsTo?_step {h : Hop} (hfirst : s.FirstEdge h.edge h.source h.target) :
    (h.IsTold → s.leadsTo? h.step = some h.target) ∧
      (¬h.IsTold → s.leadsTo? h.step = some h.source) := by
  obtain ⟨htold, huntold⟩ := h.step_ends hfirst
  exact ⟨fun h => leadsTo?_of_sameName hfirst.mem_names (htold h).2,
    fun h => leadsTo?_of_sameName hfirst.symm.mem_names (huntold h).2⟩

/-- Between two tables within the depth there is a path, of as many joins as their distance. It is
made along the best of the shortest routes, over the first relationship from each table to the next,
and its steps name the tables of the route if and only if the direction of each hop is told by the
spelling of its relationship. -/
theorem joinPath?_best {t u : Table} (ht : s.table? start = some t) (hu : s.table? goal = some u)
    (rule : TieBreak) (names : List String) (depth : ℕ) :
    ((s.joinPath? rule names depth start goal).isSome ↔
        s.graph.edist t.name u.name ≤ depth) ∧
      ∀ path, s.joinPath? rule names depth start goal = some path →
        ∃ hops, s.BestRoute rule (fun name => names.any (Text.eqIgnoringAsciiCase · name))
            t.name hops u.name ∧
          path = hops.map Hop.step ∧
            (path.map s.leadsTo? = hops.map (fun h => some h.target) ↔ ∀ h ∈ hops, h.IsTold) := by
  obtain ⟨hsome, hpath⟩ := joinPath?_spec ht hu rule names depth
  refine ⟨hsome, fun path h => ?_⟩
  obtain ⟨hops, hbest, rfl⟩ := hpath path h
  refine ⟨hops, hbest, rfl, ?_⟩
  rw [List.map_map, List.map_inj_left]
  refine forall₂_congr fun hop hmem => ?_
  have hfirst := hbest.route.firstEdge hop hmem
  obtain ⟨htold, huntold⟩ := Hop.leadsTo?_step hfirst
  refine ⟨fun hleads => ?_, htold⟩
  by_contra hnot
  rw [Function.comp_apply, huntold hnot] at hleads
  exact hfirst.differ (Option.some.inj hleads)

end Schema

namespace Teams

/-- The teams. -/
def teams : Table := { name := "Équipe", columns := [⟨"Id", .integer, true, true, false⟩] }

/-- The players. -/
def players : Table := { name := "Joueur", columns := [⟨"Équipe", .integer, true, false, false⟩] }

/-- Teams have players, and the relationship writes the first letter of the teams small. -/
def schema : Schema where
  definition :=
    { tables := [teams, players]
      relationships := [⟨"équipe", "Id", "Joueur", "Équipe", .oneToMany⟩] }
  sound := by decide +kernel

/-- The path from the teams to the players is found, and its only step leads back. -/
theorem joinPath?_best_back : schema.table? "Équipe" = some teams ∧
    schema.table? "Joueur" = some players ∧ schema.graph.edist "Équipe" "Joueur" ≤ 1 ∧
      ∃ hops, schema.BestRoute .lexicographic (fun _ => false) "Équipe" hops "Joueur" ∧
        [⟨"Joueur", "Équipe", "équipe", "Id", .manyToOne⟩] = hops.map Schema.Hop.step ∧
          ([some "Équipe"] = hops.map (fun h => some h.target) ↔ ∀ h ∈ hops, h.IsTold) := by
  have hteams : schema.table? "Équipe" = some teams := by decide +kernel
  have hplayers : schema.table? "Joueur" = some players := by decide +kernel
  obtain ⟨hsome, hpath⟩ := Schema.joinPath?_best hteams hplayers .lexicographic [] 1
  have hfound : schema.joinPath? .lexicographic [] 1 "Équipe" "Joueur" =
      some [⟨"Joueur", "Équipe", "équipe", "Id", .manyToOne⟩] := by decide +kernel
  have hback : [⟨"Joueur", "Équipe", "équipe", "Id", .manyToOne⟩].map schema.leadsTo? =
      [some "Équipe"] := by decide +kernel
  refine ⟨hteams, hplayers, hsome.mp (by rw [hfound]; rfl), ?_⟩
  rw [← hback]
  exact hpath _ hfound

end Teams

end MetricLayer
