import Mathlib.Data.List.Perm.Basic
import MetricLayer.Proofs.Schema.Graph

/-!
# The order of a schema's declarations

Tables, views and relationships may be declared in any order. A table is found by a name that no
other one has, so the order of the tables does not matter; and a best path is told by the names of
its tables, so the order of the relationships does not matter either, as long as no two of them join
the same tables. What changes is the numbers of the edges: `Trail.bare` and `Edge.bare` leave them out.

Results:
1. `SchemaDefinition.Reorders.fault?_eq_none`: in another order a definition is as good as before.
2. `Schema.table?_reordered`: a name stands for the same table.
3. `Schema.joinPath?_reordered`: two tables are joined by the same path.
-/

namespace MetricLayer

/-! ## Reordered definitions -/

namespace Relationship

/-- The relationships join the same two tables. -/
def JoinsLike (r r' : Relationship) : Prop :=
  (sameName r.fromTable r'.fromTable = true ∧ sameName r.toTable r'.toTable = true) ∨
    (sameName r.fromTable r'.toTable = true ∧ sameName r.toTable r'.fromTable = true)

instance (r r' : Relationship) : Decidable (r.JoinsLike r') :=
  inferInstanceAs (Decidable (_ ∨ _))

end Relationship

/-- A list with one element at most that satisfies a condition has it in any order. -/
theorem find?_perm {α : Type} {p : α → Bool} {xs ys : List α} (h : xs.Perm ys)
    (hp : ∀ x ∈ xs, ∀ y ∈ xs, p x = true → p y = true → x = y) : xs.find? p = ys.find? p := by
  cases hx : xs.find? p with
  | none =>
    rw [List.find?_eq_none] at hx
    exact (List.find?_eq_none.mpr fun y hy => hx y (h.mem_iff.mpr hy)).symm
  | some x =>
    have hpx := List.find?_some hx
    have hmem := List.mem_of_find?_eq_some hx
    obtain ⟨y, hy⟩ := Option.isSome_iff_exists.mp
      (List.find?_isSome.mpr ⟨x, h.mem_iff.mp hmem, hpx⟩)
    have hymem := h.mem_iff.mpr (List.mem_of_find?_eq_some hy)
    rw [hy, hp x hmem y hymem hpx (List.find?_some hy)]

namespace SchemaDefinition

/-- The same tables, views and relationships in another order. -/
structure Reorders (d d' : SchemaDefinition) : Prop where
  tables : d.tables.Perm d'.tables
  views : d.views.Perm d'.views
  relationships : d.relationships.Perm d'.relationships

/-- No two relationships join the same two tables. -/
def HasOneEach (d : SchemaDefinition) : Prop :=
  d.relationships.Pairwise fun r r' => ¬r.JoinsLike r'

instance (d : SchemaDefinition) : Decidable d.HasOneEach :=
  inferInstanceAs (Decidable (List.Pairwise _ _))

variable {d d' : SchemaDefinition}

/-- Where the lowercase forms differ, no name is repeated. -/
theorem firstRepeated?_of_nodup {seen names : List String} (hnodup : (names.map Text.lower).Nodup)
    (hseen : ∀ name ∈ names, Text.lower name ∉ seen) : firstRepeated? seen names = none := by
  induction names generalizing seen with
  | nil => rfl
  | cons name names ih =>
    obtain ⟨hname, hnames⟩ := List.nodup_cons.mp hnodup
    unfold firstRepeated?
    rw [if_neg (by simpa using hseen name List.mem_cons_self)]
    refine ih hnames fun other hother hin => ?_
    rcases List.mem_cons.mp hin with heq | hin
    · exact hname (heq ▸ List.mem_map_of_mem hother)
    · exact hseen other (List.mem_cons_of_mem _ hother) hin

theorem names_nodup (h : d.fault? = none) :
    (d.tables.map fun t => Text.lower t.name).Nodup ∧
      (d.views.map fun v => Text.lower v.name).Nodup := by
  rw [fault?, Option.or_eq_none_iff, Option.map_eq_none_iff] at h
  have hnodup := (firstRepeated?_eq_none h.1).1
  rw [List.map_append, List.map_map, List.map_map] at hnodup
  obtain ⟨htables, hviews, -⟩ := List.nodup_append.mp hnodup
  exact ⟨htables, hviews⟩

namespace Reorders

theorem table?_eq (h : d.Reorders d') (hd : d.fault? = none) (name : String) :
    d'.table? name = d.table? name := by
  refine (find?_perm h.tables fun t ht u hu hname hname' => ?_).symm
  refine List.inj_on_of_nodup_map (names_nodup hd).1 ht hu ?_
  rw [sameName_iff] at hname hname'
  exact hname.trans hname'.symm

/-- In another order a definition is as good as before. -/
theorem fault?_eq_none (h : d.Reorders d') (hd : d.fault? = none) : d'.fault? = none := by
  have htable : d'.table? = d.table? := funext (h.table?_eq hd)
  have hends : d'.relationshipFault? = d.relationshipFault? := by
    funext r
    simp only [relationshipFault?, endFault?, htable]
  have hsources : d'.viewFault? = d.viewFault? := by
    funext v
    simp only [viewFault?, column?, htable]
  simp only [fault?, Option.or_eq_none_iff, Option.map_eq_none_iff,
    List.findSome?_eq_none_iff] at hd ⊢
  obtain ⟨hnames, hrelationships, hviews⟩ := hd
  rw [hends, hsources]
  refine ⟨?_, fun r hr => hrelationships r (h.relationships.mem_iff.mpr hr),
    fun v hv => hviews v (h.views.mem_iff.mpr hv)⟩
  refine firstRepeated?_of_nodup ?_ fun _ _ => List.not_mem_nil
  have hperm := ((h.tables.map (·.name)).append (h.views.map (·.name))).map Text.lower
  exact hperm.nodup_iff.mp (firstRepeated?_eq_none hnames).1

end Reorders

end SchemaDefinition

/-! ## Edges without their numbers -/

/-- The edge without its place in the declaration. -/
def Edge.bare (e : Edge) : Edge := { e with index := 0 }

/-- The path without the place of its last edge. -/
def Trail.bare (t : Trail) : Trail := { t with edge := 0 }

/-- The table with the path to it, without the place of its last edge. -/
def Trail.bareEntry (x : String × Trail) : String × Trail := (x.1, x.2.bare)

namespace Trail

/-- What a trail is judged by before its last edge is. -/
def bareRank (rule : TieBreak) (t : Trail) : ℕᵒᵈ ×ₗ List String :=
  match rule with
  | .preferJoined => toLex (OrderDual.toDual t.joined, t.names)
  | .lexicographic => toLex (OrderDual.toDual 0, t.names)

theorem bareRank_le {rule : TieBreak} {t u : Trail} (h : t.rank rule ≤ u.rank rule) :
    t.bareRank rule ≤ u.bareRank rule := by
  cases rule <;>
    simp only [rank, bareRank, Prod.Lex.toLex_le_toLex, lt_self_iff_false, false_or,
      true_and] at h ⊢
  · exact h.imp_right fun hrest => ⟨hrest.1, hrest.2.elim le_of_lt fun h => h.1.le⟩
  · exact h.elim le_of_lt fun h => h.1.le

theorem bareRank_bare (rule : TieBreak) (t : Trail) : t.bare.bareRank rule = t.bareRank rule := by
  cases rule <;> rfl

theorem names_eq_of_bareRank {rule : TieBreak} {t u : Trail}
    (h : t.bareRank rule = u.bareRank rule) : t.names = u.names := by
  cases rule
  · exact (Prod.mk.inj (toLex.injective h)).2
  · exact (Prod.mk.inj (toLex.injective h)).2

/-- The best trail, the first one of equals. -/
def best? (rule : TieBreak) : List Trail → Option Trail
  | [] => none
  | t :: ts => some (ts.foldl (fun best t => if t.better rule best then t else best) t)

theorem best?_spec {rule : TieBreak} {ts : List Trail} {t : Trail} (h : best? rule ts = some t) :
    t ∈ ts ∧ ∀ u ∈ ts, t.rank rule ≤ u.rank rule := by
  cases ts with
  | nil => cases h
  | cons first rest =>
    rw [← Option.some.inj h]
    exact foldl_better rest first

/-- The best of the same trails is the same, if trails are told by the names of their tables. -/
theorem best?_bare {rule : TieBreak} {ts ts' : List Trail}
    (hperm : (ts.map bare).Perm (ts'.map bare))
    (htold : ∀ t ∈ ts, ∀ u ∈ ts, t.names = u.names → t.bare = u.bare) :
    (best? rule ts').map bare = (best? rule ts).map bare := by
  have hlength := hperm.length_eq
  rw [List.length_map, List.length_map] at hlength
  cases hbest : best? rule ts with
  | none =>
    cases ts with
    | cons first rest => cases hbest
    | nil => rw [List.length_eq_zero_iff.mp hlength.symm]; rfl
  | some b =>
    cases hbest' : best? rule ts' with
    | none =>
      cases ts' with
      | cons first rest => cases hbest'
      | nil => rw [List.length_eq_zero_iff.mp hlength] at hbest; cases hbest
    | some b' =>
      obtain ⟨hb, hle⟩ := best?_spec hbest
      obtain ⟨hb', hle'⟩ := best?_spec hbest'
      obtain ⟨t, ht, htb'⟩ := List.mem_map.mp (hperm.mem_iff.mpr (List.mem_map_of_mem hb'))
      obtain ⟨t', ht', htb⟩ := List.mem_map.mp (hperm.mem_iff.mp (List.mem_map_of_mem hb))
      have hrank : t.bareRank rule = b'.bareRank rule := by
        rw [← bareRank_bare, htb', bareRank_bare]
      have hrank' : t'.bareRank rule = b.bareRank rule := by
        rw [← bareRank_bare, htb, bareRank_bare]
      have hle : b.bareRank rule ≤ b'.bareRank rule := hrank ▸ bareRank_le (hle t ht)
      have hge : b'.bareRank rule ≤ b.bareRank rule := hrank' ▸ bareRank_le (hle' t' ht')
      have hnames : b.names = t.names :=
        names_eq_of_bareRank ((hle.antisymm hge).trans hrank.symm)
      exact congrArg some (htb'.symm.trans (htold b hb t ht hnames).symm)

end Trail

namespace Schema

variable {s s' : Schema}

/-- The schema has the same definition in another order. -/
def Reorders (s s' : Schema) : Prop := s.definition.Reorders s'.definition

theorem table?_reordered (h : s.Reorders s') : s'.table? = s.table? :=
  funext (SchemaDefinition.Reorders.table?_eq h s.sound)

theorem names_perm (h : s.Reorders s') :
    (s.tables.map (·.name)).Perm (s'.tables.map (·.name)) :=
  SchemaDefinition.Reorders.tables h |>.map _

theorem edges_bare (s : Schema) : s.edges.map Edge.bare = s.relationships.filterMap fun r =>
    match s.table? r.fromTable, s.table? r.toTable with
    | some t, some u => some ⟨0, t.name, u.name, r⟩
    | _, _ => none := by
  have hrelationships : s.relationships = s.relationships.zipIdx.map Prod.fst :=
    List.zipIdx_map_fst 0 _ |>.symm
  conv_rhs => rw [hrelationships, List.filterMap_map]
  unfold edges
  rw [List.map_filterMap]
  refine List.filterMap_congr fun ⟨r, i⟩ _ => ?_
  simp only [Function.comp]
  cases s.table? r.fromTable with
  | none => rfl
  | some t => cases s.table? r.toTable <;> rfl

theorem edges_perm (h : s.Reorders s') :
    (s.edges.map Edge.bare).Perm (s'.edges.map Edge.bare) := by
  rw [edges_bare, edges_bare, table?_reordered h]
  exact (SchemaDefinition.Reorders.relationships h).filterMap _

/-- Where no two relationships join the same tables, two tables have one edge at most. -/
theorem edge_unique (hone : s.definition.HasOneEach) {e e' : Edge} (he : e ∈ s.edges)
    (he' : e' ∈ s.edges) {a b : String} (hab : a ≠ b) (hleads : e.Leads a b)
    (hleads' : e'.Leads a b) : e = e' := by
  have hends : ∀ {e : Edge}, e ∈ s.edges →
      sameName e.source e.relationship.fromTable = true ∧
        sameName e.target e.relationship.toTable = true := by
    intro e he
    obtain ⟨-, t, u, ht, hu, hsource, htarget⟩ := mem_edges.mp he
    exact ⟨hsource ▸ (table?_spec ht).2, htarget ▸ (table?_spec hu).2⟩
  have hlike : ∀ {e e' : Edge}, e ∈ s.edges → e' ∈ s.edges → e.Leads a b → e'.Leads a b →
      e.relationship.JoinsLike e'.relationship := by
    intro e e' he he' hleads hleads'
    have hfrom := hends he
    have hfrom' := hends he'
    simp only [sameName_iff] at hfrom hfrom'
    simp only [Relationship.JoinsLike, sameName_iff, ← hfrom.1, ← hfrom.2, ← hfrom'.1, ← hfrom'.2]
    rcases (Edge.leads_iff hab).mp hleads with ⟨h1, h2⟩ | ⟨h1, h2⟩ <;>
      rcases (Edge.leads_iff hab).mp hleads' with ⟨h1', h2'⟩ | ⟨h1', h2'⟩ <;>
        simp [h1, h2, h1', h2']
  have hnotless : ∀ {e e' : Edge}, e ∈ s.edges → e' ∈ s.edges → e.Leads a b → e'.Leads a b →
      ¬e.index < e'.index := by
    intro e e' he he' hleads hleads' hlt
    obtain ⟨hi, hget⟩ := List.getElem?_eq_some_iff.mp (mem_edges.mp he).1
    obtain ⟨hi', hget'⟩ := List.getElem?_eq_some_iff.mp (mem_edges.mp he').1
    refine List.pairwise_iff_getElem.mp hone e.index e'.index hi hi' hlt ?_
    have hrelationships : s.definition.relationships = s.relationships := rfl
    simp only [hrelationships, hget, hget']
    exact hlike he he' hleads hleads'
  exact edge_eq_of_index he he' (Nat.le_antisymm
    (Nat.not_lt.mp (hnotless he' he hleads' hleads)) (Nat.not_lt.mp (hnotless he he' hleads hleads')))

/-! ## Layers -/

/-- The paths to the tables of a layer are told by the names on the way. -/
def Told (layer : Layer) : Prop := ∀ x ∈ layer, ∀ y ∈ layer, x.2.names = y.2.names → x = y

/-- The layers are the same up to order and the places of edges. -/
def SameLayer (layer layer' : Layer) : Prop :=
  (layer.map Trail.bareEntry).Perm (layer'.map Trail.bareEntry)

/-- The paths to a table that go on from a layer by one edge. -/
def trails (joined : String → Bool) (table : String) (edges : List Edge) (layer : Layer) :
    List Trail :=
  layer.flatMap fun (name, trail) =>
    (edges.filter fun e => e.touches name && e.other name = table).map fun e =>
      { joined := trail.joined + if joined table then 1 else 0
        names := trail.names ++ [table]
        edge := e.index
        steps := trail.steps ++ [e.stepFrom name] : Trail }

variable {rule : TieBreak} {joined : String → Bool} {layer layer' : Layer} {table : String}

theorem mem_trails {edges : List Edge} {t : Trail} :
    t ∈ trails joined table edges layer ↔ ∃ x ∈ layer, ∃ e ∈ edges, e.Leads x.1 table ∧
      t = ⟨x.2.joined + if joined table then 1 else 0, x.2.names ++ [table], e.index,
        x.2.steps ++ [e.stepFrom x.1]⟩ := by
  simp only [trails, List.mem_flatMap, List.mem_map, List.mem_filter, Bool.and_eq_true,
    decide_eq_true_eq, Edge.Leads, Prod.exists]
  grind

/-- Paths without the places of their last edges go along edges without their places. -/
theorem trails_bare (edges : List Edge) : (trails joined table edges layer).map Trail.bare =
    trails joined table (edges.map Edge.bare) (layer.map Trail.bareEntry) := by
  simp only [trails, List.map_flatMap, List.flatMap_map, List.filter_map, List.map_map]
  rfl

theorem extend?_eq : s.extend? rule joined layer table =
    Trail.best? rule (trails joined table s.edges layer) := by
  unfold extend?
  show (match trails joined table s.edges layer with | [] => none | t :: ts => _) = _
  cases trails joined table s.edges layer <;> rfl

/-- The names on the way to a table end with its own. -/
theorem extend?_names {t : Trail} (h : s.extend? rule joined layer table = some t) :
    ∃ names, t.names = names ++ [table] := by
  rw [extend?_eq] at h
  obtain ⟨x, -, e, -, -, rfl⟩ := mem_trails.mp (Trail.best?_spec h).1
  exact ⟨_, rfl⟩

/-- From the same layer, a further table is reached by the same path. -/
theorem extend?_bare (h : s.Reorders s') (hone : s.definition.HasOneEach)
    (hlayer : SameLayer layer layer') (htold : Told layer) (hnew : ∀ x ∈ layer, x.1 ≠ table) :
    (s'.extend? rule joined layer' table).map Trail.bare =
      (s.extend? rule joined layer table).map Trail.bare := by
  have hperm : ((trails joined table s.edges layer).map Trail.bare).Perm
      ((trails joined table s'.edges layer').map Trail.bare) := by
    rw [trails_bare, trails_bare]
    exact hlayer.flatMap fun x _ => ((edges_perm h).filter _).map _
  have hnames : ∀ t ∈ trails joined table s.edges layer, ∀ u ∈ trails joined table s.edges layer,
      t.names = u.names → t.bare = u.bare := by
    intro t ht u hu hnames
    obtain ⟨x, hx, e, he, hleads, rfl⟩ := mem_trails.mp ht
    obtain ⟨y, hy, e', he', hleads', rfl⟩ := mem_trails.mp hu
    obtain rfl := htold x hx y hy (List.append_cancel_right hnames)
    rw [edge_unique hone he he' (hnew x hx) hleads hleads']
  rw [extend?_eq, extend?_eq]
  exact Trail.best?_bare hperm hnames

/-! ## The search -/

theorem mem_nextLayer_names {reached : List String} {x : String × Trail}
    (hx : x ∈ s.nextLayer rule joined reached layer) : ∃ names, x.2.names = names ++ [x.1] :=
  extend?_names (mem_nextLayer hx).2

/-- The paths to the tables of the next layer are told by the names on the way, which end with that
of the table. -/
theorem told_nextLayer (reached : List String) : Told (s.nextLayer rule joined reached layer) := by
  intro x hx y hy hnames
  obtain ⟨names, hx'⟩ := mem_nextLayer_names hx
  obtain ⟨names', hy'⟩ := mem_nextLayer_names hy
  have htable : x.1 = y.1 := by
    rw [hx', hy'] at hnames
    exact (List.append_inj' hnames rfl).2 |> List.singleton_inj.mp
  have hpath := (mem_nextLayer hx).2
  rw [htable, (mem_nextLayer hy).2] at hpath
  exact Prod.ext htable (Option.some.inj hpath).symm

/-- The next layers are the same if the layers are and the tables that have been reached. -/
theorem sameLayer_nextLayer (h : s.Reorders s') (hone : s.definition.HasOneEach)
    {reached reached' : List String} (hreached : ∀ n, n ∈ reached' ↔ n ∈ reached)
    (hlayer : SameLayer layer layer') (htold : Told layer) (hin : ∀ x ∈ layer, x.1 ∈ reached) :
    SameLayer (s.nextLayer rule joined reached layer) (s'.nextLayer rule joined reached' layer') := by
  have hbare : ∀ (s : Schema) (reached : List String) (layer : Layer),
      (s.nextLayer rule joined reached layer).map Trail.bareEntry =
        ((s.tables.map (·.name)).filter (!reached.contains ·)).filterMap fun table =>
          ((s.extend? rule joined layer table).map Trail.bare).map (table, ·) := by
    intro s reached layer
    rw [nextLayer, List.map_filterMap]
    simp only [Option.map_map]
    rfl
  have hfilter : (fun n => !reached'.contains n) = fun n => !reached.contains n := by
    funext n
    simp only [List.contains_eq_mem, hreached]
  rw [SameLayer, hbare, hbare, hfilter]
  refine .trans ?_ (((names_perm h).filter _).filterMap _)
  rw [List.filterMap_congr fun table htable => ?_]
  have hnew : table ∉ reached := by simpa using (List.mem_filter.mp htable).2
  have hextend : (s'.extend? rule joined layer' table).map Trail.bare =
      (s.extend? rule joined layer table).map Trail.bare :=
    extend?_bare h hone hlayer htold fun x hx (heq : x.1 = table) => hnew (heq ▸ hin x hx)
  rw [hextend]

theorem lookup_nextLayer (reached : List String) (goal : String) :
    (s.nextLayer rule joined reached layer).lookup goal =
      if goal ∈ s.tables.map (·.name) ∧ goal ∉ reached then s.extend? rule joined layer goal
      else none := by
  split
  · next hgoal =>
    exact lookup_filterMap (List.mem_filter.mpr ⟨hgoal.1, by simpa using hgoal.2⟩)
  · next hgoal =>
    rw [List.lookup_eq_none_iff]
    intro x hx
    obtain ⟨table, htable, hx⟩ := List.mem_filterMap.mp hx
    obtain ⟨t, -, rfl⟩ := Option.map_eq_some_iff.mp hx
    obtain ⟨hmem, hnew⟩ := List.mem_filter.mp htable
    rw [bne_iff_ne]
    rintro rfl
    exact hgoal ⟨hmem, by simpa using hnew⟩

/-- From the same layer, the same path is found. -/
theorem search?_reordered (h : s.Reorders s') (hone : s.definition.HasOneEach) (goal : String)
    (depth : Nat) {reached reached' : List String} (hreached : ∀ n, n ∈ reached' ↔ n ∈ reached)
    (hlayer : SameLayer layer layer') (htold : Told layer) (hin : ∀ x ∈ layer, x.1 ∈ reached) :
    s'.search? rule joined goal depth reached' layer' =
      s.search? rule joined goal depth reached layer := by
  induction depth generalizing reached reached' layer layer' with
  | zero => rfl
  | succ depth ih =>
    have hnext : SameLayer (s.nextLayer rule joined reached layer)
        (s'.nextLayer rule joined reached' layer') :=
      sameLayer_nextLayer h hone hreached hlayer htold hin
    have hempty : (s'.nextLayer rule joined reached' layer').isEmpty =
        (s.nextLayer rule joined reached layer).isEmpty := by
      have hmap := hnext.isEmpty_eq
      rw [List.isEmpty_map, List.isEmpty_map] at hmap
      exact hmap.symm
    have hfound : ((s'.nextLayer rule joined reached' layer').lookup goal).map Trail.bare =
        ((s.nextLayer rule joined reached layer).lookup goal).map Trail.bare := by
      simp only [lookup_nextLayer, ← (names_perm h).mem_iff, hreached]
      split
      · next hgoal =>
        exact extend?_bare h hone hlayer htold fun x hx heq => hgoal.2 (heq ▸ hin x hx)
      · rfl
    have hnames : ∀ n, n ∈ (s'.nextLayer rule joined reached' layer').map (·.1) ↔
        n ∈ (s.nextLayer rule joined reached layer).map (·.1) := by
      intro n
      have hkeys := (hnext.map Prod.fst).mem_iff (a := n)
      rw [List.map_map, List.map_map] at hkeys
      exact hkeys.symm
    have hgrown : ∀ n, n ∈ reached' ++ (s'.nextLayer rule joined reached' layer').map (·.1) ↔
        n ∈ reached ++ (s.nextLayer rule joined reached layer).map (·.1) :=
      fun n => by rw [List.mem_append, List.mem_append, hreached, hnames]
    have hrest := ih hgrown hnext (told_nextLayer reached) fun x hx =>
      List.mem_append_right _ (List.mem_map_of_mem hx)
    unfold search?
    simp only [hempty, hrest]
    split
    · rfl
    · cases hs : (s.nextLayer rule joined reached layer).lookup goal with
      | none =>
        rw [hs, Option.map_none, Option.map_eq_none_iff] at hfound
        rw [hfound]
      | some t =>
        rw [hs, Option.map_some, Option.map_eq_some_iff] at hfound
        obtain ⟨t', ht', heq⟩ := hfound
        rw [ht']
        exact congrArg (fun t => some t.steps) heq

/-- Two tables are joined by the same path. -/
theorem joinPath?_reordered (h : s.Reorders s') (hone : s.definition.HasOneEach) (rule : TieBreak)
    (names : List String) (depth : Nat) (start goal : String) :
    s'.joinPath? rule names depth start goal = s.joinPath? rule names depth start goal := by
  unfold joinPath?
  rw [table?_reordered h]
  split
  · next t u ht hu =>
    split
    · rfl
    · refine search?_reordered h hone _ depth (fun _ => Iff.rfl) (.refl _) ?_ ?_
      · intro x hx y hy _
        rw [List.mem_singleton.mp hx, List.mem_singleton.mp hy]
      · exact List.forall_mem_singleton.mpr (List.mem_singleton_self _)
  · rfl

end Schema

end MetricLayer
