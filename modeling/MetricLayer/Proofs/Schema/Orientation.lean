import MetricLayer.Proofs.Schema.Routes

/-!
# The orientation of join steps

A relationship can be walked from either of its tables, and a step is the relationship itself or its
reverse. Either way it pairs each table with its own column. Which of the two is made depends on
letters: a search knows the tables of an edge, but the step is turned by comparing names, and only
the case of ASCII letters does not count there. So a relationship that is written with another case
of some other letter is always walked backwards, and a path that should go forwards over it is no
chain. `Edge.IsTold` says that this does not happen.

Results:
1. `Schema.Route.chains_iff`: the steps along a route are a chain if and only if every hop is told.
2. `Schema.chains_all_iff`: all paths of a schema are chains if and only if every relationship that
   joins are made along is told.
3. `Schema.joinPath?_oriented`: what every path is made of, when it is a chain, and when the paths
   between two adjacent tables are mirror images.
-/

namespace MetricLayer

/-- The relationship is written like the table that it begins at, but for the case of ASCII
letters. -/
def Edge.IsTold (e : Edge) : Prop :=
  Text.eqIgnoringAsciiCase e.relationship.fromTable e.source = true

/-! ## Chains -/

/-- The first step begins at the start, every other step at the table that the one before has
reached, and the last one reaches the goal, in whatever letter case the tables are written. -/
def Chains (start : String) : List JoinStep → String → Prop
  | [], goal => sameName start goal = true
  | step :: steps, goal => sameName start step.fromTable = true ∧ Chains step.toTable steps goal

namespace Chains

variable {start goal goal' : String} {steps : List JoinStep} {step : JoinStep}

theorem congr (h : sameName goal goal' = true) :
    Chains start steps goal ↔ Chains start steps goal' := by
  induction steps generalizing start with
  | nil => exact ⟨fun h' => sameName_trans h' h, fun h' => sameName_trans h' (sameName_symm h)⟩
  | cons step steps ih => exact and_congr_right fun _ => ih

theorem concat : Chains start (steps ++ [step]) goal ↔
    Chains start steps step.fromTable ∧ sameName step.toTable goal = true := by
  induction steps generalizing start with
  | nil => exact Iff.rfl
  | cons first steps ih => rw [List.cons_append, Chains, Chains, ih, and_assoc]

end Chains

namespace Schema

variable {s : Schema} {start goal : String} {hops : List Hop}

/-! ## Told hops -/

theorem Hop.isTold_iff {h : Hop} : h.IsTold ↔ (h.edge.source = h.source → h.edge.IsTold) :=
  forall_congr' fun heq => by rw [Edge.IsTold, heq]

theorem FirstEdge.not_sameName {e : Edge} {a b : String} (h : s.FirstEdge e a b) :
    ¬sameName a b = true := by
  intro hsame
  obtain ⟨t, ht, rfl⟩ := List.mem_map.mp h.symm.mem_names
  obtain ⟨u, hu, rfl⟩ := List.mem_map.mp h.mem_names
  exact h.differ (congrArg Table.name (table_eq ht hu hsame))

/-- The steps along a route are a chain if and only if the direction of every hop is told. -/
theorem Route.chains_iff (h : s.Route start hops goal) :
    Chains start (hops.map Hop.step) goal ↔ ∀ hop ∈ hops, hop.IsTold := by
  induction h with
  | nil => exact ⟨fun _ => List.forall_mem_nil _, fun _ => sameName_iff.mpr rfl⟩
  | @concat before hop hbefore hfirst ih =>
    obtain ⟨htold, huntold⟩ := hop.step_ends hfirst
    rw [List.map_append, List.map_singleton, Chains.concat, List.forall_mem_append,
      List.forall_mem_singleton, ← ih]
    constructor
    · rintro ⟨hchain, hend⟩
      have hhop : hop.IsTold := by
        by_contra hnot
        exact hfirst.not_sameName (sameName_trans (sameName_symm (huntold hnot).2) hend)
      exact ⟨(Chains.congr (htold hhop).1).mp hchain, hhop⟩
    · rintro ⟨hchain, hhop⟩
      exact ⟨(Chains.congr (htold hhop).1).mpr hchain, (htold hhop).2⟩

/-! ## Paths -/

/-- A path depends on the tables that its ends name and not on how they are written. -/
theorem joinPath?_names {t u : Table} (ht : s.table? start = some t) (hu : s.table? goal = some u)
    (rule : TieBreak) (joined : List String) (depth : ℕ) :
    s.joinPath? rule joined depth start goal = s.joinPath? rule joined depth t.name u.name := by
  unfold joinPath?
  rw [ht, hu, table?_of_mem (table?_spec ht).1, table?_of_mem (table?_spec hu).1]

/-- A chain is one between the declared names as well. -/
theorem chains_names {t u : Table} (ht : s.table? start = some t) (hu : s.table? goal = some u)
    {steps : List JoinStep} : Chains start steps goal ↔ Chains t.name steps u.name := by
  have hstart := (table?_spec ht).2
  rw [← Chains.congr (table?_spec hu).2]
  cases steps with
  | nil => exact ⟨sameName_trans hstart, sameName_trans (sameName_symm hstart)⟩
  | cons step steps =>
    exact and_congr_left fun _ =>
      ⟨sameName_trans hstart, sameName_trans (sameName_symm hstart)⟩

theorem exists_table_of_firstEdge {e : Edge} {a b : String} (h : s.FirstEdge e a b) :
    ∃ t ∈ s.tables, ∃ u ∈ s.tables, t.name = a ∧ u.name = b := by
  obtain ⟨t, ht, hname⟩ := List.mem_map.mp h.symm.mem_names
  obtain ⟨u, hu, hname'⟩ := List.mem_map.mp h.mem_names
  exact ⟨t, ht, u, hu, hname, hname'⟩

/-- All paths of a schema are chains if and only if every relationship that joins are made along is
written like the table it begins at, but for the case of ASCII letters. -/
theorem chains_all_iff (s : Schema) :
    (∀ rule joined depth start goal path,
        s.joinPath? rule joined depth start goal = some path → Chains start path goal) ↔
      ∀ e a b, s.FirstEdge e a b → e.IsTold := by
  constructor
  · intro hall
    -- the path of one step from the first table of the edge
    have hforwards : ∀ e, s.FirstEdge e e.source e.target → e.IsTold := by
      intro e h
      obtain ⟨t, ht, u, hu, hsource, htarget⟩ := exists_table_of_firstEdge h
      have hpath : s.joinPath? .lexicographic [] (0 + 1) e.source e.target =
          some [e.stepFrom e.source] := by
        rw [← hsource, ← htarget] at h ⊢
        exact exists_joinPath? ht hu h
      have hroute : s.Route e.source [⟨e, e.source, e.target⟩] e.target :=
        .concat (h := ⟨e, e.source, e.target⟩) .nil h
      have hchain : Chains e.source ([⟨e, e.source, e.target⟩].map Hop.step) e.target :=
        hall _ _ _ _ _ _ hpath
      have htold : Hop.IsTold ⟨e, e.source, e.target⟩ :=
        hroute.chains_iff.mp hchain _ (List.mem_singleton_self _)
      exact htold rfl
    intro e a b h
    rcases (Edge.leads_iff h.differ).mp h.leads with ⟨rfl, rfl⟩ | ⟨rfl, rfl⟩
    · exact hforwards e h
    · exact hforwards e h.symm
  · intro htold rule joined depth start goal path hpath
    obtain ⟨t, u, hops, ht, hu, hbest, rfl⟩ := joinPath?_route hpath
    refine (chains_names ht hu).mpr (hbest.route.chains_iff.mpr fun hop hmem => ?_)
    exact Hop.isTold_iff.mpr fun _ => htold _ _ _ (hbest.route.firstEdge hop hmem)

/-! ## Mirror images -/

theorem reverse_ne {e : Edge} (he : e ∈ s.edges) (hdiffer : e.source ≠ e.target) :
    e.relationship.reverse ≠ e.relationship := by
  intro heq
  obtain ⟨-, t, u, ht, hu, hsource, htarget⟩ := mem_edges.mp he
  have hnames : e.relationship.toTable = e.relationship.fromTable :=
    congrArg Relationship.fromTable heq
  rw [hnames, ht] at hu
  have hname : t.name = u.name := congrArg Table.name (Option.some.inj hu)
  exact hdiffer (hsource.symm.trans (hname.trans htarget))

/-- From its first table an edge is walked forwards if and only if it is told. -/
theorem stepFrom_source_iff {e : Edge} (he : e ∈ s.edges) (hdiffer : e.source ≠ e.target) :
    e.stepFrom e.source = e.relationship ↔ e.IsTold := by
  unfold Edge.stepFrom Edge.IsTold
  split
  · next htold => exact iff_of_true rfl htold
  · next huntold => exact iff_of_false (reverse_ne he hdiffer) huntold

/-- The two steps along an edge are mirror images if and only if the edge is told. -/
theorem FirstEdge.mirror_iff {e : Edge} {a b : String} (h : s.FirstEdge e a b) :
    e.stepFrom b = (e.stepFrom a).reverse ↔ e.IsTold := by
  rcases (Edge.leads_iff h.differ).mp h.leads with ⟨rfl, rfl⟩ | ⟨rfl, rfl⟩
  · rw [stepFrom_target h.mem h.differ, ← stepFrom_source_iff h.mem h.differ]
    constructor
    · intro heq
      rw [← Relationship.reverse_reverse (e.stepFrom e.source), ← heq,
        Relationship.reverse_reverse]
    · intro heq
      rw [heq]
  · rw [stepFrom_target h.mem h.differ.symm, Relationship.reverse_reverse,
      stepFrom_source_iff h.mem h.differ.symm]

/-- Every path is made of declared relationships, each in one of its directions, along a route
between the tables that its ends name. It is a chain from the one end to the other if and only if
every hop of the route is told. Between adjacent tables the paths of one step, there and back, are
walked along the same relationship, and one is the mirror image of the other if and only if this
relationship is told. -/
theorem joinPath?_oriented (s : Schema) (start goal : String) :
    (∀ rule joined depth path, s.joinPath? rule joined depth start goal = some path →
      (∀ step ∈ path, s.IsStep step) ∧
        ∃ t u hops, s.table? start = some t ∧ s.table? goal = some u ∧
          s.Route t.name hops u.name ∧ path = hops.map Hop.step ∧
            (Chains start path goal ↔ ∀ hop ∈ hops, hop.IsTold)) ∧
      ∀ t u, s.table? start = some t → s.table? goal = some u → s.graph.Adj t.name u.name →
        ∃ e, s.FirstEdge e t.name u.name ∧ ∃ there back,
          (∀ rule joined depth,
            s.joinPath? rule joined (depth + 1) start goal = some [there] ∧
              s.joinPath? rule joined (depth + 1) goal start = some [back]) ∧
          (there = e.relationship ∨ there = e.relationship.reverse) ∧
          (back = there.reverse ↔ e.IsTold) := by
  refine ⟨fun rule joined depth path hpath => ?_, fun t u ht hu hadj => ?_⟩
  · obtain ⟨t, u, hops, ht, hu, hbest, rfl⟩ := joinPath?_route hpath
    refine ⟨fun step hstep => ?_, t, u, hops, ht, hu, hbest.route, rfl, ?_⟩
    · obtain ⟨hop, hmem, rfl⟩ := List.mem_map.mp hstep
      exact (hbest.route.firstEdge hop hmem).isStep hop.source
    · exact (chains_names ht hu).trans hbest.route.chains_iff
  · obtain ⟨e, he⟩ := exists_firstEdge hadj
    have htm := (table?_spec ht).1
    have hum := (table?_spec hu).1
    refine ⟨e, he, e.stepFrom t.name, e.stepFrom u.name, fun rule joined depth => ⟨?_, ?_⟩,
      stepFrom_eq_or e t.name, he.mirror_iff⟩
    · exact (joinPath?_names ht hu ..).trans (exists_joinPath? htm hum he)
    · exact (joinPath?_names hu ht ..).trans (exists_joinPath? hum htm he.symm)

end Schema

namespace Teams

/-- The step from the players to their team. -/
def toTeam : JoinStep := ⟨"Joueur", "Équipe", "équipe", "Id", .manyToOne⟩

/-- From the teams to the players and back there is the same step, since the relationship writes the
first letter of the teams small. -/
theorem joinPath?_oriented_toTeam :
    schema.joinPath? .lexicographic [] 1 "Équipe" "Joueur" = some [toTeam] ∧
      schema.joinPath? .lexicographic [] 1 "Joueur" "Équipe" = some [toTeam] ∧
      (∀ step ∈ [toTeam], schema.IsStep step) ∧
      (∃ hops, schema.Route "Équipe" hops "Joueur" ∧ [toTeam] = hops.map Schema.Hop.step ∧
        ¬∀ hop ∈ hops, hop.IsTold) ∧
      ∃ e, schema.FirstEdge e "Équipe" "Joueur" ∧ ¬e.IsTold := by
  have hteams : schema.table? "Équipe" = some teams := by decide +kernel
  have hplayers : schema.table? "Joueur" = some players := by decide +kernel
  have hforth : schema.joinPath? .lexicographic [] 1 "Équipe" "Joueur" = some [toTeam] := by
    decide +kernel
  have hback : schema.joinPath? .lexicographic [] 1 "Joueur" "Équipe" = some [toTeam] := by
    decide +kernel
  have hadj : schema.graph.Adj "Équipe" "Joueur" :=
    ⟨by decide, ⟨0, "Équipe", "Joueur", ⟨"équipe", "Id", "Joueur", "Équipe", .oneToMany⟩⟩,
      by decide +kernel, by decide, by decide⟩
  have hchain : ¬Chains "Équipe" [toTeam] "Joueur" := by
    rintro ⟨hstart, -⟩
    revert hstart
    decide +kernel
  obtain ⟨hpaths, hmirror⟩ := Schema.joinPath?_oriented schema "Équipe" "Joueur"
  obtain ⟨hsteps, t, u, hops, ht, hu, hroute, hpath, hiff⟩ := hpaths _ _ _ _ hforth
  obtain rfl := Option.some.inj (hteams.symm.trans ht)
  obtain rfl := Option.some.inj (hplayers.symm.trans hu)
  obtain ⟨e, he, there, back, hfound, -, htold⟩ := hmirror teams players hteams hplayers hadj
  obtain ⟨hthere, hback'⟩ := hfound .lexicographic [] 0
  obtain rfl : toTeam = there := by simpa using hforth.symm.trans hthere
  obtain rfl : toTeam = back := by simpa using hback.symm.trans hback'
  have huntold : ¬∀ hop ∈ hops, hop.IsTold := fun hall => hchain (hiff.mpr hall)
  have hnot : ¬e.IsTold := fun h => absurd (htold.mpr h) (by decide)
  exact ⟨hforth, hback, hsteps, ⟨hops, hroute, hpath, huntold⟩, e, he, hnot⟩

end Teams

end MetricLayer
