import MetricLayer.Proofs.Schema.Orientation
import MetricLayer.Proofs.Translation.JoinPlan
import MetricLayer.Proofs.Translation.SchemaOrder

/-!
# Join plans are shortest-path forests

A plan is put together from pieces of different shortest paths: a step is left out when its table is
joined already, and then the table hangs where an earlier path has put it. What holds the pieces
together is that all paths start at the anchor and that every step on a shortest path leads from a
table to one that is one relationship farther from the anchor. So however a table is reached over
the steps of a plan, it takes as many joins as its distance says.

Names are compared without letter case throughout. The tables have ASCII names, for which the
direction of every relationship is told (`Schema.edges_told`).

Results:
1. `Schema.Route.hop_distances`: a hop of a shortest route leads one farther from the start.
2. `newSteps_grows`: what is kept of a chain begins at tables that are there.
3. `Schema.ReachedBy.distance_eq`: over steps that lead away from the start, the number of joins to
   a table is its distance.
4. `Schema.joinPlan_forest`: a join plan is a shortest-path forest.
-/

namespace MetricLayer

namespace Schema

variable {s : Schema} {start goal : String}

/-! ## ASCII names -/

/-- The names of the tables, also as they are written in relationships, are ASCII texts. -/
structure HasAsciiNames (s : Schema) : Prop where
  tables : ∀ t ∈ s.tables, Text.IsAscii t.name
  relationships : ∀ r ∈ s.relationships, Text.IsAscii r.fromTable ∧ Text.IsAscii r.toTable

/-- The direction of every relationship between ASCII names is told. -/
theorem edges_told (h : s.HasAsciiNames) {e : Edge} (he : e ∈ s.edges) : e.IsTold := by
  obtain ⟨hr, t, u, ht, -, hsource, -⟩ := mem_edges.mp he
  obtain ⟨hmem, hname⟩ := table?_spec ht
  rw [Edge.IsTold, ← hsource]
  exact ascii_of_sameName (h.relationships _ (List.mem_of_getElem? hr)).1 (h.tables t hmem)
    (sameName_symm hname)

/-! ## Distances -/

/-- The number of relationships between the tables that two names stand for. -/
noncomputable def distance (s : Schema) (a b : String) : ℕ∞ :=
  if sameName a b then 0
  else match s.table? a, s.table? b with
    | some t, some u => s.graph.edist t.name u.name
    | _, _ => ⊤

theorem distance_of_sameName {a b : String} (h : sameName a b = true) : s.distance a b = 0 :=
  if_pos h

theorem distance_eq {a b : String} {t u : Table} (ha : s.table? a = some t)
    (hb : s.table? b = some u) : s.distance a b = s.graph.edist t.name u.name := by
  unfold distance
  rw [ha, hb]
  split
  · next hsame =>
    have hname := sameName_trans (table?_spec ha).2 hsame
    have heq := table?_of_sameName (table?_spec ha).1 hname
    obtain rfl := Option.some.inj (hb.symm.trans heq)
    exact SimpleGraph.edist_self.symm
  · rfl

theorem distance_congr {a b b' : String} (h : sameName b b' = true) :
    s.distance a b = s.distance a b' := by
  have htable : s.table? b = s.table? b' := by
    unfold table? SchemaDefinition.table?
    simp only [sameName, beq_iff_eq.mp h]
  have hsame : sameName a b = sameName a b' := by
    rw [Bool.eq_iff_iff]
    exact ⟨fun hb => sameName_trans hb h, fun hb => sameName_trans hb (sameName_symm h)⟩
  unfold distance
  rw [htable, hsame]

/-- A hop of a shortest route leads one farther from the start. -/
theorem Route.hop_distances {hops : List Hop} (h : s.Route start hops goal)
    (hshortest : (hops.length : ℕ∞) = s.graph.edist start goal) :
    ∀ hop ∈ hops, ∃ n : ℕ, s.graph.edist start hop.source = n ∧
      s.graph.edist start hop.target = (n + 1 : ℕ) := by
  induction h with
  | nil => exact List.forall_mem_nil _
  | @concat before last hbefore hfirst ih =>
    have hgoal : s.graph.edist start last.target = (before.length + 1 : ℕ) := by
      rw [← hshortest, List.length_append, List.length_singleton]
    have hsource := hbefore.edist_source hfirst rfl hgoal
    exact List.forall_mem_append.mpr ⟨ih hsource.symm, List.forall_mem_singleton.mpr
      ⟨before.length, hsource, hgoal⟩⟩

/-- The step is a declared relationship in one of its directions, and joins a table that is one
relationship farther from the start. -/
structure LeadsOut (s : Schema) (start : String) (step : JoinStep) : Prop where
  declared : ∃ r ∈ s.relationships, step = r ∨ step = r.reverse
  farther : ∃ n : ℕ, s.distance start step.fromTable = n ∧
    s.distance start step.toTable = (n + 1 : ℕ)

/-- Between ASCII names a path is a chain, and each of its steps leads one farther from the
start. -/
theorem joinPath?_leadsOut (hascii : s.HasAsciiNames) {rule : TieBreak} {joined : List String}
    {depth : ℕ} {path : List JoinStep} (h : s.joinPath? rule joined depth start goal = some path) :
    Chains start path goal ∧ ∀ step ∈ path, s.LeadsOut start step := by
  obtain ⟨t, u, hops, ht, hu, hbest, rfl⟩ := joinPath?_route h
  have hfirst := hbest.route.firstEdge
  have htold : ∀ hop ∈ hops, hop.IsTold := fun hop hmem =>
    Hop.isTold_iff.mpr fun _ => edges_told hascii (hfirst hop hmem).mem
  refine ⟨(chains_names ht hu).mpr (hbest.route.chains_iff.mpr htold), fun step hstep => ?_⟩
  obtain ⟨hop, hmem, rfl⟩ := List.mem_map.mp hstep
  obtain ⟨n, hsource, htarget⟩ := hbest.route.hop_distances hbest.shortest hop hmem
  obtain ⟨hfrom, hto⟩ := (hop.step_ends (hfirst hop hmem)).1 (htold hop hmem)
  obtain ⟨v, hv, w, hw, hvname, hwname⟩ := exists_table_of_firstEdge (hfirst hop hmem)
  refine ⟨?_, n, ?_, ?_⟩
  · exact ⟨_, List.mem_of_getElem? (mem_edges.mp (hfirst hop hmem).mem).1,
      stepFrom_eq_or hop.edge hop.source⟩
  · rw [distance_congr hfrom, ← hvname, distance_eq ht (table?_of_mem hv), hvname, hsource]
  · rw [distance_congr hto, ← hwname, distance_eq ht (table?_of_mem hw), hwname, htarget]

end Schema

/-! ## Steps that grow from tables -/

/-- Each step begins at a table that is there already. -/
def Grows (there : List String) : List JoinStep → Prop
  | [] => True
  | step :: steps => (∃ name ∈ there, sameName name step.fromTable = true) ∧
      Grows (there ++ [step.toTable]) steps

theorem grows_append {there : List String} {first second : List JoinStep} :
    Grows there (first ++ second) ↔
      Grows there first ∧ Grows (there ++ first.map (·.toTable)) second := by
  induction first generalizing there with
  | nil => simp [Grows]
  | cons step steps ih =>
    rw [List.cons_append, Grows, Grows, ih, and_assoc, List.map_cons, List.append_assoc]
    rfl

/-- Of a chain, the steps that are kept begin at tables that are there, and its end is reached. -/
theorem newSteps_grows {joined : List String} {start goal : String} {path : List JoinStep}
    (hstart : ∃ name ∈ joined, sameName name start = true) (h : Chains start path goal) :
    Grows joined (Schema.newSteps joined path).1 ∧
      ∃ name ∈ (Schema.newSteps joined path).2, sameName name goal = true := by
  induction path generalizing joined start with
  | nil =>
    obtain ⟨name, hname, hsame⟩ := hstart
    exact ⟨trivial, name, hname, sameName_trans hsame h⟩
  | cons step path ih =>
    obtain ⟨hfrom, hrest⟩ := h
    obtain ⟨name, hname, hsame⟩ := hstart
    unfold Schema.newSteps
    split
    · next hthere => exact ih ⟨step.toTable, by simpa using hthere, sameName_iff.mpr rfl⟩ hrest
    · have hreached : step.toTable ∈ joined ++ [step.toTable] := by simp
      obtain ⟨hgrows, hend⟩ := ih ⟨step.toTable, hreached, sameName_iff.mpr rfl⟩ hrest
      exact ⟨⟨⟨name, hname, sameName_trans hsame hfrom⟩, hgrows⟩, hend⟩

namespace Schema

variable {s : Schema} {start name : String} {steps : List JoinStep}

/-- The steps to the targets begin at tables that are there, lead away from the anchor and reach
every target. -/
theorem Joins.grows (hascii : s.HasAsciiNames) {rule : JoinRule} {anchor : String}
    {targets joined : List String} (h : s.Joins rule anchor joined targets steps)
    (hanchor : anchor ∈ joined) :
    Grows joined steps ∧ (∀ step ∈ steps, s.LeadsOut anchor step) ∧
      ∀ target ∈ targets, ∃ x ∈ joined ++ steps.map (·.toTable), sameName x target = true := by
  induction h with
  | nil => exact ⟨trivial, List.forall_mem_nil _, List.forall_mem_nil _⟩
  | @there joined targets target steps hthere _ ih =>
    obtain ⟨hgrows, hout, hreached⟩ := ih hanchor
    exact ⟨hgrows, hout, List.forall_mem_cons.mpr
      ⟨⟨target, List.mem_append_left _ hthere, sameName_iff.mpr rfl⟩, hreached⟩⟩
  | @path joined targets target path rest hpath _ ih =>
    obtain ⟨hchain, hout⟩ := joinPath?_leadsOut hascii hpath
    obtain ⟨hkept, x, hx, hsame⟩ := newSteps_grows ⟨anchor, hanchor, sameName_iff.mpr rfl⟩ hchain
    obtain ⟨hnames, hsub, -⟩ := newSteps_spec joined path
    rw [hnames] at hx
    obtain ⟨hgrows, houtRest, hreached⟩ := ih (List.mem_append_left _ hanchor)
    rw [List.map_append, ← List.append_assoc]
    exact ⟨grows_append.mpr ⟨hkept, hgrows⟩,
      List.forall_mem_append.mpr ⟨fun step hstep => hout step (hsub step hstep), houtRest⟩,
      List.forall_mem_cons.mpr ⟨⟨x, List.mem_append_left _ hx, hsame⟩, hreached⟩⟩

/-! ## How tables are reached -/

/-- The table is the start, or is reached from it by so many of the joins. -/
inductive ReachedBy (steps : List JoinStep) (start : String) : ℕ → String → Prop
  | start {name : String} : sameName start name = true → ReachedBy steps start 0 name
  | join {n : ℕ} {step : JoinStep} {name : String} : ReachedBy steps start n step.fromTable →
      step ∈ steps → sameName step.toTable name = true → ReachedBy steps start (n + 1) name

theorem ReachedBy.congr {n : ℕ} {name' : String} (h : ReachedBy steps start n name)
    (hsame : sameName name name' = true) : ReachedBy steps start n name' := by
  cases h with
  | start hstart => exact .start (sameName_trans hstart hsame)
  | join hbefore hstep hto => exact .join hbefore hstep (sameName_trans hto hsame)

/-- Where all joins lead away from the start, a table is reached by as many as its distance. -/
theorem ReachedBy.distance_eq (hout : ∀ step ∈ steps, s.LeadsOut start step) {n : ℕ}
    (h : ReachedBy steps start n name) : s.distance start name = n := by
  induction h with
  | start hsame => exact distance_of_sameName hsame
  | @join n step name _ hstep hto ih =>
    obtain ⟨m, hfrom, htarget⟩ := (hout step hstep).farther
    obtain rfl : m = n := Nat.cast_inj.mp (hfrom.symm.trans ih)
    rw [← distance_congr hto, htarget]

/-- Whatever has grown from tables that are reached is reached. -/
theorem ReachedBy.of_grows {all : List JoinStep} {there : List String}
    (hthere : ∀ x ∈ there, ∃ n, ReachedBy all start n x) (hgrows : Grows there steps)
    (hall : ∀ step ∈ steps, step ∈ all) :
    ∀ x ∈ there ++ steps.map (·.toTable), ∃ n, ReachedBy all start n x := by
  induction steps generalizing there with
  | nil => simpa using hthere
  | cons step steps ih =>
    obtain ⟨⟨x, hx, hsame⟩, hrest⟩ := hgrows
    obtain ⟨hstep, hsteps⟩ := List.forall_mem_cons.mp hall
    obtain ⟨n, hreached⟩ := hthere x hx
    have hnext : ReachedBy all start (n + 1) step.toTable :=
      .join (hreached.congr hsame) hstep (sameName_iff.mpr rfl)
    have hgrown := ih (List.forall_mem_append.mpr ⟨hthere, List.forall_mem_singleton.mpr
      ⟨n + 1, hnext⟩⟩) hrest hsteps
    rwa [List.append_assoc] at hgrown

/-- Every step of a plan begins at the anchor or at a table that an earlier step has joined, and
leads to a table that is one relationship farther from the anchor. So every needed table is in the
plan, and it is reached by as many joins as its distance from the anchor, over whichever steps. -/
theorem joinPlan_forest (hascii : s.HasAsciiNames) {rule : JoinRule} {needed : NeededColumns}
    {plan : JoinPlan} (h : s.joinPlan rule needed = .ok plan) :
    Grows [plan.anchor] plan.steps ∧ (∀ step ∈ plan.steps, s.LeadsOut plan.anchor step) ∧
      ∀ name ∈ needed.tables, (∃ x ∈ plan.tables, sameName x name = true) ∧
        ∃ n : ℕ, s.distance plan.anchor name = n ∧
          ∀ k, ReachedBy plan.steps plan.anchor k name ↔ k = n := by
  obtain ⟨-, hjoins⟩ := joinPlan_eq_ok h
  obtain ⟨hgrows, hout, htargets⟩ := hjoins.grows hascii (List.mem_singleton_self _)
  refine ⟨hgrows, hout, fun name hname => ?_⟩
  obtain ⟨x, hx, hsame⟩ := htargets name hname
  have hanchor : ∀ x ∈ [plan.anchor], ∃ n, ReachedBy plan.steps plan.anchor n x :=
    List.forall_mem_singleton.mpr ⟨0, .start (sameName_iff.mpr rfl)⟩
  obtain ⟨n, hreached⟩ := ReachedBy.of_grows hanchor hgrows (fun _ hstep => hstep) x hx
  have hreached := hreached.congr hsame
  refine ⟨⟨x, hx, hsame⟩, n, hreached.distance_eq hout, fun k => ⟨fun hk => ?_, ?_⟩⟩
  · exact Nat.cast_inj.mp ((hk.distance_eq hout).symm.trans (hreached.distance_eq hout))
  · rintro rfl
    exact hreached

end Schema

namespace Wagers

/-- The accounts of the players. -/
def accounts : Table :=
  { name := "Accounts", columns := [⟨"Id", .integer, true, true, false⟩] }

/-- The regions of the countries. -/
def regions : Table :=
  { name := "Regions", columns := [⟨"Code", .string, true, true, false⟩] }

/-- The diamond with a table behind the players and one behind the countries. -/
def tailed : Schema where
  definition :=
    { tables := [bets, games, players, countries, accounts, regions]
      relationships := diamond.relationships ++
        [⟨"Accounts", "Id", "Players", "Id", .oneToOne⟩,
          ⟨"Countries", "Code", "Regions", "Code", .manyToOne⟩] }
  sound := by decide +kernel

/-- One column of every table but the players. -/
def everywhere : NeededColumns :=
  .ofFields [⟨"Accounts", "Id"⟩, ⟨"Bets", "Amount"⟩, ⟨"Countries", "Code"⟩, ⟨"Games", "Id"⟩,
    ⟨"Regions", "Code"⟩]

/-- The accounts bring in the players, so the countries are joined over the players. -/
def everywherePlan : JoinPlan where
  anchor := "Bets"
  steps := [⟨"Bets", "Amount", "Players", "Id", .manyToOne⟩,
    ⟨"Players", "Id", "Accounts", "Id", .oneToOne⟩,
    ⟨"Players", "Country", "Countries", "Code", .manyToOne⟩,
    ⟨"Bets", "GameId", "Games", "Id", .manyToOne⟩,
    ⟨"Countries", "Code", "Regions", "Code", .manyToOne⟩]

/-- The best path to the regions goes over the games, but the countries have been joined over the
players. The regions are three joins away all the same. -/
theorem joinPlan_forest_regions : tailed.HasAsciiNames ∧
    tailed.joinPlan ⟨.preferJoined, 4⟩ everywhere = .ok everywherePlan ∧
      tailed.distance "Bets" "Regions" = (3 : ℕ) ∧
        ∀ k, Schema.ReachedBy everywherePlan.steps "Bets" k "Regions" ↔ k = 3 := by
  have hascii : tailed.HasAsciiNames := ⟨by decide +kernel, by decide +kernel⟩
  have hplan : tailed.joinPlan ⟨.preferJoined, 4⟩ everywhere = .ok everywherePlan := by
    decide +kernel
  obtain ⟨-, -, hneeded⟩ := Schema.joinPlan_forest hascii hplan
  obtain ⟨-, n, hdistance, hreached⟩ := hneeded "Regions" (by decide +kernel)
  have hplayers : Schema.ReachedBy everywherePlan.steps "Bets" 1 "Players" :=
    .join (.start (sameName_iff.mpr rfl)) (.head _) (sameName_iff.mpr rfl)
  have hcountries : Schema.ReachedBy everywherePlan.steps "Bets" 2 "Countries" :=
    .join hplayers (.tail _ (.tail _ (.head _))) (sameName_iff.mpr rfl)
  have hregions : Schema.ReachedBy everywherePlan.steps "Bets" 3 "Regions" :=
    .join hcountries (.tail _ (.tail _ (.tail _ (.tail _ (.head _))))) (sameName_iff.mpr rfl)
  obtain rfl : 3 = n := (hreached 3).mp hregions
  exact ⟨hascii, hplan, hdistance, hreached⟩

end Wagers

end MetricLayer
