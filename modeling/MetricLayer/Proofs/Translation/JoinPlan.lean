import MetricLayer.Proofs.Schema.Graph
import MetricLayer.Translation.Basic

/-!
# What a join plan reaches

A plan grows target by target. Of a path to a target, those steps are kept that lead to tables that
are not joined yet. Whatever is left out leads to a table that is there, so the steps that are kept
begin at tables that are there as well, as long as the steps of a path follow each other by name.
How the steps follow from the targets is the relation `Schema.Joins`, and what every plan keeps is
an induction over it.

Results:
1. `joinPlan_nodup`: the tables of a plan have different names.
2. `joinPlan_scope`: every step begins at a table that is joined already, and every needed table is
   reached, where the relationships that joins are made along are spelled as declared.
3. `Report.mem_queryColumns`: the tables that a query needs are those of its fields.
-/

namespace MetricLayer

/-! ## Needed tables -/

namespace NeededColumns

theorem mem_tables_add {table column x : String} {needed : NeededColumns} :
    x ∈ (needed.add table column).tables ↔ x = table ∨ x ∈ needed.tables := by
  induction needed with
  | nil => simp [add, tables]
  | cons entry rest ih =>
    obtain ⟨t, columns⟩ := entry
    unfold add
    split
    · next heq =>
      subst heq
      simp [tables]
    · split
      · simp [tables]
      · have hrest : x ∈ (add table column rest).map (·.1) ↔ x = table ∨ x ∈ rest.map (·.1) := ih
        simp only [tables, List.map_cons, List.mem_cons, hrest]
        exact or_left_comm

theorem mem_tables_ofFields {fs : List Field} {x : String} :
    x ∈ (ofFields fs).tables ↔ ∃ f ∈ fs, f.table = x := by
  have hfold : ∀ needed : NeededColumns,
      x ∈ (fs.foldl (fun n f => add f.table f.column n) needed).tables ↔
        x ∈ needed.tables ∨ ∃ f ∈ fs, f.table = x := by
    induction fs with
    | nil => simp
    | cons f fs ih =>
      intro needed
      rw [List.foldl_cons, ih, mem_tables_add]
      constructor
      · rintro ((rfl | hx) | ⟨g, hg, rfl⟩)
        · exact .inr ⟨f, List.mem_cons_self, rfl⟩
        · exact .inl hx
        · exact .inr ⟨g, List.mem_cons_of_mem _ hg, rfl⟩
      · rintro (hx | ⟨g, hg, rfl⟩)
        · exact .inl (.inr hx)
        · rcases List.mem_cons.mp hg with rfl | hg
          · exact .inl (.inl rfl)
          · exact .inr ⟨g, hg, rfl⟩
  rw [ofFields, hfold]
  simp [tables]

end NeededColumns

theorem mostColumns_mem {needed : NeededColumns} {x : String × List String}
    (h : mostColumns needed = some x) : x ∈ needed := by
  cases needed with
  | nil => cases h
  | cons first rest =>
    have hfold : ∀ (best : String × List String),
        rest.foldl (fun best y => if best.2.length < y.2.length then y else best) best ∈
          best :: rest := by
      clear h
      induction rest with
      | nil => simp
      | cons y rest ih =>
        intro best
        rw [List.foldl_cons]
        rcases List.mem_cons.mp (ih (if best.2.length < y.2.length then y else best)) with h | h
        · rw [h]
          split <;> simp
        · exact List.mem_cons_of_mem _ (List.mem_cons_of_mem _ h)
    rw [← Option.some.inj h]
    exact hfold first

namespace Schema

variable {s : Schema}

theorem anchor?_mem {needed : NeededColumns} {anchor : String}
    (h : s.anchor? needed = some anchor) : anchor ∈ needed.tables := by
  obtain ⟨x, hx, rfl⟩ := Option.map_eq_some_iff.mp h
  refine List.mem_map_of_mem ?_
  rcases Option.or_eq_some_iff.mp hx with hx | ⟨-, hx⟩
  · exact List.mem_of_mem_filter (mostColumns_mem hx)
  · exact mostColumns_mem hx

/-- Needed tables have an anchor among them. -/
theorem exists_anchor? {needed : NeededColumns} (h : needed ≠ []) :
    ∃ anchor, s.anchor? needed = some anchor := by
  obtain ⟨x, xs, rfl⟩ := List.exists_cons_of_ne_nil h
  unfold anchor?
  cases mostColumns ((x :: xs).filter fun n => (s.table? n.1).any (·.isFact)) <;> exact ⟨_, rfl⟩

/-! ## Steps -/

/-- Each step begins at a table that is there already. -/
def InScope (earlier : List String) : List JoinStep → Prop
  | [] => True
  | step :: steps => step.fromTable ∈ earlier ∧ InScope (earlier ++ [step.toTable]) steps

theorem inScope_append {earlier : List String} {first second : List JoinStep} :
    InScope earlier (first ++ second) ↔
      InScope earlier first ∧ InScope (earlier ++ first.map (·.toTable)) second := by
  induction first generalizing earlier with
  | nil => simp [InScope]
  | cons step steps ih =>
    rw [List.cons_append, InScope, InScope, ih, and_assoc, List.map_cons, List.append_assoc]
    rfl

/-- The steps to tables that are not joined yet are some of the steps, and their tables are those
that are joined by them. -/
theorem newSteps_spec (joined : List String) (path : List JoinStep) :
    (newSteps joined path).2 = joined ++ (newSteps joined path).1.map (·.toTable) ∧
      (∀ step ∈ (newSteps joined path).1, step ∈ path) ∧
        (joined.Nodup → (newSteps joined path).2.Nodup) := by
  induction path generalizing joined with
  | nil => exact ⟨by simp [newSteps], nofun, id⟩
  | cons step path ih =>
    unfold newSteps
    split
    · obtain ⟨hjoined, hsub, hnodup⟩ := ih joined
      exact ⟨hjoined, fun x hx => List.mem_cons_of_mem _ (hsub x hx), hnodup⟩
    · next hnew =>
      obtain ⟨hjoined, hsub, hnodup⟩ := ih (joined ++ [step.toTable])
      simp only
      refine ⟨by rw [hjoined, List.map_cons, List.append_assoc]; rfl, ?_, fun h => hnodup ?_⟩
      · exact List.forall_mem_cons.mpr
          ⟨List.mem_cons_self, fun x hx => List.mem_cons_of_mem _ (hsub x hx)⟩
      · rw [← List.concat_eq_append]
        exact h.concat (by simpa using hnew)

/-- Of steps that follow each other, those that are kept are in scope, and their end is reached. -/
theorem newSteps_inScope {joined : List String} {start : String} (hstart : start ∈ joined)
    {path : List JoinStep} (h : Follows start path) :
    InScope joined (newSteps joined path).1 ∧ endOf start path ∈ (newSteps joined path).2 := by
  induction path generalizing joined start with
  | nil => exact ⟨trivial, hstart⟩
  | cons step path ih =>
    obtain ⟨hfrom, hrest⟩ := h
    unfold newSteps
    split
    · next hthere => exact ih (by simpa using hthere) hrest
    · have hreached : step.toTable ∈ joined ++ [step.toTable] := by simp
      obtain ⟨hscope, hend⟩ := ih hreached hrest
      exact ⟨⟨hfrom ▸ hstart, hscope⟩, hend⟩

/-- The names are those of tables. -/
def AreTables (s : Schema) (names : List String) : Prop := ∀ n ∈ names, ∃ t ∈ s.tables, t.name = n

/-! ## Targets -/

/-- The targets are joined by the steps: one that is there already takes none, and another one takes
those steps of a path to it that lead to tables which are not there. -/
inductive Joins (s : Schema) (rule : JoinRule) (anchor : String) :
    List String → List String → List JoinStep → Prop
  | nil {joined : List String} : Joins s rule anchor joined [] []
  | there {joined targets : List String} {target : String} {steps : List JoinStep} :
      target ∈ joined → Joins s rule anchor joined targets steps →
      Joins s rule anchor joined (target :: targets) steps
  | path {joined targets : List String} {target : String} {path rest : List JoinStep} :
      s.joinPath? rule.tieBreak joined rule.maxDepth anchor target = some path →
      Joins s rule anchor (joined ++ (newSteps joined path).1.map (·.toTable)) targets rest →
      Joins s rule anchor joined (target :: targets) ((newSteps joined path).1 ++ rest)

section

variable {rule : JoinRule} {anchor : String} {joined targets : List String}
  {steps : List JoinStep}

theorem joins_of_stepsTo (h : s.stepsTo rule anchor joined targets = .ok steps) :
    s.Joins rule anchor joined targets steps := by
  induction targets generalizing joined steps with
  | nil =>
    cases h
    exact .nil
  | cons target targets ih =>
    unfold stepsTo at h
    split at h
    · next hthere => exact .there (by simpa using hthere) (ih h)
    · split at h
      · cases h
      · next path hpath =>
        obtain ⟨rest, hrest, rfl⟩ := map_eq_ok h
        rw [(newSteps_spec joined path).1] at hrest
        exact .path hpath (ih hrest)

theorem Joins.nodup (h : s.Joins rule anchor joined targets steps) (hjoined : joined.Nodup) :
    (joined ++ steps.map (·.toTable)).Nodup := by
  induction h with
  | nil => simpa using hjoined
  | there _ _ ih => exact ih hjoined
  | @path joined targets target path rest _ _ ih =>
    obtain ⟨hnames, -, hnodup⟩ := newSteps_spec joined path
    rw [List.map_append, ← List.append_assoc]
    exact ih (hnames ▸ hnodup hjoined)

theorem Joins.isStep (h : s.Joins rule anchor joined targets steps)
    (hanchor : s.AreTables [anchor]) (htargets : s.AreTables targets) :
    ∀ step ∈ steps, s.IsStep step := by
  obtain ⟨t, ht, rfl⟩ := List.forall_mem_singleton.mp hanchor
  induction h with
  | nil => exact List.forall_mem_nil _
  | there _ _ ih => exact ih (List.forall_mem_cons.mp htargets).2
  | @path joined targets target path rest hpath _ ih =>
    obtain ⟨⟨u, hu, rfl⟩, hrest⟩ := List.forall_mem_cons.mp htargets
    refine List.forall_mem_append.mpr ⟨fun step hstep => ?_, ih hrest⟩
    exact (joinPath?_walk ht hu hpath).isStep step ((newSteps_spec joined path).2.1 step hstep)

theorem Joins.inScope (h : s.Joins rule anchor joined targets steps)
    (hspelled : ∀ r, s.JoinsAlong r → s.IsSpelled r) (hanchor : s.AreTables [anchor])
    (htargets : s.AreTables targets) (hthere : anchor ∈ joined) :
    InScope joined steps ∧ ∀ n ∈ targets, n ∈ joined ++ steps.map (·.toTable) := by
  obtain ⟨t, ht, rfl⟩ := List.forall_mem_singleton.mp hanchor
  induction h with
  | nil => exact ⟨trivial, List.forall_mem_nil _⟩
  | there htarget _ ih =>
    obtain ⟨hscope, hreached⟩ := ih (List.forall_mem_cons.mp htargets).2 hthere
    exact ⟨hscope, List.forall_mem_cons.mpr ⟨List.mem_append_left _ htarget, hreached⟩⟩
  | @path joined targets target path rest hpath _ ih =>
    obtain ⟨⟨u, hu, rfl⟩, hrest⟩ := List.forall_mem_cons.mp htargets
    obtain ⟨hfollows, hend⟩ := (joinPath?_walk ht hu hpath).follows hspelled
    obtain ⟨hkept, htarget⟩ := newSteps_inScope hthere hfollows
    rw [hend, (newSteps_spec joined path).1] at htarget
    obtain ⟨hscope, hreached⟩ := ih hrest (List.mem_append_left _ hthere)
    rw [List.map_append, ← List.append_assoc]
    exact ⟨inScope_append.mpr ⟨hkept, hscope⟩,
      List.forall_mem_cons.mpr ⟨List.mem_append_left _ htarget, hreached⟩⟩

end

/-! ## Plans -/

variable {rule : JoinRule} {needed : NeededColumns} {plan : JoinPlan}

theorem joinPlan_eq_ok (h : s.joinPlan rule needed = .ok plan) :
    s.anchor? needed = some plan.anchor ∧
      s.Joins rule plan.anchor [plan.anchor] needed.tables plan.steps := by
  unfold joinPlan at h
  split at h
  · cases h
  · next anchor hanchor =>
    obtain ⟨steps, hsteps, rfl⟩ := map_eq_ok h
    exact ⟨hanchor, joins_of_stepsTo hsteps⟩

/-- The tables of a plan have different names. -/
theorem joinPlan_nodup (h : s.joinPlan rule needed = .ok plan) : plan.tables.Nodup :=
  (joinPlan_eq_ok h).2.nodup (List.nodup_singleton _)

theorem joinPlan_isStep (hneeded : s.AreTables needed.tables)
    (h : s.joinPlan rule needed = .ok plan) : ∀ step ∈ plan.steps, s.IsStep step := by
  obtain ⟨hanchor, hjoins⟩ := joinPlan_eq_ok h
  refine hjoins.isStep (List.forall_mem_singleton.mpr ?_) hneeded
  exact hneeded _ (anchor?_mem hanchor)

/-- Every step of a plan begins at a table that is joined already, and every needed table is
reached. -/
theorem joinPlan_scope (hspelled : ∀ r, s.JoinsAlong r → s.IsSpelled r)
    (hneeded : s.AreTables needed.tables) (h : s.joinPlan rule needed = .ok plan) :
    InScope [plan.anchor] plan.steps ∧ ∀ n ∈ needed.tables, n ∈ plan.tables := by
  obtain ⟨hanchor, hjoins⟩ := joinPlan_eq_ok h
  refine hjoins.inScope hspelled (List.forall_mem_singleton.mpr ?_) hneeded
    (List.mem_singleton_self _)
  exact hneeded _ (anchor?_mem hanchor)

/-- Two tables with an edge between them are joined by one step. -/
theorem exists_plan_of_edge {e : Edge} {a b : String} (he : s.FirstEdge e a b)
    (ha : s.AreTables [a, b]) (hdepth : 0 < rule.maxDepth)
    (hneeded : ∀ n, n ∈ needed.tables ↔ n = a ∨ n = b) :
    ∃ plan, s.joinPlan rule needed = .ok plan ∧ (plan.anchor = a ∨ plan.anchor = b) ∧
      ∀ step ∈ plan.steps, step = e.stepFrom plan.anchor := by
  obtain ⟨⟨t, ht, rfl⟩, hb⟩ := List.forall_mem_cons.mp ha
  obtain ⟨u, hu, rfl⟩ := List.forall_mem_singleton.mp hb
  obtain ⟨depth, hdepth⟩ := Nat.exists_eq_succ_of_ne_zero (Nat.ne_of_gt hdepth)
  -- from either of the tables the other one is reached by one step
  have hsteps : ∀ (t u : Table) (targets joined : List String), t ∈ s.tables → u ∈ s.tables →
      s.FirstEdge e t.name u.name → t.name ∈ joined →
      (∀ n ∈ targets, n = t.name ∨ n = u.name) →
      ∃ steps, s.stepsTo rule t.name joined targets = .ok steps ∧
        ∀ step ∈ steps, step = e.stepFrom t.name := by
    intro t u targets joined ht hu he hjoined htargets
    induction targets generalizing joined with
    | nil => exact ⟨[], rfl, nofun⟩
    | cons target targets ih =>
      obtain ⟨htarget, hrest⟩ := List.forall_mem_cons.mp htargets
      unfold stepsTo
      split
      · exact ih joined hjoined hrest
      · next hnew =>
        obtain rfl : target = u.name :=
          htarget.resolve_left fun heq => hnew (by simpa [heq] using hjoined)
        rw [hdepth, exists_joinPath? ht hu he]
        obtain ⟨hnames, hsub, -⟩ := newSteps_spec joined [e.stepFrom t.name]
        simp only
        obtain ⟨steps, hsteps, hall⟩ := ih (newSteps joined [e.stepFrom t.name]).2
          (by rw [hnames]; exact List.mem_append_left _ hjoined) hrest
        refine ⟨_, by rw [hsteps]; rfl, List.forall_mem_append.mpr ⟨fun step hstep => ?_, hall⟩⟩
        exact List.mem_singleton.mp (hsub step hstep)
  obtain ⟨anchor, hanchor⟩ : ∃ anchor, s.anchor? needed = some anchor := by
    refine exists_anchor? ?_
    rintro rfl
    cases (hneeded t.name).mpr (.inl rfl)
  have hplan : ∀ steps, s.stepsTo rule anchor [anchor] needed.tables = .ok steps →
      s.joinPlan rule needed = .ok ⟨anchor, steps⟩ := by
    intro steps hok
    unfold joinPlan
    rw [hanchor]
    simp only [hok]
    rfl
  rcases (hneeded anchor).mp (anchor?_mem hanchor) with rfl | rfl
  · obtain ⟨steps, hok, hall⟩ := hsteps t u needed.tables [t.name] ht hu he
      (List.mem_singleton_self _) fun n hn => (hneeded n).mp hn
    exact ⟨_, hplan steps hok, .inl rfl, hall⟩
  · obtain ⟨steps, hok, hall⟩ := hsteps u t needed.tables [u.name] hu ht he.symm
      (List.mem_singleton_self _) fun n hn => ((hneeded n).mp hn).symm
    exact ⟨_, hplan steps hok, .inr rfl, hall⟩

end Schema

/-! ## The columns of a report -/

namespace Report

variable {r : Report} {s : Schema}

/-- The time column is declared as it is written if the fields of the report are. -/
theorem timeBound?_declares (hdeclared : ∀ f ∈ r.fields, s.Declares f) {c : TimeColumn}
    {days : DayRange} (h : r.timeBound? s = some (c, days)) : s.Declares c.field := by
  have hat : ∀ f c, s.timeColumnAt? f = some c → c.field = f := by
    intro f c hc
    obtain ⟨column, -, rfl⟩ := Option.map_eq_some_iff.mp hc
    rfl
  have hdate : ∀ table f, s.dateField? table = some f → s.Declares f := by
    intro table f hf
    obtain ⟨t, ht, hf⟩ := Option.bind_eq_some_iff.mp hf
    obtain ⟨column, hcolumn, rfl⟩ := Option.map_eq_some_iff.mp hf
    exact Schema.dateColumn?_declares (Schema.table?_spec ht).1 hcolumn
  obtain ⟨_, -, h⟩ := Option.bind_eq_some_iff.mp h
  obtain ⟨c', hc, heq⟩ := Option.map_eq_some_iff.mp h
  obtain rfl : c' = c := congrArg Prod.fst heq
  unfold Schema.timeColumn? at hc
  split at hc
  · next d hd =>
    rw [hat _ _ hc]
    refine hdeclared _ (List.mem_append_left _ (List.mem_append_right _ ?_))
    exact List.mem_map_of_mem (List.mem_of_find?_eq_some hd)
  · obtain ⟨f, hf, hc⟩ := Option.bind_eq_some_iff.mp hc
    rw [hat _ _ hc]
    rcases Option.or_eq_some_iff.mp hf with hf | ⟨-, hf⟩
    · obtain ⟨anchor, -, hf⟩ := Option.bind_eq_some_iff.mp hf
      exact hdate _ f hf
    · obtain ⟨table, -, hf⟩ := List.exists_of_findSome?_eq_some hf
      exact hdate _ f hf

/-- The tables that a query needs are those of the fields of its report and of the time column. -/
theorem mem_queryColumns {x : String} :
    x ∈ (r.queryColumns s).tables ↔ (∃ f ∈ r.fields, f.table = x) ∨
      ∃ c days, r.timeBound? s = some (c, days) ∧ c.field.table = x := by
  unfold queryColumns neededColumns
  split
  · next c days htime =>
    rw [NeededColumns.mem_tables_add, NeededColumns.mem_tables_ofFields, or_comm]
    refine or_congr_right ⟨fun h => ⟨c, days, htime, h.symm⟩, ?_⟩
    rintro ⟨c', days', htime', rfl⟩
    cases htime.symm.trans htime'
    rfl
  · next hnone =>
    rw [NeededColumns.mem_tables_ofFields]
    refine ⟨.inl, fun h => h.resolve_right ?_⟩
    rintro ⟨c, days, htime, -⟩
    rw [hnone] at htime
    cases htime

theorem queryColumns_areTables (hdeclared : ∀ f ∈ r.fields, s.Declares f) :
    s.AreTables (r.queryColumns s).tables := by
  intro x hx
  rcases mem_queryColumns.mp hx with ⟨f, hf, rfl⟩ | ⟨c, days, htime, rfl⟩
  · obtain ⟨t, ht, hname, -⟩ := hdeclared f hf
    exact ⟨t, ht, hname⟩
  · obtain ⟨t, ht, hname, -⟩ := timeBound?_declares hdeclared htime
    exact ⟨t, ht, hname⟩

end Report

end MetricLayer
