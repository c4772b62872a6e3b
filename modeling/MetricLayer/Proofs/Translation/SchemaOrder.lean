import MetricLayer.Proofs.Report.Resolved
import MetricLayer.Proofs.Schema.Order
import MetricLayer.Proofs.Translation.Resolved
import MetricLayer.Service.Basic

/-!
# Translations under a reordered schema

A translation takes from the schema what a name stands for and how two tables are joined, and its
improvements take the views in the order of their names. None of this depends on the order in which
the schema is declared, if no two relationships join the same tables.

Results:
1. `Report.translate_reordered`: a report has the same translation.
2. `Schema.viewFor?_reordered`: the same view takes the place of the tables.
3. `Schema.finalTranslation_reordered`: a definition in another order is a schema under which every
   report has the same translation, improved in the same way.
-/

namespace MetricLayer

variable {s s' : Schema}

namespace Schema

/-! ## Joins and time columns -/

theorem column?_reordered (h : s.Reorders s') : s'.column? = s.column? := by
  funext f
  exact congrArg (fun table? : String → Option Table => (table? f.table).bind (·.column? f.column))
    (table?_reordered h)

theorem tableRef_reordered (h : s.Reorders s') : s'.tableRef = s.tableRef := by
  funext name
  rw [tableRef, tableRef, table?_reordered h]

theorem join_reordered (h : s.Reorders s') : s'.join = s.join := by
  funext step
  rw [join, join, tableRef_reordered h]

theorem anchor?_reordered (h : s.Reorders s') (needed : NeededColumns) :
    s'.anchor? needed = s.anchor? needed := by
  rw [anchor?, anchor?, table?_reordered h]

theorem timeColumn?_reordered (h : s.Reorders s') (r : Report) (needed : NeededColumns) :
    s'.timeColumn? r needed = s.timeColumn? r needed := by
  have hdate : s'.dateField? = s.dateField? := by
    funext table
    rw [dateField?, dateField?, table?_reordered h]
  have hat : s'.timeColumnAt? = s.timeColumnAt? := by
    funext f
    rw [timeColumnAt?, timeColumnAt?, column?_reordered h]
  rw [timeColumn?, timeColumn?, hdate, hat, anchor?_reordered h]

theorem stepsTo_reordered (h : s.Reorders s') (hone : s.definition.HasOneEach) (rule : JoinRule)
    (anchor : String) (joined targets : List String) :
    s'.stepsTo rule anchor joined targets = s.stepsTo rule anchor joined targets := by
  induction targets generalizing joined with
  | nil => rfl
  | cons target targets ih =>
    rw [stepsTo, stepsTo, joinPath?_reordered h hone]
    simp only [ih]

/-- A report is joined by the same plan. -/
theorem joinPlan_reordered (h : s.Reorders s') (hone : s.definition.HasOneEach) (rule : JoinRule)
    (needed : NeededColumns) : s'.joinPlan rule needed = s.joinPlan rule needed := by
  rw [joinPlan, joinPlan, anchor?_reordered h]
  simp only [stepsTo_reordered h hone]

end Schema

/-! ## Reports -/

namespace Report

variable (r : Report)

theorem query_reordered (h : s.Reorders s') (plan : JoinPlan)
    (time : Option (TimeColumn × DayRange)) (limit : Nat) :
    r.query s' plan time limit = r.query s plan time limit := by
  rw [query, query, Schema.tableRef_reordered h, Schema.join_reordered h]

theorem timeBound?_reordered (h : s.Reorders s') : r.timeBound? s' = r.timeBound? s := by
  rw [timeBound?, timeBound?, Schema.timeColumn?_reordered h]

theorem comparisonQuery_reordered (h : s.Reorders s') (t : TranslationSettings) (plan : JoinPlan)
    (column : TimeColumn) (days : DayRange) :
    r.comparisonQuery s' t plan column days = r.comparisonQuery s t plan column days := by
  funext c
  rw [comparisonQuery, comparisonQuery, query_reordered r h]

/-- A report has the same translation. -/
theorem translate_reordered (h : s.Reorders s') (hone : s.definition.HasOneEach)
    (t : TranslationSettings) : r.translate s' t = r.translate s t := by
  have hcomparisons : ∀ plan, r.comparisonQueries s' t plan = r.comparisonQueries s t plan := by
    intro plan
    rw [comparisonQueries, comparisonQueries, timeBound?_reordered r h]
    simp only [comparisonQuery_reordered r h]
  have hcolumns : r.queryColumns s' = r.queryColumns s := by
    rw [queryColumns, queryColumns, timeBound?_reordered r h]
  unfold translate
  simp only [timeBound?_reordered r h, hcolumns, Schema.joinPlan_reordered h hone,
    query_reordered r h, hcomparisons]

end Report

/-! ## Views and indexes -/

namespace Schema

/-- Lists with the same elements, which have different names, are the same in the order of the
names. -/
theorem mergeSort_perm_eq {α : Type} (key : α → String) {xs ys : List α} (h : xs.Perm ys)
    (hkeys : (xs.map key).Nodup) :
    (xs.mergeSort fun a b => decide (key a ≤ key b)) =
      ys.mergeSort fun a b => decide (key a ≤ key b) := by
  have hperm : (xs.mergeSort fun a b => decide (key a ≤ key b)).Perm
      (ys.mergeSort fun a b => decide (key a ≤ key b)) :=
    (List.mergeSort_perm xs _).trans (h.trans (List.mergeSort_perm ys _).symm)
  exact hperm.eq_of_pairwise (fun a b _ _ hab hba => absurd hba (String.lt_asymm hab))
    (pairwise_lt_mergeSort hkeys) (pairwise_lt_mergeSort ((h.map key).nodup_iff.mp hkeys))

/-- The same view takes the place of the tables. -/
theorem viewFor?_reordered (h : s.Reorders s') (q : Query) : s'.viewFor? q = s.viewFor? q := by
  have hnames : (s.materializedViews.map (·.name)).Nodup := by
    have hlower := (SchemaDefinition.names_nodup s.sound).2
    have hviews : (s.views.map (·.name)).Nodup := by
      refine .of_map Text.lower ?_
      rwa [List.map_map]
    exact hviews.sublist (List.filter_sublist.map _)
  have hviews : s.materializedViews.Perm s'.materializedViews :=
    (SchemaDefinition.Reorders.views h).filter _
  rw [viewFor?, viewFor?, mergeSort_perm_eq View.name hviews hnames]

theorem indexHints_reordered (h : s.Reorders s') (q : Query) :
    s'.indexHints q = s.indexHints q := by
  have hindexes : s'.indexesFor = s.indexesFor := by
    funext f
    rw [indexesFor, indexesFor, table?_reordered h]
  rw [indexHints, indexHints, hindexes]

end Schema

/-- A translation is improved in the same way. -/
theorem Translation.optimize_reordered (h : s.Reorders s') (t : Translation)
    (o : OptimizerSettings) : t.optimize s' o = t.optimize s o := by
  have hview : t.withView s' = t.withView s := by
    rw [withView, withView, Schema.viewFor?_reordered h]
  unfold optimize
  simp only [hview, Schema.indexHints_reordered h]

/-- A schema whose relationships join different tables can be declared in any order: the definition
in another order is a schema, under which every report has the same translation or the same
failure. -/
theorem Schema.finalTranslation_reordered (s : Schema) (hone : s.definition.HasOneEach)
    {d : SchemaDefinition} (hd : s.definition.Reorders d) :
    ∃ s', Schema.ofDefinition d = .ok s' ∧ ∀ (r : Report) (settings : Settings),
      r.finalTranslation s' settings = r.finalTranslation s settings := by
  have hsound := hd.fault?_eq_none s.sound
  refine ⟨⟨d, hsound⟩, ofDefinition_eq_ok_iff.mpr ⟨hsound, rfl⟩, fun r settings => ?_⟩
  have h : s.Reorders ⟨d, hsound⟩ := hd
  simp only [Report.finalTranslation, r.translate_reordered h hone,
    Translation.optimize_reordered h]

namespace Wagers

/-- The players. -/
def players : Table :=
  { name := "Players"
    columns := [⟨"Id", .integer, true, true, false⟩, ⟨"Country", .string, true, false, false⟩] }

/-- The countries, which are two joins away from the wagers, over the games and over the players. -/
def countries : Table :=
  { name := "Countries", columns := [⟨"Code", .string, true, true, false⟩] }

def diamond : Schema where
  definition :=
    { tables := [bets, games, players, countries]
      relationships := [⟨"Bets", "GameId", "Games", "Id", .manyToOne⟩,
        ⟨"Bets", "Amount", "Players", "Id", .manyToOne⟩,
        ⟨"Games", "Title", "Countries", "Code", .manyToOne⟩,
        ⟨"Players", "Country", "Countries", "Code", .manyToOne⟩] }
  sound := by decide +kernel

/-- The players come first, and so do the relationships over them. -/
def turned : SchemaDefinition :=
  { tables := [players, countries, bets, games]
    relationships := [⟨"Players", "Country", "Countries", "Code", .manyToOne⟩,
      ⟨"Bets", "Amount", "Players", "Id", .manyToOne⟩,
      ⟨"Games", "Title", "Countries", "Code", .manyToOne⟩,
      ⟨"Bets", "GameId", "Games", "Id", .manyToOne⟩] }

/-- With two shortest paths between two tables, the order still does not matter. -/
theorem diamond_turned : diamond.definition.HasOneEach ∧ diamond.definition.Reorders turned ∧
    ∃ s', Schema.ofDefinition turned = .ok s' ∧ ∀ (r : Report) (settings : Settings),
      r.finalTranslation s' settings = r.finalTranslation diamond settings := by
  have hone : diamond.definition.HasOneEach := by decide +kernel
  have hturned : diamond.definition.Reorders turned :=
    ⟨by decide +kernel, by decide +kernel, by decide +kernel⟩
  exact ⟨hone, hturned, diamond.finalTranslation_reordered hone hturned⟩

end Wagers

end MetricLayer
