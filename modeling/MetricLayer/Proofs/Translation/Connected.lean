import MetricLayer.Proofs.Schema.Routes
import MetricLayer.Proofs.Translation.JoinPlan
import MetricLayer.Proofs.Translation.SchemaOrder

/-!
# When join planning fails

Whether a table can be brought into a plan is a matter of its distance from the anchor. What earlier
targets have brought in chooses among shortest paths and leaves targets out, but a table that is left
out is on a path to one that is in reach, and so it is in reach itself.

Results:
1. `Schema.connects_of_mem_path`: whatever a path brings in is in reach.
2. `Schema.stepsTo_verdict`: targets are joined up to the first that is out of reach.
3. `Schema.joinPlan_fails_iff`: a plan exists if and only if all needed tables are in reach of the
   anchor, and otherwise the failure names the smallest that is not.
-/

namespace MetricLayer

namespace Schema

variable {s : Schema}

/-! ## What is in reach -/

/-- Both names are those of tables, which are connected by at most `depth` relationships. -/
def Connects (s : Schema) (depth : ℕ) (a b : String) : Prop :=
  ∃ t u, s.table? a = some t ∧ s.table? b = some u ∧ s.graph.edist t.name u.name ≤ depth

/-- The table is the anchor or connected to it. -/
def Reaches (s : Schema) (depth : ℕ) (anchor table : String) : Prop :=
  table = anchor ∨ s.Connects depth anchor table

theorem isSome_joinPath? {rule : TieBreak} {joined : List String} {depth : ℕ} {a b : String} :
    (s.joinPath? rule joined depth a b).isSome ↔ s.Connects depth a b := by
  constructor
  · intro h
    obtain ⟨path, hpath⟩ := Option.isSome_iff_exists.mp h
    obtain ⟨t, u, -, ht, hu, -⟩ := joinPath?_route hpath
    exact ⟨t, u, ht, hu, (joinPath?_spec ht hu rule joined depth).1.mp h⟩
  · rintro ⟨t, u, ht, hu, hle⟩
    exact (joinPath?_spec ht hu rule joined depth).1.mpr hle

/-- The tables on a route are no farther than the route is long. -/
theorem Route.edist_le_of_mem {start goal : String} {hops : List Hop}
    (h : s.Route start hops goal) : ∀ hop ∈ hops,
      s.graph.edist start hop.source ≤ hops.length ∧
        s.graph.edist start hop.target ≤ hops.length := by
  induction h with
  | nil => exact nofun
  | @concat before last hbefore hfirst ih =>
    have hlonger : (before.length : ℕ∞) ≤ (before ++ [last]).length := by
      rw [Nat.cast_le, List.length_append]
      exact Nat.le_add_right _ _
    refine List.forall_mem_append.mpr ⟨fun hop hmem => ?_, List.forall_mem_singleton.mpr ?_⟩
    · exact ⟨(ih hop hmem).1.trans hlonger, (ih hop hmem).2.trans hlonger⟩
    · exact ⟨hbefore.edist_le.trans hlonger, (hbefore.concat hfirst).edist_le⟩

/-- Whatever a path brings in is connected to its start, even where a step leads back. -/
theorem connects_of_mem_path {rule : TieBreak} {joined : List String} {depth : ℕ} {a b : String}
    {path : List JoinStep} (h : s.joinPath? rule joined depth a b = some path) {step : JoinStep}
    (hstep : step ∈ path) : s.Connects depth a step.toTable := by
  have hsome := Option.isSome_of_eq_some h
  obtain ⟨t, u, hops, ht, hu, hbest, rfl⟩ := joinPath?_route h
  have hle := (joinPath?_spec ht hu rule joined depth).1.mp hsome
  obtain ⟨hop, hmem, rfl⟩ := List.mem_map.mp hstep
  obtain ⟨hsource, htarget⟩ := hbest.route.edist_le_of_mem hop hmem
  rw [hbest.shortest] at hsource htarget
  have hend : ∀ name, s.leadsTo? hop.step = some name → s.graph.edist t.name name ≤ depth →
      s.Connects depth a hop.step.toTable := by
    intro name hleads hnear
    obtain ⟨v, hv, rfl⟩ := Option.map_eq_some_iff.mp hleads
    exact ⟨t, v, ht, hv, hnear⟩
  obtain ⟨htold, huntold⟩ := Hop.leadsTo?_step (hbest.route.firstEdge hop hmem)
  by_cases h : hop.IsTold
  · exact hend _ (htold h) (htarget.trans hle)
  · exact hend _ (huntold h) (hsource.trans hle)

/-! ## Plans -/

/-- The result of joining targets: all are in reach, or the failure names the first that is not. -/
def IsVerdict (s : Schema) (depth : ℕ) (anchor : String) (targets : List String) :
    Except TranslationError (List JoinStep) → Prop
  | .ok _ => ∀ n ∈ targets, s.Reaches depth anchor n
  | .error e => ∃ before target after, targets = before ++ target :: after ∧
      (∀ n ∈ before, s.Reaches depth anchor n) ∧ ¬s.Reaches depth anchor target ∧
        e = .noJoinPath anchor target

section

variable {depth : ℕ} {anchor target : String} {targets : List String}
  {result : Except TranslationError (List JoinStep)}

theorem IsVerdict.map (h : s.IsVerdict depth anchor targets result)
    (f : List JoinStep → List JoinStep) : s.IsVerdict depth anchor targets (result.map f) := by
  cases result with
  | ok steps => exact h
  | error e => exact h

/-- A target in reach leaves the verdict to those after it. -/
theorem IsVerdict.cons (h : s.IsVerdict depth anchor targets result)
    (htarget : s.Reaches depth anchor target) :
    s.IsVerdict depth anchor (target :: targets) result := by
  cases result with
  | ok steps => exact List.forall_mem_cons.mpr ⟨htarget, h⟩
  | error e =>
    obtain ⟨before, failed, after, rfl, hbefore, hfailed⟩ := h
    exact ⟨target :: before, failed, after, rfl, List.forall_mem_cons.mpr ⟨htarget, hbefore⟩,
      hfailed⟩

end

/-- Targets are joined up to the first that is out of reach, whatever has been joined before. -/
theorem stepsTo_verdict {rule : JoinRule} {anchor : String} {joined targets : List String}
    (hanchor : anchor ∈ joined) (hjoined : ∀ n ∈ joined, s.Reaches rule.maxDepth anchor n) :
    s.IsVerdict rule.maxDepth anchor targets (s.stepsTo rule anchor joined targets) := by
  induction targets generalizing joined with
  | nil => exact nofun
  | cons target targets ih =>
    unfold stepsTo
    split
    · next hthere => exact (ih hanchor hjoined).cons (hjoined target (by simpa using hthere))
    · next hnew =>
      split
      · next hnone =>
        refine ⟨[], target, targets, rfl, nofun, ?_, rfl⟩
        rintro (rfl | hconnects)
        · exact hnew (by simpa using hanchor)
        · rw [← isSome_joinPath?, hnone] at hconnects
          cases hconnects
      · next path hpath =>
        obtain ⟨hnames, hsub, -⟩ := newSteps_spec joined path
        refine ((ih ?_ ?_).cons (.inr (isSome_joinPath?.mp (by rw [hpath]; rfl)))).map _
        · rw [hnames]
          exact List.mem_append_left _ hanchor
        · rw [hnames]
          refine List.forall_mem_append.mpr ⟨hjoined, fun n hn => ?_⟩
          obtain ⟨step, hstep, rfl⟩ := List.mem_map.mp hn
          exact .inr (connects_of_mem_path hpath (hsub step hstep))

/-- The plan for sorted tables exists if and only if each is the anchor or connected to it by at most
as many relationships as the rule allows. Otherwise the failure names the anchor and the smallest
table that is not. -/
theorem joinPlan_fails_iff (rule : JoinRule) {needed : NeededColumns} (hneeded : needed ≠ [])
    (hsorted : needed.tables.Pairwise (· < ·)) :
    ∃ anchor, s.anchor? needed = some anchor ∧
      ((∃ plan, s.joinPlan rule needed = .ok plan) ↔
        ∀ n ∈ needed.tables, s.Reaches rule.maxDepth anchor n) ∧
      ∀ e, s.joinPlan rule needed = .error e ↔ ∃ target ∈ needed.tables,
        ¬s.Reaches rule.maxDepth anchor target ∧
          (∀ n ∈ needed.tables, ¬s.Reaches rule.maxDepth anchor n → target ≤ n) ∧
            e = .noJoinPath anchor target := by
  obtain ⟨anchor, hanchor⟩ := s.exists_anchor? hneeded
  have hplan : s.joinPlan rule needed =
      (s.stepsTo rule anchor [anchor] needed.tables).map fun steps => ⟨anchor, steps⟩ := by
    rw [joinPlan, hanchor]
  have hverdict : s.IsVerdict rule.maxDepth anchor needed.tables
      (s.stepsTo rule anchor [anchor] needed.tables) :=
    s.stepsTo_verdict (List.mem_singleton_self anchor) (List.forall_mem_singleton.mpr (.inl rfl))
  refine ⟨anchor, hanchor, ?_⟩
  rw [hplan]
  cases hresult : s.stepsTo rule anchor [anchor] needed.tables with
  | ok steps =>
    rw [hresult] at hverdict
    refine ⟨⟨fun _ => hverdict, fun _ => ⟨_, rfl⟩⟩, fun e => ⟨fun h => ?_, ?_⟩⟩
    · cases h
    · rintro ⟨target, hmem, hfar, -⟩
      exact (hfar (hverdict target hmem)).elim
  | error e =>
    rw [hresult] at hverdict
    obtain ⟨before, failed, after, htables, hbefore, hfailed, rfl⟩ := hverdict
    have hmem : failed ∈ needed.tables := htables ▸ List.mem_append_right _ List.mem_cons_self
    -- the first one that fails is the smallest, as the tables are sorted
    have hleast : ∀ n ∈ needed.tables, ¬s.Reaches rule.maxDepth anchor n → failed ≤ n := by
      rw [htables] at hsorted ⊢
      intro n hn hfar
      rcases List.mem_append.mp hn with hn | hn
      · exact (hfar (hbefore n hn)).elim
      · rcases List.mem_cons.mp hn with rfl | hn
        · exact le_rfl
        · exact ((List.pairwise_cons.mp (List.pairwise_append.mp hsorted).2.1).1 n hn).le
    refine ⟨⟨?_, fun hall => (hfailed (hall failed hmem)).elim⟩, fun e => ⟨fun h => ?_, ?_⟩⟩
    · rintro ⟨plan, hplan⟩
      cases hplan
    · cases h
      exact ⟨failed, hmem, hfailed, hleast, rfl⟩
    · rintro ⟨target, htarget, hfar, hle, rfl⟩
      rw [le_antisymm (hle failed hmem hfailed) (hleast target htarget hfar)]
      rfl

end Schema

/-! ## Needed tables are sorted -/

namespace NeededColumns

theorem tables_add_sorted {needed : NeededColumns} (h : needed.tables.Pairwise (· < ·))
    (table column : String) : (needed.add table column).tables.Pairwise (· < ·) := by
  induction needed with
  | nil => exact List.pairwise_singleton _ _
  | cons entry rest ih =>
    obtain ⟨t, columns⟩ := entry
    obtain ⟨hfirst, hrest⟩ := List.pairwise_cons.mp h
    unfold add
    split
    · exact h
    · next hne =>
      split
      · next hlt =>
        refine List.pairwise_cons.mpr ⟨List.forall_mem_cons.mpr ⟨hlt, fun n hn => ?_⟩, h⟩
        exact hlt.trans (hfirst n hn)
      · next hle =>
        refine List.pairwise_cons.mpr ⟨fun n hn => ?_, ih hrest⟩
        rcases mem_tables_add.mp hn with rfl | hn
        · exact (not_lt.mp hle).lt_of_ne' hne
        · exact hfirst n hn

/-- The needed tables of fields are in the order of their names. -/
theorem tables_ofFields_sorted (fs : List Field) : (ofFields fs).tables.Pairwise (· < ·) := by
  suffices ∀ needed : NeededColumns, needed.tables.Pairwise (· < ·) →
      (fs.foldl (fun n f => add f.table f.column n) needed).tables.Pairwise (· < ·) from
    this [] .nil
  induction fs with
  | nil => exact fun _ h => h
  | cons f fs ih => exact fun needed h => ih _ (tables_add_sorted h f.table f.column)

end NeededColumns

namespace Wagers

/-- Two joins are too many for a depth of one, whichever way they go. -/
theorem joinPlan_fails_iff_far :
    NeededColumns.ofFields [⟨"Bets", "Amount"⟩, ⟨"Countries", "Code"⟩] ≠ [] ∧
      (NeededColumns.ofFields [⟨"Bets", "Amount"⟩, ⟨"Countries", "Code"⟩]).tables.Pairwise (· < ·) ∧
        ¬diamond.Reaches 1 "Bets" "Countries" := by
  have hneeded : NeededColumns.ofFields [⟨"Bets", "Amount"⟩, ⟨"Countries", "Code"⟩] ≠ [] := nofun
  have hsorted := NeededColumns.tables_ofFields_sorted [⟨"Bets", "Amount"⟩, ⟨"Countries", "Code"⟩]
  have hfails : diamond.joinPlan ⟨.preferJoined, 1⟩
      (NeededColumns.ofFields [⟨"Bets", "Amount"⟩, ⟨"Countries", "Code"⟩]) =
        .error (.noJoinPath "Bets" "Countries") := by decide +kernel
  obtain ⟨anchor, -, -, hfailure⟩ :=
    diamond.joinPlan_fails_iff ⟨.preferJoined, 1⟩ hneeded hsorted
  obtain ⟨target, -, hfar, -, heq⟩ := (hfailure _).mp hfails
  obtain ⟨rfl, rfl⟩ := TranslationError.noJoinPath.inj heq
  exact ⟨hneeded, hsorted, hfar⟩

end Wagers

end MetricLayer
