import Mathlib.Data.Rat.Encodable
import MetricLayer.Proofs.Translation.ViewRows

/-!
# What a view needs

A view that a query has the same answers over on every database suits the query, as far as the
answers can tell. This takes two kinds of databases, in which all rows of a table are the same. In
one kind, a column that is not linked to another one has another value, so that one side has no rows.
In the other, there are two rows of one table, and sums are not the values that they are sums of.

Results:
1. `Expr.combine_of_eval`: functions for which equal values come from equal aggregates.
2. `View.suits_of_preserves`: the view suits the query.
-/

namespace MetricLayer

/-! ## Functions that lose nothing -/

instance : Encodable (Datum ℕ) := Encodable.ofEquiv _ ofLex

/-- All that is given as one value. -/
def Value.keep {β : Type} [Encodable β] (x : β) : Value ℕ := some (toLex (.inr (Encodable.encode x)))

theorem Value.keep_inj {β : Type} [Encodable β] {x y : β} (h : keep x = keep y) : x = y :=
  Encodable.encode_injective (Sum.inr.inj (toLex.injective (Option.some.inj h)))

/-- Functions whose values tell what they were given. Every condition is met, and no order matters. -/
def Functions.keeping : Functions ℕ where
  literal _ := none
  number _ := none
  binary _ x y := .keep (x, y)
  not x := x
  between x low high := .keep (x, low, high)
  inList _ x items := .keep (x, items)
  isNull _ x := x
  like x pattern := .keep (x, pattern)
  datePart _ x := x
  nullIfZero x := x
  holds _ := true
  le _ _ := true

namespace Expr

variable {rows rows' : List (Env ℕ)}

mutual

/-- Equal values come from equal aggregates. -/
theorem combine_of_eval : ∀ e : Expr, e.eval .keeping rows = e.eval .keeping rows' →
    ∀ m ∈ e.measures, m.1.combine (rows.map fun row => m.2.eval .keeping [row]) =
      m.1.combine (rows'.map fun row => m.2.eval .keeping [row])
  | field _, _ | value _, _ | number _, _ => nofun
  | aggregate a e, h => List.forall_mem_singleton.mpr h
  | binary a _ b, h => by
    obtain ⟨ha, hb⟩ := Prod.mk.inj (Value.keep_inj h)
    exact List.forall_mem_append.mpr ⟨combine_of_eval a ha, combine_of_eval b hb⟩
  | not e, h | isNull e _, h | datePart _ e, h | nullIfZero e, h | nested e, h =>
    combine_of_eval e h
  | between e low high, h => by
    obtain ⟨he, h⟩ := Prod.mk.inj (Value.keep_inj h)
    obtain ⟨hlow, hhigh⟩ := Prod.mk.inj h
    exact List.forall_mem_append.mpr ⟨List.forall_mem_append.mpr
      ⟨combine_of_eval e he, combine_of_eval low hlow⟩, combine_of_eval high hhigh⟩
  | inList e items _, h => by
    obtain ⟨he, hitems⟩ := Prod.mk.inj (Value.keep_inj h)
    exact List.forall_mem_append.mpr ⟨combine_of_eval e he, combine_of_evalList items hitems⟩
  | like e p, h => by
    obtain ⟨he, hp⟩ := Prod.mk.inj (Value.keep_inj h)
    exact List.forall_mem_append.mpr ⟨combine_of_eval e he, combine_of_eval p hp⟩

theorem combine_of_evalList : ∀ es : List Expr,
    evalList .keeping rows es = evalList .keeping rows' es →
    ∀ m ∈ measuresOfList es, m.1.combine (rows.map fun row => m.2.eval .keeping [row]) =
      m.1.combine (rows'.map fun row => m.2.eval .keeping [row])
  | [], _ => nofun
  | e :: es, h => by
    obtain ⟨he, hes⟩ := List.cons.inj h
    exact List.forall_mem_append.mpr ⟨combine_of_eval e he, combine_of_evalList es hes⟩

end

end Expr

/-! ## Answers where every condition is met -/

namespace Query

variable {q : Query} {rows rows' : List (Env ℕ)}

/-- The result of a group. -/
def outcome (q : Query) (group : List (Env ℕ)) : List (Value ℕ) × List (Value ℕ) :=
  (q.orderBy.map (·.expr.eval .keeping group), q.select.map (·.expr.eval .keeping group))

theorem result?_keeping (q : Query) : q.result? .keeping = fun group => some (q.outcome group) := by
  funext group
  exact if_pos (List.all_eq_true.mpr fun _ _ => rfl)

theorem results_keeping (q : Query) (rows : List (Env ℕ)) :
    q.results .keeping rows = (q.groups .keeping rows).map q.outcome := by
  have hkept : q.kept .keeping rows = rows := by
    refine List.filter_eq_self.mpr fun _ _ => List.all_eq_true.mpr fun _ _ => rfl
  rw [results, hkept, result?_keeping]
  exact congrFun List.filterMap_eq_map _

theorem inOrder_keeping (ds : List Bool) (xs ys : List (Value ℕ)) :
    inOrder .keeping ds xs ys = true := by
  induction ds generalizing xs ys with
  | nil => rfl
  | cons d ds ih =>
    cases xs with
    | nil => rfl
    | cons x xs =>
      cases ys with
      | nil => rfl
      | cons y ys => exact ih xs ys

/-- At least two rows are shown if there are. -/
def ShowsTwo (q : Query) : Prop := ∀ n, q.limit = some n → 2 ≤ n

/-- Where one side has at most one result, the other one has as many, which show the same. -/
theorem results_of_answers (hlimit : q.ShowsTwo)
    (h : ∀ answer, q.Answers .keeping rows answer ↔ q.Answers .keeping rows' answer)
    (hone : (q.results .keeping rows').length ≤ 1) :
    (q.results .keeping rows).length = (q.results .keeping rows').length ∧
      ∀ x ∈ q.results .keeping rows, ∃ y ∈ q.results .keeping rows', x.2 = y.2 := by
  generalize hresults : q.results .keeping rows = results
  generalize hresults' : q.results .keeping rows' = results' at hone ⊢
  have hanswer : q.Answers .keeping rows
      ((results.take (q.limit.getD results.length)).map (·.2)) :=
    ⟨results, hresults ▸ List.Perm.refl _,
      List.pairwise_of_forall fun _ _ => inOrder_keeping _ _ _, rfl⟩
  obtain ⟨sorted, hsorted, -, heq⟩ := (h _).mp hanswer
  rw [hresults'] at hsorted
  have hlengths := congrArg List.length heq
  simp only [List.length_map, List.length_take, hsorted.length_eq] at hlengths
  have hlength : results.length = results'.length ∧
      results.length ≤ q.limit.getD results.length := by
    cases hq : q.limit with
    | none =>
      simp only [hq, Option.getD_none, Nat.min_self] at hlengths ⊢
      exact ⟨hlengths, Nat.le_refl _⟩
    | some n =>
      have htwo := hlimit n hq
      simp only [hq, Option.getD_some] at hlengths ⊢
      omega
  refine ⟨hlength.1, fun x hx => ?_⟩
  rw [List.take_of_length_le hlength.2] at heq
  have hmem := heq ▸ List.mem_map_of_mem (f := Prod.snd) hx
  obtain ⟨y, hy, hxy⟩ := List.mem_map.mp hmem
  exact ⟨y, hsorted.mem_iff.mp (List.mem_of_mem_take hy), hxy.symm⟩

/-- The groups of rows that are all the same. -/
theorem groups_replicate (hgrouping : q.isGrouping = true) (n : ℕ) (row : Env ℕ) :
    q.groups .keeping (List.replicate (n + 1) row) = [List.replicate (n + 1) row] := by
  unfold groups
  rw [hgrouping, Bool.not_true, if_neg Bool.false_ne_true]
  split
  · rfl
  · exact groupRows_replicate _ n row

/-- Equal answers of rows that are all the same have equal aggregates. -/
theorem combine_of_answers (hlimit : q.ShowsTwo)
    (hselected : q.measures ⊆ q.select.flatMap (·.expr.measures))
    (h : ∀ answer, q.Answers .keeping rows answer ↔ q.Answers .keeping rows' answer)
    (hgroups : q.groups .keeping rows = [rows]) (hgroups' : q.groups .keeping rows' = [rows'])
    {a : Aggregation} {c : Field} (hm : (a, .field c) ∈ q.measures) :
    a.combine (rows.map (· c)) = a.combine (rows'.map (· c)) := by
  have hsame := (results_of_answers hlimit h (by simp [results_keeping, hgroups'])).2
    (q.outcome rows) (by simp [results_keeping, hgroups])
  rw [results_keeping, hgroups'] at hsame
  obtain ⟨y, hy, hxy⟩ := hsame
  rw [List.mem_singleton.mp hy] at hxy
  obtain ⟨item, hitem, hm⟩ := List.mem_flatMap.mp (hselected hm)
  exact item.expr.combine_of_eval (List.map_inj_left.mp hxy item hitem) _ hm

end Query

/-! ## Stored views -/

variable {α : Type} [LinearOrder α]

namespace View

variable {v : View} {s : Schema} {q : Query}

/-- The row that the view stores for a group. -/
def row (v : View) (part : List (Env α)) (column : String) : Value α :=
  ((v.columns.find? (Text.lowerAscii ·.name = column)).bind (·.source)).bind (v.shown · part)

theorem row_stores (hcolumns : (v.columns.map (Text.lowerAscii ·.name)).Nodup)
    (part : List (Env α)) : v.Stores (v.row part) part := by
  intro c hc f hf
  rw [row, find?_key hcolumns hc, Option.bind_some, hf, Option.bind_some]

/-- The query has the same answers over the view on every database in which the view holds what it
declares. -/
def Preserves (v : View) (s : Schema) (q : Query) : Prop :=
  ∀ (α : Type) [LinearOrder α] (fns : Functions α) (db : Database α), v.HoldsIn s db →
    ∀ answer, (q.moved v).AnswersOn fns db answer ↔ q.AnswersOn fns db answer

/-- The view can be told from tables, and its columns from each other. -/
structure IsNamed (v : View) (s : Schema) (q : Query) : Prop where
  columns : (v.columns.map (Text.lowerAscii ·.name)).Nodup
  sources : Text.lowerAscii v.name ∉ v.tableKeys s
  tables : Text.lowerAscii v.name ∉ q.tables.map Text.lowerAscii

end View

namespace Database

/-- The database with what the view declares. -/
def store (db : Database α) (v : View) (s : Schema) : Database α := fun name =>
  if name = Text.lowerAscii v.name then (v.parts (v.joinedRows s db)).map v.row else db name

end Database

namespace View.Preserves

variable {v : View} {s : Schema} {q : Query}

/-- On any database, the groups that the view shows have the answers of all rows. -/
theorem answers_shown (h : v.Preserves s q) (hserves : v.serves q = true) (hnamed : v.IsNamed s q)
    (fns : Functions α) (db : Database α) (answer : List (List (Value α))) :
    q.Answers fns ((v.parts (v.joinedRows s db)).map fun p f => v.shown f p) answer ↔
      q.Answers fns (q.sourceRows db) answer := by
  have hkeys : ∀ t ∈ v.tableKeys s, Text.lowerAscii t ≠ Text.lowerAscii v.name := by
    intro t ht heq
    obtain ⟨t', -, rfl⟩ := List.mem_map.mp (List.mem_dedup.mp ht)
    rw [lowerAscii_lowerAscii] at heq
    exact hnamed.sources (heq ▸ ht)
  have hview : v.joinedRows s (db.store v s) = v.joinedRows s db := by
    rw [joinedRows, joinedRows, Database.join, Database.join]
    rw [Database.product_congr fun t ht => if_neg (hkeys t ht)]
  have htables : ∀ t ∈ q.tables, Text.lowerAscii t ≠ Text.lowerAscii v.name :=
    fun t ht heq => hnamed.tables (heq ▸ List.mem_map_of_mem ht)
  have hquery : q.sourceRows (db.store v s) = q.sourceRows db := by
    rw [Query.sourceRows, Query.sourceRows, Database.join, Database.join]
    rw [Database.product_congr fun t ht => if_neg (htables t ht)]
  have hstores : List.Forall₂ v.Stores (db.store v s (Text.lowerAscii v.name))
      (v.parts (v.joinedRows s db)) := by
    rw [Database.store, if_pos rfl, List.forall₂_map_left_iff, List.forall₂_same]
    exact fun part _ => row_stores hnamed.columns part
  have hsame := h α fns (db.store v s) ⟨_, by rw [hview], hstores⟩ answer
  rw [Query.AnswersOn, Query.AnswersOn, hquery] at hsame
  have hlowered : ∀ p ∈ v.parts (v.joinedRows s db), ∀ row ∈ p, row.Lowered :=
    fun p hp row hrow => Database.join_lowered (mem_of_mem_parts hp hrow)
  have horder : q.orderBy.map (·.descending) = (q.moved v).orderBy.map (·.descending) := by
    simp only [Query.moved, Query.mapFields, List.map_map, Function.comp_def]
  rw [← hsame]
  refine Query.answers_of_perm horder rfl ?_ answer
  rw [Query.results_moved hserves hlowered hstores]

end View.Preserves

/-! ## Tables whose rows are all the same -/

/-- In each table all rows have the same values. -/
def Database.uniform (count : String → ℕ) (value : Field → ℚ) : Database ℕ := fun table =>
  List.replicate (count table) fun column => .ofRat (value ⟨table, column⟩)

/-- The row with a value for every column of the tables. -/
def Env.uniform (tables : List String) (value : Field → ℚ) : Env ℕ := fun f =>
  if f.lowered.table ∈ tables.map Text.lowerAscii then .ofRat (value f.lowered) else none

variable {count : String → ℕ} {value : Field → ℚ} {ts ts' : List String}
  {pairs pairs' : List (Field × Field)}

theorem Database.product_uniform (count : String → ℕ) (value : Field → ℚ) (ts : List String) :
    (Database.uniform count value).product ts =
      List.replicate (ts.map fun t => count (Text.lowerAscii t)).prod (Env.uniform ts value) := by
  induction ts with
  | nil => rfl
  | cons t ts ih =>
    have hextend : (Env.uniform ts value).extend t
        (fun column => .ofRat (value ⟨Text.lowerAscii t, column⟩)) = Env.uniform (t :: ts) value := by
      funext f
      by_cases hf : f.lowered.table = Text.lowerAscii t
      · rw [Env.extend, if_pos hf, Env.uniform, List.map_cons, if_pos (by simp [hf]), ← hf]
      · simp [Env.extend, Env.uniform, hf]
    rw [product, ih, uniform, List.flatMap_replicate, List.map_replicate, hextend,
      List.flatten_replicate_replicate, List.map_cons, List.prod_cons, Nat.mul_comm]

theorem Database.join_uniform (count : String → ℕ) (value : Field → ℚ) (ts : List String)
    (pairs : List (Field × Field)) : (Database.uniform count value).join ts pairs =
      if (Env.uniform ts value).joins pairs then
        List.replicate (ts.map fun t => count (Text.lowerAscii t)).prod (Env.uniform ts value)
      else [] := by
  rw [join, product_uniform, List.filter_replicate]

theorem Env.uniform_congr (h : ∀ t, t ∈ ts.map Text.lowerAscii ↔ t ∈ ts'.map Text.lowerAscii)
    (value : Field → ℚ) : Env.uniform ts value = Env.uniform ts' value := by
  funext f
  simp only [uniform, h]

/-- The columns of the pairs are columns of the tables. -/
def Within (ts : List String) (pairs : List (Field × Field)) : Prop :=
  ∀ p ∈ pairs, p.1.lowered.table ∈ ts.map Text.lowerAscii ∧
    p.2.lowered.table ∈ ts.map Text.lowerAscii

theorem Env.joins_uniform (h : Within ts pairs) :
    (Env.uniform ts value).joins pairs = true ↔
      ∀ p ∈ pairs, value p.1.lowered = value p.2.lowered := by
  refine List.all_eq_true.trans (forall₂_congr fun p hp => ?_)
  obtain ⟨hfirst, hsecond⟩ := h p hp
  rw [Env.uniform, Env.uniform, if_pos hfirst, if_pos hsecond, Bool.and_eq_true,
    decide_eq_true_eq]
  simp [Value.ofRat]

theorem Linked.symm {f g : Field} (h : Linked pairs f g) : Linked pairs g f :=
  Relation.TransGen.mono (fun _ _ ⟨p, hp, hends⟩ => ⟨p, hp, hends.symm.imp And.symm And.symm⟩) _ _
    (Relation.TransGen.swap _ _ h)

/-- Columns that have equal values whenever linked columns do are linked. -/
theorem linked_of_values (hpairs : ∀ p ∈ pairs', p.1.lowered ≠ p.2.lowered)
    (h : ∀ value : Field → ℚ, (∀ p ∈ pairs, value p.1.lowered = value p.2.lowered) →
      ∀ p ∈ pairs', value p.1.lowered = value p.2.lowered) :
    ∀ f g, Linked pairs' f g → Linked pairs f g := by
  classical
  have hstep : ∀ p ∈ pairs', Linked pairs p.1.lowered p.2.lowered := by
    intro p hp
    -- one value for all that is linked to the first column, another one for the rest
    let value (f : Field) : ℚ := if f = p.1.lowered ∨ Linked pairs p.1.lowered f then 1 else 2
    have hvalue : ∀ p' ∈ pairs, value p'.1.lowered = value p'.2.lowered := by
      intro p' hp'
      have hlinked := linked_of_mem hp'
      refine if_congr ?_ rfl rfl
      constructor
      · rintro (heq | hfirst)
        · exact .inr (heq ▸ hlinked)
        · exact .inr (hfirst.trans hlinked)
      · rintro (heq | hsecond)
        · exact .inr (heq ▸ hlinked.symm)
        · exact .inr (hsecond.trans hlinked.symm)
    have hsame := h value hvalue p hp
    simp only [value, true_or, if_true] at hsame
    split at hsame
    case isTrue hlinked => exact hlinked.resolve_left (hpairs p hp).symm
    case isFalse => norm_num at hsame
  intro f g hlinked
  induction hlinked with
  | single hfg =>
    obtain ⟨p, hp, ⟨rfl, rfl⟩ | ⟨rfl, rfl⟩⟩ := hfg
    · exact hstep p hp
    · exact (hstep p hp).symm
  | tail _ hgg ih =>
    obtain ⟨p, hp, ⟨rfl, rfl⟩ | ⟨rfl, rfl⟩⟩ := hgg
    · exact ih.trans (hstep p hp)
    · exact ih.trans (hstep p hp).symm

/-! ## Queries that tell what they read -/

namespace Query

/-- The tables of the query are declared in this spelling, they all differ, and they have the columns
that are joined and aggregated. -/
structure IsJoined (q : Query) (s : Schema) : Prop where
  declared : ∀ t ∈ q.tables, ∃ t', s.table? t = some t' ∧
    Text.lowerAscii t'.name = Text.lowerAscii t
  distinct : (q.tables.map Text.lowerAscii).Nodup
  within : Within q.tables q.joinPairs
  proper : ∀ p ∈ q.joinPairs, p.1.lowered ≠ p.2.lowered
  measures : ∀ m ∈ q.measures, ∃ c, m.2 = .field c ∧ c.lowered.table ∈ q.tables.map Text.lowerAscii

/-- The query shows all that it computes: two rows if there are, and every aggregate. -/
structure IsOpen (q : Query) : Prop where
  limit : q.ShowsTwo
  measures : q.measures ⊆ q.select.flatMap (·.expr.measures)
  grouping : q.isGrouping = true → q.groupBy ≠ [] ∨ q.measures ≠ []

variable {q : Query} {s : Schema}

theorem combine_singleton_ne (a : Aggregation) (x : Datum ℕ) : a.combine [some x] ≠ a.combine [] := by
  cases a with
  | min => exact WithTop.coe_ne_top
  | max => exact WithBot.coe_ne_bot
  | _ => simp [Aggregation.combine, Value.ofRat]

/-- A row makes a difference. -/
theorem answers_row_ne (hjoined : q.IsJoined s) (hopen : q.IsOpen) (value : Field → ℚ) :
    ¬ ∀ answer, q.Answers .keeping [Env.uniform q.tables value] answer ↔
      q.Answers .keeping [] answer := by
  intro h
  by_cases hempty : q.groups .keeping ([] : List (Env ℕ)) = []
  · have hlength := (results_of_answers hopen.limit h (by simp [results_keeping, hempty])).1
    have hrow : q.groups .keeping [Env.uniform q.tables value] ≠ [] := by
      cases hgrouping : q.isGrouping with
      | true =>
        rw [← List.replicate_one, groups_replicate hgrouping]
        exact List.cons_ne_nil _ _
      | false => simp [groups, hgrouping]
    rw [results_keeping, results_keeping, hempty] at hlength
    exact hrow (List.map_eq_nil_iff.mp (List.length_eq_zero_iff.mp hlength))
  · -- all rows are one group, so the query shows an aggregate
    have hall : q.isGrouping = true ∧ q.groupBy = [] := by
      unfold groups at hempty
      split at hempty
      · exact absurd rfl hempty
      · next hgrouping =>
        split at hempty
        · next hby => exact ⟨by simpa using hgrouping, List.isEmpty_iff.mp hby⟩
        · exact absurd rfl hempty
    have hgroups : ∀ rows : List (Env ℕ), q.groups .keeping rows = [rows] := by
      intro rows
      simp [groups, hall]
    obtain ⟨⟨a, e⟩, hm⟩ := List.exists_mem_of_ne_nil _
      ((hopen.grouping hall.1).resolve_left (not_not_intro hall.2))
    obtain ⟨c, rfl, hc⟩ := hjoined.measures _ hm
    have hsame := combine_of_answers hopen.limit hopen.measures h (hgroups _) (hgroups _) hm
    refine combine_singleton_ne a (toLex (.inl (value c.lowered))) ?_
    rw [List.map_singleton, Env.uniform, if_pos hc] at hsame
    exact hsame

end Query

namespace View

variable {v : View} {s : Schema} {q : Query}

theorem tableKeys_subset (hserves : v.serves q = true) (hjoined : q.IsJoined s) :
    q.tables.map Text.lowerAscii ⊆ v.tableKeys s := by
  simp only [serves, Bool.and_eq_true, coversTables, List.all_eq_true, List.any_eq_true] at hserves
  intro key hkey
  obtain ⟨t, ht, rfl⟩ := List.mem_map.mp hkey
  obtain ⟨source, hsource, hsame⟩ := hserves.1.1 t ht
  obtain ⟨t', ht', hname⟩ := hjoined.declared t ht
  have hfound : s.table? source = some t' := by
    rw [← ht']
    have hlower : Text.lower source = Text.lower t := by simpa [sameName] using hsame
    simp only [Schema.table?, SchemaDefinition.table?, sameName, hlower]
  refine List.mem_dedup.mpr (List.mem_map.mpr ⟨t', ?_, hname⟩)
  exact List.mem_filterMap.mpr ⟨source, hsource, hfound⟩

/-- A link joins columns of two tables of the view. -/
theorem links_spec {p : Field × Field} (hp : p ∈ v.links s) :
    p.1.lowered.table ∈ v.tableKeys s ∧ p.2.lowered.table ∈ v.tableKeys s ∧
      p.1.lowered ≠ p.2.lowered := by
  obtain ⟨r, -, hr⟩ := List.mem_filterMap.mp hp
  obtain ⟨t, -, hr⟩ := Option.bind_eq_some_iff.mp hr
  obtain ⟨u, -, hr⟩ := Option.bind_eq_some_iff.mp hr
  split at hr
  case isFalse => cases hr
  case isTrue hkeys =>
    cases hr
    exact ⟨hkeys.1, hkeys.2.1, fun heq => hkeys.2.2 (congrArg Field.table heq)⟩

/-- The view shows the row of a single group as it is. -/
theorem shown_uniform (ts : List String) (value : Field → ℚ) :
    ((v.parts [Env.uniform ts value]).map fun p f => v.shown f p) = [Env.uniform ts value] := by
  have hparts : v.parts [Env.uniform ts value] = [[Env.uniform ts value]] := by
    unfold parts
    split
    · exact groupRows_replicate v.key 0 _
    · rfl
  have hsum : ∀ f, Aggregation.sum.combine [Env.uniform ts value f] = Env.uniform ts value f := by
    intro f
    unfold Env.uniform
    split
    · simp [Aggregation.combine, Value.ofRat, Datum.number]
    · rfl
  rw [hparts, List.map_singleton]
  congr 1
  funext f
  unfold shown
  split
  · exact hsum f
  · rfl

namespace Preserves

variable (h : v.Preserves s q) (hserves : v.serves q = true) (hnamed : v.IsNamed s q)
  (hjoined : q.IsJoined s) (hopen : q.IsOpen)

include h hserves hnamed hjoined hopen

/-- The view joins no more tables than the query. -/
theorem tables : (q.tables.map Text.lowerAscii).Perm (v.tableKeys s) := by
  refine (List.perm_ext_iff_of_nodup hjoined.distinct (List.nodup_dedup _)).mpr fun key => ?_
  refine ⟨fun hkey => tableKeys_subset hserves hjoined hkey, fun hkey => ?_⟩
  by_contra hother
  -- one row in each table, but none in the one that the query does not read
  let count (table : String) : ℕ := if table = key then 0 else 1
  have hsame := h.answers_shown hserves hnamed .keeping (Database.uniform count fun _ => 1)
  have hview : v.joinedRows s (Database.uniform count fun _ => 1) = [] := by
    have hzero : ((v.tableKeys s).map fun t => count (Text.lowerAscii t)).prod = 0 := by
      refine List.prod_eq_zero (List.mem_map.mpr ⟨key, hkey, ?_⟩)
      have hkey' : key ∈ (v.tableKeys s).map Text.lowerAscii :=
        (v.tableKeys_map_lowerAscii s).symm ▸ hkey
      obtain ⟨t, -, rfl⟩ := List.mem_map.mp hkey'
      rw [lowerAscii_lowerAscii]
      exact if_pos rfl
    rw [joinedRows, Database.join_uniform, hzero, List.replicate_zero, ite_self]
  have hquery : q.sourceRows (Database.uniform count fun _ => 1) =
      [Env.uniform q.tables fun _ => 1] := by
    have hone : (q.tables.map fun t => count (Text.lowerAscii t)).prod = 1 := by
      refine List.prod_eq_one fun n hn => ?_
      obtain ⟨t, ht, rfl⟩ := List.mem_map.mp hn
      exact if_neg fun heq : Text.lowerAscii t = key => hother (heq ▸ List.mem_map_of_mem ht)
    rw [Query.sourceRows, Database.join_uniform, hone,
      if_pos ((Env.joins_uniform hjoined.within).mpr fun _ _ => rfl), List.replicate_one]
  rw [hview, hquery, parts_nil] at hsame
  exact Query.answers_row_ne hjoined hopen _ fun answer => (hsame answer).symm

/-- The view joins its tables along the columns of the query. -/
theorem links : SameLinks q.joinPairs (v.links s) := by
  have htables := h.tables hserves hnamed hjoined hopen
  have hwithin : Within (v.tableKeys s) (v.links s) := by
    intro p hp
    rw [tableKeys_map_lowerAscii]
    exact ⟨(links_spec hp).1, (links_spec hp).2.1⟩
  -- with one row in each table, there is a joined row on both sides or on neither
  have hrows : ∀ value : Field → ℚ, (∀ p ∈ q.joinPairs, value p.1.lowered = value p.2.lowered) ↔
      ∀ p ∈ v.links s, value p.1.lowered = value p.2.lowered := by
    intro value
    have hsame := h.answers_shown hserves hnamed .keeping (Database.uniform (fun _ => 1) value)
    have hrow : Env.uniform (v.tableKeys s) value = Env.uniform q.tables value := by
      refine Env.uniform_congr (fun t => ?_) value
      rw [tableKeys_map_lowerAscii, htables.mem_iff]
    have hone : ∀ ts : List String, (ts.map fun _ => 1).prod = 1 := fun ts =>
      List.prod_eq_one fun n hn => by
        obtain ⟨t, -, rfl⟩ := List.mem_map.mp hn
        rfl
    rw [joinedRows, Query.sourceRows, Database.join_uniform, Database.join_uniform, hone, hone,
      List.replicate_one, hrow, List.replicate_one] at hsame
    rw [← Env.joins_uniform hjoined.within, ← Env.joins_uniform hwithin, hrow]
    cases hquery : (Env.uniform q.tables value).joins q.joinPairs <;>
      cases hview : (Env.uniform q.tables value).joins (v.links s) <;>
        simp only [hquery, hview, if_true, Bool.false_eq_true, if_false, parts_nil, List.map_nil,
          shown_uniform] at hsame
    case false.false => exact Iff.rfl
    case false.true => exact absurd hsame (Query.answers_row_ne hjoined hopen value)
    case true.false =>
      exact absurd (fun answer => (hsame answer).symm) (Query.answers_row_ne hjoined hopen value)
    case true.true => exact Iff.rfl
  intro f g
  exact ⟨linked_of_values hjoined.proper (fun value => (hrows value).mpr) f g,
    linked_of_values (fun p hp => (links_spec hp).2.2) (fun value => (hrows value).mp) f g⟩

/-- With two equal rows on the side of the tables, a view with groups has one row, in which what it is
not grouped by is summed up. -/
theorem answers_twice (haggregated : v.isAggregated = true) (answer : List (List (Value ℕ))) :
    q.Answers .keeping [fun f => v.shown f (List.replicate 2 (Env.uniform q.tables fun _ => 1))]
        answer ↔
      q.Answers .keeping (List.replicate 2 (Env.uniform q.tables fun _ => 1)) answer := by
  have htables := h.tables hserves hnamed hjoined hopen
  have hmatches : v.Matches s q := ⟨htables, h.links hserves hnamed hjoined hopen⟩
  let count (table : String) : ℕ := if table = Text.lowerAscii q.source.table then 2 else 1
  have htwo : (q.tables.map fun t => count (Text.lowerAscii t)).prod = 2 := by
    have hdistinct := hjoined.distinct
    rw [Query.tables, List.map_cons, List.nodup_cons] at hdistinct
    have hone : ((q.joins.map (·.table.table)).map fun t => count (Text.lowerAscii t)).prod = 1 := by
      refine List.prod_eq_one fun n hn => ?_
      obtain ⟨t, ht, rfl⟩ := List.mem_map.mp hn
      refine if_neg fun heq : Text.lowerAscii t = Text.lowerAscii q.source.table => ?_
      exact hdistinct.1 (heq ▸ List.mem_map_of_mem ht)
    rw [Query.tables, List.map_cons, List.prod_cons, hone, Nat.mul_one]
    exact if_pos rfl
  have hquery : q.sourceRows (Database.uniform count fun _ => 1) =
      List.replicate 2 (Env.uniform q.tables fun _ => 1) := by
    rw [Query.sourceRows, Database.join_uniform, htwo,
      if_pos ((Env.joins_uniform hjoined.within).mpr fun _ _ => rfl)]
  have hview : v.joinedRows s (Database.uniform count fun _ => 1) =
      List.replicate 2 (Env.uniform q.tables fun _ => 1) := by
    have hperm := hmatches.sourceRows_perm (Database.uniform count fun _ => 1)
    rw [hquery] at hperm
    exact (List.replicate_perm.mp hperm).symm
  have hsame := h.answers_shown hserves hnamed .keeping (Database.uniform count fun _ => 1) answer
  rw [hview, hquery, parts, if_pos haggregated, groupRows_replicate] at hsame
  exact hsame

/-- A view with groups only has the answers of queries with groups. -/
theorem grouping (haggregated : v.isAggregated = true) : q.isGrouping = true := by
  by_contra hgrouping
  have hsame := h.answers_twice hserves hnamed hjoined hopen haggregated
  have hgroups : ∀ rows : List (Env ℕ), q.groups .keeping rows = rows.map ([·]) := by
    intro rows
    simp [Query.groups, hgrouping]
  have hlength := (Query.results_of_answers hopen.limit (fun answer => (hsame answer).symm)
    (by simp [Query.results_keeping, hgroups])).1
  simp [Query.results_keeping, hgroups] at hlength

/-- The view has sums of the columns that the query takes sums of, and of no others. -/
theorem measures (haggregated : v.isAggregated = true) {a : Aggregation} {c : Field}
    (hm : (a, .field c) ∈ q.measures) :
    a = .sum ↔ v.groupsBy c = false := by
  have hgrouping := h.grouping hserves hnamed hjoined hopen haggregated
  have hsame := h.answers_twice hserves hnamed hjoined hopen haggregated
  have hcombine := Query.combine_of_answers hopen.limit hopen.measures hsame
    (Query.groups_replicate hgrouping 0 _) (Query.groups_replicate hgrouping 1 _) hm
  have hc : Env.uniform q.tables (fun _ => 1) c = .ofRat 1 := by
    obtain ⟨c', heq, hc'⟩ := hjoined.measures _ hm
    cases heq
    exact if_pos hc'
  have hshown : v.shown c (List.replicate 2 (Env.uniform q.tables fun _ => 1)) =
      .ofRat (if v.groupsBy c then 1 else 2) := by
    rw [shown, haggregated, List.map_replicate, hc]
    cases v.groupsBy c with
    | true => exact hc
    | false =>
      refine (Aggregation.sum_replicate 1 1).trans ?_
      norm_num
  change a.combine [v.shown c _] = a.combine ((List.replicate 2 _).map _) at hcombine
  rw [List.map_replicate, hc, hshown, ← List.replicate_one] at hcombine
  have hreaggregable := Suits.reaggregable_of_serves hserves haggregated hm
  by_cases ha : a = .sum
  case pos =>
    subst ha
    rw [Aggregation.sum_replicate 0, Aggregation.sum_replicate 1] at hcombine
    have htwo := Value.ofRat_inj hcombine
    cases hgroups : v.groupsBy c with
    | true => norm_num [hgroups] at htwo
    | false => simp
  case neg =>
    have hextreme : a = .min ∨ a = .max := by
      cases a <;> simp_all [Aggregation.isReaggregable]
    rw [Aggregation.combine_replicate hextreme, Aggregation.combine_replicate hextreme] at hcombine
    have hone := Value.ofRat_inj hcombine
    cases hgroups : v.groupsBy c with
    | true => simp [ha]
    | false => norm_num [hgroups] at hone

end Preserves

/-- A view that a query has the same answers over on every database suits the query. -/
theorem suits_of_preserves (hserves : v.serves q = true) (hnamed : v.IsNamed s q)
    (hjoined : q.IsJoined s) (hopen : q.IsOpen) (h : v.Preserves s q) : v.Suits s q where
  tables := h.tables hserves hnamed hjoined hopen
  links := h.links hserves hnamed hjoined hopen
  measures haggregated _ _ hm := h.measures hserves hnamed hjoined hopen haggregated hm
  grouping haggregated := h.grouping hserves hnamed hjoined hopen haggregated

end View

end MetricLayer
