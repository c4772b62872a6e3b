import Mathlib.Tactic
import Mathlib.Data.Sum.Order
import MetricLayer.Proofs.Basic
import MetricLayer.Sql.Query

/-!
# What a query answers

The answers of a query over rows that are already joined. A value is null, a number or something else
that the database orders; the functions of the database on single values are a parameter. A query
with groups or aggregates has one result for each group, and any other query one for each row. Rows
that the order of the query does not tell apart may come in any order, so a query can have several
answers.

Results:
1. `Aggregation.combine_perm`, `combine_parts` and `combine_same`: how the aggregates of parts and
   of wholes are related.
2. `Expr.eval_congr`: what the value of an expression depends on.
-/

namespace MetricLayer

/-! ## Values -/

/-- A value that is not null. -/
abbrev Datum (α : Type) := Rat ⊕ₗ α

/-- What stands in a column of a row. -/
abbrev Value (α : Type) := Option (Datum α)

/-- A row, by the fields that it has values for. -/
abbrev Env (α : Type) := Field → Value α

/-- What a database computes from single values. -/
structure Functions (α : Type) where
  literal : Literal → Value α
  number : Float → Value α
  binary : BinaryOp → Value α → Value α → Value α
  not : Value α → Value α
  between : Value α → Value α → Value α → Value α
  inList : Bool → Value α → List (Value α) → Value α
  isNull : Bool → Value α → Value α
  like : Value α → Value α → Value α
  datePart : TimeUnit → Value α → Value α
  nullIfZero : Value α → Value α
  /-- A condition is met. -/
  holds : Value α → Bool
  /-- A value comes no later than the other one. -/
  le : Value α → Value α → Bool

variable {α : Type}

/-- The number of a datum; what is not a number adds nothing. -/
def Datum.number (x : Datum α) : Rat := Sum.elim id (fun _ => 0) (ofLex x)

/-- A number as a value. -/
def Value.ofRat (x : Rat) : Value α := some (toLex (.inl x))

theorem Value.ofRat_inj {x y : Rat} (h : (ofRat x : Value α) = ofRat y) : x = y :=
  Sum.inl.inj (toLex.injective (Option.some.inj h))

/-! ## Aggregates -/

variable [LinearOrder α]

namespace Aggregation

/-- The aggregate of values; nulls do not count. -/
def combine (a : Aggregation) (values : List (Value α)) : Value α :=
  let data := values.filterMap id
  match a with
  | count => .ofRat data.length
  | countDistinct => .ofRat data.dedup.length
  | sum => if data = [] then none else .ofRat (data.map Datum.number).sum
  | avg => if data = [] then none else .ofRat ((data.map Datum.number).sum / data.length)
  | min => data.toFinset.min
  | max => data.toFinset.max

/-- The order of the values does not matter. -/
theorem combine_perm (a : Aggregation) {xs ys : List (Value α)} (h : xs.Perm ys) :
    a.combine xs = a.combine ys := by
  have hdata : (xs.filterMap id).Perm (ys.filterMap id) := h.filterMap id
  have hnil : (xs.filterMap id) = [] ↔ (ys.filterMap id) = [] := by
    rw [← List.length_eq_zero_iff, ← List.length_eq_zero_iff, hdata.length_eq]
  have hsum := (hdata.map Datum.number).sum_eq
  have hset : (xs.filterMap id).toFinset = (ys.filterMap id).toFinset :=
    List.toFinset_eq_of_perm _ _ hdata
  cases a with
  | count => simp only [combine, hdata.length_eq]
  | countDistinct => simp only [combine, hdata.dedup.length_eq]
  | sum => simp only [combine, hnil, hsum]
  | avg => simp only [combine, hnil, hsum, hdata.length_eq]
  | min => exact congrArg Finset.min hset
  | max => exact congrArg Finset.max hset

/-- The sum of the sums of parts is the sum of the whole. -/
theorem combine_parts (parts : List (List (Value α))) :
    sum.combine (parts.map sum.combine) = sum.combine parts.flatten := by
  have hdata : ((parts.map sum.combine).filterMap id = [] ↔ parts.flatten.filterMap id = []) ∧
      (((parts.map sum.combine).filterMap id).map Datum.number).sum =
        ((parts.flatten.filterMap id).map Datum.number).sum := by
    induction parts with
    | nil => exact ⟨.rfl, rfl⟩
    | cons p parts ih =>
      obtain ⟨hnil, hsum⟩ := ih
      rw [List.map_cons, List.flatten_cons, List.filterMap_append, List.map_append, List.sum_append,
        List.append_eq_nil_iff, ← hsum, ← hnil]
      by_cases hp : p.filterMap id = []
      · have hcombine : sum.combine p = none := if_pos hp
        rw [hcombine, List.filterMap_cons_none rfl, hp]
        simp only [true_and, List.map_nil, List.sum_nil, zero_add, and_self]
      · have hcombine : sum.combine p = .ofRat ((p.filterMap id).map Datum.number).sum := if_neg hp
        rw [hcombine, Value.ofRat, List.filterMap_cons_some (f := id) rfl]
        refine ⟨⟨nofun, fun h => absurd h.1 hp⟩, ?_⟩
        simp only [List.map_cons, List.sum_cons, Datum.number, ofLex_toLex, Sum.elim_inl, id_eq]
  simp only [combine, hdata.1, hdata.2]

/-- The least and the greatest value only depend on which values there are. -/
theorem combine_same {a : Aggregation} (ha : a = min ∨ a = max) {xs ys : List (Value α)}
    (h : ∀ x, x ∈ xs ↔ x ∈ ys) : a.combine xs = a.combine ys := by
  have hdata : (xs.filterMap id).toFinset = (ys.filterMap id).toFinset := by
    ext x
    simp [List.mem_filterMap, h]
  rcases ha with rfl | rfl
  · exact congrArg Finset.min hdata
  · exact congrArg Finset.max hdata

theorem combine_replicate {a : Aggregation} (ha : a = min ∨ a = max) (n : ℕ) (x : Value α) :
    a.combine (List.replicate (n + 1) x) = x := by
  have hone : a.combine [x] = x := by
    cases x with
    | none => rcases ha with rfl | rfl <;> rfl
    | some x => rcases ha with rfl | rfl <;> rfl
  rw [← hone, combine_same ha fun y => ?_]
  simp [hone, List.mem_replicate]

theorem sum_replicate (n : ℕ) (x : Rat) :
    sum.combine (List.replicate (n + 1) (Value.ofRat x : Value α)) = Value.ofRat ((n + 1) * x) := by
  have hnumber : Datum.number (toLex (.inl x) : Datum α) = x := rfl
  simp [combine, Value.ofRat, List.filterMap_replicate, hnumber]

end Aggregation

/-! ## Expressions -/

namespace Expr

mutual

/-- The value of an expression for a group of rows. Outside of aggregates, the first row counts. -/
def eval (fns : Functions α) (rows : List (Env α)) : Expr → Value α
  | field f => rows.head?.bind (· f)
  | value v => fns.literal v
  | number x => fns.number x
  | aggregate a e => a.combine (rows.map fun row => e.eval fns [row])
  | binary a op b => fns.binary op (a.eval fns rows) (b.eval fns rows)
  | not e => fns.not (e.eval fns rows)
  | between e low high => fns.between (e.eval fns rows) (low.eval fns rows) (high.eval fns rows)
  | inList e items negated => fns.inList negated (e.eval fns rows) (evalList fns rows items)
  | isNull e negated => fns.isNull negated (e.eval fns rows)
  | like e p => fns.like (e.eval fns rows) (p.eval fns rows)
  | datePart unit e => fns.datePart unit (e.eval fns rows)
  | nullIfZero e => fns.nullIfZero (e.eval fns rows)
  | nested e => e.eval fns rows

def evalList (fns : Functions α) (rows : List (Env α)) : List Expr → List (Value α)
  | [] => []
  | e :: es => e.eval fns rows :: evalList fns rows es

end

mutual

/-- The fields outside of aggregates. -/
def outerFields : Expr → List Field
  | field f => [f]
  | value _ | number _ | aggregate _ _ => []
  | binary a _ b => a.outerFields ++ b.outerFields
  | not e | isNull e _ | datePart _ e | nullIfZero e | nested e => e.outerFields
  | between e low high => e.outerFields ++ low.outerFields ++ high.outerFields
  | inList e items _ => e.outerFields ++ outerFieldsOfList items
  | like e p => e.outerFields ++ p.outerFields

def outerFieldsOfList : List Expr → List Field
  | [] => []
  | e :: es => e.outerFields ++ outerFieldsOfList es

end

mutual

/-- The outermost aggregates with their arguments. -/
def measures : Expr → List (Aggregation × Expr)
  | field _ | value _ | number _ => []
  | aggregate a e => [(a, e)]
  | binary a _ b => a.measures ++ b.measures
  | not e | isNull e _ | datePart _ e | nullIfZero e | nested e => e.measures
  | between e low high => e.measures ++ low.measures ++ high.measures
  | inList e items _ => e.measures ++ measuresOfList items
  | like e p => e.measures ++ p.measures

def measuresOfList : List Expr → List (Aggregation × Expr)
  | [] => []
  | e :: es => e.measures ++ measuresOfList es

end

variable {fns : Functions α} {rows rows' : List (Env α)}

/-- The rows agree on the fields and on the aggregates. -/
structure Agree (fns : Functions α) (rows rows' : List (Env α)) (fields : List Field)
    (measures : List (Aggregation × Expr)) : Prop where
  fields : ∀ f ∈ fields, rows.head?.bind (· f) = rows'.head?.bind (· f)
  measures : ∀ m ∈ measures, m.1.combine (rows.map fun row => m.2.eval fns [row]) =
    m.1.combine (rows'.map fun row => m.2.eval fns [row])

theorem Agree.mono {fs fs' : List Field} {ms ms' : List (Aggregation × Expr)}
    (h : Agree fns rows rows' fs ms) (hf : fs' ⊆ fs) (hm : ms' ⊆ ms) :
    Agree fns rows rows' fs' ms' :=
  ⟨fun f hf' => h.fields f (hf hf'), fun m hm' => h.measures m (hm hm')⟩

mutual

/-- The value of an expression depends on its fields outside of aggregates in the first row and on
its aggregates. -/
theorem eval_congr : ∀ e : Expr, Agree fns rows rows' e.outerFields e.measures →
    e.eval fns rows = e.eval fns rows'
  | field f, h => h.fields f (List.mem_singleton_self f)
  | value _, _ => rfl
  | number _, _ => rfl
  | aggregate a e, h => h.measures (a, e) (List.mem_singleton_self _)
  | binary a op b, h => by
    rw [eval, eval, eval_congr a (h.mono (by simp [outerFields]) (by simp [measures])),
      eval_congr b (h.mono (by simp [outerFields]) (by simp [measures]))]
  | not e, h => by rw [eval, eval, eval_congr e (h.mono (by simp [outerFields]) (by simp [measures]))]
  | between e low high, h => by
    rw [eval, eval, eval_congr e (h.mono (by simp [outerFields]) (by simp [measures])),
      eval_congr low (h.mono (by simp [outerFields]) (by simp [measures])),
      eval_congr high (h.mono (by simp [outerFields]) (by simp [measures]))]
  | inList e items negated, h => by
    rw [eval, eval, eval_congr e (h.mono (by simp [outerFields]) (by simp [measures])),
      evalList_congr items (h.mono (by simp [outerFields]) (by simp [measures]))]
  | isNull e negated, h => by
    rw [eval, eval, eval_congr e (h.mono (by simp [outerFields]) (by simp [measures]))]
  | like e p, h => by
    rw [eval, eval, eval_congr e (h.mono (by simp [outerFields]) (by simp [measures])),
      eval_congr p (h.mono (by simp [outerFields]) (by simp [measures]))]
  | datePart unit e, h => by
    rw [eval, eval, eval_congr e (h.mono (by simp [outerFields]) (by simp [measures]))]
  | nullIfZero e, h => by
    rw [eval, eval, eval_congr e (h.mono (by simp [outerFields]) (by simp [measures]))]
  | nested e, h => by
    rw [eval, eval, eval_congr e (h.mono (by simp [outerFields]) (by simp [measures]))]

theorem evalList_congr : ∀ es : List Expr,
    Agree fns rows rows' (outerFieldsOfList es) (measuresOfList es) →
      evalList fns rows es = evalList fns rows' es
  | [], _ => rfl
  | e :: es, h => by
    rw [evalList, evalList,
      eval_congr e (h.mono (by simp [outerFieldsOfList]) (by simp [measuresOfList])),
      evalList_congr es (h.mono (by simp [outerFieldsOfList]) (by simp [measuresOfList]))]

end

end Expr

/-! ## Queries -/

/-- The rows in groups of one key. -/
def groupRows (key : Env α → List (Value α)) (rows : List (Env α)) : List (List (Env α)) :=
  (rows.map key).dedup.map fun k => rows.filter (key · = k)

namespace Query

/-- The query has one result for each group of rows. -/
def isGrouping (q : Query) : Bool :=
  !q.groupBy.isEmpty || !q.having.isEmpty || !q.aggregations.isEmpty

/-- The outermost aggregates of the query with their arguments. -/
def measures (q : Query) : List (Aggregation × Expr) := q.exprs.flatMap Expr.measures

/-- The rows that meet the conditions. -/
def kept (fns : Functions α) (q : Query) (rows : List (Env α)) : List (Env α) :=
  rows.filter fun row => q.filters.all fun e => fns.holds (e.eval fns [row])

/-- The values of a row that decide on its group. -/
def key (fns : Functions α) (q : Query) (row : Env α) : List (Value α) :=
  q.groupBy.map (·.eval fns [row])

/-- The groups of rows; without a grouping, all rows are one group. -/
def groups (fns : Functions α) (q : Query) (rows : List (Env α)) : List (List (Env α)) :=
  if !q.isGrouping then rows.map ([·])
  else if q.groupBy.isEmpty then [rows]
  else groupRows (q.key fns) rows

/-- The result of a group: the values that results are ordered by and those that are selected. -/
def result? (fns : Functions α) (q : Query) (group : List (Env α)) :
    Option (List (Value α) × List (Value α)) :=
  if q.having.all fun e => fns.holds (e.eval fns group) then
    some (q.orderBy.map (·.expr.eval fns group), q.select.map (·.expr.eval fns group))
  else none

/-- The results, in no order. -/
def results (fns : Functions α) (q : Query) (rows : List (Env α)) :
    List (List (Value α) × List (Value α)) :=
  (q.groups fns (q.kept fns rows)).filterMap (q.result? fns)

/-- The values come no later than others, given which of them descend. -/
def inOrder (fns : Functions α) : List Bool → List (Value α) → List (Value α) → Bool
  | descends :: rest, x :: xs, y :: ys =>
    let (x, y) := if descends then (y, x) else (x, y)
    if fns.le x y && fns.le y x then inOrder fns rest xs ys else fns.le x y
  | _, _, _ => true

/-- The rows may be the answer: results in the order of the query, up to its limit. -/
def Answers (fns : Functions α) (q : Query) (rows : List (Env α))
    (answer : List (List (Value α))) : Prop :=
  ∃ sorted : List (List (Value α) × List (Value α)), sorted.Perm (q.results fns rows) ∧
    sorted.Pairwise (fun a b => inOrder fns (q.orderBy.map (·.descending)) a.1 b.1 = true) ∧
      answer = (sorted.take (q.limit.getD sorted.length)).map (·.2)

end Query

end MetricLayer
