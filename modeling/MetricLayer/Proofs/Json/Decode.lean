import MetricLayer.Json.Decode
import Mathlib.Data.List.Basic
import Mathlib.Data.List.Nodup

/-!
# Decoding what was encoded

The members of an object can come back in another order than the one in which they were put in; a
store of objects may keep them by name. `Json.Arrangement` is such an order, for all objects of a
tree. A decoder `Reads` a value from a tree if it gives the value in every arrangement of it, and
the decoders of parts make up those of lists, of optional values and of records.

Results:
1. `Json.lookup_byName`: a member is found wherever the order puts it.
2. `Json.Reads.list` and `Json.Reads.option`: values are read from trees item by item.
3. `Json.fields?_tree`, `Json.Fields.required_eq`, `Json.Fields.defaulted_eq` and
   `Json.Fields.omissible_eq`: the fields of a record are read one by one.
4. `Json.exists_of_asList?` and `Json.Fields.exists_of_required`: what was read was read from a tree.
-/

namespace MetricLayer.Json

variable {α : Type}

/-! ## Arrangements -/

/-- The order of the members in the objects of a tree. -/
inductive Arrangement where
  /-- As they were put in. -/
  | asPut
  | byName
  deriving DecidableEq, Repr

/-- The tree in the order. -/
def Arrangement.tree : Arrangement → Json → Json
  | asPut, j => j
  | byName, j => j.sorted

theorem sortedItems_eq (items : List Json) : sortedItems items = items.map sorted := by
  induction items with
  | nil => rfl
  | cons j items ih => rw [sortedItems, ih, List.map_cons]

theorem sortedMembers_eq (members : List (String × Json)) :
    sortedMembers members = members.map fun m => (m.1, m.2.sorted) := by
  induction members with
  | nil => rfl
  | cons m members ih => rw [sortedMembers, ih, List.map_cons]

theorem lookup_cons_eq (name : String) (m : String × Json) (members : List (String × Json)) :
    (m :: members).lookup name = if name = m.1 then some m.2 else members.lookup name := by
  rw [List.lookup_cons]
  by_cases h : name = m.1
  · rw [if_pos h, beq_iff_eq.mpr h]
  · rw [if_neg h, beq_eq_false_iff_ne.mpr h]

theorem lookup_insertSorted (name key : String) (value : Json) (members : List (String × Json)) :
    (insertSorted key value members).lookup name =
      if name = key then some value else members.lookup name := by
  induction members with
  | nil => rw [insertSorted, lookup_cons_eq]
  | cons m members ih =>
    obtain ⟨k, v⟩ := m
    rw [insertSorted]
    split
    · rw [lookup_cons_eq]
    · split
      · next hkey =>
        subst hkey
        rw [lookup_cons_eq, lookup_cons_eq]
        split <;> rfl
      · next hkey =>
        rw [lookup_cons_eq, lookup_cons_eq, ih]
        by_cases h : name = k
        · subst h
          rw [if_pos rfl, if_neg (Ne.symm hkey), if_pos rfl]
        · rw [if_neg h, if_neg h]

theorem lookup_eq_none_of_notMem {name : String} {members : List (String × Json)}
    (h : name ∉ members.map Prod.fst) : members.lookup name = none := by
  rw [List.lookup_eq_none_iff]
  exact fun m hm => bne_iff_ne.mpr fun heq => h (heq ▸ List.mem_map_of_mem hm)

/-- A member with a name of its own is found wherever the order puts it. -/
theorem lookup_byName {members : List (String × Json)} (hnames : (members.map Prod.fst).Nodup)
    (name : String) (found : List (String × Json)) :
    (members.foldl (fun acc m => insertSorted m.1 m.2 acc) found).lookup name =
      (members.lookup name).or (found.lookup name) := by
  induction members generalizing found with
  | nil => rfl
  | cons m members ih =>
    obtain ⟨hm, hnames⟩ := List.nodup_cons.mp hnames
    rw [List.foldl_cons, ih hnames, lookup_insertSorted, lookup_cons_eq]
    by_cases h : name = m.1
    · subst h
      rw [lookup_eq_none_of_notMem hm, if_pos rfl, if_pos rfl, Option.none_or, Option.some_or]
    · rw [if_neg h, if_neg h]

namespace Arrangement

variable (a : Arrangement)

@[simp] theorem tree_null : a.tree null = null := by cases a <;> rfl
@[simp] theorem tree_bool (b : Bool) : a.tree (bool b) = bool b := by cases a <;> rfl
@[simp] theorem tree_int (n : Int) : a.tree (int n) = int n := by cases a <;> rfl
@[simp] theorem tree_float (x : Float) : a.tree (float x) = float x := by cases a <;> rfl
@[simp] theorem tree_str (s : String) : a.tree (str s) = str s := by cases a <;> rfl

theorem tree_arr (items : List Json) : a.tree (arr items) = arr (items.map a.tree) := by
  cases a with
  | asPut => exact congrArg arr (List.map_id' items).symm
  | byName => rw [tree, sorted, sortedItems_eq]; rfl

/-- Only `null` looks like `null` in another order. -/
theorem tree_eq_null {j : Json} (h : a.tree j = null) : j = null := by
  cases a with
  | asPut => exact h
  | byName => cases j <;> simp_all [tree, sorted]

end Arrangement

/-! ## Reading values -/

/-- The decoder gives the value, in whatever order the tree is. -/
def Reads (value : Json → Option α) (j : Json) (x : α) : Prop :=
  ∀ a : Arrangement, value (a.tree j) = some x

namespace Reads

variable {value : Json → Option α} {write : α → Json}

theorem text (s : String) : Reads asText? (str s) s := fun a => by rw [a.tree_str]; rfl

theorem truth (b : Bool) : Reads asBool? (bool b) b := fun a => by rw [a.tree_bool]; rfl

theorem number (x : Float) : Reads asFloat? (float x) x := fun a => by rw [a.tree_float]; rfl

theorem count {bound n : Nat} (h : n < bound) : Reads (asNatBelow? bound) (ofNat n) n := fun a => by
  rw [ofNat, a.tree_int, asNatBelow?, if_pos (by omega)]
  rfl

theorem word {rigor : Rigor} {read : String → Option α} {s : String} {x : α}
    (h : read s = some x) : Reads (asWord? rigor read) (str s) x := fun a => by
  rw [a.tree_str]
  exact h

/-- A list is read if its items are. -/
theorem list {xs : List α} (h : ∀ x ∈ xs, Reads value (write x) x) :
    Reads (asList? value) (ofList write xs) xs := fun a => by
  rw [ofList, a.tree_arr, List.map_map, asList?]
  induction xs with
  | nil => rfl
  | cons x xs ih =>
    obtain ⟨hx, hxs⟩ := List.forall_mem_cons.mp h
    rw [List.map_cons, List.mapM_cons, Function.comp_apply, hx a, ih hxs]
    rfl

theorem asOption_some {j : Json} {x : α} (hj : j ≠ null) (h : Reads value j x) :
    Reads (asOption? value) j (some x) := fun a => by
  rw [asOption?.eq_2 _ _ fun hnull => hj (a.tree_eq_null hnull), h a]
  rfl

/-- An optional value is read if it is there and not taken for its absence, and if it is not. -/
theorem option (hnull : ∀ x, write x ≠ null) {x : Option α}
    (h : ∀ y ∈ x, Reads value (write y) y) : Reads (asOption? value) (ofOption write x) x := by
  cases x with
  | none => exact fun a => by rw [ofOption, a.tree_null]; rfl
  | some x => exact asOption_some (hnull x) (h x rfl)

end Reads

/-! ## Reading records -/

/-- The fields that the members of an object give in an order. -/
def Fields.ofMembers (a : Arrangement) (members : List (String × Json)) : Fields :=
  ⟨fun name => (members.lookup name).map a.tree, false⟩

/-- The order of an object does not matter for its fields, but for the order within them. -/
theorem fields?_tree (a : Arrangement) (rigor : Rigor) (names : List String)
    {members : List (String × Json)} (hnames : (members.map Prod.fst).Nodup) :
    fields? rigor names (a.tree (obj members)) = some (Fields.ofMembers a members) := by
  cases a with
  | asPut =>
    have hget : (fun name => (members.lookup name).map Arrangement.asPut.tree) =
        fun name => members.lookup name := funext fun name => Option.map_id_apply
    rw [Fields.ofMembers, hget]
    rfl
  | byName =>
    have hget (name : String) :
        ((members.map fun m => (m.1, m.2.sorted)).foldl
          (fun acc m => insertSorted m.1 m.2 acc) []).lookup name =
          (members.lookup name).map Arrangement.byName.tree := by
      have hfst : (members.map fun m => (m.1, m.2.sorted)).map Prod.fst = members.map Prod.fst := by
        rw [List.map_map]; rfl
      rw [lookup_byName (hfst ▸ hnames), List.lookup_nil, Option.or_none]
      clear hnames hfst
      induction members with
      | nil => rfl
      | cons m members ih =>
        rw [List.map_cons, List.lookup_cons, List.lookup_cons]
        split
        · rfl
        · exact ih
    rw [Arrangement.tree, sorted, sortedMembers_eq, fields?, Fields.ofMembers]
    exact congrArg (fun get => some (Fields.mk get false)) (funext hget)

namespace Fields

variable {a : Arrangement} {members : List (String × Json)} {name : String} {j : Json}
  {value : Json → Option α} {x : α}

theorem required_eq (hname : members.lookup name = some j) (hvalue : Reads value j x) :
    (ofMembers a members).required name value = some x := by
  simp only [required, ofMembers, hname, Option.map_some, Option.bind_some]
  exact hvalue a

theorem defaulted_eq {dflt : α} (hname : members.lookup name = some j) (hvalue : Reads value j x) :
    (ofMembers a members).defaulted name dflt value = some x := by
  simp only [defaulted, ofMembers, hname, Option.map_some]
  exact hvalue a

theorem omissible_eq {x : Option α} (hname : members.lookup name = some j)
    (hvalue : Reads (asOption? value) j x) :
    (ofMembers a members).omissible name value = some x :=
  defaulted_eq hname hvalue

theorem omissible_absent (hname : members.lookup name = none) :
    (ofMembers a members).omissible name value = some none := by
  simp only [omissible, defaulted, ofMembers, hname, Option.map_none]

end Fields

/-! ## Where values come from -/

theorem exists_of_asList? {item : Json → Option α} {j : Json} {xs : List α}
    (h : asList? item j = some xs) : ∀ x ∈ xs, ∃ j, item j = some x := by
  cases j with
  | arr items =>
    replace h : items.mapM item = some xs := h
    induction items generalizing xs with
    | nil =>
      cases h
      simp
    | cons j items ih =>
      simp only [List.mapM_cons, Option.bind_eq_bind, Option.bind_eq_some_iff] at h
      obtain ⟨y, hy, ys, hys, h⟩ := h
      cases h
      intro x hx
      rcases List.mem_cons.mp hx with rfl | hx
      · exact ⟨j, hy⟩
      · exact ih hys x hx
  | _ => cases h

namespace Fields

variable {fs : Fields} {name : String} {value : Json → Option α}

theorem exists_of_required {x : α} (h : fs.required name value = some x) :
    ∃ j, value j = some x := by
  obtain ⟨j, -, hj⟩ := Option.bind_eq_some_iff.mp h
  exact ⟨j, hj⟩

/-- The items of a list that may be absent were read. -/
theorem exists_of_defaulted_list {xs : List α}
    (h : fs.defaulted name [] (asList? value) = some xs) : ∀ x ∈ xs, ∃ j, value j = some x := by
  unfold defaulted at h
  split at h
  · cases h
    simp
  · exact exists_of_asList? h

/-- A value that may be absent was read, if it is there. -/
theorem exists_of_omissible {x : α} (h : fs.omissible name value = some (some x)) :
    ∃ j, value j = some x := by
  unfold omissible defaulted at h
  split at h
  · cases h
  · next j _ =>
    unfold asOption? at h
    split at h
    · cases h
    · obtain ⟨y, hy, hxy⟩ := Option.map_eq_some_iff.mp h
      cases hxy
      exact ⟨_, hy⟩

end Fields

end MetricLayer.Json
