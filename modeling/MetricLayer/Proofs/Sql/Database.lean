import MetricLayer.Proofs.Sql.Answers

/-!
# Rows of a database

A database knows tables and columns by their names in lower case. An inner join of tables is their
product, of which those rows are kept where the joined columns have equal values. It depends on
which columns are joined with each other, directly or through others, and neither on the order of
the tables nor on that of the conditions.

Results:
1. `Database.product_lowered`: the rows of a product know their fields by the names in lower case.
2. `Database.join_perm`: when two joins have the same rows.
-/

namespace MetricLayer

/-- The field as a database knows it. -/
def Field.lowered (f : Field) : Field := ⟨Text.lowerAscii f.table, Text.lowerAscii f.column⟩

/-- The rows of tables and views, by the names of their columns. All names are in lower case. -/
abbrev Database (α : Type) := String → List (String → Value α)

theorem toLower_toLower (c : Char) : c.toLower.toLower = c.toLower := by
  unfold Char.toLower
  split
  case isTrue h =>
    -- the code of a small letter lies above those of all capital letters
    refine dif_neg fun hupper => ?_
    have hfirst : 65 ≤ c.val.toNat := UInt32.le_iff_toNat_le.mp h.1
    have hlast : c.val.toNat ≤ 90 := UInt32.le_iff_toNat_le.mp h.2
    have hsum : (c.val.toNat + 32) % 2 ^ 32 ≤ 90 := UInt32.le_iff_toNat_le.mp hupper.2
    omega
  case isFalse => rfl

theorem lowerAscii_lowerAscii (s : String) :
    Text.lowerAscii (Text.lowerAscii s) = Text.lowerAscii s := by
  simp only [Text.lowerAscii, String.toList_ofList, List.map_map]
  congr 1
  exact List.map_congr_left fun c _ => toLower_toLower c

theorem Field.lowered_lowered (f : Field) : f.lowered.lowered = f.lowered := by
  simp only [lowered, lowerAscii_lowerAscii]

theorem Field.sameIgnoringAsciiCase_iff {f g : Field} :
    f.sameIgnoringAsciiCase g = true ↔ f.lowered = g.lowered := by
  simp [sameIgnoringAsciiCase, Text.eqIgnoringAsciiCase, lowered]

variable {α : Type}

/-! ## Products -/

namespace Env

/-- The row together with a row of a table. -/
def extend (table : String) (env : Env α) (row : String → Value α) : Env α := fun f =>
  if f.lowered.table = Text.lowerAscii table then row f.lowered.column else env f

/-- The row knows its fields by their names in lower case. -/
def Lowered (env : Env α) : Prop := ∀ f, env f = env f.lowered

theorem Lowered.extend {env : Env α} (h : env.Lowered) (table : String) (row : String → Value α) :
    (env.extend table row).Lowered := by
  intro f
  rw [Env.extend, Env.extend, f.lowered_lowered, h f]

theorem Lowered.eq {env : Env α} (h : env.Lowered) {f g : Field} (hfg : f.lowered = g.lowered) :
    env f = env g := by
  rw [h f, h g, hfg]

theorem extend_comm {t u : String} (h : Text.lowerAscii t ≠ Text.lowerAscii u) (env : Env α)
    (row row' : String → Value α) :
    (env.extend t row).extend u row' = (env.extend u row').extend t row := by
  funext f
  unfold extend
  split
  case isTrue hu =>
    rw [if_neg fun ht => h (ht.symm.trans hu)]
  case isFalse => rfl

end Env

namespace Database

/-- The rows of the product of tables. -/
def product (db : Database α) : List String → List (Env α)
  | [] => [fun _ => none]
  | t :: ts => (db.product ts).flatMap fun env => (db (Text.lowerAscii t)).map (env.extend t)

variable {db : Database α} {ts ts' : List String}

theorem product_lowered {env : Env α} (h : env ∈ db.product ts) : env.Lowered := by
  induction ts generalizing env with
  | nil =>
    rw [List.mem_singleton.mp h]
    exact fun _ => rfl
  | cons t ts ih =>
    obtain ⟨env', henv', h⟩ := List.mem_flatMap.mp h
    obtain ⟨row, -, rfl⟩ := List.mem_map.mp h
    exact (ih henv').extend t row

theorem product_congr {db db' : Database α} {ts : List String}
    (h : ∀ t ∈ ts, db (Text.lowerAscii t) = db' (Text.lowerAscii t)) :
    db.product ts = db'.product ts := by
  induction ts with
  | nil => rfl
  | cons t ts ih =>
    rw [product, product, h t List.mem_cons_self, ih fun u hu => h u (List.mem_cons_of_mem _ hu)]

theorem product_map_lowerAscii (db : Database α) (ts : List String) :
    db.product (ts.map Text.lowerAscii) = db.product ts := by
  induction ts with
  | nil => rfl
  | cons t ts ih =>
    have hextend : ∀ env : Env α, env.extend (Text.lowerAscii t) = env.extend t := by
      intro env
      funext row f
      rw [Env.extend, Env.extend, lowerAscii_lowerAscii]
    rw [List.map_cons, product, product, ih, lowerAscii_lowerAscii]
    simp only [hextend]

theorem product_swap {t u : String} (h : Text.lowerAscii t ≠ Text.lowerAscii u) :
    (db.product (t :: u :: ts)).Perm (db.product (u :: t :: ts)) := by
  rw [product, product, product, product, List.flatMap_assoc, List.flatMap_assoc]
  refine List.Perm.flatMap_left _ fun env _ => ?_
  simp only [List.flatMap_map]
  rw [← Multiset.coe_eq_coe]
  simp only [← Multiset.coe_bind, ← Multiset.map_coe]
  refine (Multiset.bind_map_comm _ _).trans ?_
  simp only [Env.extend_comm h]

/-- The order of the tables does not matter if they all differ. -/
theorem product_perm (h : (ts.map Text.lowerAscii).Perm (ts'.map Text.lowerAscii))
    (hnodup : (ts.map Text.lowerAscii).Nodup) : (db.product ts).Perm (db.product ts') := by
  have hswap : ∀ {us us' : List String}, us.Perm us' → (us.map Text.lowerAscii).Nodup →
      (db.product us).Perm (db.product us') := by
    intro us us' h hnodup
    induction h with
    | nil => exact List.Perm.refl _
    | cons t _ ih =>
      exact List.Perm.flatMap_right _ (ih (List.nodup_cons.mp hnodup).2)
    | swap t u us =>
      refine product_swap fun heq => ?_
      exact (List.nodup_cons.mp hnodup).1 (heq ▸ List.mem_cons_self)
    | trans hfirst _ ih ih' => exact (ih hnodup).trans (ih' ((hfirst.map _).nodup_iff.mp hnodup))
  rw [← product_map_lowerAscii db ts, ← product_map_lowerAscii db ts']
  refine hswap h ?_
  rw [List.map_map]
  simpa only [Function.comp_def, lowerAscii_lowerAscii] using hnodup

end Database

/-! ## Joins -/

/-- The columns are joined with each other, directly or through others. -/
def Linked (pairs : List (Field × Field)) : Field → Field → Prop :=
  Relation.TransGen fun f g => ∃ p ∈ pairs,
    (p.1.lowered = f ∧ p.2.lowered = g) ∨ (p.2.lowered = f ∧ p.1.lowered = g)

variable [LinearOrder α]

/-- The columns of each pair have equal values, which are not null. -/
def Env.joins (env : Env α) (pairs : List (Field × Field)) : Bool :=
  pairs.all fun p => env p.1 = env p.2 && (env p.1).isSome

/-- Linked columns of joined rows have equal values, which are not null. -/
theorem Env.joins_linked {env : Env α} {pairs : List (Field × Field)} (h : env.Lowered)
    (hjoins : env.joins pairs = true) {f g : Field} (hlinked : Linked pairs f g) :
    env f = env g ∧ (env f).isSome := by
  have hstep : ∀ {f g : Field}, (∃ p ∈ pairs, (p.1.lowered = f ∧ p.2.lowered = g) ∨
      (p.2.lowered = f ∧ p.1.lowered = g)) → env f = env g ∧ (env f).isSome := by
    rintro f g ⟨p, hp, hends⟩
    have hpair := List.all_eq_true.mp hjoins p hp
    rw [Bool.and_eq_true, decide_eq_true_eq, h p.1, h p.2] at hpair
    rcases hends with ⟨rfl, rfl⟩ | ⟨rfl, rfl⟩
    · exact hpair
    · exact ⟨hpair.1.symm, hpair.1 ▸ hpair.2⟩
  induction hlinked with
  | single hfg => exact hstep hfg
  | tail _ hgg ih => exact ⟨ih.1.trans (hstep hgg).1, ih.2⟩

theorem Env.joins_of_linked {env : Env α} {pairs pairs' : List (Field × Field)} (h : env.Lowered)
    (hlinked : ∀ p ∈ pairs', Linked pairs p.1.lowered p.2.lowered)
    (hjoins : env.joins pairs = true) : env.joins pairs' = true := by
  refine List.all_eq_true.mpr fun p hp => ?_
  rw [Bool.and_eq_true, decide_eq_true_eq, h p.1, h p.2]
  exact Env.joins_linked h hjoins (hlinked p hp)

/-- The pairs equate the same columns. -/
def SameLinks (pairs pairs' : List (Field × Field)) : Prop :=
  ∀ f g, Linked pairs f g ↔ Linked pairs' f g

theorem linked_of_mem {pairs : List (Field × Field)} {p : Field × Field} (h : p ∈ pairs) :
    Linked pairs p.1.lowered p.2.lowered := .single ⟨p, h, .inl ⟨rfl, rfl⟩⟩

theorem SameLinks.joins_eq {pairs pairs' : List (Field × Field)} (h : SameLinks pairs pairs')
    {env : Env α} (henv : env.Lowered) : env.joins pairs = env.joins pairs' := by
  rw [Bool.eq_iff_iff]
  constructor
  · exact Env.joins_of_linked henv fun p hp => (h _ _).mpr (linked_of_mem hp)
  · exact Env.joins_of_linked henv fun p hp => (h _ _).mp (linked_of_mem hp)

namespace Database

/-- The rows of the inner join of tables where the columns of the pairs are equal. -/
def join (db : Database α) (ts : List String) (pairs : List (Field × Field)) : List (Env α) :=
  (db.product ts).filter (·.joins pairs)

theorem join_lowered {db : Database α} {ts : List String} {pairs : List (Field × Field)}
    {env : Env α} (h : env ∈ db.join ts pairs) : env.Lowered :=
  product_lowered (List.filter_sublist.subset h)

/-- Joins of the same tables along the same columns have the same rows. -/
theorem join_perm {db : Database α} {ts ts' : List String} {pairs pairs' : List (Field × Field)}
    (h : (ts.map Text.lowerAscii).Perm (ts'.map Text.lowerAscii))
    (hnodup : (ts.map Text.lowerAscii).Nodup) (hlinks : SameLinks pairs pairs') :
    (db.join ts pairs).Perm (db.join ts' pairs') := by
  have hsame : db.join ts pairs = (db.product ts).filter (·.joins pairs') :=
    List.filter_congr fun env henv => hlinks.joins_eq (product_lowered henv)
  rw [hsame]
  exact (product_perm h hnodup).filter _

end Database

namespace Query

/-- The columns that the joins of the query equate. -/
def joinPairs (q : Query) : List (Field × Field) := q.joins.flatMap (·.on)

/-- The joined rows that the query reads. -/
def sourceRows (db : Database α) (q : Query) : List (Env α) := db.join q.tables q.joinPairs

/-- The rows may be the answer of the query on the database. -/
def AnswersOn (fns : Functions α) (db : Database α) (q : Query)
    (answer : List (List (Value α))) : Prop :=
  q.Answers fns (q.sourceRows db) answer

end Query

end MetricLayer
