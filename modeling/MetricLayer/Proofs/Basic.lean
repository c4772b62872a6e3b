import Mathlib.Data.List.Nodup

/-!
# Computations that can fail, and lists with keys

What a result of `Except` says about the steps that led to it, and what it means for a list that no
two of its elements have the same key.
-/

namespace MetricLayer

variable {ε α β γ : Type}

/-- A computation that gives a result gives one at every step. -/
theorem bind_eq_ok {x : Except ε α} {f : α → Except ε β} {b : β} (h : (x >>= f) = .ok b) :
    ∃ a, x = .ok a ∧ f a = .ok b := by
  cases x with
  | error e => cases h
  | ok a => exact ⟨a, rfl, h⟩

/-- A step that gives a result hands it on. -/
theorem bind_of_ok {x : Except ε α} {a : α} (h : x = .ok a) (f : α → Except ε β) :
    (x >>= f) = f a := by
  rw [h]
  rfl

theorem eq_ok_of_isOk {x : Except ε α} (h : x.isOk = true) : ∃ a, x = .ok a := by
  cases x with
  | error e => cases h
  | ok a => exact ⟨a, rfl⟩

theorem map_eq_ok {x : Except ε α} {f : α → β} {b : β} (h : x.map f = .ok b) :
    ∃ a, x = .ok a ∧ f a = b := by
  cases x with
  | error e => cases h
  | ok a => exact ⟨a, rfl, Except.ok.inj h⟩

theorem map_eq_error {x : Except ε α} {f : α → β} {e : ε} (h : x.map f = .error e) :
    ∃ e', x = .error e' ∧ e' = e := by
  cases x with
  | error e' => exact ⟨e', rfl, Except.error.inj h⟩
  | ok a => cases h

theorem mapError_eq_ok {δ : Type} {x : Except ε α} {f : ε → δ} {a : α}
    (h : x.mapError f = .ok a) : x = .ok a := by
  cases x with
  | error e => cases h
  | ok a' => exact congrArg Except.ok (Except.ok.inj h)

theorem mapM_cons_eq_ok {f : α → Except ε β} {x : α} {xs : List α} {ys : List β} :
    (x :: xs).mapM f = .ok ys ↔ ∃ y ys', f x = .ok y ∧ xs.mapM f = .ok ys' ∧ ys = y :: ys' := by
  rw [List.mapM_cons]
  constructor
  · intro h
    obtain ⟨y, hy, h⟩ := bind_eq_ok h
    obtain ⟨ys', hys, h⟩ := bind_eq_ok h
    cases h
    exact ⟨y, ys', hy, hys, rfl⟩
  · rintro ⟨y, ys', hy, hys, rfl⟩
    rw [bind_of_ok hy, bind_of_ok hys]
    rfl

/-- What can be computed from each element can be computed from the list. -/
theorem exists_mapM {f : α → Except ε β} {R : α → β → Prop} {xs : List α}
    (h : ∀ x ∈ xs, ∃ y, f x = .ok y ∧ R x y) :
    ∃ ys, xs.mapM f = .ok ys ∧ List.Forall₂ R xs ys := by
  induction xs with
  | nil => exact ⟨[], rfl, .nil⟩
  | cons x xs ih =>
    obtain ⟨⟨y, hy, hxy⟩, hxs⟩ := List.forall_mem_cons.mp h
    obtain ⟨ys, hys, hall⟩ := ih hxs
    exact ⟨y :: ys, mapM_cons_eq_ok.mpr ⟨y, ys, hy, hys, rfl⟩, .cons hxy hall⟩

/-- A computation that succeeds for every element succeeds for the list. -/
theorem mapM_isOk {f : α → Except ε β} {xs : List α} (h : ∀ x ∈ xs, ∃ y, f x = .ok y) :
    ∃ ys, xs.mapM f = .ok ys := by
  obtain ⟨ys, hys, -⟩ := exists_mapM (R := fun _ _ => True) fun x hx =>
    (h x hx).imp fun _ hy => ⟨hy, trivial⟩
  exact ⟨ys, hys⟩

/-- A computation over a list gives the results of its elements, one by one. -/
theorem forall₂_of_mapM {f : α → Except ε β} {xs : List α} {ys : List β}
    (h : xs.mapM f = .ok ys) : List.Forall₂ (fun x y => f x = .ok y) xs ys := by
  induction xs generalizing ys with
  | nil =>
    cases h
    exact .nil
  | cons x xs ih =>
    obtain ⟨y, ys', hy, hys, rfl⟩ := mapM_cons_eq_ok.mp h
    exact .cons hy (ih hys)

theorem exists_of_mem_forall₂ {R : α → β → Prop} {xs : List α} {ys : List β}
    (h : List.Forall₂ R xs ys) : ∀ y ∈ ys, ∃ x ∈ xs, R x y := by
  induction h with
  | nil => exact nofun
  | @cons x y xs ys hxy _ ih =>
    refine List.forall_mem_cons.mpr ⟨⟨x, List.mem_cons_self, hxy⟩, fun y' hy' => ?_⟩
    obtain ⟨x', hx', hxy'⟩ := ih y' hy'
    exact ⟨x', List.mem_cons_of_mem _ hx', hxy'⟩

/-- Lists whose elements agree one by one have the same images. -/
theorem map_eq_of_forall₂ {β : Type} {f : β → γ} {g : α → γ} {xs : List α} {ys : List β}
    (h : List.Forall₂ (fun x y => f y = g x) xs ys) : ys.map f = xs.map g := by
  induction h with
  | nil => rfl
  | cons hxy _ ih => rw [List.map_cons, List.map_cons, hxy, ih]

theorem mapM_mem {f : α → Except ε β} {xs : List α} {ys : List β} (h : xs.mapM f = .ok ys) :
    ∀ y ∈ ys, ∃ x ∈ xs, f x = .ok y :=
  exists_of_mem_forall₂ (forall₂_of_mapM h)

theorem mapM_apply {f : α → Except ε β} {xs : List α} {ys : List β} (h : xs.mapM f = .ok ys) :
    ∀ x ∈ xs, ∃ y ∈ ys, f x = .ok y :=
  exists_of_mem_forall₂ (forall₂_of_mapM h).flip

/-- What the computation keeps of each element is kept of the list. -/
theorem mapM_map {f : α → Except ε β} {g : α → γ} {g' : β → γ}
    (hg : ∀ x y, f x = .ok y → g' y = g x) {xs : List α} {ys : List β} (h : xs.mapM f = .ok ys) :
    ys.map g' = xs.map g :=
  map_eq_of_forall₂ ((forall₂_of_mapM h).imp hg)

/-- Computations whose results agree for every element agree for the list. -/
theorem mapM_map_congr {f g : α → Except ε β} {k : β → γ}
    (hk : ∀ x y z, f x = .ok y → g x = .ok z → k z = k y) {xs : List α} {ys zs : List β}
    (hys : xs.mapM f = .ok ys) (hzs : xs.mapM g = .ok zs) : zs.map k = ys.map k := by
  induction xs generalizing ys zs with
  | nil =>
    cases hys
    cases hzs
    rfl
  | cons x xs ih =>
    obtain ⟨y, ys', hy, hys', rfl⟩ := mapM_cons_eq_ok.mp hys
    obtain ⟨z, zs', hz, hzs', rfl⟩ := mapM_cons_eq_ok.mp hzs
    rw [List.map_cons, List.map_cons, hk x y z hy hz, ih hys' hzs']

/-- Where keys differ, an element is found under its own key. -/
theorem find?_key [DecidableEq β] {key : α → β} {xs : List α} (h : (xs.map key).Nodup) {x : α}
    (hx : x ∈ xs) : xs.find? (key · = key x) = some x := by
  induction xs with
  | nil => cases hx
  | cons y ys ih =>
    rw [List.map_cons, List.nodup_cons] at h
    rcases List.mem_cons.mp hx with rfl | hx
    · simp
    · have hne : key y ≠ key x := fun heq => h.1 (heq ▸ List.mem_map_of_mem hx)
      simpa [List.find?_cons, hne] using ih h.2 hx

theorem filterMap_of_forall₂ {R : α → α → Prop} {g : α → Option β} (hg : ∀ x y, R x y → g y = g x)
    {xs ys : List α} (h : List.Forall₂ R xs ys) : ys.filterMap g = xs.filterMap g := by
  induction h with
  | nil => rfl
  | cons hxy _ ih => rw [List.filterMap_cons, List.filterMap_cons, hg _ _ hxy, ih]

/-- Lists with the same keys in some order have the same images in some order, if the key of an
element tells its image. -/
theorem perm_map_of_key {key : α → β} {g : α → γ} {xs ys : List α}
    (hkeys : (xs.map key).Perm (ys.map key))
    (hg : ∀ x ∈ xs, ∀ y ∈ xs ++ ys, key x = key y → g x = g y) : (xs.map g).Perm (ys.map g) := by
  induction xs generalizing ys with
  | nil =>
    obtain rfl := List.map_eq_nil_iff.mp hkeys.nil_eq.symm
    exact .nil
  | cons x xs ih =>
    obtain ⟨y, hy, hxy⟩ := List.mem_map.mp (hkeys.subset List.mem_cons_self)
    obtain ⟨before, after, rfl⟩ := List.append_of_mem hy
    have hrest : (xs.map key).Perm ((before ++ after).map key) := by
      simp only [List.map_append, List.map_cons, hxy] at hkeys
      rw [List.map_append]
      exact (hkeys.trans List.perm_middle).cons_inv
    have hsub : ∀ z ∈ xs ++ (before ++ after), z ∈ x :: xs ++ (before ++ y :: after) := by
      intro z hz
      simp only [List.mem_append, List.mem_cons] at hz ⊢
      tauto
    have hgrest := ih hrest fun x' hx' z hz => hg x' (List.mem_cons_of_mem x hx') z (hsub z hz)
    have hgy : g x = g y :=
      hg x List.mem_cons_self y (List.mem_append_right _ (List.mem_append_right _ List.mem_cons_self))
        hxy.symm
    rw [List.map_append] at hgrest
    simp only [List.map_append, List.map_cons, hgy]
    exact (hgrest.cons _).trans List.perm_middle.symm

theorem append_subset_append {β : Type} {a b c d : List β} (h : a ⊆ c) (h' : b ⊆ d) :
    a ++ b ⊆ c ++ d :=
  List.append_subset.mpr ⟨List.subset_append_of_subset_left d h,
    List.subset_append_of_subset_right c h'⟩

theorem all_congr {β : Type} {l : List β} {f g : β → Bool} (h : ∀ x ∈ l, f x = g x) :
    l.all f = l.all g := by
  rw [Bool.eq_iff_iff, List.all_eq_true, List.all_eq_true]
  exact forall₂_congr fun x hx => by rw [h x hx]

theorem filter_flatten_of_const {β : Type} {keep : β → Bool} {keepPart : List β → Bool}
    {parts : List (List β)} (h : ∀ p ∈ parts, ∀ x ∈ p, keep x = keepPart p) :
    parts.flatten.filter keep = (parts.filter keepPart).flatten := by
  induction parts with
  | nil => rfl
  | cons p ps ih =>
    have hp := h p List.mem_cons_self
    rw [List.flatten_cons, List.filter_append, ih fun p' hp' => h p' (List.mem_cons_of_mem _ hp')]
    cases hkeep : keepPart p with
    | true =>
      rw [List.filter_cons_of_pos hkeep, List.flatten_cons,
        List.filter_eq_self.mpr fun x hx => (hp x hx).trans hkeep]
    | false =>
      rw [List.filter_cons_of_neg (by simp [hkeep]), List.filter_eq_nil_iff.mpr fun x hx => ?_,
        List.nil_append]
      simp [hp x hx, hkeep]

end MetricLayer
