import MetricLayer.Proofs.Vocabulary.Tokens

/-!
# The grammar of formulas

Which texts are formulas, and what they are, told without the reader: `Derives` is the grammar in the
usual form, with a level for each precedence. A sum of products of factors is grouped to the left,
and parentheses stay in the tree.

Results:
1. `Derives.reads`: the reader finds the tree of every derivation, with what follows it left over.
2. `derives`: it finds nothing else.
3. `parse_reads`: a text is read if and only if it is a formula, and as the formula that it is.
-/

namespace MetricLayer

namespace ArithOp

/-- The operation binds as tightly as a product. -/
def isTight : ArithOp → Bool
  | add | sub => false
  | mul | div => true

/-- The sign of the operation. -/
def symbol : ArithOp → Char
  | add => '+'
  | sub => '-'
  | mul => '*'
  | div => '/'

end ArithOp

namespace Formula

/-! ## Derivations -/

/-- A level of the grammar. -/
inductive Level where
  | sum
  | product
  | factor

/-- The tokens derive from the level, with the tree: a sum of products of factors, grouped to the
left. Parentheses stay in the tree. -/
inductive Derives : Level → List Token → Formula → Prop
  | ref {name : String} : Derives .factor [.ref name] (.metric name)
  | number {x : Float} : Derives .factor [.number x] (.number x)
  | group {ts : List Token} {f : Formula} : Derives .sum ts f →
      Derives .factor (.symbol '(' :: ts ++ [.symbol ')']) (.group f)
  | factor {ts : List Token} {f : Formula} : Derives .factor ts f → Derives .product ts f
  | times {ts us : List Token} {f g : Formula} {op : ArithOp} : op.isTight = true →
      Derives .product ts f → Derives .factor us g →
        Derives .product (ts ++ .symbol op.symbol :: us) (.binary f op g)
  | summand {ts : List Token} {f : Formula} : Derives .product ts f → Derives .sum ts f
  | plus {ts us : List Token} {f g : Formula} {op : ArithOp} : op.isTight = false →
      Derives .sum ts f → Derives .product us g →
        Derives .sum (ts ++ .symbol op.symbol :: us) (.binary f op g)

/-- The metric that a token refers to. -/
def Token.ref? : Token → Option String
  | .ref name => some name
  | _ => none

/-- The texts of the list, each once, in the order in which they first occur. -/
structure ListsFirst (all firsts : List String) : Prop where
  nodup : firsts.Nodup
  mem_iff : ∀ s, s ∈ firsts ↔ s ∈ all
  ordered : firsts.Pairwise fun s t => all.idxOf s < all.idxOf t

/-- A text is read as what it is: the one formula of its tokens, if they derive one. -/
structure ReadsAsWritten (source : String) : Prop where
  /-- A formula is read if and only if the text splits into tokens from which it derives. -/
  ok_iff : ∀ f, parse source = .ok f ↔ ∃ ts, Splits source.toList ts ∧ Derives .sum ts f
  /-- Any other text is refused. -/
  error_iff : (∃ e, parse source = .error e) ↔
    ¬ ∃ ts f, Splits source.toList ts ∧ Derives .sum ts f
  /-- A text splits in one way only. -/
  tokens_unique : ∀ ts us, Splits source.toList ts → Splits source.toList us → ts = us
  /-- Tokens derive one tree only. -/
  tree_unique : ∀ ts f g, Splits source.toList ts → Derives .sum ts f → Derives .sum ts g → f = g
  /-- The references of the formula are those of the tokens. -/
  references : ∀ ts f, Splits source.toList ts → Derives .sum ts f →
    ListsFirst (ts.filterMap Token.ref?) f.references

/-! ## Symbols -/

theorem sumOp?_eq_some {c : Char} {op : ArithOp} :
    sumOp? c = some op ↔ op.isTight = false ∧ c = op.symbol := by
  constructor
  · intro h
    unfold sumOp? at h
    split at h
    · next hc =>
      cases h
      exact ⟨rfl, hc⟩
    · obtain ⟨hc, h⟩ := Option.ite_none_right_eq_some.mp h
      cases h
      exact ⟨rfl, hc⟩
  · rintro ⟨htight, rfl⟩
    cases op with
    | add | sub => rfl
    | mul | div => cases htight

theorem productOp?_eq_some {c : Char} {op : ArithOp} :
    productOp? c = some op ↔ op.isTight = true ∧ c = op.symbol := by
  constructor
  · intro h
    unfold productOp? at h
    split at h
    · next hc =>
      cases h
      exact ⟨rfl, hc⟩
    · obtain ⟨hc, h⟩ := Option.ite_none_right_eq_some.mp h
      cases h
      exact ⟨rfl, hc⟩
  · rintro ⟨htight, rfl⟩
    cases op with
    | add | sub => cases htight
    | mul | div => rfl

/-- A product is complete in front of the tokens. -/
def EndsProduct (ts : List Token) : Prop := ∀ c, ts.head? = some (.symbol c) → productOp? c = none

theorem readProductTail_ends {ts : List Token} (h : EndsProduct ts) (fuel : Nat) (f : Formula) :
    readProductTail fuel f ts = .ok (f, ts) := by
  cases fuel with
  | zero => rfl
  | succ fuel =>
    unfold readProductTail
    split
    · next c rest => rw [h c rfl]
    · rfl

theorem endsProduct_sum {op : ArithOp} (h : op.isTight = false) (ts : List Token) :
    EndsProduct (.symbol op.symbol :: ts) := by
  rintro c ⟨⟩
  cases op with
  | add | sub => rfl
  | mul | div => cases h

/-! ## From derivations to trees -/

/-- What the reader does on each level where tokens derive from it, with fuel for all of them: it
reads the tree, and goes on behind the tokens with at most so much fuel less as there are. -/
def IsRead : Level → List Token → Formula → Prop
  | .factor, ts, f => ∀ fuel rest, 3 * ts.length ≤ fuel + 2 →
      readFactor fuel (ts ++ rest) = .ok (f, rest)
  | .product, ts, f => ∀ fuel rest, 3 * ts.length ≤ fuel + 1 → ∃ left, fuel ≤ left + ts.length ∧
      readProduct fuel (ts ++ rest) = readProductTail left f rest
  | .sum, ts, f => ∀ fuel rest, 3 * ts.length ≤ fuel → EndsProduct rest →
      ∃ left, fuel ≤ left + ts.length ∧ readSum fuel (ts ++ rest) = readSumTail left f rest

theorem Derives.length_pos {level : Level} {ts : List Token} {f : Formula}
    (h : Derives level ts f) : 0 < ts.length := by
  induction h with
  | ref | number | group => simp
  | factor _ ih | summand _ ih => exact ih
  | times | plus =>
    rw [List.length_append, List.length_cons]
    omega

theorem Derives.isRead {level : Level} {ts : List Token} {f : Formula} (h : Derives level ts f) :
    IsRead level ts f := by
  induction h with
  | ref | number =>
    rintro (_ | fuel) rest hfuel
    · simp at hfuel
    · rfl
  | @group ts f _ ih =>
    rintro (_ | fuel) rest hfuel
    · simp at hfuel
      omega
    · have hends : EndsProduct (.symbol ')' :: rest) := by
        rintro c ⟨⟩
        rfl
      simp only [List.length_append, List.length_cons, List.length_nil] at hfuel
      obtain ⟨left, -, hread⟩ := ih fuel (.symbol ')' :: rest) (by omega) hends
      have htail : readSumTail left f (.symbol ')' :: rest) = .ok (f, .symbol ')' :: rest) := by
        cases left <;> rfl
      rw [List.cons_append, List.cons_append, List.append_assoc, List.singleton_append, readFactor,
        if_pos rfl, hread, htail]
      rfl
  | @factor ts f h ih =>
    rintro (_ | fuel) rest hfuel
    · have := h.length_pos
      omega
    · have := h.length_pos
      refine ⟨fuel, by omega, ?_⟩
      rw [readProduct, ih fuel rest (by omega)]
      rfl
  | @times ts us f g op htight _ _ ihf ihg =>
    intro fuel rest hfuel
    rw [List.length_append, List.length_cons] at hfuel ⊢
    obtain ⟨left, hleft, hread⟩ := ihf fuel (.symbol op.symbol :: us ++ rest) (by omega)
    obtain ⟨left, rfl⟩ : ∃ k, left = k + 1 := ⟨left - 1, by omega⟩
    refine ⟨left, by omega, ?_⟩
    rw [List.append_assoc, hread, List.cons_append, readProductTail,
      productOp?_eq_some.mpr ⟨htight, rfl⟩]
    dsimp only
    rw [ihg left rest (by omega)]
    rfl
  | @summand ts f h ih =>
    rintro (_ | fuel) rest hfuel hends
    · have := h.length_pos
      omega
    · have := h.length_pos
      obtain ⟨left, -, hread⟩ := ih fuel rest (by omega)
      refine ⟨fuel, by omega, ?_⟩
      rw [readSum, hread, readProductTail_ends hends]
      rfl
  | @plus ts us f g op htight _ _ ihf ihg =>
    intro fuel rest hfuel hends
    rw [List.length_append, List.length_cons] at hfuel ⊢
    obtain ⟨left, hleft, hread⟩ :=
      ihf fuel (.symbol op.symbol :: us ++ rest) (by omega) (endsProduct_sum htight _)
    obtain ⟨left, rfl⟩ : ∃ k, left = k + 1 := ⟨left - 1, by omega⟩
    obtain ⟨left', -, hright⟩ := ihg left rest (by omega)
    refine ⟨left, by omega, ?_⟩
    rw [List.append_assoc, hread, List.cons_append, readSumTail,
      sumOp?_eq_some.mpr ⟨htight, rfl⟩]
    dsimp only
    rw [hright, readProductTail_ends hends]
    rfl

theorem ofTokens_of_derives {ts : List Token} {f : Formula} (h : Derives .sum ts f)
    (source : String) : ofTokens source ts = .ok f := by
  obtain ⟨left, -, hread⟩ := h.isRead (4 * ts.length + 4) [] (by omega) nofun
  have htail : readSumTail left f [] = .ok (f, []) := by cases left <;> rfl
  rw [List.append_nil, htail] at hread
  have hne : ts.isEmpty = false := List.isEmpty_eq_false_iff.mpr (List.length_pos_iff.mp h.length_pos)
  rw [ofTokens, hne, hread]
  rfl

/-! ## From trees to derivations -/

/-- What is read on each level, with the same fuel, derives from it. -/
structure Reading (fuel : Nat) : Prop where
  sum : ∀ ts f rest, readSum fuel ts = .ok (f, rest) → ∃ us, ts = us ++ rest ∧ Derives .sum us f
  sum_tail : ∀ us left ts f rest, Derives .sum us left → readSumTail fuel left ts = .ok (f, rest) →
    ∃ vs, ts = vs ++ rest ∧ Derives .sum (us ++ vs) f
  product : ∀ ts f rest, readProduct fuel ts = .ok (f, rest) →
    ∃ us, ts = us ++ rest ∧ Derives .product us f
  product_tail : ∀ us left ts f rest, Derives .product us left →
    readProductTail fuel left ts = .ok (f, rest) →
      ∃ vs, ts = vs ++ rest ∧ Derives .product (us ++ vs) f
  factor : ∀ ts f rest, readFactor fuel ts = .ok (f, rest) →
    ∃ us, ts = us ++ rest ∧ Derives .factor us f

theorem reading (fuel : Nat) : Reading fuel := by
  induction fuel with
  | zero =>
    constructor
    case sum => intro ts f rest h; simp [readSum] at h
    case product => intro ts f rest h; simp [readProduct] at h
    case factor => intro ts f rest h; simp [readFactor] at h
    case sum_tail =>
      rintro us left ts f rest hleft ⟨⟩
      exact ⟨[], rfl, by rwa [List.append_nil]⟩
    case product_tail =>
      rintro us left ts f rest hleft ⟨⟩
      exact ⟨[], rfl, by rwa [List.append_nil]⟩
  | succ fuel ih =>
    constructor
    case sum =>
      intro ts f rest h
      obtain ⟨⟨left, ts'⟩, hleft, htail⟩ := bind_eq_ok h
      obtain ⟨us, rfl, hus⟩ := ih.product _ _ _ hleft
      obtain ⟨vs, rfl, hvs⟩ := ih.sum_tail us left ts' f rest (.summand hus) htail
      exact ⟨us ++ vs, (List.append_assoc ..).symm, hvs⟩
    case product =>
      intro ts f rest h
      obtain ⟨⟨left, ts'⟩, hleft, htail⟩ := bind_eq_ok h
      obtain ⟨us, rfl, hus⟩ := ih.factor _ _ _ hleft
      obtain ⟨vs, rfl, hvs⟩ := ih.product_tail us left ts' f rest (.factor hus) htail
      exact ⟨us ++ vs, (List.append_assoc ..).symm, hvs⟩
    case sum_tail =>
      intro us left ts f rest hleft h
      unfold readSumTail at h
      split at h
      · split at h
        · next c ts op hop =>
          obtain ⟨htight, rfl⟩ := sumOp?_eq_some.mp hop
          obtain ⟨⟨right, ts'⟩, hright, htail⟩ := bind_eq_ok h
          obtain ⟨vs, rfl, hvs⟩ := ih.product _ _ _ hright
          obtain ⟨ws, rfl, hws⟩ := ih.sum_tail _ _ ts' f rest (.plus htight hleft hvs) htail
          exact ⟨.symbol op.symbol :: vs ++ ws, by simp, by simpa using hws⟩
        · cases h
          exact ⟨[], rfl, by rwa [List.append_nil]⟩
      · cases h
        exact ⟨[], rfl, by rwa [List.append_nil]⟩
    case product_tail =>
      intro us left ts f rest hleft h
      unfold readProductTail at h
      split at h
      · split at h
        · next c ts op hop =>
          obtain ⟨htight, rfl⟩ := productOp?_eq_some.mp hop
          obtain ⟨⟨right, ts'⟩, hright, htail⟩ := bind_eq_ok h
          obtain ⟨vs, rfl, hvs⟩ := ih.factor _ _ _ hright
          obtain ⟨ws, rfl, hws⟩ := ih.product_tail _ _ ts' f rest (.times htight hleft hvs) htail
          exact ⟨.symbol op.symbol :: vs ++ ws, by simp, by simpa using hws⟩
        · cases h
          exact ⟨[], rfl, by rwa [List.append_nil]⟩
      · cases h
        exact ⟨[], rfl, by rwa [List.append_nil]⟩
    case factor =>
      intro ts f rest h
      unfold readFactor at h
      split at h
      · cases h
      · cases h
        exact ⟨[_], rfl, .ref⟩
      · cases h
        exact ⟨[_], rfl, .number⟩
      · split at h
        · next c ts hopen =>
          obtain ⟨⟨inner, ts'⟩, hinner, hclose⟩ := bind_eq_ok h
          obtain ⟨us, rfl, hus⟩ := ih.sum _ _ _ hinner
          simp only at hclose
          split at hclose
          · cases hclose
            exact ⟨_, by simp [hopen], .group hus⟩
          · cases hclose
        · cases h

/-- What is read from tokens derives from them. -/
theorem derives {source : String} {ts : List Token} {f : Formula} (h : ofTokens source ts = .ok f) :
    Derives .sum ts f := by
  unfold ofTokens at h
  split at h
  · cases h
  · split at h
    · cases h
    · next formula rest hread =>
      split at h
      · next hempty =>
        cases h
        obtain ⟨us, rfl, hus⟩ := (reading _).sum _ _ _ hread
        rwa [List.isEmpty_iff.mp hempty, List.append_nil]
      · cases h

theorem Derives.unique {ts : List Token} {f g : Formula} (hf : Derives .sum ts f)
    (hg : Derives .sum ts g) : f = g :=
  Except.ok.inj ((ofTokens_of_derives hf "").symm.trans (ofTokens_of_derives hg ""))

theorem parse_eq_ok_iff {source : String} {f : Formula} :
    parse source = .ok f ↔ ∃ ts, Splits source.toList ts ∧ Derives .sum ts f := by
  constructor
  · intro h
    obtain ⟨ts, hts, h⟩ := bind_eq_ok h
    exact ⟨ts, tokens_eq_ok_iff.mp hts, derives h⟩
  · rintro ⟨ts, hts, hf⟩
    rw [parse, bind_of_ok (tokens_eq_ok_iff.mpr hts)]
    exact ofTokens_of_derives hf source

/-! ## References -/

theorem Derives.names_eq {level : Level} {ts : List Token} {f : Formula} (h : Derives level ts f) :
    f.names = ts.filterMap Token.ref? := by
  have hsymbol : ∀ c, Token.ref? (.symbol c) = none := fun _ => rfl
  induction h with
  | ref | number => rfl
  | group _ ih => simp [names, hsymbol, ih]
  | factor _ ih | summand _ ih => exact ih
  | times _ _ _ ihf ihg | plus _ _ _ ihf ihg => simp [names, hsymbol, ihf, ihg]

theorem idxOf_lt_of_filter {p : String → Bool} {all : List String} {s t : String} (hs : p s = true)
    (ht : p t = true) (h : (all.filter p).idxOf s < (all.filter p).idxOf t) :
    all.idxOf s < all.idxOf t := by
  induction all with
  | nil => cases h
  | cons a all ih =>
    by_cases hat : a = t
    · subst hat
      rw [List.filter_cons_of_pos ht, List.idxOf_cons_self] at h
      cases h
    rw [List.idxOf_cons_ne _ hat]
    by_cases has : a = s
    · subst has
      rw [List.idxOf_cons_self]
      exact Nat.succ_pos _
    rw [List.idxOf_cons_ne _ has]
    refine Nat.succ_lt_succ (ih ?_)
    by_cases ha : p a = true
    · rw [List.filter_cons_of_pos ha, List.idxOf_cons_ne _ has, List.idxOf_cons_ne _ hat] at h
      exact Nat.lt_of_succ_lt_succ h
    · rwa [List.filter_cons_of_neg ha] at h

theorem eraseDups_ordered (all : List String) :
    all.eraseDups.Pairwise fun s t => all.idxOf s < all.idxOf t := by
  induction hn : all.length using Nat.strongRecOn generalizing all with
  | ind n ih =>
    subst hn
    cases all with
    | nil => exact .nil
    | cons a all =>
      rw [List.eraseDups_cons, List.pairwise_cons]
      have hne : ∀ s ∈ (all.filter fun b => !b == a).eraseDups, s ≠ a := by
        intro s hs
        rw [List.mem_eraseDups, List.mem_filter] at hs
        simpa using hs.2
      constructor
      · intro s hs
        rw [List.idxOf_cons_self, List.idxOf_cons_ne _ (hne s hs).symm]
        exact Nat.succ_pos _
      · refine (ih _ (Nat.lt_succ_of_le (List.length_filter_le ..)) _ rfl).imp_of_mem ?_
        intro s t hs ht hlt
        rw [List.idxOf_cons_ne _ (hne s hs).symm, List.idxOf_cons_ne _ (hne t ht).symm]
        refine Nat.succ_lt_succ (idxOf_lt_of_filter ?_ ?_ hlt)
        · simpa using hne s hs
        · simpa using hne t ht

theorem listsFirst_eraseDups (all : List String) : ListsFirst all all.eraseDups where
  nodup := (eraseDups_ordered all).imp fun hlt => by
    rintro rfl
    exact Nat.lt_irrefl _ hlt
  mem_iff _ := List.mem_eraseDups
  ordered := eraseDups_ordered all

/-! ## Texts -/

/-- Every text is read as what it is. -/
theorem parse_reads (source : String) : ReadsAsWritten source where
  ok_iff f := parse_eq_ok_iff
  error_iff := by
    constructor
    · rintro ⟨e, he⟩ ⟨ts, f, hts, hf⟩
      rw [parse_eq_ok_iff.mpr ⟨ts, hts, hf⟩] at he
      cases he
    · intro hnone
      cases hparse : parse source with
      | error e => exact ⟨e, rfl⟩
      | ok f =>
        obtain ⟨ts, hts, hf⟩ := parse_eq_ok_iff.mp hparse
        exact absurd ⟨ts, f, hts, hf⟩ hnone
  tokens_unique ts us := Splits.unique
  tree_unique ts f g _ := Derives.unique
  references ts f _ hf := by
    rw [references, hf.names_eq]
    exact listsFirst_eraseDups _

end Formula

end MetricLayer
