import MetricLayer.Proofs.Question.Conditions
import MetricLayer.Proofs.Question.ValueList

/-!
# Values as they are written

The values of a condition are matched as a list of quoted texts and bare words with separators in
between. `ValueList.IsListOf` says which values a list has; there is one answer at most, because a
bare word is as long as possible.

The values of the filter are not those of the list. They are what is left when the text is cut at
every separator, also at one between quotes, and blanks and then quotes are cut off from the ends of
the pieces. In "country is 'Bosnia, Herzegovina'" there is one value in the list, and there are two
in the filter.

Results:
1. `ValueList.IsListOf.unique`: a text is the list of one row of values at most.
2. `ValueList.exists_isListOf_of_mem`: the values of every condition are such a list.
3. `ValueList.taken_list` and `ValueList.taken_eq_iff`: each value is cut by itself, and the values
   are taken as they are meant if and only if they are plain.
4. `Dictionary.filter_values_iff`: the same for the filters of a request.
-/

namespace MetricLayer

/-- A value as it is written: a text in quotes, or a bare word. -/
inductive WrittenValue where
  | quoted (quote : Char) (contents : List Char)
  | bare (word : List Char)
  deriving DecidableEq, Repr

namespace WrittenValue

/-- The characters of the value. -/
def text : WrittenValue → List Char
  | quoted quote contents => quote :: (contents ++ [quote])
  | bare word => word

/-- The character can be part of a bare word. -/
def isBare (c : Char) : Bool := Text.isWordChar c || c = '.' || c = '-'

/-- The value can be matched in front of the text `rest`: the contents end at the first quote, and a
bare word goes on as long as it can. -/
def Fits : WrittenValue → List Char → Prop
  | quoted quote contents, _ => (quote = '\'' ∨ quote = '"') ∧ quote ∉ contents
  | bare word, rest => word ≠ [] ∧ (∀ c ∈ word, isBare c = true) ∧
      ∀ c, rest.head? = some c → isBare c = false

variable {v v' : WrittenValue} {rest rest' : List Char} {vs vs' : List WrittenValue}

theorem Fits.append_left (h : v.Fits (rest ++ rest')) : v.Fits rest := by
  cases v with
  | quoted => exact h
  | bare word =>
    refine ⟨h.1, h.2.1, fun c hc => h.2.2 c ?_⟩
    rw [List.head?_append, hc, Option.some_or]

/-- What the characters of bare words are told apart from. -/
theorem isBare_of_special {c : Char} (h : Text.isBlank c = true ∨ c ∈ ['\'', '"', ',']) :
    isBare c = false := by
  rcases h with h | h
  · exact Text.of_isBlank (P := fun c => isBare c = false) (by decide +kernel) h
  · have hall : (['\'', '"', ','].all (!isBare ·)) = true := by decide +kernel
    simpa using List.all_eq_true.mp hall c h

theorem isBare_quote {quote : Char} (h : quote = '\'' ∨ quote = '"') : isBare quote = false :=
  isBare_of_special (.inr (by simpa using h.imp_right Or.inl))

/-- A value begins with a character that is not blank. -/
theorem Fits.exists_head (h : v.Fits rest) : ∃ c cs, v.text = c :: cs ∧ Text.isBlank c = false := by
  cases v with
  | quoted quote contents =>
    refine ⟨quote, _, rfl, ?_⟩
    rcases h.1 with rfl | rfl <;> decide
  | bare word =>
    obtain ⟨c, cs, rfl⟩ := List.exists_cons_of_ne_nil h.1
    refine ⟨c, cs, rfl, Bool.eq_false_iff.mpr fun hblank => ?_⟩
    have hbare := h.2.1 c List.mem_cons_self
    rw [isBare_of_special (.inl hblank)] at hbare
    cases hbare

end WrittenValue

/-! ## Lists of values -/

namespace ValueList

open WrittenValue

variable {raw : List Char} {v v' : WrittenValue} {vs vs' : List WrittenValue}

/-- The text is the list of the values: they stand in the text one behind the other, with a
separator and blanks in between. -/
inductive IsListOf : List Char → List WrittenValue → Prop
  | last {v : WrittenValue} (hfits : v.Fits []) : IsListOf v.text [v]
  | more {v : WrittenValue} {lead sep trail raw : List Char} {vs : List WrittenValue}
      (hfits : v.Fits (lead ++ sep ++ trail ++ raw)) (hlead : ∀ c ∈ lead, Text.isBlank c = true)
      (hdivides : Divides (endsWord false (v.text ++ lead)) sep (trail ++ raw))
      (htrail : ∀ c ∈ trail, Text.isBlank c = true) (hrest : IsListOf raw vs) :
      IsListOf (v.text ++ (lead ++ sep ++ trail) ++ raw) (v :: vs)

/-- What is in the class in front of what is not. -/
theorem append_inj_of_class {p : Char → Bool} {a b x y : List Char} (ha : ∀ c ∈ a, p c = true)
    (hb : ∀ c ∈ b, p c = true) (hx : ∀ c, x.head? = some c → p c = false)
    (hy : ∀ c, y.head? = some c → p c = false) (h : a ++ x = b ++ y) : a = b ∧ x = y := by
  have hnone {z : List Char} (hz : ∀ c, z.head? = some c → p c = false) : z.takeWhile p = [] := by
    cases z with
    | nil => rfl
    | cons c z => exact List.takeWhile_cons_of_neg (by simp [hz c rfl])
  have hfront := congrArg (List.takeWhile p) h
  rw [List.takeWhile_append_of_pos ha, List.takeWhile_append_of_pos hb, hnone hx, hnone hy,
    List.append_nil, List.append_nil] at hfront
  subst hfront
  exact ⟨rfl, List.append_cancel_left h⟩

theorem quoted_ne_bare {quote : Char} {contents word rest rest' : List Char}
    (hv : (quoted quote contents).Fits rest) (hv' : (bare word).Fits rest') :
    (quoted quote contents).text ++ rest ≠ (bare word).text ++ rest' := by
  intro h
  obtain ⟨hne, hword, -⟩ := hv'
  obtain ⟨c, cs, rfl⟩ := List.exists_cons_of_ne_nil hne
  have hbare := hword c List.mem_cons_self
  rw [← (List.cons.inj h).1, isBare_quote hv.1] at hbare
  cases hbare

/-- A text begins with one value at most. -/
theorem text_append_inj {rest rest' : List Char} (hv : v.Fits rest) (hv' : v'.Fits rest')
    (h : v.text ++ rest = v'.text ++ rest') : v = v' ∧ rest = rest' := by
  suffices hsame : v = v' by
    subst hsame
    exact ⟨rfl, List.append_cancel_left h⟩
  match v, v' with
  | quoted quote contents, bare word => exact absurd h (quoted_ne_bare hv hv')
  | bare word, quoted quote contents => exact absurd h.symm (quoted_ne_bare hv' hv)
  | bare word, bare word' =>
    rw [(append_inj_of_class hv.2.1 hv'.2.1 hv.2.2 hv'.2.2 h).1]
  | quoted quote contents, quoted quote' contents' =>
    obtain ⟨rfl, h⟩ := List.cons.inj h
    have hcontents {cs : List Char} (hcs : quote ∉ cs) : ∀ c ∈ cs, (c != quote) = true :=
      fun c hc => bne_iff_ne.mpr fun heq => hcs (heq ▸ hc)
    have hsplit : contents ++ quote :: rest = contents' ++ quote :: rest' := by simpa using h
    rw [(append_inj_of_class (hcontents hv.2) (hcontents hv'.2) (by simp) (by simp) hsplit).1]

/-- A separator does not begin with a blank. -/
theorem Divides.not_isBlank {word : Bool} {sep after : List Char} (h : Divides word sep after)
    (rest : List Char) : ∀ c, (sep ++ rest).head? = some c → Text.isBlank c = false := by
  intro c hc
  refine Bool.eq_false_iff.mpr fun hblank => ?_
  cases h with
  | comma =>
    obtain rfl := Option.some.inj hc
    revert hblank
    decide
  | or ho =>
    obtain rfl := Option.some.inj hc
    have hword := Text.isWordChar_of_sameFolded (.inl rfl) ho
    rw [not_isWordChar_of_isBlank hblank] at hword
    cases hword

/-- Two separators at one place are the same. -/
theorem Divides.inj {word word' : Bool} {sep sep' after after' : List Char}
    (h : Divides word sep after) (h' : Divides word' sep' after')
    (heq : sep ++ after = sep' ++ after') : sep = sep' ∧ after = after' := by
  have hcomma {o : Char} (ho : Text.sameFolded 'o' o = true) : o ≠ ',' := by
    rintro rfl
    have hword := Text.isWordChar_of_sameFolded (.inl rfl) ho
    rw [isWordChar_comma] at hword
    cases hword
  cases h with
  | comma =>
    cases h' with
    | comma => exact ⟨rfl, (List.cons.inj heq).2⟩
    | or ho => exact absurd (List.cons.inj heq).1.symm (hcomma ho)
  | or ho =>
    cases h' with
    | comma => exact absurd (List.cons.inj heq).1 (hcomma ho)
    | or => exact List.append_inj heq rfl

theorem IsListOf.not_isBlank (h : IsListOf raw vs) :
    ∀ c, raw.head? = some c → Text.isBlank c = false := by
  have hhead {v : WrittenValue} {rest behind : List Char} (hv : v.Fits rest) :
      ∀ c, (v.text ++ behind).head? = some c → Text.isBlank c = false := by
    intro c hc
    obtain ⟨d, cs, htext, hd⟩ := hv.exists_head
    rw [htext] at hc
    exact Option.some.inj hc ▸ hd
  cases h with
  | last hfits =>
    rw [← List.append_nil (text _)]
    exact hhead hfits
  | more hfits =>
    rw [List.append_assoc]
    exact hhead hfits

/-- A text is the list of one row of values at most. -/
theorem IsListOf.unique (h : IsListOf raw vs) (h' : IsListOf raw vs') : vs = vs' := by
  induction h generalizing vs' with
  | @last v hfits =>
    generalize hraw : v.text = raw at h'
    cases h' with
    | @last v' hfits' =>
      rw [← List.append_nil v.text, ← List.append_nil v'.text] at hraw
      rw [(text_append_inj hfits hfits' hraw).1]
    | @more v' lead sep trail raw vs hfits' _ hdivides =>
      rw [List.append_assoc, ← List.append_nil v.text] at hraw
      have hnil := (text_append_inj hfits hfits' hraw).2
      cases hdivides <;> simp at hnil
  | @more v lead sep trail raw vs hfits hlead hdivides htrail hrest ih =>
    generalize hall : v.text ++ (lead ++ sep ++ trail) ++ raw = all at h'
    cases h' with
    | @last v' hfits' =>
      rw [List.append_assoc, ← List.append_nil v'.text] at hall
      have hnil := (text_append_inj hfits hfits' hall).2
      cases hdivides <;> simp at hnil
    | @more v' lead' sep' trail' raw' vs' hfits' hlead' hdivides' htrail' hrest' =>
      rw [List.append_assoc v.text, List.append_assoc v'.text] at hall
      obtain ⟨rfl, hbehind⟩ := text_append_inj hfits hfits' hall
      simp only [List.append_assoc] at hbehind
      obtain ⟨rfl, hsep⟩ := append_inj_of_class hlead hlead' (hdivides.not_isBlank _)
        (hdivides'.not_isBlank _) hbehind
      obtain ⟨rfl, hafter⟩ := hdivides.inj hdivides' hsep
      obtain ⟨rfl, rfl⟩ := append_inj_of_class htrail htrail' hrest.not_isBlank
        hrest'.not_isBlank hafter
      rw [ih hrest']

/-! ## What is matched as a list of values -/

open Pattern

variable {α : Type} {c : Cursor} {g : Groups} {k : Cursor → Groups → Option α} {r : α}

/-- Whatever is done at a place further on succeeds. -/
def Total (c : Cursor) (k : Cursor → Groups → Option α) : Prop :=
  ∀ u c' g, c.Passes u c' → (k c' g).isSome

theorem Total.passes (h : Total c k) {u : List Char} {c' : Cursor} (hu : c.Passes u c') :
    Total c' k := fun w _ g hw => h (u ++ w) _ g (hu.trans hw)

/-- If whatever is done behind them succeeds, then as many characters as possible are taken. -/
theorem turns_char {p : Char → Bool} {fuel : Nat} (hfuel : c.rest.length ≤ fuel) (hk : Total c k)
    (h : turns true (char p).run fuel c g k = some r) :
    ∃ u c', c.Passes u c' ∧ (∀ x ∈ u, p x = true) ∧
      (∀ x, c'.rest.head? = some x → p x = false) ∧ k c' g = some r := by
  induction fuel generalizing c with
  | zero =>
    have hnil := List.length_eq_zero_iff.mp (Nat.le_zero.mp hfuel)
    exact ⟨[], c, .refl c, by simp, by simp [hnil], h⟩
  | succ fuel ih =>
    rw [turns, if_pos rfl] at h
    cases hrest : c.rest with
    | nil =>
      simp only [run, hrest, Option.none_or] at h
      exact ⟨[], c, .refl c, by simp, by simp [hrest], h⟩
    | cons x xs =>
      cases hx : p x with
      | false =>
        simp only [run, hrest, hx, Bool.false_eq_true, if_false, Option.none_or] at h
        exact ⟨[], c, .refl c, by simp, by simp [hrest, hx], h⟩
      | true =>
        have hone := Cursor.Passes.cons hrest
        rw [run_char hrest hx, if_pos (Nat.lt_succ_self _)] at h
        rcases Option.or_eq_some_iff.mp h with h | ⟨hnone, -⟩
        · have hlength : xs.length ≤ fuel := by
            rw [hrest, List.length_cons] at hfuel
            omega
          obtain ⟨u, c', hu, hall, hend, h⟩ := ih hlength (hk.passes hone) h
          exact ⟨x :: u, c', hone.trans hu, List.forall_mem_cons.mpr ⟨hx, hall⟩, hend, h⟩
        · have hsome : (turns true (char p).run fuel _ g k).isSome :=
            isSome_turns (hk _ _ g hone) fuel
          dsimp only at hnone
          rw [hnone] at hsome
          cases hsome

theorem takes_quoted {quote : Char} {u : List Char} (h : (seq (char (· == quote))
    (seq (many true (char fun c => !([quote].contains c))) (char (· == quote)))).Takes u) :
    ∃ contents, u = (quoted quote contents).text ∧ quote ∉ contents := by
  obtain ⟨_, _, rfl, ⟨x, rfl, hx⟩, contents, _, rfl, hcontents, y, rfl, hy⟩ := h
  obtain rfl := beq_iff_eq.mp hx
  obtain rfl := beq_iff_eq.mp hy
  refine ⟨contents, rfl, fun hmem => ?_⟩
  simpa using takes_many_char hcontents _ hmem

/-- What is matched as a value. -/
theorem run_value (hk : Total c k) (h : Phrase.value.run c g k = some r) :
    ∃ (v : WrittenValue) (c' : Cursor) (g' : Groups),
      c.Passes v.text c' ∧ v.Fits c'.rest ∧ k c' g' = some r := by
  have hquoted {quote : Char} (hquote : quote = '\'' ∨ quote = '"') (h : (seq (char (· == quote))
      (seq (many true (char fun c => !([quote].contains c))) (char (· == quote)))).run c g k =
        some r) : ∃ (v : WrittenValue) (c' : Cursor) (g' : Groups),
      c.Passes v.text c' ∧ v.Fits c'.rest ∧ k c' g' = some r := by
    obtain ⟨u, c', g', hu, htake, h⟩ := run_passes h
    obtain ⟨contents, rfl, hcontents⟩ := takes_quoted htake
    exact ⟨_, c', g', hu, ⟨hquote, hcontents⟩, h⟩
  rcases Option.or_eq_some_iff.mp h with h | ⟨-, h⟩
  · exact hquoted (.inl rfl) h
  rcases Option.or_eq_some_iff.mp h with h | ⟨-, h⟩
  · exact hquoted (.inr rfl) h
  have hbare : (seq (char isBare) (many true (char isBare))).run c g k = some r := h
  rw [run] at hbare
  obtain ⟨_, c₁, g₁, hfirst, ⟨x, rfl, hx⟩, h⟩ := run_passes hbare
  obtain ⟨u, c', hu, hbare, hend, h⟩ := turns_char (Nat.le_refl _) (hk.passes hfirst) h
  exact ⟨.bare (x :: u), c', g₁, hfirst.trans hu,
    ⟨by simp, List.forall_mem_cons.mpr ⟨hx, hbare⟩, hend⟩, h⟩

/-- Behind a value, only its own characters tell whether a word goes on. -/
theorem wordBefore_of_fits {c' : Cursor} {rest : List Char} (hv : v.Fits rest)
    (h : c.Passes v.text c') : c'.wordBefore = endsWord false v.text := by
  obtain ⟨x, xs, htext, -⟩ := hv.exists_head
  rw [wordBefore_of_passes h, htext]
  rfl

/-- The separators and values behind a first value. -/
theorem run_rest {fuel : Nat} (hk : Total c k)
    (h : turns true (seq Phrase.valueSeparator Phrase.value).run fuel c g k = some r) :
    ∃ u c' g', c.Passes u c' ∧ k c' g' = some r ∧ ∀ v : WrittenValue, v.Fits c.rest →
      c.wordBefore = endsWord false v.text → ∃ vs, IsListOf (v.text ++ u) (v :: vs) := by
  have hdone {c : Cursor} {g : Groups} (h : k c g = some r) : ∃ u c' g', c.Passes u c' ∧
      k c' g' = some r ∧ ∀ v : WrittenValue, v.Fits c.rest →
        c.wordBefore = endsWord false v.text → ∃ vs, IsListOf (v.text ++ u) (v :: vs) := by
    refine ⟨[], c, g, .refl c, h, fun v hv _ => ⟨[], ?_⟩⟩
    have hnil : v.Fits ([] ++ c.rest) := hv
    rw [List.append_nil]
    exact .last hnil.append_left
  induction fuel generalizing c g with
  | zero => exact hdone h
  | succ fuel ih =>
    rw [turns, if_pos rfl] at h
    rcases Option.or_eq_some_iff.mp h with h | ⟨-, h⟩
    · obtain ⟨lead, sep, trail, c₁, g₁, hpass, hlead, hdivides, htrail, h⟩ := run_separator h
      have hlt : c.offset < c₁.offset := by
        have hsep := hdivides.length_pos
        rw [hpass.offset]
        simp only [List.length_append]
        omega
      obtain ⟨v', c₂, g₂, hv', hfits', h⟩ := run_value (fun u c' g hu => by
        rw [if_pos (by rw [hu.offset]; omega)]
        exact isSome_turns (hk _ _ g (hpass.trans hu)) fuel) h
      rw [if_pos (by rw [hv'.offset]; omega)] at h
      obtain ⟨u, c', g', hu, h, hlist⟩ := ih (hk.passes (hpass.trans hv')) h
      obtain ⟨vs, hvs⟩ := hlist v' hfits' (wordBefore_of_fits hfits' hv')
      refine ⟨_, c', g', hpass.trans (hv'.trans hu), h, fun v hv hbefore => ⟨v' :: vs, ?_⟩⟩
      rw [hpass.rest, hv'.rest, hu.rest] at hv
      rw [hv'.rest, hu.rest] at hdivides
      rw [← List.append_assoc]
      have hfits : v.Fits (lead ++ sep ++ trail ++ (v'.text ++ u) ++ c'.rest) := by
        simpa only [List.append_assoc] using hv
      have hsep : Divides (endsWord false (v.text ++ lead)) sep
          (trail ++ (v'.text ++ u) ++ c'.rest) := by
        rw [endsWord_append, ← hbefore]
        simpa only [List.append_assoc] using hdivides
      exact .more hfits.append_left hlead hsep.of_append htrail hvs
    · exact hdone h

/-- What the pattern takes ends with a list of values, remembered as group 4. -/
def EndsInValues (p : Pattern) : Prop :=
  ∀ (c : Cursor) (g : Groups) (k : Cursor → Groups → Option Match) (r : Match),
    (∀ c g, (k c g).isSome) → p.run c g k = some r →
      ∃ w c₁ u c₂ g' vs, c.Passes w c₁ ∧ c₁.Passes u c₂ ∧ IsListOf u vs ∧
        k c₂ ((4, ⟨c₁.offset, c₂.offset⟩) :: g') = some r

theorem EndsInValues.seq {p : Pattern} (a : Pattern) (hp : EndsInValues p) :
    EndsInValues (.seq a p) := by
  intro c g k r hk h
  rw [run] at h
  obtain ⟨v, c', g', hv, -, h⟩ := run_passes h
  obtain ⟨w, c₁, u, c₂, g₂, vs, hw, hu, hvs, h⟩ := hp c' g' k r hk h
  exact ⟨v ++ w, c₁, u, c₂, g₂, vs, hv.trans hw, hu, hvs, h⟩

theorem endsInValues_group : EndsInValues
    (group 4 (.seq Phrase.value (many true (.seq Phrase.valueSeparator Phrase.value)))) := by
  intro c g k r hk h
  rw [run, run] at h
  have htotal : Total c fun c' g' => (many true (.seq Phrase.valueSeparator Phrase.value)).run c' g'
      fun c₂ g₂ => k c₂ ((4, ⟨c.offset, c₂.offset⟩) :: g₂) := by
    refine fun _ _ _ _ => isSome_turns ?_ _
    exact hk _ _
  obtain ⟨v, c₁, g₁, hv, hfits, h⟩ := run_value htotal h
  obtain ⟨u, c₂, g₂, hu, h, hlist⟩ := run_rest (fun u c' g _ => hk _ _) h
  obtain ⟨vs, hvs⟩ := hlist v hfits (wordBefore_of_fits hfits hv)
  exact ⟨[], c, _, c₂, g₂, _, .refl c, hv.trans hu, hvs, h⟩

theorem endsInValues_condition : EndsInValues Phrase.condition := (endsInValues_group.seq _).seq _

theorem endsInValues_firstCondition : EndsInValues Phrase.firstCondition :=
  ((endsInValues_condition.seq _).seq _).seq _

theorem endsInValues_chainedCondition : EndsInValues Phrase.chainedCondition :=
  (((endsInValues_condition.seq _).seq _).seq _).seq _

open Cursor (place)

/-- The values of a match are a list of values. -/
theorem EndsInValues.exists_isListOf {p : Pattern} (hp : EndsInValues p) {cs : List Char} {i : Nat}
    {m : Match} (h : p.matchAt (place cs i) = some m) (hi : i ≤ cs.length) :
    ∃ vs, IsListOf (m.groupText 4 cs).toList vs := by
  obtain ⟨w, c₁, u, c₂, g, vs, hw, hu, hvs, hm⟩ := hp _ _ _ m (fun _ _ => rfl) h
  have hoffset := hw.offset
  rw [Cursor.offset_place hi] at hoffset
  have hrest : cs.drop c₁.offset = u ++ c₂.rest := by
    rw [← hu.rest, hw.skip, Cursor.skip_place, Cursor.rest_place, ← Cursor.skip_place, ← hw.skip,
      hoffset]
  have hspan : Span.of ⟨c₁.offset, c₂.offset⟩ cs = u := by
    rw [Span.of, Span.length, hu.offset, hrest, Nat.add_sub_cancel_left, List.take_left]
  have htext : m.groupText 4 cs = String.ofList u := by
    rw [← Option.some.inj hm]
    exact congrArg String.ofList hspan
  rw [htext, String.toList_ofList]
  exact ⟨vs, hvs⟩

/-- The values of every condition are a list of values. -/
theorem exists_isListOf_of_mem {cs : List Char} {c : Condition} (hc : c ∈ Condition.list cs) :
    ∃ vs, IsListOf c.values.toList vs := by
  have hchain (fuel : Nat) (cs : List Char) (i : Nat) (hc : c ∈ Condition.chain fuel cs i) :
      ∃ vs, IsListOf c.values.toList vs := by
    induction fuel generalizing cs i with
    | zero => cases hc
    | succ fuel ih =>
      rw [Condition.chain] at hc
      split at hc
      · cases hc
      · next m hm =>
        rcases List.mem_cons.mp hc with rfl | hc
        · obtain ⟨hmatch, hle, hstop, -⟩ := find_spec hm
          exact endsInValues_chainedCondition.exists_isListOf hmatch (by omega)
        · exact ih _ _ hc
  obtain ⟨m, hm, hc⟩ := List.mem_flatMap.mp hc
  rcases List.mem_cons.mp hc with rfl | hc
  · obtain ⟨-, hlt, hle, hmatch⟩ := (Condition.scan_firsts cs).mem hm
    exact endsInValues_firstCondition.exists_isListOf hmatch (by omega)
  · exact hchain _ _ _ hc

end ValueList

/-! ## What is taken for a value -/

namespace WrittenValue

/-- The character can stand around a quoted text. -/
def isQuote (c : Char) : Bool := c = '\'' || c = '"'

/-- The value without the quotes around it. -/
def contents : WrittenValue → List Char
  | quoted _ contents => contents
  | bare word => word

/-- The value that is meant: a bare word as it is, and what stands between quotes without the blanks
around it, if it is more than blanks. -/
def value? : WrittenValue → Option (List Char)
  | quoted _ contents =>
    if (Text.trimChars contents).isEmpty then none else some (Text.trimChars contents)
  | bare word => some word

/-- No separator is found in the value, and neither a blank nor a quote stands at an end of its
contents. -/
structure IsPlain (v : WrittenValue) : Prop where
  whole : Phrase.valueSeparator.find v.text = none
  ends : Text.EndsOutside (fun c => Text.isBlank c || isQuote c) v.contents

end WrittenValue

namespace ValueList

open WrittenValue Text

variable {raw rest u e : List Char} {v : WrittenValue} {vs : List WrittenValue}

/-- A piece without the blanks and then without the quotes at its ends. -/
def tidy (piece : List Char) : List Char := dropEnds isQuote (trimChars piece)

/-- The values that are taken out of a text. -/
def taken (u : List Char) : List (List Char) := ((cut false u).map tidy).filter (!·.isEmpty)

theorem splitValues_eq (raw : String) :
    Condition.splitValues raw = (taken raw.toList).map String.ofList := by
  have hpieces : (Condition.piecesBetween raw.toList 0
      (Phrase.valueSeparator.findAll raw.toList)).map (fun cs =>
        Text.trimWhile (fun c => c = '\'' || c = '"') (String.ofList (trimChars cs))) =
      ((cut false raw.toList).map tidy).map String.ofList := by
    have htidy := congrArg (List.map fun cs => String.ofList (dropEnds isQuote cs))
      (map_trimChars_pieces raw.toList)
    rw [List.map_map, List.map_map] at htidy
    rw [List.map_map]
    refine Eq.trans (List.map_congr_left fun cs _ => ?_) htidy
    rw [Text.trimWhile, String.toList_ofList]
    rfl
  rw [Condition.splitValues, hpieces, taken, List.filter_map]
  congr 1
  refine List.filter_congr fun cs _ => congrArg (!·) ?_
  rw [Bool.eq_iff_iff, String.isEmpty_iff, List.isEmpty_iff, String.ofList_eq_empty_iff]

theorem taken_eq (u : List Char) : taken u =
    (((cut false u).map trimChars).map (dropEnds isQuote)).filter (!·.isEmpty) := by
  rw [List.map_map]
  rfl

/-- From a list of values, each value is taken by itself. -/
theorem map_trimChars_cut_list (h : IsListOf raw vs) :
    (cut false raw).map trimChars = vs.flatMap fun v => (cut false v.text).map trimChars := by
  induction h with
  | last => rw [List.flatMap_singleton]
  | @more v lead sep trail raw vs hfits hlead hdivides htrail hrest ih =>
    rw [map_trimChars_cut hlead htrail hdivides, List.flatMap_cons, ← ih]
    congr 2
    cases hends : endsWord false (v.text ++ (lead ++ sep ++ trail)) with
    | false => rfl
    | true =>
      refine cut_of_not_beginsWord (hdivides.loose_back htrail ?_)
      rw [← hends]
      simp only [endsWord_append]

theorem taken_list (h : IsListOf raw vs) : taken raw = vs.flatMap fun v => taken v.text := by
  simp only [taken_eq, map_trimChars_cut_list h, List.map_flatMap, List.filter_flatMap]

theorem isQuote_iff {c : Char} : isQuote c = true ↔ c = '\'' ∨ c = '"' := by
  simp [isQuote]

theorem isQuiet_of_isQuote (h : ∀ c ∈ u, isQuote c = true) : IsQuiet u := by
  intro c hc
  rcases isQuote_iff.mp (h c hc) with rfl | rfl <;> decide +kernel

theorem isBlank_of_isQuote {c : Char} (h : isQuote c = true) : isBlank c = false := by
  rcases isQuote_iff.mp h with rfl | rfl <;> decide

/-- A value that is taken out of a text has no separator, and no quote at its ends. -/
theorem spec_of_mem_taken (h : e ∈ taken u) :
    (cut false e).length = 1 ∧ EndsOutside isQuote e := by
  obtain ⟨piece, hpiece, rfl⟩ := List.mem_map.mp (List.mem_filter.mp h).1
  refine ⟨?_, endsOutside_dropEnds isQuote _⟩
  obtain ⟨before, after, hbefore, hafter, hblanks⟩ := exists_trimChars piece
  obtain ⟨before', after', hbefore', hafter', hquotes⟩ := exists_dropEnds isQuote (trimChars piece)
  have hone := length_cut_of_mem hpiece
  rwa [hblanks, length_cut_quiet (isQuiet_of_isBlank hbefore) (isQuiet_of_isBlank hafter), hquotes,
    length_cut_quiet (isQuiet_of_isQuote hbefore') (isQuiet_of_isQuote hafter')] at hone

theorem taken_of_whole (h : (cut false u).length = 1) :
    taken u = [tidy u].filter (!·.isEmpty) := by
  rw [taken, eq_singleton_of_length_cut h, List.map_singleton]

section quoted

variable {quote : Char} {cs : List Char} (h : (quoted quote cs).Fits rest)
include h

theorem forall_isQuote : ∀ c ∈ [quote], isQuote c = true := by
  intro c hc
  rw [List.mem_singleton.mp hc]
  exact isQuote_iff.mpr h.1

theorem tidy_quoted : tidy (quoted quote cs).text = dropEnds isQuote cs := by
  have htext : (quoted quote cs).text = [quote] ++ cs ++ [quote] := by simp [text]
  have hends : EndsOutside isBlank ([quote] ++ cs ++ [quote]) := by
    have hblank := isBlank_of_isQuote (isQuote_iff.mpr h.1)
    rintro c (hc | hc)
    · exact Option.some.inj hc ▸ hblank
    · rw [List.getLast?_concat] at hc
      exact Option.some.inj hc ▸ hblank
  have htrim : trimChars ([quote] ++ cs ++ [quote]) = [quote] ++ cs ++ [quote] :=
    dropEnds_eq_self hends
  rw [tidy, htext, htrim, dropEnds_append (forall_isQuote h) (forall_isQuote h)]

theorem length_cut_quoted :
    (cut false (quoted quote cs).text).length = (cut false (trimChars cs)).length := by
  have htext : (quoted quote cs).text = [quote] ++ cs ++ [quote] := by simp [text]
  obtain ⟨before, after, hbefore, hafter, hblanks⟩ := exists_trimChars cs
  have hquiet := isQuiet_of_isQuote (forall_isQuote h)
  conv_lhs => rw [htext, length_cut_quiet hquiet hquiet, hblanks]
  exact length_cut_quiet (isQuiet_of_isBlank hbefore) (isQuiet_of_isBlank hafter) _

end quoted

theorem forall_bare {word : List Char} (h : (bare word).Fits rest) :
    ∀ c ∈ word, isBlank c = false ∧ isQuote c = false := by
  intro c hc
  have hbare := h.2.1 c hc
  constructor
  · refine Bool.eq_false_iff.mpr fun hblank => ?_
    rw [isBare_of_special (.inl hblank)] at hbare
    cases hbare
  · refine Bool.eq_false_iff.mpr fun hquote => ?_
    rw [isBare_quote (isQuote_iff.mp hquote)] at hbare
    cases hbare

theorem tidy_bare {word : List Char} (h : (bare word).Fits rest) : tidy word = word := by
  have hblank : trimChars word = word :=
    dropEnds_eq_self (endsOutside_of_forall fun c hc => (forall_bare h c hc).1)
  rw [tidy, hblank]
  exact dropEnds_eq_self (endsOutside_of_forall fun c hc => (forall_bare h c hc).2)

/-- No blank stands at the ends of a value that is meant. -/
theorem endsOutside_of_value? (hv : v.Fits rest) (h : v.value? = some e) :
    EndsOutside isBlank e := by
  cases v with
  | quoted quote cs =>
    rw [value?] at h
    split at h
    · cases h
    · exact Option.some.inj h ▸ endsOutside_dropEnds isBlank cs
  | bare word =>
    obtain rfl := Option.some.inj h
    exact endsOutside_of_forall fun c hc => (forall_bare hv c hc).1

/-- A plain value is taken as it is meant. -/
theorem taken_of_isPlain (hv : v.Fits rest) (h : v.IsPlain) : taken v.text = v.value?.toList := by
  rw [taken_of_whole (find_eq_none_iff.mp h.whole)]
  cases v with
  | quoted quote cs =>
    have hblank : trimChars cs = cs :=
      dropEnds_eq_self fun c hc => (Bool.or_eq_false_iff.mp (h.ends c hc)).1
    have hquote : dropEnds isQuote cs = cs :=
      dropEnds_eq_self fun c hc => (Bool.or_eq_false_iff.mp (h.ends c hc)).2
    rw [tidy_quoted hv, hquote, value?, hblank]
    cases cs <;> rfl
  | bare word =>
    obtain ⟨c, cs, rfl⟩ := List.exists_cons_of_ne_nil hv.1
    rw [text, tidy_bare hv]
    rfl

/-- A value is plain if it is meant as one that could be taken, and taken as one that could be
meant. -/
theorem isPlain_of_taken (hv : v.Fits rest) (hvalue : ∀ e, v.value? = some e →
      (cut false e).length = 1 ∧ EndsOutside isQuote e)
    (htaken : ∀ e ∈ taken v.text, EndsOutside isBlank e) : v.IsPlain := by
  cases v with
  | bare word =>
    refine ⟨find_eq_none_iff.mpr (hvalue word rfl).1, endsOutside_of_forall fun c hc => ?_⟩
    exact Bool.or_eq_false_iff.mpr (forall_bare hv c hc)
  | quoted quote cs =>
    obtain ⟨hone, hmeant⟩ : (cut false (trimChars cs)).length = 1 ∧
        EndsOutside isQuote (trimChars cs) := by
      by_cases hnil : trimChars cs = []
      · rw [hnil]
        exact ⟨by rw [cut]; rfl, endsOutside_of_forall (by simp)⟩
      · exact hvalue _ (by rw [value?, if_neg (by simpa using hnil)])
    have hwhole := (length_cut_quoted hv).trans hone
    have hleft : EndsOutside isBlank (dropEnds isQuote cs) := by
      by_cases hnil : dropEnds isQuote cs = []
      · rw [hnil]
        exact endsOutside_of_forall (by simp)
      · refine htaken _ ?_
        rw [taken_of_whole hwhole, tidy_quoted hv]
        simp [hnil]
    refine ⟨find_eq_none_iff.mpr hwhole, fun c hc => ?_⟩
    -- a quote at an end stays when blanks are cut off, and a blank when quotes are
    cases hquote : isQuote c with
    | true =>
      have hblank := isBlank_of_isQuote hquote
      rw [hmeant c (end_dropEnds hblank hc)] at hquote
      cases hquote
    | false =>
      exact Bool.or_eq_false_iff.mpr ⟨hleft c (end_dropEnds hquote hc), hquote⟩

theorem fits_of_mem (h : IsListOf raw vs) (hv : v ∈ vs) : ∃ rest, v.Fits rest := by
  induction h with
  | last hfits => exact ⟨_, List.mem_singleton.mp hv ▸ hfits⟩
  | more hfits _ _ _ _ ih =>
    rcases List.mem_cons.mp hv with rfl | hv
    · exact ⟨_, hfits⟩
    · exact ih hv

/-- The values that are taken are those that are meant if and only if each of them is plain. -/
theorem taken_eq_iff (h : IsListOf raw vs) :
    taken raw = vs.filterMap value? ↔ ∀ v ∈ vs, v.IsPlain := by
  constructor
  · intro heq v hv
    obtain ⟨rest, hfits⟩ := fits_of_mem h hv
    refine isPlain_of_taken hfits (fun e he => ?_) fun e he => ?_
    · have hmem : e ∈ taken raw := heq ▸ List.mem_filterMap.mpr ⟨v, hv, he⟩
      exact spec_of_mem_taken hmem
    · have hmem : e ∈ vs.filterMap value? := by
        rw [← heq, taken_list h]
        exact List.mem_flatMap.mpr ⟨v, hv, he⟩
      obtain ⟨w, hw, hvalue⟩ := List.mem_filterMap.mp hmem
      obtain ⟨rest', hfits'⟩ := fits_of_mem h hw
      exact endsOutside_of_value? hfits' hvalue
  · intro hplain
    rw [taken_list h, List.filterMap_eq_flatMap_toList]
    refine List.flatMap_congr fun v hv => ?_
    obtain ⟨rest, hfits⟩ := fits_of_mem h hv
    exact taken_of_isPlain hfits (hplain v hv)

end ValueList

namespace Dictionary

/-- The values of a filter come from a list of values in the text, which is the list of one row of
values only. The filter has what each of these gives by itself when it is cut, in their order. So the
values of the filter are those that are meant if and only if all are plain. -/
theorem filter_values_iff (d : Dictionary) {question : String} {request : Request}
    (h : d.request question = .ok request) {f : FilterMention} (hf : f ∈ request.filters) :
    ∃ c ∈ Condition.list (Reading.conditionText question), c.filter = f ∧
      ∃ vs, ValueList.IsListOf c.values.toList vs ∧
        (∀ vs', ValueList.IsListOf c.values.toList vs' → vs' = vs) ∧
        f.value.toList = vs.flatMap (fun v => Condition.splitValues (String.ofList v.text)) ∧
        (f.value.toList = (vs.filterMap WrittenValue.value?).map String.ofList ↔
          ∀ v ∈ vs, v.IsPlain) := by
  rw [request_filters h] at hf
  obtain ⟨c, hc, rfl⟩ := List.mem_map.mp hf
  obtain ⟨vs, hvs⟩ := ValueList.exists_isListOf_of_mem hc
  refine ⟨c, hc, rfl, vs, hvs, fun vs' hvs' => hvs'.unique hvs, ?_⟩
  have hvalues : c.filter.value.toList = (ValueList.taken c.values.toList).map String.ofList := by
    rw [← ValueList.splitValues_eq]
    exact FilterValues.toList_ofList _
  rw [hvalues]
  constructor
  · rw [ValueList.taken_list hvs, List.map_flatMap]
    simp only [ValueList.splitValues_eq, String.toList_ofList]
  · rw [← ValueList.taken_eq_iff hvs]
    exact List.map_inj_right fun _ _ => String.ofList_inj.mp

end Dictionary

namespace Wagers

/-- A value with a comma between the quotes. -/
def bosnia : WrittenValue := .quoted '\'' "Bosnia, Herzegovina".toList

/-- A question with the value. -/
def quotedCountry : String := "deposits where country is 'Bosnia, Herzegovina'"

/-- The filter has two values where one is meant. -/
theorem filter_values_iff_quotedCountry :
    ∃ request, Dictionary.empty.request quotedCountry = .ok request ∧
      ∃ f ∈ request.filters, f.field = "country" ∧ f.value = .many ["Bosnia", "Herzegovina"] ∧
      bosnia.value? = some "Bosnia, Herzegovina".toList ∧
      ∃ c ∈ Condition.list (Reading.conditionText quotedCountry), c.filter = f ∧
        ValueList.IsListOf c.values.toList [bosnia] ∧ ¬ bosnia.IsPlain := by
  have hwords : Text.isBlankText quotedCountry = false := by decide +kernel
  obtain ⟨request, hrequest⟩ := Dictionary.exists_request_empty hwords
  have hread : (Condition.list (Reading.conditionText quotedCountry)).map
      (fun c => (c.values, c.filter.field, c.filter.value)) =
      [("'Bosnia, Herzegovina'", "country", .many ["Bosnia", "Herzegovina"])] := by decide +kernel
  obtain ⟨c, hlist, hc⟩ := List.map_eq_singleton_iff.mp hread
  obtain ⟨hvalues, hfield, hvalue⟩ : c.values = "'Bosnia, Herzegovina'" ∧
      c.filter.field = "country" ∧ c.filter.value = .many ["Bosnia", "Herzegovina"] := by
    simpa using hc
  have hbosnia : ValueList.IsListOf c.values.toList [bosnia] := by
    have htext : c.values.toList = bosnia.text := by
      rw [hvalues]
      decide +kernel
    rw [htext]
    exact .last ⟨.inl rfl, by decide +kernel⟩
  have hmeant : bosnia.value? = some "Bosnia, Herzegovina".toList := by decide +kernel
  have hf : c.filter ∈ request.filters := by
    rw [Dictionary.request_filters hrequest, hlist]
    exact List.mem_singleton_self _
  obtain ⟨c', hc', hsame, vs, -, hunique, -, hiff⟩ :=
    Dictionary.filter_values_iff Dictionary.empty hrequest hf
  rw [hlist] at hc'
  obtain rfl := List.mem_singleton.mp hc'
  obtain rfl := hunique [bosnia] hbosnia
  refine ⟨request, hrequest, c'.filter, hf, hfield, hvalue, hmeant, c', hlist ▸ hc', rfl, hbosnia,
    fun hplain => ?_⟩
  have htwo := hiff.mpr (by simpa using hplain)
  rw [hvalue, List.filterMap_cons, hmeant] at htwo
  simp [FilterValues.toList] at htwo

end Wagers

end MetricLayer
