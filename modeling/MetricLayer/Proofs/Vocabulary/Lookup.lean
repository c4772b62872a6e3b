import Mathlib.Data.Prod.Lex
import Mathlib.Data.String.Basic
import Mathlib.Tactic
import MetricLayer.Proofs.Vocabulary.Dictionary
import MetricLayer.Proofs.Vocabulary.Ladder

/-!
# What a phrase may mean

A lookup lists the entries of a kind that match a phrase. Entries that are known by the term are
read off an index, in which several entries can share a term and one entry can have a term twice.
The others are tried one by one, and those that were found already are told by their names, which
all differ. `Dictionary.Scores` says what the score of an entry is without any of this.

Results:
1. `TermIndex.places_ofTerms`: the index gives the places of the entries that are known by a term,
   each once and in order.
2. `Dictionary.lookup_ranks`: a lookup lists every entry with a score once, the best first.
-/

namespace MetricLayer

/-! ## The index -/

namespace TermIndex

variable {key : String}

theorem addOnce_of_not_mem {i : ℕ} {places : List ℕ} (h : i ∉ places) :
    addOnce i places = places ++ [i] := by
  simp [addOnce, h]

theorem addOnce_addOnce (i : ℕ) (places : List ℕ) :
    addOnce i (addOnce i places) = addOnce i places := by
  by_cases h : i ∈ places <;> simp [addOnce, h]

theorem places_put (ix : TermIndex) (term : String) (i : ℕ) :
    (ix.put term i).places key =
      if key = term then addOnce i (ix.places key) else ix.places key := by
  obtain ⟨groups⟩ := ix
  unfold places put
  simp only
  induction groups with
  | nil =>
    rw [putIn, List.lookup_cons]
    by_cases hkey : key = term
    · simp [hkey, addOnce]
    · simp [beq_false_of_ne hkey, hkey]
  | cons g rest ih =>
    obtain ⟨t, is⟩ := g
    rw [putIn]
    by_cases hterm : term = t
    · subst hterm
      rw [if_pos rfl, List.lookup_cons, List.lookup_cons]
      by_cases hkey : key = term
      · simp [hkey]
      · simp [beq_false_of_ne hkey, hkey]
    · rw [if_neg hterm, List.lookup_cons, List.lookup_cons]
      by_cases hkey : key = t
      · subst hkey
        simp [Ne.symm hterm]
      · simpa [beq_false_of_ne hkey] using ih

/-- An entry is put under each of its terms, once. -/
theorem places_putAll (terms : List String) (i : ℕ) (ix : TermIndex) :
    (terms.foldl (·.put · i) ix).places key =
      if key ∈ terms then addOnce i (ix.places key) else ix.places key := by
  induction terms generalizing ix with
  | nil => simp
  | cons term terms ih =>
    rw [List.foldl_cons, ih, places_put]
    by_cases hterm : key = term <;> by_cases hterms : key ∈ terms <;>
      simp [hterm, hterms, addOnce_addOnce]

theorem places_putEntries (es : List (Terms × ℕ)) (ix : TermIndex) (hes : (es.map (·.2)).Nodup)
    (hnew : ∀ e ∈ es, e.2 ∉ ix.places key) :
    (es.foldl (fun ix (t, i) => t.all.foldl (·.put · i) ix) ix).places key =
      ix.places key ++ (es.filter fun e => key ∈ e.1.all).map (·.2) := by
  induction es generalizing ix with
  | nil => simp
  | cons e es ih =>
    obtain ⟨t, i⟩ := e
    rw [List.map_cons, List.nodup_cons] at hes
    have hplaces : (t.all.foldl (·.put · i) ix).places key =
        ix.places key ++ if key ∈ t.all then [i] else [] := by
      rw [places_putAll]
      split
      · exact addOnce_of_not_mem (hnew _ List.mem_cons_self)
      · exact (List.append_nil _).symm
    have hlater : ∀ e ∈ es, e.2 ∉ (t.all.foldl (·.put · i) ix).places key := by
      intro e he
      rw [hplaces, List.mem_append, not_or]
      refine ⟨hnew e (List.mem_cons_of_mem _ he), ?_⟩
      split
      · exact fun hmem => hes.1 (List.mem_map.mpr ⟨e, he, List.mem_singleton.mp hmem⟩)
      · exact List.not_mem_nil
    rw [List.foldl_cons, ih _ hes.2 hlater, hplaces, List.filter_cons]
    split <;> simp_all

/-- The index gives the places of the entries that are known by a term, each once and in order. -/
theorem places_ofTerms (ts : List Terms) :
    (ofTerms ts).places key = (ts.zipIdx.filter fun e => key ∈ e.1.all).map (·.2) := by
  refine (places_putEntries ts.zipIdx ⟨[]⟩ ?_ fun e _ => List.not_mem_nil).trans rfl
  rw [List.zipIdx_map_snd]
  exact List.nodup_range'

end TermIndex

namespace Dictionary

variable {d : Dictionary} {settings : MappingSettings} {kind : EntityKind} {term : String}

/-! ## Entries -/

/-- The names of the entries of a kind, each with its synonyms. -/
def namesOf (d : Dictionary) : EntityKind → List (String × List String)
  | .metric => d.definition.metrics.map fun m => (m.name, m.synonyms)
  | .dimension => d.definition.dimensions.map fun x => (x.name, x.synonyms)
  | _ => []

/-- Entries are compared by the terms of their names. -/
theorem entriesOf_eq (d : Dictionary) (kind : EntityKind) :
    d.entriesOf kind = (d.namesOf kind).map fun e => (e.1, .ofNames e.1 e.2) := by
  cases kind with
  | metric =>
    have hmap : d.metrics.map (fun e => (e.definition, e.terms)) = d.definition.metricTerms.map id := by
      refine mapM_map ?_ d.faultless.metrics_read
      rintro ⟨m, t⟩ e he
      obtain ⟨hdefinition, hterms, -⟩ := DictionaryDefinition.metricEntry_spec he
      exact Prod.ext hdefinition hterms
    have hmetrics := congrArg (List.map fun e => (e.1.name, e.2)) hmap
    simpa [entriesOf, namesOf, DictionaryDefinition.metricTerms, Function.comp_def] using hmetrics
  | dimension =>
    rw [entriesOf, d.faultless.dimensions_eq]
    simp [namesOf, Function.comp_def]
  | _ => rfl

theorem entriesOf_names_differ (d : Dictionary) (kind : EntityKind) :
    ((d.entriesOf kind).map (·.1)).Nodup := by
  cases kind with
  | metric => simpa [entriesOf, Function.comp_def] using d.names_differ
  | dimension =>
    refine .of_map Term.ofPhrase ?_
    have hdiffer := d.faultless.dimensions_differ
    rw [d.faultless.dimensions_eq] at hdiffer
    rw [entriesOf, d.faultless.dimensions_eq]
    simpa [Function.comp_def, Terms.ofNames] using hdiffer
  | _ => exact List.nodup_nil

/-! ## Candidates -/

/-- The candidates of the index are the entries that are known by the term. -/
theorem hits_eq (d : Dictionary) (kind : EntityKind) (term : String) :
    d.hits kind term = ((d.entriesOf kind).filter fun e => term ∈ e.2.all).map fun e =>
      ⟨kind, e.1, (Rung.exact term e.2).score⟩ := by
  unfold hits index
  generalize d.entriesOf kind = es
  have hplaces : (TermIndex.ofTerms (es.map (·.2))).places term =
      (es.zipIdx.filter fun e => term ∈ e.1.2.all).map (·.2) := by
    rw [TermIndex.places_ofTerms, List.zipIdx_map, List.filter_map, List.map_map]
    rfl
  have hentry : ∀ e ∈ es.zipIdx.filter fun e => term ∈ e.1.2.all,
      es[e.2]?.map (fun x => (⟨kind, x.1, (Rung.exact term x.2).score⟩ : Candidate)) =
        some ⟨kind, e.1.1, (Rung.exact term e.1.2).score⟩ := by
    intro e he
    rw [List.mk_mem_zipIdx_iff_getElem?.mp (List.mem_of_mem_filter he)]
    rfl
  have hfilter : es.filter (fun e => term ∈ e.2.all) =
      (es.zipIdx.filter fun e => term ∈ e.1.2.all).map (·.1) := by
    conv_lhs => rw [← List.zipIdx_map_fst 0 es, List.filter_map]
    rfl
  rw [hplaces, List.filterMap_map, hfilter, List.map_map]
  refine (List.filterMap_congr hentry).trans ?_
  rw [List.filterMap_eq_map']
  rfl

/-- What an entry is a candidate for when it is tried. -/
def tried? (settings : MappingSettings) (kind : EntityKind) (term : String) (e : String × Terms) :
    Option Candidate :=
  match Rung.below? settings term e.2 with
  | some r => if 0 < r.score then some ⟨kind, e.1, r.score⟩ else none
  | none => none

theorem tried?_eq_some {e : String × Terms} {c : Candidate} :
    tried? settings kind term e = some c ↔ ∃ r, Rung.below? settings term e.2 = some r ∧
      0 < r.score ∧ (⟨kind, e.1, r.score⟩ : Candidate) = c := by
  unfold tried?
  cases Rung.below? settings term e.2 with
  | none => simp
  | some r => simp

theorem scanOne_eq (found : List Candidate) (e : String × Terms) :
    scanOne settings kind term found e =
      found ++ (if found.any (·.name = e.1) then none else tried? settings kind term e).toList := by
  unfold scanOne tried?
  split
  · simp
  · cases Rung.below? settings term e.2 with
    | none => simp
    | some r => by_cases hr : 0 < r.score <;> simp [hr]

/-- Entries are told by their names, so only what was found before they are tried is left out. -/
theorem foldl_scanOne (es : List (String × Terms)) (hes : (es.map (·.1)).Nodup)
    (found : List Candidate) :
    es.foldl (scanOne settings kind term) found = found ++ es.filterMap fun e =>
      if found.any (·.name = e.1) then none else tried? settings kind term e := by
  induction es generalizing found with
  | nil => simp
  | cons e es ih =>
    rw [List.map_cons, List.nodup_cons] at hes
    have hlater : ∀ e' ∈ es, (scanOne settings kind term found e).any (·.name = e'.1) =
        found.any (·.name = e'.1) := by
      intro e' he'
      have hne : e.1 ≠ e'.1 := fun h => hes.1 (h ▸ List.mem_map_of_mem he')
      rw [scanOne_eq, List.any_append, Bool.or_eq_left_iff_imp, List.any_eq_true]
      rintro ⟨c, hc, hname⟩
      rw [Option.mem_toList, Option.ite_none_left_eq_some, tried?_eq_some] at hc
      obtain ⟨-, r, -, -, rfl⟩ := hc
      exact absurd (of_decide_eq_true hname) hne
    rw [List.foldl_cons, ih hes.2, List.filterMap_congr fun e' he' => by rw [hlater e' he'],
      scanOne_eq, List.append_assoc, List.filterMap_cons]
    cases if found.any (·.name = e.1) then none else tried? settings kind term e <;> rfl

/-! ## Scores -/

/-- The score of an entry of the kind for a phrase: that of the first rung that fits, if it is
positive. -/
def Scores (d : Dictionary) (settings : MappingSettings) (kind : EntityKind) (phrase name : String)
    (score : Float) : Prop :=
  ∃ synonyms rung, (name, synonyms) ∈ d.namesOf kind ∧
    Rung.IsFirst settings (Term.ofPhrase phrase) (.ofNames name synonyms) rung ∧
    score = rung.score ∧ 0 < score

/-- What holds of the entries that a lookup lists. -/
structure Ranks (d : Dictionary) (settings : MappingSettings) (kind : EntityKind)
    (phrase : String) : Prop where
  /-- The entries that are listed are those with a score, and they have it. -/
  listed : ∀ c, c ∈ d.lookup settings kind phrase ↔
    c.kind = kind ∧ d.Scores settings kind phrase c.name c.score
  /-- No entry is listed twice. -/
  once : ((d.lookup settings kind phrase).map (·.name)).Nodup
  /-- Higher scores come first, and names ascend where scores are equal. -/
  ordered : (d.lookup settings kind phrase).Pairwise fun a b =>
    b.score < a.score ∨ (a.score == b.score) = true ∧ a.name < b.name
  /-- What is read off the index is what is listed of the entries that are known by the term. -/
  indexed : ∀ c, c ∈ d.hits kind (Term.ofPhrase phrase) ↔ c ∈ d.lookup settings kind phrase ∧
    ∃ synonyms, (c.name, synonyms) ∈ d.namesOf kind ∧
      Term.ofPhrase phrase ∈ (Terms.ofNames c.name synonyms).all

variable {phrase : String}

theorem scores_iff {name : String} {score : Float} : d.Scores settings kind phrase name score ↔
    ∃ e ∈ d.entriesOf kind, ∃ rung, name = e.1 ∧ score = rung.score ∧ 0 < score ∧
      Rung.IsFirst settings (Term.ofPhrase phrase) e.2 rung := by
  rw [entriesOf_eq]
  constructor
  · rintro ⟨synonyms, rung, hmem, hfirst, hscore, hpos⟩
    exact ⟨_, List.mem_map_of_mem hmem, rung, rfl, hscore, hpos, hfirst⟩
  · rintro ⟨e, he, rung, rfl, hscore, hpos, hfirst⟩
    obtain ⟨⟨name, synonyms⟩, hmem, rfl⟩ := List.mem_map.mp he
    exact ⟨synonyms, rung, hmem, hfirst, hscore, hpos⟩

theorem Scores.isPositive {name : String} {score : Float}
    (h : d.Scores settings kind phrase name score) :
    Decimal.isPositive score.toModel.unpack = true := by
  obtain ⟨synonyms, rung, -, hfirst, rfl, hpos⟩ := h
  exact Rung.score_isPositive hfirst.fits hpos

theorem exact_score_pos (term : String) (t : Terms) : 0 < (Rung.exact term t).score := by
  unfold Rung.exact
  split <;> decide +kernel

/-- An entry is among the candidates of the index if it is known by the term. -/
theorem any_hits_iff {e : String × Terms} (he : e ∈ d.entriesOf kind) :
    (d.hits kind term).any (·.name = e.1) = true ↔ term ∈ e.2.all := by
  rw [hits_eq, List.any_map, List.any_eq_true]
  simp only [List.mem_filter, decide_eq_true_eq, Function.comp_apply]
  constructor
  · rintro ⟨e', ⟨he', hterm⟩, hname⟩
    exact List.inj_on_of_nodup_map (d.entriesOf_names_differ kind) he' he hname ▸ hterm
  · exact fun hterm => ⟨e, ⟨he, hterm⟩, rfl⟩

/-- The candidates before they are put in order. -/
def candidates (d : Dictionary) (settings : MappingSettings) (kind : EntityKind) (term : String) :
    List Candidate :=
  (d.entriesOf kind).foldl (scanOne settings kind term) (d.hits kind term)

theorem mem_hits {c : Candidate} : c ∈ d.hits kind term ↔ ∃ e ∈ d.entriesOf kind,
    term ∈ e.2.all ∧ c = ⟨kind, e.1, (Rung.exact term e.2).score⟩ := by
  rw [hits_eq]
  simp [List.mem_map, List.mem_filter, and_assoc, eq_comm]

theorem mem_candidates {c : Candidate} :
    c ∈ d.candidates settings kind (Term.ofPhrase phrase) ↔
      c.kind = kind ∧ d.Scores settings kind phrase c.name c.score := by
  rw [candidates, foldl_scanOne _ (d.entriesOf_names_differ kind), List.mem_append, mem_hits,
    List.mem_filterMap, scores_iff]
  constructor
  · rintro (⟨e, he, hterm, rfl⟩ | ⟨e, he, hc⟩)
    · exact ⟨rfl, e, he, _, rfl, rfl, exact_score_pos .., Rung.exact_isFirst hterm⟩
    · rw [Option.ite_none_left_eq_some, any_hits_iff he, tried?_eq_some] at hc
      obtain ⟨hterm, r, hr, hpos, rfl⟩ := hc
      exact ⟨rfl, e, he, r, rfl, rfl, hpos, Rung.below?_eq_some hterm hr⟩
  · rintro ⟨rfl, e, he, r, hname, hscore, hpos, hfirst⟩
    have hc : c = ⟨c.kind, e.1, r.score⟩ := by rw [← hname, ← hscore]
    by_cases hterm : Term.ofPhrase phrase ∈ e.2.all
    · refine .inl ⟨e, he, hterm, ?_⟩
      rwa [hfirst.unique (Rung.exact_isFirst hterm)] at hc
    · refine .inr ⟨e, he, ?_⟩
      rw [Option.ite_none_left_eq_some, any_hits_iff he, tried?_eq_some]
      exact ⟨hterm, r, (Rung.below?_eq_some_iff hterm).mpr hfirst, hscore ▸ hpos, hc.symm⟩

theorem candidates_names_differ (d : Dictionary) (settings : MappingSettings) (kind : EntityKind)
    (term : String) : (d.candidates settings kind term).Pairwise (·.name ≠ ·.name) := by
  have hdiffer : (d.entriesOf kind).Pairwise (·.1 ≠ ·.1) :=
    List.pairwise_map.mp (d.entriesOf_names_differ kind)
  rw [candidates, foldl_scanOne _ (d.entriesOf_names_differ kind), List.pairwise_append]
  refine ⟨?_, ?_, ?_⟩
  · rw [hits_eq]
    exact (hdiffer.filter _).map _ fun _ _ => id
  · refine hdiffer.filterMap _ fun e e' hne c hc c' hc' => ?_
    rw [Option.ite_none_left_eq_some, tried?_eq_some] at hc hc'
    obtain ⟨-, r, -, -, rfl⟩ := hc
    obtain ⟨-, r', -, -, rfl⟩ := hc'
    exact hne
  · intro c hc c' hc' hname
    obtain ⟨e, -, he⟩ := List.mem_filterMap.mp hc'
    rw [Option.ite_none_left_eq_some, tried?_eq_some] at he
    obtain ⟨hany, r, -, -, rfl⟩ := he
    exact hany (List.any_eq_true.mpr ⟨c, hc, decide_eq_true hname⟩)

/-! ## The order -/

/-- The key by which candidates are put in order: the higher score first, then the name. -/
def standing (c : Candidate) : (ℤ ×ₗ ℤ ×ₗ ℤ)ᵒᵈ ×ₗ String :=
  toLex (OrderDual.toDual (Decimal.place c.score), c.name)

theorem standing_lt_iff {a b : Candidate} (ha : a.score.isNaN = false)
    (hb : b.score.isNaN = false) : standing a < standing b ↔
      b.score < a.score ∨ (a.score == b.score) = true ∧ a.name < b.name := by
  rw [Decimal.lt_iff_place hb ha, Decimal.beq_iff_place ha hb, standing, standing,
    Prod.Lex.toLex_lt_toLex]
  exact Iff.rfl

theorem rankedBefore_iff {a b : Candidate} (ha : a.score.isNaN = false)
    (hb : b.score.isNaN = false) :
    rankedBefore (a.score, a.name) (b.score, b.name) = true ↔ standing a ≤ standing b := by
  have hle : standing a ≤ standing b ↔
      b.score < a.score ∨ (a.score == b.score) = true ∧ a.name ≤ b.name := by
    rw [Decimal.lt_iff_place hb ha, Decimal.beq_iff_place ha hb, standing, standing,
      Prod.Lex.toLex_le_toLex]
    exact Iff.rfl
  rw [hle]
  simp [rankedBefore]

/-- Candidates of different names that are put in order ascend. -/
theorem pairwise_standing {cs : List Candidate} (hnumbers : ∀ c ∈ cs, c.score.isNaN = false)
    (hnames : cs.Pairwise (·.name ≠ ·.name)) :
    (cs.mergeSort fun a b => rankedBefore (a.score, a.name) (b.score, b.name)).Pairwise
      (standing · < standing ·) := by
  have hkeys : ((cs.mergeSort fun a b => rankedBefore (a.score, a.name) (b.score, b.name)).map
      standing).Pairwise (· ≤ ·) := by
    rw [List.map_mergeSort (s := fun x y => decide (x ≤ y)) fun a ha b hb => by
      rw [Bool.eq_iff_iff, rankedBefore_iff (hnumbers a ha) (hnumbers b hb), decide_eq_true_eq]]
    refine (List.pairwise_mergeSort ?_ ?_ _).imp of_decide_eq_true
    · intro x y z hxy hyz
      exact decide_eq_true ((of_decide_eq_true hxy).trans (of_decide_eq_true hyz))
    · intro x y
      rw [Bool.or_eq_true, decide_eq_true_eq, decide_eq_true_eq]
      exact le_total x y
  have hne := ((List.mergeSort_perm cs fun a b =>
    rankedBefore (a.score, a.name) (b.score, b.name)).pairwise_iff fun h => h.symm).mpr hnames
  refine ((List.pairwise_map.mp hkeys).and hne).imp fun ⟨hle, hne⟩ =>
    hle.lt_of_ne fun heq => hne ?_
  exact (Prod.ext_iff.mp (toLex_inj.mp heq)).2

/-- A lookup lists every entry with a score once, the best first. -/
theorem lookup_ranks (d : Dictionary) (settings : MappingSettings) (kind : EntityKind)
    {phrase : String} (hphrase : Term.ofPhrase phrase ≠ "") :
    d.Ranks settings kind phrase := by
  have hlookup : d.lookup settings kind phrase =
      (d.candidates settings kind (Term.ofPhrase phrase)).mergeSort fun a b =>
        rankedBefore (a.score, a.name) (b.score, b.name) := by
    unfold lookup
    simp only
    rw [if_neg (by simpa using hphrase)]
    rfl
  have hlisted (c : Candidate) : c ∈ d.lookup settings kind phrase ↔
      c.kind = kind ∧ d.Scores settings kind phrase c.name c.score := by
    rw [hlookup, List.mem_mergeSort, mem_candidates]
  have hnumbers : ∀ c ∈ d.candidates settings kind (Term.ofPhrase phrase),
      c.score.isNaN = false := by
    intro c hc
    obtain ⟨-, _, _, -, -, -, hpos⟩ := mem_candidates.mp hc
    exact Decimal.isNaN_of_lt hpos
  have hnames := d.candidates_names_differ settings kind (Term.ofPhrase phrase)
  refine ⟨hlisted, ?_, ?_, ?_⟩
  · rw [hlookup]
    exact (((List.mergeSort_perm _ _).map _).nodup_iff).mpr (List.pairwise_map.mpr hnames)
  · have hsorted := pairwise_standing hnumbers hnames
    rw [← hlookup] at hsorted
    have hnumber : ∀ c ∈ d.lookup settings kind phrase, c.score.isNaN = false := fun c hc =>
      hnumbers c (List.mem_mergeSort.mp (hlookup ▸ hc))
    exact hsorted.imp_of_mem fun ha hb h =>
      (standing_lt_iff (hnumber _ ha) (hnumber _ hb)).mp h
  · intro c
    rw [mem_hits, hlisted, scores_iff]
    constructor
    · rintro ⟨e, he, hterm, rfl⟩
      refine ⟨⟨rfl, e, he, _, rfl, rfl, exact_score_pos .., Rung.exact_isFirst hterm⟩, ?_⟩
      rw [entriesOf_eq] at he
      obtain ⟨⟨name, synonyms⟩, hmem, rfl⟩ := List.mem_map.mp he
      exact ⟨synonyms, hmem, hterm⟩
    · rintro ⟨⟨rfl, e, he, r, hname, hscore, -, hfirst⟩, synonyms, hmem, hterm⟩
      have hknown : (c.name, Terms.ofNames c.name synonyms) ∈ d.entriesOf c.kind := by
        rw [entriesOf_eq]
        exact List.mem_map_of_mem hmem
      obtain rfl := List.inj_on_of_nodup_map (d.entriesOf_names_differ c.kind) he hknown hname.symm
      refine ⟨_, he, hterm, ?_⟩
      rw [← hfirst.unique (Rung.exact_isFirst hterm), ← hscore]

end Dictionary

end MetricLayer
