import MetricLayer.Proofs.Question.Loops
import Mathlib.Data.List.Forall2

/-!
# Reading comes to an end

`Dictionary.Extracts` tells how a question is read without any bound on the loops: it relates the
question to the request that is there when the last loop has ended, and to none if a loop goes on
for ever. Every turn of a loop takes text that no later turn of the loop sees, with one exception: a
metric whose name or synonym is made of blanks has a pattern without words, which is found at the
edge of any word and takes nothing.

A text of one letter shows that such a phrase does harm: it has edges of words at its ends only, so
a metric with words, of which a match takes one character at least and no more than it has, is not
found in the text if this is long enough.

Results:
1. `Phrase.takesText_metric`: what a metric takes is empty or more than blanks.
2. `Dictionary.request_eq_ok_iff` and `Dictionary.request_eq_endless_iff`: a question gives the
   request that its loops end with, and is endless if they do not end.
3. `Phrase.exists_find_metric_eq_none` and `Phrase.find_metric_nil`: what is found in a text of one
   letter.
4. `Dictionary.reading_ends_iff`: the reading of every question comes to an end if and only if no
   name or synonym of a metric is made of blanks, and what a turn of each loop takes.
-/

namespace MetricLayer

/-! ## Patterns of metrics -/

namespace Phrase

open Pattern

theorem mem_or_eq_of_mem_intersperse {p sep : Pattern} {ps : List Pattern}
    (h : p ∈ ps.intersperse sep) : p ∈ ps ∨ p = sep := by
  induction ps with
  | nil => cases h
  | cons q ps ih =>
    cases ps with
    | nil => exact .inl h
    | cons q' ps =>
      rw [List.intersperse_cons_cons, List.mem_cons, List.mem_cons] at h
      rcases h with rfl | rfl | h
      · exact .inl List.mem_cons_self
      · exact .inr rfl
      · exact (ih h).imp_left (List.mem_cons_of_mem q)

/-- The words as they are found in a phrase. -/
def AreWords (ws : List String) : Prop :=
  ∀ w ∈ ws, w.toList ≠ [] ∧ ∀ c ∈ w.toList, Text.isBlank c = false

/-- A metric is matched between two edges of words. -/
theorem matchAt_metric {ws : List String} {c : Cursor} {m : Match}
    (h : (metric ws).matchAt c = some m) :
    ∃ n ≤ c.rest.length, (metric ws).Takes (c.rest.take n) ∧ c.atEdge = true ∧
      (c.skip n).atEdge = true ∧ m.span = ⟨c.offset, c.offset + n⟩ := by
  simp only [matchAt, metric, all, run] at h
  split at h
  · next hedge =>
    obtain ⟨n, g, hn, htake, hm⟩ := run_takes (p := seq (all ((ws.map word).intersperse gap))
      (optional (seq (optional (word "e")) (word "s")))) h
    dsimp only at hm
    split at hm
    · next hedge' =>
      obtain rfl := Option.some.inj hm
      obtain ⟨v, w, hsplit, hv, hw⟩ := htake
      have hmetric : (metric ws).Takes (c.rest.take n) :=
        ⟨[], _, rfl, rfl, v, w, hsplit, hv, w, [], by simp, hw, rfl⟩
      exact ⟨n, hn, hmetric, hedge, hedge', by rw [Cursor.offset_skip hn]⟩
    · cases hm
  · cases h

/-- A metric with words takes a character that is not blank. -/
theorem needsOther_metric {ws : List String} (hws : AreWords ws) (hne : ws ≠ []) :
    (metric ws).needsOther Text.blanks = true := by
  obtain ⟨w, ws, rfl⟩ := List.exists_cons_of_ne_nil hne
  obtain ⟨hchars, hblank⟩ := hws w List.mem_cons_self
  obtain ⟨c, cs, hw⟩ := List.exists_cons_of_ne_nil hchars
  have hchar : (char (Text.sameFolded c)).needsOther Text.blanks = true := by
    have hblanks : Text.blanks.all Text.isBlank = true := by decide +kernel
    refine List.all_eq_true.mpr fun x hx => Bool.not_eq_true' _ ▸ Bool.eq_false_iff.mpr fun h => ?_
    have hother := Text.not_isBlank_of_sameFolded (hblank c (by simp [hw])) h
    rw [List.all_eq_true.mp hblanks x hx] at hother
    cases hother
  have hword : (word w).needsOther Text.blanks = true :=
    needsOther_all (List.mem_map.mpr ⟨c, by simp [hw], rfl⟩) hchar
  have hwords : (all (((w :: ws).map word).intersperse gap)).needsOther Text.blanks = true := by
    refine needsOther_all (p := word w) ?_ hword
    cases ws <;> simp
  exact needsOther_all (by simp) hwords

/-- What a metric takes is empty or more than blanks. -/
theorem takesText_metric {ws : List String} (hws : AreWords ws) : (metric ws).TakesText := by
  intro u hu hne
  by_cases hnil : ws = []
  · subst hnil
    obtain ⟨c, hc⟩ := List.exists_mem_of_ne_nil u hne
    refine ⟨c, hc, ?_⟩
    by_contra hblank
    have hnone : (metric []).most c = some 0 :=
      Text.of_isBlank (P := fun b => (metric []).most b = some 0) (by decide +kernel)
        (by simpa using hblank)
    have hcount := count_le_of_most hnone hu
    have hpos := List.count_pos_iff.mpr hc
    omega
  · exact exists_not_isBlank (needsOther_metric hws hnil) hu

end Phrase

/-! ## Reading without a bound -/

namespace Condition

/-- The loop that begins with a first condition ends in this state. -/
def ReadsFrom (cs : List Char) (m : Pattern.Match) (t : Chained) : Prop :=
  Loop (Chained.turn? cs) ⟨[ofMatch m cs 0], m.span.stop⟩ t

/-- The conditions of a text: each first condition, and those that the loop reads behind it. -/
def ReadsAll (cs : List Char) (found : List Condition) : Prop :=
  ∃ chains : List Chained,
    List.Forall₂ (ReadsFrom cs) (Phrase.firstCondition.findAll cs) chains ∧
      chains.flatMap (·.found) = found

theorem exists_chains (cs : List Char) (ms : List Pattern.Match) : ∃ chains : List Chained,
    List.Forall₂ (ReadsFrom cs) ms chains ∧
      chains.flatMap (·.found) = ms.flatMap (withChain cs) := by
  induction ms with
  | nil => exact ⟨[], .nil, rfl⟩
  | cons m ms ih =>
    obtain ⟨chains, hchains, hfound⟩ := ih
    obtain ⟨stop, hloop⟩ := exists_loop cs m
    exact ⟨⟨_, stop⟩ :: chains, .cons hloop hchains, by simp [hfound]⟩

/-- The conditions of a text are those that the loops read. -/
theorem readsAll_iff {cs : List Char} {found : List Condition} :
    ReadsAll cs found ↔ list cs = found := by
  obtain ⟨chains, hchains, hfound⟩ := exists_chains cs (Phrase.firstCondition.findAll cs)
  refine ⟨fun ⟨chains', hchains', hfound'⟩ => ?_, fun h => ⟨chains, hchains, hfound.trans h⟩⟩
  have hunique : Relator.RightUnique (ReadsFrom cs) := fun _ _ _ => Loop.unique
  have hsame : chains = chains' := hunique.forall₂ hchains hchains'
  exact (hsame ▸ hfound).symm.trans hfound'

end Condition

/-- The patterns are read one after the other, each until it is not found any more. -/
def MetricTerm.ReadsAll : List Pattern → Reading → Reading → Prop
  | [], r, t => r = t
  | p :: ps, r, t => ∃ s, Loop (MetricTerm.turn? p) r s ∧ ReadsAll ps s t

theorem MetricTerm.readsAll_iff {ps : List Pattern} (hps : ∀ p ∈ ps, p.TakesText) {r t : Reading} :
    ReadsAll ps r t ↔ Reading.metricTerms? ps r = some t := by
  induction ps generalizing r with
  | nil => exact Option.some_inj.symm
  | cons p ps ih =>
    obtain ⟨hp, hps⟩ := List.forall_mem_cons.mp hps
    rw [Reading.metricTerms?, Option.bind_eq_some_iff]
    exact exists_congr fun s => and_congr (loop_iff hp (Nat.lt_succ_self _)) (ih hps)

/-- If every pattern needs more than blanks, all loops end. -/
theorem MetricTerm.exists_readsAll {ps : List Pattern}
    (hps : ∀ p ∈ ps, p.needsOther Text.blanks = true) (r : Reading) : ∃ t, ReadsAll ps r t := by
  induction ps generalizing r with
  | nil => exact ⟨r, rfl⟩
  | cons p ps ih =>
    obtain ⟨hp, hps⟩ := List.forall_mem_cons.mp hps
    obtain ⟨s, hs⟩ :=
      Loop.ends Reading.size (fun _ _ hturn => (consumes_of_turn? hp hturn).size_lt) r
    obtain ⟨t, ht⟩ := ih hps s
    exact ⟨t, s, hs, ht⟩

namespace Reading

/-- The reading with the conditions as filters, and without their text. -/
def takeConditions (r : Reading) (found : List Condition) : Reading :=
  let request := { r.request with filters := r.request.filters ++ found.map Condition.filter }
  ({ r with request } : Reading).blank (found.map Condition.span)

/-- The request at the end of reading. -/
def toRequest (r : Reading) (ranking : Option Direction) : Request :=
  let request := ((r.leadMetric).rank ranking).request
  { request with overallConfidence := confidence request }

end Reading

namespace Dictionary

/-- All loops end when the question is read, and this is the request then. -/
def Extracts (d : Dictionary) (question : String) (request : Request) : Prop :=
  let start := (Reading.ofText question).comparisons.period.limit
  ∃ found grouped t, Condition.ReadsAll start.1.rest found ∧
    Loop Grouping.turn? (start.1.takeConditions found).sort grouped ∧
    MetricTerm.ReadsAll (MetricTerm.patterns d) grouped t ∧ t.toRequest start.2 = request

/-- Reading the question comes to an end: there is nothing to read, or all loops end. -/
def Returns (d : Dictionary) (question : String) : Prop :=
  Text.isBlankText question = true ∨ ∃ request, d.Extracts question request

theorem request_eq (d : Dictionary) {question : String} (h : Text.isBlankText question = false) :
    d.request question =
      let start := (Reading.ofText question).comparisons.period.limit
      match Reading.metricTerms? (MetricTerm.patterns d) start.1.filters.sort.groupings with
      | none => .error .endless
      | some t => .ok (t.toRequest start.2) := by
  rw [request, if_neg (by simp [h])]
  rfl

theorem mem_patterns {d : Dictionary} {p : Pattern} (h : p ∈ MetricTerm.patterns d) :
    ∃ form ∈ MetricTerm.phrases d, p = Phrase.metric (Text.words form) := by
  obtain ⟨form, hform, rfl⟩ := List.mem_map.mp h
  exact ⟨form, hform, rfl⟩

theorem takesText_of_mem_patterns {d : Dictionary} : ∀ p ∈ MetricTerm.patterns d, p.TakesText := by
  intro p hp
  obtain ⟨form, -, rfl⟩ := mem_patterns hp
  exact Phrase.takesText_metric fun w hw => Text.mem_words hw

theorem extracts_iff {d : Dictionary} {question : String} {request : Request} :
    d.Extracts question request ↔
      let start := (Reading.ofText question).comparisons.period.limit
      ∃ t, Reading.metricTerms? (MetricTerm.patterns d) start.1.filters.sort.groupings = some t ∧
        t.toRequest start.2 = request := by
  have hgroupings (r s : Reading) : Loop Grouping.turn? r s ↔ r.groupings = s :=
    Grouping.loop_iff (Nat.lt_succ_self _)
  simp only [Extracts, Condition.readsAll_iff, hgroupings,
    MetricTerm.readsAll_iff takesText_of_mem_patterns]
  constructor
  · rintro ⟨_, _, t, rfl, rfl, ht, hrequest⟩
    exact ⟨t, ht, hrequest⟩
  · rintro ⟨t, ht, hrequest⟩
    exact ⟨_, _, t, rfl, rfl, ht, hrequest⟩

/-- A question gives the request that its loops end with. -/
theorem request_eq_ok_iff {d : Dictionary} {question : String} {request : Request} :
    d.request question = .ok request ↔
      Text.isBlankText question = false ∧ d.Extracts question request := by
  cases hblank : Text.isBlankText question with
  | true => simp [Dictionary.request, hblank]
  | false =>
    rw [request_eq d hblank, extracts_iff]
    dsimp only
    split <;> simp_all

/-- A question is endless if one of its loops does not end. -/
theorem request_eq_endless_iff {d : Dictionary} {question : String} :
    d.request question = .error .endless ↔ ¬ d.Returns question := by
  cases hblank : Text.isBlankText question with
  | true => simp [Dictionary.request, Returns, hblank]
  | false =>
    simp only [request_eq d hblank, Returns, extracts_iff]
    split <;> simp_all

/-! ## Phrases made of blanks -/

/-- No name or synonym of a metric is made of blanks. An empty one may be there: it is not looked
for. -/
def NoBlankPhrase (d : Dictionary) : Prop :=
  ∀ m ∈ d.metrics, ∀ phrase ∈ m.definition.name :: m.definition.synonyms,
    Text.isBlankText phrase = true → phrase = ""

theorem mem_phrases_iff {d : Dictionary} {form : String} :
    form ∈ MetricTerm.phrases d ↔ ∃ m ∈ d.metrics,
      ∃ phrase ∈ m.definition.name :: m.definition.synonyms, form ∈ MetricTerm.forms phrase := by
  simp only [MetricTerm.phrases, List.mem_mergeSort, List.mem_eraseDups, List.mem_flatMap]
  constructor
  · rintro ⟨phrase, ⟨m, hm, hphrase⟩, hform⟩
    exact ⟨m, hm, phrase, hphrase, hform⟩
  · rintro ⟨m, hm, phrase, hphrase, hform⟩
    exact ⟨phrase, ⟨m, hm, hphrase⟩, hform⟩

/-- A form without words is looked for if and only if the phrase is made of blanks. -/
theorem noBlankPhrase_iff {d : Dictionary} :
    d.NoBlankPhrase ↔ ∀ form ∈ MetricTerm.phrases d, Text.words form ≠ [] := by
  constructor
  · intro h form hform hwords
    obtain ⟨m, hm, phrase, hphrase, hform⟩ := mem_phrases_iff.mp hform
    have hblank := Text.words_eq_nil_iff.mp hwords
    obtain ⟨hwhich, hempty⟩ := List.mem_filter.mp hform
    rcases List.mem_pair.mp hwhich with rfl | rfl
    · rw [Text.isBlankText_lower] at hblank
      simp [h m hm phrase hphrase hblank, Text.lower_eq_empty_iff] at hempty
    · simp [Term.eq_empty_of_isBlankText hblank] at hempty
  · intro h m hm phrase hphrase hblank
    by_contra hne
    refine h (Text.lower phrase) (mem_phrases_iff.mpr ⟨m, hm, phrase, hphrase, ?_⟩) ?_
    · simp [MetricTerm.forms, Text.lower_eq_empty_iff, hne]
    · exact Text.words_eq_nil_iff.mpr ((Text.isBlankText_lower phrase).trans hblank)

/-- Without phrases made of blanks, every metric takes more than blanks. -/
theorem NoBlankPhrase.needsOther {d : Dictionary} (h : d.NoBlankPhrase) :
    ∀ p ∈ MetricTerm.patterns d, p.needsOther Text.blanks = true := by
  intro p hp
  obtain ⟨form, hform, rfl⟩ := mem_patterns hp
  exact Phrase.needsOther_metric (fun w hw => Text.mem_words hw) (noBlankPhrase_iff.mp h form hform)

theorem NoBlankPhrase.returns {d : Dictionary} (h : d.NoBlankPhrase) (question : String) :
    d.Returns question := by
  obtain ⟨t, ht⟩ := MetricTerm.exists_readsAll h.needsOther _
  exact .inr ⟨_, extracts_iff.mpr
    ⟨t, (MetricTerm.readsAll_iff takesText_of_mem_patterns).mp ht, rfl⟩⟩

end Dictionary

/-! ## A text that only a phrase made of blanks is found in -/

namespace Pattern

theorem find_eq_none_of_needsOther {p : Pattern} {x : Char} (h : p.needsOther [x] = true)
    (n : Nat) : p.find (List.replicate n x) = none := by
  refine Option.eq_none_iff_forall_ne_some.mpr fun m hm => ?_
  obtain ⟨-, -, -, htake⟩ := find_spec hm
  obtain ⟨y, hy, hmem⟩ := exists_notMem_of_needsOther h htake
  have hx := List.eq_of_mem_replicate (List.mem_of_mem_drop (List.mem_of_mem_take hy))
  exact hmem (List.mem_singleton.mpr hx)

end Pattern

/-- A text of one word character has edges of words at its ends only. -/
theorem Cursor.eq_of_atEdge_replicate {x : Char} (hx : Text.isWordChar x = true) {n i : Nat}
    (hi : i ≤ n) (h : ((Cursor.ofText (List.replicate n x)).skip i).atEdge = true) :
    i = 0 ∨ i = n := by
  cases i with
  | zero => exact .inl rfl
  | succ i =>
    have hbefore : ((Cursor.ofText (List.replicate n x)).skip (i + 1)).before =
        (List.replicate n x)[i]? :=
      before_skip (c := Cursor.ofText (List.replicate n x)) (by
        simpa [Cursor.ofText] using Nat.lt_of_succ_le hi)
    have hrest := rest_skip (Cursor.ofText (List.replicate n x)) (i + 1)
    by_contra hlt
    have hn : n - (i + 1) = n - (i + 2) + 1 := by omega
    rw [List.getElem?_replicate_of_lt (by omega)] at hbefore
    rw [Cursor.ofText, List.drop_replicate, hn, List.replicate_succ] at hrest
    simp only [Cursor.ofText] at hbefore hrest h
    simp [atEdge, hbefore, hrest, hx] at h

namespace Phrase

open Pattern

/-- A metric with words is not found in a long text of one letter that is not in the plural. -/
theorem exists_find_metric_eq_none {ws : List String} (hws : AreWords ws) (hne : ws ≠ []) :
    ∃ N, ∀ n > N, (metric ws).find (List.replicate n 'x') = none := by
  obtain ⟨N, hN⟩ : ∃ N, (metric ws).most 'x' = some N := by
    have hchars (s : List Char) : ∃ n, (folded s).most 'x' = some n :=
      exists_most_all fun p hp => by
        obtain ⟨c, -, rfl⟩ := List.mem_map.mp hp
        exact ⟨_, rfl⟩
    have hgap : ∃ n, gap.most 'x' = some n := ⟨0, by decide +kernel⟩
    have hwords : ∃ n, (all ((ws.map word).intersperse gap)).most 'x' = some n :=
      exists_most_all fun p hp => by
        rcases mem_or_eq_of_mem_intersperse hp with hp | rfl
        · obtain ⟨w, -, rfl⟩ := List.mem_map.mp hp
          exact hchars _
        · exact hgap
    refine exists_most_all fun p hp => ?_
    simp only [List.mem_cons, List.not_mem_nil, or_false] at hp
    rcases hp with rfl | rfl | rfl | rfl
    · exact ⟨0, rfl⟩
    · exact hwords
    · exact ⟨0, by decide +kernel⟩
    · exact ⟨0, rfl⟩
  refine ⟨N, fun n hn => Option.eq_none_iff_forall_ne_some.mpr fun m hm => ?_⟩
  have hx : Text.isWordChar 'x' = true := by decide +kernel
  obtain ⟨hmatch, hle, hstop, -⟩ := find_spec hm
  rw [List.length_replicate] at hstop
  -- The match takes something, so it leads from the one end of the text to the other.
  obtain ⟨k, hk, htake, hedge, hedge', -⟩ := matchAt_metric hmatch
  obtain ⟨c, hc, -⟩ := exists_not_isBlank (needsOther_metric hws hne) htake
  rw [Cursor.rest_skip] at hk htake hc
  simp only [Cursor.ofText, List.drop_replicate, List.length_replicate, List.take_replicate]
    at hk htake hc
  rw [Cursor.skip_skip] at hedge'
  have hpos : min k (n - m.span.start) ≠ 0 := (List.mem_replicate.mp hc).1
  have hfirst := Cursor.eq_of_atEdge_replicate hx (by omega) hedge
  have hlast := Cursor.eq_of_atEdge_replicate hx (by omega) hedge'
  have hcount := count_le_of_most hN htake
  rw [List.count_replicate_self] at hcount
  omega

/-- The metric without words is found at the start of such a text, and takes nothing. -/
theorem find_metric_nil (n : Nat) :
    ∃ m, (metric []).find (List.replicate (n + 1) 'x') = some m ∧ m.span = ⟨0, 0⟩ := by
  have hmatch : (metric []).matchAt (Cursor.ofText (List.replicate (n + 1) 'x')) =
      some ⟨⟨0, 0⟩, [], Cursor.ofText (List.replicate (n + 1) 'x')⟩ := by
    rfl
  exact ⟨_, find_of_matchAt hmatch, rfl⟩

end Phrase

theorem blankOut_nil (cs : List Char) : blankOut [] cs = cs := by
  have hfrom (i : Nat) : blankOutFrom [] i cs = cs := by
    induction cs generalizing i with
    | nil => rfl
    | cons c cs ih => rw [blankOutFrom, ih]; rfl
  exact hfrom 0

namespace Reading

variable {r : Reading} {n : Nat}

/-- In a text of one letter nothing is found in front of the metrics. -/
theorem rest_groupings (h : r.rest = List.replicate n 'x') :
    r.comparisons.period.limit.1.filters.sort.groupings.rest = List.replicate n 'x' := by
  have hfind {p : Pattern} (hp : p.needsOther ['x'] = true) :
      p.find (List.replicate n 'x') = none :=
    Pattern.find_eq_none_of_needsOther hp n
  have hfindAll {p : Pattern} (hp : p.needsOther ['x'] = true) :
      p.findAll (List.replicate n 'x') = [] :=
    Pattern.findAll_eq_nil (hfind hp)
  have hcomparisons : r.comparisons.rest = List.replicate n 'x' := by
    have hnone : comparisonsIn (List.replicate n 'x') = [] := by
      rw [comparisonsIn, hfindAll (by decide +kernel), hfindAll (by decide +kernel)]
      rfl
    show blankOut ((comparisonsIn r.rest).map Prod.snd) r.rest = _
    rw [h, hnone]
    exact blankOut_nil _
  have hperiod : r.comparisons.period = r.comparisons := by
    rw [period, hcomparisons, hfind (by decide +kernel)]
  have hlimit : r.comparisons.limit.1 = r.comparisons := by
    rw [limit, hcomparisons, hfind (by decide +kernel)]
  have hfilters : r.comparisons.filters.rest = List.replicate n 'x' := by
    have hnone : Condition.list (List.replicate n 'x') = [] := by
      rw [Condition.list, hfindAll (by decide +kernel), List.flatMap_nil]
    show blankOut ((Condition.list r.comparisons.rest).map Condition.span) r.comparisons.rest = _
    rw [hcomparisons, hnone]
    exact blankOut_nil _
  have hsort : r.comparisons.filters.sort = r.comparisons.filters := by
    rw [sort, hfilters, hfind (by decide +kernel)]
  have hgroupings : r.comparisons.filters.groupings = r.comparisons.filters := by
    rw [groupings, Grouping.readAll, hfilters, hfind (by decide +kernel)]
  rw [hperiod, hlimit, hsort, hgroupings, hfilters]

end Reading

/-- If the metric without words is looked for, and no other one is there, reading does not end. -/
theorem MetricTerm.not_readsAll {ps : List Pattern} (hmem : Phrase.metric [] ∈ ps) {n : Nat}
    (hps : ∀ p ∈ ps, p = Phrase.metric [] ∨ p.find (List.replicate (n + 1) 'x') = none)
    {r : Reading} (hr : r.rest = List.replicate (n + 1) 'x') (t : Reading) : ¬ ReadsAll ps r t := by
  induction ps with
  | nil => cases hmem
  | cons p ps ih =>
    rintro ⟨s, hs, ht⟩
    by_cases hp : p = Phrase.metric []
    · obtain ⟨m, hm, hspan⟩ := Phrase.find_metric_nil n
      rw [← hr, ← hp] at hm
      exact not_loop_of_stuck hm (by rw [hspan]) hs
    · obtain ⟨hfind, hps⟩ := List.forall_mem_cons.mp hps
      have hturn : turn? p r = none := by rw [turn?, hr, hfind.resolve_left hp]; rfl
      obtain rfl := (Loop.iff_of_none hturn).mp hs
      exact ih ((List.mem_cons.mp hmem).resolve_left (Ne.symm hp)) hps ht

namespace Dictionary

variable {d : Dictionary}

/-- There is a text of one letter in which no metric with words is found. -/
theorem exists_letters (d : Dictionary) : ∃ n, ∀ p ∈ MetricTerm.patterns d,
    p = Phrase.metric [] ∨ p.find (List.replicate (n + 1) 'x') = none := by
  have hbound (ps : List Pattern) (hps : ∀ p ∈ ps, ∃ N, ∀ n > N, p = Phrase.metric [] ∨
      p.find (List.replicate n 'x') = none) : ∃ N, ∀ n > N, ∀ p ∈ ps, p = Phrase.metric [] ∨
      p.find (List.replicate n 'x') = none := by
    induction ps with
    | nil => exact ⟨0, by simp⟩
    | cons p ps ih =>
      obtain ⟨⟨M, hM⟩, hps⟩ := List.forall_mem_cons.mp hps
      obtain ⟨N, hN⟩ := ih hps
      exact ⟨max M N, fun n hn => List.forall_mem_cons.mpr ⟨hM n (by omega), hN n (by omega)⟩⟩
  obtain ⟨N, hN⟩ := hbound _ fun p hp => by
    obtain ⟨form, -, rfl⟩ := mem_patterns hp
    by_cases hwords : Text.words form = []
    · exact ⟨0, fun n _ => .inl (by rw [hwords])⟩
    · obtain ⟨N, hN⟩ := Phrase.exists_find_metric_eq_none (fun w hw => Text.mem_words hw) hwords
      exact ⟨N, fun n hn => .inr (hN n hn)⟩
  exact ⟨N, hN (N + 1) (Nat.lt_succ_self N)⟩

theorem metric_nil_mem_patterns (h : ¬ d.NoBlankPhrase) :
    Phrase.metric [] ∈ MetricTerm.patterns d := by
  rw [noBlankPhrase_iff] at h
  push Not at h
  obtain ⟨form, hform, hwords⟩ := h
  exact List.mem_map.mpr ⟨form, hform, by rw [hwords]⟩

theorem exists_not_returns (h : ¬ d.NoBlankPhrase) : ∃ question, ¬ d.Returns question := by
  obtain ⟨n, hn⟩ := exists_letters d
  refine ⟨String.ofList (List.replicate (n + 1) 'x'), ?_⟩
  rintro (hblank | ⟨request, hextracts⟩)
  · rw [Text.isBlankText, String.toList_ofList, List.replicate_succ, List.all_cons] at hblank
    have hx : Text.isBlank 'x' = false := by decide +kernel
    simp [hx] at hblank
  · obtain ⟨t, ht, -⟩ := extracts_iff.mp hextracts
    have hstart : (Reading.ofText (String.ofList (List.replicate (n + 1) 'x'))).rest =
        List.replicate (n + 1) 'x' := String.toList_ofList
    exact MetricTerm.not_readsAll (metric_nil_mem_patterns h) hn (Reading.rest_groupings hstart) t
      ((MetricTerm.readsAll_iff takesText_of_mem_patterns).mpr ht)

/-- A phrase made of blanks is looked for in vain. -/
theorem exists_not_consumes (h : ¬ d.NoBlankPhrase) : ∃ p ∈ MetricTerm.patterns d, ∃ r r',
    MetricTerm.turn? p r = some r' ∧ ¬ r.Consumes r' := by
  obtain ⟨m, hm, hspan⟩ := Phrase.find_metric_nil 0
  let r : Reading := ⟨List.replicate 1 'x', .ofText ""⟩
  obtain ⟨r', hturn, hrest⟩ := MetricTerm.turn?_of_stuck (r := r) hm (by rw [hspan])
  refine ⟨_, metric_nil_mem_patterns h, r, r', hturn, fun hconsumes => ?_⟩
  have hlt := hconsumes.size_lt
  rw [Reading.size, Reading.size, hrest] at hlt
  exact Nat.lt_irrefl _ hlt

/-- The reading of every question comes to an end, and every turn of looking for a metric takes text
out, if and only if no name or synonym of a metric is made of blanks. Every turn of looking for
groupings takes text out in any case; and of the conditions that follow one another, each one begins
where the last one ends, and takes text. -/
theorem reading_ends_iff (d : Dictionary) :
    ((∀ question, d.Returns question) ↔ d.NoBlankPhrase) ∧
      (∀ question, d.request question = .error .endless ↔ ¬ d.Returns question) ∧
      ((∀ p ∈ MetricTerm.patterns d, ∀ r r', MetricTerm.turn? p r = some r' → r.Consumes r') ↔
        d.NoBlankPhrase) ∧
      (∀ r r', Grouping.turn? r = some r' → r.Consumes r') ∧
      ∀ cs s s', Condition.Chained.turn? cs s = some s' → ∃ c, s'.found = s.found ++ [c] ∧
        c.span = ⟨s.stop, s'.stop⟩ ∧ s.stop < s'.stop ∧ s'.stop ≤ cs.length := by
  refine ⟨⟨fun h => ?_, NoBlankPhrase.returns⟩, fun question => request_eq_endless_iff,
    ⟨fun h => ?_, fun h p hp r r' => MetricTerm.consumes_of_turn? (h.needsOther p hp)⟩,
    fun r r' => Grouping.consumes_of_turn?, fun cs s s' h => ?_⟩
  · by_contra hblank
    obtain ⟨question, hquestion⟩ := exists_not_returns hblank
    exact hquestion (h question)
  · by_contra hblank
    obtain ⟨p, hp, r, r', hturn, hnot⟩ := exists_not_consumes hblank
    exact hnot (h p hp r r' hturn)
  · obtain ⟨c, hc, rfl⟩ := Option.map_eq_some_iff.mp h
    obtain ⟨hstart, hlt, hle⟩ := Condition.next?_spec hc
    exact ⟨c, rfl, by rw [← hstart], hlt, hle⟩

end Dictionary

namespace Wagers

/-- A dictionary with a metric whose name is a space. -/
def spaced : Dictionary :=
  { definition := { metrics := [{ name := " ", field := some ⟨"Bets", "Amount"⟩ }] }
    metrics := [⟨{ name := " ", field := some ⟨"Bets", "Amount"⟩ }, ⟨"", []⟩, none⟩]
    dimensions := []
    built := by decide +kernel }

/-- The dictionary is accepted, and the first question with a word is read for ever. -/
theorem reading_ends_iff_spaced :
    (∃ d, Dictionary.ofDefinition spaced.definition = .ok d) ∧
      spaced.request "deposits" = .error .endless ∧ ¬ spaced.Returns "deposits" ∧
      ¬ spaced.NoBlankPhrase := by
  have haccepted : ∃ d, Dictionary.ofDefinition spaced.definition = .ok d := by
    unfold Dictionary.ofDefinition
    split
    · exact ⟨_, rfl⟩
    · next e h =>
      rw [spaced.built] at h
      cases h
  have hendless : spaced.request "deposits" = .error .endless := by decide +kernel
  obtain ⟨hreturns, hrequest, -⟩ := Dictionary.reading_ends_iff spaced
  have hnot := (hrequest "deposits").mp hendless
  exact ⟨haccepted, hendless, hnot, fun h => hnot (hreturns.mpr h "deposits")⟩

end Wagers

end MetricLayer
