import MetricLayer.Proofs.Sql.LikePattern
import MetricLayer.Proofs.Sql.Tokens
import MetricLayer.Proofs.Translation.Values

/-!
# Filters that look for a piece of text

A filter that looks for a piece of text becomes a condition that its subject is like a pattern. The
statement binds the pattern to a placeholder and names the escape behind it. With these two a
database without classes finds just the texts in which the piece stands. One in whose patterns a
bracket opens a class does so for the pieces without an opening bracket, and for no others.

Results:
1. `Statement.ofPieces_infix`: what is part of the pieces is part of the statement.
2. `Report.translate_meets`: every such filter is in the statement, over a view too.
3. `pattern_filters_literal` and `pattern_filters_literal_iff`: which texts the filters keep.
-/

namespace MetricLayer

/-! ## Parts of a statement -/

variable {d : Dialect} {ps qs : List Piece}

/-- What is part of the pieces is part of the statement, and its values are bound to the
placeholders that are written for them. -/
theorem Statement.ofPieces_infix (h : ps <:+: qs) : ∃ n before after,
    (Statement.ofPieces d qs).sql =
        before ++ String.join (Piece.texts d (n + 1) ps) ++ after ∧
      ∀ i v, (Piece.values ps)[i]? = some v →
        (Statement.ofPieces d qs).parameters[n + i]? = some ⟨"p" ++ toString (n + i + 1), v⟩ := by
  obtain ⟨before, after, rfl⟩ := h
  -- The values before the part take the first placeholders.
  refine ⟨(Piece.values before).length, String.join (Piece.texts d 1 before),
    String.join (Piece.texts d (1 + (Piece.values (before ++ ps)).length) after), ?_,
    fun i v hv => ?_⟩
  · rw [Statement.ofPieces, Token.texts_append, Token.texts_append, String.join_append,
      String.join_append, Nat.add_comm 1 (Piece.values before).length]
  · have hparameter : (Piece.values (before ++ ps ++ after))[(Piece.values before).length + i]? =
        some v := by
      obtain ⟨hi, -⟩ := List.getElem?_eq_some_iff.mp hv
      rw [Piece.values_append, Piece.values_append, List.append_assoc,
        List.getElem?_append_right (Nat.le_add_right _ _), Nat.add_sub_cancel_left,
        List.getElem?_append_left hi, hv]
    rw [Statement.ofPieces, parametersFrom_eq, List.getElem?_mapIdx, hparameter, Option.map_some,
      Nat.add_comm 1]

theorem Piece.infix_join (separator : String) {part : List Piece} :
    ∀ {parts : List (List Piece)}, part ∈ parts → part <:+: Piece.join separator parts
  | [ps], h => by
    rw [List.mem_singleton.mp h]
    exact List.infix_refl _
  | ps :: qs :: rest, h => by
    rw [Piece.join]
    rcases List.mem_cons.mp h with rfl | h
    · exact (List.prefix_append _ _).isInfix
    · exact ((infix_join separator h).trans (List.suffix_cons _ _).isInfix).trans
        (List.suffix_append _ _).isInfix

theorem infix_clausePieces (keyword separator : String) {part : List Piece}
    {parts : List (List Piece)} (h : part ∈ parts) :
    part <:+: clausePieces keyword separator parts := by
  unfold clausePieces
  rw [if_neg (by simpa using List.ne_nil_of_mem h)]
  exact (Piece.infix_join separator h).trans (List.suffix_cons _ _).isInfix

/-- A condition is part of the query. -/
theorem Query.infix_pieces {q : Query} {e : Expr} (h : e ∈ q.filters ∨ e ∈ q.having) :
    e.pieces d <:+: q.pieces d := by
  have hmore {ps qs rest : List Piece} (h : ps <:+: qs) : ps <:+: qs ++ rest :=
    h.trans (List.prefix_append qs rest).isInfix
  unfold Query.pieces
  rcases h with h | h
  · have hclause :=
      infix_clausePieces "\nWHERE " " AND " (List.mem_map_of_mem (f := Expr.pieces d) h)
    exact hmore (hmore (hmore (hmore (hclause.trans (List.suffix_append _ _).isInfix))))
  · have hclause :=
      infix_clausePieces "\nHAVING " " AND " (List.mem_map_of_mem (f := Expr.pieces d) h)
    exact hmore (hmore (hclause.trans (List.suffix_append _ _).isInfix))

/-! ## Conditions on patterns -/

/-- The statement compares the subject with a pattern: the pattern is bound to a placeholder, and
the escape is named behind it. -/
def Statement.LooksFor (st : Statement) (d : Dialect) (subject : Expr) (pattern : String)
    (escape : Char) : Prop :=
  ∃ n before after,
    st.sql = before ++ (subject.text d ++ " LIKE " ++ d.placeholder (n + 1) ++
      " ESCAPE '" ++ String.ofList [escape] ++ "'") ++ after ∧
    st.parameters[n]? = some ⟨"p" ++ toString (n + 1), .text pattern⟩

/-- A condition that the subject is like a pattern, negated or not. -/
def ReportFilter.onPattern (f : ReportFilter) (subject : Expr) (pattern : String) : Expr :=
  let e := .like subject (.value (.text pattern))
  if f.negated then .not e else e

theorem ReportFilter.condition_pattern {f : ReportFilter} (hop : f.operator.isPattern = true)
    {subject e : Expr} (h : f.condition subject = .ok e) : ∃ v, f.values[0]? = some v ∧
      e = f.onPattern subject (LikePattern.ofText f.operator v.display) := by
  obtain ⟨plain, hplain, rfl⟩ := map_eq_ok h
  have hmatched : (f.valueAt 0).map (fun v => Expr.like subject
      (.value (.text (LikePattern.ofText f.operator v.display)))) = .ok plain := by
    rw [← hplain, plainCondition]
    cases hf : f.operator <;> simp only [hf] at hop ⊢ <;> first | rfl | cases hop
  obtain ⟨v, hv, rfl⟩ := map_eq_ok hmatched
  refine ⟨v, ?_, rfl⟩
  unfold valueAt at hv
  split at hv
  · next hvalue => rw [hvalue, Except.ok.inj hv]
  · cases hv

/-- A pattern is part of the condition, negated or not. -/
theorem ReportFilter.infix_onPattern (f : ReportFilter) (subject : Expr) (pattern : String) :
    (Expr.like subject (.value (.text pattern))).pieces d <:+:
      (f.onPattern subject pattern).pieces d := by
  unfold onPattern
  cases f.negated with
  | false => exact List.infix_refl _
  | true => exact (List.suffix_cons _ _).isInfix.trans (List.prefix_append _ _).isInfix

theorem ReportFilter.onPattern_mapFields (f : ReportFilter) (ρ : Field → Field) (subject : Expr)
    (pattern : String) :
    (f.onPattern subject pattern).mapFields ρ = f.onPattern (subject.mapFields ρ) pattern := by
  unfold onPattern
  cases f.negated <;> rfl

theorem Statement.looksFor_ofPieces {subject : Expr} {pattern : String}
    (hsubject : subject.values d = [])
    (h : (Expr.like subject (.value (.text pattern))).pieces d <:+: ps) :
    (Statement.ofPieces d ps).LooksFor d subject pattern Expr.likeEscape := by
  obtain ⟨n, before, after, hsql, hparameters⟩ := ofPieces_infix h
  have htext : Piece.texts d (n + 1) (subject.pieces d) = Piece.texts d 1 (subject.pieces d) := by
    rw [Piece.texts_eq d _ hsubject, Piece.texts_eq d _ hsubject]
  have hlength : (Piece.values (subject.pieces d)).length = 0 := by
    rw [← Expr.values, hsubject]
    rfl
  refine ⟨n, before, after, ?_, hparameters 0 (.text pattern) ?_⟩
  · rw [hsql, Expr.pieces, Token.texts_append, Token.texts_append, hlength, htext]
    rw [← String.toList_inj]
    simp [Expr.pieces, Piece.texts, Piece.text, Expr.text]
  · rw [Expr.pieces, Piece.values_append, Piece.values_append, ← Expr.values, hsubject]
    rfl

namespace Translation

/-- The translation meets the filter with a pattern for the subject. -/
structure LooksFor (t : Translation) (f : ReportFilter) (subject : Expr) (pattern : String)
    (escape : Char) : Prop where
  condition : f.onPattern subject pattern ∈
    if f.column?.isSome then t.query.filters else t.query.having
  statement : t.statement.LooksFor t.dialect subject pattern escape

variable {t : Translation} {f : ReportFilter} {subject : Expr} {pattern : String}

/-- A condition of the query is in the statement. -/
theorem Written.looksFor (h : t.Written) (hsubject : subject.values t.dialect = [])
    (hcondition : f.onPattern subject pattern ∈
      if f.column?.isSome then t.query.filters else t.query.having) :
    t.LooksFor f subject pattern Expr.likeEscape := by
  refine ⟨hcondition, ?_⟩
  have hmem : f.onPattern subject pattern ∈ t.query.filters ∨
      f.onPattern subject pattern ∈ t.query.having := by
    split at hcondition
    · exact .inl hcondition
    · exact .inr hcondition
  rw [Query.eq_ofPieces h.statement]
  exact Statement.looksFor_ofPieces hsubject
    ((f.infix_onPattern subject pattern).trans (Query.infix_pieces hmem))

end Translation

/-! ## Translated reports -/

namespace Report

variable {r : Report} {s : Schema} {settings : TranslationSettings} {t : Translation}
  {f : ReportFilter}

/-- What a filter looks at. -/
def subject (r : Report) (f : ReportFilter) : Except TranslationError Expr :=
  match f.target with
  | .column c => .ok (.field c)
  | .metric m => r.metricExpr m

theorem filterCondition_eq (r : Report) (f : ReportFilter) :
    r.filterCondition f = r.subject f >>= f.condition := by
  unfold filterCondition subject
  cases f.target <;> rfl

theorem subject_values {e : Expr} (h : r.subject f = .ok e) (d : Dialect) : e.values d = [] := by
  unfold subject at h
  split at h
  · cases h
    rfl
  · exact metricExpr_values h

/-- A filter on a piece of text is met with the pattern of its first value. -/
theorem translate_looksFor (h : r.translate s settings = .ok t) (hf : f ∈ r.filters)
    (hop : f.operator.isPattern = true) : ∃ v subject, f.values[0]? = some v ∧
      r.subject f = .ok subject ∧
      t.LooksFor f subject (LikePattern.ofText f.operator v.display) Expr.likeEscape := by
  obtain ⟨plan, ws, hquery, -⟩ := translate_queries h
  obtain ⟨metrics, rows, groups, orderBy, -, hconditions, -, hq⟩ := query_eq_ok hquery
  obtain ⟨hrows, hgroups⟩ := conditions_eq_ok.mp hconditions
  have hcondition : ∃ e, r.filterCondition f = .ok e ∧
      e ∈ if f.column?.isSome then t.query.filters else t.query.having := by
    rw [hq]
    cases hcolumn : f.column?.isSome with
    | true =>
      obtain ⟨e, he, hcondition⟩ := mapM_apply hrows f (List.mem_filter.mpr ⟨hf, hcolumn⟩)
      exact ⟨e, hcondition, List.mem_append_right _ he⟩
    | false =>
      have hnone : f.column?.isNone = true := by
        rwa [← Option.not_isSome, Bool.not_eq_true']
      obtain ⟨e, he, hcondition⟩ := mapM_apply hgroups f (List.mem_filter.mpr ⟨hf, hnone⟩)
      exact ⟨e, hcondition, he⟩
  obtain ⟨e, he, hmem⟩ := hcondition
  rw [filterCondition_eq] at he
  obtain ⟨subject, hsubject, he⟩ := bind_eq_ok he
  obtain ⟨v, hv, rfl⟩ := ReportFilter.condition_pattern hop he
  exact ⟨v, subject, hv, hsubject,
    (Translation.translate_written h).looksFor (subject_values hsubject _) hmem⟩

end Report

namespace Translation

variable {t : Translation} {s : Schema} {f : ReportFilter} {subject : Expr} {pattern : String}

theorem looksFor_moved (v : View) (h : f.onPattern subject pattern ∈
      if f.column?.isSome then t.query.filters else t.query.having) :
    f.onPattern (subject.mapFields v.fieldFor) pattern ∈
      if f.column?.isSome then (t.query.moved v).filters else (t.query.moved v).having := by
  rw [← ReportFilter.onPattern_mapFields]
  cases hcolumn : f.column?.isSome with
  | true =>
    rw [hcolumn] at h
    exact List.mem_map_of_mem h
  | false =>
    rw [hcolumn] at h
    exact List.mem_map_of_mem h

/-- An improved translation, over a view or not, keeps the pattern; only fields of the subject get
the names that they have in the view. -/
theorem optimize_looksFor {r : Report} {settings : TranslationSettings}
    (ht : r.translate s settings = .ok t) (hsubject : ∀ d, subject.values d = [])
    (h : t.LooksFor f subject pattern Expr.likeEscape) (o : OptimizerSettings) :
    ∃ ρ, (t.optimize s o).LooksFor f (subject.mapFields ρ) pattern Expr.likeEscape := by
  have hplaced := optimize_placed ht o
  have hvalues (ρ : Field → Field) : (subject.mapFields ρ).values (t.optimize s o).dialect = [] :=
    (Expr.values_mapFields _ ρ subject).trans (hsubject _)
  have hquery : (t.optimize s o).query = t.query ∨
      ∃ v, (t.optimize s o).query = t.query.moved v := by
    rw [(List.cons.inj hplaced.queries).1]
    split
    · unfold Schema.onViewFor
      split
      · next v _ => exact .inr ⟨v, rfl⟩
      · exact .inl rfl
    · exact .inl rfl
  rcases hquery with hsame | ⟨v, hmoved⟩
  · refine ⟨id, hplaced.written.looksFor (hvalues id) ?_⟩
    rw [Expr.mapFields_id, hsame]
    exact h.condition
  · refine ⟨v.fieldFor, hplaced.written.looksFor (hvalues _) ?_⟩
    rw [hmoved]
    exact looksFor_moved v h.condition

end Translation

/-! ## Which texts are kept -/

/-- The translation looks for a value of the filter with the pattern, and so does every improved
one; there fields of the subject have the names that they have in the view. -/
structure Translation.Meets (t : Translation) (s : Schema) (r : Report) (f : ReportFilter)
    (v : Literal) (pattern : String) (escape : Char) : Prop where
  value : f.values[0]? = some v
  condition : ∃ subject, r.subject f = .ok subject ∧ t.LooksFor f subject pattern escape ∧
    ∀ o, ∃ ρ, (t.optimize s o).LooksFor f (subject.mapFields ρ) pattern escape

theorem Report.translate_meets {s : Schema} {settings : TranslationSettings} {r : Report}
    {t : Translation} (ht : r.translate s settings = .ok t) {f : ReportFilter} (hf : f ∈ r.filters)
    (hop : f.operator.isPattern = true) :
    ∃ v, t.Meets s r f v (LikePattern.ofText f.operator v.display) Expr.likeEscape := by
  obtain ⟨v, subject, hv, hsubject, hlooks⟩ := translate_looksFor ht hf hop
  exact ⟨v, hv, subject, hsubject, hlooks,
    Translation.optimize_looksFor ht (subject_values hsubject) hlooks⟩

/-- With the standard patterns, a filter on a piece of text keeps the texts in which its operator
finds the piece, whatever characters stand in either: the statement binds a pattern, and names an
escape behind it, with which the pattern matches these texts and no others. -/
theorem pattern_filters_literal (s : Schema) (settings : TranslationSettings) (r : Report)
    (t : Translation) (ht : r.translate s settings = .ok t) (f : ReportFilter) (hf : f ∈ r.filters)
    (hop : f.operator.isPattern = true) :
    ∃ v pattern escape, t.Meets s r f v pattern escape ∧
      ∀ text, (LikePattern.Matching.mk escape none).accepts pattern text = true ↔
        f.operator.Finds v.display text := by
  obtain ⟨v, hmeets⟩ := Report.translate_meets ht hf hop
  exact ⟨v, _, _, hmeets, LikePattern.accepts_ofText rfl f.operator (.inl rfl)⟩

/-- Where a bracket opens a class, a filter on a piece of text keeps the texts in which its operator
finds the piece just if there is no opening bracket in the piece, whatever the members of classes
are. -/
theorem pattern_filters_literal_iff (s : Schema) (settings : TranslationSettings) (r : Report)
    (t : Translation) (ht : r.translate s settings = .ok t) (f : ReportFilter) (hf : f ∈ r.filters)
    (hop : f.operator.isPattern = true) :
    ∃ v pattern escape, t.Meets s r f v pattern escape ∧
      ∀ members, (∀ text,
        (LikePattern.Matching.mk escape (some members)).accepts pattern text = true ↔
          f.operator.Finds v.display text) ↔ '[' ∉ v.display.toList := by
  obtain ⟨v, hmeets⟩ := Report.translate_meets ht hf hop
  exact ⟨v, _, _, hmeets, fun _ => LikePattern.accepts_ofText_iff rfl rfl f.operator⟩

namespace Wagers

/-- The filter that a title contains a piece of text. -/
def titleContains (piece : String) : ReportFilter :=
  ⟨"title", .column ⟨"Games", "Title"⟩, .string, .contains, [.text piece], false⟩

/-- The stake of a day by title, for titles that contain a piece of text. -/
def containsReport (piece : String) : Report :=
  { lettersReport piece .first with filters := [titleContains piece] }

theorem titleContains_meets {t : Translation} {r : Report} {piece pattern : String} {v : Literal}
    {escape : Char} (h : t.Meets schema r (titleContains piece) v pattern escape) :
    v = .text piece :=
  (Option.some.inj h.value).symm

/-- A percent sign of the piece is no wildcard. -/
theorem pattern_filters_literal_percent : ∃ t pattern escape,
    (containsReport "10%").translate schema {} = .ok t ∧
      t.Meets schema (containsReport "10%") (titleContains "10%") (.text "10%") pattern escape ∧
      (LikePattern.Matching.mk escape none).accepts pattern "a 10% bonus" = true ∧
      (LikePattern.Matching.mk escape none).accepts pattern "a 100 bonus" = false := by
  obtain ⟨t, ht⟩ := eq_ok_of_isOk (x := (containsReport "10%").translate schema {})
    (by decide +kernel)
  obtain ⟨v, pattern, escape, hmeets, haccepts⟩ :=
    pattern_filters_literal schema {} (containsReport "10%") t ht (titleContains "10%")
      List.mem_cons_self rfl
  cases titleContains_meets hmeets
  refine ⟨t, pattern, escape, ht, hmeets, (haccepts _).mpr ?_, ?_⟩
  · exact (by decide : "10%".toList <:+: "a 10% bonus".toList)
  · rw [Bool.eq_false_iff, ne_eq, haccepts]
    exact (by decide : ¬"10%".toList <:+: "a 100 bonus".toList)

/-- A class in the piece stays a class in the pattern. -/
theorem pattern_filters_literal_iff_class : ∃ t pattern escape,
    (containsReport "[a]").translate schema { dialect := .tSql } = .ok t ∧
      t.Meets schema (containsReport "[a]") (titleContains "[a]") (.text "[a]") pattern escape ∧
      ¬∀ text, (LikePattern.Matching.mk escape (some fun content c => content.contains c)).accepts
        pattern text = true ↔ Operator.contains.Finds "[a]" text := by
  obtain ⟨t, ht⟩ := eq_ok_of_isOk
    (x := (containsReport "[a]").translate schema { dialect := .tSql }) (by decide +kernel)
  obtain ⟨v, pattern, escape, hmeets, haccepts⟩ :=
    pattern_filters_literal_iff schema { dialect := .tSql } (containsReport "[a]") t ht
      (titleContains "[a]") List.mem_cons_self rfl
  cases titleContains_meets hmeets
  exact ⟨t, pattern, escape, ht, hmeets, fun h => (haccepts _).mp h (by decide)⟩

end Wagers

end MetricLayer
