import MetricLayer.Proofs.Sql.Tokens
import MetricLayer.Proofs.Sql.Values

/-!
# Names and placeholders are read back

What a database reads in the text of a query: the names in quotes are those of the query, each
whole, and the placeholders are numbered from 1 in the order of the parameters. It holds for names with any
characters, quotes, placeholders and ends of lines among them.

Results:
1. `Expr.runs`: an expression adds its names and the placeholders of its values.
2. `Query.pieces_runs`: a query adds its names and the placeholders of its values.
3. `Query.render_reads_back`: the tokens of a written query.
-/

namespace MetricLayer

/-! ## Names and values of a query -/

/-- The names that a field is written with. -/
def Field.names (f : Field) : List String := [f.table, f.column]

/-- The names that a table is written with. -/
def TableRef.names (t : TableRef) : List String := t.schema.toList ++ [t.table]

/-- The names that an expression is written with, in order. -/
def Expr.names (e : Expr) : List String := e.fields.flatMap Field.names

/-- The names that a selected expression is written with, in order. -/
def SelectItem.names (s : SelectItem) : List String := s.expr.names ++ s.label.toList

/-- The names that a join is written with, in order. -/
def Join.names (j : Join) : List String :=
  j.table.names ++ j.on.flatMap fun (a, b) => a.names ++ b.names

namespace Expr

mutual

/-- The values, in order and with repetitions. -/
def literals : Expr → List Literal
  | field _ => []
  | value v => [v]
  | number _ => []
  | aggregate _ e => e.literals
  | binary a _ b => a.literals ++ b.literals
  | not e => e.literals
  | between e low high => e.literals ++ low.literals ++ high.literals
  | inList e items _ => e.literals ++ literalsOfList items
  | isNull e _ => e.literals
  | like e p => e.literals ++ p.literals
  | datePart _ e => e.literals
  | nullIfZero e => e.literals
  | nested e => e.literals

def literalsOfList : List Expr → List Literal
  | [] => []
  | e :: es => e.literals ++ literalsOfList es

end

end Expr

namespace Query

/-- The names that a query is written with, in order. -/
def names (q : Query) : List String :=
  q.select.flatMap SelectItem.names ++ q.source.names ++ q.joins.flatMap Join.names ++
    q.filters.flatMap Expr.names ++ q.groupBy.flatMap Expr.names ++ q.having.flatMap Expr.names ++
    q.orderBy.flatMap fun o => o.expr.names

/-- The values of a query, in order. -/
def literals (q : Query) : List Literal := q.exprs.flatMap Expr.literals

end Query

/-! ## Pieces -/

namespace Piece

theorem names_flatMap {α : Type} (f : α → List Piece) (xs : List α) :
    names (xs.flatMap f) = xs.flatMap fun x => names (f x) := by
  induction xs with
  | nil => rfl
  | cons x xs ih => rw [List.flatMap_cons, Token.names_append, ih, List.flatMap_cons]

theorem names_join (separator : String) : ∀ parts : List (List Piece),
    names (join separator parts) = parts.flatMap names
  | [] => rfl
  | [ps] => by simp [join]
  | ps :: qs :: rest => by
    have hrest := names_join separator (qs :: rest)
    rw [join, Token.names_append, List.flatMap_cons, ← hrest]
    rfl

end Piece

namespace Expr

mutual

theorem values_pieces (d : Dialect) : ∀ e : Expr, Piece.values (e.pieces d) = e.literals
  | field _ | value _ | number _ => rfl
  | aggregate _ e | not e | isNull e _ | datePart _ e | nullIfZero e | nested e => by
    simp [pieces, literals, Piece.values_append, values_pieces d e, Piece.values]
  | binary a _ b => by
    simp [pieces, literals, Piece.values_append, values_pieces d a, values_pieces d b,
      Piece.values]
  | between e low high => by
    simp [pieces, literals, Piece.values_append, values_pieces d e, values_pieces d low,
      values_pieces d high, Piece.values]
  | inList e items _ => by
    simp [pieces, literals, Piece.values_append, values_pieces d e, Piece.values_join,
      values_listPieces d items, Piece.values]
  | like e p => by
    simp [pieces, literals, Piece.values_append, values_pieces d e, values_pieces d p,
      Piece.values]

theorem values_listPieces (d : Dialect) : ∀ es : List Expr,
    (listPieces d es).flatMap Piece.values = literalsOfList es
  | [] => rfl
  | e :: es => by
    rw [listPieces, literalsOfList, List.flatMap_cons, values_pieces d e, values_listPieces d es]

end

mutual

theorem names_pieces (d : Dialect) : ∀ e : Expr, Piece.names (e.pieces d) = e.names
  | field _ | value _ | number _ => rfl
  | aggregate _ e | not e | isNull e _ | datePart _ e | nullIfZero e | nested e => by
    simp [pieces, names, fields, Token.names_append, names_pieces d e, Piece.names]
  | binary a _ b => by
    simp [pieces, names, fields, Token.names_append, names_pieces d a, names_pieces d b,
      Piece.names]
  | between e low high => by
    simp [pieces, names, fields, Token.names_append, names_pieces d e, names_pieces d low,
      names_pieces d high, Piece.names]
  | inList e items _ => by
    simp [pieces, names, fields, Token.names_append, names_pieces d e, Piece.names_join,
      names_listPieces d items, Piece.names]
  | like e p => by
    simp [pieces, names, fields, Token.names_append, names_pieces d e, names_pieces d p,
      Piece.names]

theorem names_listPieces (d : Dialect) : ∀ es : List Expr,
    (listPieces d es).flatMap Piece.names = (fieldsOfList es).flatMap Field.names
  | [] => rfl
  | e :: es => by
    rw [listPieces, fieldsOfList, List.flatMap_cons, List.flatMap_append, names_pieces d e,
      names_listPieces d es, names]

end

end Expr

/-! ## Expressions -/

open Token (Runs runs_word runs_name runs_value)

variable {d : Dialect}

/-- A field is two names with a point between them. -/
theorem Field.runs (f : Field) : Runs d .fresh f.pieces .settled := by
  have hpoint : Runs d .settled [.word "."] .fresh := runs_word (by cases d <;> rfl)
  exact (runs_name f.table).append (hpoint.append (runs_name f.column))

/-- A number of a formula is written in digits and letters, with a point or a sign. -/
theorem formulaNumber_plain (x : Float) :
    (formulaNumber x).toList.all (Token.isPlain d) = true := by
  have hpoint : Token.isPlain d '.' = true := by cases d <;> rfl
  have hsign : Token.isPlain d '-' = true := by cases d <;> rfl
  have hbody : (Decimal.running.positional (Decimal.shortest true x)).all (Token.isPlain d) =
      true := by
    obtain ⟨whole, rest, hcs, -, hwhole, hrest⟩ :=
      Decimal.running_positional (Decimal.shortest true x)
    rw [hcs, List.all_append, Bool.and_eq_true, List.all_eq_true, List.all_eq_true]
    refine ⟨fun c hc => Token.isPlain_of_isDigit (hwhole c hc), fun c hc => ?_⟩
    rcases hrest c hc with h | rfl
    · exact Token.isPlain_of_isDigit h
    · exact hpoint
  have hwrite : (Decimal.running.write x).toList.all (Token.isPlain d) = true := by
    simp only [Decimal.Layout.write, Decimal.running, if_true, String.toList_ofList]
    split
    · exact Bool.and_eq_true_iff.mpr ⟨hsign, hbody⟩
    · exact hbody
  unfold formulaNumber Decimal.display
  split
  · cases d <;> rfl
  split
  · cases d <;> rfl
  split
  · split <;> cases d <;> rfl
  · exact hwrite

/-- The sign behind a pattern is a text of its own. -/
theorem runs_escape : Runs d .settled
    [.word (" ESCAPE '" ++ String.ofList [Expr.likeEscape] ++ "'")] .settled := by
  intro n s hs
  have hspelling : Token.spelling d n
        [.word (" ESCAPE '" ++ String.ofList [Expr.likeEscape] ++ "'")] =
      " ESCAPE ".toList ++ ['\'', '!', '\''] :=
    (List.append_nil _).trans (show (" ESCAPE '" ++ String.ofList ['!'] ++ "'").toList = _ by decide)
  have hfits : Token.fits d .settled " ESCAPE ".toList .fresh = true := by cases d <;> rfl
  obtain ⟨hmode, hfinish⟩ := Token.scan_fits (a := .settled) (b := .fresh) hs hfits
  have hadds := hfinish ▸ Token.Adds.others " ESCAPE ".toList.reverse s.finish
  rw [hspelling, Token.scan_append]
  generalize Token.scan d s " ESCAPE ".toList = s' at hmode hadds
  obtain ⟨ts, mode⟩ := s'
  obtain rfl : mode = .between := hmode
  have hquoted : Token.scan d ⟨ts, .between⟩ ['\'', '!', '\''] = ⟨ts, .closed .text ['!']⟩ := by
    cases d <;> rfl
  rw [hquoted]
  refine ⟨trivial, hadds.trans (show Token.Adds [] [] _ _ from ⟨rfl, rfl, fun s hs => ?_⟩)⟩
  exact (List.mem_cons.mp hs).elim .inr .inl

theorem runs_joined {separator : String} (hseparator : Runs d .settled [.word separator] .fresh) :
    ∀ {parts : List (List Piece)}, (∀ ps ∈ parts, Runs d .fresh ps .settled) →
      Runs d .fresh (Piece.join separator parts) .settled
  | [], _ => Runs.nil.settled
  | [ps], h => h ps List.mem_cons_self
  | ps :: _ :: _, h =>
    have hrest := runs_joined hseparator fun x hx => h x (List.mem_cons_of_mem _ hx)
    (h ps List.mem_cons_self).append (hseparator.append hrest)

theorem Expr.runs_operator (op : BinaryOp) :
    Runs d .settled [.word (" " ++ op.sign ++ " ")] .fresh :=
  runs_word (by cases op <;> cases d <;> rfl)

theorem Expr.runs_function (a : Aggregation) : Runs d .fresh
    [.word (a.function ++ "(" ++ if a = .countDistinct then "DISTINCT " else "")] .fresh :=
  runs_word (by cases a <;> cases d <;> rfl)

/-- A word that closes what an expression is put into. -/
theorem runs_close : Runs d .settled [.word ")"] .settled := runs_word (by cases d <;> rfl)

/-- What separates the items of a list. -/
theorem runs_comma : Runs d .settled [.word ", "] .fresh := runs_word (by cases d <;> rfl)

theorem runs_and : Runs d .settled [.word " AND "] .fresh := runs_word (by cases d <;> rfl)

namespace Expr

/-- An expression between two words. -/
theorem runs_between {e : List Piece} {before after : String} (he : Runs d .fresh e .settled)
    (hbefore : Runs d .fresh [.word before] .fresh)
    (hafter : Runs d .settled [.word after] .settled) :
    Runs d .fresh (.word before :: e ++ [.word after]) .settled :=
  hbefore.append (he.append hafter)

mutual

/-- An expression adds its names and the placeholders of its values. -/
theorem runs : ∀ e : Expr, Runs d .fresh (e.pieces d) .settled
  | field f => f.runs
  | value v => runs_value v
  | number x => runs_word (Bool.and_eq_true_iff.mpr
      ⟨Bool.and_eq_true_iff.mpr ⟨formulaNumber_plain x, rfl⟩, rfl⟩)
  | aggregate a e => runs_between (runs e) (runs_function a) runs_close
  | binary a op b => (runs a).append ((runs_operator op).append (runs b))
  | not e => runs_between (runs e) (runs_word (by cases d <;> rfl)) runs_close
  | between e low high => by
    have hword : Runs d .settled [.word " BETWEEN "] .fresh := runs_word (by cases d <;> rfl)
    have hbounds := (runs low).append (runs_and.append (runs high))
    simpa [pieces] using (runs e).append (hword.append hbounds)
  | inList e items negated => by
    have hword : Runs d .settled [.word (if negated then " NOT IN (" else " IN (")] .fresh :=
      runs_word (by cases negated <;> cases d <;> rfl)
    have hitems := (runs_joined runs_comma (runs_items items)).append runs_close
    simpa [pieces] using (runs e).append (hword.append hitems)
  | isNull e negated =>
    (runs e).append (runs_word (by cases negated <;> cases d <;> rfl))
  | like e p => by
    have hword : Runs d .settled [.word " LIKE "] .fresh := runs_word (by cases d <;> rfl)
    simpa [pieces] using (runs e).append (hword.append ((runs p).append runs_escape))
  | datePart unit e => by
    have hbefore : Runs d .fresh [.word (d.datePartWords unit).1] .fresh :=
      runs_word (by cases unit <;> cases d <;> rfl)
    have hafter : Runs d .settled [.word (d.datePartWords unit).2] .settled :=
      runs_word (by cases unit <;> cases d <;> rfl)
    exact runs_between (runs e) hbefore hafter
  | nullIfZero e =>
    runs_between (runs e) (runs_word (by cases d <;> rfl)) (runs_word (by cases d <;> rfl))
  | nested e => runs_between (runs e) (runs_word (by cases d <;> rfl)) runs_close

theorem runs_items : ∀ es : List Expr, ∀ ps ∈ listPieces d es, Runs d .fresh ps .settled
  | [], _, h => nomatch h
  | e :: es, ps, h => (List.mem_cons.mp h).elim (fun h => h ▸ runs e) (runs_items es ps)

end

end Expr

/-! ## Clauses -/

theorem TableRef.runs (t : TableRef) : Runs d .fresh t.pieces .settled := by
  unfold TableRef.pieces
  have hpoint : Runs d .settled [.word "."] .fresh := runs_word (by cases d <;> rfl)
  cases t.schema with
  | none => exact runs_name t.table
  | some schema => exact (runs_name schema).append (hpoint.append (runs_name t.table))

theorem SelectItem.runs (s : SelectItem) : Runs d .fresh (s.pieces d) .settled := by
  unfold SelectItem.pieces
  have hword : Runs d .settled [.word " AS "] .fresh := runs_word (by cases d <;> rfl)
  cases s.label with
  | none => exact s.expr.runs.append Runs.nil
  | some label => exact s.expr.runs.append (hword.append (runs_name label))

theorem Join.runs (j : Join) : Runs d .settled j.pieces .settled := by
  have hjoin : Runs d .settled [.word "\nINNER JOIN "] .fresh := runs_word (by cases d <;> rfl)
  have hon : Runs d .settled [.word " ON "] .fresh := runs_word (by cases d <;> rfl)
  have hequal : Runs d .settled [.word " = "] .fresh := runs_word (by cases d <;> rfl)
  have hpair : ∀ ps ∈ j.on.map (fun (a, b) => a.pieces ++ .word " = " :: b.pieces),
      Runs d .fresh ps .settled := by
    intro ps hps
    obtain ⟨⟨a, b⟩, -, rfl⟩ := List.mem_map.mp hps
    exact a.runs.append (hequal.append b.runs)
  have hpairs := runs_joined runs_and hpair
  simpa [Join.pieces] using hjoin.append (j.table.runs.append (hon.append hpairs))

theorem runs_flatMap {α : Type} {f : α → List Piece} {xs : List α}
    (h : ∀ x ∈ xs, Runs d .settled (f x) .settled) : Runs d .settled (xs.flatMap f) .settled := by
  induction xs with
  | nil => exact Runs.nil
  | cons x xs ih =>
    exact (h x List.mem_cons_self).append (ih fun y hy => h y (List.mem_cons_of_mem _ hy))

theorem runs_clause (keyword : String) {separator : String} (parts : List (List Piece))
    (hkeyword : Runs d .settled [.word keyword] .fresh)
    (hseparator : Runs d .settled [.word separator] .fresh)
    (h : ∀ ps ∈ parts, Runs d .fresh ps .settled) :
    Runs d .settled (clausePieces keyword separator parts) .settled := by
  unfold clausePieces
  split
  · exact Runs.nil
  · exact hkeyword.append (runs_joined hseparator h)

theorem runs_number (n : Nat) : Runs d .fresh [.word (toString n)] .settled := by
  have hplain : (toString n).toList.all (Token.isPlain d) = true := by
    rw [Nat.toString_eq_repr, Nat.toList_repr, List.all_eq_true]
    exact fun c hc => Token.isPlain_of_isDigit
      (Nat.isDigit_of_mem_toDigits (by decide) (by decide) hc)
  exact runs_word (by rw [Token.fits, hplain]; rfl)

/-- The row limit at the end. -/
theorem runs_limit (limit : Option Nat) :
    Runs d .settled (limitPieces "\nLIMIT " "" limit) .settled := by
  cases limit with
  | none => exact Runs.nil
  | some n =>
    have hword : Runs d .settled [.word "\nLIMIT "] .fresh := runs_word (by cases d <;> rfl)
    have hend : Runs d .settled [.word ""] .settled := fun _ _ hs => ⟨hs, .others [] _⟩
    exact (hword.joinWord (runs_number n)).joinWord hend

/-- The row limit in front of what is selected. -/
theorem runs_top (limit : Option Nat) :
    Runs d .fresh (limitPieces "TOP " " " limit) .fresh := by
  cases limit with
  | none => exact Runs.nil
  | some n =>
    have hword : Runs d .fresh [.word "TOP "] .fresh := runs_word (by cases d <;> rfl)
    have hblank : Runs d .settled [.word " "] .fresh := runs_word (by cases d <;> rfl)
    exact (hword.joinWord (runs_number n)).joinWord hblank

/-! ## Queries -/

theorem tableRef_names (t : TableRef) : Piece.names t.pieces = t.names := by
  unfold TableRef.pieces TableRef.names
  cases t.schema <;> rfl

theorem selectItem_names (s : SelectItem) : Piece.names (s.pieces d) = s.names := by
  rw [SelectItem.pieces, SelectItem.names, Token.names_append, Expr.names_pieces]
  cases s.label <;> rfl

theorem join_names (j : Join) : Piece.names j.pieces = j.names := by
  have hpair : ∀ p : Field × Field,
      Piece.names (p.1.pieces ++ .word " = " :: p.2.pieces) = p.1.names ++ p.2.names := fun _ => rfl
  simp only [Join.pieces, Join.names, List.cons_append, Piece.names, Token.names_append,
    tableRef_names, Piece.names_join, List.flatMap_map, hpair]

theorem clausePieces_names (keyword separator : String) (parts : List (List Piece)) :
    Piece.names (clausePieces keyword separator parts) = parts.flatMap Piece.names := by
  unfold clausePieces
  split
  · next h => rw [List.isEmpty_iff.mp h]; rfl
  · exact Piece.names_join separator parts

theorem limitPieces_names (before after : String) (n : Option Nat) :
    Piece.names (limitPieces before after n) = [] := by
  cases n <;> rfl

namespace Query

variable (q : Query)

/-- A query adds its names and the placeholders of its values. -/
theorem pieces_runs : Runs d .fresh (q.pieces d) .settled := by
  have hselect : Runs d .fresh [.word "SELECT "] .fresh := runs_word (by cases d <;> rfl)
  have htop : Runs d .fresh (if d.usesTop then limitPieces "TOP " " " q.limit else []) .fresh := by
    split
    · exact runs_top q.limit
    · exact Runs.nil
  have hitems : Runs d .fresh (Piece.join ", " (q.select.map (·.pieces d))) .settled :=
    runs_joined runs_comma (by simp [SelectItem.runs])
  have hfrom : Runs d .settled [.word "\nFROM "] .fresh := runs_word (by cases d <;> rfl)
  have hjoins : Runs d .settled (q.joins.flatMap Join.pieces) .settled :=
    runs_flatMap fun j _ => j.runs
  have hexprs : ∀ es : List Expr, ∀ ps ∈ es.map (Expr.pieces d), Runs d .fresh ps .settled := by
    simp [Expr.runs]
  have hfilters := runs_clause "\nWHERE " _ (runs_word (by cases d <;> rfl)) runs_and
    (hexprs q.filters)
  have hgroupBy := runs_clause "\nGROUP BY " _ (runs_word (by cases d <;> rfl)) runs_comma
    (hexprs q.groupBy)
  have hhaving := runs_clause "\nHAVING " _ (runs_word (by cases d <;> rfl)) runs_and
    (hexprs q.having)
  have hitem : ∀ o : OrderItem, Runs d .fresh
      (o.expr.pieces d ++ [.word (if o.descending then " DESC" else " ASC")]) .settled := fun o =>
    o.expr.runs.append (runs_word (by cases o.descending <;> cases d <;> rfl))
  have horderBy := runs_clause (d := d) "\nORDER BY "
    (q.orderBy.map fun o =>
      o.expr.pieces d ++ [.word (if o.descending then " DESC" else " ASC")])
    (runs_word (by cases d <;> rfl)) runs_comma (by simp [hitem])
  have hlimit : Runs d .settled (if d.usesTop then [] else limitPieces "\nLIMIT " "" q.limit)
      .settled := by
    split
    · exact Runs.nil
    · exact runs_limit q.limit
  have htables := hfrom.append (q.source.runs.append hjoins)
  have hclauses := hfilters.append (hgroupBy.append (hhaving.append (horderBy.append hlimit)))
  have hall := hselect.append (htop.append (hitems.append (htables.append hclauses)))
  simpa [pieces] using hall

theorem values_pieces : Piece.values (q.pieces d) = q.literals := by
  rw [pieces_values, literals]
  exact List.flatMap_congr fun e _ => e.values_pieces d

theorem names_pieces : Piece.names (q.pieces d) = q.names := by
  have htop : Piece.names (if d.usesTop then limitPieces "TOP " " " q.limit else []) = [] := by
    split
    · exact limitPieces_names _ _ _
    · rfl
  have hend : Piece.names (if d.usesTop then [] else limitPieces "\nLIMIT " "" q.limit) = [] := by
    split
    · rfl
    · exact limitPieces_names _ _ _
  have horder : ∀ o : OrderItem, Piece.names
      (o.expr.pieces d ++ [.word (if o.descending then " DESC" else " ASC")]) = o.expr.names := by
    intro o
    rw [Token.names_append, Expr.names_pieces]
    exact List.append_nil _
  unfold pieces names
  simp only [List.cons_append, Piece.names, Token.names_append, Piece.names_join,
    Piece.names_flatMap, clausePieces_names, tableRef_names, htop, hend, List.flatMap_map, horder,
    selectItem_names, join_names, Expr.names_pieces, List.nil_append, List.append_nil,
    List.append_assoc]

/-- The tokens of a written query: its names, and the placeholders in the order of the parameters,
which are its values. A text is the escape sign of a pattern and nothing else. -/
theorem render_reads_back {st : Statement} (h : q.render d = .ok st) :
    ∃ ts, Token.ofText? d st.sql = some ts ∧ Token.names ts = q.names ∧
      Token.placeholders ts = List.range' 1 st.parameters.length ∧
      (∀ s ∈ Token.texts ts, s = String.ofList [Expr.likeEscape]) ∧
      st.parameters = q.literals.mapIdx fun i v => ⟨"p" ++ toString (i + 1), v⟩ := by
  have hparameters : st.parameters = q.literals.mapIdx fun i v => ⟨"p" ++ toString (i + 1), v⟩ := by
    rw [eq_ofPieces h, Statement.ofPieces, values_pieces, parametersFrom_eq]
    simp only [Nat.add_comm 1]
  have hlength : st.parameters.length = (Piece.values (q.pieces d)).length := by
    rw [hparameters, List.length_mapIdx, values_pieces]
  have hsql : st.sql.toList = Token.spelling d 1 (q.pieces d) := by
    rw [eq_ofPieces h, Statement.ofPieces, String.toList_join]
    rfl
  obtain ⟨hsettled, hadds⟩ := q.pieces_runs (d := d) 1 {} rfl
  rw [← hsql, names_pieces, ← hlength] at hadds
  rw [← hsql] at hsettled
  refine ⟨(Token.scan d {} st.sql.toList).finish.reverse, hsettled.ofText?, ?_, ?_, ?_, hparameters⟩
  · rw [Token.names_reverse, hadds.names]
    simp [Token.names, Token.Scan.finish]
  · rw [Token.placeholders_reverse, hadds.placeholders]
    simp [Token.placeholders, Token.Scan.finish]
  · intro s hs
    rw [Token.texts_reverse, List.mem_reverse] at hs
    exact (hadds.texts s hs).resolve_left (by simp [Token.texts, Token.Scan.finish])

/-- A query whose names have quotes, placeholders and the end of a line. -/
def hostile : Query :=
  { select := [{ expr := .field ⟨"a] OR [b", "@p1"⟩, label := some "x]\n'" }]
    source := { table := "a] OR [b", schema := some "$1" }
    filters := [.binary (.field ⟨"a] OR [b", "]]"⟩) .eq (.value (.text "'@p2")),
      .like (.field ⟨"a] OR [b", ""⟩) (.value (.text "%"))] }

/-- Its names are read back, and so are the two placeholders. -/
theorem hostile_reads_back : ∃ st, hostile.render .tSql = .ok st ∧
    ∃ ts, Token.ofText? .tSql st.sql = some ts ∧
      Token.names ts = ["a] OR [b", "@p1", "x]\n'", "$1", "a] OR [b", "a] OR [b", "]]",
        "a] OR [b", ""] ∧
      Token.placeholders ts = [1, 2] := by
  have h : hostile.render .tSql = .ok
      ⟨"SELECT [a]] OR [b].[@p1] AS [x]]\n']\nFROM [$1].[a]] OR [b]\nWHERE " ++
        "[a]] OR [b].[]]]]] = @p1 AND [a]] OR [b].[] LIKE @p2 ESCAPE '!'",
        [⟨"p1", .text "'@p2"⟩, ⟨"p2", .text "%"⟩]⟩ := by decide +kernel
  obtain ⟨ts, hts, hnames, hplaceholders, -⟩ := hostile.render_reads_back h
  exact ⟨_, h, ts, hts, hnames, hplaceholders⟩

end Query

end MetricLayer
