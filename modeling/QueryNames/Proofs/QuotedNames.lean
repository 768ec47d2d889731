import QueryNames.Proofs.Text.QuotedName
import QueryNames.Proofs.Written.SourceReading

/-!
Names in quotes. Main statement: every dotted name can be asked for, and is extracted as it is,
whatever characters its parts hold.
-/

namespace QueryNames

open Grammar Grammar.Parser

theorem QualifiedName.value_base (name : QualifiedName) :
    name.base.value = name.values.getLast (List.cons_ne_nil _ _) := by
  rw [base_eq_getLast]
  exact (@List.getLast_map _ _ Identifier.value name.parts (List.cons_ne_nil _ _)).symm

namespace Grammar

/-- No star stands behind a name that is written to its end. -/
theorem startsWithQualifiedStar_of_written {t u : Token} {ts us : List Token}
    {others : List Identifier} (written : WrittenParts ts others)
    (noPeriod : u.kind ≠ .punctuation .period) :
    startsWithQualifiedStar (t :: ts ++ u :: us) = false := by
  induction written generalizing t with
  | nil =>
      cases us with
      | nil => rfl
      | cons v us => simp [startsWithQualifiedStar, Token.isPunctuation, noPeriod]
  | part isPeriod delimited rest ih =>
      simp only [List.cons_append] at ih ⊢
      simp [startsWithQualifiedStar, Token.kind_of_isDelimited delimited, ih]
  | @omitted period next ts others isPeriod rest ih =>
      have noName := @startsWithQualifiedStar_of_kind (ts ++ u :: us) next
        (by simp [rest.period])
      simp only [List.cons_append]
      simp [startsWithQualifiedStar, rest.period, noName]

namespace Parser

/-- A name by itself is an item. -/
theorem selectItem_name {ts : List Token} {name : QualifiedName} (written : WrittenName ts name) :
    Yields (selectItem (level (nestingLimit - 1))) ts
      (.expression (.column ⟨some name, .regular, name.location⟩) none) (endsItem ·) := by
  have column : Written (nestingLimit - 2) (.at .disjunction) ts
      (.column ⟨some name, .regular, name.location⟩) :=
    Written.loosen (.column written) .disjunction (by decide)
  obtain ⟨delimited, rest⟩ := written
  apply selectItem_expression
  · show _ ≠ _
    rw [Token.kind_of_isDelimited delimited]
    nofun
  · intro s ends
    rw [State.tokens_prepend]
    exact startsWithQualifiedStar_of_written rest (kind_ne_of_endsItem ends rfl)
  · intro s ends
    rw [State.peek_prepend_cons]
    cases rest with
    | nil => exact kind_ne_of_endsItem ends rfl
    | part isPeriod | omitted isPeriod =>
        rw [State.current_prepend_cons, isPeriod]
        nofun
  · exact column.expression

end Parser

end Grammar

/-- One query for one column of one table. -/
def Script.ofNames (place : Location) (column table : QualifiedName) : Script :=
  ⟨[{ location := place
      items := [.expression (.column ⟨some column, .regular, column.location⟩) none]
      sources := [.named ⟨table, none⟩] }]⟩

namespace Script

variable {place : Location} {column table : QualifiedName}

theorem mentions_ofNames : (ofNames place column table).outline.mentions =
    column.parts.map (⟨.field, ·⟩) ++ [⟨.table, table.base⟩] := by
  simp [ofNames, outline, Query.outline, CommonTable.outlines, SelectItem.outline,
    TableSource.outline, Expression.outline, Column.outline, NamedTable.outline, Node.mentions]

theorem tableNames_ofNames : (ofNames place column table).tableNames = [table.base.value] := by
  rw [tableNames_eq, mentions_ofNames, Mention.values_append, Mention.values_tables_fields]
  rfl

theorem fieldNames_ofNames : (ofNames place column table).fieldNames = column.values := by
  rw [fieldNames_eq, mentions_ofNames, Mention.values_append, Mention.values_map]
  exact List.append_nil _

end Script

theorem ParseResult.ofTokens_name {first middle stop : Token} {is ss : List Token}
    {name name' : QualifiedName}
    (isSelect : first.kind = .keyword .select) (item : WrittenName is name)
    (isFrom : middle.kind = .keyword .from) (source : WrittenName ss name')
    (isStop : stop.kind = .endOfInput) :
    ofTokens ⟨first :: (is ++ middle :: ss) ++ [stop], []⟩ =
      ⟨.ofNames first.location name name', []⟩ := by
  have table : WrittenSource (nestingLimit - 1) .list ss [.named ⟨name', none⟩]
      [name'.base.value] := by
    have written : WrittenSource (nestingLimit - 1) .table (ss ++ []) _ _ := .named source .absent
    rw [List.append_nil] at written
    exact .last (.single written)
  have begins : Next (is ++ middle :: (ss ++ [])) EndsQuery BeginsItems := by
    obtain ⟨delimited, rest⟩ := item
    show BeginsItems _
    simp [BeginsItems, endsClause, Token.kind_of_isDelimited delimited]
  have inside : ∀ t ∈ is ++ (ss ++ []), t.endsBatch = false := by
    rw [List.append_nil]
    exact List.forall_mem_append.2 ⟨item.whole, table.whole⟩
  have read := ofTokens_select isSelect begins (commaList_one (selectItem_name item)) isFrom
    table.yields .absent inside isStop
  rwa [List.append_nil] at read

namespace QuotedName

variable (name : QuotedName)

/-- The name is asked for, of a table of that name. -/
def query : String := "SELECT " ++ String.ofList name.text ++ " FROM " ++ String.ofList name.text

theorem lexes_query : Piece.Lexes name.query.toList (fun rest => rest = []) fun ts =>
    ∃ first is middle ss n n', ts = first :: (is ++ middle :: ss) ∧
      first.kind = .keyword .select ∧ WrittenName is n ∧ n.values = name.values ∧
      middle.kind = .keyword .from ∧ WrittenName ss n' ∧ n'.values = name.values := by
  have query : name.query.toList = ['S', 'E', 'L', 'E', 'C', 'T'] ++ ([' '] ++ (name.text ++
      ([' '] ++ (['F', 'R', 'O', 'M'] ++ ([' '] ++ name.text))))) := by
    simp [QuotedName.query]
  have select := @Piece.lexes_keyword .select 'S' ['E', 'L', 'E', 'C', 'T'] (fun _ _ => rfl)
    (by decide +kernel) (by decide +kernel) rfl
  have «from» := @Piece.lexes_keyword .from 'F' ['R', 'O', 'M'] (fun _ _ => rfl)
    (by decide +kernel) (by decide +kernel) rfl
  have column := Piece.lexes_quotedName name
  have table := @Piece.Lexes.before name.text _ (fun rest => rest = []) _ column
    (by rintro _ rfl q ⟨⟩)
  have spacedTable := Piece.lexes_blank.append table fun _ _ => Piece.beginsInk_quote _ _
  have fromTable := «from».append spacedTable fun _ _ => Piece.endsWord_blank _
  have spacedFrom := Piece.lexes_blank.append fromTable fun _ _ => ⟨_, _, rfl, rfl⟩
  have columnFrom := column.append spacedFrom fun _ _ => Piece.endsQuoted_blank _
  have spacedColumn := Piece.lexes_blank.append columnFrom fun _ _ => Piece.beginsInk_quote _ _
  have all := select.append spacedColumn fun _ _ => Piece.endsWord_blank _
  rw [query]
  apply all.imp
  rintro _ ⟨_, _, rfl, ⟨first, rfl, isSelect⟩, _, _, rfl, rfl, is, _, rfl, ⟨n, item, values⟩,
    _, _, rfl, rfl, _, _, rfl, ⟨middle, rfl, isFrom⟩, _, ss, rfl, rfl, n', source, values'⟩
  exact ⟨first, is, middle, ss, n, n', rfl, isSelect, item, values, isFrom, source, values'⟩

end QuotedName

theorem names_of_quotedName (name : QuotedName) :
    (ParseResult.ofText name.query).errors = [] ∧
      tableNames name.query = [name.values.getLast (List.cons_ne_nil _ _)] ∧
      fieldNames name.query = name.values := by
  obtain ⟨_, stop, stream, isStop, first, is, middle, ss, n, n', rfl, isSelect, item, values,
    isFrom, source, values'⟩ := name.lexes_query.ofText rfl
  have read : ParseResult.ofText name.query = ⟨.ofNames first.location n n', []⟩ := by
    rw [ParseResult.ofText, stream]
    exact ParseResult.ofTokens_name isSelect item isFrom source isStop
  have base : n'.base.value = name.values.getLast (List.cons_ne_nil _ _) := by
    simp only [n'.value_base, values']
  refine ⟨by rw [read], ?_, ?_⟩
  · rw [tableNames, read, Script.tableNames_ofNames, base]
  · rw [fieldNames, read, Script.fieldNames_ofNames, values]

end QueryNames
