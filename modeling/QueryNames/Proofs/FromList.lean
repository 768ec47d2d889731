import QueryNames.Proofs.Written.SourceReading

/-!
`FROM` lists. Main statement: a list of sources is read as the trees that it is written for, and the
names of its tables are those written, from the left to the right.
-/

namespace QueryNames

namespace Grammar

/-- The outlines of the expressions in a part. -/
def Part.outlines : (part : Part) → part.Tree → List Outline
  | .at _, e | .argument _, e => [e.outline]
  | .list _, es => es.map Expression.outline
  | .branches, bs => WhenBranch.outlines bs
  | .operand, e? | .clause .., e? => Expression.outlines? e?

/-- A written expression holds no query, and so names no table. -/
theorem Written.noTables {n : Nat} {part : Part} {ts : List Token} {tree : part.Tree}
    (written : Written n part ts tree) :
    Mention.values .table ((part.outlines tree).flatMap Outline.mentions) = [] := by
  induction written with
  | leaf is =>
      unfold leaf? at is
      split at is <;> cases is <;> rfl
  | _ => simp_all [Part.outlines, Expression.outline, Column.outline, Node.mentions]

def SourcePart.outlines : (part : SourcePart) → part.Tree → List Outline
  | .table, tree | .source, tree => [tree.outline]
  | .list, trees => trees.map TableSource.outline

theorem WrittenSource.tables {n : Nat} {part : SourcePart} {ts : List Token} {tree : part.Tree}
    {names : List String} (written : WrittenSource n part ts tree names) :
    Mention.values .table ((part.outlines tree).flatMap Outline.mentions) = names := by
  induction written with
  | named => rfl
  | «variable» => rfl
  | joinedOn front joins back bound isOn asked left right =>
      have quiet := asked.noTables
      simp_all [SourcePart.outlines, TableSource.outline, Part.outlines, Node.mentions]
  | _ => simp_all [SourcePart.outlines, TableSource.outline, Query.outline, Node.mentions,
      CommonTable.outlines, SelectItem.outline]

end Grammar

open Grammar Grammar.Parser

/-- A list of sources up to the end of the input is read as its trees, and names the tables that are
written. The query around it takes a level of nesting. -/
theorem ParseResult.ofTokens_fromList {first star middle stop : Token} {ss : List Token}
    {sources : List TableSource} {names : List String} (isSelect : first.kind = .keyword .select)
    (isStar : star.kind = .star) (isFrom : middle.kind = .keyword .from)
    (written : WrittenSource (nestingLimit - 1) .list ss sources names)
    (isStop : stop.kind = .endOfInput) :
    ofTokens ⟨first :: star :: middle :: ss ++ [stop], []⟩ =
        ⟨⟨[{ location := first.location, items := [.wildcard star.location], sources }]⟩, []⟩ ∧
      (ofTokens ⟨first :: star :: middle :: ss ++ [stop], []⟩).script.tableNames = names := by
  have whole : star.endsBatch = false := endsBatch_of_kind isStar (by decide)
  have begins : Next ([star] ++ middle :: (ss ++ [])) EndsQuery BeginsItems := by
    show BeginsItems star
    simp [BeginsItems, endsClause, isStar]
  have inside : ∀ t ∈ [star] ++ (ss ++ []), t.endsBatch = false := by
    rw [List.append_nil, List.forall_mem_append]
    exact ⟨by simpa using whole, written.whole⟩
  have read : ofTokens ⟨first :: star :: middle :: ss ++ [stop], []⟩ =
      ⟨⟨[{ location := first.location, items := [.wildcard star.location], sources }]⟩, []⟩ := by
    have run := ofTokens_select isSelect begins (commaList_one (selectItem_star isStar)) isFrom
      written.yields .absent inside isStop
    rwa [List.append_nil] at run
  refine ⟨read, ?_⟩
  rw [read, Script.tableNames_eq, Script.outline]
  simpa [Query.outline, CommonTable.outlines, SelectItem.outline, Node.mentions,
    SourcePart.outlines] using written.tables

/-- Sources of most sorts, in a text. -/
theorem ParseResult.ofText_mixed_sources :
    let text := "SELECT * FROM [s].[a] AS [x] LEFT JOIN ([b] CROSS JOIN @t) ON [i] = [j], " ++
      "(SELECT * FROM [c]) AS [d]"
    let place (offset : Nat) : Location := ⟨offset, 1, offset + 1⟩
    let name (value : String) (offset : Nat) : Identifier := ⟨value, some .bracket, place offset⟩
    let column (value : String) (offset : Nat) : Expression :=
      .column ⟨some ⟨name value offset, []⟩, .regular, place offset⟩
    let query (offset : Nat) (sources : List TableSource) : Query :=
      { location := place offset, items := [.wildcard (place (offset + 7))], sources }
    ofText text = ⟨⟨[query 0
        [.joined (.named ⟨⟨name "s" 14, [name "a" 18]⟩, some (name "x" 25)⟩)
            (.parenthesized (.joined (.named ⟨⟨name "b" 40, []⟩, none⟩) (.variable "@t" none)
              .cross none)) .leftOuter (some (.binary .eq (column "i" 62) (column "j" 68))),
          .derived (query 74 [.named ⟨⟨name "c" 88, []⟩, none⟩]) (some (name "d" 96)) []]]⟩, []⟩ ∧
      tableNames text = ["a", "b", "c"] := by
  intro text place name column query
  let token (kind : TokenKind) (text : String) (offset : Nat) : Token := ⟨kind, text, place offset⟩
  let word (k : Keyword) (offset : Nat) : Token := token (.keyword k) k.spelling offset
  let delimited (value : String) (offset : Nat) : Token :=
    token .identifier ("[" ++ value ++ "]") offset
  let joined : List Token :=
    ([delimited "s" 14, token (.punctuation .period) "." 17, delimited "a" 18] ++
      [word .as 22, delimited "x" 25]) ++ ([word .left 29, word .join 34] ++
        (token (.punctuation .leftParen) "(" 39 ::
            ([delimited "b" 40] ++ ([word .cross 44, word .join 50] ++ [token .variable "@t" 55]) ++
              [token (.punctuation .rightParen) ")" 57]) ++
          word .on 59 ::
            ([delimited "i" 62] ++ token (.operator .eq) "=" 66 :: [delimited "j" 68])))
  let derived : List Token :=
    token (.punctuation .leftParen) "(" 73 :: word .select 74 :: token .star "*" 81 ::
      word .from 83 :: [delimited "c" 88] ++ token (.punctuation .rightParen) ")" 91 ::
        [word .as 93, delimited "d" 96]
  have stream : (TokenStream.ofText text).tokens =
        word .select 0 :: token .star "*" 7 :: word .from 9 ::
          (joined ++ token (.punctuation .comma) "," 71 :: derived) ++
        [token .endOfInput "" 99] ∧
      (TokenStream.ofText text).errors = [] := by
    decide +kernel
  have texts : ∀ value ∈ ["s", "a", "x", "b", "i", "j", "c", "d"],
      nameValue ("[" ++ value ++ "]") = value ∧
        Quote.ofName? ("[" ++ value ++ "]").toList = some .bracket := by
    decide +kernel
  have named (value : String) (offset : Nat)
      (known : value ∈ ["s", "a", "x", "b", "i", "j", "c", "d"]) :
      (delimited value offset).isDelimited = true ∧
        Identifier.ofToken (delimited value offset) = name value offset := by
    obtain ⟨same, quoted⟩ := texts value known
    constructor
    · show (_ && (Quote.ofName? _).isSome) = true
      rw [quoted]
      rfl
    · show Identifier.mk _ _ _ = _
      rw [same, quoted]
  obtain ⟨s, sName⟩ := named "s" 14 (by decide)
  obtain ⟨a, aName⟩ := named "a" 18 (by decide)
  obtain ⟨x, xName⟩ := named "x" 25 (by decide)
  obtain ⟨b, bName⟩ := named "b" 40 (by decide)
  obtain ⟨i, iName⟩ := named "i" 62 (by decide)
  obtain ⟨j, jName⟩ := named "j" 68 (by decide)
  obtain ⟨c, cName⟩ := named "c" 88 (by decide)
  obtain ⟨d, dName⟩ := named "d" 96 (by decide)
  have condition : Written 38 (.at .disjunction)
      ([delimited "i" 62] ++ token (.operator .eq) "=" 66 :: [delimited "j" 68])
      (.binary .eq (column "i" 62) (column "j" 68)) := by
    have left : Written 38 (.at .primary) [delimited "i" 62] _ := .column (.parts i .nil)
    have right : Written 38 (.at .primary) [delimited "j" 68] _ := .column (.parts j .nil)
    rw [iName] at left
    rw [jName] at right
    exact Written.loosen (.comparison rfl (left.loosen .additive (by decide))
      (right.loosen .additive (by decide))) .disjunction (by decide)
  have inside : WrittenSource 38 .source
      ([delimited "b" 40] ++ ([word .cross 44, word .join 50] ++ [token .variable "@t" 55]))
      (.joined (.named ⟨⟨name "b" 40, []⟩, none⟩) (.variable "@t" none) .cross none)
      (["b"] ++ []) := by
    have left : WrittenSource 38 .table [delimited "b" 40] _ _ := .named (.parts b .nil) .absent
    rw [bName] at left
    exact .joined (.single left) (.cross rfl rfl) (.variable rfl .absent) rfl
  have chain : WrittenSource 39 .source joined
      (.joined (.named ⟨⟨name "s" 14, [name "a" 18]⟩, some (name "x" 25)⟩)
        (.parenthesized (.joined (.named ⟨⟨name "b" 40, []⟩, none⟩) (.variable "@t" none) .cross
          none)) .leftOuter (some (.binary .eq (column "i" 62) (column "j" 68))))
      (["a"] ++ (["b"] ++ [])) := by
    have left : WrittenSource 39 .table ([delimited "s" 14, token (.punctuation .period) "." 17,
        delimited "a" 18] ++ [word .as 22, delimited "x" 25]) _ _ :=
      .named (.parts s (.part rfl a .nil)) (.behindAs rfl x)
    rw [sName, aName, xName] at left
    exact .joinedOn (.single left) (.outer rfl .absent rfl) (.parenthesized rfl inside rfl) rfl rfl
      condition
  have single : WrittenSource 39 .table derived
      (.derived (query 74 [.named ⟨⟨name "c" 88, []⟩, none⟩]) (some (name "d" 96)) []) ["c"] := by
    have table : WrittenSource 38 .table [delimited "c" 88] _ _ := .named (.parts c .nil) .absent
    have label : WrittenLabel [word .as 93, delimited "d" 96] _ := .behindAs rfl d
    rw [cName] at table
    rw [dName] at label
    exact .derived rfl rfl rfl rfl (.last (.single table)) rfl label
  have read := @ofTokens_fromList (word .select 0) (token .star "*" 7) (word .from 9)
    (token .endOfInput "" 99) (joined ++ token (.punctuation .comma) "," 71 :: derived) _ _
    rfl rfl rfl (.item chain rfl (.last (.single single))) rfl
  have same := congr (congrArg TokenStream.mk stream.1) stream.2
  rw [← same] at read
  exact read

end QueryNames
