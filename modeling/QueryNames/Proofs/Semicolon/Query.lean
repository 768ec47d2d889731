import QueryNames.Proofs.Grammar.Absent
import QueryNames.Proofs.Semicolon.Expression

/-!
Table sources and queries are read alike before the end of input and before a semicolon. Main
statement: so is what any level reads.
-/

namespace QueryNames.Grammar

open Grammar.Parser

set_option synthInstance.maxSize 512

variable {edge : Edge}

instance : Refuses isJoinHint := ⟨fun _ => rfl, fun _ => rfl⟩

namespace Parser

/-! A star behind names. -/

theorem starPart_name {name period : Token} (isName : name.kind = .identifier)
    (isPeriod : period.kind = .punctuation .period) (c : Cursor) :
    starPart ⟨⟨name, (Cursor.mk period c.tokens).tokens⟩, []⟩ =
      (some (some (.ofToken name), true), ⟨c, []⟩) := by
  have named : identifier ⟨⟨name, (Cursor.mk period c.tokens).tokens⟩, []⟩ =
      (some (.ofToken name), ⟨⟨period, c.tokens⟩, []⟩) := by
    rw [identifier_apply, if_pos isName, Cursor.advance_step (by rw [isName]; nofun)]
  rw [starPart, bind_apply, attempt, named]
  dsimp only
  rw [bind_apply, advance, move, Cursor.advance_step (by rw [isPeriod]; nofun)]
  rfl

theorem starPart_star {c : Cursor} (star : c.current.kind = .star) :
    starPart ⟨c, []⟩ = (some (none, false), ⟨c, []⟩) := by
  have unnamed : identifier ⟨c, []⟩ = (none, ⟨c, []⟩) := by
    rw [identifier_apply, if_neg (by rw [star]; nofun)]
  rw [starPart, bind_apply, attempt, unnamed]
  rfl

theorem qualifiedStar_advances : Advances qualifiedStar := by
  have part : Advances starPart := by
    apply identifier_advances.attempt.bind
    intro part?
    cases part? with
    | none => exact .pure
    | some part => exact .bind (.move Cursor.advance_suffix) fun _ => .pure
  rw [qualifiedStar_eq]
  apply Advances.look.bind
  intro location
  apply (Advances.collect part).bind
  intro parts
  exact .bind (.move Cursor.advance_suffix) fun _ => .pure

namespace Follows

theorem collect_starPart {c d : Cursor} (abreast : Abreast edge c d)
    (ahead : c.current.kind = .star ∨ startsWithQualifiedStar c.tokens = true) :
    ∃ parts c' d', collect starPart ⟨c, []⟩ = (some parts, ⟨c', []⟩) ∧
      collect starPart ⟨d, []⟩ = (some parts, ⟨d', []⟩) ∧ Abreast edge c' d' ∧ Ahead 1 c' := by
  induction length : c.remaining using Nat.strongRecOn generalizing c d with
  | ind n ih =>
      rcases abreast.view with ⟨rfl, rfl⟩ | ⟨name, c₁, d₁, goesOn, rfl, rfl, rest⟩
      · rcases ahead with star | named
        · cases star
        · cases named
      · rcases ahead with star | named
        · have stops (e : Cursor) (same : e.current = name) :
              collect starPart ⟨e, []⟩ = (some [], ⟨e, []⟩) :=
            collect_stop (starPart_star (same ▸ star))
          exact ⟨[], _, _, stops _ rfl, stops _ rfl, abreast, .step goesOn (.zero c₁)⟩
        · rcases rest.view with ⟨rfl, rfl⟩ | ⟨period, c₂, d₂, goesOn', rfl, rfl, rest'⟩
          · cases named
          · simp only [Cursor.tokens, startsWithQualifiedStar, Bool.and_eq_true, Bool.or_eq_true,
              beq_iff_eq, Token.isPunctuation] at named
            obtain ⟨⟨isName, isPeriod⟩, further⟩ := named
            have fewer (e : Cursor) : (State.mk e []).remaining <
                (State.mk ⟨name, (Cursor.mk period e.tokens).tokens⟩ []).remaining := by
              simp only [State.remaining, Cursor.remaining, Cursor.tokens, List.length_cons]
              omega
            obtain ⟨parts, c', d', run, run', found⟩ := ih _ (length ▸ fewer c₂) rest' further rfl
            exact ⟨_, c', d', collect_more (starPart_name isName isPeriod c₂) (fewer c₂) run,
              collect_more (starPart_name isName isPeriod d₂) (fewer d₂) run', found⟩

theorem qualifiedStar_alike {c d : Cursor} (abreast : Abreast edge c d)
    (starred : startsWithQualifiedStar c.tokens = true) : Alike edge Parser.qualifiedStar c d := by
  obtain ⟨parts, c', d', run, run', abreast', ahead⟩ := collect_starPart abreast (.inr starred)
  rcases abreast.view with ⟨rfl, rfl⟩ | ⟨name, c₁, d₁, goesOn, rfl, rfl, rest⟩
  · cases starred
  · have found {e e' : Cursor} (run : collect starPart ⟨e, []⟩ = (some parts, ⟨e', []⟩)) :
        Parser.qualifiedStar ⟨e, []⟩ =
          (some (.qualifiedWildcard ⟨QualifiedName.ofList? parts, .wildcard, e.current.location⟩),
            ⟨e'.advance, []⟩) := by
      rw [qualifiedStar_eq, Parser.place, bind_apply, look]
      dsimp only
      rw [bind_apply, run]
      rfl
    exact ⟨_, _, _, found run, found run', abreast'.advance ahead⟩

/-- Where a star follows behind names, none of them is the last token. -/
instance qualifiedStar (p : Parser SelectItem) [rest : Follows edge n p] :
    Follows edge n (look (fun c => startsWithQualifiedStar c.tokens) >>= fun starred =>
      if starred = true then Parser.qualifiedStar else p) where
  advances := by
    apply Advances.look.bind
    intro starred
    cases starred with
    | true => exact qualifiedStar_advances
    | false => exact rest.advances
  runs {c d} abreast ahead := by
    have same := abreast.startsWithQualifiedStar
    simp only [Alike, bind_apply, look, ← same]
    cases starred : startsWithQualifiedStar c.tokens with
    | true => exact .inr (qualifiedStar_alike abreast starred)
    | false => exact rest.runs abreast ahead

instance : Follows edge 0 explicitLabel := by
  apply next
  intro label?
  cases label? <;> infer_instance

instance : Follows edge 0 tableLabel := by
  rw [tableLabel_eq]
  infer_instance

instance : Follows edge 0 skipHints := by
  apply atEdge (pure ())
  · rfl
  · rfl
  · apply peek
    · rfl
    · infer_instance
    · infer_instance

theorem isWord_of_joinKind? {t following : Token} {kind : JoinKind}
    (found : joinKind? t following = some kind)
    (applies : (kind == .crossApply || kind == .outerApply) = true) :
    following.isWord "APPLY" = true := by
  cases known : following.isWord "APPLY" with
  | true => rfl
  | false =>
      simp only [joinKind?, known, Bool.false_eq_true, if_false] at found
      split at found <;> cases found <;> cases applies

instance : Follows edge 0 joinOperator? := by
  apply atEdge (pure none)
  · rfl
  · rfl
  · apply token
    intro t
    apply peek
    · rfl
    · cases found : joinKind? t edge.left.current with
      | none => infer_instance
      | some kind =>
          have noApply : (kind == .crossApply || kind == .outerApply) = false := by
            apply eq_false_of_ne_true
            intro applies
            cases isWord_of_joinKind? found applies
          simp only [noApply]
          infer_instance
    · intro following
      cases joinKind? t following with
      | none => infer_instance
      | some kind =>
          dsimp only
          infer_instance

instance : Follows edge 0 intoClause := by
  unfold intoClause
  infer_instance

instance : Follows edge 0 skipOptions := by
  unfold skipOptions
  infer_instance

instance : Follows edge 0 setOperator? := by
  unfold setOperator?
  infer_instance

instance : Follows edge 0 columnLabel := by
  apply next
  intro explicit
  apply atEdge (onlyIf explicit (reportMissing .label) >>= fun _ => pure none)
  · rfl
  · rfl
  · apply token
    intro t
    split <;> infer_instance

theorem commonTableHead_explains : Explains commonTableHead := by
  have name : Explains (requireIdentifier .commonTableName) := by
    apply Triple.bind (Explains.ofTotal (p := attempt identifier))
    intro name?
    cases name? with
    | none => exact Explains.missing
    | some name => exact .pure fun _ => id
  apply Triple.bind name
  intro name
  apply Triple.bind (Explains.ofTotal (p := columnNames))
  intro columns
  apply Triple.bind (Explains.requireKeyword (k := .as))
  intro _
  apply Triple.bind (Explains.requirePunctuation (p := .leftParen))
  intro _
  exact .pure fun _ => id

instance : Follows edge 0 commonTableHead := by
  unfold commonTableHead
  infer_instance

variable (inner : Level) [h : inner.Follows edge]

/-! Table sources. -/

instance : Follows edge 2 (derivedTable inner) := by
  unfold derivedTable
  infer_instance

instance : Follows edge 1 (parenthesizedSource inner) := by
  unfold parenthesizedSource
  infer_instance

instance : Follows edge 0 (namedSource inner) := by
  unfold namedSource
  infer_instance

instance : Follows edge 0 (table inner) := by
  apply atEdge (missing .tableReference)
  · rfl
  · rfl
  · apply token
    intro t
    split <;> infer_instance

instance (kind : JoinKind) : Follows edge 0 (joinCondition inner kind) := by
  unfold joinCondition
  infer_instance

instance : Follows edge 0 (skipJoin inner) := by
  unfold skipJoin
  infer_instance

instance (left : TableSource) : Follows edge 0 (join inner left) := by
  apply next
  intro kind?
  cases kind? with
  | none => infer_instance
  | some kind =>
      apply next
      intro right?
      cases right? <;> infer_instance

instance : Follows edge 0 (tableSource inner) := by
  unfold tableSource
  infer_instance

instance : Follows edge 0 (sourceList inner) := inferInstanceAs (Follows edge 0 (commaList _ _))

/-! Clauses. -/

instance : Follows edge 0 (selectItem inner) := by
  let plain : Parser SelectItem := do
    let e ← inner.expression
    return .expression e (← columnLabel)
  apply atEdge plain
  · rfl
  · have seen : look (fun c => startsWithQualifiedStar c.tokens) ⟨edge.right, []⟩ =
        (some false, ⟨edge.right, []⟩) := by rw [look, edge.noStar]
    show (look (fun c => startsWithQualifiedStar c.tokens) >>= fun starred =>
      if starred = true then Parser.qualifiedStar else plain) ⟨edge.right, []⟩ = _
    rw [bind_some seen]
    rfl
  · apply token
    intro t
    apply peek
    · rfl
    · have noSign : (edge.left.current.kind == .operator .eq) = false := rfl
      simp only [noSign, Bool.and_false]
      infer_instance
    · infer_instance

instance : Follows edge 0 (selectList inner) := by
  apply looking (k := 0)
  · intro c d abreast
    exact abreast.current rfl
  · intro c d abreast found
    exact .zero c

instance : Follows edge 0 (topQuantity inner) := by
  unfold topQuantity
  infer_instance

instance (quantity : Expression) (percent : Bool) :
    Follows edge 0 (tiesTail quantity percent) := by
  apply atEdge (pure ⟨quantity, percent, false⟩)
  · rfl
  · rfl
  · apply peek
    · rfl
    · have noWord : edge.left.current.isWord "TIES" = false := rfl
      simp only [noWord, Bool.and_false]
      exact inferInstanceAs (Follows edge 1 (pure ⟨quantity, percent, false⟩ : Parser Top))
    · infer_instance

instance : Follows edge 1 (top inner) := by
  rw [top_eq]
  infer_instance

instance : Follows edge 0 (fromClause inner) := by
  unfold fromClause
  infer_instance

instance (k : Keyword) : Follows edge 0 (expressionClause inner k) := by
  unfold expressionClause
  infer_instance

instance : Follows edge 0 (groupClause inner) := by
  unfold groupClause
  infer_instance

instance : Follows edge 0 (orderClause inner) := by
  unfold orderClause
  infer_instance

instance : Follows edge 1 (selectQuery inner) := by
  unfold selectQuery
  infer_instance

/-! Queries. -/

instance : Follows edge 0 (queryTerm inner) := by
  unfold queryTerm
  infer_instance

instance : Follows edge 0 (queryChain inner) := inferInstanceAs (Follows edge 0 (chainRight _ _ _))

instance : Follows edge 0 (commonTableQuery inner) := by
  unfold commonTableQuery
  infer_instance

instance : Follows edge 0 (commonTable inner) := by
  apply explained commonTableHead_explains
  · exact .bind (.move (Cursor.skipUntil_suffix _)) fun _ => .pure
  · infer_instance

instance : Follows edge 0 (commonTables inner) := by
  unfold commonTables
  infer_instance

instance (location : Location) (tables : List CommonTable) (query? : Option Query) :
    Follows edge 0 (withTables location tables query?) := by
  unfold withTables
  cases query? <;> infer_instance

instance : Follows edge 1 (queryStatement inner) := by
  rw [queryStatement_eq]
  infer_instance

end Follows

end Parser

/-- At every level of nesting. -/
instance follows_level (n : Nat) : (level n).Follows edge := by
  induction n with
  | zero => constructor <;> exact inferInstanceAs (Parser.Follows edge _ (tooDeep _))
  | succ n ih =>
      exact ⟨inferInstanceAs (Parser.Follows edge 1 (queryStatement (level n))),
        inferInstanceAs (Parser.Follows edge 0 (tableSource (level n))),
        inferInstanceAs (Parser.Follows edge 0 (disjunction (level n))),
        inferInstanceAs (Parser.Follows edge 0 (negation (level n))),
        inferInstanceAs (Parser.Follows edge 0 (signed (level n)))⟩

end QueryNames.Grammar
