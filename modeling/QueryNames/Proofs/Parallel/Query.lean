import QueryNames.Proofs.Depth.Query
import QueryNames.Proofs.Grammar.Absent
import QueryNames.Proofs.Parallel.Expression

/-!
Table sources and queries are read alike, in parentheses and alone. Main statement: so is what any
two levels read.
-/

namespace QueryNames.Grammar.Parser

open Token

variable {border : Border}

theorem blind_isJoinHint : Blind isJoinHint := by
  intro t u meets
  have same := blind_isKeyword (k := .merge) nofun nofun nofun t u meets
  simp only [isJoinHint, same, blind_isWord t u meets]

/-- A join begins alike, for behind its first word the next tokens meet. -/
theorem joinKind?_eq {t u next next' : Token} (meets : Meets t u)
    (ahead : t.kind ≠ .endOfInput → Meets next next') :
    joinKind? t next = joinKind? u next' := by
  rcases meets with ⟨kind, text⟩ | ⟨ends, edge⟩
  · by_cases goesOn : t.kind = .endOfInput
    · simp [joinKind?, ← kind, goesOn]
    · have applies := @blind_isWord "APPLY" _ _ (ahead goesOn)
      simp only [joinKind?, ← kind, applies]
  · have absent : joinKind? t next = none := by simp [joinKind?, ends]
    have absent' : joinKind? u next' = none := by
      unfold joinKind?
      generalize u.kind = k at edge
      unfold TokenKind.isEdge at edge
      split at edge <;> first | rfl | contradiction
    rw [absent, absent']

/-- A table is named by the last part of its name. -/
theorem base_of_imprint {name name' : QualifiedName} (same : imprint name = imprint name') :
    name.base.value = name'.base.value := by
  have last (name : QualifiedName) : name.base.value = name.values.getLastD "" := by
    rw [QualifiedName.base_eq_getLast, QualifiedName.values, List.getLastD_eq_getLast?,
      List.getLast?_map, List.getLast?_eq_some_getLast]
    rfl
  have values : name.values = name'.values := same
  rw [last, last, values]

namespace MatchesFrom

variable {P : Cursor → Cursor → Prop}

/-! Labels, hints and operators. -/

theorem tableLabel : MatchesFrom border P tableLabel tableLabel := by
  refine ifKeyword nofun nofun nofun ?_ ?_
  · refine identifier.attempt.bindOption ?_ fun label label' same => pure (congrArg some same)
    exact reportMissing.bind fun _ _ _ => pure rfl
  · refine check blind_isWord fun sampled => ?_
    cases sampled with
    | true => exact pure rfl
    | false => exact identifier.attempt

theorem skipHints : MatchesFrom border P skipHints skipHints := by
  refine peek (Q := False) (fun never => never.elim) fun next next' _ => ?_
  refine bindExact (acceptFrom (fun c d near start => ?_) fun t ends => ?_) fun hinted => ?_
  · have same := blind_isKeyword (k := .with) nofun nofun nofun _ _ near.meets
    by_cases ends : c.current.kind = .endOfInput
    · have none := isKeyword_eq_false (k := .with) ends nofun
      rw [← same, none, Bool.false_and, Bool.false_and]
    · have ahead := near.peek ends
      rw [start.2.1, start.2.2] at ahead
      simp only [same, blind_isPunctuation (p := .leftParen) nofun _ _ ahead]
  · rw [isKeyword_eq_false ends nofun, Bool.false_and]
  · refine bindExact (onlyIf skipParenthesized) fun _ => bindExact acceptWord fun sampled => ?_
    exact bindExact (onlyIf (skipUntil halting_endsTable)) fun _ => pure rfl

/-- Two tokens, of which the second was seen ahead. -/
theorem advanceOverTwo {k : TokenKind} {f f' : Unit → Parser γ} [Imprinting γ δ]
    (goesOn : ∀ c d, P c d → c.current.kind ≠ .endOfInput ∧ (c.peek 1).kind = k)
    (inside : k ≠ .endOfInput) (rest : Matches border (f ()) (f' ())) :
    MatchesFrom border P (Parser.advance >>= fun _ => Parser.advance >>= f)
      (Parser.advance >>= fun _ => Parser.advance >>= f') := by
  refine advanceInto (Q := fun c _ => c.current.kind = k) (fun c d start => (goesOn c d start).1)
    (fun c d near start left _ => left ▸ (goesOn c d start).2) ?_
  refine bindExact (advance fun c d start ends => ?_) fun _ => rest
  rw [start] at ends
  exact inside ends

theorem joinOperator? : MatchesFrom border P joinOperator? joinOperator? := by
  refine current fun t u meets => ?_
  refine peek (Q := t.kind ≠ .endOfInput) (fun inside c d start => start.2.1 ▸ inside)
    fun next next' ahead => ?_
  rw [← joinKind?_eq meets ahead]
  cases found : joinKind? t next with
  | none => exact pure rfl
  | some kind =>
      obtain ⟨⟨k, is, -⟩, apply_⟩ := KeepsFrom.kind_of_joinKind? found
      have inside : t.kind ≠ .endOfInput := is ▸ nofun
      dsimp only
      split
      · rename_i applies
        refine advanceOverTwo (k := .identifier) (fun c d start => ⟨?_, ?_⟩) nofun (pure rfl)
        · exact start.1.2.1 ▸ inside
        · exact start.2.1 ▸ apply_ (by simpa using applies)
      · refine ifKeyword nofun nofun nofun (pure rfl) ?_
        refine bindExact (advance fun c d start => start.1.2.1 ▸ inside) fun _ => ?_
        refine bindExact (acceptKeyword nofun nofun nofun) fun _ => ?_
        refine bindExact (accept blind_isJoinHint fun t ends => ?_) fun _ => ?_
        · simp [isJoinHint, isKeyword, isWord, ends]
        · exact bindExact (succeeds (requireKeyword nofun nofun nofun)) fun _ => pure rfl

theorem columnLabel : MatchesFrom border P columnLabel columnLabel := by
  refine bindExact (acceptKeyword nofun nofun nofun) fun explicit => ?_
  refine current fun t u meets => ?_
  have otherwise : Matches border (do
      let _ ← Parser.onlyIf explicit (Parser.reportMissing .label)
      return (none : Option Identifier)) (do
      let _ ← Parser.onlyIf explicit (Parser.reportMissing .label)
      return none) := bindExact (onlyIf reportMissing) fun _ => pure rfl
  rcases meets with ⟨kind, text⟩ | ⟨ends, edge⟩
  · rw [← kind]
    split
    · exact identifier.attempt
    · rename_i string
      refine bindExact (advance fun c d start ends => ?_) fun _ => pure ?_
      · rw [start.2.1, string] at ends
        contradiction
      · simp [imprint, text]
    · exact always otherwise
  · rw [ends]
    generalize u.kind = k at edge
    unfold TokenKind.isEdge at edge
    split at edge
    · exact always otherwise
    · exact always otherwise
    · exact always otherwise
    · exact always otherwise
    · exact always otherwise
    · contradiction

theorem intoClause : MatchesFrom border P intoClause intoClause := by
  refine ifKeyword nofun nofun nofun ?_ (pure rfl)
  refine bind qualifiedName.attempt fun name? name?' same => ?_
  rw [isSome_of_imprint same]
  exact bindExact finishClause fun _ => pure same

theorem skipOptions : MatchesFrom border P skipOptions skipOptions := by
  refine bindExact (acceptKeyword nofun nofun nofun) fun browsed => ?_
  refine bindExact (onlyIf (skipUntil ⟨fun t u meets => ?_, fun t all => ?_⟩)) fun _ => ?_
  · simp only [blind_endsClause t u meets,
      blind_isKeyword (k := .for) nofun nofun nofun t u meets]
  · simp [halting_endsClause.passes t all]
  · refine bindExact (acceptKeyword nofun nofun nofun) fun hinted => ?_
    refine bindExact (onlyIf (check (blind_isPunctuation nofun) fun opens => ?_)) fun _ => pure rfl
    cases opens with
    | true => exact skipParenthesized
    | false => exact reportMissing

/-- Where neither has passed the parenthesis, the same operator follows in both. -/
theorem setOperator? :
    MatchesFrom border (fun c d => Along border c.tokens d.tokens) setOperator? setOperator? := by
  have agree (k : Keyword) (c d : Cursor) (along : Along border c.tokens d.tokens) :
      c.current.isKeyword k = d.current.isKeyword k := by
    obtain ⟨t, ts⟩ := c
    obtain ⟨u, us⟩ := d
    rcases along with ends | ⟨kind, -, -, -⟩
    · have stop : t.kind = .endOfInput := ends
      unfold isKeyword
      rw [border.isClose, stop]
      rfl
    · unfold isKeyword
      rw [kind]
  have refuses (k : Keyword) (t : Token) (ends : t.kind = .endOfInput) : t.isKeyword k = false :=
    isKeyword_eq_false ends nofun
  refine ifAcceptFrom (fun c d _ along => agree _ c d along) (refuses _) ?_ ?_
  · refine ifKeyword nofun nofun nofun (pure rfl) (pure rfl)
  · refine ifAcceptFrom (fun c d _ along => agree _ c d along) (refuses _) (pure rfl) ?_
    exact ifAcceptFrom (fun c d _ along => agree _ c d along) (refuses _) (pure rfl) (pure rfl)

/-! Select items. -/

theorem advance_of_peek {c : Cursor} {k : TokenKind} (goesOn : c.current.kind ≠ .endOfInput)
    (behind : (c.peek 1).kind = k) (other : c.current.kind ≠ k) : c.advance.current.kind = k := by
  obtain ⟨t, ts⟩ := c
  cases ts with
  | nil => exact absurd behind other
  | cons u us => simpa [Cursor.advance, Cursor.isAtEnd, isEnd, goesOn, Cursor.peek,
      Cursor.tokens] using behind

/-- `label =` -/
theorem assigned [Imprinting γ δ] {f f' : Option Identifier → Unit → Parser γ}
    (is : ∀ c d, P c d → c.current.kind = .identifier ∧ (c.peek 1).kind = .operator .eq)
    (rest : ∀ label? label?', Matches border (f label? ()) (f' label?' ())) :
    MatchesFrom border P
      (Parser.attempt Parser.identifier >>= fun label? => Parser.advance >>= f label?)
      (Parser.attempt Parser.identifier >>= fun label? => Parser.advance >>= f' label?) := by
  refine bindInto (A := fun c => c.current.kind = .identifier ∧ (c.peek 1).kind = .operator .eq)
    (Q := fun _ c => c.current.kind = .operator .eq) identifier.attempt is ?_
    fun label? label?' _ => bind (advance fun c d start ends => ?_) fun _ _ _ => rest label? label?'
  · rintro s ⟨kind, behind⟩
    simp only [Parser.attempt, identifier_apply, if_pos kind]
    refine advance_of_peek ?_ behind ?_
    · rw [kind]
      exact nofun
    · rw [kind]
      exact nofun
  · rw [start] at ends
    contradiction

/-- `WITH TIES` -/
theorem ties [Imprinting γ δ] {next next' : Token} {f f' : Bool → Option Unit → Parser γ}
    (is : ∀ c d, P c d → c.peek 1 = next ∧ d.peek 1 = next')
    (rest : ∀ found u?, Matches border (f found u?) (f' found u?)) :
    MatchesFrom border P
      (Parser.accept (fun t => t.isKeyword .with && next.isWord "TIES") >>= fun found =>
        Parser.onlyIf found Parser.advance >>= f found)
      (Parser.accept (fun t => t.isKeyword .with && next'.isWord "TIES") >>= fun found =>
        Parser.onlyIf found Parser.advance >>= f' found) := by
  refine bindInto (A := fun c => c.peek 1 = next)
    (Q := fun found c => found = true → c.current.kind = .identifier)
    (acceptFrom (fun c d near start => ?_) fun t ends => ?_) (fun c d start => (is c d start).1)
    (.accept (fun s start found _ => ?_) fun _ _ _ => nofun) fun found found' same => ?_
  · have same := blind_isKeyword (k := .with) nofun nofun nofun _ _ near.meets
    by_cases ends : c.current.kind = .endOfInput
    · have none := isKeyword_eq_false (k := .with) ends nofun
      rw [← same, none, Bool.false_and, Bool.false_and]
    · have ahead := near.peek ends
      rw [(is c d start).1, (is c d start).2] at ahead
      simp only [same, blind_isWord _ _ ahead]
  · rw [isKeyword_eq_false ends nofun, Bool.false_and]
  · obtain ⟨with_, word⟩ := Bool.and_eq_true_iff.1 found
    have kind : s.cursor.current.kind = .keyword .with := Token.isKeyword_iff.1 with_
    refine advance_of_peek ?_ ?_ ?_
    · rw [kind]
      exact nofun
    · rw [start]
      exact KeepsFrom.kind_of_isWord word
    · rw [kind]
      exact nofun
  · obtain rfl : found = found' := same
    cases found with
    | false => exact bindExact (pure rfl) fun u? => rest false u?
    | true =>
        refine bindExact (attempt (advance fun c d start ends => ?_)) fun u? => rest true u?
        rw [start rfl] at ends
        contradiction

theorem startsWithQualifiedStar_along {ts us : List Token} (along : Along border ts us) :
    startsWithQualifiedStar ts = startsWithQualifiedStar us := by
  -- where the shorter text has its end the longer one has no period
  have closing (us : List Token) : startsWithQualifiedStar (border.close :: us) = false := by
    unfold startsWithQualifiedStar
    split
    · rename_i split
      obtain ⟨rfl, -⟩ := List.cons.inj split
      simp [border.isClose]
    · rfl
  fun_induction startsWithQualifiedStar ts generalizing us with
  | case1 name period t rest ih =>
      cases along with
      | @next _ _ _ _ kind _ _ along =>
          cases along with
          | @next _ _ _ us kind' _ _ along =>
              cases us with
              | nil => exact absurd along.length (by simp; omega)
              | cons x xs =>
                  have star : (t.kind == .star) = (x.kind == .star) :=
                    along.head.of_kind (f := (· == .star))
                      (TokenKind.forall_edge rfl rfl rfl rfl rfl)
                  rw [startsWithQualifiedStar, isPunctuation, isPunctuation, kind, kind', star,
                    ih along]
  | case2 ts other =>
      symm
      cases along with
      | last _ => exact closing _
      | next _ _ _ along =>
          cases along with
          | last _ => simp [startsWithQualifiedStar, isPunctuation, border.isClose]
          | next _ _ _ along =>
              cases along with
              | last _ => exact absurd rfl (other _ _ _ _)
              | next _ _ _ _ => exact absurd rfl (other _ _ _ _)

theorem startsWithQualifiedStar_near {c d : Cursor} (near : Near border c d) :
    startsWithQualifiedStar c.tokens = startsWithQualifiedStar d.tokens := by
  cases near with
  | along along => exact startsWithQualifiedStar_along along
  | past ends =>
      have plain : (border.first.kind == .identifier) = false :=
        TokenKind.forall_edge (p := fun k => (k == .identifier) = false) rfl rfl rfl rfl rfl _
          border.isEdge
      unfold startsWithQualifiedStar
      simp only [Cursor.tokens]
      split
      · rename_i split
        obtain ⟨rfl, -⟩ := List.cons.inj split
        simp [plain]
      · rfl

open KeepsFrom (StarAhead PeriodAhead)

/-- A name may be passed, and then a period is ahead. -/
theorem starName_ahead :
    Triple (fun s => StarAhead s.cursor.tokens) (Parser.attempt Parser.identifier)
      (fun part? s => if part?.isSome = true then PeriodAhead s.cursor.tokens
        else StarAhead s.cursor.tokens) fun _ => True :=
  (KeepsFrom.starName_runs (I := fun _ => True) (P := fun _ => True) (fun _ _ _ => trivial)
    (fun _ _ _ => trivial) []).weaken (fun _ ahead => ⟨⟨trivial, ahead⟩, nofun⟩)
    (fun _ _ found => found.1.2) fun _ => id

theorem starPart_ahead :
    Triple (fun s => StarAhead s.cursor.tokens) starPart (fun _ s => StarAhead s.cursor.tokens)
      fun _ => True :=
  (KeepsFrom.starPart_runs (I := fun _ => True) (P := fun _ => True) (fun _ _ _ => trivial)
    (fun _ _ _ => trivial) []).weaken (fun _ ahead => ⟨⟨trivial, ahead⟩, nofun⟩)
    (fun _ _ found => found.1.2) fun _ => id

theorem starPart : MatchesFrom border (fun c _ => StarAhead c.tokens) starPart starPart := by
  refine bindInto (Q := fun part? c => if part?.isSome = true then PeriodAhead c.tokens
    else StarAhead c.tokens) identifier.attempt (fun c d start => start) starName_ahead
    fun part? part?' same => ?_
  obtain ⟨rfl, rfl⟩ | ⟨part, part', rfl, rfl, -⟩ := option_of_imprint same
  · exact pure rfl
  · refine bindExact (advance fun c d start ends => ?_) fun _ => pure (congrArg (·, true) same)
    have period : PeriodAhead c.tokens := start
    rw [period.kind] at ends
    contradiction

theorem imprint_qualifiedWildcard {parts parts' : List Identifier} (location location' : Location)
    (same : imprint parts = imprint parts') :
    imprint (SelectItem.qualifiedWildcard ⟨QualifiedName.ofList? parts, .wildcard, location⟩) =
      imprint (SelectItem.qualifiedWildcard
        ⟨QualifiedName.ofList? parts', .wildcard, location'⟩) := by
  have values : parts.map (·.value) = parts'.map (·.value) := same
  cases parts with
  | nil =>
      cases parts' with
      | nil => simp [imprint, SelectItem.outline, Column.outline, Node.marks, QualifiedName.ofList?]
      | cons part' parts' => cases values
  | cons part parts =>
      cases parts' with
      | nil => cases values
      | cons part' parts' =>
          have fields := congrArg (List.map Mark.field) values
          simpa [imprint, SelectItem.outline, Column.outline, Node.marks, QualifiedName.ofList?,
            QualifiedName.values, QualifiedName.parts] using fields

/-- An identifier is passed together with the period behind it, up to the star. -/
theorem qualifiedStar :
    MatchesFrom border (fun c _ => startsWithQualifiedStar c.tokens = true)
      qualifiedStar qualifiedStar := by
  refine place fun location location' => ?_
  refine bindInto (A := fun c => StarAhead c.tokens) (Q := fun _ c => StarAhead c.tokens)
    ((collectFrom starPart starPart_ahead).weaken fun c d start => .inr start)
    (fun c d start => .inr start) ?_ fun parts parts' same => ?_
  · exact Triple.collect (I := fun _ s => StarAhead s.cursor.tokens) (fun _ => starPart_ahead) []
  · refine bindExact (advance fun c d start ends => ?_) fun _ =>
      pure (imprint_qualifiedWildcard location location' same)
    have ahead : StarAhead c.tokens := start
    rcases ahead.kind with kind | kind <;> rw [kind] at ends <;> contradiction

end MatchesFrom

namespace LevelMatches

variable {inner inner' : Level} (h : LevelMatches border inner inner')
  {P : Cursor → Cursor → Prop}

/-! Table sources. -/

include h

theorem derivedTable :
    MatchesFrom border (fun c _ => c.current.kind = .punctuation .leftParen)
      (derivedTable inner) (derivedTable inner') := by
  refine .bindExact (.advance fun c d start ends => ?_) fun _ => ?_
  · rw [start] at ends
    contradiction
  · refine .bind h.query.attempt fun query? query?' same => .bindExact .closeParen fun _ => ?_
    refine .bind .tableLabel fun label? label?' sameLabel => ?_
    have unlabelled : label?.isNone = label?'.isNone := by
      rw [← Option.not_isSome, ← Option.not_isSome, isSome_of_imprint sameLabel]
    rw [unlabelled]
    refine .bindExact (.onlyIf .reportMissing) fun _ =>
      .bind .columnNames fun columns columns' _ => ?_
    refine .bind (.ofOption same) fun query query' alike => .pure ?_
    simp [imprint, TableSource.outline, Node.marks, marks_of_imprint alike]

theorem parenthesizedSource :
    MatchesFrom border (fun c _ => c.current.kind = .punctuation .leftParen)
      (parenthesizedSource inner) (parenthesizedSource inner') := by
  refine .bindExact (.advance fun c d start ends => ?_) fun _ => ?_
  · rw [start] at ends
    contradiction
  · refine .bind h.source.attempt fun source? source?' same => .bindExact .closeParen fun _ => ?_
    refine .bind (.ofOption same) fun source source' alike => .pure ?_
    simp only [imprint] at alike
    simp [imprint, TableSource.outline, Node.marks, alike]

theorem namedSource : MatchesFrom border P (namedSource inner) (namedSource inner') := by
  refine .bind .qualifiedName fun name name' same => .ifPunctuation nofun ?_ ?_
  · refine .bind h.arguments fun list list' alike => .bind .tableLabel fun _ _ _ => .pure ?_
    have arguments := flatMap_imprint alike
    simp only [imprint] at arguments
    simp [imprint, TableSource.outline, Node.marks, List.flatMap_map, arguments]
  · refine .bind .tableLabel fun label? label?' _ => .bindExact .skipHints fun _ => .pure ?_
    simp [imprint, TableSource.outline, NamedTable.outline, Node.marks, base_of_imprint same]

theorem table : Matches border (table inner) (table inner') := by
  refine .current fun t u meets => ?_
  rcases meets with ⟨kind, text⟩ | ⟨ends, edge⟩
  · rw [← kind]
    split
    · rename_i opens
      refine .look (fun _ _ near _ => near.opensQuery) fun query => ?_
      cases query with
      | true => exact h.derivedTable.weaken fun c d start => start.1.2.1 ▸ opens
      | false => exact h.parenthesizedSource.weaken fun c d start => start.1.2.1 ▸ opens
    · rename_i variable_
      refine .bindExact (.advance fun c d start ends => ?_) fun _ => ?_
      · rw [start.2.1, variable_] at ends
        contradiction
      · refine .bind .tableLabel fun _ _ _ => .pure ?_
        simp [imprint, TableSource.outline, Node.marks]
    · exact h.namedSource
    · exact .missing
  · rw [ends]
    generalize u.kind = k at edge
    unfold TokenKind.isEdge at edge
    split at edge
    · exact .missing
    · exact .missing
    · exact .missing
    · exact .missing
    · exact .missing
    · contradiction

theorem joinCondition (kind : JoinKind) :
    Matches border (joinCondition inner kind) (joinCondition inner' kind) := by
  dsimp only [Parser.joinCondition]
  split
  · exact .pure rfl
  · refine .bindExact (.succeeds (.requireKeyword nofun nofun nofun)) fun follows => ?_
    cases follows with
    | false => exact .pure rfl
    | true =>
        refine .bind h.expression.attempt fun condition? condition?' same => ?_
        have absent : condition?.isNone = condition?'.isNone := by
          rw [← Option.not_isSome, ← Option.not_isSome, isSome_of_imprint same]
        rw [absent]
        exact .bindExact (.onlyIf (.skipUntil halting_endsTable)) fun _ => .pure same

theorem skipJoin : Matches border (skipJoin inner) (skipJoin inner') := by
  refine .bindExact (.skipUntil halting_endsTable) fun _ => ?_
  refine .bindExact (.acceptKeyword nofun nofun nofun) fun follows => ?_
  exact .bind (.onlyIf h.expression) fun _ _ _ => .pure rfl

theorem join {left left' : TableSource} (same : imprint left = imprint left') :
    Matches border (join inner left) (join inner' left') := by
  refine .bindExact .joinOperator? fun kind? => ?_
  cases kind? with
  | none => exact .pure (congrArg (·, false) same)
  | some kind =>
      refine .bindOption h.table.attempt ?_ fun right right' alike => ?_
      · exact .bindExact h.skipJoin fun _ => .pure (congrArg (·, true) same)
      · refine .bind (h.joinCondition kind) fun condition? condition?' sameCondition => .pure ?_
        have conditions := flatMap_toList sameCondition
        simp only [imprint] at same alike conditions
        simp [imprint, TableSource.outline, Node.marks, List.flatMap_map, same, alike, conditions]

theorem tableSource : Matches border (tableSource inner) (tableSource inner') :=
  .bind h.table fun left left' same => .iterate (fun _ _ alike => h.join alike) left left' same

theorem sourceList : Matches border (sourceList inner) (sourceList inner') :=
  .commaList halting_endsItem h.tableSource

/-! The select list. -/

theorem selectItem : Matches border (selectItem inner) (selectItem inner') := by
  refine .current fun t u meets => ?_
  refine .peek (Q := t.kind ≠ .endOfInput) (fun inside c d start => start.2.1 ▸ inside)
    fun next next' ahead => ?_
  have star : (t.kind == .star) = (u.kind == .star) :=
    meets.of_kind (f := (· == .star)) (TokenKind.forall_edge rfl rfl rfl rfl rfl)
  have assigns (k : TokenKind) (inside : k ≠ .endOfInput)
      (edges : ∀ j : TokenKind, j.isEdge = true → (j == k) = (.endOfInput == k)) :
      (t.kind == k && next.kind == .operator .eq) =
        (u.kind == k && next'.kind == .operator .eq) := by
    rw [meets.of_kind (f := (· == k)) edges]
    by_cases goesOn : t.kind = .endOfInput
    · have absent : (u.kind == k) = false := by
        rw [← meets.of_kind (f := (· == k)) edges, goesOn]
        exact beq_false_of_ne inside.symm
      rw [absent, Bool.false_and, Bool.false_and]
    · rw [(ahead goesOn).of_kind (f := (· == .operator .eq))
        (TokenKind.forall_edge rfl rfl rfl rfl rfl)]
  have item {e e' : Expression} (same : imprint e = imprint e')
      (label? label?' : Option Identifier) :
      imprint (SelectItem.expression e label?) = imprint (SelectItem.expression e' label?') := by
    simp only [imprint] at same
    simp [imprint, SelectItem.outline, Node.marks, same]
  dsimp only
  rw [← star, ← assigns .identifier nofun (TokenKind.forall_edge rfl rfl rfl rfl rfl),
    ← assigns .variable nofun (TokenKind.forall_edge rfl rfl rfl rfl rfl)]
  split
  · rename_i kind
    refine .bindExact (.advance fun c d start ends => ?_) fun _ => .pure ?_
    · rw [start.1.2.1, beq_iff_eq.1 kind] at ends
      contradiction
    · simp [imprint, SelectItem.outline, Node.marks]
  · split
    · rename_i assigned
      simp only [Bool.and_eq_true, beq_iff_eq] at assigned
      refine .assigned (fun c d start => ⟨start.1.2.1 ▸ assigned.1, start.2.1 ▸ assigned.2⟩)
        fun label? label?' => ?_
      exact .bind h.expression fun e e' same => .pure (item same _ _)
    · split
      · rename_i assigned
        simp only [Bool.and_eq_true, beq_iff_eq] at assigned
        refine .advanceOverTwo (k := .operator .eq) (fun c d start => ⟨?_, start.2.1 ▸ assigned.2⟩)
          nofun (.bind h.expression fun e e' same => .pure (item same _ _))
        rw [start.1.2.1, assigned.1]
        exact nofun
      · refine .look (fun _ _ near _ => MatchesFrom.startsWithQualifiedStar_near near)
          fun starred => ?_
        cases starred with
        | true => exact MatchesFrom.qualifiedStar.weaken fun c d start => start.2.1
        | false =>
            refine .bind (.always h.expression) fun e e' same => ?_
            exact .bind .columnLabel fun label? label?' _ => .pure (item same _ _)

theorem selectList : Matches border (selectList inner) (selectList inner') := by
  refine .check blind_endsClause fun empty => ?_
  cases empty with
  | true => exact .bindExact .reportMissing fun _ => .pure rfl
  | false => exact .always (.commaList halting_endsItem h.selectItem)

theorem topQuantity : Matches border (topQuantity inner) (topQuantity inner') := by
  refine .ifPunctuation nofun ?_ h.primary
  refine .bind h.expression.attempt fun e? e?' same => ?_
  exact .bindExact .closeParen fun _ => .ofOption same

theorem top :
    MatchesFrom border (fun c _ => c.current.kind = .keyword .top) (top inner) (top inner') := by
  refine .bindExact (.advance fun c d start ends => ?_) fun _ => ?_
  · rw [start] at ends
    contradiction
  · refine .bind h.topQuantity fun quantity quantity' same => ?_
    refine .bindExact (.acceptKeyword nofun nofun nofun) fun percent => ?_
    refine .peek (Q := False) (fun never => never.elim) fun next next' _ => ?_
    exact .ties (fun c d start => start.2) fun withTies _ => .pure same

/-! Clauses. -/

theorem fromClause : Matches border (fromClause inner) (fromClause inner') :=
  .ifKeyword nofun nofun nofun h.sourceList (.pure rfl)

theorem expressionClause {k : Keyword} (union : k ≠ .union) (except : k ≠ .except)
    (intersect : k ≠ .intersect) :
    Matches border (expressionClause inner k) (expressionClause inner' k) := by
  refine .ifKeyword union except intersect ?_ (.pure rfl)
  refine .bind h.expression.attempt fun e? e?' same => ?_
  rw [isSome_of_imprint same]
  exact .bindExact .finishClause fun _ => .pure same

theorem groupClause : Matches border (groupClause inner) (groupClause inner') := by
  refine .ifKeyword nofun nofun nofun ?_ (.pure rfl)
  refine .bind (.attempt (.bindExact (.requireKeyword nofun nofun nofun) fun _ =>
    .bindExact (.acceptKeyword nofun nofun nofun) fun _ => h.expressionList))
    fun list? list?' same => ?_
  exact .bindExact .finishClause fun _ => .pure (getD_imprint same)

theorem orderClause : Matches border (orderClause inner) (orderClause inner') := by
  refine .ifKeyword nofun nofun nofun ?_ (.pure rfl)
  refine .bind (.attempt (.bindExact (.requireKeyword nofun nofun nofun) fun _ => h.orderList))
    fun list? list?' same => ?_
  refine .bindExact .acceptWord fun offset => ?_
  refine .bindExact (.onlyIf (.skipUntil halting_endsClause)) fun _ => ?_
  exact .bindExact .finishClause fun _ => .pure (getD_imprint same)

theorem selectQuery :
    MatchesFrom border (fun c _ => c.current.kind = .keyword .select)
      (selectQuery inner) (selectQuery inner') := by
  refine .place fun location location' => ?_
  refine .bindExact (.advance fun c d start ends => ?_) fun _ => ?_
  · rw [start] at ends
    contradiction
  · refine .bindExact (.acceptKeyword nofun nofun nofun) fun distinct => ?_
    refine .bindExact (.onlyIf (.acceptKeyword nofun nofun nofun)) fun _ => ?_
    refine .check (blind_isKeyword nofun nofun nofun) fun limited => ?_
    refine .bind (.onlyWhen fun yes => h.top.weaken fun c d start => ?_)
      fun top? top?' sameTop => ?_
    · rw [yes] at start
      exact Token.isKeyword_iff.1 start.2.1
    · refine .bind h.selectList fun items items' sameItems => ?_
      refine .bind .intoClause fun into into' _ => ?_
      refine .bind h.fromClause fun sources sources' sameSources => ?_
      refine .bind (h.expressionClause nofun nofun nofun)
        fun condition condition' sameCondition => ?_
      refine .bind h.groupClause fun groups groups' sameGroups => ?_
      refine .bind (h.expressionClause nofun nofun nofun) fun having having' sameHaving => ?_
      refine .bind h.orderClause fun orders orders' sameOrders => ?_
      refine .bindExact .skipOptions fun _ => .pure ?_
      have tops := flatMap_toList sameTop
      have itemMarks := flatMap_imprint sameItems
      have sourceMarks := flatMap_imprint sameSources
      have conditions := flatMap_toList sameCondition
      have groupMarks := flatMap_imprint sameGroups
      have havings := flatMap_toList sameHaving
      have orderMarks := flatMap_imprint sameOrders
      simp only [imprint] at tops itemMarks sourceMarks conditions groupMarks havings orderMarks
      simp [imprint, Query.commonMarks, Query.ownMarks, Query.joinedMarks, Query.outline,
        Node.marks, List.flatMap_map, tops, itemMarks, sourceMarks, conditions, groupMarks, havings,
        orderMarks]

/-! Whole queries. -/

theorem queryTerm : Matches border (queryTerm inner) (queryTerm inner') := by
  refine .check (blind_isKeyword nofun nofun nofun) fun select => ?_
  cases select with
  | true =>
      refine h.selectQuery.weaken fun c d start => ?_
      exact Token.isKeyword_iff.1 start.2.1
  | false =>
      refine .look (fun _ _ near _ => near.opensQueryDeep) fun opens => ?_
      cases opens with
      | false => exact .missing
      | true =>
          refine .bindExact (.advance fun c d start ends => ?_) fun _ => ?_
          · have here := start.2.1
            simp [Cursor.opensQueryDeep, isPunctuation, ends] at here
          · refine .bind h.query.attempt fun query? query?' same => ?_
            exact .bindExact .closeParen fun _ => .ofOption same

omit h in
theorem setOperator?_advances : Advances Parser.setOperator? := by
  refine Advances.accept.bind fun union => ?_
  cases union with
  | true =>
      refine Advances.accept.bind fun all => ?_
      cases all <;> exact .pure
  | false =>
      refine Advances.accept.bind fun except => ?_
      cases except with
      | true => exact .pure
      | false =>
          refine Advances.accept.bind fun intersect => ?_
          cases intersect <;> exact .pure

omit h in
/-- An operator that is not there leaves everything in its place. -/
theorem setOperator?_none {s s' : State} (run : Parser.setOperator? s = (some none, s')) :
    s' = s := by
  have present (k : Keyword) (is : s.cursor.current.isKeyword k = true) :
      Parser.acceptKeyword k s = (some true, { s with cursor := s.cursor.advance }) :=
    accept_present is
  have absent (k : Keyword) (is : s.cursor.current.isKeyword k = false) :
      Parser.acceptKeyword k s = (some false, s) := accept_absent is
  cases union : s.cursor.current.isKeyword .union with
  | true =>
      rw [Parser.setOperator?, bind_some (present _ union), if_pos rfl] at run
      obtain ⟨all, s'', next⟩ := Total.result (p := Parser.acceptKeyword .all)
        { s with cursor := s.cursor.advance }
      rw [bind_some next] at run
      cases all <;> cases run
  | false =>
      rw [Parser.setOperator?, bind_some (absent _ union), if_neg Bool.false_ne_true] at run
      cases except : s.cursor.current.isKeyword .except with
      | true =>
          rw [bind_some (present _ except)] at run
          cases run
      | false =>
          rw [bind_some (absent _ except), if_neg Bool.false_ne_true] at run
          cases intersect : s.cursor.current.isKeyword .intersect with
          | true =>
              rw [bind_some (present _ intersect)] at run
              cases run
          | false =>
              rw [bind_some (absent _ intersect)] at run
              cases run
              rfl

end LevelMatches

/-- The operation stands in the place of any that the query already has. -/
theorem imprint_chained {a a' b b' : Query} (operator : SetOperator)
    (left : imprint a = imprint a') (right : imprint b = imprint b') :
    imprint { a with setOperation := some ⟨operator, b⟩ } =
      imprint { a' with setOperation := some ⟨operator, b'⟩ } := by
  obtain ⟨common, own⟩ : a.commonMarks = a'.commonMarks ∧ a.ownMarks = a'.ownMarks := by
    have parts : a.commonMarks = a'.commonMarks ∧ a.ownMarks = a'.ownMarks ∧
        a.joinedMarks = a'.joinedMarks := by simpa [imprint] using left
    exact ⟨parts.1, parts.2.1⟩
  have joined := LevelMatches.marks_of_imprint right
  refine Prod.ext common (Prod.ext own ?_)
  simp [imprint, Query.joinedMarks, joined]

/-- An operator is found in both, or in the longer text only, behind the parenthesis. -/
theorem setOperator?_near {c d : Cursor} (near : Near border c d) :
    (∃ operator s, d = ⟨border.first, border.behind⟩ ∧
      setOperator? ⟨d, []⟩ = (some (some operator), s)) ∨
    Spoilt (setOperator? ⟨c, []⟩).2 (setOperator? ⟨d, []⟩).2 ∨
    ∃ operator? c' d', setOperator? ⟨c, []⟩ = (some operator?, ⟨c', []⟩) ∧
      setOperator? ⟨d, []⟩ = (some operator?, ⟨d', []⟩) ∧ Near border c' d' ∧
      (c.current.kind = .endOfInput → d' = d) := by
  obtain ⟨operator?, s, run⟩ := Total.result (p := setOperator?) ⟨c, []⟩
  obtain ⟨operator?', s', run'⟩ := Total.result (p := setOperator?) ⟨d, []⟩
  cases near with
  | past ends =>
      cases operator?' with
      | some operator => exact .inl ⟨operator, s', rfl, run'⟩
      | none =>
          right
          right
          obtain rfl := LevelMatches.setOperator?_none run'
          refine ⟨none, _, _, ?_, run', .past ends, fun _ => rfl⟩
          exact setOperator?_end ends
  | along along =>
      right
      rcases MatchesFrom.setOperator?.runs c d (.along along) along with spoilt | agree
      · exact .inl spoilt
      · right
        rw [run, run'] at agree
        obtain ⟨same, quiet, quiet', near, stays⟩ := agree
        obtain ⟨c', reported⟩ := s
        obtain ⟨d', reported'⟩ := s'
        obtain rfl : reported = [] := quiet
        obtain rfl : reported' = [] := quiet'
        obtain rfl : operator? = operator?' :=
          Exact.eq_of_imprint operator? operator?' (Option.some.inj same)
        exact ⟨operator?, c', d', run, run', near, stays⟩

/-- The sides of an operator are joined alike, if there is a right side at all. -/
theorem imprint_elim [Imprinting α β] {join : α → ω → α → α} {operator : ω} {a b : α}
    {a? b? : Option α}
    (joins : ∀ operator a a' b b', imprint a = imprint a' → imprint b = imprint b' →
      imprint (join a operator b) = imprint (join a' operator b'))
    (left : imprint a = imprint b) (right : imprint a? = imprint b?) :
    imprint (a?.elim a (join a operator)) = imprint (b?.elim b (join b operator)) := by
  obtain ⟨rfl, rfl⟩ | ⟨a', b', rfl, rfl, both⟩ := option_of_imprint right
  · exact left
  · exact joins operator a b a' b' left both

/-- Behind the parenthesis a set operation is none of the text inside of it. -/
theorem MatchesFrom.chainRight [Imprinting α β] {operand operand' : Parser α}
    {join : α → SetOperator → α → α} (operands : Matches border operand operand')
    (past : ∀ operator s,
      Parser.setOperator? ⟨⟨border.first, border.behind⟩, []⟩ = (some (some operator), s) →
      s.remaining < border.behind.length ∧
        (Complained (chainRight operand' Parser.setOperator? join s).2 ∨
          (chainRight operand' Parser.setOperator? join s).2.cursor.ahead = []))
    (joins : ∀ operator a a' b b', imprint a = imprint a' → imprint b = imprint b' →
      imprint (join a operator b) = imprint (join a' operator b')) :
    Matches border (chainRight operand Parser.setOperator? join)
      (chainRight operand' Parser.setOperator? join) := by
  have operators := LevelMatches.setOperator?_advances
  refine ⟨.chainRight operands.left operators, .chainRight operands.right operators, ?_⟩
  intro c d near _
  induction length : (State.mk c []).remaining using Nat.strongRecOn generalizing c d with
  | ind m ih =>
      rcases operands.runs c d near trivial with spoilt | agree
      · exact .inl (spoilt.onward (operand_onward operands.left operators _)
          (operand_onward operands.right operators _))
      -- the operands agree, and so do the operators unless the second is behind the parenthesis
      have moved := operands.left.onward ⟨c, []⟩
      have moved' := operands.right.onward ⟨d, []⟩
      obtain ⟨c', d', near', stays, ⟨run, run'⟩ | ⟨a, b, run, run', alike⟩⟩ := agree.cases
      · rw [chainRight_nothing run, chainRight_nothing run']
        exact .inr ⟨rfl, rfl, rfl, near', stays⟩
      rw [run] at moved
      rw [run'] at moved'
      rcases setOperator?_near near' with ⟨operator, s, rfl, found⟩ | spoilt |
        ⟨operator?, c'', d'', found, found', near'', stays'⟩
      · obtain ⟨fewer, ends⟩ := past operator s found
        refine .inl (.inr ?_)
        rw [chainRight_more run' found (Nat.lt_of_lt_of_le fewer moved'.remaining_le)]
        exact ends
      · exact .inl (spoilt.onward (chainRight_onward operands.left operators run)
          (chainRight_onward operands.right operators run'))
      have between : Onward ⟨c', []⟩ ⟨c'', []⟩ := by
        have onward := operators.onward ⟨c', []⟩
        rwa [found] at onward
      have held (ends : c.current.kind = .endOfInput) : d'' = d := by
        have kept : c' = c := moved.stays (near.ahead_eq_nil ends)
        rw [stays' (kept ▸ ends), stays ends]
      have both := near.goesOn_iff near'' (moved.trans between) held
      cases operator? with
      | none =>
          rw [chainRight_stop run found nofun, chainRight_stop run' found' nofun]
          exact .inr ⟨congrArg some alike, rfl, rfl, near'', held⟩
      | some operator =>
          by_cases goesOn : (State.mk c'' []).remaining < (State.mk c []).remaining
          · rw [chainRight_more run found goesOn, chainRight_more run' found' (both.1 goesOn)]
            rcases ih _ (length ▸ goesOn) c'' d'' near'' rfl with spoilt | agree
            · exact .inl spoilt
            · exact .inr ((agree.behind near (moved.trans between) held).result
                (congrArg some (imprint_elim joins alike agree.results)))
          · rw [chainRight_still run found goesOn, chainRight_still run' found' (mt both.2 goesOn)]
            exact .inr ⟨congrArg some alike, rfl, rfl, near'', held⟩

/-- A common table from its name on, if it gets as far as its query. -/
theorem commonTableHead_matches : Matches border commonTableHead commonTableHead := by
  refine .bind .requireIdentifier fun name name' sameName => ?_
  refine .bind .columnNames fun columns columns' sameColumns => ?_
  refine .bindExact (.requireKeyword nofun nofun nofun) fun _ => ?_
  exact .bindExact (.requirePunctuation nofun) fun _ => .pure (Prod.ext sameName sameColumns)

namespace LevelMatches

variable {inner : Level} {n : Nat} (h : LevelMatches border inner (level n))

include h

theorem queryChain : Matches border (queryChain inner) (queryChain (level n)) := by
  refine .chainRight h.queryTerm (fun operator s found => ?_) fun operator _ _ _ _ =>
    imprint_chained operator
  exact border.chains n operator s found

theorem commonTableQuery :
    Matches border (commonTableQuery inner) (commonTableQuery (level n)) := by
  refine .look (fun _ _ near _ => near.startsQuery) fun starts => ?_
  cases starts with
  | true => exact .always h.query
  | false => exact .missing

theorem commonTable : Matches border (commonTable inner) (commonTable (level n)) := by
  refine .bindOption commonTableHead_matches.attempt ?_ ?_
  · refine .bindExact (.skipUntil ⟨?_, fun t all => ?_⟩) fun _ => .pure rfl
    · exact blind_isKeyword (k := .select) nofun nofun nofun
    · exact isKeyword_eq_false all nofun
  · rintro ⟨name, columns⟩ ⟨name', columns'⟩ same
    refine .bind h.commonTableQuery.attempt fun query? query?' alike => ?_
    refine .bindExact .closeParen fun _ => ?_
    refine .bindExact (.acceptPunctuation nofun) fun more => .pure (Prod.ext ?_ rfl)
    obtain ⟨rfl, rfl⟩ | ⟨query, query', rfl, rfl, both⟩ := option_of_imprint alike
    · rfl
    · have marks := marks_of_imprint both
      simp [imprint, CommonTable.outline, Node.marks, marks]

theorem commonTables : Matches border (commonTables inner) (commonTables (level n)) :=
  .ifKeyword nofun nofun nofun (.collect h.commonTable) (.pure rfl)

theorem queryStatement : Matches border (queryStatement inner) (queryStatement (level n)) := by
  refine .place fun location location' => .bind h.commonTables fun tables tables' same => ?_
  have common := flatMap_imprint same
  refine .bindOption h.queryChain.attempt ?_ fun query query' alike => .pure ?_
  · have empty : tables.isEmpty = tables'.isEmpty := by
      have length := congrArg List.length same
      cases tables <;> cases tables' <;> simp_all [imprint]
    rw [empty]
    cases tables'.isEmpty with
    | true => exact .giveUp
    | false =>
        refine .pure ?_
        simp only [imprint] at common
        simp [imprint, Query.commonMarks, Query.ownMarks, Query.joinedMarks, Query.outline,
          Node.marks, common]
  · have parts : query.commonMarks = query'.commonMarks ∧ query.ownMarks = query'.ownMarks ∧
        query.joinedMarks = query'.joinedMarks := by simpa [imprint] using alike
    exact Prod.ext common (Prod.ext parts.2.1 parts.2.2)

end LevelMatches

theorem levelMatches_self (n : Nat) : LevelMatches border (level n) (level n) := by
  induction n with
  | zero =>
      have deep {α β : Type} [Imprinting α β] (ends : Token → Bool) :
          Matches border (tooDeep ends : Parser α) (tooDeep ends) :=
        .ofLeft tooDeep_advances tooDeep_advances tooDeep_complains
      exact ⟨deep _, deep _, deep _, deep _, deep _⟩
  | succ n ih => exact ⟨ih.queryStatement, ih.tableSource, ih.disjunction, ih.negations, ih.signs⟩

/-- Whatever the levels, the same is found, unless something is wrong. -/
theorem levelMatches (m n : Nat) : LevelMatches border (level m) (level n) := by
  induction m generalizing n with
  | zero =>
      have deep {α β : Type} [Imprinting α β] (ends : Token → Bool) {p : Parser α}
          (self : Matches border p p) : Matches border (tooDeep ends) p :=
        .ofLeft tooDeep_advances self.right tooDeep_complains
      have self := @levelMatches_self border n
      exact ⟨deep _ self.query, deep _ self.source, deep _ self.expression, deep _ self.negation,
        deep _ self.signed⟩
  | succ m ih =>
      cases n with
      | zero =>
          have deep {α β : Type} [Imprinting α β] (ends : Token → Bool) {p : Parser α}
              (self : Matches border p p) : Matches border p (tooDeep ends) :=
            .ofRight self.left tooDeep_advances tooDeep_complains
          have self := @levelMatches_self border (m + 1)
          exact ⟨deep _ self.query, deep _ self.source, deep _ self.expression,
            deep _ self.negation, deep _ self.signed⟩
      | succ n =>
          have h := ih n
          exact ⟨h.queryStatement, h.tableSource, h.disjunction, h.negations, h.signs⟩

end QueryNames.Grammar.Parser
