import QueryNames.Proofs.Mention
import QueryNames.Proofs.Written.Source

/-!
Reading written table sources. Main statements: with `n` levels left, a parser reads whatever is
written with sources nested `n` levels deep at most; and the tables that a visit of them finds are
those written, in their order.
-/

namespace QueryNames.Grammar

/-! What may follow. -/

theorem endsTable_of_endsItem {t : Token} (ends : endsItem t = true) : endsTable t = true := by
  rw [endsTable, ends, Bool.true_or]

theorem kind_ne_of_endsTable {t : Token} {k : TokenKind} (ends : endsTable t = true)
    (other : endsTable ⟨k, "", .none⟩ = false) : t.kind ≠ k := by
  rintro rfl
  exact Bool.false_ne_true (other.symm.trans ends)

theorem Strength.stops_of_endsTable {s : Strength} {t : Token} (ends : endsTable t = true) :
    s.Stops t := by
  rw [endsTable, Bool.or_eq_true] at ends
  rcases ends with ends | ends
  · exact stops_of_endsItem ends
  · have loose : bindingRank t.kind = 8 := by
      split at ends
      · rename_i k is
        rw [is]
        cases k <;> first | rfl | cases ends
      · cases ends
    rw [Stops, loose]
    cases s <;> decide

theorem WrittenLabel.next {ls : List Token} {label : Option Identifier}
    (labelled : WrittenLabel ls label) {follow P : Token → Prop}
    (word : ∀ t, t.kind = .keyword .as ∨ t.kind = .identifier → P t)
    (rest : ∀ t, follow t → P t) : Next ls follow P := by
  cases labelled with
  | absent => exact rest
  | plain delimited => exact word _ (.inr (Token.kind_of_isDelimited delimited))
  | behindAs isAs => exact word _ (.inl isAs)

theorem WrittenJoin.endsTable {js : List Token} {kind : JoinKind} (joins : WrittenJoin js kind) :
    ∃ t us, js = t :: us ∧ endsTable t = true := by
  have ends {t : Token} {k : Keyword} (is : t.kind = .keyword k) (starts : k.startsJoin = true) :
      Grammar.endsTable t = true := by
    simp [Grammar.endsTable, is, starts]
  cases joins with
  | join isJoin => exact ⟨_, _, rfl, ends isJoin rfl⟩
  | inner is | cross is | crossApply is | outerApply is => exact ⟨_, _, rfl, ends is rfl⟩
  | outer isSide =>
      refine ⟨_, _, rfl, ?_⟩
      unfold outerSide? at isSide
      split at isSide <;> rename_i is
      · exact ends is rfl
      · exact ends is rfl
      · exact ends is rfl
      · cases isSide

namespace Parser

variable {inner : Level} {s : State} {ts ls : List Token} {name : QualifiedName}
  {label : Option Identifier} {follow : Token → Prop}

/-! Single tables. -/

theorem tableLabel_yields (labelled : WrittenLabel ls label) :
    Yields tableLabel ls label fun t => t.kind ≠ .keyword .as ∧ t.kind ≠ .identifier := by
  intro s follows
  cases labelled with
  | absent => exact tableLabel_absent rfl follows.1 follows.2
  | @plain t delimited =>
      have isName := Token.kind_of_isDelimited delimited
      have noAs : acceptKeyword .as (s.prepend [t]) = (some false, s.prepend [t]) :=
        acceptKeyword_absent isName nofun
      have noSample : t.isWord "TABLESAMPLE" = false :=
        Token.isWord_of_isDelimited delimited rfl (by decide)
      rw [tableLabel, bind_some noAs, if_neg Bool.false_ne_true, bind_check,
        State.current_prepend_cons, noSample, if_neg Bool.false_ne_true, attempt,
        identifier_prepend isName]
      rfl
  | @behindAs word t isAs delimited =>
      have read : attempt identifier (s.prepend [t]) = (some (some (.ofToken t)), s) := by
        rw [attempt, identifier_prepend (Token.kind_of_isDelimited delimited)]
        rfl
      rw [tableLabel, bind_some (acceptKeyword_prepend isAs), if_pos rfl, bind_some read]
      rfl

theorem table_named (named : WrittenName ts name) (labelled : WrittenLabel ls label) :
    Yields (table inner) (ts ++ ls) (.named ⟨name, label⟩) (endsTable ·) := by
  intro s ends
  have beforeLabel : Next ls (endsTable ·)
      fun t => t.kind ≠ .punctuation .period ∧ t.kind ≠ .punctuation .leftParen := by
    apply labelled.next
    · rintro t (is | is) <;>
      · rw [is]
        exact ⟨nofun, nofun⟩
    · exact fun t ends => ⟨kind_ne_of_endsTable ends rfl, kind_ne_of_endsTable ends rfl⟩
  have reads := (qualifiedName_yields named).before (beforeLabel.weaken fun _ => And.left) ends
  have noGroup := acceptPunctuation_absent rfl (beforeLabel.current ends).2
  have labels := tableLabel_yields labelled s
    ⟨kind_ne_of_endsTable ends rfl, kind_ne_of_endsTable ends rfl⟩
  have noHints : skipHints s = (some (), s) :=
    skipHints_absent rfl (kind_ne_of_endsTable ends rfl) (kind_ne_of_endsTable ends rfl)
  obtain ⟨t, us, rfl, delimited, -⟩ := named.begins
  rw [table, bind_current]
  simp only [List.cons_append, State.current_prepend_cons, Token.kind_of_isDelimited delimited]
  rw [namedSource, ← List.cons_append, bind_some reads, bind_some noGroup,
    if_neg Bool.false_ne_true, bind_some labels, bind_some noHints]
  rfl

theorem table_variable {t : Token} (is : t.kind = .variable) (labelled : WrittenLabel ls label) :
    Yields (table inner) (t :: ls) (.variable t.text label) (endsTable ·) := by
  intro s ends
  have labels := tableLabel_yields labelled s
    ⟨kind_ne_of_endsTable ends rfl, kind_ne_of_endsTable ends rfl⟩
  rw [table, bind_current]
  simp only [State.current_prepend_cons, is]
  rw [bind_some (advance_prepend (by simp [is])), bind_some labels]
  rfl

theorem endsItem_of_rightParen {t : Token} (closes : t.kind = .punctuation .rightParen) :
    endsItem t = true := (endsList_of_rightParen closes).1

theorem table_parenthesized {opening closing : Token} {source : TableSource}
    (opens : opening.kind = .punctuation .leftParen)
    (begins : ∃ t us, ts = t :: us ∧ BeginsSource t)
    (inside : Yields inner.source ts source (endsItem ·))
    (closes : closing.kind = .punctuation .rightParen) :
    Yields (table inner) (opening :: (ts ++ [closing])) (.parenthesized source) (endsTable ·) := by
  intro s ends
  have noQuery : (s.prepend (opening :: (ts ++ [closing]))).cursor.opensQuery = false := by
    obtain ⟨t, us, rfl, is⟩ := begins
    rcases is with is | is | is <;>
      simp [Cursor.opensQuery, isSelectOrWith, Token.isKeyword, is]
  have beforeEnd : Next [closing] (endsTable ·) (endsItem ·) := endsItem_of_rightParen closes
  rw [table, bind_current]
  simp only [State.current_prepend_cons, opens]
  rw [bind_look, noQuery, if_neg Bool.false_ne_true, parenthesizedSource,
    bind_some (advance_prepend (by simp [opens])),
    bind_some (inside.attempt.before beforeEnd ends), bind_some (closeParen_prepend closes)]
  rfl

theorem table_derived {opening first closing : Token} {q : Query} {label : Identifier}
    (opens : opening.kind = .punctuation .leftParen) (isSelect : first.kind = .keyword .select)
    (inside : Yields inner.query (first :: ts) q EndsQuery)
    (closes : closing.kind = .punctuation .rightParen) (labelled : WrittenLabel ls (some label)) :
    Yields (table inner) (opening :: (first :: ts ++ closing :: ls)) (.derived q (some label) [])
      (endsTable ·) := by
  intro s ends
  have isQuery :
      (s.prepend (opening :: (first :: ts ++ closing :: ls))).cursor.opensQuery = true := by
    simp [Cursor.opensQuery, isSelectOrWith, Token.isPunctuation, Token.isKeyword, opens, isSelect]
  have beforeEnd : Next (closing :: ls) (endsTable ·) EndsQuery := .inr closes
  have labels := tableLabel_yields labelled s
    ⟨kind_ne_of_endsTable ends rfl, kind_ne_of_endsTable ends rfl⟩
  have quiet : onlyIf (some label).isNone (reportMissing .derivedTableLabel) s = (some none, s) :=
    rfl
  have noColumns : columnNames s = (some [], s) := by
    have noGroup : s.cursor.current.isPunctuation .leftParen = false := by
      simpa [Token.isPunctuation] using kind_ne_of_endsTable ends rfl
    rw [columnNames, bind_check, noGroup]
    rfl
  rw [table, bind_current]
  simp only [State.current_prepend_cons, opens]
  rw [bind_look, isQuery, if_pos rfl, derivedTable,
    bind_some (advance_prepend (by simp [opens])),
    bind_some (inside.attempt.before beforeEnd ends), bind_some (closeParen_prepend closes),
    bind_some labels, bind_some quiet, bind_some noColumns]
  rfl

/-! Joins. -/

section Joins

variable {kind : JoinKind} {js rs : List Token} {left right : TableSource}

/-- A join told by its first word, with `JOIN` behind it. -/
theorem joinOperator?_words {side join : Token} {k : Keyword} {os : List Token} {outer : Bool}
    (isSide : side.kind = .keyword k) (other : k ≠ .join)
    (known : ∀ next : Token, next.kind ≠ .identifier → joinKind? side next = some kind)
    (noApply : (kind == .crossApply || kind == .outerApply) = false)
    (flag : WrittenFlag .outer os outer) (isJoin : join.kind = .keyword .join) :
    Yields joinOperator? (side :: (os ++ [join])) (some kind) follow := by
  intro s follows
  have noWord : Next (os ++ [join]) follow (·.kind ≠ .identifier) := by
    cases flag with
    | absent =>
        show join.kind ≠ _
        simp [isJoin]
    | @present t isOuter =>
        show t.kind ≠ _
        simp [isOuter]
  have noOuter : Next [join] follow (·.kind ≠ .keyword .outer) := by
    show join.kind ≠ _
    simp [isJoin]
  have noHint : accept isJoinHint (s.prepend [join]) = (some false, s.prepend [join]) := by
    apply accept_absent
    simp [isJoinHint, Token.isKeyword, Token.isWord, isJoin]
  have noJoin : acceptKeyword .join (s.prepend (side :: (os ++ [join]))) =
      (some false, s.prepend (side :: (os ++ [join]))) :=
    acceptKeyword_absent isSide (by simpa using other)
  have found : succeeds (requireKeyword .join) (s.prepend [join]) = (some true, s) := by
    have required : attempt (requireKeyword .join) (s.prepend [join]) = (some (some ()), s) := by
      rw [attempt, requireKeyword_prepend isJoin]
      rfl
    rw [succeeds, bind_some required]
    rfl
  rw [joinOperator?, bind_current, bind_peek]
  simp only [State.current_prepend_cons, State.peek_prepend_cons, known _ (noWord.current follows)]
  rw [noApply, if_neg Bool.false_ne_true, bind_some noJoin, if_neg Bool.false_ne_true,
    bind_some (advance_prepend (by simp [isSide])),
    bind_some (acceptKeyword_flag flag noOuter follows), bind_some noHint, bind_some found]
  rfl

theorem joinOperator?_apply {side apply : Token} {k : Keyword} (isSide : side.kind = .keyword k)
    (known : joinKind? side apply = some kind)
    (applies : (kind == .crossApply || kind == .outerApply) = true)
    (isApply : apply.isWord "APPLY" = true) :
    Yields joinOperator? [side, apply] (some kind) follow := by
  intro s _
  have isName := Token.kind_of_isWord isApply
  rw [joinOperator?, bind_current, bind_peek]
  simp only [State.current_prepend_cons, State.peek_prepend_cons, known]
  rw [applies, if_pos rfl, bind_some (advance_prepend (by simp [isSide])),
    bind_some (advance_prepend (by simp [isName]))]
  rfl

theorem joinOperator?_yields (joins : WrittenJoin js kind) :
    Yields joinOperator? js (some kind) follow := by
  have noWord {next : Token} (noName : next.kind ≠ .identifier) : next.isWord "APPLY" = false := by
    simp [Token.isWord, noName]
  cases joins with
  | @join join isJoin =>
      intro s _
      have known (next : Token) : joinKind? join next = some .inner := by rw [joinKind?, isJoin]
      rw [joinOperator?, bind_current, bind_peek]
      simp only [State.current_prepend_cons, known]
      rw [if_neg (by decide), bind_some (acceptKeyword_prepend isJoin)]
      rfl
  | inner isInner isJoin =>
      have words := @joinOperator?_words follow _ _ _ _ [] _ isInner (by decide)
        (fun _ _ => by rw [joinKind?, isInner]) rfl .absent isJoin
      exact words
  | @cross side join isCross isJoin =>
      have known (next : Token) (noName : next.kind ≠ .identifier) :
          joinKind? side next = some .cross := by
        rw [joinKind?, isCross]
        simp only [noWord noName, Bool.false_eq_true, if_false]
      have words := @joinOperator?_words follow _ _ _ _ [] _ isCross (by decide) known rfl .absent
        isJoin
      exact words
  | @outer side _ _ _ _ isSide flag isJoin =>
      unfold outerSide? at isSide
      split at isSide
      all_goals
        rename_i is
        cases isSide
      · exact joinOperator?_words is (by decide) (fun _ _ => by rw [joinKind?, is]) rfl flag isJoin
      · exact joinOperator?_words is (by decide) (fun _ _ => by rw [joinKind?, is]) rfl flag isJoin
      · exact joinOperator?_words is (by decide) (fun _ _ => by rw [joinKind?, is]) rfl flag isJoin
  | crossApply isCross isApply =>
      exact joinOperator?_apply isCross (by rw [joinKind?, isCross]; simp [isApply]) rfl isApply
  | outerApply isOuter isApply =>
      exact joinOperator?_apply isOuter (by rw [joinKind?, isOuter]; simp [isApply]) rfl isApply

theorem joinOperator?_prepend (joins : WrittenJoin js kind) :
    joinOperator? (s.prepend (js ++ rs)) = (some (some kind), s.prepend rs) := by
  have reads : Yields joinOperator? js (some kind) fun _ => True := joinOperator?_yields joins
  rw [← State.prepend_prepend]
  exact reads _ trivial

/-- A join is one more round, with what is found behind its table. -/
theorem iterate_join_round {behind : State} {condition : Option Expression}
    (joins : WrittenJoin js kind)
    (back : attempt (table inner) (s.prepend rs) = (some (some right), behind))
    (asked : joinCondition inner kind behind = (some condition, s)) :
    iterate (join inner) left (s.prepend (js ++ rs)) =
      iterate (join inner) (.joined left right kind condition) s := by
  have shorter : s.remaining < (s.prepend (js ++ rs)).remaining := by
    obtain ⟨t, us, rfl, -⟩ := joins.endsTable
    exact State.remaining_lt_prepend (List.cons_ne_nil t _)
  refine iterate_more ?_ shorter
  rw [join, bind_some (joinOperator?_prepend joins)]
  dsimp only
  rw [bind_some back]
  dsimp only
  rw [bind_some asked]
  rfl

/-- A join without a condition is one more round. -/
theorem iterate_join_free (joins : WrittenJoin js kind)
    (back : Yields (table inner) rs right (endsTable ·)) (free : isConditional kind = false)
    (ends : endsTable s.cursor.current = true) :
    iterate (join inner) left (s.prepend (js ++ rs)) =
      iterate (join inner) (.joined left right kind none) s := by
  have noCondition : joinCondition inner kind s = (some none, s) := by
    cases kind <;> first | rfl | cases free
  exact iterate_join_round joins (back.attempt s ends) noCondition

/-- A join with its condition is one more round. -/
theorem iterate_join_bound {on : Token} {cs : List Token} {condition : Expression}
    (joins : WrittenJoin js kind) (back : Yields (table inner) rs right (endsTable ·))
    (bound : isConditional kind = true) (isOn : on.kind = .keyword .on)
    (asked : Yields inner.expression cs condition Strength.disjunction.Stops)
    (ends : endsTable s.cursor.current = true) :
    iterate (join inner) left (s.prepend (js ++ (rs ++ on :: cs))) =
      iterate (join inner) (.joined left right kind (some condition)) s := by
  have beforeOn : Next (on :: cs) (endsTable ·) (endsTable ·) := by
    show endsTable on = true
    simp [endsTable, isOn]
  have conditional : joinCondition inner kind (s.prepend (on :: cs)) =
      (some (some condition), s) := by
    have found : succeeds (requireKeyword .on) (s.prepend (on :: cs)) =
        (some true, s.prepend cs) := by
      have required : attempt (requireKeyword .on) (s.prepend (on :: cs)) =
          (some (some ()), s.prepend cs) := by
        rw [attempt, requireKeyword_prepend isOn]
      rw [succeeds, bind_some required]
      rfl
    have quiet : onlyIf (some condition).isNone (skipUntil endsTable) s = (some none, s) := rfl
    have plain : (kind == .cross || kind == .crossApply || kind == .outerApply) = false := by
      cases kind <;> first | rfl | cases bound
    rw [joinCondition, plain, if_neg Bool.false_ne_true, bind_some found, if_pos rfl,
      bind_some (asked.attempt s (Strength.stops_of_endsTable ends)), bind_some quiet]
    rfl
  exact iterate_join_round joins (back.attempt.before beforeOn ends) conditional

theorem iterate_join_stop (ends : endsItem s.cursor.current = true) :
    iterate (join inner) left s = (some left, s) := by
  have noJoin : joinKind? s.cursor.current (s.cursor.peek 1) = none := by
    unfold joinKind?
    split
    all_goals first | rfl | exact absurd ‹_› (kind_ne_of_endsItem ends rfl)
  have noOperator : joinOperator? s = (some none, s) := by
    rw [joinOperator?, bind_current, bind_peek, noJoin]
    rfl
  apply iterate_stop
  rw [join, bind_some noOperator]
  rfl

end Joins

end Parser

open Grammar.Parser

/-- The parsers with `n` levels left read the tokens of a source; one that may go on with a join is
read up to there. -/
def SourcePart.Yields (n : Nat) : (part : SourcePart) → List Token → part.Tree → Prop
  | .table, ts, tree => Parser.Yields (Parser.table (level n)) ts tree (endsTable ·)
  | .source, ts, tree =>
      ∀ s : State, endsTable s.cursor.current = true →
        tableSource (level n) (s.prepend ts) = iterate (join (level n)) tree s
  | .list, ts, sources => Parser.Yields (sourceList (level n)) ts sources EndsList

variable {n : Nat} {ts : List Token} {names : List String}

theorem SourcePart.Yields.source {source : TableSource}
    (yields : SourcePart.Yields n .source ts source) :
    Parser.Yields (tableSource (level n)) ts source (endsItem ·) := by
  intro s ends
  rw [yields s (endsTable_of_endsItem ends), iterate_join_stop ends]

theorem WrittenSource.yields {part : SourcePart} {tree : part.Tree}
    (written : WrittenSource n part ts tree names) : part.Yields n ts tree := by
  induction written with
  | named named labelled => exact table_named named labelled
  | «variable» is labelled => exact table_variable is labelled
  | @parenthesized n _ _ _ _ _ opens inside closes ih =>
      have reads : Parser.Yields (level (n + 1)).source _ _ (endsItem ·) := ih.source
      exact table_parenthesized opens inside.begins reads closes
  | @derived n opening first star middle ss _ _ _ _ _ opens isSelect isStar isFrom inside closes
      labelled ih =>
      apply table_derived opens isSelect _ closes labelled
      apply queryStatement_yields isSelect _ rfl
      have plain : BeginsItems star := by simp [BeginsItems, endsClause, isStar]
      have whole := @selectQuery_yields (level n) first middle [star] ss [] _ _ _ isSelect plain
        (commaList_one (selectItem_star isStar)) isFrom ih .absent
      rwa [List.append_nil] at whole
  | single table ih =>
      intro s ends
      exact bind_some (ih s ends)
  | joined front joins back free left right =>
      intro s ends
      obtain ⟨t, us, rfl, isJoin⟩ := joins.endsTable
      rw [← State.prepend_prepend, left _ isJoin, iterate_join_free joins right free ends]
  | joinedOn front joins back bound isOn asked left right =>
      intro s ends
      obtain ⟨t, us, rfl, isJoin⟩ := joins.endsTable
      rw [← State.prepend_prepend, left _ isJoin,
        iterate_join_bound joins right bound isOn asked.expression ends]
  | last written ih => exact commaList_one ih.source
  | item written isComma rest ih ih' => exact commaList_cons isComma ih.source ih'

end QueryNames.Grammar
