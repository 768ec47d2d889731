import Mathlib.Data.List.Infix
import QueryNames.Proofs.Blame.Grammar
import QueryNames.Proofs.Depth.Query
import QueryNames.Proofs.Reading.Query
import QueryNames.Proofs.UnbalancedGroups

/-!
Recovery from a bad select item. Main statement: whatever stands between `SELECT` and `FROM`, if it
could be one item by its parentheses and separators, the `FROM` clause behind it is read, unless a
cast is read in it that is not complete.
-/

namespace QueryNames

namespace Grammar

/-- Inside of `depth` groups, all of which are closed, nothing but parentheses ends a list item
outside of all groups, and nothing ends the batch. -/
def fillsItem (depth : Nat) : List Token → Bool
  | [] => depth == 0
  | t :: ts =>
      if t.isPunctuation .leftParen then fillsItem (depth + 1) ts
      else if t.isPunctuation .rightParen then
        match depth with
        | 0 => false
        | outer + 1 => fillsItem outer ts
      else (depth != 0 || !endsItem t) && !t.endsBatch && fillsItem depth ts

def holdsCast : List Token → Bool
  | [] => false
  | t :: ts => opensCast (t :: ts) || holdsCast ts

/-- Whether the query that begins the tokens goes on to their end. -/
def readsToEnd (tokens : List Token) : Bool :=
  ((level nestingLimit).query ⟨.ofTokens tokens, []⟩).2.cursor.isAtEnd

/-- Wherever the query that begins the tokens reads a cast, all that the cast needs stands behind
its opening parenthesis. -/
def CastsComplete (tokens : List Token) : Prop :=
  Parser.Throughout Parser.Cast.production
    (fun cast t => opensCast t.cursor.tokens = true → cast.Complete t)
    (level nestingLimit).query ⟨.ofTokens tokens, []⟩

/-- The stretch of an item before `from_ table`. -/
def Stretch.ofItem (sound : Prop) {from_ stop : Token} (table : Token)
    (isFrom : from_.kind = .keyword .from) (isStop : stop.kind = .endOfInput) : Stretch where
  sound := sound
  grouped := False
  first := from_
  behind := [table, stop]
  isFrom _ := isFrom
  closed := closed_concat [from_, table] (by simp [Token.isEnd, isStop])

/-- The stretch ends with the clause `FROM table`. -/
structure Stretch.Before (stretch : Stretch) (table stop : Token) : Prop where
  bare : ¬stretch.grouped
  behind : stretch.behind = [table, stop]

theorem holdsCast_append {ts : List Token} {from_ : Token} {behind : List Token}
    (isFrom : from_.kind = .keyword .from) (none : holdsCast ts = false)
    (noneBehind : holdsCast behind = false) : holdsCast (ts ++ from_ :: behind) = false := by
  induction ts with
  | nil =>
      have noName : from_.namesCast = false := by
        simp [Token.namesCast, Token.isKeyword, Token.isPlainName, isFrom]
      cases behind <;> simp_all [holdsCast, opensCast]
  | cons t ts ih =>
      simp only [holdsCast, Bool.or_eq_false_iff] at none
      rw [List.cons_append, holdsCast, ih none.2, Bool.or_false]
      cases ts with
      | nil => simp [opensCast, Token.isPunctuation, isFrom]
      | cons next ts => exact none.1

theorem opensCast_of_suffix {ts us : List Token} (none : holdsCast us = false)
    (suffix : ts <:+ us) : opensCast ts = false := by
  induction us with
  | nil =>
      rw [List.suffix_nil.1 suffix]
      rfl
  | cons u us ih =>
      simp only [holdsCast, Bool.or_eq_false_iff] at none
      rcases List.suffix_cons_iff.1 suffix with rfl | further
      · exact none.1
      · exact ih none.2 further

theorem inside_of_fillsItem {stretch : Stretch} {depth : Nat} {ts : List Token}
    (fills : fillsItem depth ts = true) :
    Inside stretch depth (ts ++ stretch.first :: stretch.behind) := by
  induction ts generalizing depth with
  | nil =>
      obtain rfl : depth = 0 := by simpa [fillsItem] using fills
      exact .last
  | cons t ts ih =>
      unfold fillsItem at fills
      split at fills
      · rename_i opens
        exact .opening (Token.isPunctuation_iff.1 opens) (ih fills)
      · rename_i noOpening
        split at fills
        · rename_i closes
          cases depth with
          | zero => contradiction
          | succ outer =>
              exact .closing (Token.isPunctuation_iff.1 closes) (ih fills)
        · rename_i noClosing
          simp only [Bool.and_eq_true] at fills
          obtain ⟨⟨stays, open_⟩, fills⟩ := fills
          refine .other ?_ ?_ ?_ (ih fills)
          · simp [Token.isParen, noOpening, noClosing]
          · simp only [Token.endsBatch, Bool.not_eq_true', Bool.or_eq_false_iff] at open_
            exact open_.2
          · rintro rfl
            simpa using stays

namespace Parser

variable {stretch : Stretch} {E : State → Prop}

/-- Inside of a group that a cast left open. -/
def Lost (stretch : Stretch) (s : State) : Prop := ¬stretch.sound ∧ Within stretch 1 s

theorem within_triple {p : Parser α} [Total p] (keeps : Keeps stretch 0 p) :
    DepthTriple stretch (Within stretch 0) p (fun _ => Within stretch 0) E :=
  .ofTotal ((keeps 0 (Nat.le_refl 0)).weaken (fun _ start => ⟨start, trivial⟩) (fun _ _ => id)
    (fun _ => id))

theorem lost_triple {p : Parser α} [Total p] (keeps : Keeps stretch 1 p) :
    DepthTriple stretch (Lost stretch) p (fun _ => Lost stretch) E := by
  refine .ofTotal (E := fun _ => True) ⟨keeps.stepwise, ?_⟩
  rintro s ⟨⟨unsound, within⟩, guarded⟩
  have result := (keeps 1 (Nat.le_refl 1)).holds s ⟨⟨within, trivial⟩, guarded⟩
  rcases run : p s with ⟨_ | a, s'⟩
  · trivial
  · rw [run] at result
    exact ⟨unsound, result⟩

theorem remaining_advance_lt {depth : Nat} {s origin : State} (within : Within stretch depth s)
    (forward : s.cursor.tokens <:+ origin.cursor.tokens) :
    ({ s with cursor := s.cursor.advance } : State).remaining < origin.remaining := by
  have step : s.cursor.advance.ahead.length + 1 = s.cursor.ahead.length := by
    rw [← within.tokens_advance]
    rfl
  have shorter : s.cursor.ahead.length + 1 ≤ origin.cursor.ahead.length + 1 := forward.length_le
  simp only [State.remaining, Cursor.remaining]
  omega

/-- An item ends at what ends items, or a comma is passed. -/
theorem finishItem_endsItem {parsed : Bool} {origin : State} :
    DepthTriple stretch (fun s => Within stretch 0 s ∧ s.cursor.tokens <:+ origin.cursor.tokens)
      (finishItem endsItem parsed)
      (fun more s => if more = true then Within stretch 0 s ∧ s.remaining < origin.remaining
        else Within stretch 0 s ∧ endsItem s.cursor.current = true) E := by
  let Onward (s : State) : Prop :=
    Within stretch 0 s ∧ s.cursor.tokens <:+ origin.cursor.tokens
  refine .bind (Q := fun _ => Onward) (.look fun _ => id) fun t =>
    .bind (Q := fun _ => Onward) ?_ fun _ =>
      .bind (Q := fun _ s => Onward s ∧ endsItem s.cursor.current = true) (.of (.move ?_)) fun _ =>
        .accept ?_ ?_
  · exact .onlyIf (fun _ => .bind (Q := fun _ => Onward) (.look fun _ => id) fun _ =>
      .report fun _ _ onward _ => onward) fun _ _ => id
  · rintro s ⟨within, forward⟩
    have stops (t : Token) (kind : t.kind = .keyword .from) : endsItem t = true :=
      KeepsFrom.endsItem_of_from kind
    refine ⟨⟨within.skipUntil fun _ => stops, ?_⟩, ?_⟩
    · exact (Cursor.skipUntil_suffix _ _).trans forward
    · have stopped := within.elim fun _ deep inside =>
        Cursor.skipUntil_stops deep inside fun _ => stops
      rcases stopped with ends | closes
      · exact ends
      · simp [endsItem, endsClause, closes]
  · rintro s ⟨⟨within, forward⟩, -⟩ comma
    have kind : s.cursor.current.kind = .punctuation .comma :=
      Token.isPunctuation_iff.1 comma
    refine ⟨within.pass (isParen_eq_false kind rfl) (by simp [kind]), ?_⟩
    exact remaining_advance_lt within forward
  · exact fun s ends _ => ⟨ends.1.1, ends.2⟩

/-- A list ends at what ends its items. -/
theorem commaList_endsItem {item : Parser α} (keeps : Keeps stretch 0 item) :
    DepthTriple stretch (Within stretch 0) (commaList endsItem item)
      (fun _ s => Within stretch 0 s ∧ endsItem s.cursor.current = true) E := by
  have stepwise := keeps.stepwise
  refine GuardedTriple.collectLast fun origin start => ?_
  refine .bind (Q := fun _ s => Within stretch 0 s ∧ s.cursor.tokens <:+ origin.cursor.tokens)
    (.attempt ⟨stepwise, ?_⟩) fun item? => .bind finishItem_endsItem fun more => .pure fun _ => id
  rintro s ⟨rfl, guarded⟩
  have kept := (keeps 0 (Nat.le_refl 0)).holds s ⟨⟨start, trivial⟩, guarded⟩
  rcases run : item s with ⟨_ | a, s'⟩ <;> rw [run] at kept
  · exact ⟨kept, Stepwise.suffix_of_run run⟩
  · exact ⟨kept, Stepwise.suffix_of_run run⟩

theorem selectList_endsItem (n : Nat) :
    DepthTriple stretch (Within stretch 0) (selectList (level n))
      (fun _ s => Within stretch 0 s ∧ endsItem s.cursor.current = true) E := by
  refine .bind (Q := fun empty s => Within stretch 0 s ∧ endsClause s.cursor.current = empty)
    (.look fun s within => ⟨within, rfl⟩) fun empty => ?_
  cases empty with
  | true =>
      refine .bind (Q := fun _ s => Within stretch 0 s ∧ endsItem s.cursor.current = true) ?_
        fun _ => .pure fun _ => id
      refine .bind (Q := fun _ s => Within stretch 0 s ∧ endsItem s.cursor.current = true)
        (.look fun s ends => ⟨ends.1, ?_⟩) fun t => .report fun _ _ ends _ => ends
      simp [endsItem, ends.2]
  | false =>
      exact (commaList_endsItem (levelKeeps n).selectItem).weaken (fun _ start => start.1)
        (fun _ _ => id) (fun _ => id)

/-- Behind the select list the stretch is passed, or a cast has left a group open. -/
theorem arrived_or_lost {s : State} (within : Within stretch 0 s)
    (ends : endsItem s.cursor.current = true) :
    s.cursor.tokens = stretch.first :: stretch.behind ∨ Lost stretch s := by
  obtain ⟨-, actual, -, inside, exact_⟩ := within
  cases actual with
  | zero => exact .inl (inside.last_of_endsItem ends)
  | succ outer =>
      have unsound : ¬stretch.sound := fun sound => nomatch exact_ sound
      exact .inr ⟨unsound, fun _ => Nat.one_ne_zero, outer + 1, by omega, inside,
        fun sound => absurd sound unsound⟩

/-! Casts that are complete. -/

/-- Where no parenthesis is ahead, a type is read with all that belongs to it. -/
theorem readsType_of_plain {s s' : State} {type : String}
    (plain : ∀ t ∈ s.cursor.tokens, t.isPunctuation .leftParen = false)
    (run : dataType s = (some type, s')) : ReadsType s s' := by
  refine ⟨⟨type, run⟩, ?_⟩
  obtain ⟨name, s₁, named, rest⟩ := exists_of_bind run
  obtain ⟨opens, s₂, accepted, last⟩ := exists_of_bind (p := acceptPunctuation .leftParen) rest
  have suffix : s₁.cursor.tokens <:+ s.cursor.tokens := Stepwise.suffix_of_run named
  have none_ : s₁.cursor.current.isPunctuation .leftParen = false :=
    plain _ (suffix.subset List.mem_cons_self)
  obtain ⟨known, -, stays⟩ := accept_eq_some accepted
  obtain rfl : opens = false := known.symm.trans none_
  obtain rfl := stays rfl
  cases last
  rw [named, Cursor.skipParenthesized, if_neg (by simp [none_])]

/-- A cast that is not complained of is complete, if no parenthesis opens behind its own. -/
theorem Cast.complete_of_unblamed {cast : Cast} {s : State}
    (unblamed : ¬(cast.production s).2.Blames s.cursor.tokens)
    (plain : ∀ t ∈ s.cursor.advance.advance.tokens, t.isPunctuation .leftParen = false) :
    cast.Complete s := by
  obtain ⟨e, s', run⟩ : ∃ e s', cast.production s = (some e, s') := by
    have answers : Answers cast.production := by
      cases cast with
      | as n => exact inferInstanceAs (Answers (castExpression (level n)))
      | comma n => exact inferInstanceAs (Answers (convertExpression (level n)))
    rcases run : cast.production s with ⟨_ | e, s'⟩
    · rw [run] at unblamed
      exact absurd (answers.blames run) unblamed
    · exact ⟨e, s', rfl⟩
  have behind {s₁ : State} (suffix : s₁.cursor.tokens <:+ s.cursor.advance.advance.tokens) :
      ∀ t ∈ s₁.cursor.tokens, t.isPunctuation .leftParen = false :=
    fun t member => plain t (suffix.subset member)
  cases cast with
  | as n =>
      obtain ⟨u, s₁, first, run⟩ := exists_of_bind run
      obtain ⟨u, s₂, second, run⟩ := exists_of_bind run
      cases first
      cases second
      obtain ⟨e, s₃, reads, run⟩ := exists_of_bind run
      obtain ⟨u, s₄, required, run⟩ := exists_of_bind run
      obtain ⟨isAs, rfl⟩ := required_eq_some required
      obtain ⟨type, s₅, typed, -⟩ := exists_of_bind run
      refine ⟨e, s₃, reads, Token.isKeyword_iff.1 isAs, s₅, readsType_of_plain ?_ typed⟩
      exact behind ((Cursor.advance_suffix _).trans (Stepwise.suffix_of_run reads))
  | comma n =>
      obtain ⟨u, s₁, first, run⟩ := exists_of_bind run
      obtain ⟨u, s₂, required, run⟩ := exists_of_bind run
      cases first
      obtain ⟨opens, rfl⟩ := required_eq_some required
      obtain ⟨type, s₃, typed, run⟩ := exists_of_bind run
      obtain ⟨u, s₄, required, run⟩ := exists_of_bind run
      obtain ⟨isComma, rfl⟩ := required_eq_some required
      obtain ⟨e, s₅, reads, run⟩ := exists_of_bind run
      obtain ⟨more, s₆, accepted, run⟩ := exists_of_bind run
      obtain ⟨style?, s₇, styled, -⟩ := exists_of_bind run
      refine ⟨s₃, readsType_of_plain (behind List.suffix_rfl) typed,
        Token.isPunctuation_iff.1 isComma, e, s₅, reads, fun again => ?_⟩
      obtain ⟨known, moves, -⟩ := accept_eq_some accepted
      obtain rfl : more = true := known.symm.trans (Token.isPunctuation_iff.2 again)
      obtain rfl := moves rfl
      rw [requiredIf, if_pos rfl, ← bind_pure_comp] at styled
      obtain ⟨style, s₈, reads, -⟩ := exists_of_bind styled
      exact ⟨style, s₈, reads⟩

/-! The clauses behind the select list. -/

/-- The sources are as expected and nothing is left, or a cast has left a group open. -/
def Settled (stretch : Stretch) (stop : Token) (expected sources : List TableSource) (s : State) :
    Prop :=
  (sources = expected ∧ s.cursor = ⟨stop, []⟩) ∨ Lost stretch s

variable {stop : Token} {expected sources : List TableSource}

/-- A clause that is not there at the end of the input changes nothing. -/
theorem settled_triple {p : Parser α} [Total p] {a : α} (isStop : stop.kind = .endOfInput)
    (absent : ∀ s, s.cursor.current.kind = .endOfInput → p s = (some a, s))
    (keeps : Keeps stretch 1 p) :
    DepthTriple stretch (Settled stretch stop expected sources) p
      (fun _ => Settled stretch stop expected sources) E := by
  have stepwise := keeps.stepwise
  refine .or (.of (.of_run fun s start => ?_)) (lost_triple keeps)
  refine ⟨a, s, absent s ?_, start⟩
  rw [start.2]
  exact isStop

theorem fromClause_settled {table : Token} (n : Nat) (isTable : table.kind = .identifier)
    (isStop : stop.kind = .endOfInput) (before : stretch.Before table stop) :
    DepthTriple stretch
      (fun s => s.cursor.tokens = stretch.first :: stretch.behind ∨ Lost stretch s)
      (fromClause (level n))
      (fun sources => Settled stretch stop [.named ⟨⟨.ofToken table, []⟩, none⟩] sources) E := by
  refine .or (.of (.of_run fun s start => ?_)) (lost_triple (levelKeeps n).fromClause)
  obtain ⟨⟨current, ahead⟩, reported⟩ := s
  obtain ⟨rfl, rfl⟩ : current = stretch.first ∧ ahead = [table, stop] := by
    simpa [Cursor.tokens, before.behind] using start
  have isFrom := stretch.isFrom before.bare
  have accepted : acceptKeyword .from ⟨⟨stretch.first, [table, stop]⟩, reported⟩ =
      (some true, ⟨⟨table, [stop]⟩, reported⟩) := by
    rw [acceptKeyword, accept_present (by simp [Token.isKeyword, isFrom])]
    simp [Cursor.advance, Cursor.isAtEnd, Token.isEnd, isFrom]
  refine ⟨_, ⟨⟨stop, []⟩, reported⟩, ?_, rfl, rfl⟩
  rw [fromClause, bind_some accepted, if_pos rfl]
  exact sourceList_last isTable isStop

/-- The state before a select item that fills the stretch. -/
def Begins (stretch : Stretch) (s : State) : Prop :=
  s.cursor.current.kind = .keyword .select ∧ Inside stretch 0 s.cursor.ahead

theorem advance_begins (bare : ¬stretch.grouped) {s : State} (begins : Begins stretch s) :
    Within stretch 0 { s with cursor := s.cursor.advance } := by
  refine .of_inside (fun grouped => absurd grouped bare) ?_
  obtain ⟨⟨select, ahead⟩, reported⟩ := s
  obtain ⟨isSelect, inside⟩ := begins
  cases ahead with
  | nil => exact absurd rfl inside.ne_nil
  | cons t ts =>
      have goesOn : Cursor.isAtEnd ⟨select, t :: ts⟩ = false :=
        Cursor.isAtEnd_eq_false isSelect nofun
      simpa [Cursor.advance, goesOn, Cursor.tokens] using inside

theorem selectQuery_settled {table : Token} (n : Nat) (isTable : table.kind = .identifier)
    (isStop : stop.kind = .endOfInput) (before : stretch.Before table stop) :
    DepthTriple stretch (Begins stretch) (selectQuery (level n))
      (fun query => Settled stretch stop [.named ⟨⟨.ofToken table, []⟩, none⟩] query.sources)
      E := by
  have keeps : LevelKeeps stretch (level n) := levelKeeps n
  refine .bind (Q := fun _ => Begins stretch) (.look fun _ => id) fun location => ?_
  refine .bind (Q := fun _ => Within stretch 0) (.of (.move fun s => advance_begins before.bare))
    fun _ => ?_
  refine .bind (within_triple (.acceptKeyword nofun)) fun distinct => ?_
  refine .bind (within_triple (.onlyIf (.acceptKeyword nofun))) fun _ => ?_
  refine .bind (Q := fun limited s => Within stretch 0 s ∧
    s.cursor.current.isKeyword .top = limited) (.look fun s within => ⟨within, rfl⟩)
    fun limited => ?_
  refine .bind (Q := fun _ => Within stretch 0) (.ofTotal (E := Within stretch 0) ?_)
    fun top? => ?_
  · refine KeepsFrom.onlyWhen (A := fun c => c.current.isKeyword .top = limited)
      (fun yes => keeps.top.weaken fun c start => ?_) 0 (Nat.le_refl 0)
    rw [yes] at start
    exact Token.isKeyword_iff.1 start
  refine .bind (selectList_endsItem n) fun items => ?_
  refine .bind (Q := fun _ s => s.cursor.tokens = stretch.first :: stretch.behind ∨ Lost stretch s)
    ?_ fun into => ?_
  · refine (GuardedTriple.or (.of (.of_run fun s start => ?_)) (lost_triple .intoClause)).weaken
      (fun s start => arrived_or_lost start.1 start.2) (fun _ _ => id) (fun _ => id)
    have kind : s.cursor.current.kind = .keyword .from := by
      rw [(List.cons.inj start).1]
      exact stretch.isFrom before.bare
    exact ⟨none, s, intoClause_absent kind nofun, start⟩
  refine .bind (fromClause_settled n isTable isStop before) fun sources => ?_
  refine .bind (settled_triple isStop (fun s kind => expressionClause_absent kind nofun)
    (keeps.expressionClause nofun)) fun condition => ?_
  refine .bind (settled_triple isStop (fun s kind => groupClause_absent kind nofun)
    keeps.groupClause) fun groupBy => ?_
  refine .bind (settled_triple isStop (fun s kind => expressionClause_absent kind nofun)
    (keeps.expressionClause nofun)) fun having => ?_
  refine .bind (settled_triple isStop (fun s kind => orderClause_absent kind nofun)
    keeps.orderClause) fun orderBy => ?_
  exact .bind (settled_triple isStop (fun s kind => skipOptions_absent kind nofun nofun)
    .skipOptions) fun _ => .pure fun _ => id

/-! The query. -/

theorem queryTerm_settled {table : Token} (n : Nat) (isTable : table.kind = .identifier)
    (isStop : stop.kind = .endOfInput) (before : stretch.Before table stop) {s : State}
    (begins : Begins stretch s)
    (guarded : Throughout Cast.production (CompleteIn stretch) (queryTerm (level n)) s) :
    ∃ query s', queryTerm (level n) s = (some query, s') ∧
      Settled stretch stop [.named ⟨⟨.ofToken table, []⟩, none⟩] query.sources s' := by
  have select : check (·.isKeyword .select) s = (some true, s) := by
    simp [check, look, Token.isKeyword, begins.1]
  obtain ⟨query, s', run⟩ := Total.result (p := selectQuery (level n)) s
  refine ⟨query, s', ?_, ?_⟩
  · rw [queryTerm, bind_some select, if_pos rfl, run]
  · have guarded := guarded.next select
    rw [if_pos rfl] at guarded
    exact (selectQuery_settled (E := fun _ => True) n isTable isStop before).holds.of_result
      ⟨begins, guarded⟩ run

/-- A set operation behind the query leaves its sources. -/
theorem queryChain_settled {table : Token} (n : Nat) (isTable : table.kind = .identifier)
    (isStop : stop.kind = .endOfInput) (before : stretch.Before table stop) {s : State}
    (begins : Begins stretch s)
    (guarded : Throughout Cast.production (CompleteIn stretch) (queryChain (level n)) s) :
    ∃ query s', queryChain (level n) s = (some query, s') ∧
      Settled stretch stop [.named ⟨⟨.ofToken table, []⟩, none⟩] query.sources s' := by
  obtain ⟨query, s', term, settled⟩ :=
    queryTerm_settled n isTable isStop before begins guarded.operand
  obtain ⟨op?, s'', operator⟩ := Total.result (p := setOperator?) s'
  have lost (isLost : Lost stretch s') : Lost stretch s'' :=
    (lost_triple (E := fun _ => True) .setOperator?).holds.of_result
      ⟨isLost, guarded.operator term⟩ operator
  rcases settled with ⟨same, last⟩ | isLost
  · have atEnd : s'.cursor.current.kind = .endOfInput := by
      rw [last]
      exact isStop
    have absent := setOperator?_end atEnd
    exact ⟨query, s', chainRight_stop term absent nofun, .inl ⟨same, last⟩⟩
  · cases op? with
    | none => exact ⟨query, s'', chainRight_stop term operator nofun, .inr (lost isLost)⟩
    | some op =>
        by_cases shorter : s''.remaining < s.remaining
        · have right := ((levelKeeps n).queryChain 1 (Nat.le_refl 1)).holds.ends
            ⟨⟨(lost isLost).2, trivial⟩, guarded.right term operator shorter⟩
          refine ⟨_, _, queryChain_more term operator shorter, .inr ⟨?_, right⟩⟩
          cases (queryChain (level n) s'').1 with
          | none => exact isLost.1
          | some other => exact isLost.1
        · exact ⟨query, s'', chainRight_still term operator shorter, .inr (lost isLost)⟩

theorem query_settled {table : Token} (isTable : table.kind = .identifier)
    (isStop : stop.kind = .endOfInput) (before : stretch.Before table stop) {s : State}
    (begins : Begins stretch s)
    (guarded : Throughout Cast.production (CompleteIn stretch) (level nestingLimit).query s) :
    ∃ query s', (level nestingLimit).query s = (some query, s') ∧
      Settled stretch stop [.named ⟨⟨.ofToken table, []⟩, none⟩] query.sources s' := by
  have looks : place s = (some s.cursor.current.location, s) := rfl
  have absent : commonTables (level 39) s = (some [], s) := commonTables_absent begins.1 nofun
  change Throughout _ _ (queryStatement (level 39)) s at guarded
  rw [queryStatement_eq] at guarded
  obtain ⟨query, s', chain, settled⟩ := queryChain_settled 39 isTable isStop before begins
    ((guarded.next looks).next absent).first.attempt
  have tried : attempt (queryChain (level 39)) s = (some (some query), s') := by
    rw [attempt, chain]
  refine ⟨{ query with commonTables := [] }, s', ?_, settled⟩
  show queryStatement (level 39) s = _
  rw [queryStatement, bind_some looks, bind_some absent, bind_some tried]
  rfl

/-- Where a group was left open, what is left still holds all of the end of the stretch. -/
theorem suffix_of_inside {depth : Nat} {ts : List Token} (inside : Inside stretch depth ts) :
    stretch.first :: stretch.behind <:+ ts := by
  induction inside with
  | last => exact List.suffix_rfl
  | opening _ _ ih => exact ih.trans (List.suffix_cons _ _)
  | closing _ _ ih => exact ih.trans (List.suffix_cons _ _)
  | other _ _ _ _ ih => exact ih.trans (List.suffix_cons _ _)

end Parser

end Grammar

open Grammar Parser

variable {select from_ table stop : Token} {g : List Token}

theorem endsBatch_of_fillsItem {depth : Nat} (fills : fillsItem depth g = true) :
    ∀ t ∈ g, t.endsBatch = false := by
  induction g generalizing depth with
  | nil => simp
  | cons t ts ih =>
      intro u member
      unfold fillsItem at fills
      split at fills
      · rename_i opens
        rcases List.mem_cons.1 member with rfl | member
        · simp_all [Token.isPunctuation, Token.endsBatch, Token.isSeparator, Token.isEnd]
        · exact ih fills u member
      · split at fills
        · rename_i closes
          cases depth with
          | zero => contradiction
          | succ outer =>
              rcases List.mem_cons.1 member with rfl | member
              · simp_all [Token.isPunctuation, Token.endsBatch, Token.isSeparator, Token.isEnd]
              · exact ih fills u member
        · simp only [Bool.and_eq_true, Bool.not_eq_true'] at fills
          rcases List.mem_cons.1 member with rfl | member
          · exact fills.1.2
          · exact ih fills.2 u member

/-- A table that has not been reached is none of the sources. -/
theorem sources_ne_of_unread {query : Query} {s : State} {n : Nat} {reported : List Diagnostic}
    (isSelect : select.kind = .keyword .select) (isStop : stop.kind = .endOfInput)
    (run : (level n).query ⟨⟨select, g ++ [from_, table, stop]⟩, reported⟩ = (some query, s))
    (unread : [from_, table, stop] <:+ s.cursor.tokens)
    (apart : ∀ t ∈ g, t.location ≠ table.location) :
    query.sources ≠ [.named ⟨⟨.ofToken table, []⟩, none⟩] := by
  intro same
  have closed : Closed (select :: (g ++ [from_, table, stop])) := by
    simpa using closed_concat (select :: (g ++ [from_, table]))
      (show stop.isEnd = true by simp [Token.isEnd, isStop])
  have start := Passed.start (s := ⟨⟨select, g ++ [from_, table, stop]⟩, reported⟩) closed
  have passed := ((levelReads n).query _ []).of_result start run
  obtain ⟨front, split, among⟩ := passed.split
  obtain ⟨between, rest⟩ := unread
  have named : Identifier.ofToken table ∈ names query := by
    obtain ⟨location, commonTables, distinct, top, items, into, sources, condition, groupBy, having,
      orderBy, setOperation⟩ := query
    obtain rfl : sources = _ := same
    simp [names, Query.outline, TableSource.outline, NamedTable.outline, Node.mentions,
      QualifiedName.base]
  obtain ⟨t, member, is⟩ := List.mem_filterMap.1 (among.subset named)
  have before : front ++ between = select :: g := by
    have whole : (front ++ between) ++ [from_, table, stop] =
        (select :: g) ++ [from_, table, stop] := by
      rw [List.append_assoc, rest]
      exact split
    exact List.append_cancel_right whole
  have kind : t.kind = .identifier := by
    by_cases kind : t.kind = .identifier
    · exact kind
    · simp [Token.identifier?, kind] at is
  have same_ : Identifier.ofToken t = .ofToken table := by
    simpa [Token.identifier?, kind] using is
  rcases List.mem_cons.1 (before ▸ List.mem_append_left between member) with rfl | inside
  · rw [isSelect] at kind
    contradiction
  · exact apart t inside (congrArg Identifier.location same_)

/-- Casts are complete where nothing is complained of in them or behind them, if no parenthesis
opens behind their own. -/
theorem castsComplete_of_unblamed {tokens : List Token} (closed : Closed tokens)
    (each : ∀ ts ∈ tokens.tails, opensCast ts = true →
      ¬((level nestingLimit).query ⟨.ofTokens tokens, []⟩).2.Blames ts ∧
        ∀ t ∈ ts.drop 2, t.isPunctuation .leftParen = false) : CastsComplete tokens := by
  rintro cast ⟨⟨t, ahead⟩, reported⟩ suffix runs opens
  rw [Cursor.tokens_ofTokens_closed closed] at suffix
  obtain ⟨unblamed, plain⟩ := each (t :: ahead) ((List.mem_tails _ _).2 suffix) opens
  refine Cast.complete_of_unblamed (fun blames => unblamed (blames.onward runs.onward)) ?_
  cases ahead with
  | nil => cases opens
  | cons next rest =>
      obtain ⟨named, isOpening⟩ := Bool.and_eq_true_iff.1 opens
      have goesOn : Cursor.isAtEnd ⟨t, next :: rest⟩ = false := by
        by_cases kind : t.kind = .endOfInput
        · simp [Token.namesCast, Token.isKeyword, Token.isPlainName, kind] at named
        · exact Cursor.isAtEnd_eq_false rfl kind
      have step : (Cursor.mk t (next :: rest)).advance = ⟨next, rest⟩ := by
        simp [Cursor.advance, goesOn]
      have inside : Cursor.isAtEnd ⟨next, rest⟩ = false :=
        Cursor.isAtEnd_of_isPunctuation (c := ⟨next, rest⟩) isOpening
      have behind : Closed (next :: rest) :=
        closed.of_suffix ((List.suffix_cons t _).trans suffix) (List.cons_ne_nil _ _)
      have tokens_ : next :: rest = next :: (Cursor.mk next rest).advance.tokens :=
        Cursor.tokens_advance (c := ⟨next, rest⟩) behind inside
      dsimp only
      rw [step, ← (List.cons.inj tokens_).2]
      exact plain

/-- Where no cast is begun, none has to be complete. -/
theorem castsComplete_of_castless (isSelect : select.kind = .keyword .select)
    (isFrom : from_.kind = .keyword .from) (isStop : stop.kind = .endOfInput)
    (castless : holdsCast g = false) : CastsComplete (select :: g ++ [from_, table, stop]) := by
  have behind : holdsCast [table, stop] = false := by
    simp [holdsCast, opensCast, Token.isPunctuation, isStop]
  have noName : select.namesCast = false := by
    simp [Token.namesCast, Token.isKeyword, Token.isPlainName, isSelect]
  have rest := holdsCast_append isFrom castless behind
  have none_ : holdsCast (select :: g ++ [from_, table, stop]) = false := by
    rw [List.cons_append, holdsCast, rest, Bool.or_false]
    cases g <;> simp [opensCast, noName]
  have closed : Closed (select :: g ++ [from_, table, stop]) := by
    simpa using closed_concat (select :: g ++ [from_, table])
      (show stop.isEnd = true by simp [Token.isEnd, isStop])
  intro cast t ahead _ opens
  rw [Cursor.tokens_ofTokens_closed closed] at ahead
  rw [opensCast_of_suffix none_ ahead] at opens
  contradiction

/-- Inside of a group that is still to be closed more groups are closed than opened. -/
theorem Grammar.Inside.opened_eq_none {stretch : Stretch} {depth outer : Nat} {ts : List Token}
    (inside : Inside stretch depth ts) (further : outer < depth) : opened outer ts = none := by
  induction inside generalizing outer with
  | last => exact absurd further (Nat.not_lt_zero outer)
  | opening kind _ ih =>
      rw [opened_opening (Token.isPunctuation_iff.2 kind)]
      exact ih (Nat.succ_lt_succ further)
  | @closing t ts depth kind _ ih =>
      cases outer with
      | zero =>
          rw [opened_cons]
          simp [openedBy, Token.isPunctuation, kind]
      | succ outer =>
          rw [opened_closing (Token.isPunctuation_iff.2 kind)]
          exact ih (Nat.lt_of_succ_lt_succ further)
  | other plain _ _ _ ih =>
      rw [opened_plain plain]
      exact ih further

/-- What a query leaves of a text without errors closes no group that is not opened in it. -/
theorem opened_behind_query {front : List Token} {errors : List Diagnostic} {query : Query}
    {s : State} (isSelect : select.kind = .keyword .select) (isStop : stop.kind = .endOfInput)
    (whole : ∀ t ∈ front, t.endsBatch = false)
    (faultless : (ParseResult.ofTokens ⟨select :: front ++ [stop], errors⟩).errors = [])
    (run : (level nestingLimit).query ⟨⟨select, front ++ [stop]⟩, []⟩ = (some query, s)) :
    ∃ left, opened 0 s.cursor.tokens = some left := by
  have inside : ∀ t ∈ select :: front, t.endsBatch = false :=
    List.forall_mem_cons.2
      ⟨by simp [Token.endsBatch, Token.isSeparator, Token.isEnd, isSelect], whole⟩
  obtain ⟨-, c, last, tokens_, quiet, script_⟩ :=
    ParseResult.ofTokens_quiet inside isStop faultless
  obtain rfl : c = ⟨select, front ++ [stop]⟩ := Cursor.eq_of_tokens tokens_
  have ended : Ended (Cursor.mk select (front ++ [stop])).tokens :=
    .concat (fun t member => Token.kind_ne_of_endsBatch (inside t member)) isStop
  have goesOn : select.kind ≠ .endOfInput := by simp [isSelect]
  obtain ⟨query?, more, s₁, first, quiet₁, later⟩ := collect_quiet statement_advances script_ quiet
  -- the first statement is the query
  rcases statement_quiet first quiet₁ with ⟨semicolon, -, -⟩ | ⟨ends, -, -⟩ | ⟨-, q, found, reads⟩
  · rw [isSelect] at semicolon
    contradiction
  · exact absurd (Token.isEnd_iff.1 ends) goesOn
  · rw [run] at reads
    cases reads
    obtain ⟨rfl, rfl⟩ : query? = some query ∧ more = true := by simpa using found
    have onward := statement_advances.onward ⟨⟨select, front ++ [stop]⟩, []⟩
    rw [first] at onward
    obtain ⟨c₁, rfl⟩ : ∃ c₁, s = ⟨c₁, []⟩ := ⟨s.cursor, by rw [← quiet₁]⟩
    rcases later with ⟨others, -, -, -, rest⟩ | ⟨stops, -, -⟩
    · have ended₁ : Ended c₁.tokens := ended.of_suffix onward.tokens (by simp)
      obtain ⟨left, found, -⟩ := script_opened ended₁ (by
        rw [show script ⟨c₁, []⟩ = _ from rest]
        exact quiet)
      exact ⟨left, found⟩
    · obtain ⟨behind, same⟩ := @Cursor.exists_tokens (front ++ [stop]) (by simp)
      rw [← same] at first
      obtain ⟨-, -, fewer⟩ := statement_onward goesOn first quiet₁
      rw [same] at fewer
      exact absurd ⟨rfl, fewer⟩ stops

/-- Whatever tokens `g` stand where one select item should, with balanced parentheses and without
anything that ends an item outside of them: there is a query, and its sources are those of the
`FROM` clause behind them exactly if the query is read to the end. So it is if each cast that is
read has what it needs in its parentheses, if the text has no errors, and if no cast is in `g`. -/
theorem sources_behind_select_item {errors : List Diagnostic}
    (isSelect : select.kind = .keyword .select) (isFrom : from_.kind = .keyword .from)
    (isTable : table.kind = .identifier) (isStop : stop.kind = .endOfInput)
    (fills : fillsItem 0 g = true) (apart : ∀ t ∈ g, t.location ≠ table.location) :
    let tokens := select :: g ++ [from_, table, stop]
    let result := ParseResult.ofTokens ⟨tokens, errors⟩
    let expected : List TableSource := [.named ⟨⟨.ofToken table, []⟩, none⟩]
    ∃ query others, result.script.queries = query :: others ∧
      (query.sources = expected ↔ readsToEnd tokens = true) ∧
      (CastsComplete tokens → query.sources = expected) ∧
      (result.errors = [] → query.sources = expected) ∧
      (holdsCast g = false → query.sources = expected) := by
  intro tokens result expected
  let stretch := Stretch.ofItem (CastsComplete tokens) table isFrom isStop
  have whole (t : Token) (member : t ∈ g ++ [from_, table]) : t.endsBatch = false := by
    rcases List.mem_append.1 member with member | member
    · exact endsBatch_of_fillsItem fills t member
    · simp only [List.mem_cons, List.not_mem_nil, or_false] at member
      rcases member with rfl | rfl
      · simp [Token.endsBatch, Token.isSeparator, Token.isEnd, isFrom]
      · simp [Token.endsBatch, Token.isSeparator, Token.isEnd, isTable]
  have inside : Inside stretch 0 (g ++ [from_, table, stop]) := inside_of_fillsItem fills
  have begins : Begins stretch ⟨⟨select, g ++ [from_, table, stop]⟩, []⟩ := ⟨isSelect, inside⟩
  have closed : Closed (select :: (g ++ [from_, table, stop])) := inside.closed.cons _
  have start : Cursor.ofTokens tokens = ⟨select, g ++ [from_, table, stop]⟩ :=
    Cursor.ofTokens_closed closed
  have guarded : Throughout Cast.production (CompleteIn stretch) (level nestingLimit).query
      ⟨⟨select, g ++ [from_, table, stop]⟩, []⟩ := by
    intro cast t ahead runs complete opens
    rw [← start] at ahead runs
    exact complete cast t ahead runs opens
  obtain ⟨query, s, run, settled⟩ := query_settled isTable isStop ⟨id, rfl⟩ begins guarded
  have reads : readsToEnd tokens = s.cursor.isAtEnd := by rw [readsToEnd, start, run]
  obtain ⟨others, found⟩ := ParseResult.ofTokens_head (g ++ [from_, table]) errors isSelect whole
    isStop (by simpa using run)
  refine ⟨query, others, by simpa [result, tokens] using found, ?_⟩
  rcases settled with ⟨same, last⟩ | ⟨incomplete, within⟩
  · have atEnd : s.cursor.isAtEnd = true := by
      rw [last]
      simp [Cursor.isAtEnd, Token.isEnd, isStop]
    exact ⟨⟨fun _ => by rw [reads, atEnd], fun _ => same⟩, fun _ => same, fun _ => same,
      fun _ => same⟩
  · have unread : [from_, table, stop] <:+ s.cursor.tokens := by
      obtain ⟨-, actual, -, rest, -⟩ := within
      exact suffix_of_inside rest
    have other := sources_ne_of_unread isSelect isStop run unread apart
    refine ⟨⟨fun same => absurd same other, fun atEnd => ?_⟩,
      fun complete => absurd complete incomplete, fun faultless => ?_,
      fun castless => absurd (castsComplete_of_castless isSelect isFrom isStop castless) incomplete⟩
    · rw [reads, within.isAtEnd_eq_false] at atEnd
      contradiction
    · have clean : (ParseResult.ofTokens ⟨select :: (g ++ [from_, table]) ++ [stop], errors⟩).errors
          = [] := by simpa [result, tokens] using faultless
      obtain ⟨left, open_⟩ := opened_behind_query isSelect isStop whole clean (by simpa using run)
      obtain ⟨-, actual, further, rest, -⟩ := within
      rw [rest.opened_eq_none (Nat.lt_of_lt_of_le Nat.zero_lt_one further)] at open_
      contradiction

/-- The first summand is not an expression, and the cast behind it is complete. -/
theorem sources_behind_bad_select_item :
    let tokens := (TokenStream.ofText "SELECT (a THEN) + CAST(b AS int) FROM [T]").tokens
    let g := (tokens.drop 1).take 11
    fillsItem 0 g = true ∧ holdsCast g = true ∧ CastsComplete tokens ∧ ∃ query others,
      (ParseResult.ofTokens ⟨tokens, []⟩).script.queries = query :: others ∧
      query.sources = [.named ⟨⟨⟨"T", some .bracket, ⟨38, 1, 39⟩⟩, []⟩, none⟩] := by
  intro tokens g
  have fills : fillsItem 0 g = true ∧ holdsCast g = true := by decide +kernel
  have complete : CastsComplete tokens := by
    apply castsComplete_of_unblamed
    · unfold Closed
      decide +kernel
    · unfold State.Blames
      decide +kernel
  have split : tokens = ⟨.keyword .select, "SELECT", ⟨0, 1, 1⟩⟩ :: g ++
      [⟨.keyword .from, "FROM", ⟨33, 1, 34⟩⟩, ⟨.identifier, "[T]", ⟨38, 1, 39⟩⟩,
        .endOfInput ⟨41, 1, 42⟩] := by
    decide +kernel
  have value : Identifier.ofToken ⟨.identifier, "[T]", ⟨38, 1, 39⟩⟩ =
      ⟨"T", some .bracket, ⟨38, 1, 39⟩⟩ := by decide +kernel
  obtain ⟨query, others, found, -, kept, -⟩ := @sources_behind_select_item
    ⟨.keyword .select, "SELECT", ⟨0, 1, 1⟩⟩ ⟨.keyword .from, "FROM", ⟨33, 1, 34⟩⟩
    ⟨.identifier, "[T]", ⟨38, 1, 39⟩⟩ (.endOfInput ⟨41, 1, 42⟩) g [] rfl rfl rfl rfl fills.1
    (by decide +kernel)
  rw [← split] at found kept
  rw [value] at kept
  exact ⟨fills.1, fills.2, complete, query, others, found, kept complete⟩

/-- A cast that breaks off takes the `FROM` clause with it. -/
theorem sources_lost_behind_open_cast :
    let tokens := (TokenStream.ofText "SELECT CAST(1) FROM [T]").tokens
    fillsItem 0 ((tokens.drop 1).take 4) = true ∧
      tokens.map (·.text) = ["SELECT", "CAST", "(", "1", ")", "FROM", "[T]", ""] ∧
      (ParseResult.ofTokens ⟨tokens, []⟩).script.queries.map (·.sources.length) = [0] := by
  decide +kernel

end QueryNames
