import QueryNames.Proofs.Depth.Inside
import QueryNames.Proofs.Parallel.Alone
import QueryNames.Proofs.StatementIsolation

/-!
The groups that are open behind a stretch of tokens. Main statements: what a movement of a cursor
does to their number, and where groups go uncounted: behind the part of a production up to a word
that is passed over with what follows it, where one may be left open, and in a data type, where an
inner one is not told from other arguments.
-/

namespace QueryNames.Grammar

/-- How many groups are open behind a token, if `depth` are open before it. There is no such number
where it closes one that was not opened. -/
def openedBy (depth : Nat) (t : Token) : Option Nat :=
  if t.isPunctuation .leftParen then some (depth + 1)
  else if t.isPunctuation .rightParen then
    match depth with
    | 0 => none
    | outer + 1 => some outer
  else some depth

/-- How many groups are open behind the tokens, if `depth` are open before them. -/
def opened (depth : Nat) (tokens : List Token) : Option Nat := tokens.foldlM openedBy depth

section Opened

variable {t : Token} {ts : List Token} {depth : Nat}

theorem opened_cons (depth : Nat) (t : Token) (ts : List Token) :
    opened depth (t :: ts) = (openedBy depth t).bind fun behind => opened behind ts :=
  List.foldlM_cons

theorem opened_opening (opens : t.isPunctuation .leftParen = true) :
    opened depth (t :: ts) = opened (depth + 1) ts := by
  rw [opened_cons]
  unfold openedBy
  rw [if_pos opens, Option.bind_some]

theorem opened_closing (closes : t.isPunctuation .rightParen = true) :
    opened (depth + 1) (t :: ts) = opened depth ts := by
  have other : t.isPunctuation .leftParen = false := by
    simp_all [Token.isPunctuation]
  rw [opened_cons]
  unfold openedBy
  rw [if_neg (by simp [other]), if_pos closes, Option.bind_some]

theorem opened_plain (plain : t.isParen = false) : opened depth (t :: ts) = opened depth ts := by
  simp only [Token.isParen, Bool.or_eq_false_iff] at plain
  rw [opened_cons]
  unfold openedBy
  rw [if_neg (by simp [plain.1]), if_neg (by simp [plain.2]), Option.bind_some]

theorem opened_append (front ts : List Token) (depth : Nat) :
    opened depth (front ++ ts) = (opened depth front).bind fun behind => opened behind ts :=
  List.foldlM_append

/-- Tokens balance where no group is open behind them. -/
theorem balances_eq_opened (depth : Nat) (tokens : List Token) :
    balances depth tokens = (opened depth tokens == some 0) := by
  induction tokens generalizing depth with
  | nil => simp [balances, opened]
  | cons t ts ih =>
      rw [opened_cons]
      unfold balances openedBy
      split
      · exact ih (depth + 1)
      · split
        · cases depth with
          | zero => rfl
          | succ outer => exact ih outer
        · exact ih depth

/-- An end of input opens and closes nothing. -/
theorem opened_end (ends : t.isEnd = true) (depth : Nat) : opened depth [t] = some depth := by
  apply opened_plain
  simp_all [Token.isEnd, Token.isParen, Token.isPunctuation]

end Opened

/-- Between two cursors whole groups are passed, and `left` more that the tokens end in. -/
def Skips (c d : Cursor) : Prop :=
  ∃ passed left, passed ++ d.tokens = c.tokens ∧
    (∀ depth, opened depth passed = some (depth + left)) ∧ (left = 0 ∨ d.isAtEnd = true)

namespace Cursor

/-- A skip ends outside of all groups that it went into, or at the end of input. -/
theorem skipFrom_opened (stop : Token → Bool) (open_ : Nat) {t : Token} {ahead : List Token}
    (closed : Closed (t :: ahead)) :
    let d := skipFrom stop open_ t ahead
    ∃ passed left, passed ++ d.tokens = t :: ahead ∧
      (∀ depth, opened (depth + open_) passed = some (depth + left)) ∧
      (left = 0 ∧ (stop d.current = true ∨ d.current.isPunctuation .rightParen = true) ∨
        d.isAtEnd = true) := by
  induction ahead generalizing t open_ with
  | nil => exact ⟨[], open_, rfl, fun _ => rfl, .inr closed⟩
  | cons next ahead ih =>
      have behind : Closed (next :: ahead) := closed.of_suffix (List.suffix_cons _ _) (by simp)
      unfold skipFrom
      by_cases ends : t.isEnd = true
      · rw [if_pos ends]
        exact ⟨[], open_, rfl, fun _ => rfl, .inr ends⟩
      rw [if_neg ends]
      by_cases opens : t.isPunctuation .leftParen = true
      · rw [if_pos opens]
        obtain ⟨passed, left, split, number, stops⟩ := ih (open_ + 1) behind
        refine ⟨t :: passed, left, congrArg (t :: ·) split, fun depth => ?_, stops⟩
        rw [opened_opening opens]
        exact number depth
      rw [if_neg opens]
      by_cases closes : t.isPunctuation .rightParen = true
      · rw [if_pos closes]
        cases open_ with
        | zero => exact ⟨[], 0, rfl, fun _ => rfl, .inl ⟨rfl, .inr closes⟩⟩
        | succ open_ =>
            obtain ⟨passed, left, split, number, stops⟩ := ih open_ behind
            refine ⟨t :: passed, left, congrArg (t :: ·) split, fun depth => ?_, stops⟩
            rw [← Nat.add_assoc, opened_closing closes]
            exact number depth
      rw [if_neg closes]
      have plain : t.isParen = false := by simp [Token.isParen, opens, closes]
      by_cases halts : (open_ == 0 && stop t) = true
      · obtain ⟨rfl, found⟩ : open_ = 0 ∧ stop t = true := by simpa using halts
        rw [if_pos halts]
        exact ⟨[], 0, rfl, fun _ => rfl, .inl ⟨rfl, .inl found⟩⟩
      · rw [if_neg halts]
        obtain ⟨passed, left, split, number, stops⟩ := ih open_ behind
        refine ⟨t :: passed, left, congrArg (t :: ·) split, fun depth => ?_, stops⟩
        rw [opened_plain plain]
        exact number depth

variable {c : Cursor}

theorem skipUntil_skips (stop : Token → Bool) (closed : Closed c.tokens) :
    Skips c (c.skipUntil stop) := by
  obtain ⟨passed, left, split, number, ends⟩ := skipFrom_opened stop 0 closed
  exact ⟨passed, left, split, number, ends.imp_left And.left⟩

/-- The rest of a group is skipped up to the parenthesis that closes it, or to the end of input. -/
theorem skipGroup_opened (closed : Closed c.tokens) :
    ∃ passed left, passed ++ c.skipGroup.tokens = c.tokens ∧
      (∀ depth, opened depth passed = some (depth + left)) ∧
      (left = 0 ∧ c.skipGroup.current.isPunctuation .rightParen = true ∨
        c.skipGroup.isAtEnd = true) := by
  obtain ⟨passed, left, split, number, ends⟩ :=
    skipFrom_opened (fun _ => false) 0 closed
  have closes := ends.imp_left fun stops => stops.imp_right (·.resolve_left nofun)
  exact ⟨passed, left, split, number, closes⟩

theorem isAtEnd_of_isPunctuation {p : Punctuation} (is : c.current.isPunctuation p = true) :
    c.isAtEnd = false := by
  have kind : c.current.kind = .punctuation p := Token.isPunctuation_iff.1 is
  exact isAtEnd_eq_false kind nofun

theorem skipParenthesized_skips (closed : Closed c.tokens) : Skips c c.skipParenthesized := by
  unfold skipParenthesized
  split
  · rename_i opens
    have step := tokens_advance closed (isAtEnd_of_isPunctuation opens)
    have behind : Closed c.advance.tokens := closed.of_suffix (advance_suffix c) (by simp)
    obtain ⟨passed, left, split, number, ends⟩ := skipGroup_opened behind
    dsimp only
    split
    · rename_i closes
      have closed' : Closed c.advance.skipGroup.tokens :=
        behind.of_suffix (skipUntil_suffix _ _) (by simp)
      have last := tokens_advance closed' (isAtEnd_of_isPunctuation closes)
      obtain ⟨rfl, -⟩ | ends := ends
      · refine ⟨c.current :: (passed ++ [c.advance.skipGroup.current]), 0, ?_, fun depth => ?_,
          .inl rfl⟩
        · rw [step, ← split, last]
          simp
        · rw [opened_opening opens, opened_append, number, Option.bind_some, Nat.add_zero,
            opened_closing closes]
          rfl
      · rw [isAtEnd_of_isPunctuation closes] at ends
        contradiction
    · rename_i unclosed
      refine ⟨c.current :: passed, left + 1, ?_, fun depth => ?_, .inr ?_⟩
      · rw [step, ← split]
        rfl
      · rw [opened_opening opens, number, Nat.add_right_comm, Nat.add_assoc]
      · exact ends.resolve_left fun closes => unclosed closes.2
  · exact ⟨[], 0, rfl, fun _ => rfl, .inl rfl⟩

end Cursor

/-! Where groups go uncounted. -/

namespace Parser

/-- A word is passed over with what `p` passes behind it. -/
def behindWord (q : Token → Bool) (p : Parser Unit) : Parser (Option Unit) := do
  onlyIf (← accept q) p

/-! Productions up to a word that is passed over, and from there on. -/

def tableName : Parser NamedTable := do
  let name ← qualifiedName
  return ⟨name, ← tableLabel⟩

def tableHints : Parser (Option Unit) := do
  let next ← peek 1
  behindWord (fun t => t.isKeyword .with && next.isPunctuation .leftParen) skipParenthesized

def tableSample : Parser (Option Unit) :=
  behindWord (·.isWord "TABLESAMPLE") (skipUntil endsTable)

def groupOrdering : Parser (Option Unit) :=
  behindWord (·.isWord "WITHIN") do
    let _ ← acceptKeyword .group
    skipParenthesized

def rowCounts : Parser (Option Unit) := behindWord (·.isWord "OFFSET") (skipUntil endsClause)

def resultFormat : Parser (Option Unit) :=
  behindWord (·.isKeyword .for) (skipUntil fun t => endsClause t && !t.isKeyword .for)

def queryOptions : Parser (Option Unit) :=
  behindWord (·.isKeyword .option) do
    if ← check (·.isPunctuation .leftParen) then skipParenthesized
    else reportMissing (.punctuation .leftParen)

section Heads

variable (inner : Level)

/-- A call from its opening parenthesis on. -/
def callHead : Parser (Bool × List Expression) := do
  requirePunctuation .leftParen
  let distinct ← acceptKeyword .distinct
  let _ ← onlyIf (!distinct) (acceptKeyword .all)
  return (distinct, ← arguments inner)

def orderHead : Parser (List OrderItem) := do
  requireKeyword .order
  requireKeyword .by
  orderList inner

def selectHead : Parser Query := do
  let location ← place
  requireKeyword .select
  let distinct ← acceptKeyword .distinct
  let _ ← onlyIf (!distinct) (acceptKeyword .all)
  let top? ← onlyIf (← check (·.isKeyword .top)) (top inner)
  let items ← selectList inner
  let into ← intoClause
  let sources ← fromClause inner
  let condition ← expressionClause inner .where
  let groupBy ← groupClause inner
  let having ← expressionClause inner .having
  let orderBy ← orderClause inner
  return { location, distinct, top := top?, items, into, sources, condition, groupBy, having,
           orderBy }

/-- A cast up to its type. -/
def castHead : Parser Expression := do
  advance
  requirePunctuation .leftParen
  let e ← inner.expression
  requireKeyword .as
  return e

end Heads

/-- A conversion up to its type. -/
def convertHead : Parser Unit := do
  advance
  requirePunctuation .leftParen

section Equations

variable {inner : Level} {s : State}

theorem skipHints_eq : skipHints = (do
    let _ ← tableHints
    let _ ← tableSample) := by
  simp only [skipHints, tableHints, tableSample, behindWord, acceptWord, bind_assoc]

theorem skipOptions_eq : skipOptions = (do
    let _ ← resultFormat
    let _ ← queryOptions) := by
  simp only [skipOptions, resultFormat, queryOptions, behindWord, acceptKeyword, bind_assoc]

theorem call_eq_callHead (name : QualifiedName)
    (opens : s.cursor.current.isPunctuation .leftParen = true) :
    call inner name s = (do
      let read ← callHead inner
      let _ ← groupOrdering
      if ← acceptKeyword .over then
        return Expression.function name read.2 read.1 (some (← window inner))
      else return Expression.function name read.2 read.1 none) s := by
  have entered : requirePunctuation .leftParen s = advance s :=
    requirePunctuation_present (Token.isPunctuation_iff.1 opens)
  simp only [call, callHead, groupOrdering, behindWord, acceptWord, bind_assoc, pure_bind]
  rw [bind_apply, bind_apply, entered]

theorem orderClause_eq_orderHead (isOrder : s.cursor.current.isKeyword .order = true) :
    orderClause inner s = (do
      let list? ← attempt (orderHead inner)
      let _ ← rowCounts
      finishClause true
      return list?.getD []) s := by
  have accepted : acceptKeyword .order s = (some true, { s with cursor := s.cursor.advance }) :=
    accept_present isOrder
  have required : requireKeyword .order s = (some (), { s with cursor := s.cursor.advance }) :=
    requireKeyword_present (Token.isKeyword_iff.1 isOrder)
  simp only [orderClause, orderHead, rowCounts, behindWord, acceptWord, bind_assoc]
  rw [bind_some accepted, if_pos rfl, bind_apply, bind_apply]
  simp only [attempt, bind_some required]

theorem selectQuery_eq_selectHead (isSelect : s.cursor.current.isKeyword .select = true) :
    selectQuery inner s = (do
      let query ← selectHead inner
      let _ ← resultFormat
      let _ ← queryOptions
      return query) s := by
  have required : requireKeyword .select s = advance s :=
    requireKeyword_present (Token.isKeyword_iff.1 isSelect)
  simp only [selectQuery, selectHead, skipOptions_eq, bind_assoc, pure_bind]
  rw [place, bind_some (looks _ _), bind_some (looks _ _), bind_apply, bind_apply, required]

theorem castExpression_eq_castHead
    (opens : s.cursor.advance.current.isPunctuation .leftParen = true) :
    castExpression inner s = (do
      let e ← castHead inner
      let type ← dataType
      closeParen
      return Expression.cast e type none) s := by
  have entered : requirePunctuation .leftParen { s with cursor := s.cursor.advance } = advance _ :=
    requirePunctuation_present (Token.isPunctuation_iff.1 opens)
  have moved : advance s = (some (), { s with cursor := s.cursor.advance }) := rfl
  simp only [castExpression, castHead, bind_assoc, pure_bind]
  rw [bind_some moved, bind_some moved, bind_apply, bind_apply, entered]

theorem convertExpression_eq_convertHead :
    convertExpression inner = (do
      convertHead
      let type ← dataType
      requirePunctuation .comma
      let e ← inner.expression
      let style ← requiredIf (← acceptPunctuation .comma) inner.expression
      closeParen
      return .cast e type style) := by
  simp only [convertExpression, convertHead, bind_assoc]

end Equations

/-- What is passed over with a word, and what is read before that. -/
inductive PassedOver : {α : Type} → Parser α → Parser (Option Unit) → Prop
  | hints : PassedOver tableName tableHints
  | sample : PassedOver (tableName >>= fun _ => tableHints) tableSample
  | ordering (n : Nat) : PassedOver (callHead (level n)) groupOrdering
  | rows (n : Nat) : PassedOver (orderHead (level n)) rowCounts
  | format (n : Nat) : PassedOver (selectHead (level n)) resultFormat
  | options (n : Nat) : PassedOver (selectHead (level n) >>= fun _ => resultFormat) queryOptions

/-- The words that begin a cast or a conversion, and what is read up to the type. -/
inductive PrecedesType : {α : Type} → (Token → Bool) → Parser α → Prop
  | cast (n : Nat) :
      PrecedesType (fun t => t.isWord "CAST" || t.isWord "TRY_CAST") (castHead (level n))
  | conversion :
      PrecedesType (fun t => t.isKeyword .convert || t.isWord "TRY_CONVERT") convertHead

end Parser

open Grammar.Parser

/-- Behind what is read without a complaint, a group is passed over that is not closed, up to the
end of input. -/
inductive LeftOpen (tokens : List Token) : Prop
  | intro {α : Type} {before : Parser α} {skip : Parser (Option Unit)} {a : α} {c d : Cursor}
      {left : Nat} (passes : PassedOver before skip) (ahead : c.tokens <:+ tokens)
      (reads : before ⟨c, []⟩ = (some a, ⟨d, []⟩)) (ends : (skip ⟨d, []⟩).2.cursor.isAtEnd = true)
      (unclosed : opened 0 d.tokens = some (left + 1)) : LeftOpen tokens

/-- Behind what is read without a complaint, another group opens among the arguments of a data
type. -/
inductive GroupInType (tokens : List Token) : Prop
  | intro {α : Type} {word : Token → Bool} {before : Parser α} {a : α} {c d e : Cursor}
      {name : QualifiedName} {args rest : List Token} {inner : Token}
      (precedes : PrecedesType word before) (ahead : c.tokens <:+ tokens)
      (begins : word c.current = true) (reads : before ⟨c, []⟩ = (some a, ⟨d, []⟩))
      (named : qualifiedName ⟨d, []⟩ = (some name, ⟨e, []⟩))
      (opens : e.current.isPunctuation .leftParen = true)
      (split : args ++ inner :: rest = e.advance.tokens) (plain : ∀ t ∈ args, t.isParen = false)
      (another : inner.isPunctuation .leftParen = true) : GroupInType tokens

/-! Places in the tokens. -/

variable {whole front : List Token} {depth : Nat} {c d : Cursor}

/-- Behind `front` at least `depth` groups are open, and so many where all are counted. -/
structure Counted (whole front : List Token) (depth : Nat) (c : Cursor) : Prop where
  split : front ++ c.tokens = whole
  ended : Ended c.tokens
  count : ∃ actual, opened 0 front = some actual ∧ depth ≤ actual ∧
    (¬GroupInType whole → actual = depth)

def Stands (whole : List Token) (depth : Nat) (c : Cursor) : Prop :=
  ∃ front, Counted whole front depth c

/-- What is passed opens or closes as many groups of those that are counted as of all. -/
theorem Counted.onward {passed : List Token} {i j : Nat}
    (counted : Counted whole front (depth + i) c) (split : passed ++ d.tokens = c.tokens)
    (number : ∀ outer, opened (outer + i) passed = some (outer + j)) :
    Counted whole (front ++ passed) (depth + j) d := by
  obtain ⟨whole_, ended, actual, found, further, exact_⟩ := counted
  obtain ⟨outer, rfl⟩ : ∃ outer, actual = outer + i := ⟨actual - i, by omega⟩
  refine ⟨?_, ended.of_suffix ⟨passed, split⟩ (by simp), outer + j, ?_, by omega, ?_⟩
  · rw [List.append_assoc, split, whole_]
  · rw [opened_append, found]
    exact number outer
  · intro all
    have := exact_ all
    omega

namespace Counted

theorem step (counted : Counted whole front depth c) (inside : c.isAtEnd = false) :
    [c.current] ++ c.advance.tokens = c.tokens :=
  (Cursor.tokens_advance counted.ended.closed inside).symm

theorem pass (counted : Counted whole front depth c) (inside : c.isAtEnd = false)
    (plain : c.current.isParen = false) : Counted whole (front ++ [c.current]) depth c.advance :=
  counted.onward (i := 0) (j := 0) (counted.step inside) fun _ => opened_plain plain

theorem enter (counted : Counted whole front depth c)
    (opens : c.current.isPunctuation .leftParen = true) :
    Counted whole (front ++ [c.current]) (depth + 1) c.advance :=
  counted.onward (i := 0) (j := 1) (counted.step (Cursor.isAtEnd_of_isPunctuation opens))
    fun _ => opened_opening opens

theorem leave (counted : Counted whole front (depth + 1) c)
    (closes : c.current.isPunctuation .rightParen = true) :
    Counted whole (front ++ [c.current]) depth c.advance :=
  counted.onward (i := 1) (j := 0) (counted.step (Cursor.isAtEnd_of_isPunctuation closes))
    fun _ => opened_closing closes

end Counted

namespace Stands

theorem ended (stands : Stands whole depth c) : Ended c.tokens := by
  obtain ⟨front, counted⟩ := stands
  exact counted.ended

theorem pass (stands : Stands whole depth c) (inside : c.isAtEnd = false)
    (plain : c.current.isParen = false) : Stands whole depth c.advance := by
  obtain ⟨front, counted⟩ := stands
  exact ⟨_, counted.pass inside plain⟩

theorem enter (stands : Stands whole depth c)
    (opens : c.current.isPunctuation .leftParen = true) : Stands whole (depth + 1) c.advance := by
  obtain ⟨front, counted⟩ := stands
  exact ⟨_, counted.enter opens⟩

theorem leave (stands : Stands whole (depth + 1) c)
    (closes : c.current.isPunctuation .rightParen = true) : Stands whole depth c.advance := by
  obtain ⟨front, counted⟩ := stands
  exact ⟨_, counted.leave closes⟩

/-- A skip over whole groups. -/
theorem skip {passed : List Token} (stands : Stands whole depth c)
    (split : passed ++ d.tokens = c.tokens)
    (number : ∀ outer, opened outer passed = some outer) : Stands whole depth d := by
  obtain ⟨front, counted⟩ := stands
  exact ⟨_, counted.onward (i := 0) (j := 0) split number⟩

/-- Where groups go uncounted in a data type there may be more of them. -/
theorem deepen (stands : Stands whole (depth + 1) c) (inType : GroupInType whole) :
    Stands whole depth c := by
  obtain ⟨front, split, ended, actual, found, further, -⟩ := stands
  exact ⟨front, split, ended, actual, found, by omega, fun none => absurd inType none⟩

/-- At the end of input all tokens are counted. -/
theorem opened_whole (stands : Stands whole depth c) (ends : c.isAtEnd = true) :
    ∃ actual, opened 0 whole = some actual ∧ (¬GroupInType whole → actual = depth) := by
  obtain ⟨front, split, ended, actual, found, -, exact_⟩ := stands
  refine ⟨actual, ?_, exact_⟩
  rw [← split, opened_append, found, Cursor.tokens_of_isAtEnd ended ends]
  exact opened_end ends actual

/-- What is passed over comes back to the depth where it began, or it goes on to the end of input in
a group that is never closed. -/
theorem passOver (stands : Stands whole depth c) (skips : Skips c d) :
    Stands whole depth d ∨ d.isAtEnd = true ∧
      (∃ left, opened 0 c.tokens = some (left + 1)) ∧ ∃ left, opened 0 whole = some left := by
  obtain ⟨front, counted⟩ := stands
  obtain ⟨passed, left, split, number, ends⟩ := skips
  cases left with
  | zero => exact .inl ⟨_, counted.onward (i := 0) (j := 0) split number⟩
  | succ left =>
      have last : d.isAtEnd = true := ends.resolve_left nofun
      have ended : Ended d.tokens := counted.ended.of_suffix ⟨passed, split⟩ (by simp)
      have behind (depth : Nat) : opened depth c.tokens = some (depth + (left + 1)) := by
        rw [← split, opened_append, number, Cursor.tokens_of_isAtEnd ended last]
        exact opened_end last _
      obtain ⟨whole_, -, actual, open_, -⟩ := counted
      refine .inr ⟨last, ⟨left, ?_⟩, actual + (left + 1), ?_⟩
      · rw [behind, Nat.zero_add]
      · rw [← whole_, opened_append, open_]
        exact behind actual

/-- What is ahead is the end of all tokens. -/
theorem suffix (stands : Stands whole depth c) : c.tokens <:+ whole := by
  obtain ⟨front, counted⟩ := stands
  exact ⟨front, counted.split⟩

theorem start (ended : Ended c.tokens) : Stands c.tokens 0 c :=
  ⟨[], rfl, ended, 0, rfl, Nat.le_refl 0, fun _ => rfl⟩

end Stands

end QueryNames.Grammar
