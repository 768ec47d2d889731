import QueryNames.Proofs.Blame.Grammar
import QueryNames.Proofs.Grammar.Script
import QueryNames.Proofs.Progress

/-!
Scripts are read to an end. Main statement: over any tokens a script ends, at an end of input; on
the way the cursor stays among the tokens and never goes back, and every round of a loop that asks
for another leaves it at a later token.
-/

namespace QueryNames.Grammar

open Grammar.Parser

/-- The cursor is at the token of this index. -/
def Cursor.At (tokens : List Token) (index : Nat) (c : Cursor) : Prop :=
  tokens.drop index = c.tokens

namespace Cursor.At

variable {tokens : List Token} {index : Nat} {c d : Cursor}

theorem index_add_remaining (here : c.At tokens index) :
    index + 1 + c.remaining = tokens.length := by
  have length := congrArg List.length here
  simp only [List.length_drop, Cursor.tokens, List.length_cons] at length
  simp only [remaining]
  omega

theorem closed (here : c.At tokens index) (closed : Closed tokens) : Closed c.tokens :=
  closed.of_suffix (here ▸ List.drop_suffix index tokens) (by simp)

theorem onward (here : c.At tokens index) (onward : d.tokens <:+ c.tokens) :
    ∃ later, index ≤ later ∧ later < tokens.length ∧ d.At tokens later := by
  obtain ⟨passed, split⟩ := onward
  have there : d.At tokens (index + passed.length) := by
    rw [At, ← List.drop_drop, here, ← split, List.drop_left]
  have length := there.index_add_remaining
  exact ⟨_, Nat.le_add_right _ _, by omega, there⟩

theorem lt_of_remaining {later : Nat} (here : c.At tokens index) (there : d.At tokens later)
    (fewer : d.remaining < c.remaining) : index < later := by
  have before := here.index_add_remaining
  have behind := there.index_add_remaining
  omega

end Cursor.At

/-- All that the grammar is made of, at every level of nesting. -/
inductive Rule : {α : Type} → Parser α → Prop where
  | production {α : Type} {p : Parser α} (production : Production p) : Rule p
  -- Movements
  | advance : Rule advance
  | accept (q : Token → Bool) : Rule (accept q)
  | skipUntil (stop : Token → Bool) : Rule (skipUntil stop)
  | skipGroup : Rule skipGroup
  | skipParenthesized : Rule skipParenthesized
  -- Complaints and recovery
  | reportMissing (expected : Expected) : Rule (reportMissing expected)
  | reportSurplus (expected : Expected) : Rule (reportSurplus expected)
  | missing (α : Type) (expected : Expected) : Rule (missing expected : Parser α)
  | requireKeyword (k : Keyword) : Rule (requireKeyword k)
  | requirePunctuation (p : Punctuation) : Rule (requirePunctuation p)
  | closeParen : Rule closeParen
  | finishItem (ends : Token → Bool) (parsed : Bool) : Rule (finishItem ends parsed)
  | finishClause (parsed : Bool) : Rule (finishClause parsed)
  | tooDeep (α : Type) (ends : Token → Bool) : Rule (tooDeep ends : Parser α)
  -- Names and data types
  | name : Rule identifier
  | identifierList : Rule identifierList
  | columnNames : Rule columnNames
  | typeArgument : Rule typeArgument
  | typeArguments : Rule typeArguments
  -- Expressions
  | operator {ω : Type} (table : TokenKind → Option ω) : Rule (operator? table)
  | expressionList (n : Nat) : Rule (expressionList (level n))
  | orderList (n : Nat) : Rule (orderList (level n))
  | arguments (n : Nat) : Rule (arguments (level n))
  | call (n : Nat) (name : QualifiedName) : Rule (call (level n) name)
  | whenBranch (n : Nat) : Rule (whenBranch (level n))
  | named (n : Nat) (t next : Token) : Rule (named (level n) t next)
  | leaf (e : Expression) : Rule (leaf e)
  | membership (n : Nat) (left : Expression) (negated : Bool) :
      Rule (membership (level n) left negated)
  | range (n : Nat) (left : Expression) (negated : Bool) : Rule (range (level n) left negated)
  | pattern (n : Nat) (left : Expression) (negated : Bool) : Rule (pattern (level n) left negated)
  | nullTest (left : Expression) : Rule (nullTest left)
  | condition (n : Nat) (left : Expression) : Rule (condition (level n) left)
  -- Table sources
  | tableLabel : Rule tableLabel
  | skipHints : Rule skipHints
  | joinOperator : Rule joinOperator?
  | joinCondition (n : Nat) (kind : JoinKind) : Rule (joinCondition (level n) kind)
  | skipJoin (n : Nat) : Rule (skipJoin (level n))
  | join (n : Nat) (left : TableSource) : Rule (join (level n) left)
  | sourceList (n : Nat) : Rule (sourceList (level n))
  -- Queries
  | columnLabel : Rule columnLabel
  | qualifiedStar : Rule qualifiedStar
  | selectList (n : Nat) : Rule (selectList (level n))
  | intoClause : Rule intoClause
  | fromClause (n : Nat) : Rule (fromClause (level n))
  | expressionClause (n : Nat) (k : Keyword) : Rule (expressionClause (level n) k)
  | groupClause (n : Nat) : Rule (groupClause (level n))
  | orderClause (n : Nat) : Rule (orderClause (level n))
  | skipOptions : Rule skipOptions
  | selectQuery (n : Nat) : Rule (selectQuery (level n))
  | setOperator : Rule setOperator?
  | commonTable (n : Nat) : Rule (commonTable (level n))
  | commonTables (n : Nat) : Rule (commonTables (level n))
  -- Scripts
  | skipStatement : Rule skipStatement
  | finishStatement : Rule finishStatement
  | query : Rule query
  | reportOtherStatement : Rule reportOtherStatement
  | otherStatement : Rule otherStatement
  | statement : Rule statement
  | script : Rule script

/-- What is done again and again: the rounds of every loop, and the left side of a set operation,
whose right side is a query again. The loops are those of `skipStatement_eq`, `skipUntil_eq`,
`commaList_eq`, `chainLeft_eq`, `qualifiedName_eq`, `qualifiedStar_eq` and `queryChain_eq`, and the
ones over a production that is a round by itself. -/
inductive Round : {β : Type} → Parser (β × Bool) → Prop where
  | statement : Round statement
  | stray : Round strayRound
  | skip (stop : Token → Bool) (depth : Nat) : Round (skipRound stop depth)
  | list {α : Type} {item : Parser α} (ends : Token → Bool) (rule : Rule item) :
      Round (listRound ends item)
  | commonTable (n : Nat) : Round (commonTable (level n))
  | leftSide (n : Nat) : Round (leftSide (level n))
  | join (n : Nat) (left : TableSource) : Round (join (level n) left)
  | whenBranch (n : Nat) : Round (whenBranch (level n))
  | multiplicative (n : Nat) (left : Expression) :
      Round (chainRound (signed (level n)) (operator? multiplicative?) .binary left)
  | additive (n : Nat) (left : Expression) :
      Round (chainRound (multiplicative (level n)) (operator? additive?) .binary left)
  | conjunction (n : Nat) (left : Expression) :
      Round (chainRound (negation (level n)) (operator? conjunction?) .binary left)
  | disjunction (n : Nat) (left : Expression) :
      Round (chainRound (conjunction (level n)) (operator? disjunction?) .binary left)
  | namePart : Round namePart
  | starPart : Round starPart
  | typeArgument : Round typeArgument

theorem Production.stepwise {α : Type} {p : Parser α} (production : Production p) : Stepwise p := by
  cases production <;> infer_instance

namespace Rule

variable {α : Type} {p : Parser α}

theorem stepwise (rule : Rule p) : Stepwise p := by
  cases rule with
  | production production => exact production.stepwise
  | _ => infer_instance

end Rule

namespace Round

variable {β : Type} {round : Parser (β × Bool)}

theorem stepwise (isRound : Round round) : Stepwise round := by
  cases isRound with
  | list ends rule =>
      have := rule.stepwise
      infer_instance
  | _ => infer_instance

theorem spends (isRound : Round round) : Spends round := by
  cases isRound with
  | statement => exact statement_spends
  | stray => exact strayRound_spends
  | skip stop depth => exact skipRound_spends
  | list ends rule =>
      have := rule.stepwise
      exact listRound_spends
  | commonTable n => exact commonTable_spends
  | leftSide n => exact leftSide_spends
  | join n left => exact join_spends left
  | whenBranch n => exact whenBranch_spends
  | multiplicative n left | additive n left | conjunction n left | disjunction n left =>
      exact chainRound_spends rfl
  | namePart => exact namePart_spends
  | starPart => exact starPart_spends
  | typeArgument => exact typeArgument_spends

end Round

/-! Runs over the tokens. -/

section Runs

variable {tokens : List Token} {s s' : State} {index : Nat}

theorem Rule.onward {α : Type} {p : Parser α} (rule : Rule p) (here : s.cursor.At tokens index) :
    ∃ later, index ≤ later ∧ later < tokens.length ∧ (p s).2.cursor.At tokens later := by
  have := rule.stepwise
  exact here.onward ((Stepwise.advances p).onward s).tokens

theorem Round.onward {β : Type} {round : Parser (β × Bool)} {b : β} (isRound : Round round)
    (closed : Closed tokens) (here : s.cursor.At tokens index)
    (run : round s = (some (b, true), s')) :
    ∃ later, index < later ∧ later < tokens.length ∧ s'.cursor.At tokens later := by
  have := isRound.stepwise
  have fewer : s'.remaining < s.remaining := isRound.spends s (here.closed closed) run rfl
  obtain ⟨later, -, inside, there⟩ := here.onward (onward_of_run run).tokens
  exact ⟨later, here.lt_of_remaining there fewer, inside, there⟩

/-- A script asks for statements up to an end of input. -/
theorem script_ends (closed : Closed s.cursor.tokens) :
    ∃ queries s', script s = (some queries, s') ∧ s'.cursor.isAtEnd = true := by
  -- on what is left: a statement that asks for another leaves less
  induction left : s.remaining using Nat.strong_induction_on generalizing s with
  | _ n ih =>
      obtain ⟨⟨query?, more⟩, s₁, run⟩ := Total.result (p := statement) s
      have first : script s = _ := collect_eq closed statement_spends
      rw [first, bind_some run]
      cases more with
      | false => exact ⟨_, s₁, rfl, statement_stops.of_result trivial run rfl⟩
      | true =>
          have fewer : s₁.remaining < n := left ▸ statement_spends s closed run rfl
          have closed₁ := closed_of_onward closed (onward_of_run run)
          obtain ⟨queries, s', rest, ends⟩ := ih _ fewer closed₁ rfl
          exact ⟨_, s', bind_some rest, ends⟩

end Runs

namespace Parser

/-- A script over any tokens comes to an end of input. The cursor is among the tokens and never goes
back, whatever is read; and where something is done once more, the cursor has moved on before. -/
theorem script_comes_to_end (tokens : List Token) (reported : List Diagnostic) :
    (Cursor.ofTokens tokens).At (Cursor.closed tokens) 0 ∧
    (∃ queries s index, script ⟨.ofTokens tokens, reported⟩ = (some queries, s) ∧
      s.cursor.At (Cursor.closed tokens) index ∧ index < (Cursor.closed tokens).length ∧
      s.cursor.isAtEnd = true) ∧
    (∀ {α : Type} {p : Parser α}, Rule p → ∀ s index, s.cursor.At (Cursor.closed tokens) index →
      ∃ later, index ≤ later ∧ later < (Cursor.closed tokens).length ∧
        (p s).2.cursor.At (Cursor.closed tokens) later) ∧
    (∀ {β : Type} {round : Parser (β × Bool)}, Round round → ∀ s index s' b,
      s.cursor.At (Cursor.closed tokens) index → round s = (some (b, true), s') →
      ∃ later, index < later ∧ later < (Cursor.closed tokens).length ∧
        s'.cursor.At (Cursor.closed tokens) later) := by
  have start : (Cursor.ofTokens tokens).At (Cursor.closed tokens) 0 :=
    (Cursor.tokens_ofTokens tokens).symm
  have closed : Closed (Cursor.closed tokens) :=
    Cursor.tokens_ofTokens tokens ▸ Cursor.closed_ofTokens tokens
  refine ⟨start, ?_, fun rule s index here => rule.onward here,
    fun round s index s' b here run => round.onward closed here run⟩
  obtain ⟨queries, s, run, ends⟩ :=
    script_ends (s := ⟨.ofTokens tokens, reported⟩) (Cursor.closed_ofTokens tokens)
  obtain ⟨index, -, inside, there⟩ := Rule.script.onward (s := ⟨.ofTokens tokens, reported⟩) start
  rw [run] at there
  exact ⟨queries, s, index, run, there, inside, ends⟩

/-- An end of input stands among the tokens and none behind them, where one is put; a name and the
comma behind it are passed. -/
theorem script_comes_to_end_unclosed :
    let tokens :=
      (TokenStream.ofText "a, b").tokens ++ ((TokenStream.ofText "; c").slice 0 2).tokens
    let s : State := ⟨.ofTokens tokens, []⟩
    let name : Parser Identifier := requireIdentifier .identifier
    let round := listRound endsItem name
    (Cursor.closed tokens).map (·.isEnd) = [false, false, false, true, false, false, true] ∧
    (∃ queries s' index, script s = (some queries, s') ∧
      s'.cursor.At (Cursor.closed tokens) index ∧ index < (Cursor.closed tokens).length ∧
      s'.cursor.isAtEnd = true) ∧
    Rule name ∧ s.cursor.At (Cursor.closed tokens) 0 ∧
    (∃ later, 0 ≤ later ∧ later < (Cursor.closed tokens).length ∧
      (name s).2.cursor.At (Cursor.closed tokens) later) ∧
    Round round ∧ (∃ b, (round s).1 = some (b, true)) ∧
    ∃ later, 0 < later ∧ later < (Cursor.closed tokens).length ∧
      (round s).2.cursor.At (Cursor.closed tokens) later := by
  intro tokens s name round
  have isRule : Rule name := .production (.identifier .identifier)
  have isRound : Round round := .list endsItem isRule
  have asks : (round s).1 = some (some ⟨"a", none, ⟨0, 1, 1⟩⟩, true) := by decide +kernel
  obtain ⟨start, ends, rules, rounds⟩ := script_comes_to_end tokens []
  exact ⟨by decide +kernel, ends, isRule, start, rules isRule s 0 start, isRound, ⟨_, asks⟩,
    rounds isRound s 0 _ _ start (Prod.ext asks rfl)⟩

end Parser

end QueryNames.Grammar
