import QueryNames.Grammar.Script
import QueryNames.Proofs.Written.Name

/-!
Expressions as they are written: which token sequences stand for which tree, each operand at the
strength that its operator wants. Main statements: with what such a sequence begins, and that it
lies in one batch.
-/

namespace QueryNames.Grammar

/-- How strongly an expression holds together, from the loosest to the tightest. -/
inductive Strength where
  | disjunction | conjunction | negation | predicate
  | additive | multiplicative | signed | primary
  deriving DecidableEq

namespace Strength

def rank : Strength → Nat
  | primary => 0
  | signed => 1
  | multiplicative => 2
  | additive => 3
  | predicate => 4
  | negation => 5
  | conjunction => 6
  | disjunction => 7

def tighter : Strength → Strength
  | disjunction => conjunction
  | conjunction => negation
  | negation => predicate
  | predicate => additive
  | additive => multiplicative
  | multiplicative => signed
  | signed => primary
  | primary => primary

/-- The operators that make a chain at this strength. -/
def operator? : Strength → TokenKind → Option BinaryOperator
  | disjunction => disjunction?
  | conjunction => conjunction?
  | additive => additive?
  | multiplicative => multiplicative?
  | _ => fun _ => none

end Strength

/-- What an expression is put together from: expressions of all strengths, arguments (where
`starred`, a star may stand for one), lists of them, the branches of a `CASE`, and an expression
that may be left out, alone or behind a keyword. -/
inductive Part where
  | at (strength : Strength)
  | argument (starred : Bool)
  | list (starred : Bool)
  | branches
  | operand
  | clause (k : Keyword) (strength : Strength)

abbrev Part.Tree : Part → Type
  | .at _ | .argument _ => Expression
  | .list _ => List Expression
  | .branches => List WhenBranch
  | .operand | .clause .. => Option Expression

/-- The expressions that are one token: literals and variables. -/
def leaf? (t : Token) : Option Expression :=
  match t.kind with
  | .numberLiteral => some (.literal (.number t.text))
  | .stringLiteral => some (.literal (.string (stringValue t.text)))
  | .keyword .null => some (.literal .null)
  | .variable => some (.variable t.text)
  | _ => none

/-- A keyword that is there or not. -/
inductive WrittenFlag (k : Keyword) : List Token → Bool → Prop
  | absent : WrittenFlag k [] false
  | present {t} (is : t.kind = .keyword k) : WrittenFlag k [t] true

/-- The tokens `ts` stand for a tree inside of which parts may be nested `n` levels deep. -/
inductive Written : Nat → (part : Part) → List Token → part.Tree → Prop
  | leaf {n t e} (is : leaf? t = some e) : Written n (.at .primary) [t] e
  | column {n ts name} (named : WrittenName ts name) :
      Written n (.at .primary) ts (.column ⟨some name, .regular, name.location⟩)
  | emptyCall {n ts name opening closing} (named : WrittenName ts name)
      (opens : opening.kind = .punctuation .leftParen)
      (closes : closing.kind = .punctuation .rightParen) :
      Written n (.at .primary) (ts ++ [opening, closing]) (.function name [] false none)
  | call {n ts name opening ds distinct us list closing} (named : WrittenName ts name)
      (opens : opening.kind = .punctuation .leftParen) (flag : WrittenFlag .distinct ds distinct)
      (arguments : Written n (.list true) us list)
      (closes : closing.kind = .punctuation .rightParen) :
      Written n (.at .primary) (ts ++ opening :: (ds ++ (us ++ [closing])))
        (.function name list distinct none)
  | case {n first os operand bs branch branches es otherwise last}
      (begins : first.kind = .keyword .case) (compared : Written (n + 1) .operand os operand)
      (chosen : Written (n + 1) .branches bs (branch :: branches))
      (defaulted : Written n (.clause .else .disjunction) es otherwise)
      (ends : last.kind = .keyword .end) :
      Written (n + 1) (.at .primary) (first :: (os ++ (bs ++ (es ++ [last]))))
        (.case operand (branch :: branches) otherwise)
  | cast {n word opening ts e as us type closing} (is : word.isWord "CAST" = true)
      (opens : opening.kind = .punctuation .leftParen)
      (converted : Written n (.at .disjunction) ts e) (isAs : as.kind = .keyword .as)
      (named : WrittenName us type) (closes : closing.kind = .punctuation .rightParen) :
      Written (n + 1) (.at .primary) (word :: opening :: (ts ++ as :: (us ++ [closing])))
        (.cast e (".".intercalate type.values) none)
  | nested {n opening ts e closing} (opens : opening.kind = .punctuation .leftParen)
      (inside : Written n (.at .disjunction) ts e)
      (closes : closing.kind = .punctuation .rightParen) :
      Written (n + 1) (.at .primary) (opening :: (ts ++ [closing])) (.nested e)
  | sign {n t op ts e} (signs : sign? t.kind = some op) (operand : Written n (.at .signed) ts e) :
      Written (n + 1) (.at .signed) (t :: ts) (.unary op e)
  | chain {n s t op ls left rs right} (joins : s.operator? t.kind = some op)
      (front : Written n (.at s) ls left) (back : Written n (.at s.tighter) rs right) :
      Written n (.at s) (ls ++ t :: rs) (.binary op left right)
  | comparison {n t op ls left rs right} (compares : comparison? t.kind = some op)
      (front : Written n (.at .additive) ls left) (back : Written n (.at .additive) rs right) :
      Written n (.at .predicate) (ls ++ t :: rs) (.binary op left right)
  | isNull {n ls left is ns negated null} (front : Written n (.at .additive) ls left)
      (isIs : is.kind = .keyword .is) (flag : WrittenFlag .not ns negated)
      (isNull : null.kind = .keyword .null) :
      Written n (.at .predicate) (ls ++ is :: (ns ++ [null])) (.isNull left negated)
  | inList {n ls left ns negated word opening us list closing}
      (front : Written n (.at .additive) ls left) (flag : WrittenFlag .not ns negated)
      (isIn : word.kind = .keyword .in) (opens : opening.kind = .punctuation .leftParen)
      (members : Written n (.list false) us list)
      (closes : closing.kind = .punctuation .rightParen) :
      Written n (.at .predicate) (ls ++ (ns ++ word :: opening :: (us ++ [closing])))
        (.inList left list negated)
  | between {n ls left ns negated word lows low and highs high}
      (front : Written n (.at .additive) ls left) (flag : WrittenFlag .not ns negated)
      (isBetween : word.kind = .keyword .between) (lower : Written n (.at .additive) lows low)
      (isAnd : and.kind = .keyword .and) (upper : Written n (.at .additive) highs high) :
      Written n (.at .predicate) (ls ++ (ns ++ word :: (lows ++ and :: highs)))
        (.between left low high negated)
  | like {n ls left ns negated word ps pattern es escape}
      (front : Written n (.at .additive) ls left) (flag : WrittenFlag .not ns negated)
      (isLike : word.kind = .keyword .like) (matched : Written n (.at .additive) ps pattern)
      (escaped : Written n (.clause .escape .additive) es escape) :
      Written n (.at .predicate) (ls ++ (ns ++ word :: (ps ++ es)))
        (.like left pattern escape negated)
  | not {n t ts e} (is : t.kind = .keyword .not) (operand : Written n (.at .negation) ts e) :
      Written (n + 1) (.at .negation) (t :: ts) (.unary .not e)
  | tighter {n s ts e} (written : Written n (.at s.tighter) ts e) : Written n (.at s) ts e
  | star {n t} (is : t.kind = .star) :
      Written n (.argument true) [t] (.column ⟨none, .wildcard, t.location⟩)
  | argument {n starred ts e} (written : Written n (.at .disjunction) ts e) :
      Written (n + 1) (.argument starred) ts e
  | last {n starred ts e} (written : Written n (.argument starred) ts e) :
      Written n (.list starred) ts [e]
  | item {n starred ts e comma us es} (written : Written n (.argument starred) ts e)
      (isComma : comma.kind = .punctuation .comma) (rest : Written n (.list starred) us es) :
      Written n (.list starred) (ts ++ comma :: us) (e :: es)
  | noBranch {n} : Written n .branches [] []
  | branch {n first cs condition next rs result bs branches} (isWhen : first.kind = .keyword .when)
      (asked : Written n (.at .disjunction) cs condition) (isThen : next.kind = .keyword .then)
      (given : Written n (.at .disjunction) rs result)
      (rest : Written (n + 1) .branches bs branches) :
      Written (n + 1) .branches (first :: (cs ++ next :: (rs ++ bs)))
        (⟨condition, result⟩ :: branches)
  | noOperand {n} : Written n .operand [] none
  | operand {n ts e} (written : Written n (.at .disjunction) ts e) :
      Written (n + 1) .operand ts (some e)
  | noClause {n k s} : Written n (.clause k s) [] none
  | clause {n k s t ts e} (is : t.kind = .keyword k) (written : Written n (.at s) ts e) :
      Written n (.clause k s) (t :: ts) (some e)

/-- A tighter expression is a looser one as well. -/
theorem Written.loosen {n : Nat} {s : Strength} {ts : List Token} {e : Expression}
    (written : Written n (.at s) ts e) (s' : Strength) (tight : s.rank ≤ s'.rank) :
    Written n (.at s') ts e := by
  by_cases same : s = s'
  · exact same ▸ written
  · have step : s.rank ≤ s'.tighter.rank ∧ s'.tighter.rank < s'.rank := by
      revert tight same
      cases s <;> cases s' <;> decide
    exact .tighter (written.loosen s'.tighter step.1)
termination_by s'.rank
decreasing_by exact step.2

/-! The first token. -/

/-- The first tokens of expressions that have no operator in front. -/
def opensPrimary (t : Token) : Prop :=
  match t.kind with
  | .numberLiteral | .stringLiteral | .variable | .keyword .null | .keyword .case
  | .punctuation .leftParen => True
  | .identifier => t.isDelimited = true ∨ t.isWord "CAST" = true
  | _ => False

def Strength.Begins (s : Strength) (t : Token) : Prop :=
  opensPrimary t ∨ (signed.rank ≤ s.rank ∧ (sign? t.kind).isSome = true) ∨
    (negation.rank ≤ s.rank ∧ t.kind = .keyword .not)

namespace Part

def Begins : Part → Token → Prop
  | .at s, t => s.Begins t
  | .argument starred, t | .list starred, t =>
      (starred = true ∧ t.kind = .star) ∨ Strength.disjunction.Begins t
  | .branches, t => t.kind = .keyword .when
  | .operand, t => Strength.disjunction.Begins t
  | .clause k _, t => t.kind = .keyword k

def isOptional : Part → Bool
  | .at _ | .argument _ | .list _ => false
  | .branches | .operand | .clause .. => true

def Opens (part : Part) : List Token → Prop
  | [] => part.isOptional = true
  | t :: _ => part.Begins t

theorem Opens.append {part : Part} {ts us : List Token} (opens : part.Opens ts)
    (filled : part.isOptional = false) : part.Opens (ts ++ us) := by
  cases ts with
  | nil => exact absurd (filled.symm.trans opens) Bool.false_ne_true
  | cons t ts => exact opens

theorem Opens.mono {part part' : Part} {ts : List Token} (opens : part.Opens ts)
    (begins : ∀ t, part.Begins t → part'.Begins t)
    (optional : part.isOptional = true → part'.isOptional = true) : part'.Opens ts := by
  cases ts with
  | nil => exact optional opens
  | cons t ts => exact begins t opens

theorem Opens.next {part : Part} {ts us : List Token} {follow P : Token → Prop}
    (opens : part.Opens ts) (first : ∀ t, part.Begins t → P t)
    (rest : part.isOptional = true → Next us follow P) : Next (ts ++ us) follow P := by
  cases ts with
  | nil => exact rest opens
  | cons t ts => exact first t opens

end Part

theorem Strength.Begins.mono {s s' : Strength} {t : Token} (begins : s.Begins t)
    (looser : s.rank ≤ s'.rank) : s'.Begins t := by
  rcases begins with primary | ⟨rank, signs⟩ | ⟨rank, negates⟩
  · exact .inl primary
  · exact .inr (.inl ⟨Nat.le_trans rank looser, signs⟩)
  · exact .inr (.inr ⟨Nat.le_trans rank looser, negates⟩)

theorem Strength.rank_tighter_le (s : Strength) : s.tighter.rank ≤ s.rank := by
  cases s <;> decide

theorem WrittenName.opens {ts : List Token} {name : QualifiedName} (named : WrittenName ts name)
    (s : Strength) : (Part.at s).Opens ts := by
  obtain ⟨t, us, rfl, delimited, -⟩ := named.begins
  left
  rw [opensPrimary, Token.kind_of_isDelimited delimited]
  exact .inl delimited

variable {n : Nat} {part : Part} {ts : List Token} {tree : part.Tree}

theorem Written.opens (written : Written n part ts tree) : part.Opens ts := by
  induction written with
  | leaf is =>
      left
      unfold leaf? at is
      split at is <;> simp_all [opensPrimary]
  | case is | nested is =>
      left
      simp [opensPrimary, is]
  | cast is =>
      left
      rw [opensPrimary, Token.kind_of_isWord is]
      exact .inr is
  | column named => exact named.opens _
  | emptyCall named | call named => exact (named.opens _).append rfl
  | sign signs => exact .inr (.inl ⟨Nat.le_refl _, by simp [signs]⟩)
  | chain _ _ _ front => exact front.append rfl
  | comparison _ _ _ front | isNull _ _ _ _ front | inList _ _ _ _ _ _ front
  | between _ _ _ _ _ _ front | like _ _ _ _ _ front =>
      apply Part.Opens.append _ rfl
      exact front.mono (fun _ begins => begins.mono (by decide)) id
  | not is => exact .inr (.inr ⟨Nat.le_refl _, is⟩)
  | tighter written ih =>
      exact ih.mono (fun _ begins => begins.mono (Strength.rank_tighter_le _)) id
  | star is => exact .inl ⟨rfl, is⟩
  | argument written ih => exact ih.mono (fun _ => .inr) id
  | last written ih => exact ih
  | item written _ _ ih => exact ih.append rfl
  | branch is | clause is => exact is
  | noBranch | noOperand | noClause => rfl
  | operand written ih => exact ih.mono (fun _ => id) nofun

/-! No token of an expression ends a batch. -/

theorem endsBatch_of_kind {t : Token} {k : TokenKind} (is : t.kind = k)
    (goesOn : k ≠ .batchSeparator ∧ k ≠ .endOfInput) : t.endsBatch = false := by
  simp [Token.endsBatch, Token.isSeparator, Token.isEnd, is, goesOn]

theorem endsBatch_of_keyword {t : Token} {k : Keyword} (is : t.kind = .keyword k) :
    t.endsBatch = false :=
  endsBatch_of_kind is ⟨nofun, nofun⟩

theorem endsBatch_of_punctuation {t : Token} {p : Punctuation} (is : t.kind = .punctuation p) :
    t.endsBatch = false :=
  endsBatch_of_kind is ⟨nofun, nofun⟩

theorem endsBatch_of_known {t : Token} {table : TokenKind → Option ω} {op : ω}
    (known : table t.kind = some op) (noSeparator : table .batchSeparator = none)
    (noEnd : table .endOfInput = none) : t.endsBatch = false := by
  apply endsBatch_of_kind rfl
  constructor
  · intro separates
    rw [separates, noSeparator] at known
    cases known
  · intro ends
    rw [ends, noEnd] at known
    cases known

theorem WrittenFlag.whole {k : Keyword} {flag : Bool} (written : WrittenFlag k ts flag) :
    ∀ t ∈ ts, t.endsBatch = false := by
  cases written with
  | absent => nofun
  | present is => simpa using endsBatch_of_keyword is

theorem Written.whole (written : Written n part ts tree) : ∀ t ∈ ts, t.endsBatch = false := by
  induction written
  all_goals try simp only [List.forall_mem_append, List.forall_mem_cons, List.not_mem_nil,
    false_implies, implies_true, and_true]
  case leaf is =>
      unfold leaf? at is
      split at is <;> simp_all [Token.endsBatch, Token.isSeparator, Token.isEnd]
  case star is => exact endsBatch_of_kind is (by decide)
  case column named => exact named.whole
  case tighter ih | argument ih | last ih | operand ih => exact ih
  case emptyCall named opens closes =>
      exact ⟨named.whole, endsBatch_of_punctuation opens, endsBatch_of_punctuation closes⟩
  case call named opens flag _ closes arguments =>
      exact ⟨named.whole, endsBatch_of_punctuation opens, flag.whole, arguments,
        endsBatch_of_punctuation closes⟩
  case case begins _ _ _ ends compared chosen defaulted =>
      exact ⟨endsBatch_of_keyword begins, compared, chosen, defaulted, endsBatch_of_keyword ends⟩
  case cast is opens _ isAs named closes converted =>
      exact ⟨endsBatch_of_kind (Token.kind_of_isWord is) (by decide),
        endsBatch_of_punctuation opens, converted, endsBatch_of_keyword isAs, named.whole,
        endsBatch_of_punctuation closes⟩
  case nested opens _ closes inside =>
      exact ⟨endsBatch_of_punctuation opens, inside, endsBatch_of_punctuation closes⟩
  case sign signs _ operand => exact ⟨endsBatch_of_known signs rfl rfl, operand⟩
  case chain s _ _ _ _ _ _ joins _ _ front back =>
      exact ⟨front, endsBatch_of_known joins (by cases s <;> rfl) (by cases s <;> rfl), back⟩
  case comparison compares _ _ front back =>
      exact ⟨front, endsBatch_of_known compares rfl rfl, back⟩
  case isNull _ isIs flag isNull front =>
      exact ⟨front, endsBatch_of_keyword isIs, flag.whole, endsBatch_of_keyword isNull⟩
  case inList _ flag isIn opens _ closes front members =>
      exact ⟨front, flag.whole, endsBatch_of_keyword isIn, endsBatch_of_punctuation opens, members,
        endsBatch_of_punctuation closes⟩
  case between _ flag isBetween _ isAnd _ front lower upper =>
      exact ⟨front, flag.whole, endsBatch_of_keyword isBetween, lower, endsBatch_of_keyword isAnd,
        upper⟩
  case like _ flag isLike _ _ front matched escaped =>
      exact ⟨front, flag.whole, endsBatch_of_keyword isLike, matched, escaped⟩
  case not is _ operand => exact ⟨endsBatch_of_keyword is, operand⟩
  case item _ isComma _ first rest => exact ⟨first, endsBatch_of_punctuation isComma, rest⟩
  case branch isWhen _ isThen _ _ asked given rest =>
      exact ⟨endsBatch_of_keyword isWhen, asked, endsBatch_of_keyword isThen, given, rest⟩
  case clause is _ written => exact ⟨endsBatch_of_keyword is, written⟩

end QueryNames.Grammar
