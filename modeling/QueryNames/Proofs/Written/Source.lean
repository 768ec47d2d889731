import QueryNames.Proofs.Written.Query

/-!
Table sources as they are written: which token sequences stand for which tree, joins from the left.
Main statements: with what such a sequence begins, and that it lies in one batch.
-/

namespace QueryNames.Grammar

/-- The name that a query gives a source for its own use, if it does. -/
inductive WrittenLabel : List Token → Option Identifier → Prop
  | absent : WrittenLabel [] none
  | plain {t} (delimited : t.isDelimited = true) : WrittenLabel [t] (some (.ofToken t))
  | behindAs {word t} (isAs : word.kind = .keyword .as) (delimited : t.isDelimited = true) :
      WrittenLabel [word, t] (some (.ofToken t))

/-- The joins that keep the rows of one side or of both. -/
def outerSide? : TokenKind → Option JoinKind
  | .keyword .left => some .leftOuter
  | .keyword .right => some .rightOuter
  | .keyword .full => some .fullOuter
  | _ => none

inductive WrittenJoin : List Token → JoinKind → Prop
  | join {join} (isJoin : join.kind = .keyword .join) : WrittenJoin [join] .inner
  | inner {side join} (isInner : side.kind = .keyword .inner)
      (isJoin : join.kind = .keyword .join) : WrittenJoin [side, join] .inner
  | outer {side kind os outer join} (isSide : outerSide? side.kind = some kind)
      (flag : WrittenFlag .outer os outer) (isJoin : join.kind = .keyword .join) :
      WrittenJoin (side :: (os ++ [join])) kind
  | cross {side join} (isCross : side.kind = .keyword .cross)
      (isJoin : join.kind = .keyword .join) : WrittenJoin [side, join] .cross
  | crossApply {side apply} (isCross : side.kind = .keyword .cross)
      (isApply : apply.isWord "APPLY" = true) : WrittenJoin [side, apply] .crossApply
  | outerApply {side apply} (isOuter : side.kind = .keyword .outer)
      (isApply : apply.isWord "APPLY" = true) : WrittenJoin [side, apply] .outerApply

/-- Whether a condition belongs to the join. -/
def isConditional : JoinKind → Bool
  | .inner | .leftOuter | .rightOuter | .fullOuter => true
  | .cross | .crossApply | .outerApply => false

/-- What a `FROM` clause is put together from: single tables, chains of joins, and lists. -/
inductive SourcePart where
  | table
  | source
  | list

abbrev SourcePart.Tree : SourcePart → Type
  | .table | .source => TableSource
  | .list => List TableSource

/-- The tokens `ts` stand for sources inside of which parts may be nested `n` levels deep, and in
which tables are named by `names`, from the left to the right. -/
inductive WrittenSource : Nat → (part : SourcePart) → List Token → part.Tree → List String → Prop
  | named {n ts name ls label} (named : WrittenName ts name) (labelled : WrittenLabel ls label) :
      WrittenSource n .table (ts ++ ls) (.named ⟨name, label⟩) [name.base.value]
  | variable {n t ls label} (is : t.kind = .variable) (labelled : WrittenLabel ls label) :
      WrittenSource n .table (t :: ls) (.variable t.text label) []
  | parenthesized {n opening ts source names closing}
      (opens : opening.kind = .punctuation .leftParen)
      (inside : WrittenSource n .source ts source names)
      (closes : closing.kind = .punctuation .rightParen) :
      WrittenSource (n + 1) .table (opening :: (ts ++ [closing])) (.parenthesized source) names
  | derived {n opening first star middle ss sources names closing ls label}
      (opens : opening.kind = .punctuation .leftParen) (isSelect : first.kind = .keyword .select)
      (isStar : star.kind = .star) (isFrom : middle.kind = .keyword .from)
      (inside : WrittenSource n .list ss sources names)
      (closes : closing.kind = .punctuation .rightParen) (labelled : WrittenLabel ls (some label)) :
      WrittenSource (n + 1) .table (opening :: (first :: star :: middle :: ss ++ closing :: ls))
        (.derived { location := first.location, items := [.wildcard star.location], sources }
          (some label) []) names
  | single {n ts source names} (table : WrittenSource n .table ts source names) :
      WrittenSource n .source ts source names
  | joined {n ls left names js kind rs right names'}
      (front : WrittenSource n .source ls left names) (joins : WrittenJoin js kind)
      (back : WrittenSource n .table rs right names') (free : isConditional kind = false) :
      WrittenSource n .source (ls ++ (js ++ rs)) (.joined left right kind none) (names ++ names')
  | joinedOn {n ls left names js kind rs right names' on cs condition}
      (front : WrittenSource (n + 1) .source ls left names) (joins : WrittenJoin js kind)
      (back : WrittenSource (n + 1) .table rs right names') (bound : isConditional kind = true)
      (isOn : on.kind = .keyword .on) (asked : Written n (.at .disjunction) cs condition) :
      WrittenSource (n + 1) .source (ls ++ (js ++ (rs ++ on :: cs)))
        (.joined left right kind (some condition)) (names ++ names')
  | last {n ts source names} (written : WrittenSource n .source ts source names) :
      WrittenSource n .list ts [source] names
  | item {n ts source names comma us sources names'}
      (written : WrittenSource n .source ts source names)
      (isComma : comma.kind = .punctuation .comma)
      (rest : WrittenSource n .list us sources names') :
      WrittenSource n .list (ts ++ comma :: us) (source :: sources) (names ++ names')

/-! The first token, and all others. -/

def BeginsSource (t : Token) : Prop :=
  t.kind = .identifier ∨ t.kind = .variable ∨ t.kind = .punctuation .leftParen

variable {n : Nat} {part : SourcePart} {ts : List Token} {tree : part.Tree} {names : List String}

theorem WrittenSource.begins (written : WrittenSource n part ts tree names) :
    ∃ t us, ts = t :: us ∧ BeginsSource t := by
  induction written with
  | named named =>
      obtain ⟨t, us, rfl, delimited, -⟩ := named.begins
      exact ⟨t, _, rfl, .inl (Token.kind_of_isDelimited delimited)⟩
  | «variable» is => exact ⟨_, _, rfl, .inr (.inl is)⟩
  | parenthesized opens | derived opens => exact ⟨_, _, rfl, .inr (.inr opens)⟩
  | single _ ih | last _ ih => exact ih
  | joined _ _ _ _ ih | joinedOn _ _ _ _ _ _ ih | item _ _ _ ih =>
      obtain ⟨t, us, rfl, begins⟩ := ih
      exact ⟨t, _, rfl, begins⟩

theorem WrittenLabel.whole {label : Option Identifier} (labelled : WrittenLabel ts label) :
    ∀ t ∈ ts, t.endsBatch = false := by
  cases labelled with
  | absent => nofun
  | plain delimited =>
      simpa using endsBatch_of_kind (Token.kind_of_isDelimited delimited) ⟨nofun, nofun⟩
  | behindAs isAs delimited =>
      have name := endsBatch_of_kind (Token.kind_of_isDelimited delimited) ⟨nofun, nofun⟩
      simpa [endsBatch_of_keyword isAs] using name

theorem WrittenJoin.whole {kind : JoinKind} (joins : WrittenJoin ts kind) :
    ∀ t ∈ ts, t.endsBatch = false := by
  cases joins
  all_goals simp only [List.forall_mem_append, List.forall_mem_cons, List.not_mem_nil,
    false_implies, implies_true, and_true]
  case join isJoin => exact endsBatch_of_keyword isJoin
  case inner isSide isJoin | cross isSide isJoin =>
      exact ⟨endsBatch_of_keyword isSide, endsBatch_of_keyword isJoin⟩
  case outer flag isJoin isSide =>
      exact ⟨endsBatch_of_known isSide rfl rfl, flag.whole, endsBatch_of_keyword isJoin⟩
  case crossApply isSide isApply | outerApply isSide isApply =>
      exact ⟨endsBatch_of_keyword isSide,
        endsBatch_of_kind (Token.kind_of_isWord isApply) ⟨nofun, nofun⟩⟩

theorem WrittenSource.whole (written : WrittenSource n part ts tree names) :
    ∀ t ∈ ts, t.endsBatch = false := by
  induction written
  all_goals try simp only [List.cons_append, List.forall_mem_append, List.forall_mem_cons,
    List.not_mem_nil, false_implies, implies_true, and_true]
  case named named labelled => exact ⟨named.whole, labelled.whole⟩
  case «variable» is labelled => exact ⟨endsBatch_of_kind is ⟨nofun, nofun⟩, labelled.whole⟩
  case parenthesized opens _ closes inside =>
      exact ⟨endsBatch_of_punctuation opens, inside, endsBatch_of_punctuation closes⟩
  case derived opens isSelect isStar isFrom _ closes labelled inside =>
      exact ⟨endsBatch_of_punctuation opens, endsBatch_of_keyword isSelect,
        endsBatch_of_kind isStar ⟨nofun, nofun⟩, endsBatch_of_keyword isFrom, inside,
        endsBatch_of_punctuation closes, labelled.whole⟩
  case single ih | last ih => exact ih
  case joined _ joins _ _ front back => exact ⟨front, joins.whole, back⟩
  case joinedOn _ joins _ _ isOn asked front back =>
      exact ⟨front, joins.whole, back, endsBatch_of_keyword isOn, asked.whole⟩
  case item _ isComma _ source rest => exact ⟨source, endsBatch_of_punctuation isComma, rest⟩

end QueryNames.Grammar
