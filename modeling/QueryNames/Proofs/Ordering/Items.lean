import QueryNames.Proofs.Dangling.Query
import QueryNames.Proofs.Resumption.Skip
import QueryNames.Proofs.Written.Primary

/-!
The items of an ordering. Main statements: what is read alone is read so before a comma or a closing
parenthesis, unless a group behind `WITHIN` is left open in it; items that are read alone close the
groups that are closed in them, or leave some open; and if they leave none open, then with commas
between them they are the items of a list in parentheses.
-/

namespace QueryNames.Grammar

open Grammar.Parser

/-- A comma, or the parenthesis behind a list. -/
def PartsItems (t : Token) : Prop :=
  t.kind = .punctuation .comma ∨ t.kind = .punctuation .rightParen

theorem PartsItems.follows {t : Token} (parts : PartsItems t) : t.kind.follows = true := by
  rcases parts with kind | kind <;> rw [kind] <;> rfl

theorem PartsItems.joins {t : Token} (parts : PartsItems t) : t.kind.joins = false := by
  rcases parts with kind | kind <;> rw [kind] <;> rfl

namespace Parser

variable {p : Parser α} {ts : List Token} {stop : Token} {a : α}

/-- What is read to the end of the tokens is read to what parts them from those behind. -/
theorem yields_of_alone [Stepwise p] [dangles : ∀ x, Dangles x 0 p]
    (goesOn : ∀ t ∈ ts, t.kind ≠ .endOfInput) (isStop : stop.kind = .endOfInput)
    (closed : ¬OrderingLeftOpen (ts ++ [stop]))
    (alone : p ⟨.ofTokens (ts ++ [stop]), []⟩ = (some a, ⟨⟨stop, []⟩, []⟩)) :
    Yields p ts a PartsItems := by
  rintro ⟨e, reported⟩ parts
  have noOperator : e.current.kind.joins = false := parts.joins
  let x : Overhang := ⟨ts, stop, e.current, e.ahead, goesOn, isStop, parts.follows,
    fun joins => absurd joins (by rw [noOperator]; exact Bool.false_ne_true), closed⟩
  obtain ⟨c, left⟩ := @Cursor.exists_tokens (ts ++ [stop]) (by simp)
  have paired : x.Paired c (e.prepend ts) :=
    ⟨[], ts, rfl, left, @State.tokens_prepend ⟨e, reported⟩ ts⟩
  have run : p ⟨c, []⟩ = (some a, ⟨x.left, []⟩) := by
    have closedTokens : Closed c.tokens := left ▸ closed_concat ts (Token.isEnd_iff.2 isStop)
    rwa [← left, Cursor.ofTokens_tokens closedTokens] at alone
  -- the two runs come apart only over an operator, and none follows
  have behind : p ⟨e.prepend ts, []⟩ = (some a, ⟨e, []⟩) := by
    rcases (dangles x).runs paired (.zero c) with
      complained | ⟨a?, c', d', found, found', paired'⟩ | ⟨last, a', complaint, hangs, -, -⟩
    · rw [run] at complained
      exact absurd rfl complained
    · rw [run] at found
      cases found
      rcases paired'.view with ⟨-, rfl⟩ | ⟨t, c'', d'', goesOn, same, -, -⟩
      · exact found'
      · have isStop' : stop = t := congrArg Cursor.current same
        exact absurd (isStop' ▸ isStop) goesOn
    · have joins : e.current.kind.joins = true := hangs.joins
      rw [noOperator] at joins
      cases joins
  exact run_behind_complaints behind reported

end Parser

/-- Read alone with `n` levels left, the tokens are one item of an ordering, up to their end and
without a complaint. -/
structure OrdersAlone (n : Nat) (ts : List Token) (item : OrderItem) : Prop where
  oneBatch : ∀ t ∈ ts, t.endsBatch = false
  reads : ∃ stop : Token, stop.kind = .endOfInput ∧
    orderItem (level n) ⟨.ofTokens (ts ++ [stop]), []⟩ = (some item, ⟨⟨stop, []⟩, []⟩)

/-- Such items, with commas between them. -/
inductive OrderedBy (n : Nat) : List Token → List OrderItem → Prop
  | last {ts item} (alone : OrdersAlone n ts item) : OrderedBy n ts [item]
  | item {ts us comma item items} (alone : OrdersAlone n ts item)
      (isComma : comma.kind = .punctuation .comma) (rest : OrderedBy n us items) :
      OrderedBy n (ts ++ comma :: us) (item :: items)

variable {n depth : Nat} {ts us : List Token} {item : OrderItem} {items : List OrderItem}

/-- Where all groups are closed, none is left open behind `WITHIN`. -/
theorem not_orderingLeftOpen_of_balanced {stop : Token} (isStop : stop.kind = .endOfInput)
    (balanced : opened 0 ts = some 0) : ¬OrderingLeftOpen (ts ++ [stop]) := by
  rintro ⟨front, word, c, left, split, announces, -, unclosed⟩
  have plain : word.isParen = false := by
    rcases Bool.or_eq_true_iff.1 announces with is | is
    · simp [Token.isParen, Token.isPunctuation, KeepsFrom.kind_of_isWord is]
    · simp [Token.isParen, Token.isPunctuation, Token.isKeyword_iff.1 is]
  have whole : opened 0 (front ++ word :: c.tokens) = some 0 := by
    rw [split, opened_append, balanced, Option.bind_some]
    exact opened_end (Token.isEnd_iff.2 isStop) 0
  obtain ⟨before, -, behind⟩ := Option.bind_eq_some_iff.1 ((opened_append _ _ _).symm.trans whole)
  -- what is open behind the word is open at the end, however deep the word stands
  have deeper := opened_add unclosed before
  rw [opened_plain plain] at behind
  rw [Nat.zero_add, behind, Option.some.injEq] at deeper
  omega

namespace OrdersAlone

theorem exists_of_run {stop : Token} (oneBatch : ∀ t ∈ ts, t.endsBatch = false)
    (isStop : stop.kind = .endOfInput)
    (found : (orderItem (level n) ⟨.ofTokens (ts ++ [stop]), []⟩).1.isSome = true)
    (ends : (orderItem (level n) ⟨.ofTokens (ts ++ [stop]), []⟩).2.cursor.tokens = [stop])
    (quiet : (orderItem (level n) ⟨.ofTokens (ts ++ [stop]), []⟩).2.reported = []) :
    ∃ item, OrdersAlone n ts item ∧
      (orderItem (level n) ⟨.ofTokens (ts ++ [stop]), []⟩).1 = some item := by
  rcases run : orderItem (level n) ⟨.ofTokens (ts ++ [stop]), []⟩ with ⟨_ | item, c, reported⟩ <;>
    rw [run] at found ends quiet
  · cases found
  · obtain rfl : c = ⟨stop, []⟩ := Cursor.eq_of_tokens ends
    obtain rfl : reported = [] := quiet
    exact ⟨item, ⟨oneBatch, stop, isStop, run⟩, rfl⟩

/-- No group is closed in an item that was not opened in it. -/
theorem opened (alone : OrdersAlone n ts item) : ∃ left, Grammar.opened 0 ts = some left := by
  obtain ⟨stop, isStop, reads⟩ := alone.reads
  have goesOn (t : Token) (member : t ∈ ts) :=
    Token.kind_ne_of_endsBatch (alone.oneBatch t member)
  have ended : Ended (ts ++ [stop]) := .concat goesOn isStop
  obtain ⟨c, tokens⟩ := @Cursor.exists_tokens (ts ++ [stop]) (by simp)
  rw [← tokens, Cursor.ofTokens_tokens (tokens ▸ ended.closed)] at reads
  -- at a group that closes without being opened the item would have ended before its last token
  rcases Counts.opened_of_run (p := orderItem (level n)) (fun _ => inferInstance) (tokens ▸ ended)
    reads with ⟨left, found⟩ | ⟨front, left, split, found⟩
  · rw [tokens, opened_append] at found
    obtain ⟨before, begun, -⟩ := Option.bind_eq_some_iff.1 found
    exact ⟨before, begun⟩
  · rw [tokens] at split
    obtain rfl : front = ts := List.append_cancel_right split
    exact ⟨left, found⟩

theorem yields (alone : OrdersAlone n ts item) (balanced : Grammar.opened 0 ts = some 0) :
    Yields (orderItem (level n)) ts item PartsItems := by
  obtain ⟨stop, isStop, reads⟩ := alone.reads
  have goesOn (t : Token) (member : t ∈ ts) :=
    Token.kind_ne_of_endsBatch (alone.oneBatch t member)
  exact yields_of_alone goesOn isStop (not_orderingLeftOpen_of_balanced isStop balanced) reads

end OrdersAlone

namespace OrderedBy

theorem oneBatch (ordered : OrderedBy n us items) : ∀ t ∈ us, t.endsBatch = false := by
  induction ordered with
  | last alone => exact alone.oneBatch
  | item alone isComma _ ih =>
      exact List.forall_mem_append.2
        ⟨alone.oneBatch, List.forall_mem_cons.2 ⟨endsBatch_of_punctuation isComma, ih⟩⟩

theorem opened (ordered : OrderedBy n us items) : ∃ left, Grammar.opened 0 us = some left := by
  induction ordered with
  | last alone => exact alone.opened
  | @item ts us comma item items alone isComma _ ih =>
      obtain ⟨first, begun⟩ := alone.opened
      obtain ⟨left, found⟩ := ih
      have plain : comma.isParen = false := by
        simp [Token.isParen, Token.isPunctuation, isComma]
      refine ⟨left + first, ?_⟩
      rw [opened_append, begun, Option.bind_some, opened_plain plain]
      simpa using opened_add found first

/-- The list leaves no group open, so none of its items does. -/
theorem balanced_parts {comma : Token} (alone : OrdersAlone n ts item)
    (isComma : comma.kind = .punctuation .comma) (rest : OrderedBy n us items)
    (balanced : Grammar.opened 0 (ts ++ comma :: us) = some 0) :
    Grammar.opened 0 ts = some 0 ∧ Grammar.opened 0 us = some 0 := by
  obtain ⟨first, begun⟩ := alone.opened
  obtain ⟨left, found⟩ := rest.opened
  have plain : comma.isParen = false := by simp [Token.isParen, Token.isPunctuation, isComma]
  have all := opened_add found first
  rw [opened_append, begun, Option.bind_some, opened_plain plain] at balanced
  rw [Nat.zero_add, balanced, Option.some.injEq] at all
  obtain ⟨rfl, rfl⟩ : left = 0 ∧ first = 0 := by omega
  exact ⟨begun, found⟩

theorem yields (ordered : OrderedBy n us items) (balanced : Grammar.opened 0 us = some 0) :
    Yields (orderList (level n)) us items (·.kind = .punctuation .rightParen) := by
  induction ordered with
  | last alone =>
      refine commaList_last (alone.yields balanced) fun t closes => ⟨.inr closes, ?_, ?_, ?_⟩
      · simp [endsOrderItem, endsItem, endsClause, closes]
      · rw [closes]
        decide
      · rw [closes]
        decide
  | item alone isComma rest ih =>
      obtain ⟨first, later⟩ := balanced_parts alone isComma rest balanced
      exact commaList_item isComma (alone.yields first) (.inl isComma)
        (by simp [endsOrderItem, endsItem, Token.isPunctuation, isComma]) (ih later)

end OrderedBy

end QueryNames.Grammar
