import QueryNames.Proofs.Groups.Open

/-!
What a skip passes over. Main statement: a skip goes over whole groups to the first token that it
looks for or that closes the group around it, and to the first end of input where there is no such
token; and a group that begins at the cursor is passed with the parenthesis that matches its first.
-/

namespace QueryNames.Grammar

/-- Tokens before an end of input in which the parentheses match. -/
inductive Balanced : List Token → Prop
  | nil : Balanced []
  | plain {t : Token} {ts : List Token} (goesOn : t.isEnd = false) (plain : t.isParen = false)
      (rest : Balanced ts) : Balanced (t :: ts)
  | group {opening closing : Token} {inner ts : List Token}
      (opens : opening.isPunctuation .leftParen = true)
      (closes : closing.isPunctuation .rightParen = true) (inside : Balanced inner)
      (rest : Balanced ts) : Balanced (opening :: (inner ++ closing :: ts))

/-- Balanced tokens in which `depth` parentheses stand that close groups opened before. -/
inductive Unwinds : Nat → List Token → Prop
  | done {ts : List Token} (balanced : Balanced ts) : Unwinds 0 ts
  | close {depth : Nat} {closing : Token} {inner ts : List Token}
      (closes : closing.isPunctuation .rightParen = true) (inside : Balanced inner)
      (rest : Unwinds depth ts) : Unwinds (depth + 1) (inner ++ closing :: ts)

/-! Parentheses match where the groups are counted and none is open in the end. -/

theorem goesOn_of_isPunctuation {t : Token} {p : Punctuation} (is : t.isPunctuation p = true) :
    t.isEnd = false :=
  Cursor.isAtEnd_of_isPunctuation (c := ⟨t, []⟩) is

section OpenedBy

variable {t : Token} {depth : Nat}

theorem openedBy_opening (opens : t.isPunctuation .leftParen = true) :
    openedBy depth t = some (depth + 1) := if_pos opens

theorem openedBy_closing (closes : t.isPunctuation .rightParen = true) :
    openedBy (depth + 1) t = some depth := by
  have opens : t.isPunctuation .leftParen ≠ true := by simp_all [Token.isPunctuation]
  rw [openedBy.eq_def, if_neg opens, if_pos closes]

theorem openedBy_plain (opens : t.isPunctuation .leftParen ≠ true)
    (closes : t.isPunctuation .rightParen ≠ true) : openedBy depth t = some depth := by
  rw [openedBy.eq_def, if_neg opens, if_neg closes]

end OpenedBy

theorem openedBy_eq_some {t : Token} {depth behind : Nat}
    (counts : openedBy depth t = some behind) :
    (t.isPunctuation .leftParen = true ∧ behind = depth + 1) ∨
      (t.isPunctuation .rightParen = true ∧ depth = behind + 1) ∨
      (t.isParen = false ∧ behind = depth) := by
  unfold openedBy at counts
  split at counts
  · rename_i opens
    exact .inl ⟨opens, (Option.some.inj counts).symm⟩
  · rename_i other
    split at counts
    · rename_i closes
      cases depth with
      | zero => cases counts
      | succ outer => exact .inr (.inl ⟨closes, congrArg (· + 1) (Option.some.inj counts)⟩)
    · rename_i unclosed
      exact .inr (.inr ⟨by simp [Token.isParen, other, unclosed], (Option.some.inj counts).symm⟩)

namespace Balanced

variable {ts us : List Token}

theorem opened (balanced : Balanced ts) (depth : Nat) : opened depth ts = some depth := by
  induction balanced generalizing depth with
  | nil => rfl
  | plain _ plain _ ih => rw [opened_plain plain, ih]
  | group opens closes _ _ inside rest =>
      rw [opened_opening opens, opened_append, inside, Option.bind_some, opened_closing closes,
        rest]

theorem goesOn (balanced : Balanced ts) : ∀ t ∈ ts, t.isEnd = false := by
  induction balanced with
  | nil => nofun
  | plain goesOn _ _ ih => exact List.forall_mem_cons.2 ⟨goesOn, ih⟩
  | group opens closes _ _ inside rest =>
      refine List.forall_mem_cons.2 ⟨goesOn_of_isPunctuation opens, ?_⟩
      refine List.forall_mem_append.2 ⟨inside, ?_⟩
      exact List.forall_mem_cons.2 ⟨goesOn_of_isPunctuation closes, rest⟩

end Balanced

namespace Unwinds

variable {ts : List Token} {depth : Nat}

theorem plain {t : Token} (goesOn : t.isEnd = false) (plain : t.isParen = false)
    (unwinds : Unwinds depth ts) : Unwinds depth (t :: ts) := by
  cases unwinds with
  | done balanced => exact .done (.plain goesOn plain balanced)
  | close closes inside rest => exact .close closes (.plain goesOn plain inside) rest

/-- What closes one group more, closes the one that opens right before. -/
theorem enter {opening : Token} (opens : opening.isPunctuation .leftParen = true)
    (unwinds : Unwinds (depth + 1) ts) : Unwinds depth (opening :: ts) := by
  cases unwinds with
  | close closes inside rest =>
      cases rest with
      | done balanced => exact .done (.group opens closes inside balanced)
      | @close _ closing inner ts closes' inside' rest' =>
          have longer := Unwinds.close closes' (.group opens closes inside inside') rest'
          simpa using longer

theorem of_opened (counts : opened depth ts = some 0) (goesOn : ∀ t ∈ ts, t.isEnd = false) :
    Unwinds depth ts := by
  induction ts generalizing depth with
  | nil =>
      obtain rfl : depth = 0 := Option.some.inj counts
      exact .done .nil
  | cons t ts ih =>
      obtain ⟨here, later⟩ := List.forall_mem_cons.1 goesOn
      rw [opened_cons] at counts
      obtain ⟨behind, step, counts⟩ := Option.bind_eq_some_iff.1 counts
      have rest := ih counts later
      rcases openedBy_eq_some step with ⟨opens, rfl⟩ | ⟨closes, rfl⟩ | ⟨plain, rfl⟩
      · exact rest.enter opens
      · exact .close closes .nil rest
      · exact rest.plain here plain

end Unwinds

theorem balanced_iff {ts : List Token} :
    Balanced ts ↔ opened 0 ts = some 0 ∧ ∀ t ∈ ts, t.isEnd = false := by
  constructor
  · exact fun balanced => ⟨balanced.opened 0, balanced.goesOn⟩
  · rintro ⟨counts, goesOn⟩
    cases Unwinds.of_opened counts goesOn with
    | done balanced => exact balanced

namespace Cursor

/-- A place that is reached from inside of `depth` groups over what closes them all and leaves no
other open. -/
def Leaves (depth : Nat) (c d : Cursor) : Prop :=
  ∃ run, opened depth run = some 0 ∧ (∀ t ∈ run, t.isEnd = false) ∧ run ++ d.tokens = c.tokens

/-- A place that is reached over balanced tokens. -/
def Reaches (c d : Cursor) : Prop := ∃ run, Balanced run ∧ run ++ d.tokens = c.tokens

/-- The first end of input. -/
structure FirstEnd (c d : Cursor) : Prop where
  passed : ∃ run, (∀ t ∈ run, t.isEnd = false) ∧ run ++ d.tokens = c.tokens
  ends : d.isAtEnd = true

/-- A parenthesis that closes, or a token that is looked for and is none that opens. -/
def Halts (stop : Token → Bool) (d : Cursor) : Prop :=
  d.current.isPunctuation .rightParen = true ∨
    d.current.isPunctuation .leftParen = false ∧ stop d.current = true

/-- The parenthesis at `d` closes the group that begins at `c`. -/
structure Matches (c d : Cursor) : Prop where
  opens : c.current.isPunctuation .leftParen = true
  closes : d.current.isPunctuation .rightParen = true
  inside : ∃ inner, Balanced inner ∧ c.tokens = c.current :: (inner ++ d.tokens)

variable {c d e : Cursor} {depth : Nat} {stop : Token → Bool}

theorem reaches_iff : c.Reaches d ↔ Leaves 0 c d := by
  simp only [Reaches, Leaves, balanced_iff, and_assoc]

/-- Nothing is left of a place behind which the cursor stands, or one token more is passed. -/
theorem leaves_cons {t : Token} (split : c.tokens = t :: e.tokens) :
    Leaves depth c d ↔ depth = 0 ∧ d = c ∨
      t.isEnd = false ∧ ∃ behind, openedBy depth t = some behind ∧ Leaves behind e d := by
  constructor
  · rintro ⟨_ | ⟨u, run⟩, counts, goesOn, whole⟩
    · exact .inl ⟨Option.some.inj counts, eq_of_tokens whole⟩
    · obtain ⟨rfl, whole⟩ := List.cons.inj (whole.trans split)
      obtain ⟨here, later⟩ := List.forall_mem_cons.1 goesOn
      rw [opened_cons] at counts
      obtain ⟨behind, step, counts⟩ := Option.bind_eq_some_iff.1 counts
      exact .inr ⟨here, behind, step, run, counts, later, whole⟩
  · rintro (⟨rfl, rfl⟩ | ⟨here, behind, step, run, counts, later, whole⟩)
    · exact ⟨[], rfl, nofun, rfl⟩
    · refine ⟨t :: run, ?_, List.forall_mem_cons.2 ⟨here, later⟩, ?_⟩
      · rw [opened_cons, step]
        exact counts
      · rw [split, ← whole]
        rfl

/-- Where a skip comes to that begins inside of `depth` groups: to the first place outside of them
where it halts, or else to the first end of input. -/
def SkipsTo (stop : Token → Bool) (depth : Nat) (c d : Cursor) : Prop :=
  (Leaves depth c d ∧ Halts stop d ∧ ∀ e, Leaves depth c e → Halts stop e → e.tokens <:+ d.tokens) ∨
    ((∀ e, Leaves depth c e → ¬Halts stop e) ∧ FirstEnd c d)

namespace SkipsTo

theorem here (halts : Halts stop c) : SkipsTo stop 0 c c := by
  refine .inl ⟨⟨[], rfl, nofun, rfl⟩, halts, ?_⟩
  rintro e ⟨run, -, -, whole⟩ -
  exact ⟨run, whole⟩

theorem atEnd (ends : c.isAtEnd = true) (depth : Nat) : SkipsTo stop depth c c := by
  by_cases stops : depth = 0 ∧ Halts stop c
  · obtain ⟨rfl, halts⟩ := stops
    exact .here halts
  · refine .inr ⟨?_, ⟨[], nofun, rfl⟩, ends⟩
    rintro e ⟨_ | ⟨t, run⟩, counts, inside, whole⟩ halts
    · obtain rfl : e = c := eq_of_tokens whole
      exact stops ⟨Option.some.inj counts, halts⟩
    · obtain ⟨rfl, -⟩ := List.cons.inj whole
      have goesOn := inside c.current List.mem_cons_self
      rw [isAtEnd, goesOn] at ends
      contradiction

/-- One token is passed, where the skip does not halt. -/
theorem next {t : Token} {behind : Nat} (split : c.tokens = t :: e.tokens)
    (inside : t.isEnd = false)
    (goesOn : depth = 0 → ¬Halts stop c) (step : openedBy depth t = some behind)
    (skips : SkipsTo stop behind e d) : SkipsTo stop depth c d := by
  have onward {f : Cursor} (leaves : Leaves depth c f) (halts : Halts stop f) :
      Leaves behind e f := by
    rcases (leaves_cons split).1 leaves with ⟨outside, rfl⟩ | ⟨-, behind', step', leaves⟩
    · exact absurd halts (goesOn outside)
    · rw [step] at step'
      obtain rfl := Option.some.inj step'
      exact leaves
  rcases skips with ⟨leaves, halts, first⟩ | ⟨never, ⟨run, passed, whole⟩, ends⟩
  · refine .inl ⟨(leaves_cons split).2 (.inr ⟨inside, behind, step, leaves⟩), halts, ?_⟩
    exact fun f leaves halts => first f (onward leaves halts) halts
  · refine .inr ⟨fun f leaves halts => never f (onward leaves halts) halts, ?_, ends⟩
    refine ⟨t :: run, List.forall_mem_cons.2 ⟨inside, passed⟩, ?_⟩
    rw [split, ← whole]
    rfl

end SkipsTo

theorem skipFrom_skipsTo (stop : Token → Bool) (depth : Nat) {t : Token} {ahead : List Token}
    (closed : Closed (t :: ahead)) :
    SkipsTo stop depth ⟨t, ahead⟩ (skipFrom stop depth t ahead) := by
  induction ahead generalizing t depth with
  | nil =>
      have ends : t.isEnd = true := closed
      exact .atEnd (c := ⟨t, []⟩) ends depth
  | cons next ahead ih =>
      have behind : Closed (next :: ahead) := closed.of_suffix (List.suffix_cons _ _) (by simp)
      have split : (Cursor.mk t (next :: ahead)).tokens = t :: (Cursor.mk next ahead).tokens := rfl
      unfold skipFrom
      by_cases ends : t.isEnd = true
      · rw [if_pos ends]
        exact .atEnd (c := ⟨t, next :: ahead⟩) ends depth
      have inside : t.isEnd = false := Bool.eq_false_iff.2 ends
      rw [if_neg ends]
      by_cases opens : t.isPunctuation .leftParen = true
      · have halts : ¬Halts stop ⟨t, next :: ahead⟩ := by
          simp_all [Halts, Token.isPunctuation]
        rw [if_pos opens]
        exact .next split inside (fun _ => halts) (openedBy_opening opens) (ih _ behind)
      rw [if_neg opens]
      by_cases closes : t.isPunctuation .rightParen = true
      · rw [if_pos closes]
        cases depth with
        | zero => exact .here (.inl closes)
        | succ depth =>
            have outer : ¬depth + 1 = 0 := Nat.succ_ne_zero depth
            exact .next split inside (absurd · outer) (openedBy_closing closes) (ih _ behind)
      rw [if_neg closes]
      by_cases stops : (depth == 0 && stop t) = true
      · obtain ⟨rfl, found⟩ : depth = 0 ∧ stop t = true := by simpa using stops
        rw [if_pos stops]
        exact .here (.inr ⟨Bool.eq_false_iff.2 opens, found⟩)
      · rw [if_neg stops]
        refine .next split inside (fun outside halts => ?_) (openedBy_plain opens closes)
          (ih _ behind)
        obtain ⟨-, found⟩ := halts.resolve_left closes
        exact stops (by simp [outside, found])

theorem skipUntil_skipsTo (stop : Token → Bool) (closed : Closed c.tokens) :
    SkipsTo stop 0 c (c.skipUntil stop) := skipFrom_skipsTo stop 0 closed

/-- Balanced tokens do not go on behind a parenthesis that closes the group around them. -/
theorem Reaches.eq_of_suffix (first : c.Reaches d) (second : c.Reaches e)
    (closes : d.current.isPunctuation .rightParen = true) (behind : e.tokens <:+ d.tokens) :
    e = d := by
  obtain ⟨run, balanced, whole⟩ := first
  obtain ⟨run', balanced', whole'⟩ := second
  obtain ⟨_ | ⟨t, more⟩, split⟩ := behind
  · exact eq_of_tokens split
  · obtain ⟨rfl, -⟩ := List.cons.inj split
    have longer : run' = run ++ d.current :: more := by
      have same : run' ++ e.tokens = (run ++ d.current :: more) ++ e.tokens := by
        rw [whole', ← whole, ← split, List.append_assoc]
      exact List.append_cancel_right same
    have opens : d.current.isPunctuation .leftParen = false := by
      simp_all [Token.isPunctuation]
    have counts := balanced'.opened 0
    rw [longer, opened_append, balanced.opened, Option.bind_some, opened_cons, openedBy,
      if_neg (by simp [opens]), if_pos closes] at counts
    cases counts

/-- The group that begins at a cursor is passed with the parenthesis that matches its first. -/
theorem skipParenthesized_matches (closed : Closed c.tokens)
    (opens : c.current.isPunctuation .leftParen = true) :
    (∃ d, c.Matches d ∧ d.tokens = d.current :: c.skipParenthesized.tokens ∧
        ∀ e, c.Matches e → e = d) ∨
      (∀ d, ¬c.Matches d) ∧ FirstEnd c c.skipParenthesized := by
  have goesOn := isAtEnd_of_isPunctuation opens
  have step := tokens_advance closed goesOn
  have behind : Closed c.advance.tokens := closed.of_suffix (advance_suffix c) (by simp)
  have matches_iff (d : Cursor) : c.Matches d ↔
      c.advance.Reaches d ∧ d.current.isPunctuation .rightParen = true := by
    constructor
    · rintro ⟨-, closes, inner, balanced, whole⟩
      exact ⟨⟨inner, balanced, (List.cons.inj (step.symm.trans whole)).2.symm⟩, closes⟩
    · rintro ⟨⟨inner, balanced, whole⟩, closes⟩
      exact ⟨opens, closes, inner, balanced, by rw [whole, ← step]⟩
  rw [skipParenthesized, if_pos opens]
  dsimp only
  have skips : SkipsTo (fun _ => false) 0 c.advance c.advance.skipGroup :=
    skipUntil_skipsTo _ behind
  rcases skips with ⟨leaves, halts, first⟩ | ⟨never, firstEnd⟩
  · have closes := halts.resolve_right fun found => Bool.false_ne_true found.2
    have reached := reaches_iff.2 leaves
    have closed' : Closed c.advance.skipGroup.tokens :=
      behind.of_suffix (skipUntil_suffix _ _) (by simp)
    refine .inl ⟨c.advance.skipGroup, (matches_iff _).2 ⟨reached, closes⟩, ?_, fun e is => ?_⟩
    · rw [if_pos closes]
      exact tokens_advance closed' (isAtEnd_of_isPunctuation closes)
    · obtain ⟨reached', closes'⟩ := (matches_iff e).1 is
      exact reached.eq_of_suffix reached' closes (first e (reaches_iff.1 reached') (.inl closes'))
  · refine .inr ⟨fun d is => ?_, ?_⟩
    · obtain ⟨reached, closes⟩ := (matches_iff d).1 is
      exact never d (reaches_iff.1 reached) (.inl closes)
    · obtain ⟨⟨run, passed, whole⟩, ends⟩ := firstEnd
      have unclosed : c.advance.skipGroup.current.isPunctuation .rightParen = false := by
        rw [Bool.eq_false_iff]
        intro closes
        rw [isAtEnd_of_isPunctuation closes] at ends
        contradiction
      rw [if_neg (by simp [unclosed])]
      exact ⟨⟨c.current :: run, List.forall_mem_cons.2 ⟨goesOn, passed⟩,
        by rw [step, ← whole]; rfl⟩, ends⟩

/-- Skips respect groups: one that looks for something stops at the first place for it that is
reached over balanced tokens, one over a group behind the parenthesis that matches, and both at the
first end of input where there is no such place. -/
theorem skips_whole_groups {c : Cursor} (closed : Closed c.tokens) :
    (∀ stop, let d := c.skipUntil stop
      (c.Reaches d ∧ Halts stop d ∧ ∀ e, c.Reaches e → Halts stop e → e.tokens <:+ d.tokens) ∨
        (∀ e, c.Reaches e → ¬Halts stop e) ∧ FirstEnd c d) ∧
    (c.current.isPunctuation .leftParen = true → let d := c.skipParenthesized
      (∃ e, c.Matches e ∧ e.tokens = e.current :: d.tokens ∧ ∀ f, c.Matches f → f = e) ∨
        (∀ e, ¬c.Matches e) ∧ FirstEnd c d) ∧
    (c.current.isPunctuation .leftParen = false → c.skipParenthesized = c) := by
  refine ⟨fun stop => ?_, skipParenthesized_matches closed, fun other => ?_⟩
  · simp only [reaches_iff]
    exact skipUntil_skipsTo stop closed
  · rw [skipParenthesized, if_neg (by simp [other])]

/-- The comma inside of the groups is passed, and the inner group with the outer one. -/
theorem skips_whole_groups_nested :
    let c := ofTokens (TokenStream.ofText "(a, (b)), c").tokens
    let d := c.skipUntil (·.isPunctuation .comma)
    Closed c.tokens ∧ (c.Reaches d ∧ d.tokens.map (·.text) = [",", "c", ""]) ∧
      c.current.isPunctuation .leftParen = true ∧
      ∃ e, c.Matches e ∧ e.tokens = e.current :: c.skipParenthesized.tokens ∧
        c.skipParenthesized.tokens.map (·.text) = [",", "c", ""] := by
  intro c d
  have closed : Closed c.tokens := closed_ofTokens _
  have known : c.current.isPunctuation .leftParen = true ∧ d.isAtEnd = false ∧
      c.skipParenthesized.isAtEnd = false ∧ d.tokens.map (·.text) = [",", "c", ""] ∧
      c.skipParenthesized.tokens.map (·.text) = [",", "c", ""] := by
    decide +kernel
  obtain ⟨opens, inside, inside', rest, rest'⟩ := known
  obtain ⟨skips, passes, -⟩ := skips_whole_groups closed
  refine ⟨closed, ⟨?_, rest⟩, opens, ?_⟩
  · rcases skips (·.isPunctuation .comma) with ⟨reached, -⟩ | ⟨-, -, ends⟩
    · exact reached
    · rw [inside] at ends
      contradiction
  · rcases passes opens with ⟨e, found, behind, -⟩ | ⟨-, -, ends⟩
    · exact ⟨e, found, behind, rest'⟩
    · rw [inside'] at ends
      contradiction

-- a group that is not closed is passed to the end of input
example :
    let c := ofTokens (TokenStream.ofText "(a, (b), c").tokens
    c.skipParenthesized.isAtEnd = true ∧ (c.skipUntil (·.isPunctuation .comma)).isAtEnd = true := by
  decide +kernel

end Cursor

end QueryNames.Grammar
