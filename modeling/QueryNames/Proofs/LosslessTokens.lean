import QueryNames.Proofs.Text.Kind

/-!
Reading a text loses nothing of it. Main statement: the tokens of a text lie in it one behind the
other, each where its own text stands, with only white space and comments before, between and behind
them; and a reader that takes them one at a time gets no more of them behind the end of input.
-/

namespace QueryNames

open Piece (ClosesComment)

/-- Tokens as they lie in a text that begins at a place. A comment that does not close goes up to
the end of input. -/
inductive Layout : Location → List Token → List Char → Prop
  | stop {place : Location} : Layout place [.endOfInput place] []
  | openComment {place : Location} {body : List Char}
      (open_ : ∀ text, text <+: body → ¬ ClosesComment 0 text) :
      Layout place [.endOfInput (place.after ('/' :: '*' :: body))] ('/' :: '*' :: body)
  | blank {place : Location} {c : Char} {tokens : List Token} {cs : List Char}
      (blank : Text.isBlank c = true) (behind : Layout (place.step c) tokens cs) :
      Layout place tokens (c :: cs)
  | lineComment {place : Location} {body : List Char} {tokens : List Token} {cs : List Char}
      (inLine : '\n' ∉ body) (lineEnds : cs.head?.all (· == '\n') = true)
      (behind : Layout (place.after ('-' :: '-' :: body)) tokens cs) :
      Layout place tokens ('-' :: '-' :: body ++ cs)
  | blockComment {place : Location} {body : List Char} {tokens : List Token} {cs : List Char}
      (closes : ClosesComment 0 body)
      (behind : Layout (place.after ('/' :: '*' :: body)) tokens cs) :
      Layout place tokens ('/' :: '*' :: body ++ cs)
  | token {kind : TokenKind} {place : Location} {text : List Char} {tokens : List Token}
      {cs : List Char} (inked : text ≠ []) (goesOn : kind ≠ .endOfInput)
      (behind : Layout (place.after text) tokens cs) :
      Layout place (⟨kind, String.ofList text, place⟩ :: tokens) (text ++ cs)

/-- The text of the token is a part of `cs`, and the token has the place of that part. -/
def Token.StandsIn (place : Location) (cs : List Char) (t : Token) : Prop :=
  ∃ before behind, cs = before ++ (t.text.toList ++ behind) ∧ t.location = place.after before

section StandsIn

variable {place : Location} {cs : List Char} {t : Token}

theorem Token.StandsIn.behind (text : List Char) (stands : t.StandsIn (place.after text) cs) :
    t.StandsIn place (text ++ cs) := by
  obtain ⟨before, behind, rfl, here⟩ := stands
  exact ⟨text ++ before, behind, (List.append_assoc ..).symm,
    here.trans (Location.after_append ..).symm⟩

theorem Token.StandsIn.offset_le (stands : t.StandsIn place cs) :
    place.offset ≤ t.location.offset := by
  obtain ⟨before, behind, _, here⟩ := stands
  rw [here, Location.offset_after]
  exact Nat.le_add_right _ _

end StandsIn

namespace Layout

variable {place : Location} {tokens : List Token} {cs : List Char}

theorem blanks {text : List Char} (blanks : ∀ c ∈ text, Text.isBlank c = true)
    (behind : Layout (place.after text) tokens cs) : Layout place tokens (text ++ cs) := by
  induction text generalizing place with
  | nil => exact behind
  | cons c text ih =>
      apply Layout.blank (blanks c List.mem_cons_self)
      apply ih _ behind
      intro d member
      exact blanks d (List.mem_cons_of_mem _ member)

/-- One piece before a text with its tokens. -/
theorem cons {cut : Piece.Cut} (fits : cut.Fits) (inked : cut.text ≠ [])
    (behind : Layout (place.after cut.text)
      (tokens ++ [.endOfInput ((place.after cut.text).after cut.rest)]) cut.rest)
    (nothing : cut.rest = [] → tokens = []) :
    Layout place ((Piece.token? ⟨cut.kind, cut.text, place⟩).toList ++ tokens ++
        [.endOfInput ((place.after cut.text).after cut.rest)]) (cut.text ++ cut.rest) := by
  obtain ⟨kind, text, rest⟩ := cut
  cases kind with
  | blank => exact behind.blanks fits
  | lineComment =>
      obtain ⟨body, rfl, inLine, lineEnds⟩ := fits
      exact .lineComment inLine lineEnds behind
  | blockComment =>
      obtain ⟨body, rfl, closes⟩ := fits
      exact .blockComment closes behind
  | unclosedComment =>
      obtain ⟨body, rfl, rfl, open_⟩ := fits
      obtain rfl := nothing rfl
      have all : '/' :: '*' :: body ++ [] = '/' :: '*' :: body := List.append_nil _
      rw [all]
      exact .openComment open_
  | token kind => exact .token inked fits behind
  | fault fault => exact .token inked nofun behind

theorem of_chain (place : Location) (lineIsBlank : Bool) (cs : List Char) :
    Layout place
      ((Piece.chain place lineIsBlank cs).filterMap Piece.token? ++ [.endOfInput (place.after cs)])
      cs := by
  fun_induction Piece.chain place lineIsBlank cs with
  | case1 => exact .stop
  | case2 place lineIsBlank c r first ih =>
      have split := Piece.cut_splits lineIsBlank c r
      have whole : place.after (c :: r) = (place.after first.text).after first.rest := by
        rw [← split.append, Location.after_append]
      have nothing : first.rest = [] → (Piece.chain (place.after first.text)
          (Piece.keepsLineBlank lineIsBlank first.text) first.rest).filterMap Piece.token? =
            [] := by
        intro none_
        rw [none_, Piece.chain]
        rfl
      have longer := cons (Piece.cut_fits lineIsBlank c r) split.text_ne_nil ih nothing
      rw [split.append] at longer
      rw [whole, List.filterMap_cons]
      cases found : Piece.token? ⟨first.kind, first.text, place⟩ with
      | none =>
          rw [found] at longer
          exact longer
      | some t =>
          rw [found] at longer
          exact longer

theorem closed (layout : Layout place tokens cs) :
    ∃ front, tokens = front ++ [.endOfInput (place.after cs)] ∧
      ∀ t ∈ front, t.kind ≠ .endOfInput ∧ t.text ≠ "" := by
  induction layout with
  | stop => exact ⟨[], rfl, nofun⟩
  | openComment open_ => exact ⟨[], rfl, nofun⟩
  | blank blank behind ih => exact ih
  | lineComment inLine lineEnds behind ih =>
      rw [Location.after_append]
      exact ih
  | blockComment closes behind ih =>
      rw [Location.after_append]
      exact ih
  | @token kind place text tokens cs inked goesOn behind ih =>
      obtain ⟨front, whole, sound⟩ := ih
      have named : String.ofList text ≠ "" := by
        intro empty
        exact inked (String.ofList_eq_empty_iff.1 empty)
      refine ⟨⟨kind, String.ofList text, place⟩ :: front, ?_, ?_⟩
      · rw [whole, Location.after_append]
        rfl
      · exact List.forall_mem_cons.2 ⟨⟨goesOn, named⟩, sound⟩

theorem stands (layout : Layout place tokens cs) : ∀ t ∈ tokens, t.StandsIn place cs := by
  induction layout with
  | stop =>
      intro t member
      rw [List.mem_singleton.1 member]
      exact ⟨[], [], rfl, rfl⟩
  | @openComment place body open_ =>
      intro t member
      rw [List.mem_singleton.1 member]
      exact ⟨'/' :: '*' :: body, [], (List.append_nil _).symm, rfl⟩
  | @blank place c tokens cs blank behind ih =>
      intro t member
      exact (ih t member).behind [c]
  | lineComment inLine lineEnds behind ih =>
      intro t member
      exact (ih t member).behind _
  | blockComment closes behind ih =>
      intro t member
      exact (ih t member).behind _
  | @token kind place text tokens cs inked goesOn behind ih =>
      rw [List.forall_mem_cons]
      constructor
      · exact ⟨[], cs, by rw [String.toList_ofList]; rfl, rfl⟩
      · intro t member
        exact (ih t member).behind text

/-- Each token begins where the one before it has ended, or further on. -/
theorem ordered (layout : Layout place tokens cs) :
    tokens.Pairwise fun t u => t.location.offset < u.location.offset ∧
      t.location.offset + t.text.utf8ByteSize ≤ u.location.offset := by
  induction layout with
  | stop => exact List.pairwise_singleton _ _
  | openComment open_ => exact List.pairwise_singleton _ _
  | blank blank behind ih => exact ih
  | lineComment inLine lineEnds behind ih => exact ih
  | blockComment closes behind ih => exact ih
  | @token kind place text tokens cs inked goesOn behind ih =>
      apply List.Pairwise.cons _ ih
      intro u member
      have later := (behind.stands u member).offset_le
      have size := Location.offset_after place text
      have inked : 0 < (String.ofList text).utf8ByteSize := by
        apply Nat.pos_of_ne_zero
        intro empty
        exact inked (String.ofList_eq_empty_iff.1 (String.utf8ByteSize_eq_zero_iff.1 empty))
      dsimp only
      omega

end Layout

/-! Reading token by token. -/

namespace Lexer

/-- The reader when `n` tokens have been asked for. -/
def pulled (lexer : Lexer) : Nat → Lexer
  | 0 => lexer
  | n + 1 => (lexer.pulled n).next.2

theorem remaining_pulled (lexer : Lexer) (n : Nat) :
    (lexer.pulled n).remaining = lexer.remaining.drop n := by
  induction n with
  | zero => rfl
  | succ n ih => rw [pulled, (next_remaining _).2, ih, List.tail_drop]

theorem errors_pulled (lexer : Lexer) (n : Nat) :
    (lexer.pulled n).errors ++ (lexer.pulled n).ahead.filterMap Piece.diagnostic? =
      lexer.errors ++ lexer.ahead.filterMap Piece.diagnostic? := by
  induction n with
  | zero => rfl
  | succ n ih => rw [pulled, next_errors, ih]

theorem ahead_pulled {lexer : Lexer} (kept : lexer.finished = true → lexer.ahead = []) (n : Nat) :
    (lexer.pulled n).finished = true → (lexer.pulled n).ahead = [] := by
  induction n with
  | zero => exact kept
  | succ n ih => exact next_ahead ih

theorem finished_of_remaining {lexer : Lexer} (nothing : lexer.remaining = []) :
    lexer.finished = true := by
  cases finished : lexer.finished with
  | true => rfl
  | false => simp [remaining, finished] at nothing

/-- Pull number `n` gives the token with that number; behind the last one a pull does nothing, and
all errors of the text are there. -/
theorem next_pulled (origin : Location) (text : String) (n : Nat) :
    let stream := TokenStream.ofTextAt origin text
    let lexer := (ofTextAt origin text).pulled n
    lexer.next.1 = stream.tokens[n]? ∧
      (stream.tokens.length ≤ n → lexer.next = (none, lexer) ∧ lexer.errors = stream.errors) := by
  intro stream lexer
  have remaining : lexer.remaining = stream.tokens.drop n := remaining_pulled _ n
  constructor
  · rw [(next_remaining lexer).1, remaining, List.head?_drop]
  · intro past
    have finished : lexer.finished = true := by
      apply finished_of_remaining
      rw [remaining]
      exact List.drop_eq_nil_of_le past
    have begun : (ofTextAt origin text).finished = false := rfl
    have nothing : lexer.ahead = [] := ahead_pulled (by simp [begun]) n finished
    have errors : lexer.errors ++ lexer.ahead.filterMap Piece.diagnostic? = [] ++ stream.errors :=
      errors_pulled (ofTextAt origin text) n
    apply And.intro (next_of_finished finished)
    rwa [nothing, List.filterMap_nil, List.append_nil, List.nil_append] at errors

end Lexer

/-- Every text is read whole. -/
theorem TokenStream.ofTextAt_lossless (origin : Location) (text : String) :
    let stream := ofTextAt origin text
    Layout origin stream.tokens text.toList ∧
      (∃ front stop, stream.tokens = front ++ [.endOfInput stop] ∧
        stop.offset = origin.offset + text.utf8ByteSize ∧
        ∀ t ∈ front, t.kind ≠ .endOfInput ∧ t.text ≠ "" ∧ ∃ before behind,
          text = before ++ t.text ++ behind ∧
          t.location.offset = origin.offset + before.utf8ByteSize) ∧
      (stream.tokens.Pairwise fun t u => t.location.offset < u.location.offset ∧
        t.location.offset + t.text.utf8ByteSize ≤ u.location.offset) ∧
      ∀ n, let lexer := (Lexer.ofTextAt origin text).pulled n
        lexer.next.1 = stream.tokens[n]? ∧
          (stream.tokens.length ≤ n →
            lexer.next = (none, lexer) ∧ lexer.errors = stream.errors) := by
  intro stream
  have layout : Layout origin stream.tokens text.toList :=
    .of_chain origin true text.toList
  apply And.intro layout
  apply And.intro _ (And.intro layout.ordered (Lexer.next_pulled origin text))
  obtain ⟨front, whole, sound⟩ := layout.closed
  refine ⟨front, _, whole, ?_, fun t member => ?_⟩
  · rw [Location.offset_after, String.ofList_toList]
  · obtain ⟨goesOn, inked⟩ := sound t member
    have stands := layout.stands t (by rw [whole]; exact List.mem_append_left _ member)
    obtain ⟨before, behind, split, here⟩ := stands
    refine ⟨goesOn, inked, String.ofList before, String.ofList behind, ?_, ?_⟩
    · apply String.toList_injective
      rw [split]
      simp
    · rw [here, Location.offset_after]

end QueryNames
