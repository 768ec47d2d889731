import Mathlib.Data.List.Forall2
import Mathlib.Data.List.Pairwise
import QueryNames.Proofs.LosslessTokens
import QueryNames.Proofs.Text.SeparatorLine

/-!
What is unknown in a text. Main statement: the faults of a text are told one for each unknown token,
in the order of the tokens, and behind them one more only for a comment that does not close.
-/

namespace QueryNames

namespace Piece

/-- The kinds that the scanners tell: what is unknown is at fault, and no comment is such a
fault. -/
def Kind.isTold : Kind → Bool
  | .token .unknown | .fault .unclosedComment => false
  | _ => true

theorem cut_isTold (lineIsBlank : Bool) (c : Char) (r : List Char) :
    (cut lineIsBlank c r).kind.isTold = true := by
  apply cut_holds (P := fun cut => cut.kind.isTold = true)
  · intro cut found
    rw [blank?_kind found]
    rfl
  · intro cut found
    rcases comment?_kind found with is | is | is <;> rw [is] <;> rfl
  · intro cut
    apply quoted?_holds (P := fun cut => cut.kind.isTold = true)
    · intro q r _
      rcases delimited_kind q.opening q.closing r with is | is | is <;> rw [is] <;> rfl
    · intro marker _ r
      rcases string_kind (marker ++ ['\'']) r with is | is <;> rw [is] <;> rfl
  · intro cut found
    rw [number?_kind found]
    rfl
  · intro cut found
    rcases variableName?_kind found with is | is <;> rw [is] <;> rfl
  · intro _
    rcases word_kind lineIsBlank _ _ with is | ⟨k, is⟩ | is <;> rw [is] <;> rfl
  · unfold sign
    split <;> rfl

theorem isTold_of_mem_chain {place : Location} {lineIsBlank : Bool} {cs : List Char}
    {piece : Piece} (member : piece ∈ chain place lineIsBlank cs) : piece.kind.isTold = true :=
  holds_of_mem_chain (P := fun kind _ => kind.isTold = true) cut_isTold member

/-- Nothing stands behind a comment that does not close. -/
theorem chain_openComment (place : Location) (lineIsBlank : Bool) (cs : List Char) :
    ∃ front last, chain place lineIsBlank cs = front ++ last ∧
      (∀ piece ∈ front, piece.kind ≠ .unclosedComment) ∧
      (last = [] ∨ ∃ place text, last = [⟨.unclosedComment, text, place⟩]) := by
  fun_induction chain place lineIsBlank cs with
  | case1 => exact ⟨[], [], rfl, List.forall_mem_nil _, .inl rfl⟩
  | case2 place lineIsBlank c r first ih =>
      by_cases unclosed : first.kind = .unclosedComment
      · have nothing : first.rest = [] := rest_of_unclosed (congrArg Kind.isClosed unclosed)
        rw [nothing, unclosed, chain]
        exact ⟨[], _, rfl, List.forall_mem_nil _, .inr ⟨place, first.text, rfl⟩⟩
      · obtain ⟨front, last, whole, closed, ends⟩ := ih
        rw [whole]
        exact ⟨_ :: front, last, rfl, List.forall_mem_cons.2 ⟨unclosed, closed⟩, ends⟩

end Piece

/-- The fault of the stretch of text that the token stands for. -/
def Diagnostic.TellsOf (d : Diagnostic) (t : Token) : Prop :=
  ∃ fault, fault ≠ .unclosedComment ∧ d = ⟨.lexical fault, t.location⟩

theorem Piece.tellsOf {piece : Piece} (told : piece.kind.isTold = true)
    (closed : piece.kind ≠ .unclosedComment) :
    Option.Rel Diagnostic.TellsOf piece.diagnostic?
      (piece.token?.filter (·.kind == .unknown)) := by
  obtain ⟨kind, text, place⟩ := piece
  cases kind with
  | fault fault =>
      refine .some ⟨fault, ?_, rfl⟩
      rintro rfl
      cases told
  | token kind =>
      have known : (kind == .unknown) = false := by
        rw [beq_eq_false_iff_ne]
        rintro rfl
        cases told
      simp [diagnostic?, token?, Option.filter, known]
  | unclosedComment => exact absurd rfl closed
  | _ => exact .none

/-- Where no comment is left open, the faults of pieces are told by their unknown tokens, one by
one. -/
theorem Piece.faults_tellOf {pieces : List Piece}
    (told : ∀ piece ∈ pieces, piece.kind.isTold = true)
    (closed : ∀ piece ∈ pieces, piece.kind ≠ .unclosedComment) :
    List.Forall₂ Diagnostic.TellsOf (pieces.filterMap diagnostic?)
      ((pieces.filterMap token?).filter (·.kind == .unknown)) := by
  have each : List.Forall₂ (fun p q => p = q ∧ p ∈ pieces) pieces pieces :=
    List.forall₂_same.2 fun piece member => ⟨rfl, member⟩
  rw [List.filter_filterMap]
  refine List.rel_filterMap ?_ each
  rintro piece _ ⟨rfl, member⟩
  exact tellsOf (told piece member) (closed piece member)

/-- A piece with a fault is an unknown token or none. -/
theorem Piece.kind_of_diagnostic? {piece : Piece} {t : Token} {d : Diagnostic}
    (isToken : piece.token? = some t) (isFault : piece.diagnostic? = some d) :
    t.kind = .unknown := by
  obtain ⟨kind, text, place⟩ := piece
  cases kind with
  | fault fault =>
      cases isToken
      rfl
  | token kind => cases isFault
  | _ => cases isToken

/-- A piece ends before the next one begins. -/
theorem Piece.chain_follows (place : Location) (lineIsBlank : Bool) (cs : List Char) :
    (chain place lineIsBlank cs).Pairwise fun p q =>
      p.location.offset + (String.ofList p.text).utf8ByteSize ≤ q.location.offset := by
  fun_induction chain place lineIsBlank cs with
  | case1 => exact .nil
  | case2 place lineIsBlank c r first ih =>
      apply List.pairwise_cons.2 ⟨fun piece member => ?_, ih⟩
      have there := (offset_of_mem_chain member).1
      rwa [Location.offset_after] at there

/-- Pieces of a text are told apart by their places. -/
theorem Piece.eq_of_location {place : Location} {lineIsBlank : Bool} {cs : List Char} {p q : Piece}
    (first : p ∈ chain place lineIsBlank cs) (second : q ∈ chain place lineIsBlank cs)
    (same : p.location = q.location) : p = q := by
  have symmetric : Std.Symm fun p q : Piece => p.location ≠ q.location := ⟨fun _ _ => Ne.symm⟩
  have apart : (chain place lineIsBlank cs).Pairwise fun p q => p.location ≠ q.location := by
    refine (chain_rises place lineIsBlank cs).imp fun rises same => ?_
    rw [same] at rises
    exact Nat.lt_irrefl _ rises
  by_contra other
  exact apart.forall first second other same

namespace TokenStream

/-- No error stands at a token that is known. -/
theorem location_ne_of_known {origin : Location} {text : String} {t : Token} {d : Diagnostic}
    (member : t ∈ (ofTextAt origin text).tokens) (known : t.kind ≠ .unknown)
    (fault : d ∈ (ofTextAt origin text).errors) : d.location ≠ t.location := by
  intro same
  obtain ⟨wrong, among, isFault⟩ := List.mem_filterMap.1 fault
  rw [Piece.location_of_diagnostic? isFault] at same
  rcases List.mem_append.1 member with member | stop
  · obtain ⟨piece, among', isToken⟩ := List.mem_filterMap.1 member
    rw [Piece.location_of_token? isToken] at same
    obtain rfl := Piece.eq_of_location among among' same
    exact known (Piece.kind_of_diagnostic? isToken isFault)
  · -- The end of input stands behind every piece.
    have inside := (Piece.offset_of_mem_chain among).2
    rw [same, List.mem_singleton.1 stop] at inside
    exact Nat.lt_irrefl _ inside

/-- What is wrong with a text, one error for each unknown token in its order and at its place. One
more follows for a comment that does not close, and it stands behind all tokens. No error stands at
any other token. -/
theorem ofTextAt_faults (origin : Location) (text : String) :
    let stream := ofTextAt origin text
    ∃ faults openComment, stream.errors = faults ++ openComment ∧
      List.Forall₂ Diagnostic.TellsOf faults (stream.tokens.filter (·.kind == .unknown)) ∧
      (openComment = [] ∨ ∃ place, openComment = [⟨.lexical .unclosedComment, place⟩] ∧
        ∀ t ∈ stream.tokens, t.kind ≠ .endOfInput →
          t.location.offset + t.text.utf8ByteSize ≤ place.offset) ∧
      ∀ t ∈ stream.tokens, t.kind ≠ .unknown → ∀ d ∈ stream.errors, d.location ≠ t.location := by
  intro stream
  obtain ⟨front, last, whole, closed, ends⟩ := Piece.chain_openComment origin true text.toList
  have told : ∀ piece ∈ front, piece.kind.isTold = true := fun piece member =>
    Piece.isTold_of_mem_chain (whole ▸ List.mem_append_left last member)
  have noToken : last.filterMap Piece.token? = [] := by
    obtain rfl | ⟨place, comment, rfl⟩ := ends <;> rfl
  have tokens : stream.tokens =
      front.filterMap Piece.token? ++ [.endOfInput (origin.after text.toList)] := by
    show (Piece.chain ..).filterMap _ ++ _ = _
    rw [whole, List.filterMap_append, noToken, List.append_nil]
  have errors : stream.errors =
      front.filterMap Piece.diagnostic? ++ last.filterMap Piece.diagnostic? := by
    show (Piece.chain ..).filterMap _ = _
    rw [whole, List.filterMap_append]
  refine ⟨_, _, errors, ?_, ?_, fun t member known d => location_ne_of_known member known⟩
  · rw [tokens, List.filter_append]
    exact (List.append_nil _).symm ▸ Piece.faults_tellOf told closed
  · refine ends.imp (fun none_ => by rw [none_]; rfl) ?_
    rintro ⟨place, comment, rfl⟩
    refine ⟨place, rfl, fun t member goesOn => ?_⟩
    have follows := Piece.chain_follows origin true text.toList
    rw [whole, List.pairwise_append] at follows
    rw [tokens] at member
    rcases List.mem_append.1 member with member | stop
    · obtain ⟨piece, among, is⟩ := List.mem_filterMap.1 member
      rw [Piece.location_of_token? is, Piece.text_of_token? is]
      exact follows.2.2 piece among _ (List.mem_singleton.2 rfl)
    · rw [List.mem_singleton.1 stop] at goesOn
      exact absurd rfl goesOn

end TokenStream

end QueryNames
