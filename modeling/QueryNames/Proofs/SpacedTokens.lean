import Mathlib.Data.List.Basic
import QueryNames.Proofs.OrderedDiagnostics
import QueryNames.Proofs.Text.Gap

/-!
Tokens with blanks between them. Main statement: a text that holds nothing of a batch separator has
the tokens, and the faults of them, that their texts have with a blank between each two.
-/

namespace QueryNames

namespace Piece

/-- A token or a fault. -/
def isToken (piece : Piece) : Bool := piece.kind.isToken

/-- The texts of the tokens and faults, with a blank between each two. -/
def spaced (pieces : List Piece) : List Char :=
  [' '].intercalate ((pieces.filter isToken).map (·.text))

section Spaced

variable {piece : Piece} {pieces : List Piece}

theorem spaced_skip (other : piece.isToken = false) : spaced (piece :: pieces) = spaced pieces := by
  rw [spaced, List.filter_cons_of_neg (by simp [other])]
  rfl

theorem spaced_last (isToken : piece.isToken = true) (last : pieces.filter Piece.isToken = []) :
    spaced (piece :: pieces) = piece.text := by
  rw [spaced, List.filter_cons_of_pos isToken, last]
  exact List.intercalate_singleton

theorem spaced_more (isToken : piece.isToken = true) (more : pieces.filter Piece.isToken ≠ []) :
    spaced (piece :: pieces) = piece.text ++ ' ' :: spaced pieces := by
  obtain ⟨next, others, found⟩ := List.exists_cons_of_ne_nil more
  rw [spaced, spaced, List.filter_cons_of_pos isToken, found, List.map_cons, List.map_cons,
    List.intercalate_cons_cons, List.append_assoc]
  rfl

end Spaced

/-- A token is cut off its own text with a gap behind it. -/
theorem chain_onto {lineIsBlank : Bool} {c : Char} {r more : List Char} {first : Cut}
    (is : cut lineIsBlank c r = first) (gap : Gap more) (isToken : first.kind.isToken = true)
    (noSeparator : NoSeparator first.kind first.text)
    (ends : first.kind.isClosed = true ∨ more = []) (place : Location) (lineIsBlank' : Bool) :
    chain place lineIsBlank' (first.text ++ more) = ⟨first.kind, first.text, place⟩ ::
      chain (place.after first.text) (keepsLineBlank lineIsBlank' first.text) more := by
  subst is
  obtain ⟨tail, text⟩ := exists_text_cut lineIsBlank c r
  have onto := @cut_onto c r tail more lineIsBlank lineIsBlank'
    ⟨text, isToken, noSeparator, ends⟩ gap
  have whole : (cut lineIsBlank c r).text ++ more = c :: (tail ++ more) := by
    rw [text, List.cons_append]
  rw [whole]
  exact chain_cut onto

section FilterMap

variable {α : Type} {f : Piece → Option α}

/-- Between blanks the tokens are cut off as they were. -/
theorem filterMap_spaced (none_ : ∀ text place, f ⟨.blank, text, place⟩ = none)
    (moved : ∀ kind text place place', f ⟨kind, text, place⟩ = f ⟨kind, text, place'⟩)
    {place : Location} {lineIsBlank : Bool} {cs : List Char}
    (noSeparator : ∀ piece ∈ chain place lineIsBlank cs, NoSeparator piece.kind piece.text)
    (place' : Location) (lineIsBlank' : Bool) :
    (chain place' lineIsBlank' (spaced (chain place lineIsBlank cs))).filterMap f =
      ((chain place lineIsBlank cs).filter isToken).filterMap f := by
  fun_induction chain place lineIsBlank cs generalizing place' lineIsBlank' with
  | case1 =>
      rw [show spaced [] = [] from rfl, chain]
      rfl
  | case2 place lineIsBlank c r first ih =>
      have ih := ih fun piece member => noSeparator piece (List.mem_cons_of_mem _ member)
      have noSeparator := noSeparator _ List.mem_cons_self
      have unclosed (open_ : first.kind.isClosed = false) : chain (place.after first.text)
          (keepsLineBlank lineIsBlank first.text) first.rest = [] := by
        rw [show first.rest = [] from rest_of_unclosed open_, chain]
      generalize chain (place.after first.text) (keepsLineBlank lineIsBlank first.text)
        first.rest = pieces at ih unclosed ⊢
      cases isToken : Piece.isToken ⟨first.kind, first.text, place⟩ with
      | false =>
          rw [spaced_skip isToken, List.filter_cons_of_neg (by simp [isToken])]
          exact ih place' lineIsBlank'
      | true =>
          rw [List.filter_cons_of_pos isToken, List.filterMap_cons,
            moved first.kind first.text place place']
          by_cases last : pieces.filter Piece.isToken = []
          · have here := chain_onto rfl .ends isToken noSeparator (.inr rfl) place' lineIsBlank'
            rw [List.append_nil, chain] at here
            rw [spaced_last isToken last, last, here]
            rfl
          · have closed : first.kind.isClosed = true := by
              rw [← Bool.not_eq_false]
              intro open_
              rw [unclosed open_] at last
              exact last rfl
            have here := chain_onto rfl (.blank (spaced pieces)) isToken noSeparator (.inl closed)
              place' lineIsBlank'
            have gap : ∀ c ∈ [' '], Text.isBlank c = true := List.forall_mem_singleton.2 rfl
            have white := filterMap_white none_ gap (place'.after first.text)
              (keepsLineBlank lineIsBlank' first.text) (spaced pieces)
            rw [spaced_more isToken last, here, List.filterMap_cons, ← ih, ← white]
            rfl

end FilterMap

/-- A comment is no token, so none is left open between the blanks. -/
theorem closed_of_mem_spaced {place place' : Location} {lineIsBlank lineIsBlank' : Bool}
    {cs : List Char}
    (noSeparator : ∀ piece ∈ chain place lineIsBlank cs, NoSeparator piece.kind piece.text)
    {piece : Piece}
    (member : piece ∈ chain place' lineIsBlank' (spaced (chain place lineIsBlank cs))) :
    piece.kind ≠ .unclosedComment := by
  let mark (piece : Piece) : Option Unit := if piece.kind = .unclosedComment then some () else none
  have marks :
      (chain place' lineIsBlank' (spaced (chain place lineIsBlank cs))).filterMap mark = [] := by
    rw [filterMap_spaced (fun _ _ => rfl) (fun _ _ _ _ => rfl) noSeparator,
      List.filterMap_eq_nil_iff]
    intro piece member
    have isToken := (List.mem_filter.1 member).2
    apply if_neg
    intro open_
    rw [Piece.isToken, open_] at isToken
    cases isToken
  intro open_
  have none_ := List.filterMap_eq_nil_iff.1 marks piece member
  rw [show mark piece = some () from if_pos open_] at none_
  cases none_

/-- Kind and text of the token of a piece, and what is wrong with it. -/
def reading? (piece : Piece) : Option (TokenKind × String × List String) :=
  piece.token?.map fun t => (t.kind, t.text, piece.diagnostic?.toList.map (·.message))

theorem reading?_moved (kind : Kind) (text : List Char) (place place' : Location) :
    reading? ⟨kind, text, place⟩ = reading? ⟨kind, text, place'⟩ := by
  cases kind <;> rfl

theorem filter_diagnostics_apart {pieces : List Piece} {place : Location}
    (apart : ∀ piece ∈ pieces, piece.location ≠ place) :
    (pieces.filterMap diagnostic?).filter (·.location == place) = [] := by
  apply List.filter_eq_nil_iff.2
  intro d member
  obtain ⟨piece, among, is⟩ := List.mem_filterMap.1 member
  rw [beq_iff_eq, location_of_diagnostic? is]
  exact apart piece among

/-- Where pieces stand one behind the other, no two are at fault in the same place. -/
theorem filter_diagnostics {pieces : List Piece}
    (rises : pieces.Pairwise fun p q => p.location.offset < q.location.offset) {piece : Piece}
    (member : piece ∈ pieces) :
    (pieces.filterMap diagnostic?).filter (·.location == piece.location) =
      piece.diagnostic?.toList := by
  induction pieces with
  | nil => cases member
  | cons first pieces ih =>
      obtain ⟨behind, rises⟩ := List.pairwise_cons.1 rises
      rcases List.mem_cons.1 member with rfl | among
      · have others := @filter_diagnostics_apart pieces piece.location fun other later same => by
          have rising := behind other later
          rw [same] at rising
          exact Nat.lt_irrefl _ rising
        rw [List.filterMap_cons]
        cases found : piece.diagnostic? with
        | none => exact others
        | some d =>
            have here : (d.location == piece.location) = true :=
              beq_iff_eq.2 (location_of_diagnostic? found)
            simp [here, others]
      · rw [List.filterMap_cons, ← ih rises among]
        cases found : first.diagnostic? with
        | none => rfl
        | some d =>
            have before := behind piece among
            rw [← location_of_diagnostic? found] at before
            have elsewhere : ¬(d.location == piece.location) = true := by
              intro same
              rw [beq_iff_eq.1 same] at before
              exact Nat.lt_irrefl _ before
            exact List.filter_cons_of_neg elsewhere

theorem exists_token {piece : Piece} (isToken : piece.isToken = true) :
    ∃ t, piece.token? = some t ∧ t.text.toList = piece.text := by
  obtain ⟨kind, text, place⟩ := piece
  cases kind with
  | token kind => exact ⟨_, rfl, String.toList_ofList⟩
  | fault fault => exact ⟨_, rfl, String.toList_ofList⟩
  | _ => cases isToken

theorem token?_of_other {piece : Piece} (other : piece.isToken = false) : piece.token? = none := by
  obtain ⟨kind, text, place⟩ := piece
  cases kind <;> first | rfl | cases other

theorem texts_of_tokens (pieces : List Piece) :
    (pieces.filterMap token?).map (·.text.toList) = (pieces.filter isToken).map (·.text) := by
  induction pieces with
  | nil => rfl
  | cons piece pieces ih =>
      cases isToken : piece.isToken with
      | true =>
          obtain ⟨t, found, text⟩ := exists_token isToken
          rw [List.filter_cons_of_pos isToken, List.filterMap_cons_some found, List.map_cons,
            List.map_cons, text, ih]
      | false =>
          rw [List.filter_cons_of_neg (by simp [isToken]),
            List.filterMap_cons_none (token?_of_other isToken), ih]

theorem place_of_diagnostic? {piece : Piece} {d : Diagnostic} (is : piece.diagnostic? = some d) :
    (piece.kind = .unclosedComment ∧ d.cause = .lexical .unclosedComment) ∨
      ∃ t, piece.token? = some t ∧ d.location = t.location := by
  obtain ⟨kind, text, place⟩ := piece
  cases kind with
  | unclosedComment =>
      cases is
      exact .inl ⟨rfl, rfl⟩
  | fault fault =>
      cases is
      exact .inr ⟨_, rfl, rfl⟩
  | _ => cases is

end Piece

namespace TokenStream

/-- The texts of the tokens, with a blank between each two. -/
def spaced (stream : TokenStream) : String :=
  " ".intercalate ((stream.tokens.filter (!·.isEnd)).map (·.text))

/-- What a stream says of a token, but for its place: kind, text and what is wrong with it. -/
def reading (stream : TokenStream) (t : Token) : TokenKind × String × List String :=
  (t.kind, t.text, (stream.errors.filter (·.location == t.location)).map (·.message))

theorem readings_ofText (text : String) :
    (ofText text).tokens.map (ofText text).reading =
      (Piece.chain .start true text.toList).filterMap Piece.reading? ++
        [(.endOfInput, "", [])] := by
  have rises := Piece.chain_rises .start true text.toList
  have before := fun piece => @Piece.offset_of_mem_chain .start true text.toList piece
  have errors : (ofText text).errors =
      (Piece.chain .start true text.toList).filterMap Piece.diagnostic? := rfl
  have tokens : (ofText text).tokens =
      (Piece.chain .start true text.toList).filterMap Piece.token? ++
        [.endOfInput (Location.start.after text.toList)] := rfl
  generalize Piece.chain .start true text.toList = pieces at rises before errors tokens ⊢
  rw [tokens, List.map_append, List.map_filterMap]
  congr 1
  · refine List.filterMap_congr fun piece member => ?_
    cases found : piece.token? with
    | none => simp [Piece.reading?, found]
    | some t =>
        have own := Piece.filter_diagnostics rises member
        rw [← Piece.location_of_token? found] at own
        simp only [Piece.reading?, found, Option.map_some, reading, errors, own]
  · have none_ : (pieces.filterMap Piece.diagnostic?).filter
        (·.location == Location.start.after text.toList) = [] := by
      apply Piece.filter_diagnostics_apart
      intro piece member same
      have inside := (before piece member).2
      rw [same] at inside
      exact Nat.lt_irrefl _ inside
    show [(TokenKind.endOfInput, "", ((ofText text).errors.filter
      (·.location == Location.start.after text.toList)).map (·.message))] = _
    rw [errors, none_]
    rfl

theorem toList_spaced (text : String) :
    (ofText text).spaced.toList = Piece.spaced (Piece.chain .start true text.toList) := by
  have tokens : (ofText text).tokens.filter (!·.isEnd) =
      (Piece.chain .start true text.toList).filterMap Piece.token? := by
    have kept : ∀ t ∈ (Piece.chain .start true text.toList).filterMap Piece.token?,
        (!t.isEnd) = true := by
      intro t member
      obtain ⟨⟨kind, text, place⟩, among, is⟩ := List.mem_filterMap.1 member
      have goesOn := Piece.kind_of_mem_chain among
      cases kind with
      | token kind =>
          cases is
          have other : kind ≠ .endOfInput := fun same => goesOn (congrArg _ same)
          simpa [Token.isEnd] using other
      | fault fault =>
          cases is
          rfl
      | _ => cases is
    exact (List.filter_append ..).trans ((congrArg (· ++ _) (List.filter_eq_self.2 kept)).trans
      (List.append_nil _))
  rw [spaced, String.toList_intercalate, List.map_map, tokens, Piece.spaced,
    ← Piece.texts_of_tokens]
  rfl

/-- Where nothing is spelled as a batch separator, the tokens of a text are those of their own texts
with blanks between them, with the same faults. -/
theorem ofText_spaced {text : String}
    (noSeparator : ∀ t ∈ (ofText text).tokens, t.kind ≠ .batchSeparator ∧ t.isWord "GO" = false) :
    let stream := ofText text
    let again := ofText stream.spaced
    again.tokens.map again.reading = stream.tokens.map stream.reading ∧
      (∀ d ∈ again.errors, ∃ t ∈ again.tokens, d.location = t.location) ∧
      ∀ d ∈ stream.errors, d.cause = .lexical .unclosedComment ∨
        ∃ t ∈ stream.tokens, d.location = t.location := by
  intro stream again
  have plain : ∀ piece ∈ Piece.chain .start true text.toList,
      Piece.NoSeparator piece.kind piece.text := by
    rintro ⟨kind, cs, place⟩ member
    have token (k : TokenKind) (is : kind = .token k) :
        k ≠ .batchSeparator ∧ (k = .identifier → Text.sameAsciiCase cs ['g', 'o'] = false) := by
      subst is
      have known := noSeparator ⟨k, String.ofList cs, place⟩
        (List.mem_append_left _ (List.mem_filterMap.2 ⟨_, member, rfl⟩))
      refine known.imp_right fun other name => ?_
      subst name
      have spelled : Token.isWord "GO" ⟨.identifier, String.ofList cs, place⟩ =
          Text.sameAsciiCase cs ['g', 'o'] := by
        rw [Token.isWord, String.toList_ofList]
        rfl
      rwa [spelled] at other
    exact ⟨fun is => (token _ is).1 rfl, fun is => (token _ is).2 rfl⟩
  refine ⟨?_, fun d member => ?_, fun d member => ?_⟩
  · rw [readings_ofText, readings_ofText, toList_spaced,
      Piece.filterMap_spaced (fun _ _ => rfl) Piece.reading?_moved plain, List.filterMap_filter]
    congr 1
    refine List.filterMap_congr fun piece _ => ?_
    cases isToken : piece.isToken with
    | true => rfl
    | false => simp [Piece.reading?, Piece.token?_of_other isToken]
  · obtain ⟨piece, among, is⟩ := List.mem_filterMap.1 member
    rcases Piece.place_of_diagnostic? is with ⟨open_, -⟩ | ⟨t, found, place⟩
    · rw [toList_spaced] at among
      exact absurd open_ (Piece.closed_of_mem_spaced plain among)
    · exact ⟨t, List.mem_append_left _ (List.mem_filterMap.2 ⟨piece, among, found⟩), place⟩
  · obtain ⟨piece, among, is⟩ := List.mem_filterMap.1 member
    refine (Piece.place_of_diagnostic? is).imp And.right ?_
    rintro ⟨t, found, place⟩
    exact ⟨t, List.mem_append_left _ (List.mem_filterMap.2 ⟨piece, among, found⟩), place⟩

/-- Signs side by side, comments, numbers, a variable without a name, and a string left open. -/
theorem ofText_spaced_signs :
    let stream := ofText "SELECT a.[b c],N'it''s'/* c */<>0x1F-1.5e3-- d\n!@ @@x\nFROM\tT. 'open "
    let again := ofText stream.spaced
    (stream.spaced = "SELECT a . [b c] , N'it''s' <> 0x1F - 1.5e3 ! @ @@x FROM T . 'open " ∧
      stream.errors.map (·.location.offset) = [47, 48, 62] ∧
      ∀ t ∈ stream.tokens, t.kind ≠ .batchSeparator ∧ t.isWord "GO" = false) ∧
      again.tokens.map again.reading = stream.tokens.map stream.reading ∧
      (∀ d ∈ again.errors, ∃ t ∈ again.tokens, d.location = t.location) ∧
      ∀ d ∈ stream.errors, d.cause = .lexical .unclosedComment ∨
        ∃ t ∈ stream.tokens, d.location = t.location := by
  intro stream again
  have known :
      stream.spaced = "SELECT a . [b c] , N'it''s' <> 0x1F - 1.5e3 ! @ @@x FROM T . 'open " ∧
      stream.errors.map (·.location.offset) = [47, 48, 62] ∧
      ∀ t ∈ stream.tokens, t.kind ≠ .batchSeparator ∧ t.isWord "GO" = false := by
    decide +kernel
  exact ⟨known, ofText_spaced known.2.2⟩

end TokenStream

end QueryNames
