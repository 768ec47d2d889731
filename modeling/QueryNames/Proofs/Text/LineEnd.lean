import Mathlib.Data.List.TakeWhile
import QueryNames.Proofs.Text.Known

/-!
Texts one behind the other, where the first ends with a line feed. Main statement: if nothing in
the first is left open, the whole is read as the first, and then as the second from where the first
ends.
-/

namespace QueryNames.Piece

/-! What does not come to its end before a line feed does not come to it there. -/

theorem splitComment_none_lineFeed {depth : Nat} {cs : List Char}
    (unclosed : splitComment depth cs = none) : splitComment depth (cs ++ ['\n']) = none := by
  fun_induction splitComment depth cs with
  | case1 depth r ih | case3 depth r ih =>
      have inner := ih (Option.map_eq_none_iff.1 unclosed)
      simp [splitComment, inner]
  | case2 r => cases unclosed
  | case4 depth c r noOpening noEnd noClosing ih =>
      have inner := ih (Option.map_eq_none_iff.1 unclosed)
      cases r with
      | nil => simp [splitComment]
      | cons d r =>
          rw [List.cons_append] at inner
          rw [List.cons_append, List.cons_append, splitComment_pair noOpening noEnd noClosing,
            inner]
          rfl
  | case5 depth => simp [splitComment]

theorem splitQuoted_none_lineFeed {close : Char} (other : close ≠ '\n') {cs : List Char}
    (unclosed : splitQuoted close cs = none) : splitQuoted close (cs ++ ['\n']) = none := by
  fun_induction splitQuoted close cs with
  | case1 => simp [splitQuoted, other.symm]
  | case2 | case5 => cases unclosed
  | case3 c unquoted => simp [splitQuoted, unquoted, other.symm]
  | case4 r ih =>
      have inner := ih (Option.map_eq_none_iff.1 unclosed)
      simp [splitQuoted, inner]
  | case6 c d r unquoted ih =>
      have inner := ih (Option.map_eq_none_iff.1 unclosed)
      rw [List.cons_append] at inner
      simp [splitQuoted, unquoted, inner]

theorem orElse_unclosed {a b : Option Cut} {d : Cut}
    (unclosed : ((a <|> b).getD d).kind.isClosed = false) :
    (∃ cut, a = some cut ∧ cut.kind.isClosed = false) ∨ (b.getD d).kind.isClosed = false := by
  cases a with
  | none => exact .inr unclosed
  | some cut => exact .inl ⟨cut, rfl, unclosed⟩

theorem delimited_unclosed {opening close : Char} (other : close ≠ '\n') {r : List Char}
    (unclosed : (delimited opening close r).kind.isClosed = false) :
    (delimited opening close (r ++ ['\n'])).kind.isClosed = false := by
  rcases split : splitQuoted close r with _ | ⟨text, rest⟩
  · rw [delimited, splitQuoted_none_lineFeed other split]
    rfl
  · rw [delimited, split] at unclosed
    dsimp only at unclosed
    split at unclosed <;> cases unclosed

theorem string_unclosed {opening r : List Char}
    (unclosed : (string opening r).kind.isClosed = false) :
    (string opening (r ++ ['\n'])).kind.isClosed = false := by
  rcases split : splitQuoted '\'' r with _ | ⟨text, rest⟩
  · rw [string, splitQuoted_none_lineFeed (by decide) split]
    rfl
  · rw [string, split] at unclosed
    cases unclosed

/-- Comments and quoted texts are all that may not come to an end. -/
theorem others_closed {lineIsBlank : Bool} {c : Char} {r : List Char} :
    ((number? c r <|> variableName? c r <|> word? lineIsBlank c r).getD (sign c r)).kind.isClosed =
      true := by
  rw [← Bool.not_eq_false]
  intro unclosed
  rcases orElse_unclosed unclosed with ⟨cut, is, unclosed⟩ | unclosed
  · unfold number? at is
    split at is
    · cases is
      cases unclosed
    · cases is
      cases unclosed
    · split at is <;> cases is
      cases unclosed
  rcases orElse_unclosed unclosed with ⟨cut, is, unclosed⟩ | unclosed
  · unfold variableName? named at is
    split at is <;> cases is <;> split at unclosed <;> cases unclosed
  · rw [word?] at unclosed
    split at unclosed
    · simp only [word, Option.getD_some] at unclosed
      split at unclosed
      · cases unclosed
      · split at unclosed <;> cases unclosed
    · simp only [Option.getD_none, sign] at unclosed
      split at unclosed <;> cases unclosed

theorem cut_unclosed {lineIsBlank : Bool} {c : Char} {r : List Char}
    (unclosed : (cut lineIsBlank c r).kind.isClosed = false) :
    (cut lineIsBlank c (r ++ ['\n'])).kind.isClosed = false := by
  rcases orElse_unclosed unclosed with ⟨cut, is, unclosed⟩ | unclosed
  · rw [blank?] at is
    split at is <;> cases is
    cases unclosed
  rcases orElse_unclosed unclosed with ⟨cut, is, unclosed⟩ | unclosed
  · unfold comment? at is
    split at is
    · cases is
      cases unclosed
    · rename_i r _
      rcases split : splitComment 0 r with _ | ⟨text, rest⟩
      · have open_ := splitComment_none_lineFeed split
        show ((comment? '/' ('*' :: (r ++ ['\n'])) <|> _).getD _).kind.isClosed = false
        rw [comment?, open_]
        rfl
      · rw [split] at is
        cases is
        cases unclosed
    · cases is
  rcases orElse_unclosed unclosed with ⟨cut, is, unclosed⟩ | unclosed
  · unfold quoted? at is
    split at is <;> cases is
    · exact @delimited_unclosed '[' ']' (by decide) _ unclosed
    · exact @delimited_unclosed '"' '"' (by decide) _ unclosed
    · exact @string_unclosed ['\''] _ unclosed
    · exact @string_unclosed ['N', '\''] _ unclosed
    · exact @string_unclosed ['n', '\''] _ unclosed
  · rw [others_closed] at unclosed
    cases unclosed

/-! White space at the front of a text. -/

section White

variable {α : Type} {f : Piece → Option α}

theorem cut_white {lineIsBlank : Bool} {c : Char} {r : List Char}
    (blank : Text.isBlank c = true) :
    cut lineIsBlank c r = ⟨.blank, (c :: r).takeWhile Text.isBlank,
      (c :: r).dropWhile Text.isBlank⟩ := by
  rw [cut, blank?, if_pos blank, List.takeWhile_cons_of_pos blank,
    List.dropWhile_cons_of_pos blank]
  rfl

theorem filterMap_trimmed (none_ : ∀ text place, f ⟨.blank, text, place⟩ = none)
    (place : Location) (lineIsBlank : Bool) (cs : List Char) :
    (chain place lineIsBlank cs).filterMap f =
      (chain (place.after (cs.takeWhile Text.isBlank))
        (keepsLineBlank lineIsBlank (cs.takeWhile Text.isBlank))
        (cs.dropWhile Text.isBlank)).filterMap f := by
  cases cs with
  | nil => rfl
  | cons c r =>
      cases blank : Text.isBlank c with
      | true => rw [chain_cut (cut_white blank), List.filterMap_cons, none_]
      | false =>
          have stops : ¬ Text.isBlank c = true := by simp [blank]
          rw [List.takeWhile_cons_of_neg stops, List.dropWhile_cons_of_neg stops]
          rfl

theorem keepsLineBlank_append (lineIsBlank : Bool) (a b : List Char) :
    keepsLineBlank lineIsBlank (a ++ b) = keepsLineBlank (keepsLineBlank lineIsBlank a) b :=
  List.foldl_append

/-- White space at the front matters only for what it leaves of the line. -/
theorem filterMap_white (none_ : ∀ text place, f ⟨.blank, text, place⟩ = none)
    {white : List Char} (blanks : ∀ c ∈ white, Text.isBlank c = true) (place : Location)
    (lineIsBlank : Bool) (more : List Char) :
    (chain place lineIsBlank (white ++ more)).filterMap f =
      (chain (place.after white) (keepsLineBlank lineIsBlank white) more).filterMap f := by
  rw [filterMap_trimmed none_ place, filterMap_trimmed none_ (place.after white),
    List.takeWhile_append_of_pos blanks, List.dropWhile_append_of_pos blanks,
    Location.after_append, keepsLineBlank_append]

theorem filterMap_white_lineFeed (none_ : ∀ text place, f ⟨.blank, text, place⟩ = none)
    {white : List Char} (blanks : ∀ c ∈ white, Text.isBlank c = true) (place : Location)
    (lineIsBlank : Bool) (more : List Char) :
    (chain place lineIsBlank (white ++ '\n' :: more)).filterMap f =
      (chain (place.after (white ++ ['\n'])) true more).filterMap f := by
  have feed : Text.isBlank '\n' = true := rfl
  have all : ∀ c ∈ white ++ ['\n'], Text.isBlank c = true := by
    intro c member
    rcases List.mem_append.1 member with before | last
    · exact blanks c before
    · rw [List.mem_singleton.1 last]
      exact feed
  have longer := filterMap_white none_ all place lineIsBlank more
  rwa [List.append_assoc, keepsLineBlank_lineFeed] at longer

/-- Before a line feed a text has the pieces that it has alone, but for white space. -/
theorem filterMap_lineFeed (none_ : ∀ text place, f ⟨.blank, text, place⟩ = none)
    {place : Location} {lineIsBlank : Bool} {cs : List Char} (more : List Char)
    (closed : ∀ piece ∈ chain place lineIsBlank cs, piece.kind.isClosed = true) :
    (chain place lineIsBlank (cs ++ '\n' :: more)).filterMap f =
      (chain place lineIsBlank cs).filterMap f ++
        (chain (place.after (cs ++ ['\n'])) true more).filterMap f := by
  fun_induction chain place lineIsBlank cs with
  | case1 place lineIsBlank =>
      exact filterMap_white_lineFeed none_ (List.forall_mem_nil _) place lineIsBlank more
  | case2 place lineIsBlank c r first ih =>
      have split := cut_splits lineIsBlank c r
      by_cases blanks : ∀ d ∈ c :: r, Text.isBlank d = true
      · have alone := filterMap_white none_ blanks place lineIsBlank []
        rw [List.append_nil, chain, chain] at alone
        rw [filterMap_white_lineFeed none_ blanks, alone]
        rfl
      · have notBlank : Text.isBlank c = true → r.dropWhile Text.isBlank ≠ [] := by
          intro blank nothing
          exact blanks (List.forall_mem_cons.2 ⟨blank, List.dropWhile_eq_nil_iff.1 nothing⟩)
        have closedFirst : first.kind.isClosed = true := closed _ List.mem_cons_self
        have longer : cut lineIsBlank c (r ++ '\n' :: more) = first.before ('\n' :: more) :=
          cut_lineFeed closedFirst id (.inl rfl) notBlank
        have behind : place.after (c :: r ++ ['\n']) =
            (place.after first.text).after (first.rest ++ ['\n']) := by
          rw [← split.append, List.append_assoc, Location.after_append]
        have rest := ih fun piece member => closed piece (List.mem_cons_of_mem _ member)
        rw [behind, List.cons_append, chain_cut longer, List.filterMap_cons, List.filterMap_cons,
          rest]
        cases f ⟨first.kind, first.text, place⟩ <;> rfl

end White

/-- What comes to its end in a text with a line feed behind it does so in the text. -/
theorem closed_of_lineFeed {place : Location} {lineIsBlank : Bool} {cs : List Char}
    (closed : ∀ piece ∈ chain place lineIsBlank (cs ++ ['\n']), piece.kind.isClosed = true) :
    ∀ piece ∈ chain place lineIsBlank cs, piece.kind.isClosed = true := by
  fun_induction chain place lineIsBlank cs with
  | case1 => exact List.forall_mem_nil _
  | case2 place lineIsBlank c r first ih =>
      rw [List.cons_append, chain] at closed
      have closedFirst : first.kind.isClosed = true := by
        rw [← Bool.not_eq_false]
        intro unclosed
        have longer := closed _ List.mem_cons_self
        rw [cut_unclosed unclosed] at longer
        cases longer
      rw [List.forall_mem_cons]
      apply And.intro closedFirst
      by_cases blanks : ∀ d ∈ c :: r, Text.isBlank d = true
      · have whole : first = ⟨.blank, (c :: r).takeWhile Text.isBlank,
            (c :: r).dropWhile Text.isBlank⟩ := cut_white (blanks c List.mem_cons_self)
        rw [whole, List.dropWhile_eq_nil_iff.2 blanks, chain]
        exact List.forall_mem_nil _
      · have notBlank : Text.isBlank c = true → r.dropWhile Text.isBlank ≠ [] := by
          intro blank nothing
          exact blanks (List.forall_mem_cons.2 ⟨blank, List.dropWhile_eq_nil_iff.1 nothing⟩)
        have short : cut lineIsBlank c (r ++ ['\n']) = first.before ['\n'] :=
          cut_lineFeed closedFirst id (.inl rfl) notBlank
        rw [short] at closed
        exact ih fun piece member => closed piece (List.mem_cons_of_mem _ member)

end QueryNames.Piece

namespace QueryNames

/-- The text does not go on to where the fault would end. -/
def Fault.isUnclosed : Fault → Bool
  | .unclosedComment | .unclosedIdentifier _ | .unclosedString => true
  | _ => false

def Diagnostic.isUnclosed (d : Diagnostic) : Bool :=
  match d.cause with
  | .lexical fault => fault.isUnclosed
  | .grammatical _ => false

theorem Piece.isClosed_of_diagnostic? {piece : Piece}
    (closed : ∀ d ∈ piece.diagnostic?, d.isUnclosed = false) : piece.kind.isClosed = true := by
  obtain ⟨kind, text, place⟩ := piece
  cases kind with
  | unclosedComment => cases closed _ rfl
  | fault fault =>
      have sound := closed _ rfl
      cases fault <;> first | rfl | cases sound
  | _ => rfl

namespace TokenStream

section LineFeed

variable {origin : Location} {a : String}

theorem closed_pieces (closed : ∀ d ∈ (ofTextAt origin a).errors, d.isUnclosed = false) :
    ∀ piece ∈ Piece.chain origin true a.toList, piece.kind.isClosed = true := by
  intro piece member
  apply piece.isClosed_of_diagnostic?
  intro d is
  exact closed d (List.mem_filterMap.2 ⟨piece, member, is⟩)

theorem ofTextAt_lineFeed (b : String)
    (closed : ∀ piece ∈ Piece.chain origin true a.toList, piece.kind.isClosed = true) :
    let behind := ofTextAt (origin.after (a ++ "\n").toList) b
    ∃ front, (ofTextAt origin a).tokens = front ++ [.endOfInput (origin.after a.toList)] ∧
      ofTextAt origin (a ++ "\n" ++ b) =
        ⟨front ++ behind.tokens, (ofTextAt origin a).errors ++ behind.errors⟩ := by
  intro behind
  have whole : (a ++ "\n" ++ b).toList = a.toList ++ '\n' :: b.toList := by simp
  have line : (a ++ "\n").toList = a.toList ++ ['\n'] := by simp
  have last : origin.after (a ++ "\n" ++ b).toList =
      (origin.after (a ++ "\n").toList).after b.toList := by
    rw [String.toList_append, Location.after_append]
  have tokens := @Piece.filterMap_lineFeed _ Piece.token? (fun _ _ => rfl) _ _ _ b.toList closed
  have errors :=
    @Piece.filterMap_lineFeed _ Piece.diagnostic? (fun _ _ => rfl) _ _ _ b.toList closed
  apply Exists.intro ((Piece.chain origin true a.toList).filterMap Piece.token?)
  apply And.intro rfl
  rw [← line] at tokens errors
  rw [ofTextAt, last, whole, tokens, errors, List.append_assoc]
  rfl

/-- A text that ends with a line feed, and what stands behind it. -/
theorem ofTextAt_line (b : String)
    (closed : ∀ d ∈ (ofTextAt origin (a ++ "\n")).errors, d.isUnclosed = false) :
    let stop := origin.after (a ++ "\n").toList
    ∃ front, (ofTextAt origin (a ++ "\n")).tokens = front ++ [.endOfInput stop] ∧
      ofTextAt origin (a ++ "\n" ++ b) = ⟨front ++ (ofTextAt stop b).tokens,
        (ofTextAt origin (a ++ "\n")).errors ++ (ofTextAt stop b).errors⟩ := by
  intro stop
  have pieces := closed_pieces closed
  rw [String.toList_append] at pieces
  have inside := Piece.closed_of_lineFeed pieces
  obtain ⟨front, alone, line⟩ := ofTextAt_lineFeed "" inside
  obtain ⟨front', alone', longer⟩ := ofTextAt_lineFeed b inside
  obtain rfl : front = front' := List.append_cancel_right (alone.symm.trans alone')
  have nothing : ofTextAt stop "" = ⟨[.endOfInput stop], []⟩ := by
    rw [ofTextAt, String.toList_empty, Piece.chain]
    rfl
  rw [String.append_empty, nothing, List.append_nil] at line
  apply Exists.intro front
  rw [line]
  exact ⟨rfl, longer⟩

end LineFeed

/-- A line that holds a single token. -/
theorem ofTextAt_mark {mark : String} {c : Char} {r : List Char} {kind : TokenKind}
    (spelled : mark = String.ofList (c :: r))
    (first : ∀ cs, Piece.cut true c (r ++ '\n' :: cs) = ⟨.token kind, c :: r, '\n' :: cs⟩)
    (place : Location) (b : String) :
    ofTextAt place (mark ++ "\n" ++ b) =
      ⟨⟨kind, mark, place⟩ :: (ofTextAt (place.after (mark ++ "\n").toList) b).tokens,
        (ofTextAt (place.after (mark ++ "\n").toList) b).errors⟩ := by
  have line : (mark ++ "\n" ++ b).toList = c :: (r ++ '\n' :: b.toList) := by simp [spelled]
  have here : place.after (mark ++ "\n").toList = (place.after (c :: r)).after ['\n'] := by
    rw [String.toList_append, Location.after_append, spelled, String.toList_ofList]
    rfl
  have last : place.after (mark ++ "\n" ++ b).toList =
      (place.after (mark ++ "\n").toList).after b.toList := by
    rw [String.toList_append, Location.after_append]
  have read {α : Type} {f : Piece → Option α}
      (none_ : ∀ text place, f ⟨.blank, text, place⟩ = none) :
      (Piece.chain (place.after (c :: r)) (Piece.keepsLineBlank true (c :: r))
          ('\n' :: b.toList)).filterMap f =
        (Piece.chain (place.after (mark ++ "\n").toList) true b.toList).filterMap f := by
    rw [here]
    exact @Piece.filterMap_white_lineFeed _ f none_ [] nofun _ _ _
  have tokens := @read _ Piece.token? fun _ _ => rfl
  have errors := @read _ Piece.diagnostic? fun _ _ => rfl
  rw [ofTextAt, last, line, Piece.chain_cut (first _), List.filterMap_cons, List.filterMap_cons,
    tokens, errors, spelled]
  rfl

/-- What stands behind the end of a line does not change what stands before it, nor the other way
round. -/
theorem ofTextAt_append {origin : Location} {a : String} (b : String)
    (lines : a = "" ∨ ∃ front, a = front ++ "\n")
    (closed : ∀ d ∈ (ofTextAt origin a).errors, d.isUnclosed = false) :
    ∃ front stop, (ofTextAt origin a).tokens = front ++ [.endOfInput stop] ∧
      ofTextAt origin (a ++ b) = ⟨front ++ (ofTextAt stop b).tokens,
        (ofTextAt origin a).errors ++ (ofTextAt stop b).errors⟩ := by
  rcases lines with rfl | ⟨line, rfl⟩
  · have nothing : ofTextAt origin "" = ⟨[.endOfInput origin], []⟩ := by
      rw [ofTextAt, String.toList_empty, Piece.chain]
      rfl
    apply Exists.intro []
    apply Exists.intro origin
    rw [nothing, String.empty_append]
    exact ⟨rfl, rfl⟩
  · obtain ⟨front, alone, whole⟩ := ofTextAt_line b closed
    exact ⟨front, _, alone, whole⟩

/-- Each part holds a separator line and a fault; the fault of the second is left open. -/
theorem ofTextAt_append_separators :
    let a := "SELECT @ -- it's\n go ;\n"
    let b := "\tGO\n[x"
    (a = "" ∨ ∃ front, a = front ++ "\n") ∧
      (∀ d ∈ (ofTextAt .start a).errors, d.isUnclosed = false) ∧
      (ofTextAt .start (a ++ b)).tokens.map (·.kind) = [.keyword .select, .unknown, .batchSeparator,
        .batchSeparator, .unknown, .endOfInput] ∧
      ∃ front stop, (ofTextAt .start a).tokens = front ++ [.endOfInput stop] ∧
        ofTextAt .start (a ++ b) = ⟨front ++ (ofTextAt stop b).tokens,
          (ofTextAt .start a).errors ++ (ofTextAt stop b).errors⟩ := by
  intro a b
  have lines : a = "" ∨ ∃ front, a = front ++ "\n" := .inr ⟨"SELECT @ -- it's\n go ;", rfl⟩
  have closed : ∀ d ∈ (ofTextAt .start a).errors, d.isUnclosed = false := by
    decide +kernel
  have kinds : (ofTextAt .start (a ++ b)).tokens.map (·.kind) = [.keyword .select, .unknown,
      .batchSeparator, .batchSeparator, .unknown, .endOfInput] := by
    decide +kernel
  exact ⟨lines, closed, kinds, ofTextAt_append b lines closed⟩

end TokenStream

end QueryNames
