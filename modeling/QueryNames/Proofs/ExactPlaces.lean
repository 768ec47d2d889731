import QueryNames.Proofs.LosslessTokens

/-!
Places of tokens and faults. Main statement: what a text holds does not depend on where the text
begins, and each place counts the bytes, the lines and the characters before it.
-/

namespace QueryNames

open Piece (ClosesComment)

namespace Location

/-- The place behind `before`, which begins at `origin`. A column counts from the last line feed, or
from the column of the origin where there is none. -/
def behind (origin : Location) (before : String) : Location where
  offset := origin.offset + before.utf8ByteSize
  line := origin.line + before.toList.count '\n'
  column :=
    if '\n' ∈ before.toList then 1 + (before.toList.reverse.takeWhile (· != '\n')).length
    else origin.column + before.toList.length

theorem line_after (place : Location) (text : List Char) :
    (place.after text).line = place.line + text.count '\n' := by
  induction text generalizing place with
  | nil => rfl
  | cons c text ih =>
      rw [after_cons, ih, List.count_cons, step]
      by_cases feed : c = '\n'
      · simp [feed]
        omega
      · simp [feed]

/-- Column by column, from the last character back. -/
theorem column_after_reverse (place : Location) (text : List Char) :
    (place.after text.reverse).column =
      if '\n' ∈ text then 1 + (text.takeWhile (· != '\n')).length
      else place.column + text.length := by
  induction text with
  | nil => rfl
  | cons c text ih =>
      rw [List.reverse_cons, after_append, after_cons, after_nil, step]
      by_cases feed : c = '\n'
      · simp [feed]
      · have taken : (c :: text).takeWhile (· != '\n') = c :: text.takeWhile (· != '\n') :=
          List.takeWhile_cons_of_pos (by simpa using feed)
        have member : '\n' ∈ c :: text ↔ '\n' ∈ text := by simp [Ne.symm feed]
        rw [if_neg feed, taken, List.length_cons, List.length_cons, ih]
        simp only [member]
        split <;> omega

theorem column_after (place : Location) (text : List Char) :
    (place.after text).column =
      if '\n' ∈ text then 1 + (text.reverse.takeWhile (· != '\n')).length
      else place.column + text.length := by
  have backwards := column_after_reverse place text.reverse
  simpa only [List.reverse_reverse, List.mem_reverse, List.length_reverse] using backwards

theorem after_eq_behind (place : Location) (text : List Char) :
    place.after text = place.behind (String.ofList text) := by
  have offset := offset_after place text
  have line := line_after place text
  have column := column_after place text
  rw [behind, String.toList_ofList, ← offset, ← line, ← column]

end Location

/-- A token without its place; `before` is all that stands before it. -/
structure Ink where
  before : String
  kind : TokenKind
  text : String

def Ink.token (origin : Location) (ink : Ink) : Token :=
  ⟨ink.kind, ink.text, origin.behind ink.before⟩

/-- A fault without its place. -/
structure Flaw where
  before : String
  fault : Fault

def Flaw.diagnostic (origin : Location) (flaw : Flaw) : Diagnostic :=
  ⟨.lexical flaw.fault, origin.behind flaw.before⟩

namespace Piece

structure Cell where
  before : List Char
  kind : Kind
  text : List Char

namespace Cell

def piece (origin : Location) (cell : Cell) : Piece :=
  ⟨cell.kind, cell.text, origin.after cell.before⟩

def ink? (cell : Cell) : Option Ink :=
  match cell.kind with
  | .token kind => some ⟨String.ofList cell.before, kind, String.ofList cell.text⟩
  | .fault _ => some ⟨String.ofList cell.before, .unknown, String.ofList cell.text⟩
  | _ => none

def flaw? (cell : Cell) : Option Flaw :=
  match cell.kind with
  | .fault fault => some ⟨String.ofList cell.before, fault⟩
  | .unclosedComment => some ⟨String.ofList cell.before, .unclosedComment⟩
  | _ => none

theorem token?_piece (origin : Location) (cell : Cell) :
    (cell.piece origin).token? = cell.ink?.map (·.token origin) := by
  obtain ⟨before, kind, text⟩ := cell
  rw [piece, Location.after_eq_behind]
  cases kind <;> rfl

theorem diagnostic?_piece (origin : Location) (cell : Cell) :
    (cell.piece origin).diagnostic? = cell.flaw?.map (·.diagnostic origin) := by
  obtain ⟨before, kind, text⟩ := cell
  rw [piece, Location.after_eq_behind]
  cases kind <;> rfl

end Cell

/-- The pieces of a text that follows `before`. -/
def cells (before : List Char) (lineIsBlank : Bool) : List Char → List Cell
  | [] => []
  | c :: r =>
      let first := cut lineIsBlank c r
      ⟨before, first.kind, first.text⟩ ::
        cells (before ++ first.text) (keepsLineBlank lineIsBlank first.text) first.rest
termination_by cs => cs.length
decreasing_by exact (cut_splits lineIsBlank c r).length_lt

/-- Where a text begins does not change its pieces. -/
theorem chain_eq_cells (origin : Location) (before : List Char) (lineIsBlank : Bool)
    (cs : List Char) :
    chain (origin.after before) lineIsBlank cs =
      (cells before lineIsBlank cs).map (·.piece origin) := by
  fun_induction cells before lineIsBlank cs with
  | case1 before lineIsBlank =>
      rw [chain]
      rfl
  | case2 before lineIsBlank c r first ih =>
      rw [chain, ← Location.after_append]
      exact congrArg _ ih

theorem cell_stands {before : List Char} {lineIsBlank : Bool} {cs : List Char} {cell : Cell}
    (member : cell ∈ cells before lineIsBlank cs) :
    ∃ rest, before ++ cs = cell.before ++ (cell.text ++ rest) ∧
      Cut.Fits ⟨cell.kind, cell.text, rest⟩ := by
  fun_induction cells before lineIsBlank cs with
  | case1 => cases member
  | case2 before lineIsBlank c r first ih =>
      have split := (cut_splits lineIsBlank c r).append
      rcases List.mem_cons.1 member with rfl | later
      · exact ⟨first.rest, by rw [← split], cut_fits lineIsBlank c r⟩
      · obtain ⟨rest, whole, fits⟩ := ih later
        exact ⟨rest, by rw [← whole, ← split, List.append_assoc], fits⟩

end Piece

/-- All tokens of a text, the end of input with them. -/
def inks (text : String) : List Ink :=
  (Piece.cells [] true text.toList).filterMap Piece.Cell.ink? ++ [⟨text, .endOfInput, ""⟩]

def flaws (text : String) : List Flaw :=
  (Piece.cells [] true text.toList).filterMap Piece.Cell.flaw?

theorem Ink.stands {text : String} {ink : Ink} (member : ink ∈ inks text) :
    ∃ rest, text = ink.before ++ ink.text ++ rest := by
  rcases List.mem_append.1 member with inside | last
  · obtain ⟨⟨before, kind, own⟩, among, is⟩ := List.mem_filterMap.1 inside
    obtain ⟨rest, whole, _⟩ := Piece.cell_stands among
    apply Exists.intro (String.ofList rest)
    apply String.toList_injective
    rw [List.nil_append] at whole
    cases kind <;> cases is <;> simpa using whole
  · rw [List.mem_singleton.1 last]
    exact ⟨"", by simp⟩

/-- A fault begins where an unknown token does, or a comment that does not close. -/
theorem Flaw.stands {text : String} {flaw : Flaw} (member : flaw ∈ flaws text) :
    (∃ own, ⟨flaw.before, .unknown, own⟩ ∈ inks text) ∨
      flaw.fault = .unclosedComment ∧ ∃ body, text = flaw.before ++ "/*" ++ body ∧
        ∀ closed, closed <+: body.toList → ¬ ClosesComment 0 closed := by
  obtain ⟨⟨before, kind, own⟩, among, is⟩ := List.mem_filterMap.1 member
  obtain ⟨rest, whole, fits⟩ := Piece.cell_stands among
  cases kind with
  | fault fault =>
      cases is
      apply Or.inl
      apply Exists.intro (String.ofList own)
      apply List.mem_append_left
      exact List.mem_filterMap.2 ⟨_, among, rfl⟩
  | unclosedComment =>
      cases is
      obtain ⟨body, rfl, rfl, open_⟩ := fits
      apply Or.inr
      apply And.intro rfl
      apply Exists.intro (String.ofList body)
      constructor
      · apply String.toList_injective
        simpa using whole
      · rw [String.toList_ofList]
        exact open_
  | _ => cases is

namespace TokenStream

theorem ofTextAt_eq (origin : Location) (text : String) :
    ofTextAt origin text =
      ⟨(inks text).map (·.token origin), (flaws text).map (·.diagnostic origin)⟩ := by
  have pieces : Piece.chain origin true text.toList =
      (Piece.cells [] true text.toList).map (·.piece origin) :=
    Piece.chain_eq_cells origin [] true text.toList
  have stop : origin.after text.toList = origin.behind text := by
    rw [Location.after_eq_behind, String.ofList_toList]
  have tokens : Piece.token? ∘ Piece.Cell.piece origin =
      fun cell => cell.ink?.map (·.token origin) :=
    funext (Piece.Cell.token?_piece origin)
  have diagnostics : Piece.diagnostic? ∘ Piece.Cell.piece origin =
      fun cell => cell.flaw?.map (·.diagnostic origin) :=
    funext (Piece.Cell.diagnostic?_piece origin)
  rw [ofTextAt, pieces, stop, inks, flaws, List.filterMap_map, List.filterMap_map, tokens,
    diagnostics, List.map_append, List.map_filterMap, List.map_filterMap]
  rfl

/-- What a text holds, and behind which part of it, is the same wherever the text begins; and the
place of a token or a fault is the one behind that part. -/
theorem ofTextAt_places (text : String) :
    ∃ (inks : List Ink) (flaws : List Flaw),
      inks.getLast? = some ⟨text, .endOfInput, ""⟩ ∧
      (∀ ink ∈ inks, ∃ rest, text = ink.before ++ ink.text ++ rest) ∧
      (∀ flaw ∈ flaws, (∃ own, ⟨flaw.before, .unknown, own⟩ ∈ inks) ∨
        flaw.fault = .unclosedComment ∧ ∃ body, text = flaw.before ++ "/*" ++ body ∧
          ∀ closed, closed <+: body.toList → ¬ ClosesComment 0 closed) ∧
      ∀ origin, let stream := ofTextAt origin text
        stream.tokens = inks.map (fun ink => ⟨ink.kind, ink.text, origin.behind ink.before⟩) ∧
        stream.errors =
          flaws.map (fun flaw => ⟨.lexical flaw.fault, origin.behind flaw.before⟩) ∧
        Layout origin stream.tokens text.toList ∧
        stream.tokens.map (fun t => (t.kind, t.text)) =
          (ofText text).tokens.map (fun t => (t.kind, t.text)) ∧
        stream.errors.map (·.message) = (ofText text).errors.map (·.message) := by
  refine ⟨inks text, flaws text, List.getLast?_concat, fun ink => Ink.stands,
    fun flaw => Flaw.stands, fun origin => ?_⟩
  intro stream
  have here : stream = _ := ofTextAt_eq origin text
  have alone : ofText text = _ := ofTextAt_eq .start text
  apply And.intro (congrArg tokens here)
  apply And.intro (congrArg errors here)
  apply And.intro (Layout.of_chain origin true text.toList)
  rw [here, alone]
  constructor
  · rw [List.map_map, List.map_map]
    rfl
  · rw [List.map_map, List.map_map]
    rfl

end TokenStream

end QueryNames
