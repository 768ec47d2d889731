import QueryNames.Grammar.Script
import QueryNames.Proofs.ExactPlaces
import QueryNames.Proofs.Grammar.Cursor

/-!
Where the tokens of a text end that were cut off. Main statement: the end of input behind them has
the offset at which their last one ends, and its place, unless that token goes over a line feed.
-/

namespace QueryNames.Grammar.Cursor

open TokenStream (ofText)

/-- The offset behind a token counts its bytes, whatever they are. -/
theorem offset_endOf (t : Token) :
    (endOf t).offset = (t.location.after t.text.toList).offset := by
  rw [Location.offset_after, String.ofList_toList, endOf]

/-- Line and column behind a token are told from its length where it stands on one line. -/
theorem endOf_eq_after_iff (t : Token) :
    endOf t = t.location.after t.text.toList ↔ '\n' ∉ t.text.toList := by
  have line := Location.line_after t.location t.text.toList
  have column := Location.column_after t.location t.text.toList
  constructor
  · intro same feed
    have lines : 0 < t.text.toList.count '\n' := List.count_pos_iff.2 feed
    rw [← same] at line
    have apart : t.location.line ≠ t.location.line + t.text.toList.count '\n' := by omega
    exact apart line
  · intro oneLine
    rw [List.count_eq_zero.2 oneLine, Nat.add_zero] at line
    rw [if_neg oneLine, String.length_toList] at column
    calc
      endOf t = ⟨(endOf t).offset, t.location.line, t.location.column + t.text.length⟩ := rfl
      _ = t.location.after t.text.toList := by rw [offset_endOf, ← line, ← column]

theorem closed_open {tokens : List Token} {t : Token} (last : tokens.getLast? = some t)
    (goesOn : t.isEnd = false) : closed tokens = tokens ++ [.endOfInput (endOf t)] := by
  rw [closed, last]
  simp [goesOn]

/-- Tokens that are cut off get an end of input right behind the text of the last one: its offset is
the one there, and so are its line and column if and only if no line feed stands in that text. -/
theorem stop_of_cut (text : String) (first last : Nat) {t : Token} :
    let tokens := ((ofText text).slice first last).tokens
    tokens.getLast? = some t → t.isEnd = false →
      ∃ before behind stop, text = before ++ t.text ++ behind ∧
        t.location = Location.start.after before.toList ∧
        (ofTokens tokens).tokens = tokens ++ [stop] ∧ stop.kind = .endOfInput ∧ stop.text = "" ∧
        let there := Location.start.after (before ++ t.text).toList
        stop.location.offset = there.offset ∧
          (stop.location = there ↔ '\n' ∉ t.text.toList) := by
  intro tokens final goesOn
  have among : t ∈ (ofText text).tokens :=
    List.mem_of_mem_take (List.mem_of_mem_drop (List.mem_of_getLast? final))
  have layout : Layout .start (ofText text).tokens text.toList :=
    .of_chain .start true text.toList
  obtain ⟨before, behind, split, here⟩ := layout.stands t among
  refine ⟨String.ofList before, String.ofList behind, .endOfInput (endOf t), ?_, ?_, ?_, rfl, rfl,
    ?_⟩
  · apply String.toList_injective
    simp [split]
  · rw [String.toList_ofList, here]
  · rw [tokens_ofTokens, closed_open final goesOn]
  · have there : Location.start.after (String.ofList before ++ t.text).toList =
        t.location.after t.text.toList := by
      rw [String.toList_append, String.toList_ofList, Location.after_append, here]
    rw [there]
    exact ⟨offset_endOf t, endOf_eq_after_iff t⟩

/-- A letter of two bytes is one column, and the end behind it is the right one. -/
theorem stop_of_cut_letter :
    let tokens := ((ofText "SELECT [é], b").slice 0 2).tokens
    let t : Token := ⟨.identifier, "[é]", ⟨7, 1, 8⟩⟩
    tokens.getLast? = some t ∧ t.isEnd = false ∧
      ∃ before behind stop, "SELECT [é], b" = before ++ t.text ++ behind ∧
        (ofTokens tokens).tokens = tokens ++ [stop] ∧
        stop.location = Location.start.after (before ++ t.text).toList ∧
        stop.location = ⟨11, 1, 11⟩ := by
  intro tokens t
  have known : tokens.getLast? = some t ∧ t.isEnd = false ∧ '\n' ∉ t.text.toList ∧
      (ofTokens tokens).tokens = tokens ++ [.endOfInput ⟨11, 1, 11⟩] := by
    decide +kernel
  obtain ⟨final, goesOn, oneLine, whole⟩ := known
  obtain ⟨before, behind, stop, split, -, whole', -, -, -, place⟩ :=
    stop_of_cut "SELECT [é], b" 0 2 final goesOn
  obtain rfl : stop = .endOfInput ⟨11, 1, 11⟩ :=
    List.singleton_inj.1 (List.append_cancel_left (whole'.symm.trans whole))
  exact ⟨final, goesOn, before, behind, _, split, whole', place.2 oneLine, rfl⟩

/-- The text of the last token ends on the second line; the end of input behind it, and with it the
complaint of the parenthesis that is missing there, is put on the first. -/
theorem stop_misplaced_behind_line_feed :
    let text := "SELECT ('a\nb'"
    let t : Token := ⟨.stringLiteral, "'a\nb'", ⟨8, 1, 9⟩⟩
    let tokens := ((ofText text).slice 0 3).tokens
    tokens.getLast? = some t ∧ t.isEnd = false ∧ text = "SELECT (" ++ t.text ∧
      t.location = Location.start.after "SELECT (".toList ∧
      Location.start.after ("SELECT (" ++ t.text).toList = ⟨13, 2, 3⟩ ∧
      (ofTokens tokens).tokens = tokens ++ [.endOfInput ⟨13, 1, 14⟩] ∧
      (ParseResult.ofBatch ⟨tokens, []⟩).errors.map (·.location) = [⟨13, 1, 14⟩] := by
  decide +kernel

end QueryNames.Grammar.Cursor
