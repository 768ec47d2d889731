import Mathlib.Data.List.Nodup
import QueryNames.Proofs.Mention
import QueryNames.Proofs.Reading.Query

/-!
The names of a text in the order of the text. Main statement: they are picked from its identifier
tokens, at increasing positions, and no token gives both a table and a field.
-/

namespace QueryNames

theorem identifiers_of_filter {keeps : Token → Bool} (tokens : List Token)
    (kept : ∀ t : Token, t.kind = .identifier → keeps t = true) :
    (tokens.filter keeps).filterMap Token.identifier? = tokens.filterMap Token.identifier? := by
  induction tokens with
  | nil => rfl
  | cons t tokens ih =>
      cases keep : keeps t with
      | true => simp only [List.filter_cons, keep, if_true, List.filterMap_cons, ih]
      | false =>
          have other : t.kind ≠ .identifier := by
            intro kind
            rw [kept t kind] at keep
            contradiction
          simp [keep, Token.identifier?, other, ih]

namespace ParseResult

/-- The names of one batch are among its identifiers. -/
theorem identifiers_ofBatch (stream : TokenStream) :
    ((ofBatch stream).script.outline.identifiers).Sublist
      (stream.tokens.filterMap Token.identifier?) := by
  have inside (t : Token) (kind : t.kind = .identifier) : (!t.isEnd) = true := by
    simp [Token.isEnd, kind]
  let s : Grammar.State := ⟨.ofTokens stream.tokens, stream.errors.reverse⟩
  have start := Grammar.Passed.start (s := s) (Grammar.Cursor.closed_ofTokens _)
  have reads := Grammar.Parser.Reads.script s []
  rw [← identifiers_of_filter stream.tokens inside,
    ← Grammar.Cursor.filter_tokens_ofTokens, identifiers_of_filter _ inside]
  rcases run : Grammar.Parser.script s with ⟨_ | queries, s'⟩
  · simp [ofBatch, s, run, Script.outline, Node.mentions]
  · obtain ⟨-, -, front, split, among⟩ := reads.of_result start run
    have named : (ofBatch stream).script.outline.identifiers = Grammar.names queries := by
      simp [ofBatch, s, run, Script.outline, Node.mentions, Grammar.names, List.flatMap_map]
    rw [named]
    refine among.trans ?_
    rw [← split, List.filterMap_append]
    exact List.sublist_append_left _ _

theorem identifiers_ofTokens (stream : TokenStream) :
    ((ofTokens stream).script.outline.identifiers).Sublist
      (stream.tokens.filterMap Token.identifier?) := by
  have open_ (t : Token) (kind : t.kind = .identifier) : (!t.endsBatch) = true := by
    simp [Token.endsBatch, Token.isSeparator, Token.isEnd, kind]
  have inside (t : Token) (kind : t.kind = .identifier) : (!t.isEnd) = true := by
    simp [Token.isEnd, kind]
  have batches (list : List Batch) :
      (list.flatMap fun batch =>
        (ofBatch ⟨batch.tokens, []⟩).script.outline.identifiers).Sublist
        ((Batch.content list).filterMap Token.identifier?) := by
    induction list with
    | nil => exact List.nil_sublist _
    | cons batch list ih =>
        have first := identifiers_ofBatch ⟨batch.tokens, []⟩
        rw [← identifiers_of_filter batch.tokens inside] at first
        simpa [Batch.content] using first.append ih
  have named : (ofTokens stream).script.outline.identifiers =
      (Batch.ofTokens stream.tokens).flatMap fun batch =>
        (ofBatch ⟨batch.tokens, []⟩).script.outline.identifiers := by
    simp [ofTokens, Script.outline, Node.mentions, List.flatMap_map, List.map_flatMap,
      List.flatMap_assoc]
  rw [named, ← identifiers_of_filter stream.tokens open_, ← Batch.content_ofTokens]
  exact batches _

end ParseResult

/-- Places that hold the identifiers of some mentions are divided between the two roles. -/
theorem Mention.divide {ι : Type} {mentions : List Mention} {places : List ι}
    {held : ι → Identifier} (same : mentions.map (·.identifier) = places.map held) :
    ∃ tables fields : List ι,
      tables.Sublist places ∧ fields.Sublist places ∧ (tables ++ fields).Perm places ∧
      values .table mentions = tables.map (fun place => (held place).value) ∧
      values .field mentions = fields.map (fun place => (held place).value) := by
  induction mentions generalizing places with
  | nil =>
      have empty : places = [] := by simpa using same.symm
      exact ⟨[], [], by simp, by simp, by simp [empty], rfl, rfl⟩
  | cons mention mentions ih =>
      cases places with
      | nil => simp at same
      | cons place places =>
          obtain ⟨here, behind⟩ := List.cons.inj same
          obtain ⟨tables, fields, tablesFrom, fieldsFrom, all, tableValues, fieldValues⟩ :=
            ih behind
          obtain ⟨role, identifier⟩ := mention
          obtain rfl : identifier = held place := here
          cases role with
          | table =>
              refine ⟨place :: tables, fields, tablesFrom.cons_cons _, fieldsFrom.cons _,
                all.cons _, ?_, ?_⟩
              · simp [values, ← tableValues]
              · simp [values, ← fieldValues]
          | field =>
              refine ⟨tables, place :: fields, tablesFrom.cons _, fieldsFrom.cons_cons _,
                List.perm_middle.trans (all.cons _), ?_, ?_⟩
              · simp [values, ← tableValues]
              · simp [values, ← fieldValues]

theorem filterMap_identifier? (tokens : List Token) :
    tokens.filterMap Token.identifier? =
      (tokens.filter (·.kind == .identifier)).map Identifier.ofToken := by
  induction tokens with
  | nil => rfl
  | cons t tokens ih =>
      by_cases kind : t.kind = .identifier <;> simp [Token.identifier?, kind, ih]

/-- Whatever the text, its names are the values of identifier tokens at increasing positions, and
no position gives both a table and a field. -/
theorem names_in_source_order (text : String) :
    let tokens := (TokenStream.ofText text).tokens
    ∃ tables fields : List (Fin tokens.length),
      tables.Pairwise (· < ·) ∧ fields.Pairwise (· < ·) ∧ tables.Disjoint fields ∧
      (∀ i ∈ tables ++ fields, tokens[i].kind = .identifier) ∧
      tableNames text = tables.map (fun i => nameValue tokens[i].text) ∧
      fieldNames text = fields.map (fun i => nameValue tokens[i].text) := by
  intro tokens
  have among := ParseResult.identifiers_ofTokens (TokenStream.ofText text)
  rw [filterMap_identifier?] at among
  obtain ⟨picked, pickedFrom, same⟩ := List.sublist_map_iff.1 among
  obtain ⟨places, placesOf, increasing⟩ :=
    List.sublist_eq_map_getElem (pickedFrom.trans List.filter_sublist)
  have held : (ParseResult.ofText text).script.outline.mentions.map (·.identifier) =
      places.map fun i => Identifier.ofToken tokens[i] := by
    have composed := same
    rw [placesOf, List.map_map] at composed
    exact composed
  obtain ⟨tables, fields, tablesFrom, fieldsFrom, all, tableValues, fieldValues⟩ :=
    Mention.divide held
  have distinct : (tables ++ fields).Nodup :=
    all.nodup_iff.2 (increasing.imp fun before => Fin.ne_of_lt before)
  refine ⟨tables, fields, increasing.sublist tablesFrom, increasing.sublist fieldsFrom,
    List.disjoint_of_nodup_append distinct, ?_, ?_, ?_⟩
  · intro i member
    have inPicked : tokens[i] ∈ picked := by
      rw [placesOf]
      exact List.mem_map_of_mem (all.subset member)
    simpa using (List.mem_filter.1 (pickedFrom.subset inPicked)).2
  · rw [tableNames, Script.tableNames_eq, tableValues]
    rfl
  · rw [fieldNames, Script.fieldNames_eq, fieldValues]
    rfl

end QueryNames
