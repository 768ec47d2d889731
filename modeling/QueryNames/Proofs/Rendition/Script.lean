import QueryNames.Proofs.BatchIsolation
import QueryNames.Proofs.Rendition.Query

/-!
Token lists and their renditions. Main statement: where places are kept, the rendition of a token
stream is read as the rendition of what the stream itself is read as, errors included.
-/

namespace QueryNames

instance : Renderable Batch := ⟨fun f batch => ⟨render f batch.tokens⟩⟩

instance : Renderable TokenStream :=
  ⟨fun f stream => ⟨render f stream.tokens, render f stream.errors⟩⟩

instance : Renderable ParseResult :=
  ⟨fun f result => ⟨render f result.script, render f result.errors⟩⟩

namespace Grammar

variable {tokens : List Token}

theorem Closed.render (closed : Closed tokens) (f : Rendition) : Closed (render f tokens) := by
  rw [Closed, render_list, List.getLast?_map]
  cases found : tokens.getLast? with
  | none => simp [Closed, found] at closed
  | some last => simpa [Closed, found] using closed

theorem Cursor.ofTokens_render (closed : Closed tokens) (f : Rendition) :
    ofTokens (render f tokens) = render f (ofTokens tokens) := by
  cases tokens with
  | nil => cases closed
  | cons t tokens =>
      have rendered := closed.render f
      rw [render_cons] at rendered ⊢
      rw [ofTokens_closed rendered, ofTokens_closed closed]
      rfl

theorem Parser.script_render (closed : Closed tokens) {f : Rendition}
    (apart : f.Apart fun place => ∃ t ∈ tokens, place = t.location) :
    script ⟨.ofTokens (render f tokens), []⟩ = render f (script ⟨.ofTokens tokens, []⟩) := by
  rw [Cursor.ofTokens_render closed]
  exact Renders.script.run apart (State.within_ofTokens closed)

end Grammar

/-! Places that are kept. -/

section Kept

open Grammar

variable {f : Rendition} (kept : ∀ place, f.place place = place)

include kept

theorem Diagnostic.sort_render (ds : List Diagnostic) :
    sort (render f ds) = render f (sort ds) := by
  refine (List.map_mergeSort fun d _ e _ => ?_).symm
  show decide _ = decide ((f.place d.location).offset ≤ (f.place e.location).offset)
  rw [kept, kept]

theorem ParseResult.ofBatch_render {tokens : List Token} (closed : Closed tokens) :
    ofBatch ⟨render f tokens, []⟩ = render f (ofBatch ⟨tokens, []⟩) := by
  have apart : f.Apart fun place => ∃ t ∈ tokens, place = t.location := by
    intro here there _ _ same
    rwa [kept, kept] at same
  have run := Parser.script_render closed apart
  unfold ofBatch
  rw [List.reverse_nil, run]
  obtain ⟨queries?, s⟩ := Parser.script ⟨.ofTokens tokens, []⟩
  have reversed : (render f s.reported).reverse = render f s.reported.reverse :=
    List.map_reverse.symm
  show ParseResult.mk ⟨(render f queries?).getD []⟩
      (Diagnostic.sort (render f s.reported).reverse) =
    ⟨⟨render f (queries?.getD [])⟩, render f (Diagnostic.sort s.reported.reverse)⟩
  rw [getD_render, reversed, Diagnostic.sort_render kept]

end Kept

namespace Batch

variable (f : Rendition) {tokens : List Token}

theorem closing_render (t : Token) : closing (render f t) = render f (closing t) := by
  unfold closing
  rw [Token.isEnd_render]
  split
  · rfl
  · exact (Token.render_endOfInput f t.location).symm

theorem unlessEmpty_render (tokens : List Token) :
    unlessEmpty (render f tokens) = render f (unlessEmpty tokens) := by
  have empty : isEmpty ⟨render f tokens⟩ = isEmpty ⟨tokens⟩ := List.all_map
  simp only [unlessEmpty, empty]
  split <;> rfl

theorem ofTokens_render_whole {front rest : List Token} {t : Token}
    (whole : ∀ u ∈ front, u.endsBatch = false) (ends : t.endsBatch = true) :
    ofTokens (render f (front ++ t :: rest)) =
      render f (unlessEmpty (front ++ [closing t])) ++ ofTokens (render f rest) := by
  have rendered : ∀ u ∈ render f front, u.endsBatch = false := by
    intro u member
    obtain ⟨t, among, rfl⟩ := List.mem_map.1 member
    exact whole t among
  have endsHere : (render f t).endsBatch = true := ends
  rw [render_append, render_cons, ofTokens_whole rendered endsHere, closing_render,
    ← unlessEmpty_render, render_append]
  rfl

theorem ofTokens_render (closed : Grammar.Closed tokens) :
    ofTokens (render f tokens) = render f (ofTokens tokens) := by
  induction closed using closed_induction with
  | last front t whole ends _ =>
      rw [ofTokens_render_whole f whole ends, ofTokens_whole whole ends, render_nil, ofTokens_nil,
        List.append_nil, List.append_nil]
  | more front t rest whole ends _ _ ih =>
      rw [ofTokens_render_whole f whole ends, ofTokens_whole whole ends, ih, render_append]

end Batch

theorem ParseResult.ofTokens_render {f : Rendition} (kept : ∀ place, f.place place = place)
    {stream : TokenStream} (closed : Grammar.Closed stream.tokens) :
    ofTokens (render f stream) = render f (ofTokens stream) := by
  have each : ∀ batch ∈ Batch.ofTokens stream.tokens,
      ofBatch ⟨(render f batch).tokens, []⟩ = render f (ofBatch ⟨batch.tokens, []⟩) :=
    fun batch member => ofBatch_render kept (Batch.mem_ofTokens closed member).1
  have batches :
      Batch.ofTokens (render f stream).tokens = render f (Batch.ofTokens stream.tokens) :=
    Batch.ofTokens_render f closed
  have results : (render f (Batch.ofTokens stream.tokens)).map
        (fun batch => ofBatch ⟨batch.tokens, []⟩) =
      ((Batch.ofTokens stream.tokens).map fun batch =>
        ofBatch ⟨batch.tokens, []⟩).map (render f) := by
    rw [List.map_map, render_list, List.map_map]
    exact List.map_congr_left each
  have queries (rs : List ParseResult) : (rs.map (render f)).flatMap (·.script.queries) =
      render f (rs.flatMap (·.script.queries)) := by
    rw [List.flatMap_map, render_list, List.map_flatMap]
    rfl
  have errors (rs : List ParseResult) : (rs.map (render f)).flatMap (·.errors) =
      render f (rs.flatMap (·.errors)) := by
    rw [List.flatMap_map, render_list, List.map_flatMap]
    rfl
  unfold ofTokens
  simp only [batches, results, queries, errors]
  rw [show (render f stream).errors = render f stream.errors from rfl, ← render_append,
    Diagnostic.sort_render kept]
  rfl

end QueryNames
