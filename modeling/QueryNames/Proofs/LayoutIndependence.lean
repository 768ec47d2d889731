import QueryNames.Proofs.OrderedDiagnostics
import QueryNames.Proofs.Rendition.Script

/-!
The grammar does not see where tokens stand. Main statement: token lists that differ in their places
only are read as the same tree, with the same complaints of the same tokens.
-/

namespace QueryNames

/-- The index of the token at a place, as a place. -/
def Rendition.numbering (tokens : List Token) : Rendition where
  letter := id
  place here := ⟨tokens.findIdx (·.location == here), 0, 0⟩
  toLower_letter _ := rfl

namespace Rendition

variable {tokens : List Token}

theorem place_numbering (rising : tokens.Pairwise fun t u => t.location.offset < u.location.offset)
    (n : Nat) (inside : n < tokens.length) :
    (numbering tokens).place tokens[n].location = ⟨n, 0, 0⟩ := by
  have first : tokens.findIdx (·.location == tokens[n].location) = n := by
    rw [List.findIdx_eq inside]
    refine ⟨beq_self_eq_true _, fun m before => ?_⟩
    have apart := List.pairwise_iff_getElem.1 rising m n (by omega) inside before
    apply beq_eq_false_iff_ne.2
    intro same
    rw [same] at apart
    exact Nat.lt_irrefl _ apart
  exact congrArg (Location.mk · 0 0) first

theorem apart_numbering (tokens : List Token) :
    (numbering tokens).Apart fun place => ∃ t ∈ tokens, place = t.location := by
  rintro here there ⟨t, member, rfl⟩ ⟨u, member', rfl⟩ same
  have index : tokens.findIdx (·.location == t.location) =
      tokens.findIdx (·.location == u.location) := congrArg Location.offset same
  have inside : tokens.findIdx (·.location == t.location) < tokens.length :=
    List.findIdx_lt_length_of_exists ⟨t, member, beq_self_eq_true _⟩
  have inside' : tokens.findIdx (·.location == u.location) < tokens.length :=
    List.findIdx_lt_length_of_exists ⟨u, member', beq_self_eq_true _⟩
  have found := beq_iff_eq.1 (List.findIdx_getElem (w := inside))
  have found' := beq_iff_eq.1 (List.findIdx_getElem (w := inside'))
  rw [← found, ← found']
  simp only [index]

/-! Letters that are kept. -/

section Kept

variable {f : Rendition} (kept : ∀ c, f.letter c = c)

include kept

theorem render_text_of_kept (text : String) : render f text = text := by
  apply String.toList_injective
  rw [toList_render, List.map_congr_left fun c _ => kept c, List.map_id']

theorem render_found_of_kept (found : Found) : render f found = found := by
  cases found with
  | none => rfl
  | some text => exact congrArg some (render_text_of_kept kept text)

theorem message_of_kept (d : Diagnostic) : (render f d).message = d.message := by
  obtain ⟨cause, place⟩ := d
  cases cause with
  | lexical fault =>
      cases fault with
      | unclosedIdentifier close =>
          exact congrArg (fun close => (Fault.unclosedIdentifier close).message) (kept close)
      | strayCharacter c => exact congrArg (fun c => (Fault.strayCharacter c).message) (kept c)
      | _ => rfl
  | grammatical complaint =>
      cases complaint with
      | missing expected found =>
          exact congrArg (fun found => (Complaint.missing expected found).message)
            (render_found_of_kept kept found)
      | surplus found expected =>
          exact congrArg (fun found => (Complaint.surplus found expected).message)
            (render_found_of_kept kept found)
      | unsupportedStatement found =>
          exact congrArg (fun found => (Complaint.unsupportedStatement found).message)
            (render_found_of_kept kept found)
      | nestingTooDeep => rfl

end Kept

/-- Numbered tokens have nothing but their kinds and texts. -/
theorem render_numbering {a b : List Token}
    (same : a.map (fun t => (t.kind, t.text)) = b.map fun t => (t.kind, t.text))
    (rising : a.Pairwise fun t u => t.location.offset < u.location.offset)
    (rising' : b.Pairwise fun t u => t.location.offset < u.location.offset) :
    render (numbering a) a = render (numbering b) b := by
  have length : a.length = b.length := by simpa using congrArg List.length same
  rw [render_list, render_list]
  apply List.ext_getElem
  · rw [List.length_map, List.length_map, length]
  · intro n inside inside'
    rw [List.length_map] at inside inside'
    have alike : (a[n].kind, a[n].text) = (b[n].kind, b[n].text) := by
      have nth := congrArg (·[n]?) same
      simpa [inside, inside'] using nth
    obtain ⟨kind, text⟩ := Prod.mk.inj alike
    rw [List.getElem_map, List.getElem_map]
    show Token.mk _ (render _ a[n].text) _ = Token.mk _ (render _ b[n].text) _
    rw [place_numbering rising n inside, place_numbering rising' n inside',
      render_text_of_kept fun _ => rfl, render_text_of_kept fun _ => rfl, kind, text]

end Rendition

namespace ParseResult

open Grammar Rendition

/-- What is read has no place but those of the tokens: the tree changes with them only, and each
error is a complaint of one of them. -/
structure StandsAt (tokens : List Token) (result : ParseResult) : Prop where
  script (f : Rendition) : (∀ c, f.letter c = c) → (∀ t ∈ tokens, f.place t.location = t.location) →
    render f result.script = result.script
  errors : ∀ d ∈ result.errors, d.isGrammatical = true ∧ ∃ t ∈ tokens, d.location = t.location

section Batch

variable {tokens : List Token} (closed : Closed tokens)
  (rising : tokens.Pairwise fun t u => t.location.offset < u.location.offset)

include closed rising

theorem render_ofBatch {f : Rendition}
    (apart : f.Apart fun place => ∃ t ∈ tokens, place = t.location) :
    render f (ofBatch ⟨tokens, []⟩) =
      ⟨⟨((Parser.script ⟨.ofTokens (render f tokens), []⟩).1).getD []⟩,
        (Parser.script ⟨.ofTokens (render f tokens), []⟩).2.reported.reverse⟩ := by
  have run := Parser.script_render closed apart
  have errors := errors_ofBatch closed rising
  have script : (ofBatch ⟨tokens, []⟩).script =
      ⟨((Parser.script ⟨.ofTokens tokens, []⟩).1).getD []⟩ := rfl
  rw [run]
  generalize Parser.script ⟨.ofTokens tokens, []⟩ = result at errors script ⊢
  obtain ⟨queries?, s⟩ := result
  show ParseResult.mk (render f (ofBatch ⟨tokens, []⟩).script)
      (render f (ofBatch ⟨tokens, []⟩).errors) =
    ⟨⟨(render f queries?).getD []⟩, (render f s.reported).reverse⟩
  rw [errors, script, getD_render, render_list, List.map_reverse]
  rfl

theorem standsAt_ofBatch : (ofBatch ⟨tokens, []⟩).StandsAt tokens where
  script f letters places := by
    have apart : f.Apart fun place => ∃ t ∈ tokens, place = t.location := by
      rintro here there ⟨t, member, rfl⟩ ⟨u, member', rfl⟩ same
      rwa [places t member, places u member'] at same
    have tokensKept : render f tokens = tokens := by
      rw [render_list]
      refine (List.map_congr_left fun t member => ?_).trans (List.map_id _)
      show Token.mk t.kind (render f t.text) (f.place t.location) = t
      rw [render_text_of_kept letters, places t member]
    have whole := render_ofBatch closed rising apart
    rw [tokensKept] at whole
    exact congrArg ParseResult.script whole
  errors d member :=
    ⟨(rising_ofBatch closed rising).2 d member, place_of_mem_ofBatch closed member⟩

end Batch

/-- Token lists with the same kinds and texts are read as the same tree, in which each place is that
of a token with the same index, with the same errors at tokens with the same indices. -/
theorem ofBatch_places {a b : List Token} (closed : Closed a) (closed' : Closed b)
    (same : a.map (fun t => (t.kind, t.text)) = b.map fun t => (t.kind, t.text))
    (rising : a.Pairwise fun t u => t.location.offset < u.location.offset)
    (rising' : b.Pairwise fun t u => t.location.offset < u.location.offset) :
    let left := ofBatch ⟨a, []⟩
    let right := ofBatch ⟨b, []⟩
    render (numbering a) left.script = render (numbering b) right.script ∧
      left.errors.map (fun d => (a.findIdx (·.location == d.location), d.message)) =
        right.errors.map (fun d => (b.findIdx (·.location == d.location), d.message)) ∧
      left.StandsAt a ∧ right.StandsAt b := by
  intro left right
  have numbered : render (numbering a) left = render (numbering b) right := by
    rw [render_ofBatch closed rising (apart_numbering a), render_numbering same rising rising',
      render_ofBatch closed' rising' (apart_numbering b)]
  have told (tokens : List Token) (errors : List Diagnostic) :
      errors.map (fun d => (tokens.findIdx (·.location == d.location), d.message)) =
        (render (numbering tokens) errors).map fun d => (d.location.offset, d.message) := by
    rw [render_list, List.map_map]
    refine List.map_congr_left fun d _ => ?_
    exact congrArg _ (message_of_kept (fun _ => rfl) d).symm
  refine ⟨congrArg ParseResult.script numbered, ?_, standsAt_ofBatch closed rising,
    standsAt_ofBatch closed' rising'⟩
  rw [told, told]
  exact congrArg (fun result => result.errors.map fun d => (d.location.offset, d.message)) numbered

/-- A query on one line and on several, with a word too many and a comma too many. -/
theorem ofBatch_places_lines :
    let a := (TokenStream.ofText "SELECT a b c, FROM t WHERE x = 1").tokens
    let b :=
      (TokenStream.ofText "SELECT a\n  b  c , -- and so on\nFROM t\nWHERE /* x */ x=1\n").tokens
    let left := ofBatch ⟨a, []⟩
    let right := ofBatch ⟨b, []⟩
    a.map (fun t => (t.kind, t.text)) = b.map (fun t => (t.kind, t.text)) ∧
      a.Pairwise (fun t u => t.location.offset < u.location.offset) ∧
      b.Pairwise (fun t u => t.location.offset < u.location.offset) ∧
      left.errors.map (·.location.offset) = [11, 14] ∧
      right.errors.map (·.location.offset) = [14, 31] ∧
      render (numbering a) left.script = render (numbering b) right.script ∧
      left.errors.map (fun d => (a.findIdx (·.location == d.location), d.message)) =
        right.errors.map (fun d => (b.findIdx (·.location == d.location), d.message)) ∧
      left.StandsAt a ∧ right.StandsAt b := by
  intro a b left right
  have known : a.map (fun t => (t.kind, t.text)) = b.map (fun t => (t.kind, t.text)) ∧
      a.Pairwise (fun t u => t.location.offset < u.location.offset) ∧
      b.Pairwise (fun t u => t.location.offset < u.location.offset) := by
    decide +kernel
  obtain ⟨same, rising, rising'⟩ := known
  have places : left.errors.map (·.location.offset) = [11, 14] := by
    rw [show left.errors = _ from errors_ofBatch (closed_concat _ rfl) rising]
    decide +kernel
  have places' : right.errors.map (·.location.offset) = [14, 31] := by
    rw [show right.errors = _ from errors_ofBatch (closed_concat _ rfl) rising']
    decide +kernel
  have read := ofBatch_places (closed_concat _ rfl) (closed_concat _ rfl) same rising rising'
  exact ⟨same, rising, rising', places, places', read⟩

end ParseResult

end QueryNames
