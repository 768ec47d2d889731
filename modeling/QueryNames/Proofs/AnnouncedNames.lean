import QueryNames.Proofs.Announced.Query
import QueryNames.Proofs.OneBatch

/-!
Labels, types and new tables. Main statement: a name that `AS` or `INTO` announces is not among the
names of a text, however the text is formed.
-/

namespace QueryNames

namespace Unannounced

variable {front rest : List Token} {t : Token} {i : Identifier}

/-- The tokens of a batch stand so in the whole list. -/
theorem of_batch
    (unannounced : Unannounced (front ++ [Batch.closing t]) i) :
    Unannounced (front ++ t :: rest) i := by
  obtain ⟨before, u, behind, split, kind, untaken, is⟩ := unannounced
  rcases behind.eq_nil_or_concat with rfl | ⟨inside, last, rfl⟩
  · obtain ⟨-, last⟩ := List.append_inj' split rfl
    have stop : u.isEnd = true := by
      rw [← List.singleton_inj.1 last]
      exact Batch.isEnd_closing t
    rw [Token.isEnd_iff, kind] at stop
    contradiction
  · rw [List.concat_eq_append, ← List.cons_append, ← List.append_assoc] at split
    obtain ⟨rfl, -⟩ := List.append_inj' split rfl
    exact ⟨before, u, inside ++ t :: rest, by simp, kind, untaken, is⟩

/-- Nothing is announced across the end of a batch. -/
theorem behind_batch (ends : t.endsBatch = true) (unannounced : Unannounced rest i) :
    Unannounced (front ++ t :: rest) i := by
  obtain ⟨before, u, behind, rfl, kind, untaken, is⟩ := unannounced
  refine ⟨front ++ t :: before, u, behind, by simp, kind, ?_, is⟩
  rwa [Wake.of_batch ends]

end Unannounced

/-- Where all stands at places of its own, what was not announced stands elsewhere than what was. -/
theorem Announced.location_ne {tokens : List Token} {t : Token} {i : Identifier}
    (rising : tokens.Pairwise fun t u => t.location.offset < u.location.offset)
    (announced : Announced tokens t) (unannounced : Unannounced tokens i) :
    i.location ≠ t.location := by
  obtain ⟨-, before, behind, rfl, taken⟩ := announced.taken
  obtain ⟨before', u, behind', split, -, untaken, rfl⟩ := unannounced
  intro same
  have level : u.location.offset = t.location.offset := congrArg Location.offset same
  rcases List.append_eq_append_iff.1 split with ⟨between, rfl, rest⟩ | ⟨between, rfl, rest⟩
  · cases between with
    | nil =>
        obtain ⟨rfl, -⟩ := List.cons.inj rest
        rw [List.append_nil, taken] at untaken
        contradiction
    | cons v between =>
        obtain ⟨rfl, rfl⟩ := List.cons.inj rest
        have later := (List.pairwise_append.1 rising).2.1
        have := (List.pairwise_cons.1 later).1 u (by simp)
        omega
  · cases between with
    | nil =>
        obtain ⟨rfl, -⟩ := List.cons.inj rest
        rw [List.append_nil, untaken] at taken
        contradiction
    | cons v between =>
        obtain ⟨rfl, rfl⟩ := List.cons.inj rest
        have earlier := (List.pairwise_append.1 rising).2.2 u (by simp) t List.mem_cons_self
        omega

namespace ParseResult

open Grammar

theorem unannounced_ofBatch {stream : TokenStream} (closed : Closed stream.tokens) :
    ∀ i ∈ (ofBatch stream).script.outline.identifiers, Unannounced stream.tokens i := by
  have start : Place.free.Holds stream.tokens
      ⟨.ofTokens stream.tokens, stream.errors.reverse⟩ :=
    ⟨closed, [], Cursor.tokens_ofTokens_closed closed, rfl⟩
  have spares : Parser.Spares stream.tokens [] .free .free Parser.script := inferInstance
  rcases run : Parser.script ⟨.ofTokens stream.tokens, stream.errors.reverse⟩ with ⟨_ | queries, s⟩
  · simp [ofBatch, run, Script.outline, Node.mentions]
  · have found := (spares.behind.of_result start run).1.each
    simpa [ofBatch, run, Script.outline, Node.mentions, names, List.flatMap_map] using found

theorem unannounced_ofTokens {tokens : List Token} (closed : Closed tokens)
    (errors : List Diagnostic) :
    ∀ i ∈ (ofTokens ⟨tokens, errors⟩).script.outline.identifiers, Unannounced tokens i := by
  have named (tokens : List Token) : (ofTokens ⟨tokens, errors⟩).script.outline.identifiers =
      (Batch.ofTokens tokens).flatMap fun batch =>
        (ofBatch ⟨batch.tokens, []⟩).script.outline.identifiers := by
    simp [ofTokens, Script.outline, Node.mentions, List.flatMap_map, List.map_flatMap,
      List.flatMap_assoc]
  have here {front : List Token} {t : Token} (rest : List Token) :
      ∀ i ∈ (Batch.unlessEmpty (front ++ [Batch.closing t])).flatMap fun batch =>
        (ofBatch ⟨batch.tokens, []⟩).script.outline.identifiers,
        Unannounced (front ++ t :: rest) i := by
    intro i member
    obtain ⟨batch, among, inBatch⟩ := List.mem_flatMap.1 member
    obtain rfl := Batch.mem_unlessEmpty among
    exact .of_batch (unannounced_ofBatch (closed_concat front (Batch.isEnd_closing t)) i inBatch)
  induction closed using Batch.closed_induction with
  | last front t whole ends closed =>
      rw [named, Batch.ofTokens_whole whole ends, Batch.ofTokens_nil, List.append_nil]
      exact here []
  | more front t rest whole ends closedRest closed ih =>
      rw [named] at ih ⊢
      rw [Batch.ofTokens_whole whole ends, List.flatMap_append]
      intro i member
      rcases List.mem_append.1 member with first | later
      · exact here rest i first
      · exact .behind_batch ends (ih i later)

end ParseResult

/-- The names of any text are those of identifier tokens, none of which is a part of a name right
behind an `AS` or an `INTO`. -/
theorem names_not_announced (text : String) :
    let tokens := (TokenStream.ofText text).tokens
    let mentions := (ParseResult.ofText text).script.outline.mentions
    tableNames text = Mention.values .table mentions ∧
      fieldNames text = Mention.values .field mentions ∧
      (∀ m ∈ mentions, ∃ t ∈ tokens, t.kind = .identifier ∧ m.identifier = .ofToken t) ∧
      ∀ t, Announced tokens t → ∀ m ∈ mentions, m.identifier.location ≠ t.location := by
  intro tokens mentions
  have unannounced (m : Mention) (member : m ∈ mentions) : Unannounced tokens m.identifier :=
    ParseResult.unannounced_ofTokens (TokenStream.closed_ofText text) _ _
      (List.mem_map_of_mem member)
  refine ⟨Script.tableNames_eq _, Script.fieldNames_eq _, fun m member => ?_,
    fun t announced m member => ?_⟩
  · obtain ⟨front, t, behind, split, kind, -, is⟩ := unannounced m member
    exact ⟨t, by simp [split], kind, is⟩
  · exact announced.location_ne (TokenStream.rising_ofText text) (unannounced m member)

/-- A label, a type and a new table stand where names of the text are looked for. -/
example :
    tableNames "SELECT CAST(a AS b.c) AS d INTO e FROM f AS g" = ["f"] ∧
      fieldNames "SELECT CAST(a AS b.c) AS d INTO e FROM f AS g" = ["a"] := by
  decide +kernel

end QueryNames
