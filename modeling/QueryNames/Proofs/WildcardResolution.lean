import QueryNames.Resolution

/-!
Wildcards resolved through a source that is asked for one table at a time. Main statement: the
tables of the query are asked for in order, up to the first one that fails, and where there is no
wildcard none is.
-/

namespace QueryNames

namespace SchemaProvider

theorem Noted.run_pure (a : α) (asked : List String) :
    (pure a : Noted α).run.run asked = (.ok a, asked) := rfl

theorem Noted.run_bind (lookup : Noted α) (next : α → Noted β) (asked : List String) :
    (lookup >>= next).run.run asked =
      match lookup.run.run asked with
      | (.error failure, asked') => (.error failure, asked')
      | (.ok a, asked') => (next a).run.run asked' := by
  change (lookup.run >>= ExceptT.bindCont next).run asked = _
  rw [StateT.run_bind]
  rcases lookup.run.run asked with ⟨_ | a, asked'⟩ <;> rfl

section Recalling

variable (answer : List String → String → Except Failure (List String))

/-- Behind the requests made so far, all these tables are answered for, each with its columns. -/
inductive Answered : List String → List String → List (List String) → Prop
  | none {asked} : Answered asked [] []
  | next {asked table tables columns others} : answer asked table = .ok columns →
      Answered (asked ++ [table]) tables others →
      Answered asked (table :: tables) (columns :: others)

/-- What comes of asking for tables one after the other, and what has been asked for then. -/
inductive Outcome (asked tables : List String) : Except Failure (List String) × List String → Prop
  | columns {columns : List (List String)} : Answered answer asked tables columns →
      Outcome asked tables (.ok columns.flatten, asked ++ tables)
  | failure {before after : List String} {table : String} {columns : List (List String)}
      {failure : Failure} : tables = before ++ table :: after →
      Answered answer asked before columns →
      answer (asked ++ before) table = .error failure →
      Outcome asked tables (.error failure, asked ++ before ++ [table])

variable {answer}

theorem Outcome.none (asked : List String) : Outcome answer asked [] (.ok [], asked) := by
  have nothing : Outcome answer asked [] (.ok [].flatten, asked ++ []) := .columns .none
  rwa [List.append_nil] at nothing

/-- The first table fails. -/
theorem Outcome.stop {asked tables : List String} {table : String} {failure : Failure}
    (fails : answer asked table = .error failure) :
    Outcome answer asked (table :: tables) (.error failure, asked ++ [table]) := by
  have first : Outcome answer asked (table :: tables) (.error failure, asked ++ [] ++ [table]) :=
    .failure rfl .none (by rwa [List.append_nil])
  rwa [List.append_nil] at first

/-- The first table is answered for, and then the others. -/
theorem Outcome.next {asked asked' tables columns : List String} {table : String}
    {others : Except Failure (List String)} (answered : answer asked table = .ok columns)
    (outcome : Outcome answer (asked ++ [table]) tables (others, asked')) :
    Outcome answer asked (table :: tables) (others.map (columns ++ ·), asked') := by
  cases outcome with
  | columns rest =>
      have all := Outcome.columns (.next answered rest)
      rwa [List.append_cons] at all
  | @failure before after table' _ _ split rest fails =>
      rw [← List.append_cons] at fails ⊢
      exact .failure (congrArg (table :: ·) split) (.next answered rest) fails

theorem recalling_columns (asked : List String) (table : String) :
    ((recalling answer).columns table).run.run asked =
      (answer asked table, asked ++ [table]) := by
  change (liftExcept (answer asked table) : Noted (List String)).run.run (asked ++ [table]) = _
  cases answer asked table <;> rfl

/-- One round of the lookup: it ends with a table that fails. -/
theorem inTurn_cons (asked : List String) (table : String) (tables : List String) :
    (inTurn (recalling answer).columns (table :: tables)).run.run asked =
      match answer asked table with
      | .error failure => (.error failure, asked ++ [table])
      | .ok columns =>
          let others := (inTurn (recalling answer).columns tables).run.run (asked ++ [table])
          (others.1.map (columns ++ ·), others.2) := by
  rw [inTurn, Noted.run_bind, recalling_columns]
  cases answer asked table with
  | error failure => rfl
  | ok columns =>
      dsimp only
      rw [Noted.run_bind]
      rcases (inTurn (recalling answer).columns tables).run.run (asked ++ [table]) with
        ⟨_ | others, asked'⟩ <;> rfl

theorem inTurn_outcome (asked tables : List String) :
    Outcome answer asked tables ((inTurn (recalling answer).columns tables).run.run asked) := by
  induction tables generalizing asked with
  | nil => exact .none asked
  | cons table tables ih =>
      rw [inTurn_cons]
      cases answered : answer asked table with
      | error failure => exact .stop answered
      | ok columns => exact .next answered (ih (asked ++ [table]))

end Recalling

end SchemaProvider

open SchemaProvider

/-- A text with a wildcard asks for its tables; a text without one asks nobody, whatever the source
may be. It is the same through a pointer, by default, and for tables that are named. -/
theorem resolveFieldNames_outcome (detection : WildcardDetection) (text : String) :
    (detection.fires text (ParseResult.ofText text).script = false →
      ∀ (provider : SchemaProvider Noted) (asked : List String),
        (resolveFieldNames provider detection text).run.run asked =
          (.ok (fieldNames text), asked)) ∧
    (detection.fires text (ParseResult.ofText text).script = true →
      ∀ (answer : List String → String → Except Failure (List String)) (asked : List String),
        Outcome answer asked (tableNames text)
          ((resolveFieldNames (recalling answer) detection text).run.run asked)) ∧
    (∀ provider : SchemaProvider Noted,
      resolveFieldNames provider.pointer detection text =
        resolveFieldNames provider detection text ∧
      resolveFieldNamesByDefault provider text = resolveFieldNames provider .textual text) ∧
    ∀ (answer : List String → String → Except Failure (List String)) (asked names : List String),
      Outcome answer asked names (((recalling answer).columnsOfAll names).run.run asked) := by
  refine ⟨fun quiet provider asked => ?_, fun fires answer asked => ?_,
    fun provider => ⟨rfl, rfl⟩, fun answer => inTurn_outcome⟩
  · rw [resolveFieldNames, if_neg (by simp [quiet])]
    exact Noted.run_pure _ asked
  · rw [resolveFieldNames, if_pos fires]
    exact inTurn_outcome asked (tableNames text)

/-- The second of three tables fails, and the third one is not asked for. -/
theorem resolveFieldNames_outcome_failing :
    let answer : List String → String → Except Failure (List String) := fun _ table =>
      if table = "B" then .error (.lookupFailed table "connection lost") else .ok [table ++ "ID"]
    let starred := "SELECT * FROM A, B, A"
    let plain := "SELECT c FROM B WHERE d = '*'"
    tableNames starred = ["A", "B", "A"] ∧ fieldNames plain = ["c", "d"] ∧
      Outcome answer [] ["A", "B", "A"]
        ((resolveFieldNames (recalling answer) .structural starred).run.run []) ∧
      (resolveFieldNames (recalling answer) .structural starred).run.run [] =
        (.error (.lookupFailed "B" "connection lost"), ["A", "B"]) ∧
      (resolveFieldNames (recalling answer) .structural plain).run.run [] =
        (.ok ["c", "d"], []) := by
  intro answer starred plain
  have tables : tableNames starred = ["A", "B", "A"] := by decide +kernel
  have fields : fieldNames plain = ["c", "d"] := by decide +kernel
  have fires : WildcardDetection.fires .structural starred (ParseResult.ofText starred).script =
      true := by decide +kernel
  have quiet : WildcardDetection.fires .structural plain (ParseResult.ofText plain).script =
      false := by decide +kernel
  have asked := (resolveFieldNames_outcome .structural starred).2.1 fires answer []
  have silent := (resolveFieldNames_outcome .structural plain).1 quiet (recalling answer) []
  rw [tables] at asked
  rw [fields] at silent
  refine ⟨tables, fields, asked, ?_, silent⟩
  rw [resolveFieldNames, if_pos fires]
  change (inTurn (recalling answer).columns (tableNames starred)).run.run [] = _
  rw [tables]
  rfl

end QueryNames
