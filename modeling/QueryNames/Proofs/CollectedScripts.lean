import QueryNames.Proofs.Mark
import QueryNames.Proofs.PrunedVisits

/-!
Visitors that are shown one script after the other. Main statement: what they hold then is what
fresh ones would have found in each of the scripts, put together, and a wildcard is noted if any of
the scripts has one, however deep.
-/

namespace QueryNames

def SelectItem.isWildcard : SelectItem → Bool
  | .wildcard _ => true
  | .qualifiedWildcard _ => true
  | .expression _ _ => false

namespace Node

theorem stars_marks (node : Node) :
    Mark.stars node.marks ↔ ∃ item, node = .item item ∧ item.isWildcard := by
  cases node with
  | item item => cases item <;> simp [marks, Mark.stars, SelectItem.isWildcard]
  | column column =>
      rcases column with ⟨_ | name, kind, location⟩
      · simp [marks, Mark.stars]
      · simp [marks]
  | _ => simp [marks, Mark.stars]

end Node

namespace Script

theorem events_everywhere (script : Script) :
    script.events (fun _ => false) = script.outline.nodes := by
  have added (nodes events : List Node) :
      nodes.foldl (fun events node => events ++ [node]) events = events ++ nodes := by
    induction nodes generalizing events with
    | nil => simp
    | cons node nodes ih => simp [ih]
  exact (Outline.visit_everywhere (fun node events => events ++ [node]) script.outline []).trans
    (added script.outline.nodes [])

theorem mem_nodes {script : Script} {node : Node} :
    node ∈ script.outline.nodes ↔ ∃ address, script.at? address = some node := by
  have listed : some node ∈ script.outline.nodes.map some ↔
      some node ∈ (Node.script script).addresses.map script.at? := by
    rw [← events_everywhere, events_eq, Node.visited_everywhere]
  simp only [List.mem_map, Option.some.injEq, exists_eq_right] at listed
  rw [listed]
  constructor
  · rintro ⟨address, -, leads⟩
    exact ⟨address, leads⟩
  · rintro ⟨address, leads⟩
    refine ⟨address, Node.mem_addresses.2 ?_, leads⟩
    exact Option.isSome_iff_exists.2 ⟨node, leads⟩

/-- Whether a select list asks for all columns of something, at whatever address. -/
def HasWildcard (script : Script) : Prop :=
  ∃ address item, script.at? address = some (.item item) ∧ item.isWildcard

theorem selectsWildcard_iff (script : Script) : script.selectsWildcard ↔ script.HasWildcard := by
  rw [selectsWildcard_eq_marks, ← marks_outline, Outline.marks, Mark.stars_flatMap,
    List.any_eq_true]
  constructor
  · rintro ⟨node, among, stars⟩
    obtain ⟨item, rfl, isWildcard⟩ := node.stars_marks.1 stars
    obtain ⟨address, leads⟩ := mem_nodes.1 among
    exact ⟨address, item, leads, isWildcard⟩
  · rintro ⟨address, item, leads, isWildcard⟩
    exact ⟨.item item, mem_nodes.2 ⟨address, leads⟩, (Node.stars_marks _).2 ⟨item, rfl, isWildcard⟩⟩

end Script

/-- What three visitors hold that are shown scripts and never reset. -/
structure Collection where
  tables : List String := []
  fields : List String := []
  wildcard : Bool := false

namespace Collection

def add (held : Collection) (script : Script) : Collection where
  tables := script.outline.visit .tableNames held.tables
  fields := script.outline.visit .fieldNames held.fields
  wildcard := script.outline.visit .wildcard held.wildcard

/-- What is held after each script. -/
def run (held : Collection) : List Script → List Collection
  | [] => []
  | script :: scripts => held.add script :: (held.add script).run scripts

/-- What is held, and what fresh visitors find in each of some scripts. -/
def joined (held : Collection) (scripts : List Script) : Collection where
  tables := held.tables ++ scripts.flatMap Script.tableNames
  fields := held.fields ++ scripts.flatMap Script.fieldNames
  wildcard := held.wildcard || scripts.any Script.selectsWildcard

theorem joined_joined (held : Collection) (a b : List Script) :
    (held.joined a).joined b = held.joined (a ++ b) := by
  simp [joined, Bool.or_assoc]

/-- A script adds what fresh visitors find in it. -/
theorem add_eq (held : Collection) (script : Script) : held.add script = held.joined [script] := by
  simp only [add, joined, Outline.visit_tableNames, Outline.visit_fieldNames,
    Outline.visit_wildcard, Script.tableNames_eq, Script.fieldNames_eq,
    Script.selectsWildcard_eq_marks, Script.marks_outline, List.flatMap_singleton,
    List.any_cons, List.any_nil, Bool.or_false]

theorem run_getElem? (held : Collection) {scripts : List Script} {k : Nat}
    (shown : k < scripts.length) :
    (held.run scripts)[k]? = some (held.joined (scripts.take (k + 1))) := by
  induction scripts generalizing held k with
  | nil => exact absurd shown (Nat.not_lt_zero k)
  | cons script scripts ih =>
      rw [run, add_eq]
      cases k with
      | zero => rfl
      | succ k =>
          rw [List.getElem?_cons_succ, ih _ (Nat.lt_of_succ_lt_succ shown), joined_joined]
          rfl

end Collection

/-- After each of the scripts the names are those of the scripts so far, one script after the other,
and a wildcard is noted exactly if one of them has one, at whatever address. -/
theorem collected_scripts (scripts : List Script) (k : Nat) (shown : k < scripts.length) :
    ∃ held : Collection, (({} : Collection).run scripts)[k]? = some held ∧
      held.tables = (scripts.take (k + 1)).flatMap Script.tableNames ∧
      held.fields = (scripts.take (k + 1)).flatMap Script.fieldNames ∧
      (held.wildcard ↔ ∃ script ∈ scripts.take (k + 1), script.HasWildcard) := by
  refine ⟨_, Collection.run_getElem? {} shown, rfl, rfl, ?_⟩
  simp only [Collection.joined, Bool.false_or, List.any_eq_true, Script.selectsWildcard_iff]

/-- The wildcard of a derived table, noted for good. -/
theorem collected_scripts_derived :
    let scripts :=
      ["SELECT a FROM A", "SELECT b FROM (SELECT T.* FROM T) d", "SELECT A.c FROM A"].map
        fun text => (ParseResult.ofText text).script
    ∃ held : Collection, (({} : Collection).run scripts)[2]? = some held ∧
      held.tables = ["A", "T", "A"] ∧ held.fields = ["a", "b", "T", "A", "c"] ∧ held.wildcard := by
  intro scripts
  obtain ⟨held, after, tables, fields, wildcard⟩ := collected_scripts scripts 2 (by decide)
  refine ⟨held, after, ?_, ?_, wildcard.2 ?_⟩
  · rw [tables]
    decide +kernel
  · rw [fields]
    decide +kernel
  · refine ⟨_, List.mem_cons_of_mem _ List.mem_cons_self, (Script.selectsWildcard_iff _).1 ?_⟩
    decide +kernel

end QueryNames
