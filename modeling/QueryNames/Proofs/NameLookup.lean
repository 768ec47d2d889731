import QueryNames.Schema.Catalog

/-!
Tables looked up by name. Main statement: names that are the same but for the case of their letters,
ASCII or not, find the same columns: those of all tables of the name, in the order of the tables.
-/

namespace QueryNames

namespace Text

theorem sameName_equivalence : Equivalence fun a b => sameName a b = true where
  refl _ := sameName_iff.2 rfl
  symm same := sameName_iff.2 (sameName_iff.1 same).symm
  trans first second := sameName_iff.2 ((sameName_iff.1 first).trans (sameName_iff.1 second))

end Text

namespace Catalog

/-- The tables of a name, in the order in which they were added. -/
def tablesNamed (tables : List CatalogTable) (name : String) : List CatalogTable :=
  tables.filter fun table => Text.lowered table.name = Text.lowered name

theorem columns_eq (catalog : Catalog) (name : String) :
    catalog.columns name = (tablesNamed catalog.tables name).flatMap (·.columns) := by
  have tables : catalog.tables.filter (fun table => Text.sameName table.name name) =
      tablesNamed catalog.tables name := by
    apply List.filter_congr
    intro table _
    rw [Bool.eq_iff_iff, Text.sameName_iff, decide_eq_true_iff]
  rw [columns, tables]

theorem tables_of_add {catalog catalog' : Catalog} {table : CatalogTable}
    (added : catalog.add table = .ok catalog') : catalog'.tables = catalog.tables ++ [table] := by
  unfold add at added
  split at added
  · cases added
  · cases added
    rfl

/-- Tables that are added one after the other stand behind those that are there. -/
theorem tables_of_addAll {catalog catalog' : Catalog} {tables : List CatalogTable}
    (added : tables.foldlM add catalog = .ok catalog') :
    catalog'.tables = catalog.tables ++ tables := by
  induction tables generalizing catalog with
  | nil =>
      cases added
      rw [List.append_nil]
  | cons table tables ih =>
      rw [List.foldlM_cons] at added
      cases first : catalog.add table with
      | error failure =>
          rw [first] at added
          cases added
      | ok between =>
          rw [first] at added
          rw [ih added, tables_of_add first, List.append_assoc, List.singleton_append]

/-- Names are the same if they are so in lower case, and then they find the same columns: those of
all tables of the name, in the order in which the catalog got them. -/
theorem columns_of_sameName :
    (∀ a b, Text.sameName a b = true ↔ Text.lowered a = Text.lowered b) ∧
      (Equivalence fun a b => Text.sameName a b = true) ∧
      ∀ (given tables : List CatalogTable) (catalog : Catalog),
        tables.foldlM add ⟨given⟩ = .ok catalog →
          ∀ m n, Text.sameName m n = true →
            (catalog.provider : SchemaProvider (Except Failure)).columns m =
                catalog.provider.columns n ∧
              (catalog.provider : SchemaProvider (Except Failure)).columns n =
                .ok ((tablesNamed (given ++ tables) n).flatMap (·.columns)) := by
  refine ⟨fun _ _ => Text.sameName_iff, Text.sameName_equivalence, ?_⟩
  intro given tables catalog added m n same
  have answer (name : String) :
      (catalog.provider : SchemaProvider (Except Failure)).columns name =
        .ok ((tablesNamed (given ++ tables) name).flatMap (·.columns)) := by
    change Except.ok (catalog.columns name) = _
    rw [columns_eq, tables_of_addAll added]
  have tables : tablesNamed (given ++ tables) m = tablesNamed (given ++ tables) n := by
    rw [tablesNamed, Text.sameName_iff.1 same]
    rfl
  exact ⟨by rw [answer, answer, tables], answer n⟩

/-- A sign for kelvin is a `k` in lower case. -/
theorem columns_of_sameName_kelvin :
    let given : List CatalogTable := [⟨"dbo", "Kk", ["a"]⟩, ⟨"dbo", "T", ["b"]⟩]
    let tables : List CatalogTable := [⟨"x", "k\u212a", ["c"]⟩]
    ∃ catalog, tables.foldlM add ⟨given⟩ = .ok catalog ∧ Text.sameName "\u212ak" "kk" = true ∧
      (catalog.provider : SchemaProvider (Except Failure)).columns "\u212ak" = .ok ["a", "c"] := by
  intro given tables
  have same : Text.sameName "\u212ak" "kk" = true := by decide +kernel
  have found : (tablesNamed (given ++ tables) "kk").flatMap (·.columns) = ["a", "c"] := by
    decide +kernel
  refine ⟨_, rfl, same, ?_⟩
  obtain ⟨equal, columns⟩ := columns_of_sameName.2.2 given tables _ rfl "\u212ak" "kk" same
  rw [equal, columns, found]

end Catalog

end QueryNames
