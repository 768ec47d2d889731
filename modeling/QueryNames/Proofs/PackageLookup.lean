import QueryNames.Proofs.DescribedCatalog

/-!
Packages that are asked for several tables. Main statement: asking for all of them at once, which
reads the package once, gives what asking for one after the other does, in whatever state the file
of the package is and whatever it is read with.
-/

namespace QueryNames

namespace SchemaProvider

/-- Whoever always fails does so at the first table. -/
theorem inTurn_error {failure : Failure} {columns : String → Except Failure (List String)}
    (fails : ∀ table, columns table = .error failure) {asked : List String}
    (anyone : asked ≠ []) : inTurn columns asked = .error failure := by
  cases asked with
  | nil => exact absurd rfl anyone
  | cons table tables =>
      rw [inTurn, fails]
      rfl

end SchemaProvider

namespace Package

open SchemaProvider

/-- The model can be read, and has these tables. -/
def Holds (package : Package) (files : Files.FileSystem) (readers : Readers)
    (tables : List CatalogTable) : Prop :=
  ∃ text root, package.Stores files readers text ∧
    readers.element? (Encoding.dropMark text) = some root ∧ Model.tables root = tables

/-- The model cannot be read, and what keeps it from being. -/
inductive Unreadable (package : Package) (files : Files.FileSystem) (readers : Readers) :
    Failure → Prop
  | absent (nothing : files package.path = none) :
      Unreadable package files readers (.unreadablePackage package.path)
  | noArchive {file reason} (present : files package.path = some file)
      (broken : readers.zip file = .error reason) :
      Unreadable package files readers (package.notOpened reason)
  | noModel {zip} (opens : package.Opens files readers zip none) :
      Unreadable package files readers (.missingModel package.path)
  | inaccessible {zip entry reason} (opens : package.Opens files readers zip (some entry))
      (content : readers.content zip entry = .error (.inaccessible reason)) :
      Unreadable package files readers (package.modelNotOpened reason)
  | damaged {zip entry} (opens : package.Opens files readers zip (some entry))
      (content : readers.content zip entry = .error .damaged) :
      Unreadable package files readers (.unreadablePackage package.path)
  | noText {zip entry bytes} (opens : package.Opens files readers zip (some entry))
      (content : readers.content zip entry = .ok bytes)
      (undecoded : Encoding.utf8? bytes = none) :
      Unreadable package files readers (.unreadablePackage package.path)
  | malformed {text} (stores : package.Stores files readers text)
      (noElement : readers.element? (Encoding.dropMark text) = none) :
      Unreadable package files readers (.malformedModel package.path)

variable {package : Package} {files : Files.FileSystem} {readers : Readers}

theorem unreadable_or_holds_of_stores {text : String}
    (stores : package.Stores files readers text) :
    (∃ failure, package.Unreadable files readers failure) ∨
      ∃ tables, package.Holds files readers tables := by
  cases parsed : readers.element? (Encoding.dropMark text) with
  | none => exact .inl ⟨_, .malformed stores parsed⟩
  | some root => exact .inr ⟨_, text, root, stores, parsed, rfl⟩

theorem unreadable_or_holds_of_opens {zip : readers.Zip} {entry : readers.Entry}
    (opens : package.Opens files readers zip (some entry)) :
    (∃ failure, package.Unreadable files readers failure) ∨
      ∃ tables, package.Holds files readers tables := by
  cases content : readers.content zip entry with
  | error reason =>
      cases reason with
      | inaccessible reason => exact .inl ⟨_, .inaccessible opens content⟩
      | damaged => exact .inl ⟨_, .damaged opens content⟩
  | ok bytes =>
      cases decoded : Encoding.utf8? bytes with
      | none => exact .inl ⟨_, .noText opens content decoded⟩
      | some text =>
          exact unreadable_or_holds_of_stores ⟨zip, entry, bytes, opens, content, decoded⟩

/-- In whatever state its file is, a package cannot be read or has tables. -/
theorem unreadable_or_holds (package : Package) (files : Files.FileSystem) (readers : Readers) :
    (∃ failure, package.Unreadable files readers failure) ∨
      ∃ tables, package.Holds files readers tables := by
  rcases present : files package.path with _ | file
  · exact .inl ⟨_, .absent present⟩
  cases opened : readers.zip file with
  | error reason => exact .inl ⟨_, .noArchive present opened⟩
  | ok zip =>
      cases found : readers.find? zip "model.xml".toUTF8.toList with
      | none => exact .inl ⟨_, .noModel ⟨⟨file, present, opened⟩, found⟩⟩
      | some entry => exact unreadable_or_holds_of_opens ⟨⟨file, present, opened⟩, found⟩

theorem catalog_of_unreadable {failure : Failure}
    (unreadable : package.Unreadable files readers failure) :
    package.catalog files readers = .error failure := by
  cases unreadable with
  | absent nothing => simp only [catalog, tables, modelText, archive, nothing, bind, Except.bind]
  | @noArchive file reason present broken =>
      have noZip : package.archive files readers = .error (package.notOpened reason) := by
        rw [archive_of_file present, broken]
        rfl
      simp only [catalog, tables, modelText, noZip, bind, Except.bind]
  | noModel opens =>
      simp only [catalog, tables, modelText, archive_of_opens opens, opens.found, require, bind,
        Except.bind]
  | inaccessible opens content | damaged opens content =>
      simp only [catalog, tables, modelText, archive_of_opens opens, opens.found, content, require,
        bind, Except.bind]
  | noText opens content undecoded =>
      simp only [catalog, tables, modelText, archive_of_opens opens, opens.found, content,
        undecoded, require, bind, Except.bind]
  | malformed stores noElement =>
      simp only [catalog, tables, modelText_of_stores stores, noElement, require, bind,
        Except.bind]

theorem catalog_of_holds {tables : List CatalogTable}
    (holds : package.Holds files readers tables) :
    package.catalog files readers = .ok ⟨tables⟩ := by
  obtain ⟨text, root, stores, parsed, rfl⟩ := holds
  rw [catalog, tables_of_read (modelText_of_stores stores) parsed]
  rfl

/-- A package that cannot be read gives its failure, however it is asked. -/
theorem lookup_of_unreadable {failure : Failure}
    (unreadable : package.Unreadable files readers failure) :
    (∀ table, (package.provider files readers).columns table = .error failure) ∧
      ∀ asked, (package.provider files readers).columnsOfAll asked = .error failure := by
  have fails := catalog_of_unreadable unreadable
  simp only [provider, fails, bind, Except.bind, implies_true, and_self]

theorem lookup_of_holds {tables : List CatalogTable}
    (holds : package.Holds files readers tables) (asked : List String) :
    (package.provider files readers).columnsOfAll asked =
        .ok (asked.flatMap (Catalog.mk tables).columns) ∧
      inTurn (package.provider files readers).columns asked =
        .ok (asked.flatMap (Catalog.mk tables).columns) := by
  have read := catalog_of_holds holds
  simp only [provider, read, bind, Except.bind]
  exact ⟨inTurn_ok _ asked, inTurn_ok _ asked⟩

/-- In whatever state its file is, and whatever it is read with, a package that is asked for tables
answers as if it were asked for one after the other. If it cannot be read there is no list, and if
it can the answer is the same also for no tables at all. -/
theorem columnsOfAll_eq_inTurn (package : Package) (files : Files.FileSystem)
    (readers : Readers) :
    (∀ asked, asked ≠ [] → (package.provider files readers).columnsOfAll asked =
      inTurn (package.provider files readers).columns asked) ∧
    ((∃ failure, package.Unreadable files readers failure ∧
        (∀ table, (package.provider files readers).columns table = .error failure) ∧
        ∀ asked, (package.provider files readers).columnsOfAll asked = .error failure) ∨
      ∃ tables, package.Holds files readers tables ∧
        ∀ asked, (package.provider files readers).columnsOfAll asked =
            .ok (asked.flatMap (Catalog.mk tables).columns) ∧
          inTurn (package.provider files readers).columns asked =
            .ok (asked.flatMap (Catalog.mk tables).columns)) := by
  rcases unreadable_or_holds package files readers with ⟨failure, unreadable⟩ | ⟨tables, holds⟩
  · obtain ⟨alone, together⟩ := lookup_of_unreadable unreadable
    refine ⟨fun asked anyone => ?_, .inl ⟨failure, unreadable, alone, together⟩⟩
    rw [together, inTurn_error alone anyone]
  · refine ⟨fun asked _ => ?_, .inr ⟨tables, holds, lookup_of_holds holds⟩⟩
    rw [(lookup_of_holds holds asked).1, (lookup_of_holds holds asked).2]

/-- A table that is asked for twice, and one that the package does not have. -/
theorem columnsOfAll_eq_inTurn_view :
    let view := provider ⟨"p"⟩ fun _ => some viewFile
    view.columnsOfAll ["A].", "B", "a]."] = inTurn view.columns ["A].", "B", "a]."] ∧
      inTurn view.columns ["A].", "B", "a]."] = .ok ["c", "c"] := by
  intro provider
  have same := (columnsOfAll_eq_inTurn ⟨"p"⟩ (fun _ => some viewFile) .standard).1
    ["A].", "B", "a]."] (List.cons_ne_nil _ _)
  have tables := tables_of_read modelText_view element?_viewModel
  rw [Model.tables_of_describes (by decide) describes_viewRoot] at tables
  refine ⟨same, same.symm.trans ?_⟩
  have columns : ["A].", "B", "a]."].flatMap (Catalog.mk [view]).columns = ["c", "c"] := by
    decide +kernel
  rw [provider_of_tables tables, ← columns]
  exact inTurn_ok (Catalog.mk [view]).columns ["A].", "B", "a]."]

end Package

end QueryNames
