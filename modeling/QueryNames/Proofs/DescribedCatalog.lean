import QueryNames.Proofs.Text.DottedName
import QueryNames.Resolution
import QueryNames.Schema.Package

/-!
Models that describe a catalog. Main statement: a package whose model describes a list of tables
answers as the catalog of these tables does, whatever else the model holds.
-/

namespace QueryNames

/-- A row of items among which one stands for each value, in order; the others are foreign. -/
inductive Interleaved (foreign : α → Prop) (stands : β → α → Prop) : List β → List α → Prop
  | nil : Interleaved foreign stands [] []
  | foreign {a bs as} : foreign a → Interleaved foreign stands bs as →
      Interleaved foreign stands bs (a :: as)
  | own {b a bs as} : stands b a → Interleaved foreign stands bs as →
      Interleaved foreign stands (b :: bs) (a :: as)

/-- What tells the value of each item that stands for one, and nothing of a foreign item, finds
exactly the values. -/
theorem Interleaved.filterMap_eq {foreign : α → Prop} {stands : β → α → Prop} {bs : List β}
    {as : List α} {value? : α → Option β} (interleaved : Interleaved foreign stands bs as)
    (none : ∀ a, foreign a → value? a = none)
    (some : ∀ b ∈ bs, ∀ a, stands b a → value? a = some b) : as.filterMap value? = bs := by
  induction interleaved with
  | nil => rfl
  | foreign isForeign _ ih => rw [List.filterMap_cons_none (none _ isForeign), ih some]
  | own isOwn _ ih =>
      obtain ⟨first, others⟩ := List.forall_mem_cons.mp some
      rw [List.filterMap_cons_some (first _ isOwn), ih others]

namespace Model

open Xml

/-- The name of an object: that of its schema, its own and maybe that of its column, each in
brackets. -/
def fullName (parts : List String) : String := dottedName (parts.map (Quote.bracket, ·))

/-- An entry that tells a column by its full name: the column is described in it, or else referred
to. -/
inductive ColumnEntry (parts : List String) (entry : Element) : Prop
  | described (column : Element)
      (first : entry.children.find? (isNamed "Element") = some column)
      (name : column.attribute? "Name" = some (fullName parts))
  | referred (column : Element)
      (noElement : ∀ child ∈ entry.children, isNamed "Element" child = false)
      (first : entry.children.find? (isNamed "References") = some column)
      (name : column.attribute? "Name" = some (fullName parts))

/-- The relationship in which the columns of an object stand. -/
def isColumns (child : Element) : Bool :=
  isNamed "Relationship" child && child.attribute? "Name" == some "Columns"

/-- An element that describes a table or a view. -/
structure TableObject (table : CatalogTable) (object : Element) : Prop where
  isElement : isNamed "Element" object
  type : object.attribute? "Type" = some "SqlTable" ∨ object.attribute? "Type" = some "SqlView"
  name : object.attribute? "Name" = some (fullName [table.schema, table.name])
  columns : ∃ relationship, object.children.find? isColumns = some relationship ∧
    Interleaved (fun child => isNamed "Entry" child = false)
      (fun column child => isNamed "Entry" child = true ∧
        ColumnEntry [table.schema, table.name, column] child)
      table.columns relationship.children

/-- Neither a table nor a view. -/
def Foreign (child : Element) : Prop :=
  isNamed "Element" child = false ∨
    child.attribute? "Type" ≠ some "SqlTable" ∧ child.attribute? "Type" ≠ some "SqlView"

/-- A model that describes tables and views in order, among anything else. -/
def Describes (tables : List CatalogTable) (root : Element) : Prop :=
  ∃ model, root.children.find? (isNamed "Model") = some model ∧
    Interleaved Foreign TableObject tables model.children

theorem dottedParts_fullName {parts : List String} (nonempty : parts ≠ []) :
    dottedParts (fullName parts) = parts := by
  rw [fullName, dottedParts_dottedName (by simpa using nonempty) (by simp), List.map_map]
  exact List.map_id parts

theorem child?_eq_find? (name : String) (element : Element) :
    child? name element = element.children.find? (isNamed name) :=
  List.head?_filter ..

theorem column?_of_entry {parts : List String} {entry : Element} (nonempty : parts ≠ [])
    (tells : ColumnEntry parts entry) : column? entry = parts.getLast? := by
  cases tells with
  | described column first name =>
      simp [column?, child?_eq_find?, first, name, dottedParts_fullName nonempty]
  | referred column noElement first name =>
      have noElement : entry.children.find? (isNamed "Element") = none := by
        simpa using noElement
      simp [column?, child?_eq_find?, noElement, first, name, dottedParts_fullName nonempty]

theorem columns_of_object {table : CatalogTable} {object : Element}
    (describes : TableObject table object) : columns object = table.columns := by
  obtain ⟨relationship, first, entries⟩ := describes.columns
  have found : (children "Relationship" object).find? (·.attribute? "Name" == some "Columns") =
      some relationship := by
    rw [children, List.find?_filter, ← first]
    congr
    funext child
    rw [Bool.eq_iff_iff]
    simp [isColumns]
  rw [columns, found]
  simp only [children, List.filterMap_filter]
  apply entries.filterMap_eq
  · intro child notEntry
    rw [notEntry]
    rfl
  · rintro column - child ⟨isEntry, tells⟩
    rw [if_pos isEntry, column?_of_entry (List.cons_ne_nil _ _) tells]
    rfl

theorem table?_of_object {table : CatalogTable} {object : Element} (named : table.name ≠ "")
    (describes : TableObject table object) : table? object = some table := by
  have parts : dottedParts (fullName [table.schema, table.name]) = [table.schema, table.name] :=
    dottedParts_fullName (List.cons_ne_nil _ _)
  have kept : guard (table.name ≠ "") = some () := if_pos named
  rw [table?, describes.name]
  dsimp only [Option.bind_eq_bind, Option.bind_some]
  rw [parts, columns_of_object describes]
  change Option.bind (guard (table.name ≠ "")) _ = _
  rw [kept]
  rfl

theorem ownsColumns_iff (object : Element) : ownsColumns object = true ↔
    object.attribute? "Type" = some "SqlTable" ∨ object.attribute? "Type" = some "SqlView" := by
  rw [ownsColumns]
  cases object.attribute? "Type" <;> simp [columnOwners]

/-- The tables of a model are the ones that it describes. -/
theorem tables_of_describes {tables : List CatalogTable} {root : Element}
    (named : ∀ table ∈ tables, table.name ≠ "") (describes : Describes tables root) :
    Model.tables root = tables := by
  obtain ⟨model, first, objects⟩ := describes
  rw [Model.tables, child?_eq_find?, first]
  simp only [children, List.filterMap_filter]
  apply objects.filterMap_eq
  · intro child isForeign
    obtain notElement | notOwner := isForeign
    · simp [notElement]
    · have notOwner : ownsColumns child = false := by
        rw [← Bool.not_eq_true, ownsColumns_iff, not_or]
        exact notOwner
      simp [notOwner]
  · intro table isTable object isObject
    have owns := (ownsColumns_iff object).mpr isObject.type
    rw [if_pos isObject.isElement, if_pos owns, table?_of_object (named table isTable) isObject]

end Model

/-! Texts by their characters. -/

/-- What is read of a document up to its end. -/
def Xml.Progress.root? : Progress → Option Element
  | .behindRoot root => some root
  | _ => none

theorem Xml.Element.ofText?_of_chars {text : String} {chars : List Char} {root : Element}
    (same : text.toList = chars)
    (read : ((Reading.front chars).bind fun found => (Reading.fold (fun progress c =>
      Reading.markup c >>= fun markup => .ofOption (Progress.add progress markup)) .beforeRoot
        found.2.chars).bind Progress.root?) = some root) : ofText? text = some root := by
  subst same
  exact read

namespace Package

/-- The file of the package is an archive, in which the model has an entry or none. -/
structure Opens (package : Package) (files : Files.FileSystem) (readers : Readers)
    (zip : readers.Zip) (model? : Option readers.Entry) : Prop where
  isArchive : ∃ file, files package.path = some file ∧ readers.zip file = .ok zip
  found : readers.find? zip "model.xml".toUTF8.toList = model?

/-- The model can be read as a text. -/
def Stores (package : Package) (files : Files.FileSystem) (readers : Readers) (text : String) :
    Prop :=
  ∃ zip entry content, package.Opens files readers zip (some entry) ∧
    readers.content zip entry = .ok content ∧ Encoding.utf8? content = some text

variable {package : Package} {files : Files.FileSystem} {readers : Readers} {text : String}
  {root : Xml.Element}

theorem archive_of_file {file : Files.Entry} (present : files package.path = some file) :
    package.archive files readers = (readers.zip file).mapError package.notOpened := by
  simp only [archive, present]

theorem archive_of_opens {zip : readers.Zip} {model? : Option readers.Entry}
    (opens : package.Opens files readers zip model?) : package.archive files readers = .ok zip := by
  obtain ⟨file, present, opened⟩ := opens.isArchive
  rw [archive_of_file present, opened]
  rfl

theorem modelText_of_stores {text : String} (stores : package.Stores files readers text) :
    package.modelText files readers = .ok text := by
  obtain ⟨zip, entry, bytes, opens, content, decoded⟩ := stores
  simp only [modelText, archive_of_opens opens, opens.found, content, decoded, require, bind,
    Except.bind]

/-- The model is the text whose bytes are the content of its entry. -/
theorem modelText_of_content {content : List UInt8}
    (isFile : files package.path = some (.file content))
    (stored : ((Archive.Zip.open? content).bind fun zip =>
      (zip.find? "model.xml".toUTF8.toList).bind fun entry => (zip.content entry).toOption) =
        some text.toUTF8.toList) : package.modelText files = .ok text := by
  obtain ⟨zip, opened, stored⟩ := Option.bind_eq_some_iff.1 stored
  obtain ⟨entry, found, stored⟩ := Option.bind_eq_some_iff.1 stored
  have opened : Readers.standard.zip (.file content) = .ok zip := by
    simp only [Readers.standard, opened, Option.elim]
  have read : zip.content entry = .ok text.toUTF8.toList := by
    cases read : zip.content entry with
    | error => simp [read, Except.toOption] at stored
    | ok bytes => simpa [read, Except.toOption] using stored
  apply modelText_of_stores
  exact ⟨zip, entry, _, ⟨⟨_, isFile, opened⟩, found⟩, read, Encoding.utf8?_toUTF8 text⟩

theorem tables_of_read (read : package.modelText files readers = .ok text)
    (parsed : readers.element? (Encoding.dropMark text) = some root) :
    package.tables files readers = .ok (Model.tables root) := by
  rw [tables, read]
  simp only [bind, Except.bind, parsed]
  rfl

theorem provider_of_tables {tables : List CatalogTable}
    (holds : package.tables files readers = .ok tables) :
    package.provider files readers = (Catalog.mk tables).provider := by
  simp only [provider, catalog, holds]
  rfl

/-- A package answers as the catalog of the tables that its model describes, whatever archives and
documents are read with. -/
theorem answers_as_catalog {tables : List CatalogTable}
    (named : ∀ table ∈ tables, table.name ≠ "") (describes : Model.Describes tables root)
    (read : package.modelText files readers = .ok text)
    (parsed : readers.element? (Encoding.dropMark text) = some root) :
    package.tables files readers = .ok tables ∧
      (∀ table, (package.provider files readers).columns table =
        (Catalog.mk tables).provider.columns table) ∧
      (∀ asked, (package.provider files readers).columnsOfAll asked =
        (Catalog.mk tables).provider.columnsOfAll asked) ∧
      ∀ detection query, resolveFieldNames (package.provider files readers) detection query =
        resolveFieldNames (Catalog.mk tables).provider detection query := by
  have holds := tables_of_read read parsed
  rw [Model.tables_of_describes named describes] at holds
  have same := provider_of_tables holds
  exact ⟨holds, fun _ => by rw [same], fun _ => by rw [same], fun _ _ => by rw [same]⟩

/-! A package with one view, whose name has a bracket and a period in it. -/

def viewModel : String :=
  "<D xmlns=\"http://schemas.microsoft.com/sqlserver/dac/Serialization/2012/02\"><Model><X/>" ++
  "<Element Type=\"SqlView\" Name=\"[s].[a]].]\"><Relationship Name=\"Columns\"><Entry>" ++
  "<References Name=\"[s].[a]].].[c]\"/></Entry></Relationship></Element></Model></D>"

def viewFile : Files.Entry :=
  .file (Archive.Zip.pack [("model.xml".toUTF8.toList, viewModel.toUTF8.toList)])

/-- An element of a model with attributes that stand in no namespace. -/
def viewElement (name : String) (attributes : List (String × String))
    (children : List Xml.Element) : Xml.Element :=
  ⟨⟨some Model.space, name⟩, attributes.map fun (key, value) => (⟨none, key⟩, value), children⟩

def viewObject : Xml.Element :=
  viewElement "Element" [("Type", "SqlView"), ("Name", "[s].[a]].]")]
    [viewElement "Relationship" [("Name", "Columns")]
      [viewElement "Entry" [] [viewElement "References" [("Name", "[s].[a]].].[c]")] []]]]

def viewRoot : Xml.Element :=
  viewElement "D" [] [viewElement "Model" [] [viewElement "X" [] [], viewObject]]

def view : CatalogTable := ⟨"s", "a].", ["c"]⟩

/-- Three literals with their characters side by side. -/
theorem toList_ofList_append (a b c : List Char) :
    (String.ofList a ++ String.ofList b ++ String.ofList c).toList = a ++ b ++ c := by
  rw [String.toList_append, String.toList_append, String.toList_ofList, String.toList_ofList,
    String.toList_ofList]

section

set_option maxRecDepth 20000

theorem modelText_view : (modelText ⟨"p"⟩ fun _ => some viewFile) = .ok viewModel := by
  -- to decide on characters is far less than to decide on what encodes them
  have chars : viewModel.toList = _ := toList_ofList_append _ _ _
  apply modelText_of_content rfl
  rw [Encoding.toList_toUTF8, Encoding.toList_toUTF8, chars, String.toList_ofList]
  decide +kernel

theorem element?_viewModel :
    Readers.standard.element? (Encoding.dropMark viewModel) = some viewRoot := by
  have chars : viewModel.toList = _ := toList_ofList_append _ _ _
  rw [Encoding.dropMark_of_chars chars (by decide)]
  apply Xml.Element.ofText?_of_chars chars
  decide +kernel

end

theorem describes_viewRoot : Model.Describes [view] viewRoot := by
  have column : Model.ColumnEntry ["s", "a].", "c"]
      (viewElement "Entry" [] [viewElement "References" [("Name", "[s].[a]].].[c]")] []]) :=
    .referred _ (by decide) rfl (by decide)
  have object : Model.TableObject view viewObject :=
    ⟨by decide, .inr (by decide), by decide, _, rfl, .own ⟨by decide, column⟩ .nil⟩
  exact ⟨_, rfl, .foreign (.inl (by decide)) (.own object .nil)⟩

theorem answers_as_catalog_view :
    (tables ⟨"p"⟩ fun _ => some viewFile) = .ok [view] ∧
      (provider ⟨"p"⟩ fun _ => some viewFile).columns "A]." = .ok ["c"] := by
  obtain ⟨found, columns, -⟩ :=
    answers_as_catalog (by decide) describes_viewRoot modelText_view element?_viewModel
  exact ⟨found, columns _⟩

end Package

end QueryNames
