import QueryNames.Grammar.Parser
import QueryNames.Tree

/-!
Renditions of a query text: the same tokens at other places, with letters in another case, and what
becomes of all that is read from them. Nothing but texts and places changes.
-/

namespace QueryNames

/-- Another case for some letters, and another place for each place. -/
structure Rendition where
  letter : Char → Char
  place : Location → Location
  toLower_letter : ∀ c, (letter c).toLower = c.toLower

class Renderable (α : Type) where
  render : Rendition → α → α

export Renderable (render)

section Values

variable [Renderable α] [Renderable β]

instance : Renderable Bool := ⟨fun _ b => b⟩

instance : Renderable Unit := ⟨fun _ u => u⟩

instance : Renderable Char := ⟨fun f c => f.letter c⟩

instance : Renderable Location := ⟨fun f place => f.place place⟩

instance : Renderable String := ⟨fun f text => text.map f.letter⟩

instance : Renderable (α × β) := ⟨fun f pair => (render f pair.1, render f pair.2)⟩

instance : Renderable (Option α) where
  render f
    | none => none
    | some a => some (render f a)

instance : Renderable (List α) := ⟨fun f as => as.map (render f)⟩

variable (f : Rendition)

@[simp] theorem render_none : render f (none : Option α) = none := rfl

@[simp] theorem render_some (a : α) : render f (some a) = some (render f a) := rfl

@[simp] theorem render_nil : render f ([] : List α) = [] := rfl

@[simp] theorem render_cons (a : α) (as : List α) :
    render f (a :: as) = render f a :: render f as := rfl

theorem render_list (as : List α) : render f as = as.map (render f) := rfl

@[simp] theorem render_append (as bs : List α) :
    render f (as ++ bs) = render f as ++ render f bs := List.map_append

@[simp] theorem render_pair (a : α) (b : β) : render f (a, b) = (render f a, render f b) := rfl

@[simp] theorem render_fst (pair : α × β) : (render f pair).1 = render f pair.1 := rfl

@[simp] theorem render_snd (pair : α × β) : (render f pair).2 = render f pair.2 := rfl

@[simp] theorem render_bool (b : Bool) : render f b = b := rfl

@[simp] theorem isSome_render (a? : Option α) : (render f a?).isSome = a?.isSome := by
  cases a? <;> rfl

@[simp] theorem isNone_render (a? : Option α) : (render f a?).isNone = a?.isNone := by
  cases a? <;> rfl

@[simp] theorem isEmpty_render (as : List α) : (render f as).isEmpty = as.isEmpty :=
  List.isEmpty_map

@[simp] theorem getD_render (as? : Option (List α)) :
    (render f as?).getD [] = render f (as?.getD []) := by
  cases as? <;> rfl

end Values

instance : Renderable Token := ⟨fun f t => ⟨t.kind, render f t.text, f.place t.location⟩⟩

instance : Renderable Identifier :=
  ⟨fun f name => ⟨render f name.value, name.quote, f.place name.location⟩⟩

instance : Renderable QualifiedName := ⟨fun f name => ⟨render f name.first, render f name.others⟩⟩

instance : Renderable Column :=
  ⟨fun f column => ⟨render f column.name, column.kind, f.place column.location⟩⟩

instance : Renderable NamedTable := ⟨fun f table => ⟨render f table.name, render f table.label⟩⟩

instance : Renderable JoinKind := ⟨fun _ kind => kind⟩

instance : Renderable SetOperator := ⟨fun _ op => op⟩

instance : Renderable UnaryOperator := ⟨fun _ op => op⟩

instance : Renderable BinaryOperator := ⟨fun _ op => op⟩

instance : Renderable Literal where
  render f
    | .string value => .string (render f value)
    | .number text => .number (render f text)
    | .null => .null

mutual

def Expression.render (f : Rendition) : Expression → Expression
  | .column column => .column (Renderable.render f column)
  | .literal value => .literal (Renderable.render f value)
  | .variable name => .variable (Renderable.render f name)
  | .niladic name => .niladic (Renderable.render f name)
  | .unary op operand => .unary op (operand.render f)
  | .binary op left right => .binary op (left.render f) (right.render f)
  | .function name arguments distinct window =>
      .function (Renderable.render f name) (Expression.renderAll f arguments) distinct
        (Window.render? f window)
  | .case operand branches otherwise =>
      .case (Expression.render? f operand) (WhenBranch.renderAll f branches)
        (Expression.render? f otherwise)
  | .cast operand type style =>
      .cast (operand.render f) (Renderable.render f type) (Expression.render? f style)
  | .subquery query => .subquery (query.render f)
  | .exists query => .exists (query.render f)
  | .inList operand list negated =>
      .inList (operand.render f) (Expression.renderAll f list) negated
  | .inSubquery operand query negated => .inSubquery (operand.render f) (query.render f) negated
  | .between operand low high negated =>
      .between (operand.render f) (low.render f) (high.render f) negated
  | .like operand pattern escape negated =>
      .like (operand.render f) (pattern.render f) (Expression.render? f escape) negated
  | .isNull operand negated => .isNull (operand.render f) negated
  | .nested inner => .nested (inner.render f)

def Expression.renderAll (f : Rendition) : List Expression → List Expression
  | [] => []
  | e :: es => e.render f :: Expression.renderAll f es

def Expression.render? (f : Rendition) : Option Expression → Option Expression
  | none => none
  | some e => some (e.render f)

def WhenBranch.render (f : Rendition) : WhenBranch → WhenBranch
  | ⟨condition, result⟩ => ⟨condition.render f, result.render f⟩

def WhenBranch.renderAll (f : Rendition) : List WhenBranch → List WhenBranch
  | [] => []
  | branch :: branches => branch.render f :: WhenBranch.renderAll f branches

def OrderItem.render (f : Rendition) : OrderItem → OrderItem
  | ⟨e, ascending⟩ => ⟨e.render f, ascending⟩

def OrderItem.renderAll (f : Rendition) : List OrderItem → List OrderItem
  | [] => []
  | item :: items => item.render f :: OrderItem.renderAll f items

def Window.render (f : Rendition) : Window → Window
  | ⟨partitionBy, orderBy⟩ =>
      ⟨Expression.renderAll f partitionBy, OrderItem.renderAll f orderBy⟩

def Window.render? (f : Rendition) : Option Window → Option Window
  | none => none
  | some window => some (window.render f)

def TableSource.render (f : Rendition) : TableSource → TableSource
  | .named table => .named (Renderable.render f table)
  | .joined left right kind condition =>
      .joined (left.render f) (right.render f) kind (Expression.render? f condition)
  | .derived query label columns =>
      .derived (query.render f) (Renderable.render f label) (Renderable.render f columns)
  | .function name arguments label =>
      .function (Renderable.render f name) (Expression.renderAll f arguments)
        (Renderable.render f label)
  | .variable name label => .variable (Renderable.render f name) (Renderable.render f label)
  | .parenthesized inner => .parenthesized (inner.render f)

def TableSource.renderAll (f : Rendition) : List TableSource → List TableSource
  | [] => []
  | source :: sources => source.render f :: TableSource.renderAll f sources

def SelectItem.render (f : Rendition) : SelectItem → SelectItem
  | .wildcard location => .wildcard (f.place location)
  | .qualifiedWildcard column => .qualifiedWildcard (Renderable.render f column)
  | .expression e label => .expression (e.render f) (Renderable.render f label)

def SelectItem.renderAll (f : Rendition) : List SelectItem → List SelectItem
  | [] => []
  | item :: items => item.render f :: SelectItem.renderAll f items

def Top.render (f : Rendition) : Top → Top
  | ⟨quantity, percent, withTies⟩ => ⟨quantity.render f, percent, withTies⟩

def Top.render? (f : Rendition) : Option Top → Option Top
  | none => none
  | some top => some (top.render f)

def CommonTable.render (f : Rendition) : CommonTable → CommonTable
  | ⟨name, columns, query⟩ =>
      ⟨Renderable.render f name, Renderable.render f columns, query.render f⟩

def CommonTable.renderAll (f : Rendition) : List CommonTable → List CommonTable
  | [] => []
  | table :: tables => table.render f :: CommonTable.renderAll f tables

def SetOperation.render (f : Rendition) : SetOperation → SetOperation
  | ⟨operator, right⟩ => ⟨operator, right.render f⟩

def SetOperation.render? (f : Rendition) : Option SetOperation → Option SetOperation
  | none => none
  | some operation => some (operation.render f)

def Query.render (f : Rendition) : Query → Query
  | ⟨location, commonTables, distinct, top, items, into, sources, condition, groupBy, having,
      orderBy, setOperation⟩ =>
    ⟨f.place location, CommonTable.renderAll f commonTables, distinct, Top.render? f top,
      SelectItem.renderAll f items, Renderable.render f into, TableSource.renderAll f sources,
      Expression.render? f condition, Expression.renderAll f groupBy, Expression.render? f having,
      OrderItem.renderAll f orderBy, SetOperation.render? f setOperation⟩

end

instance : Renderable Expression := ⟨Expression.render⟩

instance : Renderable WhenBranch := ⟨WhenBranch.render⟩

instance : Renderable OrderItem := ⟨OrderItem.render⟩

instance : Renderable Window := ⟨Window.render⟩

instance : Renderable TableSource := ⟨TableSource.render⟩

instance : Renderable SelectItem := ⟨SelectItem.render⟩

instance : Renderable Top := ⟨Top.render⟩

instance : Renderable CommonTable := ⟨CommonTable.render⟩

instance : Renderable SetOperation := ⟨SetOperation.render⟩

instance : Renderable Query := ⟨Query.render⟩

instance : Renderable Script := ⟨fun f script => ⟨render f script.queries⟩⟩

/-! What a reader of tokens works on. -/

instance : Renderable Fault where
  render f
    | .unclosedIdentifier close => .unclosedIdentifier (f.letter close)
    | .strayCharacter c => .strayCharacter (f.letter c)
    | fault => fault

instance : Renderable Complaint where
  render f
    | .missing expected found => .missing expected (render f found)
    | .surplus found expected => .surplus (render f found) expected
    | .unsupportedStatement found => .unsupportedStatement (render f found)
    | .nestingTooDeep => .nestingTooDeep

instance : Renderable Cause where
  render f
    | .lexical fault => .lexical (render f fault)
    | .grammatical complaint => .grammatical (render f complaint)

instance : Renderable Diagnostic := ⟨fun f d => ⟨render f d.cause, f.place d.location⟩⟩

instance : Renderable Grammar.Cursor := ⟨fun f c => ⟨render f c.current, render f c.ahead⟩⟩

instance : Renderable Grammar.State := ⟨fun f s => ⟨render f s.cursor, render f s.reported⟩⟩

/-! Lists and options of trees. -/

variable (f : Rendition)

@[simp] theorem Expression.renderAll_eq (es : List Expression) :
    Expression.renderAll f es = Renderable.render f es := by
  induction es with
  | nil => rfl
  | cons e es ih => exact congrArg (e.render f :: ·) ih

@[simp] theorem Expression.render?_eq (e? : Option Expression) :
    Expression.render? f e? = Renderable.render f e? := by
  cases e? <;> rfl

@[simp] theorem WhenBranch.renderAll_eq (branches : List WhenBranch) :
    WhenBranch.renderAll f branches = Renderable.render f branches := by
  induction branches with
  | nil => rfl
  | cons branch branches ih => exact congrArg (branch.render f :: ·) ih

@[simp] theorem OrderItem.renderAll_eq (items : List OrderItem) :
    OrderItem.renderAll f items = Renderable.render f items := by
  induction items with
  | nil => rfl
  | cons item items ih => exact congrArg (item.render f :: ·) ih

@[simp] theorem Window.render?_eq (window? : Option Window) :
    Window.render? f window? = Renderable.render f window? := by
  cases window? <;> rfl

@[simp] theorem TableSource.renderAll_eq (sources : List TableSource) :
    TableSource.renderAll f sources = Renderable.render f sources := by
  induction sources with
  | nil => rfl
  | cons source sources ih => exact congrArg (source.render f :: ·) ih

@[simp] theorem SelectItem.renderAll_eq (items : List SelectItem) :
    SelectItem.renderAll f items = Renderable.render f items := by
  induction items with
  | nil => rfl
  | cons item items ih => exact congrArg (item.render f :: ·) ih

@[simp] theorem Top.render?_eq (top? : Option Top) :
    Top.render? f top? = Renderable.render f top? := by
  cases top? <;> rfl

@[simp] theorem CommonTable.renderAll_eq (tables : List CommonTable) :
    CommonTable.renderAll f tables = Renderable.render f tables := by
  induction tables with
  | nil => rfl
  | cons table tables ih => exact congrArg (table.render f :: ·) ih

@[simp] theorem SetOperation.render?_eq (operation? : Option SetOperation) :
    SetOperation.render? f operation? = Renderable.render f operation? := by
  cases operation? <;> rfl

/-! Trees that hold lists or options of others. -/

theorem render_function (name : QualifiedName) (arguments : List Expression) (distinct : Bool)
    (window : Option Window) :
    render f (Expression.function name arguments distinct window) =
      .function (render f name) (render f arguments) distinct (render f window) := by
  show Expression.render f _ = _
  rw [Expression.render, Expression.renderAll_eq, Window.render?_eq]

theorem render_case (operand : Option Expression) (branches : List WhenBranch)
    (otherwise : Option Expression) :
    render f (Expression.case operand branches otherwise) =
      .case (render f operand) (render f branches) (render f otherwise) := by
  show Expression.render f _ = _
  rw [Expression.render, Expression.render?_eq, WhenBranch.renderAll_eq, Expression.render?_eq]

theorem render_cast (operand : Expression) (type : String) (style : Option Expression) :
    render f (Expression.cast operand type style) =
      .cast (render f operand) (render f type) (render f style) := by
  show Expression.render f _ = _
  rw [Expression.render, Expression.render?_eq]
  rfl

theorem render_inList (operand : Expression) (list : List Expression) (negated : Bool) :
    render f (Expression.inList operand list negated) =
      .inList (render f operand) (render f list) negated := by
  show Expression.render f _ = _
  rw [Expression.render, Expression.renderAll_eq]
  rfl

theorem render_like (operand pattern : Expression) (escape : Option Expression) (negated : Bool) :
    render f (Expression.like operand pattern escape negated) =
      .like (render f operand) (render f pattern) (render f escape) negated := by
  show Expression.render f _ = _
  rw [Expression.render, Expression.render?_eq]
  rfl

theorem render_window (partitionBy : List Expression) (orderBy : List OrderItem) :
    render f (Window.mk partitionBy orderBy) = ⟨render f partitionBy, render f orderBy⟩ := by
  show Window.render f _ = _
  rw [Window.render, Expression.renderAll_eq, OrderItem.renderAll_eq]

theorem render_joined (left right : TableSource) (kind : JoinKind)
    (condition : Option Expression) :
    render f (TableSource.joined left right kind condition) =
      .joined (render f left) (render f right) kind (render f condition) := by
  show TableSource.render f _ = _
  rw [TableSource.render, Expression.render?_eq]
  rfl

theorem render_tableFunction (name : QualifiedName) (arguments : List Expression)
    (label : Option Identifier) :
    render f (TableSource.function name arguments label) =
      .function (render f name) (render f arguments) (render f label) := by
  show TableSource.render f _ = _
  rw [TableSource.render, Expression.renderAll_eq]

theorem render_query (q : Query) :
    render f q =
      { location := f.place q.location
        commonTables := render f q.commonTables
        distinct := q.distinct
        top := render f q.top
        items := render f q.items
        into := render f q.into
        sources := render f q.sources
        condition := render f q.condition
        groupBy := render f q.groupBy
        having := render f q.having
        orderBy := render f q.orderBy
        setOperation := render f q.setOperation } := by
  obtain ⟨location, commonTables, distinct, top, items, into, sources, condition, groupBy, having,
    orderBy, setOperation⟩ := q
  show Query.render f _ = _
  rw [Query.render]
  simp

end QueryNames
