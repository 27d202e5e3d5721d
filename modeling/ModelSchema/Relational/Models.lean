/-
Models from mapped classes. Columns become scalars and enumerations, and
relationships become relations. Primary keys are left out, as every
object type has an identifier, and so are the columns with the key of one
that carries a relationship towards one.
-/
import ModelSchema.Model.Registry
import ModelSchema.Notice
import ModelSchema.Relational.Mapper
import ModelSchema.Text.Case
import ModelSchema.Text.Dedent
import ModelSchema.Text.Digit

namespace ModelSchema.Relational

-- ================================================================ names

/-- Puts a low line before the last of several capitals that a small
letter follows. -/
def breakCapitals : List Char → List Char
  | a :: b :: c :: rest =>
      if a.isUpper && b.isUpper && c.isLower then a :: '_' :: breakCapitals (b :: c :: rest)
      else a :: breakCapitals (b :: c :: rest)
  | cs => cs

/-- Puts a low line between a small letter or digit and a capital. -/
def breakWords : List Char → List Char
  | a :: b :: rest =>
      if (a.isLower || Text.isDigit a) && b.isUpper then a :: '_' :: breakWords (b :: rest)
      else a :: breakWords (b :: rest)
  | cs => cs

/-- A name in small letters, its words apart by low lines. -/
def underscored (name : String) : String :=
  let cs := (breakWords (breakCapitals name.toList)).map fun c => if c = '-' then '_' else c
  Text.lower (String.ofList cs)

-- ============================================================== columns

/-- The value that stands for a default: null if it is not known yet. -/
def ColumnDefault.value? : ColumnDefault → Option Value
  | .absent => none
  | .computed => some .null
  | .value v => some v

/-- The default of a column's attribute. What the database has is not known
either, and only looked at if the application has no default. -/
def Column.default? (c : Column) : Option Value :=
  c.default.value?.or (if c.hasServerDefault then some .null else none)

/-- The name of the enum type of a column: that of the enumeration's class
gives way to one in the column's information. -/
def Column.enumName (c : Column) : Value :=
  let declared := Value.getD c.info "enum_name"
  match c.type.enumClass? with
  | some e => declared.orElse (.str e.name)
  | none => declared

/-- The attribute of a column. -/
def Column.toAttribute (c : Column) : Attribute :=
  let type := c.type.attributeType
  let isEnum := type = "enumeration"
  { type := .str type
    required := !c.nullable
    default := c.default?
    description := c.comment.orElse .null
    deprecated := Value.getD c.info "deprecated"
    hidden := (Value.getD c.info "private").isGiven
    enum := if isEnum then c.type.enumValues else []
    enumName := if isEnum then c.enumName else .null }

-- ======================================================== relationships

/-- The attribute of a relationship. -/
def Relationship.toAttribute (r : Relationship) : Attribute :=
  let target := Value.str (underscored r.target)
  if r.usesList then { collection := target } else { model := target }

-- ============================================================== classes

namespace Mapper

variable (m : Mapper)

/-- The keys of the columns that carry the relationships towards one. -/
def carrierKeys : List String :=
  (m.relationships.filter fun r => r.direction = .manyToOne).flatMap fun r =>
    r.localColumns.map Column.key

/-- The attributes of the class whose columns become attributes of the
model. -/
def dataProperties : List Property :=
  let carrierKeys := m.carrierKeys
  m.columns.filter fun p => !p.column.isPrimaryKey && !carrierKeys.contains p.column.key

/-- The attributes of the model of a class. -/
def attributes : List (String × Attribute) :=
  Assoc.ofPairs
    (m.dataProperties.map (fun p => (p.key, p.column.toAttribute))
      ++ m.relationships.map fun r => (r.key, r.toAttribute))

/-- What a class says of itself, if it says anything. -/
def description? : Option String :=
  (m.doc.map Text.dedent).filter (· ≠ "")

/-- The model of a class. -/
def toModel : Model :=
  { name := .str (underscored m.name)
    globalId := m.globalId
    kind := m.kind
    attributes := m.attributes
    info := (m.description?.map fun text => (Key.ofText "description", Value.str text)).toList }

end Mapper

-- ========================================================= registration

/-- Classes by name. -/
def inOrder (classes : List Mapper) : List Mapper :=
  classes.mergeSort fun a b => !(b.name < a.name)

/-- What registering classes tells. -/
def registrationNotices (classes : List Mapper) : List Notice :=
  (inOrder classes).map fun c => .classRegistered c.name c.globalId

/-- Registers the models of classes, by name. -/
def register (r : Registry) (classes : List Mapper) : Except Fault Registry :=
  (inOrder classes).foldlM (fun r c => r.register c.toModel) r

/-- What comes of registering classes: the registry that was given, as it
is afterwards, and the registry that holds the models. -/
structure Registration where
  given : Option Registry
  registry : Registry

/-- Registers the models of classes in the registry that is given. An
empty one stays as it is, and a new one takes its place. -/
def extend (given : Option Registry) (classes : List Mapper) : Except Fault Registration :=
  match given.filter fun r => r.size ≠ 0 with
  | some r => do
      let r ← register r classes
      return ⟨some r, r⟩
  | none => do return ⟨given, ← register .empty classes⟩

end ModelSchema.Relational
