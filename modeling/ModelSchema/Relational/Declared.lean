/-
Classes as they are declared, each with a table of its own. Types are given
by name, relationships by the class at their far end, and what a mapper
knows of them follows: which way a relationship runs from the table that
holds the foreign key, and its columns on this side from where they point.
-/
import ModelSchema.Relational.Mapper

namespace ModelSchema.Relational

-- ================================================================= types

namespace ColumnType

/-- A type that is an instance of these classes. -/
def ofClasses (classes : List TypeClass) : ColumnType := .plain { classes := classes }

/-- An enumeration of values. -/
def ofEnum (values : List Value) : ColumnType :=
  .plain { classes := [.enumeration, .string], enums := values }

/-- An enumeration of the members of a class. -/
def ofEnumClass (e : EnumClass) : ColumnType :=
  .plain
    { classes := [.enumeration, .string]
      enumClass := some e
      enums := e.memberNames.map .str }

/-- A decoration of a type. An enumeration is decorated with its values
alone, without the class that they may come from. -/
def decorate : ColumnType → ColumnType
  | .plain type => .decorated (.plain { type with enumClass := none })
  | t => .decorated t

/-- The named types that are instances of some of the classes. -/
def namedClasses : List (String × List TypeClass) :=
  [("Boolean", [.boolean]), ("BOOLEAN", [.boolean]), ("MatchType", [.boolean]),
    ("BigInteger", [.bigInteger, .integer]), ("BIGINT", [.bigInteger, .integer]),
    ("Integer", [.integer]), ("INTEGER", [.integer]), ("INT", [.integer]),
    ("SmallInteger", [.integer]), ("SMALLINT", [.integer]),
    ("Float", [.float, .numeric]), ("FLOAT", [.float, .numeric]), ("REAL", [.float, .numeric]),
    ("Double", [.float, .numeric]), ("DOUBLE", [.float, .numeric]),
    ("DOUBLE_PRECISION", [.float, .numeric]),
    ("Numeric", [.numeric]), ("NUMERIC", [.numeric]), ("DECIMAL", [.numeric]),
    ("JSON", [.json]),
    ("DateTime", [.dateTime]), ("DATETIME", [.dateTime]), ("TIMESTAMP", [.dateTime]),
    ("Date", [.date]), ("DATE", [.date]), ("Time", [.time]), ("TIME", [.time]),
    ("Enum", [.enumeration, .string]),
    ("String", [.string]), ("Text", [.string]), ("TEXT", [.string]), ("CLOB", [.string]),
    ("Unicode", [.string]), ("UnicodeText", [.string]), ("CHAR", [.string]),
    ("VARCHAR", [.string]), ("NCHAR", [.string]), ("NVARCHAR", [.string])]

/-- The type of a name. Two of the named types decorate others: intervals
are moments, and pickled values are bytes. -/
def ofName (name : String) : ColumnType :=
  if name = "Interval" then .decorated (ofClasses [.dateTime])
  else if name = "PickleType" then .decorated (ofClasses [])
  else ofClasses ((namedClasses.lookup name).getD [])

end ColumnType

-- =============================================================== classes

namespace Declared

/-- A column. It has the name of an attribute of its class, perhaps
another one in the table, and perhaps a key of its own; `references` is the
table that it points into. -/
structure Column extends ColumnSettings where
  name : String
  columnName : Option String := none
  key : Option String := none
  references : Option String := none

/-- The key of a column within its table. -/
def Column.ownKey (c : Column) : String :=
  c.key.getD (c.columnName.getD c.name)

/-- An attribute of a class, as `Class.name`. -/
structure Member where
  entity : String
  name : String
deriving DecidableEq

/-- A relationship to the entities of a class. `foreignKey` says which
column carries it where several could, `remote` which column of a class
that is related to itself is on the far side. -/
structure Relationship where
  name : String
  target : String
  foreignKey : Option Member := none
  remote : Option Member := none
  hasLinkTable : Bool := false
  isList : Option Bool := none

/-- A class with a table of its own. -/
structure Entity where
  name : String
  table : String
  columns : List Column := []
  relationships : List Relationship := []
  doc : Option String := none
  kind : Value := .str "collectionType"
  globalId : Value

/-- The table of a class. -/
def tableOf (entities : List Entity) (name : String) : Option String :=
  (entities.find? fun e => e.name = name).map Entity.table

namespace Entity

/-- Whether a column of the entity points into a table. -/
def pointsInto (e : Entity) (table : String) : Bool :=
  e.columns.any fun c => c.references = some table

/-- Whether an attribute of the entity is a column that points into the
entity's own table. -/
def pointsBack (e : Entity) (name : String) : Bool :=
  e.columns.any fun c => c.name = name && c.references = some e.table

/-- The way a relationship of an entity to itself runs: towards many,
unless its far side is a column that holds no foreign key. -/
def selfDirection (e : Entity) (r : Relationship) : Direction :=
  match r.remote with
  | some far => if e.pointsBack far.name then .oneToMany else .manyToOne
  | none => .oneToMany

/-- The way a relationship of an entity runs, given the table of its
target: towards one, if the entity itself holds the foreign key. -/
def direction (e : Entity) (targetTable : Option String) (r : Relationship) : Direction :=
  if r.hasLinkTable then .manyToMany
  else if r.target = e.name then e.selfDirection r
  else
    let holdsKey : Bool :=
      match r.foreignKey with
      | some member => member.entity = e.name
      | none => targetTable.any e.pointsInto
    if holdsKey then .manyToOne else .oneToMany

/-- The columns of an entity that carry a relationship towards one: the
one that is named, else those that point into the target's table. -/
def carriers (e : Entity) (targetTable : Option String) (r : Relationship) : List Column :=
  e.columns.filter fun c =>
    match r.foreignKey with
    | some member => member.entity = e.name && c.name = member.name
    | none => c.references.isSome && c.references = targetTable

/-- A column of the entity, with the key that it has in its table. -/
def column (e : Entity) (c : Column) : Relational.Column :=
  { c.toColumnSettings with table := e.table, key := c.ownKey }

/-- A relationship of the entity as it runs among entities. Unless it is
said, it holds a list if it does not run towards one. -/
def relationship (e : Entity) (entities : List Entity) (r : Relationship) :
    Relational.Relationship :=
  let targetTable := tableOf entities r.target
  let direction := e.direction targetTable r
  { key := r.name
    target := r.target
    direction := direction
    localColumns :=
      if direction = .manyToOne then (e.carriers targetTable r).map e.column else []
    usesList := r.isList.getD (direction ≠ .manyToOne) }

/-- The mapping of an entity among entities. -/
def mapper (entities : List Entity) (e : Entity) : Mapper :=
  { name := e.name
    columns := e.columns.map fun c => ⟨c.name, e.column c⟩
    relationships := e.relationships.map (e.relationship entities)
    doc := e.doc
    kind := e.kind
    globalId := e.globalId }

end Entity

/-- The mappings of entities. -/
def mappers (entities : List Entity) : List Mapper := entities.map (Entity.mapper entities)

end Declared

end ModelSchema.Relational
