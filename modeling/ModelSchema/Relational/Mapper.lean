/-
Mappers: what is known of a class that is mapped, as its mapping tells it.
The attributes of the class stand for columns, of one table or of several
that are joined, or for relationships; and a relationship comes with the
way it runs, its columns on this side, and whether it holds a list.
-/
import ModelSchema.Relational.ColumnType

namespace ModelSchema.Relational

/-- What the application puts into a column when nothing is said: nothing, a
value that is only known when it is needed, be it a callable's or that of an
expression, or a given value. -/
inductive ColumnDefault where
  | absent
  | computed
  | value (v : Value)

/-- What a column is like; the database may have a default of its own for
it. -/
structure ColumnSettings where
  type : ColumnType
  isPrimaryKey : Bool := false
  nullable : Bool := true
  default : ColumnDefault := .absent
  hasServerDefault : Bool := false
  comment : Value := .null
  info : List (String × Value) := []

/-- A column. Its key tells it from the other columns of its table, but not
from those of other tables. -/
structure Column extends ColumnSettings where
  table : String
  key : String

/-- An attribute of a class, and the column that it stands for, the first
one if it stands for several. -/
structure Property where
  key : String
  column : Column

/-- The way a relationship runs. -/
inductive Direction where
  | manyToOne | oneToMany | manyToMany
deriving DecidableEq

/-- A relationship to the entities of a class, with the columns that it
goes by on this side. -/
structure Relationship where
  key : String
  target : String
  direction : Direction
  localColumns : List Column
  usesList : Bool

/-- The mapping of a class. -/
structure Mapper where
  name : String
  columns : List Property := []
  relationships : List Relationship := []
  doc : Option String := none
  kind : Value := .str "collectionType"
  globalId : Value

end ModelSchema.Relational
