/-
References to GraphQL types, and the reference that an attribute stands
for. Reading and writing differ: what is read has the full shape, while a
mutation names relations by identifier and components by input types, and
an update leaves every field optional.
-/
import ModelSchema.Model.Registry

namespace ModelSchema

/-- A reference to a type. The name is the one that the configuration
gives. -/
inductive TypeRef where
  | named (name : Value)
  | list (item : TypeRef)
  | nonNull (inner : TypeRef)
deriving DecidableEq, Inhabited

namespace TypeRef

/-- The reference to a type with this name. -/
def of (name : String) : TypeRef := .named (.str name)

/-- A reference as it is written. -/
def text : TypeRef → String
  | .named name => name.text
  | .list item => "[" ++ item.text ++ "]"
  | .nonNull inner => inner.text ++ "!"

/-- A reference as a value: a bare name is itself. -/
def toValue : TypeRef → Value
  | .named name => name
  | t => .str t.text

/-- The reference, non-null if the flag is set. -/
def requiredIf (flag : Bool) (t : TypeRef) : TypeRef := if flag then .nonNull t else t

end TypeRef

/-- What a type is for: reading, writing as a whole, or updating. -/
inductive Mode where
  | read | write | update
deriving DecidableEq

namespace Mode

/-- The mode of a root type and an action, given by their names. -/
def ofNames (root action : String) : Mode :=
  if root = "mutation" then (if action = "update" then .update else .write) else .read

/-- Whether the type is for a mutation. -/
def isMutation : Mode → Bool
  | .read => false
  | _ => true

end Mode

namespace Attribute

-- ======================================================== derived names

/-- The GraphQL types of scalar attributes; any other type is a
`String`. -/
def scalarTypes : List (String × String) :=
  [("boolean", "Boolean"), ("integer", "Int"), ("biginteger", "Long"),
    ("float", "Float"), ("decimal", "Float"), ("json", "JSON"), ("date", "Date"),
    ("time", "Time"), ("datetime", "DateTime"), ("timestamp", "DateTime")]

/-- The name of the enum type: the attribute's own, or one made of the
names of the model and the field. -/
def enumTypeName (a : Attribute) (modelName : Value) (field : String) :
    Except Fault Value :=
  if a.enumName.isGiven then .ok a.enumName
  else return .str ("ENUM_" ++ (← Naming.upperOf modelName) ++ "_" ++ Text.upper field)

/-- The name of the union of a dynamic zone. -/
def zoneName (modelName : Value) (field : String) : String :=
  modelName.text ++ Naming.upperCamel field ++ "DynamicZone"

/-- The name of the input type of a component. -/
def componentInput (c : Model) (mode : Mode) : Except Fault String := do
  let base := Naming.upperFirst (← Naming.singularOf c.globalId)
  return if mode = .update then "edit" ++ base ++ "Input" else base ++ "Input"

-- ======================================================== the reference

/-- Whether the field of a scalar or enumeration has to be there. One with
a default may be left out when an entity is created, and any field when it
is updated. -/
def isDemanded (a : Attribute) (mode : Mode) : Bool :=
  a.required && (mode = .read || (mode = .write && a.default.isNone))

/-- The mark of a field that has to be there, as an item of a list. -/
def demandMark : Value := .str "!"

/-- A name with the mark of a field that has to be there. A list takes it
as one more item; nothing else but a text takes it. -/
def demandedName : Value → Except Fault TypeRef
  | .str name => .ok (.nonNull (.of name))
  | .list items => .ok (.named (.list (items ++ [demandMark])))
  | _ => .error .wrongKind

/-- The type of a scalar or enumeration. -/
def scalarRef (a : Attribute) (modelName : Value) (field : String) (mode : Mode) :
    Except Fault TypeRef := do
  discard a.type.key
  let name ←
    if a.type = .str "enumeration" then a.enumTypeName modelName field
    else
      match a.type with
      | .str t => pure (.str ((Assoc.get? scalarTypes t).getD "String"))
      | _ => pure (.str "String")
  if a.isDemanded mode then demandedName name else return .named name

/-- The type of a component. Reading ignores that it is required, as
nested objects may be filled in part. -/
def componentRef (r : Registry) (a : Attribute) (mode : Mode) :
    Except Fault TypeRef := do
  let c ← r.getComponent a.component
  let item ←
    if mode.isMutation then
      pure ((TypeRef.of (← componentInput c mode)).requiredIf
        (a.required && mode = .write))
    else pure (.named c.globalId)
  return if a.repeatable then .list item else item

/-- The type of a dynamic zone. -/
def zoneRef (a : Attribute) (modelName : Value) (field : String) (mode : Mode) :
    TypeRef :=
  let name := zoneName modelName field
  let item :=
    if mode.isMutation then .nonNull (.of (name ++ "Input")) else TypeRef.of name
  (TypeRef.list item).requiredIf a.required

/-- The type of a relation. Without a target, or with any model as its
target, it is read as `Morph`. -/
def relationRef (r : Registry) (a : Attribute) (mode : Mode) :
    Except Fault TypeRef := do
  let target := a.target
  if target.isGiven && target ≠ wildcard then
    let m ← r.getModel target a.plugin
    let item := if mode.isMutation then TypeRef.of "ID" else .named m.globalId
    return if a.isPlural then .list item else item
  else
    let item := TypeRef.of (if mode.isMutation then "ID" else "Morph")
    return if a.model.isGiven then item else .list item

/-- The type that an attribute stands for. -/
def typeRef (r : Registry) (a : Attribute) (modelName : Value) (field : String)
    (mode : Mode) : Except Fault TypeRef :=
  if a.type = .str "component" then componentRef r a mode
  else if a.type = .str "dynamiczone" then .ok (zoneRef a modelName field mode)
  else if a.type.isGiven then scalarRef a modelName field mode
  else relationRef r a mode

-- ======================================================= names as lists

/-- The attribute after its type has been asked for. A name of its enum
type that is a list keeps the mark that it has taken. -/
def afterRef (a : Attribute) (mode : Mode) : Attribute :=
  match a.enumName with
  | .list (item :: items) =>
      if a.type = .str "enumeration" && a.isDemanded mode then
        { a with enumName := .list (item :: items ++ [demandMark]) }
      else a
  | _ => a

/-- The types that an attribute stands for in several modes, asked for in
turn. A list that is a name is shown as it is in the end. -/
def typeRefs (r : Registry) (a : Attribute) (modelName : Value) (field : String)
    (modes : List Mode) : List (Except Fault TypeRef) :=
  let name := (modes.foldl afterRef a).enumName
  modes.map fun mode => (a.typeRef r modelName field mode).map fun
    | .named (.list _) => .named name
    | t => t

end Attribute

end ModelSchema
