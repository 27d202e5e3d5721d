/-
Dynamic zones. A zone is read as the union of its components and written
as a scalar; its type rule picks the component by the uid that a value
carries. A zone without components is a scalar both ways.
-/
import ModelSchema.Compiler.Basic

namespace ModelSchema

/-- The types and the type rules of dynamic zones. -/
structure Zones where
  definitions : List String := []
  resolvers : SectionMap := []

namespace Zones

/-- The components of a zone by uid, each once, with the names of their
object types. -/
def members (r : Registry) (uids : List Value) : Except Fault (List (Key × Value)) := do
  let found ← uids.mapM fun uid => return (← uid.key, (← r.getComponent uid).globalId)
  return Assoc.ofPairs found

/-- The name of an object type, which has to be a text to be named in a
union. -/
def memberName : Key × Value → Except Fault (Key × String)
  | (uid, .str name) => .ok (uid, name)
  | _ => .error .wrongKind

/-- The types and the rule of one zone put to those of others. -/
def add (r : Registry) (m : Model) (zones : Zones) (name : String) (a : Attribute) :
    Except Fault Zones := do
  let unionName := Attribute.zoneName m.globalId name
  let input := "scalar " ++ unionName ++ "Input"
  let found ← members r a.components
  if found.isEmpty then
    return { zones with
      definitions := zones.definitions ++ ["scalar " ++ unionName, input] }
  let named ← found.mapM memberName
  let union := "union " ++ unionName ++ " = " ++ String.intercalate " | " (named.map Prod.snd)
  return {
    definitions := zones.definitions ++ [union, input]
    resolvers :=
      Assoc.put (.ofText unionName) (.entries [("__resolveType", ⟨.zoneRule named, none⟩)])
        zones.resolvers }

end Zones

/-- The types and rules of the exposed dynamic zones of a model. -/
def Compiler.dynamicZones (c : Compiler) (m : Model) : Except Fault Zones :=
  ((c.exposed m).filter fun (_, a) => a.kind = .dynamicZone).foldlM
    (fun zones (name, a) => zones.add c.registry m name a) {}

end ModelSchema
