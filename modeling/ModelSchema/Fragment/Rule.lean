/-
Type rules: what decides, for a value of an abstract type, which object
type it is of. The compiler makes two kinds of rules itself, for dynamic
zones and for the union of polymorphic relations; any other is a
contributed callable.
-/
import ModelSchema.Morph

namespace ModelSchema

/-- What an entry of a resolver map holds: a contributed value, the rule
of polymorphic relations, or the rule of a dynamic zone, which knows the
zone's components by uid. -/
inductive Content where
  | given (v : Value)
  | morphRule
  | zoneRule (members : List (Key × String))
deriving DecidableEq

namespace Content

/-- The value that stands for a content. A generated rule is a callable
with a name of its own. -/
def toValue : Content → Value
  | .given v => v
  | .morphRule => .callable "resolve_morph_type"
  | .zoneRule _ => .callable "resolve_type"

/-- The type of a value of a dynamic zone: that of the component whose uid
the value carries, none if it carries no such uid. -/
def zoneType (members : List (Key × String)) (v : Value) : Except Fault Value :=
  let uid := match v with
    | .map entries => Value.getD entries "__component"
    | .record _ fields => Value.getD fields "__component"
    | _ => .null
  if uid.isGiven then return (Assoc.get? members (← uid.key)).elim .null .str
  else return .null

/-- Whether a content can be called. -/
def isCallable : Content → Bool
  | .given (.callable _) => true
  | .given _ => false
  | _ => true

/-- Calls a rule on a value. A contributed callable answers with its
name. -/
def call : Content → Value → Except Fault Value
  | .given (.callable name), _ => .ok (.str name)
  | .given _, _ => .error .wrongKind
  | .morphRule, v => .ok (Morph.resolveType v)
  | .zoneRule members, v => zoneType members v

end Content

end ModelSchema
