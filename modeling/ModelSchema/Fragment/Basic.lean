/-
Schema fragments: what one source contributes to a schema. Definitions
and operations are kept as ordered lists of texts; type overrides and
resolvers are maps of two levels, from types to field names to entries. A
type is written as any key, though only a text can be the name of one.
-/
import ModelSchema.Fragment.Rule
import ModelSchema.Value.Reading

namespace ModelSchema

-- ============================================================== entries

/-- An entry of a type or resolver map. The place numbers the document in
which the entry is written; a generated entry has none. -/
structure Entry where
  content : Content
  place : Option Nat
deriving DecidableEq

/-- Whether values written at different places are one and the same: texts,
truth values, nulls and small integers are, and so is a callable. -/
def Value.isShared : Value → Bool
  | .null | .bool _ | .str _ | .callable _ => true
  | .int n => -5 ≤ n && n ≤ 256
  | _ => false

/-- Whether two entries under the same names are one and the same: they
come from one place, or hold the same shared value. -/
def Entry.isSame (a b : Entry) : Bool :=
  (a.place.isSome && a.place == b.place)
    || match a.content, b.content with
      | .given v, .given w => v.isShared && v == w
      | .morphRule, .morphRule => true
      | _, _ => false

/-- What a type or resolver map holds for one type: entries by field name,
or a value that is no map. -/
inductive Section where
  | entries (fields : List (String × Entry))
  | plain (v : Value)
deriving DecidableEq

namespace Section

/-- A section written at a place. -/
def ofValue (place : Nat) : Value → Section
  | .map fields => .entries (fields.map fun (name, v) => (name, ⟨.given v, some place⟩))
  | v => .plain v

/-- The value that a section stands for. -/
def toValue : Section → Value
  | .entries fields => .map (fields.map fun (name, e) => (name, e.content.toValue))
  | .plain v => v

/-- The entries of a section; a value that is no map has none. -/
def fields : Section → List (String × Entry)
  | .entries fields => fields
  | .plain _ => []

end Section

/-- A map of two levels. -/
abbrev SectionMap := List (Key × Section)

namespace SectionMap

/-- The map that is written at a place. -/
def ofPairs (place : Nat) (pairs : List (Key × Value)) : SectionMap :=
  pairs.map fun (type, v) => (type, .ofValue place v)

/-- The values of the sections, type by type. -/
def toValues (m : SectionMap) : List (Key × Value) :=
  m.map fun (type, s) => (type, s.toValue)

/-- The entries of a type. -/
def fieldsOf (m : SectionMap) (type : Key) : List (String × Entry) :=
  ((Assoc.get? m type).map Section.fields).getD []

/-- Whether two maps are equal as data, whatever the order of their
types. -/
def agrees (a b : SectionMap) : Bool :=
  a.length == b.length
    && a.all fun (type, s) =>
      match Assoc.get? b type with
      | some s' => s.toValue.agrees s'.toValue
      | none => false

end SectionMap

-- ============================================================== sources

/-- Who contributed a resolver: an application module, or a plugin, or
neither. -/
structure Source where
  api : Option String := none
  plugin : Option String := none
deriving DecidableEq, Inhabited

/-- A source in words. -/
def Source.text (s : Source) : String :=
  match s.api.filter (· ≠ ""), s.plugin.filter (· ≠ "") with
  | some api, _ => "api:" ++ api
  | none, some plugin => "plugin:" ++ plugin
  | none, none => "generated"

-- ============================================================ fragments

/-- What one source contributes. `objectTypes` are the names of the object
types that the definitions define, and `sources` tells for `Type.field`
who contributed that resolver. -/
structure Fragment where
  definition : List String := []
  query : List String := []
  mutation : List String := []
  type : SectionMap := []
  resolver : SectionMap := []
  objectTypes : List Key := []
  sources : List (String × Source) := []
deriving DecidableEq, Inhabited

namespace Fragment

/-- The fragment without contents. -/
def empty : Fragment := {}

/-- Texts of a fragment joined into one. -/
def joined (texts : List String) : String := String.intercalate " " texts

/-- Whether a fragment contributes nothing. -/
def isEmpty (f : Fragment) : Bool :=
  f.definition.isEmpty && f.query.isEmpty && f.mutation.isEmpty && f.type.isEmpty
    && f.resolver.isEmpty

/-- The resolvers of a type. -/
def resolversFor (f : Fragment) (type : Key) : List (String × Entry) :=
  f.resolver.fieldsOf type

/-- The overrides of the fields of a type. -/
def overridesFor (f : Fragment) (type : Key) : List (String × Value) :=
  (f.type.fieldsOf type).map fun (name, e) => (name, e.content.toValue)

/-- Whether two fragments are equal as data. -/
def agrees (a b : Fragment) : Bool :=
  a.definition == b.definition && a.query == b.query && a.mutation == b.mutation
    && a.type.agrees b.type && a.resolver.agrees b.resolver
    && a.objectTypes == b.objectTypes
    && a.sources.length == b.sources.length
    && a.sources.all fun (key, s) => Assoc.get? b.sources key == some s

-- ======================================================== attribution

/-- The names of all resolvers of a map, as `Type.field`. -/
def resolverNames (m : SectionMap) : List String :=
  m.flatMap fun (type, s) => s.fields.map fun (field, _) => type.value.text ++ "." ++ field

/-- The fragment with all its resolvers attributed to a source. -/
def attributed (f : Fragment) (source : Source) : Fragment :=
  { f with
    sources := Assoc.putAll f.sources ((resolverNames f.resolver).map fun n => (n, source)) }

-- ============================================================== reading

/-- A text that is not blank, as an entry. -/
def textEntry? : Value → Except Fault (Option String)
  | .str s => .ok (if Text.isBlankText s then none else some s)
  | v => if v.isGiven then .error .noSuchMember else .ok none

/-- The texts that a setting gives: one text, or a list of them; blank
ones are left out. -/
def textEntries (v : Value) : Except Fault (List String) := do
  if !v.isGiven then return []
  let items ← match v with
    | .str _ => pure [v]
    | _ => v.itemsIfGiven
  return (← items.mapM textEntry?).filterMap id

/-- The fragment of a configuration document, written at a place. The
definitions are parsed for the names of their object types. -/
def ofDocument (place : Nat) (document : Value) : Except Fault Fragment := do
  let settings ← document.settingsIfGiven
  let get := Value.getD settings
  let definition ← textEntries (get "definition")
  let objectTypes ← definition.mapM Morph.objectTypes
  return {
    definition := definition
    query := ← textEntries (get "query")
    mutation := ← textEntries (get "mutation")
    type := .ofPairs place (← (get "type").pairsIfGiven)
    resolver := .ofPairs place (← (get "resolver").pairsIfGiven)
    objectTypes := Morph.uniqueKeys (objectTypes.flatten.map Key.ofText) }

/-- The fragment of a configuration document of a source. Without a source
the resolvers stay without attribution. -/
def ofSource (place : Nat) (document : Value) (source : Source) :
    Except Fault Fragment := do
  let f ← ofDocument place document
  return if source = {} then f else f.attributed source

end Fragment

end ModelSchema
