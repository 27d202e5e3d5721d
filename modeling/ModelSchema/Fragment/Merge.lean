/-
Merging fragments, in order. Texts are put one after another; maps are
merged type by type, where the later fragment wins each entry taken whole.
A section that is no map replaces what is there, and is replaced by what
comes.
-/
import ModelSchema.Fragment.Basic
import ModelSchema.Notice

namespace ModelSchema

-- ============================================================= sections

/-- A section after another one of the same type. -/
def Section.after (earlier : Option Section) (later : Section) : Section :=
  match earlier, later with
  | some (.entries old), .entries new => .entries (Assoc.putAll old new)
  | _, _ => later

/-- The entries of a later section that replace other ones. -/
def Section.overridden (earlier : Option Section) (later : Section) : List String :=
  match earlier, later with
  | some (.entries old), .entries new =>
      new.filterMap fun (name, e) =>
        match Assoc.get? old name with
        | some before => if before.isSame e then none else some name
        | none => none
  | _, _ => []

/-- A map of two levels with a later one merged into it. -/
def SectionMap.merge (earlier later : SectionMap) : SectionMap :=
  later.foldl
    (fun acc (type, s) => Assoc.put type (Section.after (Assoc.get? acc type) s) acc)
    earlier

/-- What a merge tells about entries that were there already. -/
def SectionMap.notices (map : EntryMap) (earlier later : SectionMap) : List Notice :=
  later.flatMap fun (type, s) =>
    (Section.overridden (Assoc.get? earlier type) s).map fun field =>
      .entryOverridden map type.value field

-- ============================================================ fragments

namespace Fragment

/-- A fragment with a later one put after it. Names of object types may
repeat. -/
def append (a b : Fragment) : Fragment :=
  { definition := a.definition ++ b.definition
    query := a.query ++ b.query
    mutation := a.mutation ++ b.mutation
    type := a.type.merge b.type
    resolver := a.resolver.merge b.resolver
    objectTypes := a.objectTypes ++ b.objectTypes
    sources := Assoc.putAll a.sources b.sources }

/-- What putting a fragment after another tells. -/
def appendNotices (a b : Fragment) : List Notice :=
  SectionMap.notices .type a.type b.type
    ++ SectionMap.notices .resolver a.resolver b.resolver

/-- Fragments merged into one. -/
def merge (fs : List Fragment) : Fragment :=
  let all := fs.foldl append empty
  { all with objectTypes := Morph.uniqueKeys all.objectTypes }

/-- What merging fragments after an earlier one tells. -/
def mergeNoticesAfter (earlier : Fragment) : List Fragment → List Notice
  | [] => []
  | f :: rest => earlier.appendNotices f ++ mergeNoticesAfter (earlier.append f) rest

/-- What merging fragments tells. -/
def mergeNotices (fs : List Fragment) : List Notice := mergeNoticesAfter empty fs

-- =========================================================== collecting

/-- What a source contributes: a document written at a place, or a
fragment. -/
inductive Contribution where
  | document (place : Nat) (v : Value)
  | fragment (f : Fragment)

/-- The fragment of a contribution, attributed to its source. -/
def ofContribution (source : Source) : Contribution → Except Fault Fragment
  | .document place v => ofSource place v source
  | .fragment f => .ok (f.attributed source)

/-- The fragments of plugins, then of extensions, then of application
modules, so that the application wins over plugins. Extensions are
attributed as plugins. -/
def collect (plugins extensions apis : List (String × Contribution)) :
    Except Fault (List Fragment) := do
  let asPlugin := fun (e : String × Contribution) =>
    ofContribution { plugin := some e.1 } e.2
  let asApi := fun (e : String × Contribution) => ofContribution { api := some e.1 } e.2
  return (← plugins.mapM asPlugin) ++ (← extensions.mapM asPlugin) ++ (← apis.mapM asApi)

-- ============================================== the union of object types

/-- The resolver map of the union of polymorphic relations; none without
members. -/
def morphResolvers (members : List Key) : SectionMap :=
  if members.isEmpty then []
  else [(Key.ofText Morph.unionName, .entries [("__resolveType", ⟨.morphRule, none⟩)])]

/-- The members of that union: the object types of a fragment. -/
def morphMembers (f : Fragment) : List Key := Morph.uniqueKeys f.objectTypes

end Fragment

end ModelSchema
