/-
The dynamic zones of a model, one by one. The compiler goes through the
zones in order and puts the types and the rule of each to those of the
zones before it. What it puts is made from the zone alone (`add_eq`), so
that all rows may be made first and put one after another afterwards
(`foldl_place`): the types stand in the order of the zones, and so do the
rules if the unions have different names (`distinct_resolvers`).
-/
import ModelSchema.Proofs.Merge.Ordered
import ModelSchema.Proofs.Run

namespace ModelSchema

namespace Zones

-- =================================================================== rows

/-- What becomes of one zone: the name of its union, and its components,
each by its uid and with the name of its object type. -/
structure Row where
  name : String
  members : List (Key × String)
deriving DecidableEq

namespace Row

variable (row : Row)

/-- The rule that picks the type of a value of the zone. -/
def rule : Content := .zoneRule row.members

/-- The types of the zone: the union of its components, a scalar if it has
none, and the scalar that it is written as. -/
def texts : List String :=
  [if row.members.isEmpty then "scalar " ++ row.name
    else "union " ++ row.name ++ " = " ++ String.intercalate " | " (row.members.map Prod.snd),
   "scalar " ++ row.name ++ "Input"]

/-- The section of a resolver map that has the rule of the zone. A zone
without components has no rule. -/
def resolver? : Option (Key × Section) :=
  if row.members.isEmpty then none
  else some (.ofText row.name, .entries [("__resolveType", ⟨row.rule, none⟩)])

variable {row}

/-- The rule of a zone stands under the name of its union. -/
theorem key_of_resolver? {e : Key × Section} (h : row.resolver? = some e) :
    e.1 = .ofText row.name := by
  unfold resolver? at h
  split at h
  · cases h
  · cases h
    rfl

end Row

/-- The row of a zone of a model with a global id. -/
def row (r : Registry) (globalId : Value) (zone : String × Attribute) : Except Fault Row :=
  Row.mk (Attribute.zoneName globalId zone.1)
    <$> (members r zone.2.components >>= fun found => found.mapM memberName)

/-- Types and rules with those of one more zone. -/
def place (zones : Zones) (row : Row) : Zones where
  definitions := zones.definitions ++ row.texts
  resolvers := Assoc.putAll zones.resolvers row.resolver?.toList

/-- What a zone puts to others does not depend on them. -/
theorem add_eq (r : Registry) (m : Model) (zones : Zones) (zone : String × Attribute) :
    zones.add r m zone.1 zone.2 = place zones <$> row r m.globalId zone := by
  unfold add row
  cases members r zone.2.components with
  | error f => rfl
  | ok found =>
      cases found with
      | nil => rfl
      | cons e rest =>
          show ((e :: rest).mapM memberName >>= _)
            = place zones <$> Row.mk _ <$> (e :: rest).mapM memberName
          cases h : (e :: rest).mapM memberName with
          | error f => rfl
          | ok named =>
              obtain ⟨_, _, rfl⟩ := exists_cons_of_mapM h
              rfl

/-- Rows that are put one after another leave their types in order, and put
their rules one after another. -/
theorem foldl_place (rows : List Row) (start : Zones) :
    rows.foldl place start
      = { definitions := start.definitions ++ rows.flatMap Row.texts
          resolvers := Assoc.putAll start.resolvers (rows.filterMap Row.resolver?) } := by
  induction rows generalizing start with
  | nil => simp
  | cons row rows ih =>
      rw [List.foldl_cons, ih]
      unfold place
      rw [← Assoc.putAll_append, List.flatMap_cons, List.append_assoc]
      cases hrow : row.resolver? <;> simp [hrow]

/-- Unions of different names are resolved under different keys. -/
theorem distinct_resolvers {rows : List Row} (h : (rows.map Row.name).Nodup) :
    Assoc.Distinct (rows.filterMap Row.resolver?) := by
  unfold Assoc.Distinct
  rw [List.Nodup, List.pairwise_map] at h
  rw [List.pairwise_map, List.pairwise_filterMap]
  refine h.imp fun {row row'} hne e he e' he' => ?_
  rw [Row.key_of_resolver? he, Row.key_of_resolver? he', Key.ofText_beq]
  exact beq_eq_false_iff_ne.2 hne

end Zones

end ModelSchema
