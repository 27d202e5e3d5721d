/-
The types that a model declares of itself: its object type, its enum types
and its dynamic zones. Each is made with the types of its fields still
apart, and the text that the compiler writes is its rendering
(`typeDefinition_eq`, `enums_yields`, `dynamicZones_eq_ok`). An enum type
is written only by the first that declares it, so what an entry writes
depends on what is declared before (`Enums.fresh`, `Enums.after`).
-/
import ModelSchema.Proofs.Outline.Inputs
import ModelSchema.Proofs.Zones.Rows

namespace ModelSchema

open Declaration (Field)

-- ========================================================= object types

namespace Compiler

variable (c : Compiler)

/-- The typed fields of an object type: an identifier, unless an attribute
takes its name, then the exposed attributes. -/
def objectTypes (m : Model) : Except Fault (List (String × TypeRef)) := do
  let types ← Inputs.fieldTypes c.registry c.visibility m .read
  let hasId := (c.exposed m).any fun (name, _) => name = "id"
  return if hasId then types else ("id", .nonNull (.of "ID")) :: types

/-- A field of an object type, with what the overrides of the type and the
attributes of the model say of it. -/
def objectField (m : Model) (overrides : Sdl.Configurations) (e : String × TypeRef) : Field :=
  { key := e.1, type := e.2, metadata := Sdl.fieldMetadata overrides (some m) e.1 }

/-- The declaration of the object type of a model. -/
def objectDeclaration (m : Model) : Except Fault Declaration := do
  let types ← c.objectTypes m
  let overrides := c.contributed.overridesFor (← m.globalId.key)
  return ⟨m.globalId, .object (Sdl.typeDescription (.map overrides) (some m))
    (types.map (objectField m overrides))⟩

/-- The object type of an entry is named by its global id. -/
theorem name_objectDeclaration {c : Compiler} {m : Model} {d : Declaration}
    (h : c.objectDeclaration m = .ok d) :
    d.name = m.globalId := by
  obtain ⟨_, _, h⟩ := bind_eq_ok.1 h
  obtain ⟨_, _, h⟩ := bind_eq_ok.1 h
  cases h
  rfl

/-- The object type of a model is written as it is declared. -/
theorem typeDefinition_eq (m : Model) :
    c.typeDefinition m = Declaration.text <$> c.objectDeclaration m := by
  have fields : c.objectFields m = List.map Inputs.writtenField <$> c.objectTypes m := by
    unfold objectFields objectTypes
    rw [Inputs.fields_eq]
    cases Inputs.fieldTypes c.registry c.visibility m .read with
    | error e => rfl
    | ok types =>
        show Except.ok (if _ then _ else _) = Except.ok (List.map _ (if _ then _ else _))
        split <;> rfl
  unfold typeDefinition objectDeclaration
  rw [fields]
  cases c.objectTypes m with
  | error e => rfl
  | ok types =>
      cases m.globalId.key with
      | error e => rfl
      | ok key =>
          show Except.ok (Sdl.renderBlock "type" _ (Sdl.renderFields _ _ _) _)
            = Except.ok (Sdl.renderBlock "type" _ (Declaration.lines _) _)
          congr 2
          unfold Declaration.lines Sdl.renderFields
          rw [List.map_map, List.map_map]
          rfl

end Compiler

-- =========================================================== enum types

namespace Enums

/-- The declaration of an enum type. -/
def declaration (e : Key × List Value) : Declaration :=
  ⟨e.1.value, if (usable e.2).isEmpty then .scalar else .enum (usable e.2)⟩

/-- An enum type is written as it is declared. -/
theorem enumDefinition_eq (e : Key × List Value) :
    definition e.1.value e.2 = (declaration e).text := by
  unfold definition declaration Declaration.text
  by_cases h : (usable e.2).isEmpty = true
  · simp only [h, if_true]
  · simp only [h]
    rfl

/-- The enum types among these that are not declared yet, each once. -/
def fresh (declared : Declared) : List (Key × List Value) → List (Key × List Value)
  | [] => []
  | e :: rest =>
      (if Assoc.has declared e.1 then [] else [e])
        ++ fresh (declare declared e.1 e.2).declared rest

/-- The enum types that are declared after these. -/
def after (declared : Declared) : List (Key × List Value) → Declared
  | [] => declared
  | e :: rest => after (declare declared e.1 e.2).declared rest

/-- What declaring these enum types tells. -/
def told (declared : Declared) : List (Key × List Value) → List Notice
  | [] => []
  | e :: rest =>
      (declare declared e.1 e.2).notices ++ told (declare declared e.1 e.2).declared rest

/-- A declared enum type stays as it is, and nothing is written. -/
theorem declare_of_has {declared : Declared} {key : Key} (h : Assoc.has declared key = true)
    (values : List Value) :
    (declare declared key values).declared = declared
      ∧ (declare declared key values).definition = none := by
  unfold declare
  cases hget : Assoc.get? declared key with
  | none =>
      rw [(Assoc.get?_eq_none_iff declared key).1 hget] at h
      cases h
  | some first => exact ⟨rfl, rfl⟩

/-- An enum type that is not declared yet is declared and written. -/
theorem declare_of_not_has {declared : Declared} {key : Key}
    (h : Assoc.has declared key = false) (values : List Value) :
    (declare declared key values).declared = Assoc.put key (texts values) declared
      ∧ (declare declared key values).definition = some (declaration (key, values)).text := by
  unfold declare
  rw [(Assoc.get?_eq_none_iff declared key).2 h, ← enumDefinition_eq]
  exact ⟨rfl, rfl⟩

end Enums

namespace Compiler

variable (c : Compiler)

/-- The exposed attributes of one kind. -/
def exposedOf (kind : Attribute.Kind) (m : Model) : List (String × Attribute) :=
  (c.exposed m).filter fun (_, a) => a.kind = kind

/-- The enum types that a model uses, with the values that it gives
them. -/
def enumTypes (m : Model) : Except Fault (List (Key × List Value)) :=
  (c.exposedOf .enumeration m).mapM fun (name, a) => do
    return (← (← a.enumTypeName m.globalId name).key, a.enum)

theorem declareEnum_yields {name : Value} {values : List Value} {p q : Progress}
    {text : Option String} (h : (declareEnum name values).Yields p text q) :
    ∃ key, name.key = .ok key
      ∧ text = (Enums.declare p.declared key values).definition
      ∧ q = { declared := (Enums.declare p.declared key values).declared
              notices := p.notices ++ (Enums.declare p.declared key values).notices } := by
  obtain ⟨key, _, hlift, hrest⟩ := Work.yields_bind.1 h
  obtain ⟨hkey, rfl⟩ := Work.yields_lift.1 hlift
  obtain ⟨_, _, hget, hrest⟩ := Work.yields_bind.1 hrest
  obtain ⟨rfl, rfl⟩ := Work.yields_get.1 hget
  obtain ⟨_, _, hdeclare, hrest⟩ := Work.yields_bind.1 hrest
  obtain ⟨_, _, htell, hrest⟩ := Work.yields_bind.1 hrest
  obtain ⟨htext, rfl⟩ := Work.yields_pure.1 hrest
  refine ⟨key, hkey, htext.symm, ?_⟩
  rw [← Work.yields_tell.1 htell, ← Work.yields_modify.1 hdeclare]

/-- A run of the enum types of a model writes those of them that are
fresh, and declares them all. -/
theorem enums_yields {m : Model} {p q : Progress} {written : List String}
    (h : (c.enums m).Yields p written q) :
    ∃ types, c.enumTypes m = .ok types
      ∧ written = ((Enums.fresh p.declared types).map fun e => (Enums.declaration e).text)
      ∧ q = { declared := Enums.after p.declared types
              notices := p.notices ++ Enums.told p.declared types } := by
  obtain ⟨found, _, hfound, hpure⟩ := Work.yields_bind.1 h
  obtain ⟨hwritten, rfl⟩ := Work.yields_pure.1 hpure
  rw [← hwritten]
  unfold enumTypes exposedOf
  generalize (c.exposed m).filter _ = attributes at hfound ⊢
  clear h hpure hwritten
  induction attributes generalizing p found with
  | nil =>
      rw [List.mapM_nil] at hfound
      obtain ⟨rfl, rfl⟩ := Work.yields_pure.1 hfound
      refine ⟨[], rfl, rfl, ?_⟩
      rw [Enums.after, Enums.told, List.append_nil]
  | cons e attributes ih =>
      obtain ⟨name, a⟩ := e
      rw [List.mapM_cons] at hfound
      obtain ⟨text, p₁, hhead, hfound⟩ := Work.yields_bind.1 hfound
      obtain ⟨rest, p₂, htail, hfound⟩ := Work.yields_bind.1 hfound
      obtain ⟨rfl, rfl⟩ := Work.yields_pure.1 hfound
      obtain ⟨typeName, _, hlift, hhead⟩ := Work.yields_bind.1 hhead
      obtain ⟨hname, rfl⟩ := Work.yields_lift.1 hlift
      obtain ⟨key, hkey, htext, hprogress⟩ := declareEnum_yields hhead
      obtain ⟨types, htypes, hrest, hafter⟩ := ih _ htail
      subst hprogress
      refine ⟨(key, a.enum) :: types, ?_, ?_, ?_⟩
      · rw [List.mapM_cons]
        refine bind_eq_ok.2 ⟨(key, a.enum), ?_, bind_eq_ok.2 ⟨types, htypes, rfl⟩⟩
        exact bind_eq_ok.2 ⟨typeName, hname, bind_eq_ok.2 ⟨key, hkey, rfl⟩⟩
      · rw [List.filterMap_cons, hrest, htext, Enums.fresh]
        cases hhas : Assoc.has p.declared key with
        | false => rw [(Enums.declare_of_not_has hhas _).2]; rfl
        | true => rw [(Enums.declare_of_has hhas _).2]; rfl
      · rw [hafter, List.append_assoc]
        rfl

end Compiler

-- ======================================================== dynamic zones

namespace Zones.Row

variable (row : Row)

/-- The types of a zone, apart: what is read, and what is written. -/
def declarations : List Declaration :=
  [⟨.str row.name, if row.members.isEmpty then .scalar else .union (row.members.map Prod.snd)⟩,
   ⟨.str (row.name ++ "Input"), .scalar⟩]

/-- The types of a zone are written as they are declared. -/
theorem texts_eq : row.texts = row.declarations.map Declaration.text := by
  unfold texts declarations
  have hinput : "scalar " ++ row.name ++ "Input" = "scalar " ++ (row.name ++ "Input") :=
    String.append_assoc
  rw [hinput]
  cases row.members.isEmpty <;> rfl

end Zones.Row

namespace Compiler

variable (c : Compiler)

/-- The two types of a dynamic zone: what is read, and what is written. -/
def zonePair (r : Registry) (globalId : Value) (e : String × Attribute) :
    Except Fault (List Declaration) := do
  let found ← Zones.members r e.2.components
  let zone := Attribute.zoneName globalId e.1
  if found.isEmpty then
    return [⟨.str zone, .scalar⟩, ⟨.str (zone ++ "Input"), .scalar⟩]
  let named ← found.mapM Zones.memberName
  return [⟨.str zone, .union (named.map Prod.snd)⟩, ⟨.str (zone ++ "Input"), .scalar⟩]

/-- The types of the exposed dynamic zones of a model. -/
def zoneDeclarations (m : Model) : Except Fault (List Declaration) :=
  List.flatten <$> (c.exposedOf .dynamicZone m).mapM (zonePair c.registry m.globalId)

/-- The two types of a zone are those of its row. -/
theorem zonePair_eq (r : Registry) (globalId : Value) (e : String × Attribute) :
    zonePair r globalId e = Zones.Row.declarations <$> Zones.row r globalId e := by
  unfold zonePair Zones.row
  cases Zones.members r e.2.components with
  | error f => rfl
  | ok found =>
      cases found with
      | nil => rfl
      | cons head rest =>
          show ((head :: rest).mapM Zones.memberName >>= _)
            = Zones.Row.declarations <$> Zones.Row.mk _ <$> (head :: rest).mapM Zones.memberName
          cases h : (head :: rest).mapM Zones.memberName with
          | error f => rfl
          | ok named =>
              obtain ⟨_, _, rfl⟩ := exists_cons_of_mapM h
              rfl

/-- The dynamic zones of a model are made one by one and put to nothing. -/
theorem dynamicZones_eq (m : Model) :
    c.dynamicZones m
      = List.foldl Zones.place {}
        <$> (c.exposedOf .dynamicZone m).mapM (Zones.row c.registry m.globalId) := by
  rw [← foldlM_map]
  exact congrArg (fun step => List.foldlM step _ _)
    (funext fun zones => funext fun zone => Zones.add_eq c.registry m zones zone)

/-- The dynamic zones of a model are written as they are declared. -/
theorem dynamicZones_eq_ok {m : Model} {zones : Zones} (h : c.dynamicZones m = .ok zones) :
    ∃ ds, c.zoneDeclarations m = .ok ds ∧ zones.definitions = ds.map Declaration.text := by
  rw [dynamicZones_eq] at h
  obtain ⟨rows, hrows, rfl⟩ := map_eq_ok.1 h
  have hpairs : (c.exposedOf .dynamicZone m).mapM (zonePair c.registry m.globalId)
      = .ok (rows.map Zones.Row.declarations) := by
    rw [funext (zonePair_eq c.registry m.globalId), mapM_map_result, hrows]
    rfl
  refine ⟨(rows.map Zones.Row.declarations).flatten, map_eq_ok.2 ⟨_, hpairs, rfl⟩, ?_⟩
  rw [Zones.foldl_place, List.flatten_eq_flatMap, List.flatMap_map, List.map_flatMap]
  exact congrArg (List.flatMap · rows) (funext Zones.Row.texts_eq)

end Compiler

-- ================================================== what is left as it is

namespace Inputs

variable {m : Model}

/-- A model whose exposed attributes take no mark is left as it is. -/
theorem afterFields_eq_self {r : Registry} {visibility : Visibility} {mode : Mode}
    (h : ∀ e ∈ exposed visibility m, e.2.afterRef mode = e.2) :
    afterFields r visibility m mode = m := by
  have attributes : ∀ rest ⊆ m.attributes, attributesAfter r visibility m mode rest = rest := by
    intro rest
    induction rest with
    | nil => exact fun _ => rfl
    | cons e rest ih =>
        intro hsub
        obtain ⟨name, a⟩ := e
        have tail := ih fun e he => hsub (List.mem_cons_of_mem _ he)
        rw [attributesAfter]
        split
        · rw [tail]
        · next hshown =>
            have hexposed : (name, a) ∈ exposed visibility m := by
              refine List.mem_filter.2 ⟨hsub List.mem_cons_self, ?_⟩
              simpa using hshown
            split
            · rw [h (name, a) hexposed, tail]
            · rfl
  unfold afterFields
  rw [attributes m.attributes (List.Subset.refl _)]

end Inputs

/-- Nothing but an enum type with a list for a name takes a mark. -/
theorem Attribute.afterRef_of_ne_list {a : Attribute} {mode : Mode}
    (h : a.kind = .enumeration → ∀ item items, a.enumName ≠ .list (item :: items)) :
    a.afterRef mode = a := by
  unfold Attribute.afterRef
  split
  · next item items hname =>
      split
      · next hdemanded =>
          rw [Bool.and_eq_true, decide_eq_true_eq] at hdemanded
          exact absurd hname (h (a.kind_eq_enumeration_iff.2 hdemanded.1) item items)
      · rfl
  · rfl

/-- An enum type whose name may be a key is not named by a list. -/
theorem Attribute.enumName_ne_list {a : Attribute} {modelName : Value} {field : String}
    (h : ∀ n, a.enumTypeName modelName field = .ok n → n.isKey = true) (item : Value)
    (items : List Value) : a.enumName ≠ .list (item :: items) := by
  intro hname
  have hn : a.enumTypeName modelName field = .ok a.enumName := by
    unfold Attribute.enumTypeName
    rw [hname]
    rfl
  have hkey := h a.enumName hn
  rw [hname] at hkey
  cases hkey

/-- An enum type whose name may be a key takes no mark. -/
theorem Attribute.afterRef_eq_self {a : Attribute} (modelName : Value) (field : String)
    {mode : Mode}
    (h : a.kind = .enumeration → ∀ n, a.enumTypeName modelName field = .ok n → n.isKey = true) :
    a.afterRef mode = a :=
  afterRef_of_ne_list fun hkind => enumName_ne_list (h hkind)

namespace Compiler

variable {c : Compiler} {m : Model}

/-- Enum types that may be declared are named by keys. -/
theorem isKey_of_enumTypes {types : List (Key × List Value)} (h : c.enumTypes m = .ok types) :
    ∀ e ∈ c.exposedOf .enumeration m, ∀ n,
      e.2.enumTypeName m.globalId e.1 = .ok n → n.isKey = true := by
  intro e he n hn
  obtain ⟨pair, _, hpair⟩ := mem_of_mapM_eq_ok h he
  obtain ⟨n', hn', hpair⟩ := bind_eq_ok.1 hpair
  obtain ⟨key, hkey, _⟩ := bind_eq_ok.1 hpair
  rw [hn] at hn'
  cases hn'
  rw [← Value.value_of_key hkey]
  exact key.isKey

/-- A model whose enum types are named by keys is left as it is. -/
theorem afterInputModel_eq_self (name : Value) (h : ∀ e ∈ c.exposedOf .enumeration m, ∀ n,
      e.2.enumTypeName m.globalId e.1 = .ok n → n.isKey = true) :
    Inputs.afterInputModel c.registry c.visibility m name = m := by
  unfold Inputs.afterInputModel
  split
  · refine Inputs.afterFields_eq_self fun e he => ?_
    refine Attribute.afterRef_eq_self m.globalId e.1 fun hkind n hn => ?_
    exact h e (List.mem_filter.2 ⟨he, decide_eq_true hkind⟩) n hn
  · rfl

end Compiler

end ModelSchema
