/-
What a mapping says of its columns, in the types of the attributes that
they become. A column type, decorated or not, stands for a scalar or an
enumeration (`attributeType_ordinary`), so that its attribute has a type
whatever the type is for, and the marks of these types are read off the
column: whether it may be null, and whether anything, the application or
the database, fills it when nothing is said. A column with a default that
is not known yet has a default all the same. Only the name of an
enumeration can spoil this, if it is no text, as the mark of a field that
has to be there is put behind it (`carriesThrough_iff`).

Columns are left out by their keys. A key tells a column from the others of
its table, so for a class with a table of its own these are the columns that
carry relationships towards one (`keysApart_mapper`). A class that is mapped
to several joined tables may have another column with the same key, and that
one is left out too (`faithful_iff`).
-/
import Mathlib.Data.List.Nodup
import ModelSchema.Proofs.Relational.Classes
import ModelSchema.Proofs.Types.Modes
import ModelSchema.Relational.Declared

namespace ModelSchema

namespace Relational

-- ================================================================ columns

/-- A type has the attribute type of one of its classes, or is a string. -/
theorem PlainType.attributeType_mem (t : PlainType) :
    (∃ c ∈ t.classes, (c, t.attributeType) ∈ attributeTypes) ∨ t.attributeType = "string" := by
  unfold attributeType
  split
  · next c type hfound =>
      have hinstance := List.find?_some hfound
      exact .inl ⟨c, List.contains_iff_mem.1 hinstance, List.mem_of_find?_eq_some hfound⟩
  · exact .inr rfl

/-- No column type stands for a component or a dynamic zone, and every one
stands for something. -/
theorem ColumnType.attributeType_ordinary (t : ColumnType) :
    t.attributeType ≠ "component" ∧ t.attributeType ≠ "dynamiczone" ∧ t.attributeType ≠ "" := by
  have listed : ∀ e ∈ attributeTypes,
      e.2 ≠ "component" ∧ e.2 ≠ "dynamiczone" ∧ e.2 ≠ "" := by decide
  unfold attributeType
  rcases t.core.attributeType_mem with ⟨c, _, hc⟩ | hstring
  · exact listed _ hc
  · rw [hstring]
    decide

namespace Column

variable {c : Column}

/-- Whether the information of a column names the enumeration. -/
def GivesName (c : Column) : Prop :=
  c.type.attributeType = "enumeration" ∧ (Value.getD c.info "enum_name").isGiven = true

/-- A name that the information gives to a required enumeration is a
text. -/
def NamesEnum (c : Column) : Prop :=
  c.nullable = false → c.GivesName → ∃ s, Value.getD c.info "enum_name" = .str s

/-- The name that the information gives goes before that of the class. -/
theorem enumName_of_givesName (h : c.GivesName) :
    c.toAttribute.enumName = Value.getD c.info "enum_name" := by
  have hname : c.toAttribute.enumName = c.enumName := if_pos h.1
  rw [hname]
  unfold enumName
  cases c.type.enumClass? with
  | none => rfl
  | some e => exact if_pos h.2

/-- An enumeration that is not named in its column's information goes by
the name of its class, if it has one, and that is a text. -/
theorem enumName_of_not_givesName (h : ¬c.GivesName)
    (hgiven : c.toAttribute.enumName.isGiven = true) : ∃ s, c.toAttribute.enumName = .str s := by
  by_cases henum : c.type.attributeType = "enumeration"
  · have hdeclared : ¬(Value.getD c.info "enum_name").isGiven = true := fun hd => h ⟨henum, hd⟩
    have hname : c.toAttribute.enumName = c.enumName := if_pos henum
    rw [hname] at hgiven ⊢
    unfold enumName Value.orElse at hgiven ⊢
    cases hclass : c.type.enumClass? with
    | none =>
        rw [hclass] at hgiven
        exact absurd hgiven hdeclared
    | some e => exact ⟨e.name, if_neg hdeclared⟩
  · have hname : c.toAttribute.enumName = .null := if_neg henum
    rw [hname] at hgiven
    cases hgiven

/-- A default is something, if only a value that is not known yet. -/
theorem default?_isNone :
    c.default?.isNone = true ↔ c.default = .absent ∧ c.hasServerDefault = false := by
  unfold default?
  cases c.default <;> cases c.hasServerDefault <;> simp [ColumnDefault.value?]

-- ================================================== types of an attribute

/-- The types of a column's attribute have one name, with a mark where the
field has to be there. It is a text, if it is not the one that the
information gives. -/
theorem exists_typeName (c : Column) (r : Registry) (modelName field : String) :
    ∃ name, (c.GivesName → name = Value.getD c.info "enum_name")
      ∧ (¬c.GivesName → ∃ s, name = .str s)
      ∧ ∀ mode, c.toAttribute.typeRef r (.str modelName) field mode
        = if c.toAttribute.isDemanded mode then Attribute.demandedName name
          else .ok (.named name) := by
  obtain ⟨hcomponent, hzone, hempty⟩ := c.type.attributeType_ordinary
  have htype : c.toAttribute.type = .str c.type.attributeType := rfl
  have hscalar (mode : Mode) : c.toAttribute.typeRef r (.str modelName) field mode
      = c.toAttribute.scalarRef (.str modelName) field mode := by
    unfold Attribute.typeRef
    rw [htype, if_neg (by simpa using hcomponent), if_neg (by simpa using hzone),
      if_pos (by simpa [Value.isGiven] using hempty)]
  obtain ⟨k, hkey⟩ : ∃ k, c.toAttribute.type.key = .ok k := ⟨_, rfl⟩
  by_cases henum : c.toAttribute.type = .str "enumeration"
  · have hname : ∃ name, (c.GivesName → name = Value.getD c.info "enum_name")
        ∧ (¬c.GivesName → ∃ s, name = .str s)
        ∧ c.toAttribute.enumTypeName (.str modelName) field = .ok name := by
      by_cases hgiven : c.toAttribute.enumName.isGiven = true
      · exact ⟨_, enumName_of_givesName, fun h => enumName_of_not_givesName h hgiven,
          if_pos hgiven⟩
      · refine ⟨_, fun h => ?_, fun _ => ⟨_, rfl⟩, if_neg hgiven⟩
        rw [enumName_of_givesName h] at hgiven
        exact absurd h.2 hgiven
    obtain ⟨name, hgives, htext, hname⟩ := hname
    refine ⟨name, hgives, htext, fun mode => ?_⟩
    rw [hscalar, Attribute.scalarRef, hkey, if_pos henum, hname]
    rfl
  · have hgives : ¬c.GivesName := fun h => henum (congrArg Value.str h.1)
    refine ⟨.str ((Assoc.get? Attribute.scalarTypes c.type.attributeType).getD "String"),
      fun h => absurd h hgives, fun _ => ⟨_, rfl⟩, fun mode => ?_⟩
    rw [hscalar, Attribute.scalarRef, hkey, if_neg henum]
    rfl

/-- What a column says of the types that it leads to, under all root types
and actions. -/
structure CarriesThrough (c : Column) (types : String → String → Except Fault TypeRef) :
    Prop where
  found : ∀ root action, ∃ t, types root action = .ok t
  read : ∀ action t, types "query" action = .ok t → (t.isNonNull = true ↔ c.nullable = false)
  created : ∀ t, types "mutation" "create" = .ok t →
    (t.isNonNull = true
      ↔ c.nullable = false ∧ c.default = .absent ∧ c.hasServerDefault = false)
  updated : ∀ t, types "mutation" "update" = .ok t → t.isNonNull = false

/-- Types that are marked as the attribute asks say what the column
says. -/
theorem carriesThrough_of_marks {types : String → String → Except Fault TypeRef}
    (h : ∀ root action, ∃ t, types root action = .ok t
      ∧ t.isNonNull = c.toAttribute.isDemanded (.ofNames root action)) :
    c.CarriesThrough types := by
  have marks {root action : String} {t : TypeRef} (ht : types root action = .ok t) :
      t.isNonNull = c.toAttribute.isDemanded (.ofNames root action) := by
    obtain ⟨t', ht', hmarks⟩ := h root action
    cases ht'.symm.trans ht
    exact hmarks
  have hrequired : c.toAttribute.required = !c.nullable := rfl
  have hdefault : c.toAttribute.default = c.default? := rfl
  refine ⟨fun root action => ?_, fun action t ht => ?_, fun t ht => ?_, fun t ht => ?_⟩
  · obtain ⟨t, ht, _⟩ := h root action
    exact ⟨t, ht⟩
  · rw [marks ht]
    simp [Attribute.isDemanded, Mode.ofNames, hrequired]
  · rw [marks ht, ← default?_isNone]
    simp [Attribute.isDemanded, Mode.ofNames, hrequired, hdefault]
  · rw [marks ht]
    simp [Attribute.isDemanded, Mode.ofNames]

theorem required_of_isDemanded {mode : Mode} (h : c.toAttribute.isDemanded mode = true) :
    c.nullable = false := by
  have hrequired : c.toAttribute.required = !c.nullable := rfl
  unfold Attribute.isDemanded at h
  rw [hrequired, Bool.and_eq_true, Bool.not_eq_true'] at h
  exact h.1

/-- What a column says of null and of defaults carries through to the types
of its attribute, unless it is a required enumeration with a name that is
no text. -/
theorem carriesThrough_iff (c : Column) (r : Registry) (modelName field : String) :
    c.CarriesThrough (c.toAttribute.typeFor r (.str modelName) field) ↔ c.NamesEnum := by
  obtain ⟨name, hgives, htext, htypes⟩ := exists_typeName c r modelName field
  constructor
  · intro hcarries hnullable hgiven
    -- a required field is marked when it is read, and only texts take the mark
    have hread := htypes (.ofNames "query" "")
    have hdemanded : c.toAttribute.isDemanded (.ofNames "query" "") = true := by
      simp [Attribute.isDemanded, Mode.ofNames, toAttribute, hnullable]
    rw [if_pos hdemanded] at hread
    obtain ⟨t, ht⟩ := hcarries.found "query" ""
    have hmarked := (hcarries.read "" t ht).2 hnullable
    have hname : Attribute.demandedName name = .ok t := hread.symm.trans ht
    rw [← hgives hgiven]
    unfold Attribute.demandedName at hname
    split at hname
    · exact ⟨_, rfl⟩
    · cases hname
      cases hmarked
    · cases hname
  · intro hnames
    refine carriesThrough_of_marks fun root action => ?_
    have hmode := htypes (.ofNames root action)
    by_cases hdemanded : c.toAttribute.isDemanded (.ofNames root action) = true
    · have hs : ∃ s, name = .str s := by
        by_cases hgiven : c.GivesName
        · rw [hgives hgiven]
          exact hnames (required_of_isDemanded hdemanded) hgiven
        · exact htext hgiven
      obtain ⟨s, rfl⟩ := hs
      rw [if_pos hdemanded] at hmode
      exact ⟨_, hmode, hdemanded.symm⟩
    · rw [if_neg hdemanded] at hmode
      exact ⟨_, hmode, (Bool.eq_false_iff.2 hdemanded).symm⟩

end Column

-- =========================================================== relationships

namespace Relationship

variable {rel : Relationship}

/-- Whether a relationship to one leads to a class with a name. -/
def NamesTarget (rel : Relationship) : Prop := rel.usesList = false → rel.target ≠ ""

/-- What a relationship says of the types that it leads to: where its target
is in the registry, they are lists if the relationship uses lists. -/
def ListsThrough (rel : Relationship) (a : Attribute) : Prop :=
  ∀ (r : Registry) (m : Model), r.getModel (.str (underscored rel.target)) .null = .ok m →
    ∀ (modelName : Value) (field root action : String),
      ∃ t, a.typeFor r modelName field root action = .ok t ∧ t.isList = rel.usesList

/-- The attribute of a relationship is plural if it uses lists, and else it
points at a single model. -/
theorem isPlural_toAttribute (h : rel.target ≠ "") :
    rel.toAttribute.isPlural = rel.usesList ∧ rel.toAttribute.model.isGiven = !rel.usesList := by
  have hgiven : (Value.str (underscored rel.target)).isGiven = true :=
    bne_iff_ne.2 (underscored_ne_empty h)
  unfold toAttribute Attribute.isPlural
  cases rel.usesList
  · exact ⟨rfl, hgiven⟩
  · exact ⟨hgiven, rfl⟩

/-- The attribute of a relationship is a relation. -/
theorem typeRef_toAttribute (rel : Relationship) (r : Registry) (modelName : Value)
    (field : String) (mode : Mode) :
    rel.toAttribute.typeRef r modelName field mode = rel.toAttribute.relationRef r mode := by
  unfold Attribute.typeRef toAttribute
  generalize Value.str (underscored rel.target) = target
  cases rel.usesList <;> rfl

/-- A relationship whose target is in the registry has a type in every mode,
and it is a list if the relationship uses lists. -/
theorem relationRef_toAttribute (h : rel.target ≠ "") {r : Registry} {m : Model}
    (hm : r.getModel (.str (underscored rel.target)) .null = .ok m) (mode : Mode) :
    ∃ t, rel.toAttribute.relationRef r mode = .ok t ∧ t.isList = rel.usesList := by
  obtain ⟨htarget, hplugin⟩ := target_toAttribute rel h
  obtain ⟨hplural, hmodel⟩ := isPlural_toAttribute h
  have hgiven : (Value.str (underscored rel.target)).isGiven = true :=
    bne_iff_ne.2 (underscored_ne_empty h)
  have lists (plural : Bool) (name : Value) :
      (Attribute.relationType plural name mode).isList = plural := by
    unfold Attribute.relationType
    cases plural <;> cases mode <;> rfl
  rw [Attribute.relationRef, htarget, hplugin, hgiven]
  by_cases hany : Value.str (underscored rel.target) = Attribute.wildcard
  · -- a class that is called as the wildcard is read as any model is
    refine ⟨_, if_neg (by simp [hany]), ?_⟩
    rw [hmodel]
    cases rel.usesList <;> cases mode <;> rfl
  · rw [if_pos (by simp [hany]), hm]
    refine ⟨Attribute.relationType rel.usesList m.globalId mode, ?_, lists _ _⟩
    rw [← hplural]
    rfl

/-- A relationship to a class without a name is read as one to many
models of any kind. -/
theorem relationRef_unnamed (h : rel.target = "") (r : Registry) (mode : Mode) :
    rel.toAttribute.relationRef r mode
      = .ok (.list (.of (if mode.isMutation then "ID" else "Morph"))) := by
  unfold toAttribute
  rw [h, underscored_empty]
  cases rel.usesList <;> rfl

/-- Whether a relationship uses lists carries through to the types of its
attribute, unless it is one to a single entity of a class without a name. -/
theorem listsThrough_iff (rel : Relationship) :
    rel.ListsThrough rel.toAttribute ↔ rel.NamesTarget := by
  constructor
  · intro hlists husesList htarget
    have hmodel : Registry.getModel { models := [(.ofTexts (none, ""), default)] }
        (.str (underscored rel.target)) .null = .ok default := by
      rw [htarget, underscored_empty]
      exact getModel_of_get? rfl
    obtain ⟨t, ht, hlist⟩ := hlists _ _ hmodel .null "" "" ""
    rw [Attribute.typeFor, typeRef_toAttribute, relationRef_unnamed htarget] at ht
    cases ht
    rw [husesList] at hlist
    cases hlist
  · intro hnames r m hm modelName field root action
    unfold Attribute.typeFor
    rw [typeRef_toAttribute]
    by_cases htarget : rel.target = ""
    · refine ⟨_, relationRef_unnamed htarget r _, ?_⟩
      cases husesList : rel.usesList with
      | false => exact absurd htarget (hnames husesList)
      | true => rfl
    · exact relationRef_toAttribute htarget hm _

end Relationship

-- ================================================================= mappers

namespace Mapper

variable {m : Mapper}

/-- The names that a class has for its columns and relationships. -/
def names (m : Mapper) : List String :=
  m.columns.map Property.key ++ m.relationships.map Relationship.key

/-- Whether a column carries one of the relationships towards one. -/
def Carries (m : Mapper) (c : Column) : Prop :=
  ∃ rel ∈ m.relationships, rel.direction = .manyToOne ∧ c ∈ rel.localColumns

theorem mem_carrierKeys_iff {key : String} :
    key ∈ m.carrierKeys ↔ ∃ c, m.Carries c ∧ c.key = key := by
  unfold carrierKeys Carries
  constructor
  · intro hkey
    obtain ⟨rel, hrel, hkey⟩ := List.mem_flatMap.1 hkey
    obtain ⟨hrel, hdirection⟩ := List.mem_filter.1 hrel
    obtain ⟨c, hc, hsame⟩ := List.mem_map.1 hkey
    exact ⟨c, ⟨rel, hrel, of_decide_eq_true hdirection, hc⟩, hsame⟩
  · rintro ⟨c, ⟨rel, hrel, hdirection, hc⟩, rfl⟩
    refine List.mem_flatMap.2 ⟨rel, List.mem_filter.2 ⟨hrel, decide_eq_true hdirection⟩, ?_⟩
    exact List.mem_map_of_mem hc

/-- What is left out goes by keys: besides primary keys, all columns with
the key of one that carries a relationship towards one. -/
theorem mem_dataProperties_iff {p : Property} :
    p ∈ m.dataProperties
      ↔ p ∈ m.columns ∧ p.column.isPrimaryKey = false
        ∧ ∀ c, m.Carries c → c.key ≠ p.column.key := by
  have hkey : p.column.key ∈ m.carrierKeys ↔ ¬∀ c, m.Carries c → c.key ≠ p.column.key := by
    rw [mem_carrierKeys_iff]
    push Not
    rfl
  unfold dataProperties
  rw [List.mem_filter]
  refine and_congr_right fun _ => ?_
  rw [Bool.and_eq_true, Bool.not_eq_true', Bool.not_eq_true', List.contains_eq_mem,
    decide_eq_false_iff_not, hkey, not_not]

/-- The attributes of a class are those of its columns, but for what is left
out, and those of its relationships, with the names that the class has for
them. -/
theorem attributes_toModel (h : m.names.Nodup) :
    m.toModel.attributes
        = m.dataProperties.map (fun p => (p.key, p.column.toAttribute))
          ++ m.relationships.map (fun rel => (rel.key, rel.toAttribute))
      ∧ (m.toModel.attributes.map Prod.fst).Sublist m.names := by
  have hnames : ((m.dataProperties.map (fun p => (p.key, p.column.toAttribute))
      ++ m.relationships.map fun rel => (rel.key, rel.toAttribute)).map Prod.fst).Sublist
        m.names := by
    rw [List.map_append, List.map_map, List.map_map]
    exact (List.filter_sublist.map _).append (List.Sublist.refl _)
  have hkept : m.toModel.attributes
      = m.dataProperties.map (fun p => (p.key, p.column.toAttribute))
        ++ m.relationships.map fun rel => (rel.key, rel.toAttribute) :=
    Assoc.putAll_nil_left ((h.sublist hnames).imp fun hne => beq_eq_false_iff_ne.2 hne)
  exact ⟨hkept, hkept ▸ hnames⟩

/-- The attribute with the name of a column is that of the column, if it is
not left out. -/
theorem attribute?_property (h : m.names.Nodup) {p : Property} (hp : p ∈ m.columns)
    (a : Attribute) :
    m.toModel.attribute? p.key = some a ↔ p ∈ m.dataProperties ∧ a = p.column.toAttribute := by
  obtain ⟨hkept, hnames⟩ := attributes_toModel h
  unfold Model.attribute?
  constructor
  · intro hfound
    obtain ⟨key, hmem, hkey⟩ := Assoc.mem_of_get?_eq_some hfound
    obtain rfl := beq_iff_eq.1 hkey
    rw [hkept] at hmem
    rcases List.mem_append.1 hmem with hmem | hmem
    · obtain ⟨p', hp', hpair⟩ := List.mem_map.1 hmem
      obtain ⟨hsame, rfl⟩ := Prod.mk.inj hpair
      have hcolumns : (m.columns.map Property.key).Nodup := (List.nodup_append.1 h).1
      obtain rfl := List.inj_on_of_nodup_map hcolumns (List.mem_of_mem_filter hp') hp hsame
      exact ⟨hp', rfl⟩
    · obtain ⟨rel, hrel, hpair⟩ := List.mem_map.1 hmem
      have hsame : rel.key = p.key := congrArg Prod.fst hpair
      exact absurd hsame.symm ((List.nodup_append.1 h).2.2 _ (List.mem_map_of_mem hp) _
        (List.mem_map_of_mem hrel))
  · rintro ⟨hdata, rfl⟩
    have hdistinct : Assoc.Distinct m.toModel.attributes :=
      (h.sublist hnames).imp fun hne => beq_eq_false_iff_ne.2 hne
    refine Assoc.get?_of_mem hdistinct ?_
    rw [hkept]
    exact List.mem_append_left _ (List.mem_map_of_mem hdata)

theorem exists_attribute_iff (h : m.names.Nodup) {p : Property} (hp : p ∈ m.columns) :
    (∃ a, m.toModel.attribute? p.key = some a) ↔ p ∈ m.dataProperties := by
  constructor
  · rintro ⟨a, ha⟩
    exact ((attribute?_property h hp a).1 ha).1
  · intro hdata
    exact ⟨_, (attribute?_property h hp _).2 ⟨hdata, rfl⟩⟩

/-- What is asked of the model of a class: it has one attribute for every
column but primary keys and those that carry relationships towards one,
whose types say of null and defaults what the column says; one for every
relationship, whose types are lists if it uses lists; and no others. -/
structure Faithful (m : Mapper) : Prop where
  nodup : (m.toModel.attributes.map Prod.fst).Nodup
  named : ∀ e ∈ m.toModel.attributes, e.1 ∈ m.names
  kept : ∀ p ∈ m.columns, (∃ a, m.toModel.attribute? p.key = some a)
    ↔ p.column.isPrimaryKey = false ∧ ¬m.Carries p.column
  carried : ∀ p ∈ m.columns, ∀ a, m.toModel.attribute? p.key = some a →
    ∀ (r : Registry) (modelName field : String),
      p.column.CarriesThrough (a.typeFor r (.str modelName) field)
  related : ∀ rel ∈ m.relationships, ∃ a, m.toModel.attribute? rel.key = some a
    ∧ rel.ListsThrough a

/-- Whether columns can be told by their keys: one with the key of a column
that carries a relationship towards one does so itself. -/
def KeysApart (m : Mapper) : Prop :=
  ∀ p ∈ m.columns, p.column.isPrimaryKey = false →
    ∀ c, m.Carries c → c.key = p.column.key → m.Carries p.column

/-- Whether enumerations that become attributes are named by texts, where
they have to be. -/
def NamesEnums (m : Mapper) : Prop :=
  ∀ p ∈ m.columns, p.column.isPrimaryKey = false → ¬m.Carries p.column → p.column.NamesEnum

/-- Where columns can be told by their keys, it is those that carry
relationships towards one that are left out. -/
theorem mem_dataProperties_of_keysApart (h : m.KeysApart) {p : Property} (hp : p ∈ m.columns) :
    p ∈ m.dataProperties ↔ p.column.isPrimaryKey = false ∧ ¬m.Carries p.column := by
  rw [mem_dataProperties_iff, and_iff_right hp]
  refine and_congr_right fun hprimary => ⟨fun hkeys hcarries => hkeys _ hcarries rfl, ?_⟩
  exact fun hcarries c hc hsame => hcarries (h p hp hprimary c hc hsame)

theorem faithful_of_keysApart (h : m.names.Nodup) (hkeys : m.KeysApart) (henums : m.NamesEnums)
    (htargets : ∀ rel ∈ m.relationships, rel.NamesTarget) : m.Faithful where
  nodup := h.sublist (attributes_toModel h).2
  named _ he := (attributes_toModel h).2.subset (List.mem_map_of_mem he)
  kept _ hp := (exists_attribute_iff h hp).trans (mem_dataProperties_of_keysApart hkeys hp)
  carried p hp a ha r modelName field := by
    obtain ⟨hdata, rfl⟩ := (attribute?_property h hp a).1 ha
    obtain ⟨hprimary, hcarries⟩ := (mem_dataProperties_of_keysApart hkeys hp).1 hdata
    exact (Column.carriesThrough_iff _ r modelName field).2 (henums p hp hprimary hcarries)
  related rel hrel := by
    have hrelationships := (List.nodup_append.1 h).2.1
    exact ⟨_, attribute?_toModel hrelationships hrel,
      (Relationship.listsThrough_iff rel).2 (htargets rel hrel)⟩

/-- What becomes of a mapping in a model. A column becomes an attribute if
it is no primary key and has not the key of a column that carries a
relationship towards one, and its types say of null and defaults what the
column says, unless it is a required enumeration with a name that is no
text. A relationship becomes one attribute, whose types are lists if it uses
lists, unless it is to one entity of a class without a name. So the model is
faithful exactly if none of this comes about and columns can be told by
their keys. -/
theorem faithful_iff (h : m.names.Nodup) :
    (m.toModel.attributes.map Prod.fst).Sublist m.names
      ∧ (∀ p ∈ m.columns, (∃ a, m.toModel.attribute? p.key = some a)
          ↔ p.column.isPrimaryKey = false ∧ ∀ c, m.Carries c → c.key ≠ p.column.key)
      ∧ (∀ p ∈ m.columns, ∀ a, m.toModel.attribute? p.key = some a →
          ∀ (r : Registry) (modelName field : String),
            p.column.CarriesThrough (a.typeFor r (.str modelName) field) ↔ p.column.NamesEnum)
      ∧ (∀ rel ∈ m.relationships, ∃ a, m.toModel.attribute? rel.key = some a
          ∧ (rel.ListsThrough a ↔ rel.NamesTarget))
      ∧ (m.Faithful ↔ m.KeysApart ∧ m.NamesEnums ∧ ∀ rel ∈ m.relationships, rel.NamesTarget) := by
  have hkept : ∀ p ∈ m.columns, (∃ a, m.toModel.attribute? p.key = some a)
      ↔ p.column.isPrimaryKey = false ∧ ∀ c, m.Carries c → c.key ≠ p.column.key := by
    intro p hp
    rw [exists_attribute_iff h hp, mem_dataProperties_iff, and_iff_right hp]
  have hcarried : ∀ p ∈ m.columns, ∀ a, m.toModel.attribute? p.key = some a →
      ∀ (r : Registry) (modelName field : String),
        p.column.CarriesThrough (a.typeFor r (.str modelName) field) ↔ p.column.NamesEnum := by
    intro p hp a ha r modelName field
    obtain ⟨_, rfl⟩ := (attribute?_property h hp a).1 ha
    exact Column.carriesThrough_iff _ r modelName field
  have hrelated : ∀ rel ∈ m.relationships, ∃ a, m.toModel.attribute? rel.key = some a
      ∧ (rel.ListsThrough a ↔ rel.NamesTarget) := fun rel hrel =>
    ⟨_, attribute?_toModel (List.nodup_append.1 h).2.1 hrel, Relationship.listsThrough_iff rel⟩
  refine ⟨(attributes_toModel h).2, hkept, hcarried, hrelated, fun hfaithful => ⟨?_, ?_, ?_⟩,
    fun ⟨hkeys, henums, htargets⟩ => faithful_of_keysApart h hkeys henums htargets⟩
  · -- a column that is left out by its key only would have to be there
    intro p hp hprimary c hc hsame
    by_contra hcarries
    have hshown := (hkept p hp).1 ((hfaithful.kept p hp).2 ⟨hprimary, hcarries⟩)
    exact hshown.2 c hc hsame
  · intro p hp hprimary hcarries
    obtain ⟨a, ha⟩ := (hfaithful.kept p hp).2 ⟨hprimary, hcarries⟩
    exact (hcarried p hp a ha .empty "" "").1 (hfaithful.carried p hp a ha .empty "" "")
  · intro rel hrel
    obtain ⟨a, ha, hlists⟩ := hfaithful.related rel hrel
    obtain ⟨a', ha', hnames⟩ := hrelated rel hrel
    cases ha.symm.trans ha'
    exact hnames.1 hlists

/-- Books, with their authors elsewhere. -/
def book : Mapper :=
  { name := "Book", globalId := .str "Book"
    columns :=
      [idProperty "books",
        ⟨"title",
          { table := "books", key := "title", type := .decorated (.plain { classes := [.string] })
            nullable := false }⟩,
        ⟨"format",
          { table := "books", key := "format", nullable := false
            type := .plain
              { classes := [.enumeration, .string]
                enumClass := some ⟨"Format", [("paper", .int 1), ("audio", .int 2)]⟩ }
            default := .value (.str "paper") }⟩,
        ⟨"added",
          { table := "books", key := "added", type := .plain { classes := [.dateTime] }
            nullable := false, hasServerDefault := true }⟩,
        ⟨"author_id", foreignKey "books" "author_id"⟩]
    relationships :=
      [{ key := "author", target := "Author", direction := .manyToOne
         localColumns := [foreignKey "books" "author_id"], usesList := false }] }

theorem carries_book {c : Column} : book.Carries c ↔ c = foreignKey "books" "author_id" := by
  simp [Carries, book]

theorem keysApart_book : book.KeysApart := by
  intro p hp _ c hc hsame
  rw [carries_book] at hc ⊢
  subst hc
  simp only [book, List.mem_cons, List.not_mem_nil, or_false] at hp
  rcases hp with rfl | rfl | rfl | rfl | rfl
  case inr.inr.inr.inr => rfl
  all_goals exact absurd hsame (by decide)

theorem namesEnums_book : book.NamesEnums := by
  intro p hp _ _ _ hgiven
  have hinfo : p.column.info = [] := by
    simp only [book, List.mem_cons, List.not_mem_nil, or_false] at hp
    rcases hp with rfl | rfl | rfl | rfl | rfl <;> rfl
  rw [Column.GivesName, hinfo] at hgiven
  cases hgiven.2

/-- The key of a book and the number of its author are left out, and its
other columns carry through. -/
theorem faithful_iff_book :
    book.names.Nodup ∧ book.Faithful
      ∧ book.toModel.attributes.map Prod.fst = ["title", "format", "added", "author"] := by
  have hnames : book.names.Nodup := by decide
  have htargets : ∀ rel ∈ book.relationships, rel.NamesTarget := by
    simp [book, Relationship.NamesTarget]
  refine ⟨hnames, (faithful_iff hnames).2.2.2.2.2 ⟨keysApart_book, namesEnums_book, htargets⟩, ?_⟩
  rw [(attributes_toModel hnames).1]
  decide

/-- The name of the reviewer of an article. -/
def reviewer : Property :=
  { key := "reviewer"
    column :=
      { table := "reviews", key := "author_id", type := .plain { classes := [.string] }
        nullable := false } }

/-- Articles joined with their reviews, where both tables have an
author. -/
def reviewedArticle : Mapper :=
  { name := "ReviewedArticle", globalId := .str "ReviewedArticle"
    columns :=
      [idProperty "articles", ⟨"review_id", (idProperty "reviews").column⟩,
        ⟨"author_id", foreignKey "articles" "author_id"⟩, reviewer]
    relationships :=
      [{ key := "author", target := "Author", direction := .manyToOne
         localColumns := [foreignKey "articles" "author_id"], usesList := false }] }

/-- The state of a post, an enumeration that is named by a number. -/
def status : Property :=
  { key := "status"
    column :=
      { table := "posts", key := "status", nullable := false
        type := .plain
          { classes := [.enumeration, .string], enums := [.str "draft", .str "live"] }
        info := [("enum_name", .int 5)] } }

/-- Posts and their states. -/
def post : Mapper :=
  { name := "Post", globalId := .str "Post", columns := [idProperty "posts", status] }

/-- The reviewer of an article is left out, although it carries no
relationship, since its column has the key of the one that does. And the
state of a post has no type that is read. -/
theorem joined_not_faithful :
    (reviewedArticle.names.Nodup
      ∧ reviewer ∈ reviewedArticle.columns
      ∧ reviewer.column.isPrimaryKey = false ∧ ¬reviewedArticle.Carries reviewer.column
      ∧ reviewedArticle.toModel.attributes.map Prod.fst = ["author"]
      ∧ ¬reviewedArticle.Faithful)
    ∧ post.names.Nodup
      ∧ post.toModel.attribute? "status" = some status.column.toAttribute
      ∧ status.column.toAttribute.typeFor .empty (.str "Post") "status" "query" ""
        = .error .wrongKind
      ∧ ¬post.Faithful := by
  have hnames : reviewedArticle.names.Nodup := by decide
  have hattributes := (attributes_toModel hnames).1
  have hreviewer : reviewer ∈ reviewedArticle.columns := by simp [reviewedArticle]
  have hcarries : ¬reviewedArticle.Carries reviewer.column := by
    simp [Carries, reviewedArticle, reviewer, foreignKey]
  have hstatus : post.toModel.attribute? "status" = some status.column.toAttribute := by rfl
  have hfails : status.column.toAttribute.typeFor .empty (.str "Post") "status" "query" ""
      = .error .wrongKind := by rfl
  refine ⟨⟨hnames, hreviewer, rfl, hcarries, ?_, fun hfaithful => ?_⟩, by decide, hstatus,
    hfails, fun hfaithful => ?_⟩
  · rw [hattributes]
    decide
  · obtain ⟨a, ha⟩ := (hfaithful.kept reviewer hreviewer).2 ⟨rfl, hcarries⟩
    rw [Model.attribute?, hattributes] at ha
    cases ha
  · have hcarried := hfaithful.carried status (by simp [post]) _ hstatus .empty "Post" "status"
    obtain ⟨t, ht⟩ := hcarried.found "query" ""
    cases hfails.symm.trans ht

end Mapper

-- ======================================================== declared classes

namespace Declared.Entity

variable {e : Entity} {entities : List Entity}

theorem carries_mapper {c : Relational.Column} (h : (e.mapper entities).Carries c) :
    ∃ d ∈ e.columns, e.column d = c := by
  obtain ⟨rel, hrel, hdirection, hc⟩ := h
  obtain ⟨declared, _, rfl⟩ := List.mem_map.1 hrel
  have hdirection : e.direction (tableOf entities declared.target) declared = .manyToOne :=
    hdirection
  unfold relationship at hc
  dsimp only at hc
  rw [if_pos hdirection] at hc
  obtain ⟨d, hd, hsame⟩ := List.mem_map.1 hc
  exact ⟨d, List.mem_of_mem_filter hd, hsame⟩

/-- The columns of a class with a table of its own can be told by their
keys. -/
theorem keysApart_mapper (entities : List Entity) (h : (e.columns.map Column.ownKey).Nodup) :
    (e.mapper entities).KeysApart := by
  intro p hp _ c hc hsame
  obtain ⟨d, hd, rfl⟩ := carries_mapper hc
  obtain ⟨d', hd', rfl⟩ := List.mem_map.1 hp
  obtain rfl := List.inj_on_of_nodup_map h hd hd' hsame
  exact hc

/-- What is declared of a class with a table of its own carries through to
its model, where columns have keys and attributes names of their own,
enumerations are named by texts, and relationships lead to classes with
names. -/
theorem faithful_mapper (entities : List Entity) (hkeys : (e.columns.map Column.ownKey).Nodup)
    (hnames : (e.columns.map Column.name ++ e.relationships.map Relationship.name).Nodup)
    (henums : ∀ d ∈ e.columns, (e.column d).NamesEnum)
    (htargets : ∀ rel ∈ e.relationships, rel.target ≠ "") : (e.mapper entities).Faithful := by
  have hmapper : (e.mapper entities).names
      = e.columns.map Column.name ++ e.relationships.map Relationship.name := by
    unfold Mapper.names mapper
    rw [List.map_map, List.map_map]
    rfl
  refine Mapper.faithful_of_keysApart (hmapper ▸ hnames) (keysApart_mapper entities hkeys)
    (fun p hp _ _ => ?_) fun rel hrel _ => ?_
  · obtain ⟨d, hd, rfl⟩ := List.mem_map.1 hp
    exact henums d hd
  · obtain ⟨declared, hdeclared, rfl⟩ := List.mem_map.1 hrel
    exact htargets declared hdeclared

end Declared.Entity

end Relational

end ModelSchema
