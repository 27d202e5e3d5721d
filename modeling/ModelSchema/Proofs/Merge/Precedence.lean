/-
Which source wins, and which source is told. The resolvers of all sources
are merged as a map of two levels, and who contributed them as a flat map
of names `Type.field`. Both go by the last source that has the entry: the
merged map by the laws of merging, the flat one because names without a
dot of their own can be read back from `Type.field` (`eq_of_dotted`). So
the two agree: a field is resolved by the last application module that
resolves it, else the last extension, else the last plugin, and it is that
one which is told (`collect_precedence`).
-/
import ModelSchema.Proofs.Merge.Reference
import ModelSchema.Proofs.Run

namespace ModelSchema

-- =========================================================== dotted names

/-- A name that holds no dot. -/
def Undotted (name : String) : Prop := '.' ∉ name.toList

instance (name : String) : Decidable (Undotted name) :=
  inferInstanceAs (Decidable ('.' ∉ name.toList))

/-- A text is parted by a dot in one way if there is no other dot. -/
theorem eq_of_dotted_lists {as bs as' bs' : List Char} (ha : '.' ∉ as) (hb : '.' ∉ bs)
    (h : as ++ '.' :: bs = as' ++ '.' :: bs') : as = as' ∧ bs = bs' := by
  rcases List.append_eq_append_iff.1 h with ⟨middle, rfl, hrest⟩ | ⟨middle, rfl, hrest⟩
  · cases middle with
    | nil => exact ⟨(List.append_nil as).symm, (List.cons.inj hrest).2⟩
    | cons c middle =>
        obtain ⟨_, rfl⟩ := List.cons.inj hrest
        exact absurd (List.mem_append_right middle List.mem_cons_self) hb
  · cases middle with
    | nil => exact ⟨List.append_nil as', (List.cons.inj hrest).2.symm⟩
    | cons c middle =>
        obtain ⟨rfl, _⟩ := List.cons.inj hrest
        exact absurd (List.mem_append_right as' List.mem_cons_self) ha

/-- The name of a resolver tells its type and its field. -/
theorem eq_of_dotted {type field type' field' : String} (htype : Undotted type)
    (hfield : Undotted field) (h : type ++ "." ++ field = type' ++ "." ++ field') :
    type = type' ∧ field = field' := by
  have hlist := congrArg String.toList h
  simp only [String.toList_append, List.append_assoc] at hlist
  obtain ⟨ht, hf⟩ := eq_of_dotted_lists htype hfield hlist
  exact ⟨String.toList_inj.1 ht, String.toList_inj.1 hf⟩

-- ==================================================== maps with plain names

/-- A map of two levels that repeats no key and holds no dot in its
names. -/
structure SectionMap.Undotted (m : SectionMap) : Prop where
  maps : m.AllMaps
  wellFormed : m.WellFormed
  types : ∀ e ∈ m, ∃ type, e.1 = .ofText type ∧ ModelSchema.Undotted type
  fields : ∀ e ∈ m, ∀ field ∈ e.2.fields, ModelSchema.Undotted field.1

/-- The names of resolvers tell which entries there are. -/
theorem Fragment.mem_resolverNames_iff {m : SectionMap} (h : m.Undotted) (type field : String) :
    type ++ "." ++ field ∈ resolverNames m
      ↔ (Assoc.get? (m.fieldsOf (.ofText type)) field).isSome = true := by
  unfold resolverNames SectionMap.fieldsOf
  rw [List.mem_flatMap]
  constructor
  · rintro ⟨⟨key, s⟩, hs, hname⟩
    obtain ⟨⟨field', entry⟩, hentry, hname⟩ := List.mem_map.1 hname
    obtain ⟨type', hkey, htype⟩ := h.types _ hs
    obtain rfl : key = .ofText type' := hkey
    obtain ⟨rfl, rfl⟩ := eq_of_dotted htype (h.fields _ hs _ hentry) hname
    have hsection := Assoc.get?_of_mem h.wellFormed.types hs
    have hfield := Assoc.get?_of_mem (h.wellFormed.fields _ hs) hentry
    rw [hsection, Option.map_some, Option.getD_some, hfield]
    rfl
  · intro hsome
    obtain ⟨entry, hentry⟩ := Option.isSome_iff_exists.1 hsome
    cases hsection : Assoc.get? m (.ofText type) with
    | none =>
        rw [hsection] at hentry
        cases hentry
    | some s =>
        rw [hsection, Option.map_some, Option.getD_some] at hentry
        obtain ⟨key, hs, hkey⟩ := Assoc.mem_of_get?_eq_some hsection
        obtain ⟨field', hfield, hsame⟩ := Assoc.mem_of_get?_eq_some hentry
        obtain ⟨type', htype', _⟩ := h.types _ hs
        obtain rfl : key = .ofText type' := htype'
        rw [Key.ofText_beq] at hkey
        refine ⟨_, hs, List.mem_map.2 ⟨_, hfield, ?_⟩⟩
        rw [eq_of_beq hkey, eq_of_beq hsame]
        rfl

/-- The name of a resolver is that of a type and a field. -/
theorem Fragment.exists_dotted {m : SectionMap} {name : String} (hname : name ∈ resolverNames m) :
    ∃ type field, name = type ++ "." ++ field := by
  obtain ⟨⟨key, s⟩, hs, hname⟩ := List.mem_flatMap.1 hname
  obtain ⟨⟨field, entry⟩, _, rfl⟩ := List.mem_map.1 hname
  exact ⟨key.value.text, field, rfl⟩

-- ============================================================== documents

namespace Value

/-- What a document resolves a field with: the value under `resolver`, the
type and the field. -/
def resolverOf? (document : Value) (type field : String) : Option Value :=
  (((document.entries?.bind fun settings => (getD settings "resolver").entries?).bind
    fun types => (getD types type).entries?).bind fun fields => Assoc.get? fields field)

/-- The resolvers of a document, if it has any, are written as types with
fields under each, by names that hold no dot. -/
def NamesResolvers (document : Value) : Prop :=
  ∀ settings, document = .map settings → (getD settings "resolver").isGiven = true →
    ∃ types, getD settings "resolver" = .map types ∧ Assoc.Distinct types
      ∧ ∀ e ∈ types, Undotted e.1
        ∧ ∃ fields, e.2 = .map fields ∧ Assoc.Distinct fields ∧ ∀ e' ∈ fields, Undotted e'.1

/-- The settings of a document are those that it is written with; what is
not given has none. -/
theorem settingsIfGiven_eq_ok {document : Value} {settings : List (String × Value)}
    (h : document.settingsIfGiven = .ok settings) :
    document = .map settings ∨ document.isGiven = false ∧ settings = [] := by
  unfold settingsIfGiven at h
  cases hgiven : document.isGiven with
  | false =>
      rw [hgiven] at h
      cases h
      exact Or.inr ⟨rfl, rfl⟩
  | true =>
      rw [hgiven, if_pos rfl] at h
      cases document with
      | map entries =>
          cases h
          exact Or.inl rfl
      | _ => cases h

/-- A map that is not given has no entries. -/
theorem bind_entries?_of_not_given {α : Type} {v : Value} (h : v.isGiven = false)
    {f : List (String × Value) → Option α} (hf : f [] = none) : v.entries?.bind f = none := by
  cases v with
  | map entries =>
      obtain rfl : entries = [] := by simpa [isGiven] using h
      exact hf
  | _ => rfl

/-- The resolvers that are read of a document are those that it is written
with. -/
theorem resolvers_written {document : Value} (hnames : document.NamesResolvers)
    {settings : List (String × Value)} (hsettings : document.settingsIfGiven = .ok settings)
    {pairs : List (Key × Value)} (hpairs : (getD settings "resolver").pairsIfGiven = .ok pairs) :
    ∃ types, pairs = Key.ofTextEntries types ∧ Assoc.Distinct types
      ∧ (∀ e ∈ types, Undotted e.1
        ∧ ∃ fields, e.2 = .map fields ∧ Assoc.Distinct fields ∧ ∀ e' ∈ fields, Undotted e'.1)
      ∧ ∀ type field, document.resolverOf? type field
          = ((getD types type).entries?).bind fun fields => Assoc.get? fields field := by
  cases hgiven : (getD settings "resolver").isGiven with
  | true =>
      have hdocument : document = .map settings := by
        rcases settingsIfGiven_eq_ok hsettings with hmap | ⟨_, rfl⟩
        · exact hmap
        · cases hgiven
      obtain ⟨types, hresolver, hdistinct, htypes⟩ := hnames settings hdocument hgiven
      unfold pairsIfGiven at hpairs
      rw [if_pos hgiven, hresolver] at hpairs
      cases hpairs
      refine ⟨types, rfl, hdistinct, htypes, fun type field => ?_⟩
      rw [hdocument]
      unfold resolverOf?
      rw [entries?, Option.bind_some, hresolver]
      rfl
  | false =>
      unfold pairsIfGiven at hpairs
      rw [if_neg (Bool.eq_false_iff.1 hgiven)] at hpairs
      cases hpairs
      refine ⟨[], rfl, Assoc.distinct_nil, fun _ he => (by cases he), fun type field => ?_⟩
      have hnone : (document.entries?.bind fun settings => (getD settings "resolver").entries?).bind
          (fun types => (getD types type).entries?) = none := by
        rcases settingsIfGiven_eq_ok hsettings with rfl | ⟨hnot, rfl⟩
        · exact bind_entries?_of_not_given hgiven rfl
        · rw [bind_entries?_of_not_given hnot rfl]
          rfl
      unfold resolverOf?
      rw [hnone]
      rfl

end Value

namespace SectionMap

variable {types : List (String × Value)}

/-- A written map of types and fields has plain names if they are
written so. -/
theorem undotted_ofPairs (place : Nat) (hdistinct : Assoc.Distinct types)
    (h : ∀ e ∈ types, ModelSchema.Undotted e.1 ∧ ∃ fields, e.2 = .map fields
      ∧ Assoc.Distinct fields ∧ ∀ e' ∈ fields, ModelSchema.Undotted e'.1) :
    (ofPairs place (Key.ofTextEntries types)).Undotted := by
  have hmap : ofPairs place (Key.ofTextEntries types)
      = types.map fun e => (Key.ofText e.1, Section.ofValue place e.2) := List.map_map
  rw [hmap]
  have hsections : ∀ s ∈ types.map fun e => (Key.ofText e.1, Section.ofValue place e.2),
      s.2.IsMap ∧ Assoc.Distinct s.2.fields
        ∧ (∃ type, s.1 = .ofText type ∧ ModelSchema.Undotted type)
        ∧ ∀ field ∈ s.2.fields, ModelSchema.Undotted field.1 := by
    intro s hs
    obtain ⟨⟨type, v⟩, he, rfl⟩ := List.mem_map.1 hs
    obtain ⟨htype, fields, hv, hfields, hnames⟩ := h _ he
    obtain rfl : v = .map fields := hv
    refine ⟨trivial, ?_, ⟨type, rfl, htype⟩, fun field hfield => ?_⟩
    · exact Assoc.distinct_map (f := id) (fun _ _ => rfl)
        (fun v => (⟨.given v, some place⟩ : Entry)) hfields
    · obtain ⟨e', he', rfl⟩ := List.mem_map.1 hfield
      exact hnames e' he'
  exact {
    maps := fun s hs => (hsections s hs).1
    wellFormed := {
      types := Assoc.distinct_map Key.ofText_beq _ hdistinct
      fields := fun s hs => (hsections s hs).2.1 }
    types := fun s hs => (hsections s hs).2.2.1
    fields := fun s hs => (hsections s hs).2.2.2 }

/-- A written map has the entries that are written. -/
theorem get?_fieldsOf_ofPairs (place : Nat)
    (types : List (String × Value)) (type field : String) :
    Assoc.get? ((ofPairs place (Key.ofTextEntries types)).fieldsOf (.ofText type)) field
      = (((Value.getD types type).entries?).bind fun fields => Assoc.get? fields field).map
          fun v => ⟨.given v, some place⟩ := by
  have hmap : ofPairs place (Key.ofTextEntries types)
      = types.map fun e => (Key.ofText e.1, Section.ofValue place e.2) := List.map_map
  unfold fieldsOf Value.getD
  rw [hmap, Assoc.get?_map Key.ofText_beq]
  cases Assoc.get? types type with
  | none => rfl
  | some v =>
      cases v with
      | map fields =>
          exact Assoc.get?_map (f := id) (fun _ _ => rfl)
            (fun v => (⟨.given v, some place⟩ : Entry)) fields field
      | _ => rfl

end SectionMap

namespace Fragment

-- ================================================================ sources

/-- A document of a source, written at a place. -/
structure SourceDocument where
  name : String
  place : Nat
  document : Value

/-- What the source contributes. -/
def SourceDocument.contribution (d : SourceDocument) : String × Contribution :=
  (d.name, .document d.place d.document)

/-- The last of documents that resolves a field, with what it resolves it
with. -/
def lastResolving (documents : List SourceDocument) (type field : String) :
    Option (SourceDocument × Value) :=
  documents.reverse.findSome? fun d => (d.document.resolverOf? type field).map fun v => (d, v)

/-- Who resolves a field, and with what: the last application module that
does, else the last extension, else the last plugin. -/
def resolving (plugins extensions apis : List SourceDocument) (type field : String) :
    Option (Source × Value) :=
  match lastResolving apis type field with
  | some (d, v) => some ({ api := some d.name }, v)
  | none =>
      match lastResolving extensions type field with
      | some (d, v) => some ({ plugin := some d.name }, v)
      | none => (lastResolving plugins type field).map fun (d, v) => ({ plugin := some d.name }, v)

/-- All documents in the order in which they are merged, each with the
source that is told. -/
def attributions (plugins extensions apis : List SourceDocument) :
    List (Source × SourceDocument) :=
  plugins.map (fun d => ({ plugin := some d.name }, d))
    ++ extensions.map (fun d => ({ plugin := some d.name }, d))
    ++ apis.map fun d => ({ api := some d.name }, d)

theorem map_snd_attributions (plugins extensions apis : List SourceDocument) :
    (attributions plugins extensions apis).map Prod.snd = plugins ++ extensions ++ apis := by
  simp only [attributions, List.map_append, List.map_map, Function.comp_def, List.map_id_fun', id]

/-- Who resolves a field is the last of all documents that resolves it. -/
theorem resolving_eq (plugins extensions apis : List SourceDocument) (type field : String) :
    resolving plugins extensions apis type field
      = (attributions plugins extensions apis).reverse.findSome? fun e =>
          (e.2.document.resolverOf? type field).map fun v => (e.1, v) := by
  have last : ∀ (documents : List SourceDocument) (source : SourceDocument → Source),
      ((documents.map fun d => (source d, d)).reverse.findSome? fun e =>
          (e.2.document.resolverOf? type field).map fun v => (e.1, v))
        = (lastResolving documents type field).map fun (d, v) => (source d, v) := by
    intro documents source
    rw [← List.map_reverse, List.findSome?_map, lastResolving, List.map_findSome?]
    refine congrArg (List.findSome? · documents.reverse) (funext fun d => ?_)
    show (d.document.resolverOf? type field).map _
      = ((d.document.resolverOf? type field).map _).map _
    rw [Option.map_map]
    rfl
  unfold attributions
  rw [List.reverse_append, List.reverse_append, List.findSome?_append, List.findSome?_append,
    last, last, last]
  unfold resolving
  cases lastResolving apis type field with
  | some w => rfl
  | none =>
      cases lastResolving extensions type field with
      | some w => rfl
      | none => rfl

/-- What a fragment has from the document of a source. -/
structure IsFrom (e : Source × SourceDocument) (f : Fragment) : Prop where
  resolver : f.resolver.Undotted
  entry : ∀ type field, Assoc.get? (f.resolver.fieldsOf (.ofText type)) field
    = (e.2.document.resolverOf? type field).map fun v => ⟨.given v, some e.2.place⟩
  distinct : Assoc.Distinct f.sources
  source : ∀ name, Assoc.get? f.sources name
    = if name ∈ resolverNames f.resolver then some e.1 else none

/-- A document that is accepted gives a fragment whose resolvers are those
of the document, all attributed to its source. -/
theorem exists_isFrom {source : Source} (hsource : source ≠ {}) {d : SourceDocument}
    (hread : ∃ f, ofDocument d.place d.document = .ok f) (hnames : d.document.NamesResolvers) :
    ∃ f, ofContribution source (.document d.place d.document) = .ok f ∧ IsFrom (source, d) f := by
  obtain ⟨f, hf⟩ := hread
  have hattributed : ofContribution source (.document d.place d.document)
      = .ok (f.attributed source) := by
    refine bind_eq_ok.2 ⟨f, hf, ?_⟩
    rw [if_neg hsource]
    rfl
  obtain ⟨settings, hsettings, hf⟩ := bind_eq_ok.1 hf
  obtain ⟨_, _, hf⟩ := bind_eq_ok.1 hf
  obtain ⟨_, _, hf⟩ := bind_eq_ok.1 hf
  obtain ⟨_, _, hf⟩ := bind_eq_ok.1 hf
  obtain ⟨_, _, hf⟩ := bind_eq_ok.1 hf
  obtain ⟨_, _, hf⟩ := bind_eq_ok.1 hf
  obtain ⟨pairs, hpairs, hf⟩ := bind_eq_ok.1 hf
  cases hf
  obtain ⟨types, rfl, hdistinct, htypes, hresolverOf⟩ :=
    Value.resolvers_written hnames hsettings hpairs
  refine ⟨_, hattributed, ?_⟩
  exact {
    resolver := SectionMap.undotted_ofPairs d.place hdistinct htypes
    entry := fun type field => by
      show Assoc.get? (SectionMap.fieldsOf _ _) field = (d.document.resolverOf? type field).map _
      rw [hresolverOf]
      exact SectionMap.get?_fieldsOf_ofPairs d.place types type field
    distinct := Assoc.distinct_putAll _ Assoc.distinct_nil
    source := fun name => Assoc.get?_putAll_const source _ [] name }

/-- The documents of one kind of sources are collected one by one. -/
theorem exists_mapM_isFrom (source : String → Source) (hsource : ∀ name, source name ≠ {})
    {documents : List SourceDocument}
    (h : ∀ d ∈ documents, (∃ f, ofDocument d.place d.document = .ok f)
      ∧ d.document.NamesResolvers) :
    ∃ fs, ((documents.map SourceDocument.contribution).mapM
        fun e => ofContribution (source e.1) e.2) = .ok fs
      ∧ List.Forall₂ IsFrom (documents.map fun d => (source d.name, d)) fs := by
  induction documents with
  | nil => exact ⟨[], rfl, List.Forall₂.nil⟩
  | cons d documents ih =>
      obtain ⟨hread, hnames⟩ := h d List.mem_cons_self
      obtain ⟨f, hf, hfrom⟩ := exists_isFrom (hsource d.name) hread hnames
      obtain ⟨fs, hfs, hrest⟩ := ih fun d' hd' => h d' (List.mem_cons_of_mem d hd')
      refine ⟨f :: fs, ?_, List.Forall₂.cons hfrom hrest⟩
      rw [List.map_cons, List.mapM_cons]
      exact bind_eq_ok.2 ⟨f, hf, bind_eq_ok.2 ⟨fs, hfs, rfl⟩⟩

variable {plugins extensions apis : List SourceDocument}

/-- Documents that are accepted are collected in the order in which they
are merged. -/
theorem exists_collect (h : ∀ d ∈ plugins ++ extensions ++ apis,
      (∃ f, ofDocument d.place d.document = .ok f) ∧ d.document.NamesResolvers) :
    ∃ fs, collect (plugins.map SourceDocument.contribution)
        (extensions.map SourceDocument.contribution) (apis.map SourceDocument.contribution) = .ok fs
      ∧ List.Forall₂ IsFrom (attributions plugins extensions apis) fs := by
  obtain ⟨fs, hfs, hfrom⟩ := exists_mapM_isFrom (fun name => { plugin := some name })
    (fun name => by simp) fun d (hd : d ∈ plugins) =>
      h d (List.mem_append_left _ (List.mem_append_left _ hd))
  obtain ⟨gs, hgs, hfrom'⟩ := exists_mapM_isFrom (fun name => { plugin := some name })
    (fun name => by simp) fun d (hd : d ∈ extensions) =>
      h d (List.mem_append_left _ (List.mem_append_right _ hd))
  obtain ⟨ks, hks, hfrom''⟩ := exists_mapM_isFrom (fun name => { api := some name })
    (fun name => by simp) fun d (hd : d ∈ apis) => h d (List.mem_append_right _ hd)
  refine ⟨fs ++ gs ++ ks, ?_, List.rel_append (List.rel_append hfrom hfrom') hfrom''⟩
  exact bind_eq_ok.2 ⟨fs, hfs, bind_eq_ok.2 ⟨gs, hgs, bind_eq_ok.2 ⟨ks, hks, rfl⟩⟩⟩

section

variable {rows : List (Source × SourceDocument)} {fs : List Fragment}

/-- A merged resolver is that of the last document that has it. -/
theorem get?_resolver_merge (h : List.Forall₂ IsFrom rows fs) (type field : String) :
    Assoc.get? ((merge fs).resolversFor (.ofText type)) field
      = rows.reverse.findSome? fun e => (e.2.document.resolverOf? type field).map
          fun v => ⟨.given v, some e.2.place⟩ := by
  have hmerged : SectionMap.MergedFrom (fs.map resolver) (merge fs).resolver := by
    rw [merge_resolver]
    refine SectionMap.mergedFrom_foldl fun part hpart => ?_
    obtain ⟨f, hf, rfl⟩ := List.mem_map.1 hpart
    obtain ⟨e, _, hfrom⟩ := exists_of_mem_right h hf
    exact ⟨hfrom.resolver.maps, hfrom.resolver.wellFormed⟩
  unfold resolversFor
  rw [hmerged.entry, ← List.map_reverse, List.findSome?_map]
  refine (findSome?_eq_of_forall₂ ?_).symm
  rw [List.forall₂_reverse_iff]
  exact h.imp fun e f hfrom => (hfrom.entry type field).symm

/-- Who is told of a name is the last source with a resolver of that
name. -/
theorem get?_sources_merge (h : List.Forall₂ IsFrom rows fs) (name : String) :
    Assoc.get? (merge fs).sources name
      = fs.reverse.findSome? fun f => Assoc.get? f.sources name := by
  have hdistinct : ∀ part ∈ fs.map sources, Assoc.Distinct part := by
    intro part hpart
    obtain ⟨f, hf, rfl⟩ := List.mem_map.1 hpart
    obtain ⟨e, _, hfrom⟩ := exists_of_mem_right h hf
    exact hfrom.distinct
  rw [merge_sources, Assoc.get?_foldl_putAll hdistinct, ← List.map_reverse, List.findSome?_map]
  exact Option.or_none

/-- Who is told of the name of a field is the last source whose document
resolves the field. -/
theorem get?_sources_merge_dotted (h : List.Forall₂ IsFrom rows fs) (type field : String) :
    Assoc.get? (merge fs).sources (type ++ "." ++ field)
      = rows.reverse.findSome? fun e =>
          (e.2.document.resolverOf? type field).map fun _ => e.1 := by
  rw [get?_sources_merge h]
  refine (findSome?_eq_of_forall₂ ?_).symm
  rw [List.forall₂_reverse_iff]
  refine h.imp fun e f hfrom => ?_
  have hentry := hfrom.entry type field
  have hnames := mem_resolverNames_iff hfrom.resolver type field
  rw [hentry, Option.isSome_map] at hnames
  rw [hfrom.source]
  cases hresolver : e.2.document.resolverOf? type field with
  | none =>
      rw [hresolver] at hnames
      rw [if_neg fun hmem => Bool.false_ne_true (hnames.1 hmem)]
      rfl
  | some v =>
      rw [hresolver] at hnames
      rw [if_pos (hnames.2 rfl)]
      rfl

/-- A name that someone is told of is that of a merged resolver. -/
theorem exists_resolver_of_mem_sources (h : List.Forall₂ IsFrom rows fs) {name : String}
    (hname : name ∈ (merge fs).sources.map Prod.fst) :
    ∃ type field, name = type ++ "." ++ field
      ∧ (Assoc.get? ((merge fs).resolversFor (.ofText type)) field).isSome = true := by
  have hsome : (Assoc.get? (merge fs).sources name).isSome = true := by
    rw [Option.isSome_iff_ne_none, ne_eq, Assoc.get?_eq_none_iff,
      (Assoc.has_iff_mem_keys _ _).2 hname]
    exact Bool.noConfusion
  rw [get?_sources_merge h, List.findSome?_isSome_iff] at hsome
  obtain ⟨f, hf, hsource⟩ := hsome
  obtain ⟨e, he, hfrom⟩ := exists_of_mem_right h (List.mem_reverse.1 hf)
  have hmem : name ∈ resolverNames f.resolver := by
    by_contra hnot
    rw [hfrom.source, if_neg hnot] at hsource
    cases hsource
  obtain ⟨type, field, rfl⟩ := exists_dotted hmem
  refine ⟨type, field, rfl, ?_⟩
  have hentry := (mem_resolverNames_iff hfrom.resolver type field).1 hmem
  rw [hfrom.entry, Option.isSome_map] at hentry
  rw [get?_resolver_merge h, List.findSome?_isSome_iff]
  exact ⟨e, List.mem_reverse.2 he, by rw [Option.isSome_map, hentry]⟩

end

/-- The merged resolver of a field and the source that is told of it are
those of the last application module that resolves the field, else of the
last extension, else of the last plugin; and no source is told of anything
else than a merged resolver. -/
theorem collect_precedence (h : ∀ d ∈ plugins ++ extensions ++ apis,
      (∃ f, ofDocument d.place d.document = .ok f) ∧ d.document.NamesResolvers) :
    ∃ fs, collect (plugins.map SourceDocument.contribution)
        (extensions.map SourceDocument.contribution) (apis.map SourceDocument.contribution) = .ok fs
      ∧ (∀ type field,
          (Assoc.get? ((merge fs).resolversFor (.ofText type)) field).map Entry.content
              = (resolving plugins extensions apis type field).map fun w => .given w.2)
      ∧ (∀ type field, Assoc.get? (merge fs).sources (type ++ "." ++ field)
          = (resolving plugins extensions apis type field).map Prod.fst)
      ∧ (∀ type field, (resolving plugins extensions apis type field).isSome = true
          ↔ ∃ d ∈ plugins ++ extensions ++ apis,
              (d.document.resolverOf? type field).isSome = true)
      ∧ ∀ name ∈ (merge fs).sources.map Prod.fst, ∃ type field, name = type ++ "." ++ field
          ∧ (Assoc.get? ((merge fs).resolversFor (.ofText type)) field).isSome = true := by
  obtain ⟨fs, hfs, hrows⟩ := exists_collect h
  refine ⟨fs, hfs, fun type field => ?_, fun type field => ?_, fun type field => ?_,
    fun name => exists_resolver_of_mem_sources hrows⟩
  · rw [get?_resolver_merge hrows, resolving_eq, List.map_findSome?, List.map_findSome?]
    refine congrArg (List.findSome? · _) (funext fun e => ?_)
    simp only [Function.comp, Option.map_map]
    rfl
  · rw [get?_sources_merge_dotted hrows, resolving_eq, List.map_findSome?]
    refine congrArg (List.findSome? · _) (funext fun e => ?_)
    simp only [Function.comp, Option.map_map]
    rfl
  · rw [resolving_eq, List.findSome?_isSome_iff, ← map_snd_attributions]
    simp only [List.mem_reverse, List.mem_map, Option.isSome_map]
    constructor
    · rintro ⟨e, he, hsome⟩
      exact ⟨e.2, ⟨e, he, rfl⟩, hsome⟩
    · rintro ⟨_, ⟨e, he, rfl⟩, hsome⟩
      exact ⟨e, he, hsome⟩

/-- A document that resolves fields by callables. -/
def resolverDocument (definition : String) (resolvers : List (String × List (String × String))) :
    Value :=
  .map [("definition", .str definition),
    ("resolver", .map (resolvers.map fun (type, fields) =>
      (type, .map (fields.map fun (field, name) => (field, .callable name)))))]

/-- A plugin that resolves two queries. -/
def filesPlugin : SourceDocument :=
  ⟨"upload", 0, resolverDocument "type File \x7b id: ID! \x7d"
    [("Query", [("page", "plain"), ("files", "all")])]⟩

/-- An extension that resolves one of them, and a field of its own. -/
def usersExtension : SourceDocument :=
  ⟨"users", 1, resolverDocument "" [("User", [("name", "full")]), ("Query", [("page", "own")])]⟩

/-- An application module that resolves the same query. -/
def siteModule : SourceDocument :=
  ⟨"site", 2, resolverDocument "" [("Query", [("page", "cached")])]⟩

theorem namesResolvers_resolverDocument (definition : String)
    {resolvers : List (String × List (String × String))} (hdistinct : Assoc.Distinct resolvers)
    (h : ∀ e ∈ resolvers, Undotted e.1 ∧ Assoc.Distinct e.2 ∧ ∀ e' ∈ e.2, Undotted e'.1) :
    (resolverDocument definition resolvers).NamesResolvers := by
  intro settings hsettings _
  cases hsettings
  refine ⟨_, rfl, ?_, fun e he => ?_⟩
  · exact Assoc.distinct_map (f := id) (fun _ _ => rfl)
      (fun fields => Value.map (fields.map fun (field, name) => (field, .callable name))) hdistinct
  · obtain ⟨⟨type, fields⟩, hmem, rfl⟩ := List.mem_map.1 he
    obtain ⟨htype, hfields, hnames⟩ := h _ hmem
    refine ⟨htype, _, rfl, ?_, fun e' he' => ?_⟩
    · exact Assoc.distinct_map (f := id) (fun _ _ => rfl) Value.callable hfields
    · obtain ⟨e'', he'', rfl⟩ := List.mem_map.1 he'
      exact hnames e'' he''

/-- The application module wins over the extension and the plugin, and is
told; what no one else resolves stays with its own source. -/
theorem collect_precedence_site :
    (∀ d ∈ [filesPlugin] ++ [usersExtension] ++ [siteModule],
        (∃ f, ofDocument d.place d.document = .ok f) ∧ d.document.NamesResolvers)
      ∧ ∃ fs, collect [filesPlugin.contribution] [usersExtension.contribution]
          [siteModule.contribution] = .ok fs
        ∧ (Assoc.get? ((merge fs).resolversFor (.ofText "Query")) "page").map Entry.content
            = some (.given (.callable "cached"))
        ∧ Assoc.get? (merge fs).sources "Query.page" = some { api := some "site" }
        ∧ Assoc.get? (merge fs).sources "Query.files" = some { plugin := some "upload" }
        ∧ Assoc.get? (merge fs).sources "User.name" = some { plugin := some "users" } := by
  have accepted : ∀ d ∈ [filesPlugin] ++ [usersExtension] ++ [siteModule],
      (∃ f, ofDocument d.place d.document = .ok f) ∧ d.document.NamesResolvers := by
    intro d hd
    simp only [List.cons_append, List.nil_append, List.mem_cons, List.not_mem_nil, or_false] at hd
    rcases hd with rfl | rfl | rfl
    · exact ⟨exists_of_toBool (by decide +kernel),
        namesResolvers_resolverDocument _ (by unfold Assoc.Distinct; decide)
          (by unfold Assoc.Distinct; decide)⟩
    · exact ⟨exists_of_toBool (by decide +kernel),
        namesResolvers_resolverDocument _ (by unfold Assoc.Distinct; decide)
          (by unfold Assoc.Distinct; decide)⟩
    · exact ⟨exists_of_toBool (by decide +kernel),
        namesResolvers_resolverDocument _ (by unfold Assoc.Distinct; decide)
          (by unfold Assoc.Distinct; decide)⟩
  obtain ⟨fs, hfs, hresolver, hsource, _⟩ := collect_precedence accepted
  refine ⟨accepted, fs, hfs, ?_, ?_, ?_, ?_⟩
  · rw [hresolver]
    rfl
  · exact hsource "Query" "page"
  · exact hsource "Query" "files"
  · exact hsource "User" "name"

end Fragment

end ModelSchema
