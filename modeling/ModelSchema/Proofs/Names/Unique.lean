/-
Unique names. Derived names tell their singulars, so they clash among each
other only where singulars are the same: whether a document declares a
name twice can be told from the names of the registry alone
(`document_names_unique_iff`). The registry compares only global ids, which
is not enough: two global ids may have one singular
(`article_names_clash`).
-/
import Mathlib.Data.List.Nodup
import ModelSchema.Proofs.Names.Document

namespace ModelSchema.Compiler

variable {c : Compiler}

-- ========================================================= derived names

/-- Derived names are the same only for the same end, and for entries with
the same singular. -/
theorem derivedName_inj {m m' : Model} {role role' : Role}
    (h : role.name m.base = role'.name m'.base) : role = role' ∧ m.singular = m'.singular := by
  obtain ⟨hrole, hbase⟩ := Role.name_inj m.takeWhile_base m'.takeWhile_base h
  exact ⟨hrole, Model.singular_of_base hbase⟩

/-- The names that an entry derives for different ends are different. -/
theorem nodup_derivedNames {m : Model} {roles : List Role} (h : roles.Nodup) :
    (m.derivedNames roles).Nodup :=
  List.Nodup.map (fun _ _ hname => (derivedName_inj hname).1) h

/-- Entries with different singulars derive different names. -/
theorem nodup_flatMap_derivedNames {owners : List (Model × List Role)}
    (hroles : ∀ e ∈ owners, e.2.Nodup) (h : (owners.map fun e => e.1.singular).Nodup) :
    (owners.flatMap fun e => e.1.derivedNames e.2).Nodup := by
  rw [List.nodup_flatMap]
  refine ⟨fun e he => nodup_derivedNames (hroles e he), ?_⟩
  refine (List.pairwise_map.1 h).imp fun {e e'} hne n hn hn' => ?_
  obtain ⟨role, _, rfl⟩ := List.mem_map.1 hn
  obtain ⟨role', _, hname⟩ := List.mem_map.1 hn'
  exact hne (derivedName_inj hname).2.symm

/-- Entries that derive different names for one end have different
singulars. -/
theorem nodup_singulars {owners : List (Model × List Role)}
    (hcreate : ∀ e ∈ owners, Role.create ∈ e.2)
    (h : (owners.flatMap fun e => e.1.derivedNames e.2).Nodup) :
    (owners.map fun e => e.1.singular).Nodup := by
  have hpairs := (List.nodup_flatMap.1 h).2
  refine List.pairwise_map.2 (hpairs.imp_of_mem fun {e e'} he he' hdisjoint hsame => ?_)
  have hbase : e.1.base = e'.1.base := congrArg Naming.upperFirst hsame
  refine hdisjoint (List.mem_map_of_mem (hcreate e he)) ?_
  rw [hbase]
  exact List.mem_map_of_mem (hcreate e' he')

/-- The ends of the derived names of a model are different. -/
theorem nodup_roles (m : Model) : (Model.inputRoles ++ m.mutationRoles).Nodup := by
  unfold Model.mutationRoles actions
  cases m.isSingleType <;> decide

theorem owners_spec : ∀ e ∈ c.owners, e.2.Nodup ∧ Role.create ∈ e.2 := by
  intro e he
  rcases List.mem_append.1 he with he | he
  · obtain ⟨m, _, rfl⟩ := List.mem_map.1 he
    show Model.inputRoles.Nodup ∧ Role.create ∈ Model.inputRoles
    decide
  · split at he
    · obtain ⟨m, _, rfl⟩ := List.mem_map.1 he
      exact ⟨nodup_roles m, List.mem_append_left _ (by decide)⟩
    · cases he

/-- The derived names of a registry are different exactly if the singulars
that they are derived from are. -/
theorem nodup_derivedNames_iff :
    c.derivedNames.Nodup ↔ (c.owners.map fun e => e.1.singular).Nodup :=
  ⟨nodup_singulars fun e he => (owners_spec e he).2,
    nodup_flatMap_derivedNames fun e he => (owners_spec e he).1⟩

/-- Models with different singulars have different mutations. -/
theorem nodup_mutationNames (h : (c.owners.map fun e => e.1.singular).Nodup) :
    c.mutationNames.Nodup := by
  unfold mutationNames
  unfold owners at h
  cases hshadow : c.config.shadowCrud with
  | false => exact List.nodup_nil
  | true =>
      rw [hshadow] at h
      -- mutations differ as the types of their arguments do
      refine List.Nodup.of_map (· ++ "Input") ?_
      have arguments : (c.models.flatMap Model.mutationNames).map (· ++ "Input")
          = (c.models.map fun m => (m, (actions m).map Role.argument)).flatMap
            fun e => e.1.derivedNames e.2 := by
        rw [List.map_flatMap, List.flatMap_map]
        refine List.flatMap_congr fun m _ => ?_
        unfold Model.mutationNames Model.derivedNames
        rw [List.map_map, List.map_map]
        rfl
      rw [if_pos rfl, arguments]
      refine nodup_flatMap_derivedNames (fun e he => ?_) ?_
      · obtain ⟨m, _, rfl⟩ := List.mem_map.1 he
        show ((actions m).map Role.argument).Nodup
        unfold actions
        cases m.isSingleType <;> decide
      · rw [if_pos rfl, List.map_append] at h
        have models := (List.nodup_append.1 h).2.1
        rw [List.map_map] at models ⊢
        exact models

-- ========================================================= the document

/-- The names of a registry are apart: those that are not derived are
different, no two entries with derived names have the same singular, no
derived name is one of the others, and the query fields are different. -/
structure NamesApart (c : Compiler) : Prop where
  own : c.ownNames.Nodup
  singulars : (c.owners.map fun e => e.1.singular).Nodup
  derived : ∀ n ∈ c.derivedNames, n ∉ c.ownNames
  queries : c.queryNames.Nodup

/-- In a document compiled from a registry alone no type is declared twice
and no field occurs twice in a root type, exactly if the names of the
registry are apart. -/
theorem document_names_unique_iff (r : Registry) (visibility : Option Visibility) (config : Config)
    {p q : Progress} {s : CompiledSchema}
    (h : (ofRegistry r visibility config).build.Yields p s q) :
    ∃ o, (ofRegistry r visibility config).outline = .ok o ∧ s.sdl = o.sdl
      ∧ ((o.schema.map Declaration.typeName).Nodup
          ∧ (o.queries.map Declaration.Field.key).Nodup
          ∧ (o.mutations.map Declaration.Field.key).Nodup
        ↔ (ofRegistry r visibility config).NamesApart) := by
  obtain ⟨o, ho, _, hsdl, _⟩ := build_yields rfl h
  refine ⟨o, ho, hsdl, ?_⟩
  obtain ⟨os, hos, rfl⟩ := map_eq_ok.1 ho
  obtain ⟨hqueries, hmutations⟩ := rootNames_eq rfl hos
  rw [show (Outline.merge os).queries = os.flatMap Outline.queries from rfl, hqueries,
    show (Outline.merge os).mutations = os.flatMap Outline.mutations from rfl, hmutations,
    (typeNames_perm rfl hos).nodup_iff, List.nodup_append', nodup_derivedNames_iff]
  constructor
  · rintro ⟨⟨hown, hsingulars, hdisjoint⟩, hquery, _⟩
    exact ⟨hown, hsingulars, fun n hn hn' => hdisjoint hn' hn, hquery⟩
  · rintro ⟨hown, hsingulars, hderived, hquery⟩
    exact ⟨⟨hown, hsingulars, fun n hn hn' => hderived n hn' hn⟩, hquery,
      nodup_mutationNames hsingulars⟩

/-- A model with one attribute. -/
def plainModel (name globalId : String) : Model :=
  { name := .str name, globalId := .str globalId, attributes := [("t", { type := .str "string" })] }

/-- A registry of two models whose global ids have one singular. -/
def articleRegistry : Registry :=
  { models := [(.ofName "article", plainModel "article" "Article"),
      (.ofName "articles", plainModel "articles" "Articles")]
    claims := [(.ofText "Article", .str "article"), (.ofText "Articles", .str "articles")] }

theorem document_names_unique_article :
    ∃ s q, (ofRegistry articleRegistry none {}).build.Yields {} s q
      ∧ ∃ o, (ofRegistry articleRegistry none {}).outline = .ok o ∧ s.sdl = o.sdl
        ∧ ((o.schema.map Declaration.typeName).Nodup
            ∧ (o.queries.map Declaration.Field.key).Nodup
            ∧ (o.mutations.map Declaration.Field.key).Nodup
          ↔ (ofRegistry articleRegistry none {}).NamesApart) := by
  obtain ⟨s, q, h⟩ := Work.exists_yields
    (w := (ofRegistry articleRegistry none {}).build) (p := {}) (by decide +kernel)
  exact ⟨s, q, h, document_names_unique_iff articleRegistry none {} h⟩

/-- Both models are registered, and their names are names of GraphQL, but
they declare the same types, and have the same query. -/
theorem article_names_clash :
    (Registry.empty.register (plainModel "article" "Article") >>= fun r =>
        r.register (plainModel "articles" "Articles")) = .ok articleRegistry
      ∧ (∀ name ∈ ["Article", "Articles", "t"], Graphql.isName name = true)
      ∧ ∃ s q, (ofRegistry articleRegistry none {}).build.Yields {} s q
        ∧ ∃ o, (ofRegistry articleRegistry none {}).outline = .ok o ∧ s.sdl = o.sdl
          ∧ ¬ (o.schema.map Declaration.typeName).Nodup
          ∧ ¬ (o.queries.map Declaration.Field.key).Nodup
          ∧ ¬ (o.mutations.map Declaration.Field.key).Nodup := by
  refine ⟨rfl, by decide, ?_⟩
  obtain ⟨s, q, h⟩ := Work.exists_yields
    (w := (ofRegistry articleRegistry none {}).build) (p := {}) (by decide +kernel)
  obtain ⟨o, ho, _, hsdl, _⟩ := build_yields rfl h
  have clash : decide (¬ (o.schema.map Declaration.typeName).Nodup
      ∧ ¬ (o.queries.map Declaration.Field.key).Nodup
      ∧ ¬ (o.mutations.map Declaration.Field.key).Nodup) = true :=
    holds_of_eq_ok (p := fun o => decide (¬ (o.schema.map Declaration.typeName).Nodup
      ∧ ¬ (o.queries.map Declaration.Field.key).Nodup
      ∧ ¬ (o.mutations.map Declaration.Field.key).Nodup)) (by decide +kernel) ho
  exact ⟨s, q, h, o, ho, hsdl, of_decide_eq_true clash⟩

end ModelSchema.Compiler
