/-
When a schema is told to be empty. It is told by the entries of its query
type alone, and so is whether it is refused as empty (`refused_iff_isEmpty`).
Its document is what stands before the root types, and then the first of
these that has entries (`exists_rest`). So where what stands before them is a
document of its own, as it is for legible contributions, the verdict fits the
document, unless there are no entries for queries and a definition, or what
is written among the entries for mutations, is an object type for queries
(`isEmpty_fits_iff`).
-/
import ModelSchema.Executable
import ModelSchema.Proofs.Executable.BeforeRoots
import ModelSchema.Proofs.Executable.Faults

namespace ModelSchema

open Graphql (Definition Document Stops parse)

-- ================================================== texts between others

/-- Texts of which the first ones are joined already. -/
theorem intercalate_intercalate {sep : String} {first rest : List String} (hsome : first ≠ []) :
    sep.intercalate (first ++ rest) = sep.intercalate (sep.intercalate first :: rest) := by
  by_cases hrest : rest = []
  · subst hrest
    rw [List.append_nil, String.intercalate_singleton]
  · rw [String.intercalate_append_of_ne_nil hsome hrest, String.intercalate_cons_of_ne_nil hrest]

/-- Joined texts start with the first of them. -/
theorem exists_intercalate_cons (sep text : String) (rest : List String) :
    ∃ more, sep.intercalate (text :: rest) = text ++ more := by
  cases rest with
  | nil => exact ⟨"", by rw [String.intercalate_singleton, String.append_empty]⟩
  | cons next rest =>
      refine ⟨sep ++ sep.intercalate (next :: rest), ?_⟩
      rw [String.intercalate_cons_cons, String.append_assoc]

namespace CompiledSchema

-- ========================================================= the root types

variable (s : CompiledSchema)

/-- The root types of a schema that have entries. -/
def roots : List (String × List String) :=
  [(Morph.rootQuery, s.fragment.query), ("Mutation", s.fragment.mutation)].filter
    fun root => !root.2.isEmpty

/-- The text of a root type. -/
def rootText (root : String × List String) : String :=
  Sdl.renderBlock "type" root.1 (String.intercalate "\n" root.2) ""

variable {s} {c : Compiler} {p q : Progress} {root : String × List String}

/-- The text of a schema is what stands before its root types, and these. -/
theorem sdl_eq (h : c.build.Yields p s q) :
    s.sdl = String.intercalate "\n\n" (s.beforeRoots :: s.roots.map rootText) ++ "\n" := by
  obtain ⟨fs, union, _, _, _, _, _, hunion, hs⟩ := Compiler.build_inv h
  have hsdl : s.sdl = Compiler.assemble s.fragment union := by rw [hs]
  have hunionText : s.unionText = if union = "" then [] else [union] := by
    have hmorph : Morph.definition s.morph = .ok union := by
      rw [hs]
      exact hunion
    unfold unionText
    rw [hmorph]
  have hroots : s.roots.map rootText
      = (if s.fragment.query.isEmpty then [] else [rootText (Morph.rootQuery, s.fragment.query)])
        ++ (if s.fragment.mutation.isEmpty then []
          else [rootText ("Mutation", s.fragment.mutation)]) := by
    unfold roots
    cases s.fragment.query <;> cases s.fragment.mutation <;> rfl
  have hsome : [Scalar.declarations, Inputs.inputId] ++ s.fragment.definition ++ s.unionText ≠ [] :=
    List.cons_ne_nil _ _
  unfold beforeRoots
  rw [hsdl, ← intercalate_intercalate hsome, hroots, hunionText, ← List.append_assoc]
  rfl

theorem isName_root (h : root ∈ s.roots) : Graphql.isName root.1 = true := by
  have hname : root.1 = Morph.rootQuery ∨ root.1 = "Mutation" := by
    rcases List.mem_pair.1 (List.mem_of_mem_filter h) with rfl | rfl
    · exact Or.inl rfl
    · exact Or.inr rfl
  rcases hname with hname | hname
  · rw [hname]
    decide
  · rw [hname]
    decide

/-- The first root type of a schema is that of its queries, exactly if it is
not told to be empty. -/
theorem head?_roots_eq_query_iff :
    s.roots.head?.map Prod.fst = some Morph.rootQuery ↔ s.isEmpty = false := by
  unfold roots isEmpty
  cases s.fragment.query with
  | cons line lines => simp
  | nil =>
      cases s.fragment.mutation with
      | nil => simp
      | cons line lines => simp [Morph.rootQuery]

/-- The text of root types starts with the keyword and the name of the first
of them. -/
theorem exists_typeText (root : String × List String) (more : List String) :
    ∃ rest, String.intercalate "\n\n" (rootText root :: more) ++ "\n"
      = "type " ++ root.1 ++ rest ∧ Stops rest.toList := by
  obtain ⟨after, hafter⟩ := exists_intercalate_cons "\n\n" (rootText root) more
  refine ⟨" \x7b\n" ++ (String.intercalate "\n"
    ((Text.lines (String.intercalate "\n" root.2)).map Sdl.indent) ++ "\n\x7d" ++ after ++ "\n"),
    ?_, ?_⟩
  · have hword : "" ++ "type" ++ " " = "type " := rfl
    rw [hafter, rootText, Sdl.renderBlock, hword]
    simp only [String.append_assoc]
  · rw [String.toList_append]
    exact Graphql.stops_cons rfl _

/-- Where what stands before the root types is a document of its own, the
document of a schema has its definitions, and then an object type for the
first root that has entries, or nothing. -/
theorem exists_rest (h : c.build.Yields p s q) {d d₀ : Document} (hd : parse s.sdl = .ok d)
    (h₀ : parse s.beforeRoots = .ok d₀) :
    ∃ rest : Document, d = d₀ ++ rest
      ∧ rest.head?.bind Definition.objectTypeName? = s.roots.head?.map Prod.fst := by
  rw [sdl_eq h] at hd
  cases hroots : s.roots with
  | nil =>
      have hnone : ∀ {inComment ts}, Graphql.Spells inComment "".toList ts → ts = [] := by
        intro inComment ts hspells
        cases hspells with
        | nil => rfl
        | cons hskip => cases hskip
      have hempty : s.beforeRoots ++ "\n" ++ "" = s.beforeRoots ++ "\n" := String.append_empty
      rw [hroots, List.map_nil, String.intercalate_singleton, ← hempty] at hd
      obtain ⟨fuel, _, ts, rest, hspells, rfl, hdefines⟩ :=
        Graphql.exists_rest h₀ hd Graphql.stops_nil fun hspells => by
          rw [hnone hspells]
          exact ⟨Graphql.Parser.neutral_eof, Graphql.Token.noConfusion⟩
      rw [hnone hspells] at hdefines
      rcases hdefines with ⟨_, rfl⟩ | hdefines
      · exact ⟨[], rfl, rfl⟩
      · exact absurd rfl hdefines.starts.2
  | cons root more =>
      obtain ⟨rest, hrest, hstops⟩ := exists_typeText root (more.map rootText)
      rw [hroots, List.map_cons, String.intercalate_cons_cons, String.append_assoc, hrest] at hd
      have hname : Graphql.isName root.1 = true :=
        isName_root (by rw [hroots]; exact List.mem_cons_self)
      obtain ⟨x, added, rfl, hx⟩ := Graphql.exists_type hname hstops h₀ hd
      exact ⟨x :: added, rfl, hx⟩

/-- A schema is refused as empty exactly if it is told to be. -/
theorem refused_iff_isEmpty (s : CompiledSchema) :
    Executable.ofCompiled s = .error .emptySchema ↔ s.isEmpty = true := by
  unfold Executable.ofCompiled
  cases hempty : s.isEmpty with
  | true => exact iff_of_true rfl rfl
  | false =>
      refine iff_of_false (fun hrefused => ?_) Bool.false_ne_true
      rw [if_neg Bool.false_ne_true] at hrefused
      cases hparse : parse s.sdl with
      | error e =>
          rw [hparse] at hrefused
          cases hrefused
      | ok d =>
          rw [hparse] at hrefused
          dsimp only at hrefused
          cases hschema : Document.schema d with
          | error f =>
              rw [hschema] at hrefused
              cases hrefused
              exact absurd (Document.schema_faults d hschema) (by decide)
          | ok schema =>
              rw [hschema] at hrefused
              cases hrefused

/-- Where what stands before the root types is a document of its own, the
verdict fits the document, which has no object type for queries then, exactly
if neither what stands before the root types nor what follows defines one
while the schema has no entries for queries. -/
theorem fits_iff_of_parse (h : c.build.Yields p s q) {d d₀ : Document} (hd : parse s.sdl = .ok d)
    (h₀ : parse s.beforeRoots = .ok d₀) :
    ∃ rest : Document, d = d₀ ++ rest
      ∧ rest.head?.bind Definition.objectTypeName? = s.roots.head?.map Prod.fst
      ∧ ((s.isEmpty = true ↔ Morph.rootQuery ∉ Document.objectTypeNames d)
        ↔ (s.isEmpty = true → Morph.rootQuery ∉ Document.objectTypeNames d₀
          ∧ Morph.rootQuery ∉ Document.objectTypeNames rest)) := by
  obtain ⟨rest, rfl, hfirst⟩ := exists_rest h hd h₀
  have hnone : Morph.rootQuery ∉ Document.objectTypeNames (d₀ ++ rest)
      ↔ Morph.rootQuery ∉ Document.objectTypeNames d₀
        ∧ Morph.rootQuery ∉ Document.objectTypeNames rest := by
    unfold Document.objectTypeNames
    rw [List.filterMap_append, List.mem_append, not_or]
  -- entries for queries are a type of the document
  have hqueries : s.isEmpty = false → Morph.rootQuery ∈ Document.objectTypeNames rest := by
    intro hempty
    rw [head?_roots_eq_query_iff.2 hempty] at hfirst
    obtain ⟨x, hx, hname⟩ := Option.bind_eq_some_iff.1 hfirst
    exact List.mem_filterMap.2 ⟨x, List.mem_of_mem_head? hx, hname⟩
  refine ⟨rest, rfl, hfirst, ?_⟩
  rw [hnone]
  refine ⟨fun hfits => hfits.1, fun hempty => ⟨hempty, fun hnames => ?_⟩⟩
  cases hisEmpty : s.isEmpty with
  | true => rfl
  | false => exact absurd (hqueries hisEmpty) hnames.2

/-- Whether a schema is told to be empty, against its document. The schemas
that are refused as empty are those that are told to be. If what stands before
the root types is a document of its own, the verdict fits the document exactly
if a schema without entries for queries has no object type for queries, neither
there nor in what follows. And what stands there is a document of its own
wherever compiler and contributions are legible and no global id is the name of
that type; it defines that type exactly if a contributed entry does. -/
theorem isEmpty_fits_iff (h : c.build.Yields p s q) {d : Document} (hd : parse s.sdl = .ok d) :
    (Executable.ofCompiled s = .error .emptySchema ↔ s.isEmpty = true)
      ∧ (∀ d₀, parse s.beforeRoots = .ok d₀ → ∃ rest : Document, d = d₀ ++ rest
        ∧ rest.head?.bind Definition.objectTypeName? = s.roots.head?.map Prod.fst
        ∧ ((s.isEmpty = true ↔ Morph.rootQuery ∉ Document.objectTypeNames d)
          ↔ (s.isEmpty = true → Morph.rootQuery ∉ Document.objectTypeNames d₀
            ∧ Morph.rootQuery ∉ Document.objectTypeNames rest)))
      ∧ ∀ fs, c.Legible fs → (∀ m ∈ c.entries, m.globalId ≠ .str Morph.rootQuery) →
        ∃ d₀, parse s.beforeRoots = .ok d₀ ∧ (Morph.rootQuery ∈ Document.objectTypeNames d₀
          ↔ ∃ f ∈ fs, ∃ e ∈ f.definition, ∃ d', parse e = .ok d'
            ∧ Morph.rootQuery ∈ Document.objectTypeNames d') :=
  ⟨refused_iff_isEmpty s, fun _ h₀ => fits_iff_of_parse h hd h₀,
    fun _ hc hids => exists_legible hc hids h⟩

/-- The compiler of a registry with one contribution, and without operations
of its own. -/
def compilerOf (r : Registry) (f : Fragment) : Compiler :=
  .ofFragments r [f] none { shadowCrud := false }

/-- A registry of notes that have this attribute. -/
def noteRegistry (field : String) : Registry :=
  { models := [(.ofName "note", { name := .str "note", globalId := .str "Note"
                                  attributes := [(field, { type := .str "string" })] })]
    claims := [(.ofText "Note", .str "note")] }

/-- A type of its own, and a query for it. -/
def pingFragment : Fragment :=
  { definition := ["type Pong \x7b at: String \x7d"], query := ["ping: Pong"]
    objectTypes := [.ofText "Pong"] }

theorem legible_ping : (compilerOf (noteRegistry "text") pingFragment).Legible [pingFragment] where
  contributed := rfl
  names := by
    have hsingular : Graphql.isName (Naming.toSingular "Note") = true := by decide +kernel
    refine ⟨List.forall_mem_singleton.2 ⟨"Note", rfl, rfl⟩, List.forall_mem_singleton.2 hsingular,
      List.forall_mem_singleton.2 fun e he => ?_, List.forall_mem_singleton.2 fun e he => ?_⟩
    · cases List.mem_singleton.1 he
      rfl
    · cases he
  enums := by decide +kernel
  configured := List.forall_mem_singleton.2 ⟨0,
    .map [("definition", .str "type Pong \x7b at: String \x7d"), ("query", .str "ping: Pong")], {},
    by decide +kernel⟩
  bodies := List.IsChain.singleton _

theorem isEmpty_fits_iff_ping :
    ∃ s q d, (compilerOf (noteRegistry "text") pingFragment).build.Yields {} s q
      ∧ parse s.sdl = .ok d ∧ s.isEmpty = false ∧ Morph.rootQuery ∈ Document.objectTypeNames d := by
  have hrun : (((compilerOf (noteRegistry "text") pingFragment).build.run.run {}).1.toOption.any
      fun s => !s.isEmpty && (parse s.sdl).toBool) = true := by
    decide +kernel
  obtain ⟨s, q, h, hcheck⟩ := Work.exists_yields_of_any hrun
  obtain ⟨hqueries, hsdl⟩ := Bool.and_eq_true_iff.1 hcheck
  have hempty : s.isEmpty = false := Bool.not_eq_true' _ ▸ hqueries
  obtain ⟨d, hd⟩ := exists_of_toBool hsdl
  have hids : ∀ m ∈ (compilerOf (noteRegistry "text") pingFragment).entries,
      m.globalId ≠ .str Morph.rootQuery := List.forall_mem_singleton.2 (by decide)
  obtain ⟨_, hverdict, hlegible⟩ := isEmpty_fits_iff h hd
  obtain ⟨d₀, h₀, _⟩ := hlegible [pingFragment] legible_ping hids
  obtain ⟨rest, _, _, hfits⟩ := hverdict d₀ h₀
  have hboth := hfits.2 fun htold => by
    rw [hempty] at htold
    cases htold
  refine ⟨s, q, d, h, hd, hempty, by_contra fun hnone => ?_⟩
  rw [hboth.2 hnone] at hempty
  cases hempty

/-- A contributed definition of the type for queries. -/
def queryFragment : Fragment :=
  .ofEntries ["type Query \x7b ping: String \x7d"] [[]]

/-- A contribution of which the entry for mutations ends a text that an
attribute has begun. -/
def quoteFragment : Fragment :=
  { query := ["q: Int"], mutation := ["\"\"\" type T \x7b a: Int"] }

/-- A schema is told to be empty, and is refused, though a contributed
definition is the type for queries. And the type for queries of a schema
that is not told to be empty may be lost in a text that the name of an
attribute begins. -/
theorem verdict_misleads :
    (queryFragment.Configured ∧ ∃ s q d, (compilerOf .empty queryFragment).build.Yields {} s q
        ∧ parse s.sdl = .ok d ∧ s.isEmpty = true ∧ Morph.rootQuery ∈ Document.objectTypeNames d
        ∧ Executable.ofCompiled s = .error .emptySchema)
      ∧ quoteFragment.Configured ∧ ∃ s q d,
        (compilerOf (noteRegistry "text: Int \x7d \"\"\"") quoteFragment).build.Yields {} s q
        ∧ parse s.sdl = .ok d ∧ s.isEmpty = false
        ∧ Morph.rootQuery ∉ Document.objectTypeNames d := by
  refine ⟨⟨⟨0, .map [("definition", .str "type Query \x7b ping: String \x7d")], {},
    by decide +kernel⟩, ?_⟩, ⟨0, .map [("query", .str "q: Int"),
      ("mutation", .str "\"\"\" type T \x7b a: Int")], {}, by decide +kernel⟩, ?_⟩
  · have hrun : (((compilerOf .empty queryFragment).build.run.run {}).1.toOption.any fun s =>
        s.isEmpty && (parse s.sdl).toOption.any fun d =>
          Document.objectTypeNames d = [Morph.rootQuery]) = true := by
      decide +kernel
    obtain ⟨s, q, h, hcheck⟩ := Work.exists_yields_of_any hrun
    obtain ⟨hempty, hnames⟩ := Bool.and_eq_true_iff.1 hcheck
    obtain ⟨d, hd, hnames⟩ := exists_of_any hnames
    have hquery : Morph.rootQuery ∈ Document.objectTypeNames d := by
      rw [of_decide_eq_true hnames]
      exact List.mem_cons_self
    exact ⟨s, q, d, h, hd, hempty, hquery, (refused_iff_isEmpty s).2 hempty⟩
  · have hrun : (((compilerOf (noteRegistry "text: Int \x7d \"\"\"") quoteFragment).build.run.run
        {}).1.toOption.any fun s => !s.isEmpty && (parse s.sdl).toOption.any fun d =>
          Document.objectTypeNames d = ["Note", "T"]) = true := by
      decide +kernel
    obtain ⟨s, q, h, hcheck⟩ := Work.exists_yields_of_any hrun
    obtain ⟨hqueries, hnames⟩ := Bool.and_eq_true_iff.1 hcheck
    obtain ⟨d, hd, hnames⟩ := exists_of_any hnames
    refine ⟨s, q, d, h, hd, Bool.not_eq_true' _ ▸ hqueries, ?_⟩
    rw [of_decide_eq_true hnames]
    decide

end CompiledSchema

end ModelSchema
