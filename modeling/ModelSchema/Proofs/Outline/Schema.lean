/-
The outline of a whole schema: what every schema declares, the outlines of
all entries, the union of object types if it has members, and the root
types if they have fields. A schema compiled without contributions is the
text of its outline (`build_yields`).
-/
import ModelSchema.Proofs.Outline.Entries

namespace ModelSchema

open Declaration (Field)

namespace Outline

-- ============================================================== the whole

/-- The scalars that every schema declares. -/
def scalarDeclarations : List Declaration := Scalar.all.map fun s => ⟨.str s.name, .scalar⟩

/-- The input type that names an entity. -/
def inputIdDeclaration : Declaration :=
  ⟨.str "InputID", .input [{ key := "id", type := .nonNull (.of "ID") }]⟩

/-- The declaration of a root type, if it has fields. -/
def rootDeclaration (name : String) (fields : List Field) : List Declaration :=
  if fields.isEmpty then [] else [⟨.str name, .object "" fields⟩]

variable (o : Outline)

/-- The members of the union of object types. -/
def morphMembers : List Key := Morph.uniqueKeys o.objectTypes

/-- The declaration of the union of object types, if it has members. -/
def morphDeclaration : List Declaration :=
  if o.morphMembers.isEmpty then []
  else [⟨.str Morph.unionName, .union (o.morphMembers.map fun k => k.value.text)⟩]

/-- Everything that a schema declares besides the scalars. -/
def types : List Declaration :=
  inputIdDeclaration :: o.declarations ++ o.morphDeclaration
    ++ rootDeclaration "Query" o.queries ++ rootDeclaration "Mutation" o.mutations

/-- Everything that a schema declares. -/
def schema : List Declaration := scalarDeclarations ++ o.types

/-- The text of a schema. Scalars are in one row, each on a line. -/
def sdl : String :=
  String.intercalate "\n\n"
      (String.intercalate "\n" (scalarDeclarations.map Declaration.text)
        :: o.types.map Declaration.text)
    ++ "\n"

end Outline

-- ====================================================== the union's text

theorem Morph.memberNames_eq_ok {members : List Key} {names : List String}
    (h : Morph.memberNames members = .ok names) :
    names = members.map fun k => k.value.text := by
  replace h := mapM_eq_ok.1 h
  induction h with
  | nil => rfl
  | @cons k name _ _ hname _ ih =>
      rw [List.map_cons, ← ih]
      cases hk : k.value with
      | str s =>
          simp only [hk, Except.ok.injEq] at hname
          rw [← hname]
          rfl
      | _ => simp [hk] at hname

/-- The union of object types is written as it is declared. -/
theorem Outline.morph_texts {o : Outline} {union : String}
    (h : Morph.definition o.morphMembers = .ok union) :
    (if union = "" then [] else [union]) = o.morphDeclaration.map Declaration.text := by
  obtain ⟨names, hnames, h⟩ := bind_eq_ok.1 h
  rw [Morph.memberNames_eq_ok hnames] at h
  cases h
  unfold Outline.morphDeclaration
  cases hmembers : o.morphMembers with
  | nil => rfl
  | cons k members =>
      have hne : "union " ++ Morph.unionName ++ " = "
          ++ String.intercalate " | " ((k :: members).map fun k => k.value.text) ≠ "" := by
        intro hempty
        have hlength := congrArg String.length hempty
        simp only [String.length_append] at hlength
        have : "union ".length = 6 := rfl
        have : "".length = 0 := rfl
        omega
      rw [List.map_cons] at hne ⊢
      show (if ("union " ++ Morph.unionName ++ " = " ++ String.intercalate " | " _) = "" then []
        else [_]) = _
      rw [if_neg hne]
      rfl

-- ============================================================= assembling

namespace Compiler

variable (c : Compiler)

/-- The outline of all entries. -/
def outline : Except Fault Outline := Outline.merge <$> c.outlines

/-- A root type is written as it is declared. -/
theorem root_texts (name : String) {lines : List String} {fields : List Field}
    (h : Joined "\n" lines (fields.map Field.line)) :
    (if lines.isEmpty then []
      else [Sdl.renderBlock "type" name (String.intercalate "\n" lines) ""])
      = (Outline.rootDeclaration name fields).map Declaration.text := by
  obtain ⟨hjoin, hnil⟩ := h
  unfold Outline.rootDeclaration
  cases fields with
  | nil =>
      rw [hnil.2 rfl]
      rfl
  | cons f fields =>
      cases lines with
      | nil => cases hnil.1 rfl
      | cons line lines =>
          rw [hjoin]
          rfl

/-- A fragment is assembled to the text of the outline that it renders. -/
theorem assemble_eq {o : Outline} {f : Fragment} (h : o.Renders f) {union : String}
    (hunion : Morph.definition o.morphMembers = .ok union) : assemble f union = o.sdl := by
  have scalars : Scalar.declarations
      = String.intercalate "\n" (Outline.scalarDeclarations.map Declaration.text) := rfl
  have inputId : Inputs.inputId = Outline.inputIdDeclaration.text := rfl
  have rows : Joined "\n\n"
      ([Scalar.declarations, Inputs.inputId] ++ f.definition
        ++ (if union = "" then [] else [union])
        ++ (if f.query.isEmpty then []
            else [Sdl.renderBlock "type" "Query" (String.intercalate "\n" f.query) ""])
        ++ (if f.mutation.isEmpty then []
            else [Sdl.renderBlock "type" "Mutation" (String.intercalate "\n" f.mutation) ""]))
      (Scalar.declarations :: o.types.map Declaration.text) := by
    rw [Outline.morph_texts hunion, root_texts "Query" h.query, root_texts "Mutation" h.mutation,
      inputId, Outline.types]
    simp only [List.map_append, List.map_cons, ← List.cons_append]
    refine (((Joined.append ?_ (Joined.refl _ _)).append (Joined.refl _ _)).append
      (Joined.refl _ _))
    exact (Joined.refl _ [_, _]).append h.definition
  unfold assemble Outline.sdl
  rw [← scalars]
  exact congrArg (fun text => text ++ "\n") rows.1

/-- A schema compiled without contributions is the text of its outline. -/
theorem build_yields {c : Compiler} (hc : c.contributed = {}) {p q : Progress}
    {s : CompiledSchema} (h : c.build.Yields p s q) :
    ∃ o, c.outline = .ok o ∧ o.Renders s.fragment ∧ s.sdl = o.sdl
      ∧ ∃ names, Morph.memberNames o.morphMembers = .ok names := by
  obtain ⟨fs, union, _, _, rfl, hgenerated, _, hunion, rfl⟩ := build_inv h
  obtain ⟨os, hos, hrenders⟩ := generated_yields rfl hgenerated
  have rendered : (Outline.merge os).Renders (Fragment.merge (fs ++ [c.contributed])) := by
    have merged := Outline.Renders.merge (List.rel_append hrenders
      (List.Forall₂.cons Outline.renders_empty List.Forall₂.nil))
    rw [Outline.merge_append_empty] at merged
    rw [hc]
    exact merged
  have members : (Fragment.merge (fs ++ [c.contributed])).morphMembers
      = (Outline.merge os).morphMembers := congrArg Morph.uniqueKeys rendered.objectTypes
  rw [members] at hunion
  obtain ⟨names, hnames, _⟩ := bind_eq_ok.1 hunion
  exact ⟨Outline.merge os, map_eq_ok.2 ⟨os, hos, rfl⟩, rendered, assemble_eq rendered hunion,
    names, hnames⟩

/-- The compiler of a registry alone, to which nothing is contributed. -/
def ofRegistry (r : Registry) (visibility : Option Visibility) (config : Config) : Compiler :=
  ofFragments r [] visibility config

end Compiler

/-- The key of a model of the application. -/
def ModelKey.ofName (name : String) : ModelKey := ⟨⟨.null, Value.isKey_null⟩, .ofText name⟩

end ModelSchema
