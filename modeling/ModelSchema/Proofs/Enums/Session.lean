/-
Compiling again. A compiler keeps the enum types that it has declared from
call to call, so what a call writes depends on the calls before it; but
compiling the whole registry starts with none declared. Whatever has been
asked of a compiler before, compiling gives what it gives the first time
(`build_run_declared`), and every enum type is written once, by its first
owner (`build_declares_once`).
-/
import ModelSchema.Proofs.Enums.Written

namespace ModelSchema

namespace Compiler

-- ============================================================== sessions

/-- A compiler in use, with the enum types that are declared. -/
structure Session where
  compiler : Compiler
  declared : Enums.Declared := []

/-- What a compiler in use may be asked for. -/
inductive Call where
  | build
  | enums (m : Model)
  | componentFragment (m : Model)
  | modelFragment (m : Model)

namespace Session

/-- The enum types that are declared after a step, whether or not it
fails. -/
def declaredAfter {α : Type} (s : Session) (work : Work α) : Enums.Declared :=
  (work.run.run { declared := s.declared }).2.declared

/-- A session after a call. -/
def after (s : Session) : Call → Session
  | .build =>
      { compiler := s.compiler.afterBuild
        declared := s.declaredAfter s.compiler.build }
  | .enums m => { s with declared := s.declaredAfter (s.compiler.enums m) }
  | .componentFragment m =>
      { compiler := s.compiler.replacing m (s.compiler.modelAfterType m)
        declared := s.declaredAfter (s.compiler.componentFragment m) }
  | .modelFragment m =>
      { compiler := s.compiler.replacing m (s.compiler.modelAfterFragment m)
        declared := s.declaredAfter (s.compiler.modelFragment m) }

/-- A session after calls, one after another. -/
def afterAll (s : Session) (calls : List Call) : Session := calls.foldl after s

end Session

-- ================================================================= marks

/-- Whether no exposed attribute of an entry has a list as the name of its
enum type. Only such a name takes a mark when it is asked for. -/
def Unmarked (c : Compiler) : Prop :=
  ∀ m ∈ c.entries, ∀ e ∈ c.exposedOf .enumeration m, ∀ item items,
    e.2.enumName ≠ .list (item :: items)

variable {c : Compiler}

theorem modelAfterType_of_unmarked (h : c.Unmarked) {m : Model} (hm : m ∈ c.entries) :
    c.modelAfterType m = m := by
  refine Inputs.afterFields_eq_self fun e he => Attribute.afterRef_of_ne_list fun hkind => ?_
  exact h m hm e (List.mem_filter.2 ⟨he, decide_eq_true hkind⟩)

theorem modelAfterFragment_of_unmarked (h : c.Unmarked) {m : Model} (hm : m ∈ c.entries) :
    c.modelAfterFragment m = m := by
  unfold modelAfterFragment
  split
  · exact modelAfterType_of_unmarked h hm
  · rfl

/-- Replacing an entry by itself, or what is no entry at all, replaces
nothing. -/
theorem replacing_eq_self {old new : Model} (h : old ∈ c.entries → new = old) :
    c.replacing old new = c := by
  have kept : ∀ {κ : Type} (l : List (κ × Model)), l.map Prod.snd ⊆ c.entries →
      l.map (fun e => (e.1, if e.2 = old then new else e.2)) = l := by
    intro κ l hsub
    refine (List.map_congr_left fun e he => ?_).trans (List.map_id l)
    by_cases hold : e.2 = old
    · have hentry : old ∈ c.entries := hold ▸ hsub (List.mem_map_of_mem he)
      rw [if_pos hold, h hentry, ← hold]
      rfl
    · rw [if_neg hold]
      rfl
  have hmodels := kept c.registry.models (List.subset_append_right _ _)
  have hcomponents := kept c.registry.components (List.subset_append_left _ _)
  unfold replacing Registry.replace
  dsimp only at hmodels hcomponents ⊢
  rw [hmodels, hcomponents]

/-- What is compiled takes no marks, since no list may be declared. -/
theorem unmarked_of_build {s : CompiledSchema} {q : Progress} (h : c.build.Yields {} s q) :
    c.Unmarked := by
  intro m hm e he
  have htypes := (build_writes h rfl).enumTypes_eq_ok hm
  exact Attribute.enumName_ne_list (isKey_of_enumTypes htypes e he)

namespace Session

/-- No call changes a compiler whose entries take no marks. -/
theorem compiler_after {s : Session} (h : s.compiler.Unmarked) (call : Call) :
    (s.after call).compiler = s.compiler := by
  have htype : ∀ m, s.compiler.replacing m (s.compiler.modelAfterType m) = s.compiler :=
    fun m => replacing_eq_self (modelAfterType_of_unmarked h)
  have hfragment : ∀ m, s.compiler.replacing m (s.compiler.modelAfterFragment m) = s.compiler :=
    fun m => replacing_eq_self (modelAfterFragment_of_unmarked h)
  cases call with
  | build =>
      show s.compiler.afterBuild = s.compiler
      unfold afterBuild
      split
      · exact htype _
      · split
        · exact hfragment _
        · rfl
  | enums m => rfl
  | componentFragment m => exact htype m
  | modelFragment m => exact hfragment m

theorem compiler_afterAll {s : Session} (h : s.compiler.Unmarked) (calls : List Call) :
    (s.afterAll calls).compiler = s.compiler := by
  induction calls generalizing s with
  | nil => rfl
  | cons call calls ih =>
      have hcall := compiler_after h call
      exact (ih (by rwa [hcall])).trans hcall

end Session

-- ====================================================== compiling anew

/-- Compiling starts with no enum type declared. -/
theorem build_run_declared (c : Compiler) (declared : Enums.Declared) :
    c.build.run.run { declared := declared } = c.build.run.run {} := by
  unfold build
  rw [Work.run_bind, Work.run_bind]
  rfl

/-- Whatever has been asked of a compiler before, compiling gives what it
gives to one that is new, and the schema has every enum type once. The
calls leave the compiler as it is, unless the name of an enum type is a
list, and then it does not compile. -/
theorem build_declares_once {c : Compiler} {calls : List Call} {session : Session}
    (hsession : ({ compiler := c } : Session).afterAll calls = session) {s : CompiledSchema}
    {q : Progress} (h : session.compiler.build.Yields { declared := session.declared } s q) :
    session.compiler.build.run.run {} = (.ok s, q)
      ∧ (c.Unmarked → session.compiler = c)
      ∧ (∀ s₀ q₀, c.build.Yields {} s₀ q₀ → session.compiler = c ∧ s₀ = s ∧ q₀ = q)
      ∧ session.compiler.DeclaresOnce s q := by
  have hagain : session.compiler.build.Yields {} s q := by
    unfold Work.Yields
    rw [← build_run_declared _ session.declared]
    exact h
  have hsame : c.Unmarked → session.compiler = c := by
    intro hmarks
    subst hsession
    exact Session.compiler_afterAll hmarks calls
  refine ⟨hagain, hsame, fun s₀ q₀ h₀ => ?_, build_writes h rfl⟩
  have hcompiler := hsame (unmarked_of_build h₀)
  rw [hcompiler] at hagain
  exact ⟨hcompiler, h₀.unique hagain⟩

/-- A model of something to wear, in these sizes. -/
def sizedModel (name globalId : String) (sizes : List String) : Model :=
  { name := .str name
    globalId := .str globalId
    attributes := [("size", { type := .str "enumeration", enumName := .str "Size",
                              enum := sizes.map .str })] }

/-- Two models agree on their sizes, the third does not. -/
def wardrobe : Registry :=
  { models := [(.ofName "shirt", sizedModel "shirt" "Shirt" ["S", "M"]),
      (.ofName "shoe", sizedModel "shoe" "Shoe" ["S", "M"]),
      (.ofName "hat", sizedModel "hat" "Hat" ["L"])] }

/-- The compiler of a wardrobe, after it was asked for the enum types of
the last model and for a whole schema. -/
def wardrobeSession : Session :=
  ({ compiler := ofRegistry wardrobe none {} } : Session).afterAll
    [.enums (sizedModel "hat" "Hat" ["L"]), .build]

/-- The sizes are those of the first model, though the last one has been
declared before, and the last one is told of. -/
theorem build_declares_once_wardrobe :
    ∃ s q, wardrobeSession.compiler.build.Yields { declared := wardrobeSession.declared } s q
      ∧ wardrobeSession.compiler.build.run.run {} = (.ok s, q)
      ∧ Enums.firstUses wardrobeSession.compiler.uses
          = [(.ofText "Size", [.str "S", .str "M"])]
      ∧ q.redeclarations = [.enumAlreadyDeclared (.str "Size") ["S", "M"] ["L"]] := by
  have hruns : (wardrobeSession.compiler.build.run.run
      { declared := wardrobeSession.declared }).1.toBool = true := by decide +kernel
  obtain ⟨s, q, h⟩ := Work.exists_yields hruns
  obtain ⟨hagain, _, _, honce⟩ := build_declares_once rfl h
  exact ⟨s, q, h, hagain, by decide +kernel, honce.told.trans (by decide +kernel)⟩

end Compiler

end ModelSchema
