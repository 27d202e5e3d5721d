/-
A schema that grows with its registry. Fragments are made one after
another, and a model under a new name of the application is the last of
them. All parts before it are made as in the smaller registry: what they
look up is there (`Registry.Extends`), and what has been declared when it
is their turn is the same (`Work.Within`). So the texts and the object types
of the smaller schema are those that the larger one begins with
(`build_continued`).
-/
import ModelSchema.Proofs.Enums.Written
import ModelSchema.Proofs.Growth.Lookup

namespace ModelSchema

-- ================================================================= steps

namespace Work

variable {α β : Type}

/-- Whether a step gives what another one gives and declares the same,
whatever has been told before. -/
def Within (w w' : Work α) : Prop :=
  ∀ p a q, w.Yields p a q → ∀ p', p'.declared = p.declared →
    ∃ q', w'.Yields p' a q' ∧ q'.declared = q.declared

namespace Within

theorem pure (a : α) : Within (Pure.pure a) (Pure.pure a) := by
  intro p b q h p' hp
  obtain ⟨rfl, rfl⟩ := yields_pure.1 h
  exact ⟨p', yields_pure.2 ⟨rfl, rfl⟩, hp⟩

theorem tell (ns ns' : List Notice) : Within (Work.tell ns) (Work.tell ns') := by
  intro p u q h p' hp
  rw [← yields_tell.1 h]
  exact ⟨_, yields_tell.2 rfl, hp⟩

theorem change {f g : Progress → Progress}
    (h : ∀ p p', p'.declared = p.declared → (g p').declared = (f p).declared) :
    Within (modify f : Work Unit) (modify g) := by
  intro p u q hrun p' hp
  rw [← yields_modify.1 hrun]
  exact ⟨g p', yields_modify.2 rfl, h p p' hp⟩

/-- Steps that look at the progress may look at what has been declared. -/
theorem get_bind {f g : Progress → Work β}
    (h : ∀ p p', p'.declared = p.declared → (f p).Within (g p')) :
    Within (get >>= f) (get >>= g) := by
  intro p b q hrun p' hp
  obtain ⟨_, _, hget, hrun⟩ := yields_bind.1 hrun
  obtain ⟨rfl, rfl⟩ := yields_get.1 hget
  obtain ⟨q', hrun', hq⟩ := h p p' hp p b q hrun p' hp
  exact ⟨q', yields_bind.2 ⟨p', p', yields_get.2 ⟨rfl, rfl⟩, hrun'⟩, hq⟩

theorem lift {x y : Except Fault α} (h : ModelSchema.Within x y) :
    Within (Work.lift x) (Work.lift y) := by
  intro p a q hrun p' hp
  obtain ⟨hx, rfl⟩ := yields_lift.1 hrun
  exact ⟨p', yields_lift.2 ⟨h a hx, rfl⟩, hp⟩

theorem bind {w w' : Work α} {f g : α → Work β} (h : w.Within w')
    (hf : ∀ p a q, w.Yields p a q → (f a).Within (g a)) : (w >>= f).Within (w' >>= g) := by
  intro p b r hrun p' hp
  obtain ⟨a, q, ha, hb⟩ := yields_bind.1 hrun
  obtain ⟨q', ha', hq⟩ := h p a q ha p' hp
  obtain ⟨r', hb', hr⟩ := hf p a q ha q b r hb q' hq
  exact ⟨r', yields_bind.2 ⟨a, q', ha', hb'⟩, hr⟩

theorem mapM {f g : α → Work β} (h : ∀ a, (f a).Within (g a)) (as : List α) :
    (as.mapM f).Within (as.mapM g) := by
  induction as with
  | nil =>
      rw [List.mapM_nil, List.mapM_nil]
      exact pure []
  | cons a as ih =>
      rw [List.mapM_cons, List.mapM_cons]
      exact (h a).bind fun _ b _ _ => ih.bind fun _ bs _ _ => pure (b :: bs)

end Within

end Work

-- ============================================================= fragments

namespace Compiler

variable {c : Compiler} {r' : Registry} {m : Model}

/-- An enum type is declared alike, whatever has been told before. -/
theorem declareEnum_within (name : Value) (values : List Value) :
    (declareEnum name values).Within (declareEnum name values) := by
  refine (Work.Within.lift (Within.refl _)).bind fun _ key _ _ => ?_
  refine Work.Within.get_bind fun p p' hp => ?_
  rw [hp]
  apply Work.Within.bind
  · apply Work.Within.change
    intro _ _ _
    rfl
  · intro _ _ _ _
    exact (Work.Within.tell _ _).bind fun _ _ _ _ => .pure _

theorem enums_within (m : Model) : (c.enums m).Within ((c.given r').enums m) := by
  refine (Work.Within.mapM ?_ (c.exposedOf .enumeration m)).bind fun _ _ _ _ => .pure _
  rintro ⟨name, a⟩
  exact (Work.Within.lift (Within.refl _)).bind fun _ typeName _ _ =>
    declareEnum_within typeName a.enum

section

variable (h : c.registry.Extends r') (m : Model)

include h

/-- The fragment of a component is made again in a larger registry. -/
theorem componentFragment_within :
    (c.componentFragment m).Within ((c.given r').componentFragment m) := by
  refine (Work.Within.tell _ _).bind fun _ _ _ _ => ?_
  refine (Work.Within.lift (typeDefinition_within h m)).bind fun _ type _ _ => ?_
  refine (enums_within m).bind fun _ enums _ henums => ?_
  obtain ⟨types, htypes, _, _⟩ := c.enums_yields henums
  refine (Work.Within.lift (inputModel_within h m htypes true)).bind fun _ inputs _ _ => ?_
  exact (Work.Within.lift (Within.refl _)).bind fun _ key _ _ => .pure _

/-- The fragment of a model is made again in a larger registry. -/
theorem modelFragment_within :
    (c.modelFragment m).Within ((c.given r').modelFragment m) := by
  refine (Work.Within.tell _ _).bind fun _ _ _ _ => ?_
  refine (Work.Within.lift (dynamicZones_within h m)).bind fun _ zones _ _ => ?_
  refine (Work.Within.lift (typeDefinition_within h m)).bind fun _ type _ _ => ?_
  refine (enums_within m).bind fun _ enums _ henums => ?_
  obtain ⟨types, htypes, _, _⟩ := c.enums_yields henums
  refine (Work.Within.lift (Within.refl _)).bind fun _ key _ _ => ?_
  have hcrud : (c.given r').config = c.config := rfl
  rw [hcrud]
  by_cases hshadow : (!c.config.shadowCrud) = true
  · simp only [hshadow, if_true]
    exact .pure _
  · simp only [hshadow]
    refine (Work.Within.lift (operations_within h m htypes)).bind fun _ operations _ _ => ?_
    exact (Work.Within.tell _ _).bind fun _ _ _ _ => .pure _

theorem fragmentOf_within (part : Part) :
    (c.fragmentOf part).Within ((c.given r').fragmentOf part) := by
  cases part with
  | component m => exact componentFragment_within h m
  | model m => exact modelFragment_within h m

end

end Compiler

-- ======================================================== merged fragments

namespace Fragment

/-- Whether the texts and object types of a fragment go on in another
one. -/
structure ContinuedBy (f g : Fragment) : Prop where
  definition : f.definition <+: g.definition
  query : f.query <+: g.query
  mutation : f.mutation <+: g.mutation
  objectTypes : f.objectTypes <+: g.objectTypes

theorem uniqueKeys_prefix (names more : List Key) :
    Morph.uniqueKeys names <+: Morph.uniqueKeys (names ++ more) := by
  unfold Morph.uniqueKeys
  rw [Morph.firstsAfter_append]
  exact List.prefix_append _ _

/-- Fragments say together the same without contributions. -/
theorem flatMap_concat_empty {α : Type} {part : Fragment → List α} (h : part (merge []) = [])
    (fs : List Fragment) : (fs ++ [merge []]).flatMap part = fs.flatMap part := by
  rw [List.flatMap_append, List.flatMap_singleton, h, List.append_nil]

/-- One more fragment after all others, if nothing is contributed, leaves
what they say where it is. -/
theorem merge_continuedBy (fs more : List Fragment) :
    (merge (fs ++ [merge []])).ContinuedBy (merge (fs ++ more ++ [merge []])) := by
  constructor
  · rw [merge_definition, merge_definition, flatMap_concat_empty rfl, flatMap_concat_empty rfl,
      List.flatMap_append]
    exact List.prefix_append _ _
  · rw [merge_query, merge_query, flatMap_concat_empty rfl, flatMap_concat_empty rfl,
      List.flatMap_append]
    exact List.prefix_append _ _
  · rw [merge_mutation, merge_mutation, flatMap_concat_empty rfl, flatMap_concat_empty rfl,
      List.flatMap_append]
    exact List.prefix_append _ _
  · rw [merge_objectTypes, merge_objectTypes, flatMap_concat_empty rfl, flatMap_concat_empty rfl,
      List.flatMap_append]
    exact uniqueKeys_prefix _ _

end Fragment

-- ========================================================== whole schemas

namespace Compiler

variable {r r' : Registry} {m : Model} {visibility : Option Visibility} {config : Config}

/-- A model is the last part of a registry in which it is put after all
others. -/
theorem parts_given {key : ModelKey} (hmodels : r'.models = r.models ++ [(key, m)])
    (hcomponents : r'.components = r.components) :
    (ofRegistry r' visibility config).parts
      = (ofRegistry r visibility config).parts ++ [.model m] := by
  show r'.components.map (fun e => Part.component e.2) ++ r'.models.map (fun e => Part.model e.2)
    = (r.components.map (fun e => Part.component e.2) ++ r.models.map fun e => Part.model e.2) ++ _
  rw [hmodels, hcomponents, List.map_append, List.append_assoc]
  rfl

/-- A model of the application under a new name only adds to a schema that
is compiled from a registry alone: texts and object types are those that
were there before, in their order, and then others. -/
theorem build_continued {name : Key} (hplugin : m.plugin = .null) (hname : m.name.key = .ok name)
    (hnew : Assoc.has r.models ⟨⟨.null, rfl⟩, name⟩ = false) (hregister : r.register m = .ok r')
    {p q p' q' : Progress} {s s' : CompiledSchema}
    (h : (ofRegistry r visibility config).build.Yields p s q)
    (h' : (ofRegistry r' visibility config).build.Yields p' s' q') :
    s.fragment.ContinuedBy s'.fragment := by
  obtain ⟨hmodels, hcomponents⟩ := Registry.models_register hplugin hname hnew hregister
  have hextends := Registry.extends_register hplugin hname hnew hregister
  obtain ⟨fs, _, _, _, rfl, hrun, _, _, rfl⟩ := build_inv h
  obtain ⟨fs', _, _, _, rfl, hrun', _, _, rfl⟩ := build_inv h'
  rw [generated_eq] at hrun hrun'
  rw [parts_given hmodels hcomponents, List.mapM_append] at hrun'
  obtain ⟨before, _, hbefore, hrun'⟩ := Work.yields_bind.1 hrun'
  obtain ⟨last, _, _, hrun'⟩ := Work.yields_bind.1 hrun'
  obtain ⟨rfl, rfl⟩ := Work.yields_pure.1 hrun'
  -- the parts that were there before yield what they yielded before
  have hparts : ((ofRegistry r visibility config).parts.mapM
        (ofRegistry r visibility config).fragmentOf).Within
      ((ofRegistry r visibility config).parts.mapM
        ((ofRegistry r visibility config).given r').fragmentOf) :=
    Work.Within.mapM (fragmentOf_within hextends) _
  obtain ⟨_, hagain, _⟩ := hparts _ _ _ hrun { p' with declared := [] } rfl
  obtain ⟨rfl, _⟩ := hagain.unique hbefore
  exact Fragment.merge_continuedBy fs last

/-- Authors, with friends that are looked up in a plugin and found in the
application. -/
def authorModel : Model :=
  { name := .str "author", globalId := .str "Author"
    attributes := [("state", { type := .str "enumeration", enum := [.str "on", .str "off"] }),
      ("friend", { model := .str "author", plugin := .str "people" })] }

/-- Comments of authors. -/
def commentModel : Model :=
  { name := .str "comment", globalId := .str "Comment"
    attributes := [("author", { model := .str "author" }), ("text", { type := .str "string" })] }

/-- A registry of authors. -/
def authorRegistry : Registry :=
  { models := [(.ofName "author", authorModel)]
    claims := [(.ofText "Author", .str "author")] }

/-- A registry of authors and their comments. -/
def commentRegistry : Registry :=
  { models := [(.ofName "author", authorModel), (.ofName "comment", commentModel)]
    claims := [(.ofText "Author", .str "author"), (.ofText "Comment", .str "comment")] }

theorem build_continued_comment :
    authorRegistry.register commentModel = .ok commentRegistry
      ∧ ∃ s q s' q', (ofRegistry authorRegistry none {}).build.Yields {} s q
        ∧ (ofRegistry commentRegistry none {}).build.Yields {} s' q'
        ∧ s.fragment.ContinuedBy s'.fragment := by
  have hregister : authorRegistry.register commentModel = .ok commentRegistry := rfl
  obtain ⟨s, q, h⟩ := Work.exists_yields
    (w := (ofRegistry authorRegistry none {}).build) (p := {}) (by decide +kernel)
  obtain ⟨s', q', h'⟩ := Work.exists_yields
    (w := (ofRegistry commentRegistry none {}).build) (p := {}) (by decide +kernel)
  exact ⟨hregister, s, q, s', q', h, h',
    build_continued rfl rfl (by decide) hregister h h'⟩

end Compiler

end ModelSchema
