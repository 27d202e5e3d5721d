/-
The whole in two registries that show the same. Fragments of one entry are
beside each other: they differ in definitions alone, and not even there if
the entry does not leak. Merging keeps fragments beside each other, so the
schemas that are compiled are too, and a build fails in both for the same
cause or in none (`build_related`).
-/
import ModelSchema.Proofs.Hidden.Entries

namespace ModelSchema

variable {same : Prop}

-- ========================================================= side by side

/-- Two fragments are beside each other: they differ in definitions alone,
and are the same under a condition. -/
def Fragment.Beside (same : Prop) (f f' : Fragment) : Prop :=
  f' = { f with definition := f'.definition } ∧ (same → f' = f)

/-- Two schemas are beside each other: they differ in their text and their
definitions alone, and are the same under a condition. -/
def CompiledSchema.Beside (same : Prop) (s s' : CompiledSchema) : Prop :=
  s' = { s with
      sdl := s'.sdl
      fragment := { s.fragment with definition := s'.fragment.definition } }
    ∧ (same → s' = s)

namespace Fragment

theorem Beside.refl (same : Prop) (f : Fragment) : Beside same f f := ⟨rfl, fun _ => rfl⟩

theorem Beside.append {f f' g g' : Fragment} (hf : Beside same f f') (hg : Beside same g g') :
    Beside same (f.append g) (f'.append g') := by
  constructor
  · rw [hf.1, hg.1]
    rfl
  · intro h
    rw [hf.2 h, hg.2 h]

theorem Beside.foldl_append {fs fs' : List Fragment} (h : List.Forall₂ (Beside same) fs fs')
    {start start' : Fragment} (hstart : Beside same start start') :
    Beside same (fs.foldl Fragment.append start) (fs'.foldl Fragment.append start') := by
  induction h generalizing start start' with
  | nil => exact hstart
  | cons hhead _ ih => exact ih (hstart.append hhead)

/-- Fragments beside each other are merged into fragments that are, too. -/
theorem Beside.merge {fs fs' : List Fragment} (h : List.Forall₂ (Beside same) fs fs') :
    Beside same (Fragment.merge fs) (Fragment.merge fs') := by
  have all := Beside.foldl_append h (Beside.refl same empty)
  unfold Fragment.merge
  constructor
  · rw [all.1]
  · intro hsame
    rw [all.2 hsame]

/-- Merging tells of types and resolvers alone. -/
theorem Beside.mergeNoticesAfter {fs fs' : List Fragment} (h : List.Forall₂ (Beside same) fs fs')
    {start start' : Fragment} (hstart : Beside same start start') :
    Fragment.mergeNoticesAfter start' fs' = Fragment.mergeNoticesAfter start fs := by
  induction h generalizing start start' with
  | nil => rfl
  | cons hhead _ ih =>
      rw [Fragment.mergeNoticesAfter, Fragment.mergeNoticesAfter, ih (hstart.append hhead),
        hstart.1, hhead.1]
      rfl

theorem Beside.mergeNotices {fs fs' : List Fragment} (h : List.Forall₂ (Beside same) fs fs') :
    Fragment.mergeNotices fs' = Fragment.mergeNotices fs :=
  Beside.mergeNoticesAfter h (Beside.refl same empty)

end Fragment

namespace Compiler

variable {c : Compiler} {r' : Registry} {m m' : Model}

-- ============================================================ fragments

/-- The fragments of a component are beside each other. -/
theorem componentFragment_related (hr : c.registry.SameNames r')
    (hm : m.ShowsSame c.visibility m') (hsame : same → ¬ c.LeaksFrom m) :
    (c.componentFragment m).Related (Fragment.Beside same)
      ((c.given r').componentFragment m') := by
  have told : m'.uid = m.uid ∧ m'.globalId = m.globalId := ⟨by rw [hm.other], hm.globalId⟩
  unfold componentFragment
  rw [told.1, told.2, enums_given hm]
  refine Work.Related.after _ fun _ _ _ _ => ?_
  refine (Work.Related.lift (typeDefinition_alike hr hm)).bind fun _ text text' _ _ _ htext => ?_
  refine Work.Related.after _ fun _ enums _ henums => ?_
  -- the enum types are declared, so the input types leave no mark
  obtain ⟨types, htypes, _⟩ := c.enums_yields henums
  have inputs := inputModel_given hr hm htypes true
  rw [told.2] at inputs
  rw [given_registry, given_visibility,
    inputs]
  refine Work.Related.after _ fun _ _ _ _ => Work.Related.after _ fun _ _ _ _ => ?_
  exact Work.Related.pure ⟨rfl, fun h => by rw [htext (hsame h)]⟩

/-- The fragments of a model are beside each other. -/
theorem modelFragment_related (hr : c.registry.SameNames r')
    (hm : m.ShowsSame c.visibility m') (hsame : same → ¬ c.LeaksFrom m) :
    (c.modelFragment m).Related (Fragment.Beside same) ((c.given r').modelFragment m') := by
  have told : m'.name = m.name ∧ m'.globalId = m.globalId := ⟨by rw [hm.other], hm.globalId⟩
  unfold modelFragment
  rw [told.1, told.2, enums_given hm, dynamicZones_given hr hm]
  refine Work.Related.after _ fun _ _ _ _ => Work.Related.after _ fun _ zones _ _ => ?_
  refine (Work.Related.lift (typeDefinition_alike hr hm)).bind fun _ text text' _ _ _ htext => ?_
  refine Work.Related.after _ fun _ enums _ henums => Work.Related.after _ fun _ key _ _ => ?_
  obtain ⟨types, htypes, _⟩ := c.enums_yields henums
  rw [operations_given hr hm htypes, given_config]
  have own : Fragment.Beside same
      { definition := text :: enums ++ zones.definitions
        resolver := zones.resolvers
        objectTypes := [key] }
      { definition := text' :: enums ++ zones.definitions
        resolver := zones.resolvers
        objectTypes := [key] } := ⟨rfl, fun h => by rw [htext (hsame h)]⟩
  cases c.config.shadowCrud with
  | false => exact Work.Related.pure own
  | true =>
      refine Work.Related.after _ fun _ operations _ _ => ?_
      have both := List.Forall₂.cons own
        (List.Forall₂.cons (Fragment.Beside.refl same operations) List.Forall₂.nil)
      dsimp only
      rw [Fragment.Beside.mergeNotices both]
      exact Work.Related.after _ fun _ _ _ _ => Work.Related.pure (Fragment.Beside.merge both)

/-- Fragments of all entries of two lists are beside each other. -/
theorem fragments_related {κ : Type} {l l' : List (κ × Model)}
    (h : List.Forall₂ (Registry.SameEntry c.visibility) l l')
    {fragment fragment' : Model → Work Fragment}
    (hfragment : ∀ m m', m ∈ l.map Prod.snd → m.ShowsSame c.visibility m' →
      (fragment m).Related (Fragment.Beside same) (fragment' m')) :
    ((l.map Prod.snd).mapM fragment).Related (List.Forall₂ (Fragment.Beside same))
      ((l'.map Prod.snd).mapM fragment') := by
  refine Work.Related.mapM ?_
  rw [List.forall₂_map_left_iff, List.forall₂_map_right_iff]
  have members := (List.forall₂_and_left l l').2 ⟨fun e (he : e ∈ l) => he, h⟩
  exact members.imp fun e e' ⟨he, hentry⟩ =>
    hfragment e.2 e'.2 (List.mem_map_of_mem he) hentry.2

/-- The fragments of all entries are beside each other. -/
theorem generated_related (h : c.registry.ShowsSame c.visibility r') :
    c.generated.Related (List.Forall₂ (Fragment.Beside (¬ c.Leaks)))
      (c.given r').generated := by
  have closed : ∀ m ∈ c.entries, ¬ c.Leaks → ¬ c.LeaksFrom m :=
    fun m hm hnone hleak => hnone ⟨m, hm, hleak⟩
  have components := fragments_related h.components fun m m' hm hshows =>
    componentFragment_related h.sameNames hshows (closed m (List.mem_append_left _ hm))
  have models := fragments_related h.models fun m m' hm hshows =>
    modelFragment_related h.sameNames hshows (closed m (List.mem_append_right _ hm))
  exact components.bind fun _ _ _ _ _ _ hcomponents => models.bind fun _ _ _ _ _ _ hmodels =>
    Work.Related.pure (List.rel_append hcomponents hmodels)

-- ============================================================== schemas

/-- Fragments beside each other are finished to schemas that are, too. -/
theorem finish_alike {f f' : Fragment} (h : Fragment.Beside same f f') :
    Alike (CompiledSchema.Beside same) (finish f) (finish f') := by
  have members : f'.morphMembers = f.morphMembers := by rw [h.1]; rfl
  unfold finish
  rw [members]
  refine Alike.after fun union _ => Alike.ok ⟨?_, fun hsame => by rw [h.2 hsame]⟩
  rw [h.1]

/-- The builds of two registries that show the same are related. -/
theorem build_related (h : c.registry.ShowsSame c.visibility r') :
    c.build.Related (CompiledSchema.Beside (¬ c.Leaks))
      (c.given r').build := by
  unfold build
  refine Work.Related.after _ fun _ _ _ _ => ?_
  refine (generated_related h).bind fun _ fs fs' _ _ _ hfs => ?_
  have all : List.Forall₂ (Fragment.Beside (¬ c.Leaks)) (fs ++ [c.contributed])
      (fs' ++ [c.contributed]) :=
    List.rel_append hfs (List.Forall₂.cons (Fragment.Beside.refl _ _) List.Forall₂.nil)
  dsimp only
  rw [given_contributed, Fragment.Beside.mergeNotices all]
  refine Work.Related.after _ fun _ _ _ _ => ?_
  refine (Work.Related.lift (finish_alike (Fragment.Beside.merge all))).bind
    fun _ s s' _ _ _ hs => ?_
  have told : finishNotice s' = finishNotice s := by
    rw [hs.1]
    rfl
  rw [told]
  exact Work.Related.after _ fun _ _ _ _ => Work.Related.pure hs

end Compiler

end ModelSchema
