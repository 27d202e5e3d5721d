/-
Runs of the compiler's steps, read from the end: what a step that has
succeeded must have done. A step that may fail succeeds exactly if its
parts do, one after another (`bind_eq_ok`, `mapM_eq_ok`); a step that
also tells and declares leads from one progress to another
(`Work.Yields`), and a run of a whole is a chain of runs of its parts.
Every statement about a finished schema is a reading of such a chain.
-/
import Mathlib.Data.List.Forall2
import ModelSchema.Compiler.Build

namespace ModelSchema

-- ====================================================== rows side by side

section

variable {α β γ : Type} {R : α → β → Prop} {as : List α} {bs : List β}

/-- An element of a row has its partner in the other one. -/
theorem exists_of_mem_left (h : List.Forall₂ R as bs) {a : α} (ha : a ∈ as) :
    ∃ b ∈ bs, R a b := by
  induction h with
  | nil => cases ha
  | cons hhead _ ih =>
      rcases List.mem_cons.1 ha with rfl | ha
      · exact ⟨_, List.mem_cons_self, hhead⟩
      · obtain ⟨b, hb, hrel⟩ := ih ha
        exact ⟨b, List.mem_cons_of_mem _ hb, hrel⟩

theorem exists_of_mem_right (h : List.Forall₂ R as bs) {b : β} (hb : b ∈ bs) :
    ∃ a ∈ as, R a b := exists_of_mem_left h.flip hb

/-- The first answer along two rows that answer alike, place by place. -/
theorem findSome?_eq_of_forall₂ {f : α → Option γ} {g : β → Option γ}
    (h : List.Forall₂ (fun a b => f a = g b) as bs) : as.findSome? f = bs.findSome? g := by
  induction h with
  | nil => rfl
  | cons hhead _ ih => rw [List.findSome?_cons, List.findSome?_cons, hhead, ih]

/-- The first answer along the elements of elements. -/
theorem findSome?_flatMap (f : β → Option γ) (parts : α → List β) (as : List α) :
    (as.flatMap parts).findSome? f = as.findSome? fun a => (parts a).findSome? f := by
  induction as with
  | nil => rfl
  | cons a as ih =>
      rw [List.flatMap_cons, List.findSome?_append, List.findSome?_cons, ih]
      cases (parts a).findSome? f <;> rfl

end

-- ================================================= steps that may fail

section

variable {ε α β : Type}

/-- Two steps in a row succeed exactly if the first does and the second
does on what the first gives. -/
theorem bind_eq_ok {x : Except ε α} {f : α → Except ε β} {b : β} :
    x >>= f = .ok b ↔ ∃ a, x = .ok a ∧ f a = .ok b := by
  constructor
  · intro h
    cases x with
    | error e => cases h
    | ok a => exact ⟨a, rfl, h⟩
  · rintro ⟨a, rfl, h⟩
    exact h

/-- Mapping a result keeps whether there is one. -/
theorem map_eq_ok {x : Except ε α} {f : α → β} {b : β} :
    f <$> x = .ok b ↔ ∃ a, x = .ok a ∧ f a = b := by
  cases x with
  | error e => exact ⟨fun h => (by cases h), fun ⟨_, h, _⟩ => (by cases h)⟩
  | ok a =>
      constructor
      · intro h
        cases h
        exact ⟨a, rfl, rfl⟩
      · rintro ⟨a', h, rfl⟩
        cases h
        rfl

/-- What holds of whatever a step gives holds of what it has given. -/
theorem holds_of_eq_ok {x : Except ε α} {p : α → Bool} (hp : x.toOption.any p = true) {a : α}
    (h : x = .ok a) : p a = true := by
  rw [h] at hp
  exact hp

/-- A step that does not fail gives a result. -/
theorem exists_of_toBool {x : Except ε α} (h : x.toBool = true) : ∃ a, x = .ok a := by
  cases x with
  | error e => cases h
  | ok a => exact ⟨a, rfl⟩

/-- A step that gives something of which a test holds. -/
theorem exists_of_any {x : Except ε α} {check : α → Bool} (h : x.toOption.any check = true) :
    ∃ a, x = .ok a ∧ check a = true := by
  cases x with
  | error e => cases h
  | ok a => exact ⟨a, rfl, h⟩

/-- A step for each element succeeds exactly if each one does. -/
theorem mapM_eq_ok {f : α → Except ε β} {as : List α} {bs : List β} :
    as.mapM f = .ok bs ↔ List.Forall₂ (fun a b => f a = .ok b) as bs := by
  induction as generalizing bs with
  | nil =>
      rw [List.mapM_nil]
      constructor
      · intro h
        cases h
        exact List.Forall₂.nil
      · intro h
        cases h
        rfl
  | cons a as ih =>
      rw [List.mapM_cons, bind_eq_ok]
      constructor
      · rintro ⟨b, hb, h⟩
        obtain ⟨bs', hbs, h⟩ := bind_eq_ok.1 h
        cases h
        exact List.Forall₂.cons hb (ih.1 hbs)
      · intro h
        cases h with
        | cons hb hbs => exact ⟨_, hb, bind_eq_ok.2 ⟨_, ih.2 hbs, rfl⟩⟩

/-- Where there is an element there is a result. -/
theorem exists_cons_of_mapM {f : α → Except ε β} {a : α} {as : List α} {bs : List β}
    (h : (a :: as).mapM f = .ok bs) : ∃ b rest, bs = b :: rest := by
  cases mapM_eq_ok.1 h with
  | cons => exact ⟨_, _, rfl⟩

/-- A step for each element gives results if each one gives one. -/
theorem exists_mapM_iff {f : α → Except ε β} {as : List α} :
    (∃ bs, as.mapM f = .ok bs) ↔ ∀ a ∈ as, ∃ b, f a = .ok b := by
  induction as with
  | nil => exact ⟨fun _ a ha => (by cases ha), fun _ => ⟨[], rfl⟩⟩
  | cons a as ih =>
      rw [List.forall_mem_cons, ← ih, List.mapM_cons]
      constructor
      · rintro ⟨bs, hbs⟩
        obtain ⟨b, hb, hbs⟩ := bind_eq_ok.1 hbs
        obtain ⟨rest, hrest, _⟩ := bind_eq_ok.1 hbs
        exact ⟨⟨b, hb⟩, rest, hrest⟩
      · rintro ⟨⟨b, hb⟩, rest, hrest⟩
        exact ⟨b :: rest, bind_eq_ok.2 ⟨b, hb, bind_eq_ok.2 ⟨rest, hrest, rfl⟩⟩⟩

/-- Every element of a list has its image among the results. -/
theorem mem_of_mapM_eq_ok {f : α → Except ε β} {as : List α} {bs : List β}
    (h : as.mapM f = .ok bs) {a : α} (ha : a ∈ as) : ∃ b ∈ bs, f a = .ok b :=
  exists_of_mem_left (mapM_eq_ok.1 h) ha

/-- Every result is the image of an element. -/
theorem mem_of_mem_mapM {f : α → Except ε β} {as : List α} {bs : List β}
    (h : as.mapM f = .ok bs) {b : β} (hb : b ∈ bs) : ∃ a ∈ as, f a = .ok b :=
  exists_of_mem_right (mapM_eq_ok.1 h) hb

/-- A step followed by a map of its result, element by element. -/
theorem mapM_map_result {γ : Type} (f : α → Except ε β) (g : β → γ) (as : List α) :
    (as.mapM fun a => g <$> f a) = List.map g <$> as.mapM f := by
  induction as with
  | nil => rfl
  | cons a as ih =>
      rw [List.mapM_cons, List.mapM_cons, ih]
      cases f a with
      | error e => rfl
      | ok b =>
          cases as.mapM f with
          | error e => rfl
          | ok bs => rfl

-- ===================================================== why steps fail

/-- Why a step fails, if it does. -/
def failure? : Except ε α → Option ε
  | .error e => some e
  | .ok _ => none

theorem failure?_eq_some_iff {x : Except ε α} {e : ε} : failure? x = some e ↔ x = .error e := by
  cases x <;> simp [failure?]

theorem failure?_map (f : α → β) (x : Except ε α) : failure? (f <$> x) = failure? x := by
  cases x <;> rfl

/-- Two steps in a row fail as the first one does if the second cannot
fail. -/
theorem failure?_bind {x : Except ε α} {f : α → Except ε β}
    (h : ∀ a, x = .ok a → failure? (f a) = none) : failure? (x >>= f) = failure? x := by
  cases x with
  | error e => rfl
  | ok a => exact h a rfl

/-- A step for each element fails as the first one that does. -/
theorem failure?_mapM (f : α → Except ε β) (as : List α) :
    failure? (as.mapM f) = as.findSome? fun a => failure? (f a) := by
  induction as with
  | nil => rfl
  | cons a as ih =>
      rw [List.mapM_cons, List.findSome?_cons, ← ih]
      cases f a with
      | error e => rfl
      | ok b => cases as.mapM f <;> rfl

/-- A fold whose steps each put one result to what there is: the results
are made first, then they are put one after another. -/
theorem foldlM_map {γ : Type} (f : α → Except ε β) (place : γ → β → γ) (as : List α) (start : γ) :
    as.foldlM (fun acc a => place acc <$> f a) start = List.foldl place start <$> as.mapM f := by
  induction as generalizing start with
  | nil => rfl
  | cons a as ih =>
      rw [List.foldlM_cons, List.mapM_cons]
      cases f a with
      | error e => rfl
      | ok b =>
          show as.foldlM _ (place start b) = _
          rw [ih]
          cases as.mapM f <;> rfl

end

-- ============================================ steps that tell and declare

/-- Whether a notice is about an enum type that is declared with other
values than before. -/
def Notice.isRedeclaration : Notice → Bool
  | .enumAlreadyDeclared .. => true
  | _ => false

/-- The notices about enum types that are declared with other values than
before. -/
def Progress.redeclarations (p : Progress) : List Notice :=
  p.notices.filter Notice.isRedeclaration

/-- Between two points of a run no enum type has been declared, and there
is no notice of one that is declared with other values than before. -/
structure Progress.Quiet (p q : Progress) : Prop where
  declared : q.declared = p.declared
  redeclarations : q.redeclarations = p.redeclarations

theorem Progress.Quiet.trans {p q r : Progress} (h : p.Quiet q) (h' : q.Quiet r) : p.Quiet r :=
  ⟨h'.declared.trans h.declared, h'.redeclarations.trans h.redeclarations⟩

/-- Merging tells of entries that are replaced. -/
theorem Fragment.not_isRedeclaration_of_mem_mergeNotices {fs : List Fragment} {n : Notice}
    (hn : n ∈ mergeNotices fs) : n.isRedeclaration = false := by
  unfold mergeNotices at hn
  generalize empty = earlier at hn
  induction fs generalizing earlier with
  | nil => cases hn
  | cons f fs ih =>
      rw [mergeNoticesAfter, List.mem_append, appendNotices, List.mem_append] at hn
      have hsections : ∀ {map : EntryMap} {old new : SectionMap},
          n ∈ SectionMap.notices map old new → n.isRedeclaration = false := by
        intro map old new hmem
        obtain ⟨⟨type, s⟩, _, hmem⟩ := List.mem_flatMap.1 hmem
        obtain ⟨field, _, rfl⟩ := List.mem_map.1 hmem
        rfl
      rcases hn with (hn | hn) | hn
      · exact hsections hn
      · exact hsections hn
      · exact ih _ hn

namespace Work

variable {α β : Type}

/-- A run of a step that succeeds: from one progress it gives a result and
leaves another progress. -/
def Yields (w : Work α) (p : Progress) (a : α) (q : Progress) : Prop :=
  w.run.run p = (.ok a, q)

variable {p q : Progress}

theorem yields_pure {a b : α} : (pure a : Work α).Yields p b q ↔ a = b ∧ p = q := by
  constructor
  · intro h
    cases h
    exact ⟨rfl, rfl⟩
  · rintro ⟨rfl, rfl⟩
    rfl

theorem run_bind (w : Work α) (f : α → Work β) (p : Progress) :
    (w >>= f).run.run p
      = match w.run.run p with
        | (.ok a, q) => (f a).run.run q
        | (.error e, q) => (.error e, q) := by
  rw [ExceptT.run_bind, StateT.run_bind]
  rcases w.run.run p with ⟨x | x, q⟩ <;> rfl

/-- A run of two steps in a row is a run of the first and then one of the
second. -/
theorem yields_bind {w : Work α} {f : α → Work β} {b : β} {r : Progress} :
    (w >>= f).Yields p b r ↔ ∃ a q, w.Yields p a q ∧ (f a).Yields q b r := by
  unfold Yields
  rw [run_bind]
  rcases w.run.run p with ⟨x | a, q⟩
  · exact ⟨fun h => (by cases h), fun ⟨_, _, h, _⟩ => (by cases h)⟩
  · constructor
    · exact fun h => ⟨a, q, rfl, h⟩
    · rintro ⟨a', q', h, h'⟩
      cases h
      exact h'

theorem yields_lift {x : Except Fault α} {a : α} :
    (lift x).Yields p a q ↔ x = .ok a ∧ p = q := by
  cases x with
  | error e => exact ⟨fun h => (by cases h), fun ⟨h, _⟩ => (by cases h)⟩
  | ok b =>
      show (pure b : Work α).Yields p a q ↔ _
      rw [yields_pure, Except.ok.injEq]

theorem yields_modify {f : Progress → Progress} {u : Unit} :
    (modify f : Work Unit).Yields p u q ↔ f p = q := by
  constructor
  · intro h
    cases h
    rfl
  · rintro rfl
    rfl

theorem yields_get {a : Progress} : (get : Work Progress).Yields p a q ↔ p = a ∧ p = q := by
  constructor
  · intro h
    cases h
    exact ⟨rfl, rfl⟩
  · rintro ⟨rfl, rfl⟩
    rfl

theorem yields_tell {ns : List Notice} {u : Unit} :
    (tell ns).Yields p u q ↔ { p with notices := p.notices ++ ns } = q := yields_modify

/-- Telling of other things than enum types declared twice is quiet. -/
theorem quiet_of_tell {ns : List Notice} {u : Unit} (h : (tell ns).Yields p u q)
    (hns : ∀ n ∈ ns, n.isRedeclaration = false) : p.Quiet q := by
  rw [← yields_tell.1 h]
  refine ⟨rfl, ?_⟩
  have hnone : ns.filter Notice.isRedeclaration = [] := by
    rw [List.filter_eq_nil_iff]
    intro n hn
    rw [hns n hn]
    exact Bool.false_ne_true
  show (p.notices ++ ns).filter _ = p.notices.filter _
  rw [List.filter_append, hnone, List.append_nil]

/-- A step has one run from a progress. -/
theorem Yields.unique {w : Work α} {a a' : α} {q' : Progress} (h : w.Yields p a q)
    (h' : w.Yields p a' q') : a = a' ∧ q = q' := by
  unfold Yields at h h'
  rw [h] at h'
  cases h'
  exact ⟨rfl, rfl⟩

/-- In a run of a step for each element every element has a run, whose
result is among the results. -/
theorem mem_of_mapM_yields {f : α → Work β} {as : List α} {bs : List β}
    (h : (as.mapM f).Yields p bs q) {a : α} (ha : a ∈ as) :
    ∃ p' b q', (f a).Yields p' b q' ∧ b ∈ bs := by
  induction as generalizing p bs with
  | nil => cases ha
  | cons a' as ih =>
      rw [List.mapM_cons] at h
      obtain ⟨b, p₁, hhead, h⟩ := yields_bind.1 h
      obtain ⟨rest, p₂, htail, h⟩ := yields_bind.1 h
      obtain ⟨rfl, rfl⟩ := yields_pure.1 h
      rcases List.mem_cons.1 ha with rfl | ha
      · exact ⟨p, b, p₁, hhead, List.mem_cons_self⟩
      · obtain ⟨p', b', q', hrun, hmem⟩ := ih htail ha
        exact ⟨p', b', q', hrun, List.mem_cons_of_mem _ hmem⟩

/-- In a run of a step for each element every result is that of an
element. -/
theorem mem_of_mem_mapM_yields {f : α → Work β} {as : List α} {bs : List β}
    (h : (as.mapM f).Yields p bs q) {b : β} (hb : b ∈ bs) :
    ∃ a ∈ as, ∃ p' q', (f a).Yields p' b q' := by
  induction as generalizing p bs with
  | nil =>
      rw [List.mapM_nil] at h
      obtain ⟨rfl, rfl⟩ := yields_pure.1 h
      cases hb
  | cons a as ih =>
      rw [List.mapM_cons] at h
      obtain ⟨b', p₁, hhead, h⟩ := yields_bind.1 h
      obtain ⟨rest, p₂, htail, h⟩ := yields_bind.1 h
      obtain ⟨rfl, rfl⟩ := yields_pure.1 h
      rcases List.mem_cons.1 hb with rfl | hb
      · exact ⟨a, List.mem_cons_self, p, p₁, hhead⟩
      · obtain ⟨a', ha', hrun⟩ := ih htail hb
        exact ⟨a', List.mem_cons_of_mem _ ha', hrun⟩

/-- A step that does not fail has a run. -/
theorem exists_yields {w : Work α} (h : (w.run.run p).1.toBool = true) :
    ∃ a q, w.Yields p a q := by
  obtain ⟨a, ha⟩ := exists_of_toBool h
  exact ⟨a, (w.run.run p).2, Prod.ext ha rfl⟩

/-- A step that gives something of which a test holds has a run. -/
theorem exists_yields_of_any {w : Work α} {check : α → Bool}
    (h : (w.run.run p).1.toOption.any check = true) : ∃ a q, w.Yields p a q ∧ check a = true := by
  obtain ⟨a, ha, hcheck⟩ := exists_of_any h
  exact ⟨a, (w.run.run p).2, Prod.ext ha rfl, hcheck⟩

end Work

-- =================================================== runs of the compiler

namespace Compiler

variable {c : Compiler} {m : Model} {p q : Progress}

/-- What a run of the fragment of a component has done: an object type, enum
types and input types. -/
theorem componentFragment_inv {f : Fragment} (h : (c.componentFragment m).Yields p f q) :
    ∃ type enums inputs key p', c.typeDefinition m = .ok type
      ∧ p.Quiet p' ∧ (c.enums m).Yields p' enums q
      ∧ Inputs.inputModel c.registry c.visibility m m.globalId true = .ok inputs
      ∧ m.globalId.key = .ok key
      ∧ f = { definition := type :: enums ++ [inputs], objectTypes := [key] } := by
  obtain ⟨_, p', htell, h⟩ := Work.yields_bind.1 h
  obtain ⟨type, _, hlift, h⟩ := Work.yields_bind.1 h
  obtain ⟨htype, rfl⟩ := Work.yields_lift.1 hlift
  obtain ⟨enums, _, henums, h⟩ := Work.yields_bind.1 h
  obtain ⟨inputs, _, hlift, h⟩ := Work.yields_bind.1 h
  obtain ⟨hinputs, rfl⟩ := Work.yields_lift.1 hlift
  obtain ⟨key, _, hlift, h⟩ := Work.yields_bind.1 h
  obtain ⟨hkey, rfl⟩ := Work.yields_lift.1 hlift
  obtain ⟨rfl, rfl⟩ := Work.yields_pure.1 h
  have hquiet := Work.quiet_of_tell htell (List.forall_mem_singleton.2 rfl)
  exact ⟨type, enums, inputs, key, p', htype, hquiet, henums, hinputs, hkey, rfl⟩

/-- What a run of the fragment of a model has done: dynamic zones, an object
type and enum types, and operations if there are any. -/
theorem modelFragment_inv {f : Fragment} (h : (c.modelFragment m).Yields p f q) :
    ∃ zones type enums key p' q', c.dynamicZones m = .ok zones
      ∧ c.typeDefinition m = .ok type
      ∧ p.Quiet p' ∧ (c.enums m).Yields p' enums q' ∧ q'.Quiet q
      ∧ m.globalId.key = .ok key
      ∧ let own : Fragment :=
          { definition := type :: enums ++ zones.definitions
            resolver := zones.resolvers
            objectTypes := [key] }
        c.config.shadowCrud = false ∧ f = own
          ∨ c.config.shadowCrud = true
            ∧ ∃ operations, c.operations m = .ok operations
              ∧ f = Fragment.merge [own, operations] := by
  obtain ⟨_, p', htell, h⟩ := Work.yields_bind.1 h
  obtain ⟨zones, _, hlift, h⟩ := Work.yields_bind.1 h
  obtain ⟨hzones, rfl⟩ := Work.yields_lift.1 hlift
  obtain ⟨type, _, hlift, h⟩ := Work.yields_bind.1 h
  obtain ⟨htype, rfl⟩ := Work.yields_lift.1 hlift
  obtain ⟨enums, q', henums, h⟩ := Work.yields_bind.1 h
  obtain ⟨key, _, hlift, h⟩ := Work.yields_bind.1 h
  obtain ⟨hkey, rfl⟩ := Work.yields_lift.1 hlift
  have hquiet := Work.quiet_of_tell htell (List.forall_mem_singleton.2 rfl)
  cases hshadow : c.config.shadowCrud with
  | false =>
      rw [hshadow] at h
      obtain ⟨rfl, rfl⟩ := Work.yields_pure.1 h
      exact ⟨zones, type, enums, key, p', q', hzones, htype, hquiet, henums, ⟨rfl, rfl⟩, hkey,
        Or.inl ⟨rfl, rfl⟩⟩
  | true =>
      rw [hshadow] at h
      obtain ⟨operations, _, hlift, h⟩ := Work.yields_bind.1 h
      obtain ⟨hoperations, rfl⟩ := Work.yields_lift.1 hlift
      obtain ⟨_, _, htell', h⟩ := Work.yields_bind.1 h
      obtain ⟨rfl, rfl⟩ := Work.yields_pure.1 h
      have hmerged := Work.quiet_of_tell htell' fun n hn =>
        Fragment.not_isRedeclaration_of_mem_mergeNotices hn
      exact ⟨zones, type, enums, key, p', q', hzones, htype, hquiet, henums, hmerged, hkey,
        Or.inr ⟨rfl, operations, hoperations, rfl⟩⟩

/-- The fragments of all entries are those of the components and then those
of the models. -/
theorem generated_inv {fs : List Fragment} (h : c.generated.Yields p fs q) :
    ∃ components models p',
      ((c.registry.components.map Prod.snd).mapM c.componentFragment).Yields p components p'
      ∧ ((c.registry.models.map Prod.snd).mapM c.modelFragment).Yields p' models q
      ∧ fs = components ++ models := by
  obtain ⟨components, p', hcomponents, h⟩ := Work.yields_bind.1 h
  obtain ⟨models, _, hmodels, h⟩ := Work.yields_bind.1 h
  obtain ⟨rfl, rfl⟩ := Work.yields_pure.1 h
  exact ⟨components, models, p', hcomponents, hmodels, rfl⟩

/-- A compiled schema is assembled of the fragments of all entries and of
what is contributed. -/
theorem build_inv {s : CompiledSchema} (h : c.build.Yields p s q) :
    ∃ fs union p' q', p' = { p with declared := [] } ∧ c.generated.Yields p' fs q' ∧ q'.Quiet q
      ∧ let f := Fragment.merge (fs ++ [c.contributed])
        Morph.definition f.morphMembers = .ok union
          ∧ s = { sdl := assemble f union
                  fragment := f
                  morph := f.morphMembers
                  resolvers := Assoc.putAll f.resolver
                    (Fragment.morphResolvers f.morphMembers) } := by
  obtain ⟨_, p', hmodify, h⟩ := Work.yields_bind.1 h
  obtain ⟨fs, q', hgenerated, h⟩ := Work.yields_bind.1 h
  obtain ⟨_, _, hmerge, h⟩ := Work.yields_bind.1 h
  obtain ⟨schema, _, hlift, h⟩ := Work.yields_bind.1 h
  obtain ⟨hfinish, rfl⟩ := Work.yields_lift.1 hlift
  obtain ⟨_, _, htell, h⟩ := Work.yields_bind.1 h
  obtain ⟨rfl, rfl⟩ := Work.yields_pure.1 h
  obtain ⟨union, hunion, hfinish⟩ := bind_eq_ok.1 hfinish
  cases hfinish
  have hmerged := Work.quiet_of_tell hmerge fun n hn =>
    Fragment.not_isRedeclaration_of_mem_mergeNotices hn
  have hfinished := Work.quiet_of_tell htell fun n hn => by
    rw [List.mem_singleton] at hn
    rw [hn]
    unfold finishNotice
    split <;> rfl
  exact ⟨fs, union, p', q', (Work.yields_modify.1 hmodify).symm, hgenerated,
    hmerged.trans hfinished, hunion, rfl⟩

end Compiler

end ModelSchema
