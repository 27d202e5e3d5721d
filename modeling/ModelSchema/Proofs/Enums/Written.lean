/-
The enum types of a compiled schema. The fragments of a registry are made
one after another, components first, and what has been declared when it is
the turn of one are the enum types that the entries before it use
(`Progress.Settled`). So an entry writes the first uses of those names
that no entry before it uses, and all entries together write the first use
of every name (`build_writes`).
-/
import ModelSchema.Proofs.Enums.Uses

namespace ModelSchema

/-- Whether a run has declared these uses of enum types, and told of them,
and of no others. -/
structure Progress.Settled (p : Progress) (used : List (Key × List Value)) : Prop where
  declared : p.declared = Enums.after [] used
  redeclarations : p.redeclarations = Enums.redeclarations used

/-- Quiet steps settle nothing more. -/
theorem Progress.Quiet.settled {p q : Progress} {used : List (Key × List Value)}
    (h : p.Quiet q) (hp : p.Settled used) : q.Settled used :=
  ⟨h.declared.trans hp.declared, h.redeclarations.trans hp.redeclarations⟩

namespace Compiler

-- ================================================================= parts

/-- A part of a registry, which is compiled to a fragment of its own. -/
inductive Part where
  | component (m : Model)
  | model (m : Model)

/-- The entry that a part is. -/
def Part.entry : Part → Model
  | .component m => m
  | .model m => m

variable (c : Compiler)

/-- The parts of the registry, in the order in which they are compiled. -/
def parts : List Part :=
  c.registry.components.map (fun e => .component e.2) ++ c.registry.models.map fun e => .model e.2

/-- The fragment of a part. -/
def fragmentOf : Part → Work Fragment
  | .component m => c.componentFragment m
  | .model m => c.modelFragment m

/-- What the fragment of a part declares besides its object type and its
enum types: the input types of a component, the zones and the operations
of a model. -/
def othersOf : Part → Except Fault (List String)
  | .component m => do
      return [← Inputs.inputModel c.registry c.visibility m m.globalId true]
  | .model m => do
      let zones ← c.dynamicZones m
      if c.config.shadowCrud then return zones.definitions ++ (← c.operations m).definition
      else return zones.definitions

/-- The enum types that a part uses. -/
def usesOf (part : Part) : List (Key × List Value) := c.usedEnums part.entry

/-- The enum types that all parts use, in order. -/
def uses : List (Key × List Value) := c.parts.flatMap c.usesOf

/-- The enum types that the parts before one use. -/
def usesBefore (i : Nat) : List (Key × List Value) := (c.parts.take i).flatMap c.usesOf

theorem map_entry_parts : c.parts.map Part.entry = c.entries := by
  unfold parts entries
  rw [List.map_append, List.map_map, List.map_map]
  rfl

theorem generated_eq : c.generated = c.parts.mapM c.fragmentOf := by
  unfold generated parts
  rw [List.mapM_append, List.mapM_map, List.mapM_map, List.mapM_map, List.mapM_map]
  rfl

/-- After certain uses, a part writes these enum types in its fragment, and
no others. -/
structure Writes (used : List (Key × List Value)) (part : Part)
    (w : List (Key × List Value) × Fragment) : Prop where
  uses : c.enumTypes part.entry = .ok (c.usesOf part)
  new : w.1 = Enums.newUses used (c.usesOf part)
  definition : ∃ type others, c.typeDefinition part.entry = .ok type ∧ c.othersOf part = .ok others
    ∧ w.2.definition = type :: (w.1.map fun e => Enums.definition e.1.value e.2) ++ others

-- ============================================================== one part

variable {c} {p q : Progress}

/-- A run of enum types after certain uses. -/
theorem enums_settled {m : Model} {used : List (Key × List Value)} {written : List String}
    (hp : p.Settled used) (h : (c.enums m).Yields p written q) :
    c.enumTypes m = .ok (c.usedEnums m)
      ∧ written = ((Enums.newUses used (c.usedEnums m)).map fun e =>
          Enums.definition e.1.value e.2)
      ∧ q.Settled (used ++ c.usedEnums m) := by
  obtain ⟨types, htypes, rfl, rfl⟩ := c.enums_yields h
  rw [usedEnums_of_eq_ok htypes, hp.declared, Enums.fresh_after]
  refine ⟨htypes, ?_, ?_, ?_⟩
  · exact List.map_congr_left fun e _ => (Enums.enumDefinition_eq e).symm
  · exact (Enums.after_append [] used types).symm
  · show (p.notices ++ _).filter _ = _
    have hbefore : p.notices.filter Notice.isRedeclaration = _ := hp.redeclarations
    rw [List.filter_append, hbefore, ← Enums.redeclarations_told, ← Enums.redeclarations_told,
      Enums.told_append, List.filter_append]

/-- A run of the fragment of a part after certain uses. -/
theorem fragmentOf_settled {part : Part} {used : List (Key × List Value)} {f : Fragment}
    (hp : p.Settled used) (h : (c.fragmentOf part).Yields p f q) :
    c.Writes used part (Enums.newUses used (c.usesOf part), f)
      ∧ q.Settled (used ++ c.usesOf part) := by
  cases part with
  | component m =>
      obtain ⟨type, enums, inputs, key, _, htype, hquiet, henums, hinputs, _, rfl⟩ :=
        componentFragment_inv h
      obtain ⟨huses, rfl, hsettled⟩ := enums_settled (hquiet.settled hp) henums
      refine ⟨⟨huses, rfl, type, [inputs], htype, ?_, rfl⟩, hsettled⟩
      exact bind_eq_ok.2 ⟨inputs, hinputs, rfl⟩
  | model m =>
      obtain ⟨zones, type, enums, key, _, q', hzones, htype, hquiet, henums, hlast, _, hcase⟩ :=
        modelFragment_inv h
      obtain ⟨huses, rfl, hsettled⟩ := enums_settled (hquiet.settled hp) henums
      refine ⟨⟨huses, rfl, ?_⟩, hlast.settled hsettled⟩
      rcases hcase with ⟨hshadow, rfl⟩ | ⟨hshadow, operations, hoperations, rfl⟩
      · refine ⟨type, zones.definitions, htype, bind_eq_ok.2 ⟨zones, hzones, ?_⟩, rfl⟩
        rw [hshadow]
        rfl
      · refine ⟨type, zones.definitions ++ operations.definition, htype,
          bind_eq_ok.2 ⟨zones, hzones, ?_⟩, ?_⟩
        · rw [hshadow]
          exact bind_eq_ok.2 ⟨operations, hoperations, rfl⟩
        · rw [Fragment.merge_definition, List.flatMap_cons, List.flatMap_singleton]
          exact List.append_assoc _ _ _

-- ============================================================= all parts

/-- A run of the fragments of parts one after another. Every part finds the
uses of those before it declared, so its fragment has the first uses of the
names that are left. -/
theorem mapM_fragmentOf_settled {parts : List Part} {used : List (Key × List Value)}
    {fs : List Fragment} (hp : p.Settled used) (h : (parts.mapM c.fragmentOf).Yields p fs q) :
    q.Settled (used ++ parts.flatMap c.usesOf)
      ∧ ∃ written : List (List (Key × List Value) × Fragment), written.map Prod.snd = fs
        ∧ Enums.firstUses used ++ written.flatMap Prod.fst
            = Enums.firstUses (used ++ parts.flatMap c.usesOf)
        ∧ written.length = parts.length
        ∧ ∀ i part w, parts[i]? = some part → written[i]? = some w →
            c.Writes (used ++ (parts.take i).flatMap c.usesOf) part w := by
  induction parts generalizing p used fs with
  | nil =>
      rw [List.mapM_nil] at h
      obtain ⟨rfl, rfl⟩ := Work.yields_pure.1 h
      rw [List.flatMap_nil, List.append_nil]
      exact ⟨hp, [], rfl, List.append_nil _, rfl, fun _ _ _ hpart => (by cases hpart)⟩
  | cons part parts ih =>
      rw [List.mapM_cons] at h
      obtain ⟨f, p', hhead, h⟩ := Work.yields_bind.1 h
      obtain ⟨rest, _, htail, h⟩ := Work.yields_bind.1 h
      obtain ⟨rfl, rfl⟩ := Work.yields_pure.1 h
      obtain ⟨hwrites, hsettled⟩ := fragmentOf_settled hp hhead
      obtain ⟨hlast, written, rfl, hfirst, hlength, hrest⟩ := ih hsettled htail
      rw [List.append_assoc] at hlast hfirst
      refine ⟨hlast, (Enums.newUses used (c.usesOf part), f) :: written, rfl, ?_, ?_, ?_⟩
      · rw [List.flatMap_cons, ← List.append_assoc, ← Enums.firstUses_append, hfirst]
        rfl
      · rw [List.length_cons, List.length_cons, hlength]
      · intro i part' w hpart hw
        cases i with
        | zero =>
            cases hpart
            cases hw
            rw [List.take_zero, List.flatMap_nil, List.append_nil]
            exact hwrites
        | succ i =>
            have hnext := hrest i part' w hpart hw
            rwa [List.append_assoc] at hnext

/-- A schema has every enum type that the entries use once. It has the
fragments of all parts, each with what the part writes after the uses of
those before it; what is written in all of them is the first use of each
name; and it has been told of every use with other values than the first
one of its name. -/
structure DeclaresOnce (c : Compiler) (s : CompiledSchema) (q : Progress) : Prop where
  fragments : ∃ written : List (List (Key × List Value) × Fragment),
    s.fragment.definition = written.flatMap (fun w => w.2.definition) ++ c.contributed.definition
      ∧ written.flatMap Prod.fst = Enums.firstUses c.uses
      ∧ written.length = c.parts.length
      ∧ ∀ i part w, c.parts[i]? = some part → written[i]? = some w →
          c.Writes (c.usesBefore i) part w
  assembled : ∃ union, s.sdl = assemble s.fragment union
  distinct : Assoc.Distinct (Enums.firstUses c.uses)
  first : ∀ k, Assoc.get? (Enums.firstUses c.uses) k = Assoc.get? c.uses k
  told : q.redeclarations = Enums.redeclarations c.uses

/-- A compiled schema has every enum type once. -/
theorem build_writes {s : CompiledSchema} (h : c.build.Yields p s q)
    (hp : p.redeclarations = []) : c.DeclaresOnce s q := by
  obtain ⟨fs, union, _, q', rfl, hgenerated, hquiet, _, rfl⟩ := build_inv h
  rw [generated_eq] at hgenerated
  have hstart : ({ p with declared := [] } : Progress).Settled [] := ⟨rfl, hp⟩
  obtain ⟨hlast, written, rfl, hfirst, hlength, hwrites⟩ :=
    mapM_fragmentOf_settled hstart hgenerated
  have hdefinition : (Fragment.merge (written.map Prod.snd ++ [c.contributed])).definition
      = written.flatMap (fun w => w.2.definition) ++ c.contributed.definition := by
    rw [Fragment.merge_definition, List.flatMap_append, List.flatMap_singleton, List.flatMap_map]
  exact {
    fragments := ⟨written, hdefinition, hfirst, hlength, hwrites⟩
    assembled := ⟨union, rfl⟩
    distinct := Enums.distinct_firstUses _
    first := Enums.get?_firstUses _
    told := (hquiet.settled hlast).redeclarations }

/-- The enum types of all entries of a compiled schema may be declared. -/
theorem DeclaresOnce.enumTypes_eq_ok {s : CompiledSchema} (h : c.DeclaresOnce s q) {m : Model}
    (hm : m ∈ c.entries) : c.enumTypes m = .ok (c.usedEnums m) := by
  rw [← map_entry_parts] at hm
  obtain ⟨part, hpart, rfl⟩ := List.mem_map.1 hm
  obtain ⟨written, _, _, hlength, hwrites⟩ := h.fragments
  obtain ⟨i, hi⟩ := List.mem_iff_getElem?.1 hpart
  have hlt : i < written.length := by
    rw [hlength]
    exact (List.getElem?_eq_some_iff.1 hi).1
  exact (hwrites i part _ hi (List.getElem?_eq_getElem hlt)).uses

end Compiler

end ModelSchema
