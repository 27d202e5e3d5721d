/-
Reading parts of a configuration value: its settings, its items, its
pairs. What a value of the wrong kind leads to depends on what is asked
of it: settings can be asked of maps alone, while a list may be run
through, or a map be made, of more than one kind of value.
-/
import ModelSchema.Fault
import ModelSchema.Value.Key

namespace ModelSchema

namespace Value

/-- The settings of a map. -/
def settings (v : Value) : Except Fault (List (String × Value)) :=
  match v with
  | .map entries => .ok entries
  | _ => .error .noSuchMember

/-- The settings of a map; what is not given has none. -/
def settingsIfGiven (v : Value) : Except Fault (List (String × Value)) :=
  if v.isGiven then v.settings else .ok []

/-- The values that a value runs through; what is not given has none. -/
def itemsIfGiven (v : Value) : Except Fault (List Value) :=
  if v.isGiven then
    match v.elements? with
    | some items => .ok items
    | none => .error .wrongKind
  else .ok []

/-- The key that a value is. -/
def key (v : Value) : Except Fault Key :=
  match Key.ofValue? v with
  | some k => .ok k
  | none => .error .wrongKind

/-- The key that a value is holds that value. -/
theorem value_of_key {v : Value} {k : Key} (h : v.key = .ok k) : k.value = v := by
  unfold key Key.ofValue? at h
  by_cases hv : v.isKey = true
  · rw [dif_pos hv] at h
    cases h
    rfl
  · rw [dif_neg hv] at h
    cases h

theorem key_of_isKey {v : Value} (h : v.isKey = true) : v.key = .ok ⟨v, h⟩ := by
  unfold key Key.ofValue?
  rw [dif_pos h]

theorem key_value (k : Key) : k.value.key = .ok k := key_of_isKey k.isKey

/-- One pair of a list of pairs. -/
def pair (index : Nat) (v : Value) : Except Fault (Key × Value) :=
  match v.elements? with
  | some [k, x] => return (← k.key, x)
  | some items => .error (.badPair index items.length)
  | none => .error .wrongKind

/-- The map that a value stands for: a map itself, or a list of pairs of
which later ones win. -/
def pairs (v : Value) : Except Fault (List (Key × Value)) :=
  match v with
  | .map entries => .ok (Key.ofTextEntries entries)
  | _ =>
      match v.elements? with
      | none => .error .wrongKind
      | some items => do
          let found ← items.zipIdx.mapM fun (item, index) => pair index item
          return Assoc.ofPairs found

/-- The map that a value stands for; what is not given stands for the
empty one. -/
def pairsIfGiven (v : Value) : Except Fault (List (Key × Value)) :=
  if v.isGiven then v.pairs else .ok []

end Value

end ModelSchema
