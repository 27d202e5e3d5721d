/-
Keys of maps. Any value may be a key but a list or a map. Two keys are the
same if they count the same, so `1`, `true` and `1.0` are one key and the
text `1` is another; a map shows the one that was put first.
-/
import ModelSchema.Value

namespace ModelSchema

namespace Value

/-- Whether a value may be a key: lists and maps may not. -/
def isKey : Value → Bool
  | .list _ => false
  | .map _ => false
  | _ => true

theorem isKey_null : Value.null.isKey = true := rfl

/-- The form that all values of one key share: a truth value or a number
without a fraction is the integer that it counts as. -/
def keyForm : Value → Value
  | .bool b => .int (if b then 1 else 0)
  | .float x => (x.toInt?.map Value.int).getD (.float x)
  | v => v

end Value

/-- A value that may be a key. -/
structure Key where
  value : Value
  isKey : value.isKey = true
deriving DecidableEq

namespace Key

/-- The key that a text is. -/
def ofText (s : String) : Key := ⟨.str s, rfl⟩

instance : Inhabited Key := ⟨ofText ""⟩

/-- The key that a value is, if it may be one. -/
def ofValue? (v : Value) : Option Key := if h : v.isKey = true then some ⟨v, h⟩ else none

/-- The form by which keys are compared. -/
def form (k : Key) : Value := k.value.keyForm

instance : BEq Key := ⟨fun a b => a.form == b.form⟩

theorem beq_iff (a b : Key) : (a == b) = true ↔ a.form = b.form := by
  show (a.form == b.form) = true ↔ _
  exact beq_iff_eq

instance : EquivBEq Key where
  rfl := (beq_iff _ _).2 rfl
  symm h := (beq_iff _ _).2 ((beq_iff _ _).1 h).symm
  trans h h' := (beq_iff _ _).2 (((beq_iff _ _).1 h).trans ((beq_iff _ _).1 h'))

/-- Texts are the same key only if they are equal. -/
theorem ofText_beq (s t : String) : (ofText s == ofText t) = (s == t) := by
  rw [Bool.eq_iff_iff, beq_iff]
  simp [form, ofText, Value.keyForm]

/-- A key is a text exactly if it holds that text. -/
theorem beq_ofText_iff (k : Key) (s : String) : (k == ofText s) = true ↔ k.value = .str s := by
  rw [beq_iff]
  show k.value.keyForm = .str s ↔ _
  cases k.value with
  | float x =>
      show (x.toInt?.map Value.int).getD (.float x) = .str s ↔ _
      cases x.toInt? <;> simp
  | _ => simp [Value.keyForm]

/-- Keys that are the same hold one text if one of them holds a text. -/
theorem value_eq_of_beq {k k' : Key} {s : String} (h : (k == k') = true) (hs : k.value = .str s) :
    k'.value = .str s := by
  rw [← beq_ofText_iff] at hs ⊢
  exact PartialEquivBEq.trans (BEq.symm h) hs

/-- The map of texts and what they stand for. -/
def ofTextEntries {α : Type} (entries : List (String × α)) : List (Key × α) :=
  entries.map fun e => (ofText e.1, e.2)

end Key

end ModelSchema
