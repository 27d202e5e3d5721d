/-
Declarations: the definitions that the compiler generates, as data. The
compiler writes text at once; here the same text is the rendering of a
declaration that keeps its name, its fields and the types that they
refer to apart, so that what a schema declares and what it refers to can
be asked of it.

Names are configured values. Two names are the same as keys of a map
are: texts if they are equal (`sameName_str_iff`).
-/
import ModelSchema.Inputs

namespace ModelSchema

-- ====================================================== texts in a row

/-- Two rows of texts are one text when they are joined, and they are empty
together. -/
def Joined (sep : String) (xs ys : List String) : Prop :=
  sep.intercalate xs = sep.intercalate ys ∧ (xs = [] ↔ ys = [])

namespace Joined

variable {sep : String} {xs xs' ys ys' : List String}

theorem refl (sep : String) (xs : List String) : Joined sep xs xs := ⟨rfl, Iff.rfl⟩

/-- A row that is joined already is joined with itself. -/
theorem single (h : ys ≠ []) : Joined sep [sep.intercalate ys] ys :=
  ⟨String.intercalate_singleton, fun hnil => (by cases hnil), fun hnil => absurd hnil h⟩

/-- Rows may be joined one after the other. -/
theorem append (h : Joined sep xs ys) (h' : Joined sep xs' ys') :
    Joined sep (xs ++ xs') (ys ++ ys') := by
  obtain ⟨hjoin, hnil⟩ := h
  obtain ⟨hjoin', hnil'⟩ := h'
  refine ⟨?_, ?_⟩
  · by_cases hxs : xs = []
    · rw [hxs, hnil.1 hxs, List.nil_append, List.nil_append, hjoin']
    · have hys : ys ≠ [] := fun hys => hxs (hnil.2 hys)
      by_cases hxs' : xs' = []
      · rw [hxs', hnil'.1 hxs', List.append_nil, List.append_nil, hjoin]
      · have hys' : ys' ≠ [] := fun hys' => hxs' (hnil'.2 hys')
        rw [String.intercalate_append_of_ne_nil hxs hxs',
          String.intercalate_append_of_ne_nil hys hys', hjoin, hjoin']
  · rw [List.append_eq_nil_iff, List.append_eq_nil_iff, hnil, hnil']

/-- Rows that are joined each on its own, none of them empty. -/
theorem rows {α : Type} {row : α → List String} (as : List α) (h : ∀ a, row a ≠ []) :
    Joined sep (as.map fun a => sep.intercalate (row a)) (as.flatMap row) := by
  induction as with
  | nil => exact refl sep []
  | cons a as ih =>
      rw [List.map_cons, List.flatMap_cons]
      exact (single (h a)).append ih

end Joined

-- =============================================================== names

/-- The name at the heart of a type reference. -/
def TypeRef.base : TypeRef → Value
  | .named name => name
  | .list item => item.base
  | .nonNull inner => inner.base

@[simp] theorem TypeRef.base_of (name : String) : (TypeRef.of name).base = .str name := rfl

@[simp] theorem TypeRef.base_requiredIf (flag : Bool) (t : TypeRef) :
    (t.requiredIf flag).base = t.base := by
  cases flag <;> rfl

/-- Whether two names are the same. -/
def Value.SameName (a b : Value) : Prop := a.keyForm = b.keyForm

instance (a b : Value) : Decidable (a.SameName b) :=
  inferInstanceAs (Decidable (a.keyForm = b.keyForm))

/-- A name is the same as a text only if it is that text. -/
theorem Value.sameName_str_iff (a : Value) (s : String) : a.SameName (.str s) ↔ a = .str s := by
  unfold Value.SameName
  cases a with
  | bool b => simp [Value.keyForm]
  | float x =>
      unfold Value.keyForm
      cases h : x.toInt? <;> simp [h]
  | _ => simp [Value.keyForm]

-- ======================================================== declarations

namespace Declaration

/-- A field: its key, its arguments, its type, and what is said of it. -/
structure Field where
  key : String
  args : List (String × TypeRef) := []
  type : TypeRef
  metadata : Sdl.Metadata := {}

/-- What a declared type is made of. An object type may have a
description, which is kept as it is written. -/
inductive Body where
  | scalar
  | union (members : List String)
  | enum (values : List String)
  | object (description : String) (fields : List Field)
  | input (fields : List Field)

end Declaration

/-- The definition of a type. -/
structure Declaration where
  name : Value
  body : Declaration.Body

namespace Declaration

/-- What follows the key of a field. -/
def Field.shape (f : Field) : Sdl.FieldShape :=
  { args := f.args.map fun (name, t) => (name, t.text), type := f.type.text }

/-- A field as it is written. -/
def Field.line (f : Field) : String := Sdl.applyMetadata (Sdl.fieldLine f.key f.shape) f.metadata

/-- Fields as they are written, each from a line of its own on. -/
def lines (fields : List Field) : String := String.intercalate "\n" (fields.map Field.line)

/-- A declaration as it is written. -/
def text (d : Declaration) : String :=
  match d.body with
  | .scalar => "scalar " ++ d.name.text
  | .union members => "union " ++ d.name.text ++ " = " ++ String.intercalate " | " members
  | .enum values => Sdl.renderBlock "enum" d.name.text (String.intercalate "\n" values) ""
  | .object description fields => Sdl.renderBlock "type" d.name.text (lines fields) description
  | .input fields => Sdl.renderBlock "input" d.name.text (lines fields) ""

/-- Declarations with an empty line between them. -/
def texts (ds : List Declaration) : String := String.intercalate "\n\n" (ds.map text)

-- ========================================================== references

/-- The names that a field refers to. -/
def Field.references (f : Field) : List Value :=
  f.type.base :: f.args.map fun (_, t) => t.base

/-- The fields of a declared type. -/
def fields (d : Declaration) : List Field :=
  match d.body with
  | .object _ fields | .input fields => fields
  | _ => []

/-- The members of a declared union. -/
def members (d : Declaration) : List String :=
  match d.body with
  | .union members => members
  | _ => []

/-- The names that a declaration refers to. -/
def references (d : Declaration) : List Value :=
  d.fields.flatMap Field.references ++ d.members.map .str

end Declaration

end ModelSchema
