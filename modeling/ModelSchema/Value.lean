/-
Configuration values. Models, attributes and resolvers are described by
documents that nobody has checked: a setting may hold any value at all,
and only what the compiler does with it decides whether it fits. A map
keeps the order in which its keys were written.
-/
import ModelSchema.Assoc
import ModelSchema.Calendar
import ModelSchema.Number.Double

namespace ModelSchema

/-- A value of a configuration document. A record is an object with
attributes, which is not a map and is known by its identity: two records
with the same attributes are two. A callable is known by its name. -/
inductive Value where
  | null
  | bool (b : Bool)
  | int (n : Int)
  | float (x : Double)
  | str (s : String)
  | list (items : List Value)
  | map (entries : List (String × Value))
  | record (identity : Nat) (fields : List (String × Value))
  | callable (name : String)
  | date (d : Calendar.Date)
  | time (t : Calendar.Time)
  | datetime (d : Calendar.Date) (t : Calendar.Time)
deriving Inhabited

namespace Value

-- ==================================================== decided equality

mutual

/-- Whether two values are the same, maps in the same order included. -/
def same : Value → Value → Bool
  | .null, .null => true
  | .bool a, .bool b => a == b
  | .int a, .int b => a == b
  | .float a, .float b => a == b
  | .str a, .str b => a == b
  | .list a, .list b => sameItems a b
  | .map a, .map b => sameEntries a b
  | .record i a, .record j b => i == j && sameEntries a b
  | .callable a, .callable b => a == b
  | .date a, .date b => a == b
  | .time a, .time b => a == b
  | .datetime d t, .datetime d' t' => d == d' && t == t'
  | _, _ => false

/-- `same`, item by item. -/
def sameItems : List Value → List Value → Bool
  | [], [] => true
  | a :: as, b :: bs => same a b && sameItems as bs
  | _, _ => false

/-- `same`, entry by entry. -/
def sameEntries : List (String × Value) → List (String × Value) → Bool
  | [], [] => true
  | (k, a) :: as, (k', b) :: bs => k == k' && same a b && sameEntries as bs
  | _, _ => false

end

mutual

theorem same_iff (a b : Value) : same a b = true ↔ a = b := by
  cases a <;> cases b <;>
    simp [same, sameItems_iff, sameEntries_iff]

theorem sameItems_iff (as bs : List Value) : sameItems as bs = true ↔ as = bs := by
  cases as <;> cases bs <;> simp [sameItems, same_iff, sameItems_iff]

theorem sameEntries_iff (as bs : List (String × Value)) :
    sameEntries as bs = true ↔ as = bs := by
  match as, bs with
  | [], [] => simp [sameEntries]
  | [], _ :: _ => simp [sameEntries]
  | _ :: _, [] => simp [sameEntries]
  | (k, a) :: as, (k', b) :: bs =>
      simp [sameEntries, same_iff a b, sameEntries_iff as bs, Prod.ext_iff]

end

instance : DecidableEq Value := fun a b =>
  if h : same a b = true then .isTrue ((same_iff a b).1 h)
  else .isFalse fun he => h ((same_iff a b).2 he)

-- ======================================================= small questions

/-- Whether a setting counts as given: null, false, zero and whatever is
empty do not. -/
def isGiven : Value → Bool
  | .null => false
  | .bool b => b
  | .int n => n != 0
  | .float x => !x.isZero
  | .str s => s != ""
  | .list items => !items.isEmpty
  | .map entries => !entries.isEmpty
  | _ => true

/-- The value if it is given, else the other one. -/
def orElse (a b : Value) : Value := if a.isGiven then a else b

/-- The entries of a map, none for any other value. -/
def entries? : Value → Option (List (String × Value))
  | .map entries => some entries
  | _ => none

/-- The values that a value runs through: a list its items, a text its
characters, a map its keys. -/
def elements? : Value → Option (List Value)
  | .list items => some items
  | .str s => some (s.toList.map fun c => .str (String.singleton c))
  | .map entries => some (entries.map fun e => .str e.1)
  | _ => none

/-- The value under a key, null where there is none. -/
def getD (entries : List (String × Value)) (key : String) : Value :=
  (Assoc.get? entries key).getD .null

-- ========================================================= loose equality

/-- The number that a number or truth value stands for. -/
def asInt? : Value → Option Int
  | .bool b => some (if b then 1 else 0)
  | .int n => some n
  | _ => none

mutual

/-- Whether two values are equal as data: numbers and truth values by
what they count, maps whatever the order of their keys, records by their
identity. -/
def agrees : Value → Value → Bool
  | .list a, .list b => agreesItems a b
  | .map a, .map b => a.length == b.length && agreesEntries a b
  | .record i _, .record j _ => i == j
  | .float a, .float b => a.equals b
  | .float a, b => match b.asInt? with | some n => a.equalsInt n | none => false
  | a, .float b => match a.asInt? with | some n => b.equalsInt n | none => false
  | a, b =>
      match a.asInt?, b.asInt? with
      | some m, some n => m == n
      | none, none => same a b
      | _, _ => false

/-- `agrees`, item by item. -/
def agreesItems : List Value → List Value → Bool
  | [], [] => true
  | a :: as, b :: bs => agrees a b && agreesItems as bs
  | _, _ => false

/-- Whether every entry has an equal one under its key. -/
def agreesEntries : List (String × Value) → List (String × Value) → Bool
  | [], _ => true
  | (k, a) :: as, bs =>
      (match Assoc.get? bs k with
        | some b => agrees a b
        | none => false) && agreesEntries as bs

end

end Value

end ModelSchema
