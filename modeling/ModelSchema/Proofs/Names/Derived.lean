/-
Names that are derived from a singular. A singular is in camel case, so it
starts with a small letter or a digit, and its base, the singular with its
first letter in upper case, does not start with a small letter. The derived
names put a word of small letters before the base and `Input` or `Payload`
after it, so they tell what they are derived from, and for what
(`Role.name_inj`).
-/
import ModelSchema.Inputs

namespace ModelSchema

namespace Naming

-- ============================================================ small starts

/-- Whether a name in camel case may start with a character. -/
def isSmall (c : Char) : Bool := c.isLower || c.isDigit

/-- What holds of the first 128 characters holds of a letter or digit. -/
theorem forall_isAlphanum {P : Char → Prop} (h : ∀ n : Fin 128, P (Char.ofNat n)) {c : Char}
    (hc : c.isAlphanum = true) : P c := by
  have hlt : c.toNat < 128 := by
    change (decide (c.val ≥ 'A'.val ∧ c.val ≤ 'Z'.val) || (c.val ≥ 'a'.val && c.val ≤ 'z'.val)
      || (c.val ≥ '0'.val && c.val ≤ '9'.val)) = true at hc
    simp only [Bool.or_eq_true, Bool.and_eq_true, decide_eq_true_eq, ge_iff_le,
      UInt32.le_iff_toNat_le] at hc
    change ((65 ≤ c.toNat ∧ c.toNat ≤ 90) ∨ 97 ≤ c.toNat ∧ c.toNat ≤ 122)
      ∨ 48 ≤ c.toNat ∧ c.toNat ≤ 57 at hc
    omega
  have hp := h ⟨c.toNat, hlt⟩
  rw [Char.ofNat_toNat] at hp
  exact hp

theorem isAlphanum_of_isSmall {c : Char} (h : isSmall c = true) : c.isAlphanum = true := by
  unfold isSmall at h
  show (c.isUpper || c.isLower || c.isDigit) = true
  rcases (Bool.or_eq_true _ _).mp h with h | h
  · rw [h, Bool.or_true, Bool.true_or]
  · rw [h, Bool.or_true]

theorem isSmall_toLower {c : Char} (h : c.isAlphanum = true) : isSmall c.toLower = true :=
  forall_isAlphanum (P := fun c => c.isAlphanum = true → isSmall c.toLower = true)
    (by decide) h h

/-- The capital of a small start tells which one it is of. -/
theorem toLower_toUpper {c : Char} (h : isSmall c = true) : c.toUpper.toLower = c :=
  forall_isAlphanum (P := fun c => isSmall c = true → c.toUpper.toLower = c)
    (by decide) (isAlphanum_of_isSmall h) h

theorem isLower_toUpper {c : Char} (h : isSmall c = true) : c.toUpper.isLower = false :=
  forall_isAlphanum (P := fun c => isSmall c = true → c.toUpper.isLower = false)
    (by decide) (isAlphanum_of_isSmall h) h

/-- The capital of a small start is a single letter. -/
theorem upperChar_of_isSmall {c : Char} (h : isSmall c = true) : Text.upperChar c = [c.toUpper] :=
  forall_isAlphanum (P := fun c => isSmall c = true → Text.upperChar c = [c.toUpper])
    (by decide) (isAlphanum_of_isSmall h) h

-- ============================================================= camel case

/-- A text that is empty or has a small start, as names in camel case. -/
def SmallStart (s : String) : Prop := ∀ c rest, s.toList = c :: rest → isSmall c = true

/-- Runs are made of letters and digits, and none is empty. -/
theorem runsFrom_spec (opened cs : List Char) (hopened : ∀ c ∈ opened, c.isAlphanum = true) :
    ∀ run ∈ runsFrom opened cs, run ≠ [] ∧ ∀ c ∈ run, c.isAlphanum = true := by
  have closed : ∀ opened : List Char, opened.isEmpty = false →
      (∀ c ∈ opened, c.isAlphanum = true) →
      opened.reverse ≠ [] ∧ ∀ c ∈ opened.reverse, c.isAlphanum = true := by
    intro opened hsome hopened
    refine ⟨?_, fun c hc => hopened c (List.mem_reverse.1 hc)⟩
    rw [ne_eq, List.reverse_eq_nil_iff]
    rintro rfl
    cases hsome
  induction cs generalizing opened with
  | nil =>
      intro run hrun
      rw [runsFrom] at hrun
      split at hrun
      · cases hrun
      · next hsome =>
          rw [List.mem_singleton.1 hrun]
          exact closed opened (Bool.eq_false_iff.2 hsome) hopened
  | cons c cs ih =>
      intro run hrun
      rw [runsFrom] at hrun
      split at hrun
      · next hname =>
          refine ih (c :: opened) (fun d hd => ?_) run hrun
          rcases List.mem_cons.1 hd with rfl | hd
          · exact hname
          · exact hopened d hd
      · split at hrun
        · exact ih [] (fun d hd => (by cases hd)) run hrun
        · next hsome =>
            rcases List.mem_cons.1 hrun with rfl | hrun
            · exact closed opened (Bool.eq_false_iff.2 hsome) hopened
            · exact ih [] (fun d hd => (by cases hd)) run hrun

/-- A name in camel case has a small start. -/
theorem smallStart_camelCase (s : String) : SmallStart (camelCase s) := by
  intro c rest h
  unfold camelCase at h
  rw [String.toList_ofList] at h
  unfold camelChars at h
  cases hruns : runs s.toList with
  | nil =>
      rw [hruns] at h
      cases h
  | cons first others =>
      obtain ⟨hsome, hchars⟩ := runsFrom_spec [] s.toList (fun d hd => (by cases hd)) first
        (by rw [show runsFrom [] s.toList = first :: others from hruns]; exact List.mem_cons_self)
      rw [hruns] at h
      cases first with
      | nil => exact absurd rfl hsome
      | cons d letters =>
          cases h
          exact isSmall_toLower (hchars d List.mem_cons_self)

/-- A singular has a small start. -/
theorem smallStart_toSingular (s : String) : SmallStart (toSingular s) := by
  unfold toSingular
  split
  · exact smallStart_camelCase s
  · exact smallStart_camelCase _

theorem toList_upperFirst {s : String} (h : SmallStart s) :
    (upperFirst s).toList = match s.toList with
      | [] => []
      | c :: rest => c.toUpper :: rest := by
  unfold upperFirst
  cases hs : s.toList with
  | nil => exact hs
  | cons c rest =>
      show (String.ofList (Text.upperChar c ++ rest)).toList = _
      rw [String.toList_ofList, upperChar_of_isSmall (h c rest hs)]
      rfl

/-- Names with small starts stay different with capitals. -/
theorem upperFirst_inj {s t : String} (hs : SmallStart s) (ht : SmallStart t)
    (h : upperFirst s = upperFirst t) : s = t := by
  have hlist := congrArg String.toList h
  rw [toList_upperFirst hs, toList_upperFirst ht] at hlist
  rw [← String.toList_inj]
  cases hcs : s.toList with
  | nil =>
      cases hct : t.toList with
      | nil => rfl
      | cons d rest' =>
          rw [hcs, hct] at hlist
          cases hlist
  | cons c rest =>
      cases hct : t.toList with
      | nil =>
          rw [hcs, hct] at hlist
          cases hlist
      | cons d rest' =>
          rw [hcs, hct] at hlist
          obtain ⟨hhead, htail⟩ := List.cons.inj hlist
          rw [htail, ← toLower_toUpper (hs c rest hcs), hhead, toLower_toUpper (ht d rest' hct)]

/-- A base does not start with a small letter. -/
theorem takeWhile_upperFirst {s : String} (h : SmallStart s) :
    (upperFirst s).toList.takeWhile Char.isLower = [] := by
  rw [toList_upperFirst h]
  cases hs : s.toList with
  | nil => rfl
  | cons c rest =>
      rw [List.takeWhile_cons, isLower_toUpper (h c rest hs), if_neg Bool.false_ne_true]

end Naming

-- ================================================================== roles

/-- What a derived name is for: one of the two input types of an entry, or
the argument or payload of a mutation. -/
inductive Role where
  | create
  | edit
  | argument (action : Inputs.Action)
  | payload (action : Inputs.Action)
deriving DecidableEq

namespace Role

/-- The word before the base. -/
def lead : Role → String
  | .create => ""
  | .edit => "edit"
  | .argument action | .payload action => action.text

/-- What follows the base. -/
def ending : Role → String
  | .payload _ => "Payload"
  | _ => "Input"

/-- The name that is derived from a base. -/
def name (role : Role) (base : String) : String := role.lead ++ base ++ role.ending

/-- All roles. -/
def all : List Role :=
  [.create, .edit, .argument .create, .argument .update, .argument .delete, .payload .create,
    .payload .update, .payload .delete]

theorem mem_all (role : Role) : role ∈ all := by
  cases role with
  | create => decide
  | edit => decide
  | argument action => cases action <;> decide
  | payload action => cases action <;> decide

/-- A role is told by the texts around the base. -/
theorem eq_of_parts {role role' : Role} (hlead : role.lead = role'.lead)
    (hending : role.ending = role'.ending) : role = role' := by
  have parts : ∀ role ∈ all, ∀ role' ∈ all,
      role.lead = role'.lead → role.ending = role'.ending → role = role' := by decide
  exact parts role (mem_all role) role' (mem_all role') hlead hending

/-- The word before the base is of small letters. -/
theorem isLower_lead (role : Role) : ∀ c ∈ role.lead.toList, c.isLower = true := by
  have small : ∀ role ∈ all, role.lead.toList.all Char.isLower = true := by decide
  exact List.all_eq_true.1 (small role (mem_all role))

/-- What follows the base is told by its last letter. -/
theorem ending_of_getLast {role role' : Role}
    (h : role.ending.toList.getLast? = role'.ending.toList.getLast?) :
    role.ending = role'.ending := by
  have letters : ∀ role ∈ all, ∀ role' ∈ all,
      role.ending.toList.getLast? = role'.ending.toList.getLast? →
      role.ending = role'.ending := by decide
  exact letters role (mem_all role) role' (mem_all role') h

theorem getLast_ending (role : Role) (cs : List Char) :
    (cs ++ role.ending.toList).getLast? = role.ending.toList.getLast? := by
  have some : ∀ role ∈ all, role.ending.toList.getLast?.isSome = true := by decide
  rw [List.getLast?_append, Option.or_of_isSome (some role (mem_all role))]

/-- A derived name tells its base and what it is for. -/
theorem name_inj {role role' : Role} {base base' : String}
    (hbase : base.toList.takeWhile Char.isLower = [])
    (hbase' : base'.toList.takeWhile Char.isLower = []) (h : role.name base = role'.name base') :
    role = role' ∧ base = base' := by
  have hlist := congrArg String.toList h
  unfold name at hlist
  simp only [String.toList_append] at hlist
  -- the last letter tells the ending
  have hending : role.ending = role'.ending := by
    refine ending_of_getLast ?_
    have hlast := congrArg List.getLast? hlist
    rw [getLast_ending, getLast_ending] at hlast
    exact hlast
  rw [hending] at hlist
  replace hlist := List.append_cancel_right hlist
  -- the small letters at the start are the word before the base
  have start : ∀ (role : Role) (base : String), base.toList.takeWhile Char.isLower = [] →
      (role.lead.toList ++ base.toList).takeWhile Char.isLower = role.lead.toList := by
    intro role base hbase
    rw [List.takeWhile_append_of_pos (isLower_lead role), hbase, List.append_nil]
  have hlead := congrArg (List.takeWhile Char.isLower) hlist
  rw [start role base hbase, start role' base' hbase'] at hlead
  rw [hlead] at hlist
  exact ⟨eq_of_parts (String.toList_inj.1 hlead) hending,
    String.toList_inj.1 (List.append_cancel_left hlist)⟩

end Role

end ModelSchema
