/-
Long integers. Some values stand for a number: integers and floating-point
numbers for themselves, and texts for what they write (`Value.number?`).
Exactly these are read, and each as its number without the fraction, by one
rule for both directions (`toOption_toLong`). The rule knows no bounds and
tells of no fraction that it drops, so that what is read has the value that
was given, and fits in 64 bits, exactly if the number was such an integer to
begin with (`long_lossless_iff`).
-/
import Mathlib.Data.Rat.Floor
import Mathlib.Tactic.NormNum.Pow
import ModelSchema.Scalar.Codec

namespace ModelSchema

-- ========================================================= decimal texts

namespace Integer

theorem digitValue?_digitChar : ∀ d < 10, Text.digitValue? (Nat.digitChar d) = some d := by
  decide

/-- Digits and nothing else are read to their end. -/
theorem digitRun_map {ds : List Nat} (h : ∀ d ∈ ds, d < 10) :
    digitRun (ds.map Nat.digitChar) = some (ds, []) := by
  have low : ∀ d < 10, Nat.digitChar d ≠ '_' := by decide
  induction ds with
  | nil => rfl
  | cons d ds ih =>
      have hd := digitValue?_digitChar d (h d List.mem_cons_self)
      cases ds with
      | nil =>
          rw [List.map_cons, List.map_nil, digitRun, hd]
      | cons e ds =>
          have he := low e (h e (by simp))
          have hrest := ih fun d hd => h d (List.mem_cons_of_mem _ hd)
          rw [List.map_cons] at hrest
          rw [List.map_cons, List.map_cons, digitRun, hd]
          dsimp only
          rw [if_neg he, hrest]
          rfl

theorem ofDigits_concat (ds : List Nat) (d : Nat) :
    ofDigits (ds ++ [d]) = ofDigits ds * 10 + d := by
  unfold ofDigits
  rw [List.foldl_append, List.foldl_cons, List.foldl_nil]

/-- The decimal text of a natural number is made of digits that write it. -/
theorem exists_digits (n : Nat) : ∃ ds : List Nat,
    Nat.toDigits 10 n = ds.map Nat.digitChar ∧ (∀ d ∈ ds, d < 10) ∧ ofDigits ds = n := by
  induction n using Nat.strongRecOn with
  | ind n ih =>
      rcases Nat.lt_or_ge n 10 with hn | hn
      · refine ⟨[n], Nat.toDigits_of_lt_base hn, fun d hd => ?_, ?_⟩
        · rwa [List.mem_singleton.1 hd]
        · simp [ofDigits]
      · -- the last digit is put after those of a tenth
        obtain ⟨ds, hds, hlt, hvalue⟩ := ih (n / 10) (by omega)
        refine ⟨ds ++ [n % 10], ?_, fun d hd => ?_, ?_⟩
        · rw [Nat.toDigits_of_base_le (by decide) hn, hds, List.map_append]
          rfl
        · rcases List.mem_append.1 hd with hd | hd
          · exact hlt d hd
          · rw [List.mem_singleton.1 hd]
            omega
        · rw [ofDigits_concat, hvalue]
          omega

/-- Digits have no sign and no blank in front. -/
theorem splitSign_map {ds : List Nat} (h : ∀ d ∈ ds, d < 10) :
    splitSign ((ds.map Nat.digitChar).dropWhile isPadding) = (false, ds.map Nat.digitChar) := by
  have plain : ∀ d < 10, isPadding (Nat.digitChar d) = false
      ∧ Nat.digitChar d ≠ '-' ∧ Nat.digitChar d ≠ '+' := by decide
  cases ds with
  | nil => rfl
  | cons d ds =>
      obtain ⟨hpadding, hminus, hplus⟩ := plain d (h d List.mem_cons_self)
      rw [List.map_cons, List.dropWhile_cons, hpadding, if_neg Bool.false_ne_true]
      unfold splitSign
      split
      · next hcons => exact absurd (List.cons.inj hcons).1 hminus
      · next hcons => exact absurd (List.cons.inj hcons).1 hplus
      · rfl

/-- Digits after a sign, not too many of them, are read as the number that
they write. -/
theorem read_of_digits {cs : List Char} {negative : Bool} {ds : List Nat}
    (hsplit : splitSign (cs.dropWhile isPadding) = (negative, ds.map Nat.digitChar))
    (hsome : ds ≠ []) (hlt : ∀ d ∈ ds, d < 10) (hlength : ds.length ≤ maxDigits) :
    read cs = .ok (if negative then -(ofDigits ds : Int) else ofDigits ds) := by
  unfold read
  rw [hsplit]
  dsimp only
  rw [digitRun_map hlt]
  cases ds with
  | nil => exact absurd rfl hsome
  | cons d ds =>
      dsimp only
      rw [if_neg (Nat.not_lt.2 hlength)]
      rfl

/-- The decimal text of an integer of no more digits than may be read is
read as that integer. -/
theorem read_toString {n : Int} (h : n.natAbs < 10 ^ maxDigits) :
    read (toString n).toList = .ok n := by
  obtain ⟨ds, hds, hlt, hvalue⟩ := exists_digits n.natAbs
  have hsome : ds ≠ [] := by
    rintro rfl
    exact Nat.toDigits_ne_nil hds
  have hlength : ds.length ≤ maxDigits := by
    rw [← List.length_map (f := Nat.digitChar), ← hds]
    exact (Nat.length_toDigits_le_iff (by decide) (by decide)).2 h
  cases n with
  | ofNat m =>
      have htext : (toString (Int.ofNat m)).toList = ds.map Nat.digitChar :=
        Nat.toList_repr.trans hds
      rw [htext, read_of_digits (splitSign_map hlt) hsome hlt hlength, hvalue]
      rfl
  | negSucc m =>
      have htext : (toString (Int.negSucc m)).toList = '-' :: ds.map Nat.digitChar := by
        show ("-" ++ Nat.repr (m + 1)).toList = _
        rw [String.toList_append, Nat.toList_repr, ← hds]
        rfl
      have hsplit : splitSign (('-' :: ds.map Nat.digitChar).dropWhile isPadding)
          = (true, ds.map Nat.digitChar) := rfl
      rw [htext, read_of_digits hsplit hsome hlt hlength, hvalue]
      rfl

end Integer

-- ====================================================== numbers of values

/-- A number without its fraction. -/
def truncated (q : ℚ) : ℤ := if 0 ≤ q then ⌊q⌋ else ⌈q⌉

theorem truncated_intCast (n : ℤ) : truncated n = n := by
  unfold truncated
  rw [Int.floor_intCast, Int.ceil_intCast, ite_self]

theorem truncated_neg {q : ℚ} (h : 0 ≤ q) : truncated (-q) = -⌊q⌋ := by
  unfold truncated
  split
  · next hneg =>
      have hzero : q = 0 := le_antisymm (neg_nonneg.1 hneg) h
      rw [hzero, neg_zero, Int.floor_zero, neg_zero]
  · exact Int.ceil_neg

namespace Double

/-- The number that the bits stand for, `none` for an infinity and for what
is no number. -/
def toRat? (x : Double) : Option ℚ :=
  match x.meaning with
  | .finite negative m q => some (if negative then -(m * 2 ^ q) else m * 2 ^ q)
  | _ => none

theorem wholePart_eq_floor (m : Nat) (q : Int) : (wholePart m q : ℤ) = ⌊(m * 2 ^ q : ℚ)⌋ := by
  unfold wholePart pow2
  split
  · next hq =>
      obtain ⟨k, rfl⟩ := Int.eq_ofNat_of_zero_le hq
      have hproduct : (m * 2 ^ (k : ℤ) : ℚ) = ((m * 2 ^ k : ℕ) : ℚ) := by
        rw [zpow_natCast, Nat.cast_mul, Nat.cast_pow, Nat.cast_ofNat]
      rw [hproduct, Int.floor_natCast]
      rfl
  · next hq =>
      obtain ⟨k, rfl⟩ := Int.eq_negSucc_of_lt_zero (Int.not_le.1 hq)
      have hquotient : (m * 2 ^ Int.negSucc k : ℚ) = ((m : ℤ) : ℚ) / ((2 ^ (k + 1) : ℕ) : ℚ) := by
        rw [zpow_negSucc, div_eq_mul_inv, Nat.cast_pow, Nat.cast_ofNat, Int.cast_natCast]
      rw [hquotient, Rat.floor_intCast_div_natCast]
      rfl

/-- Cutting off the fraction of the bits is cutting off that of the number
that they stand for. -/
theorem truncate?_eq (x : Double) : x.truncate? = x.toRat?.map truncated := by
  unfold truncate? toRat?
  cases x.meaning with
  | finite negative m q =>
      have hnonneg : (0 : ℚ) ≤ m * 2 ^ q :=
        mul_nonneg (Nat.cast_nonneg m) (zpow_nonneg zero_le_two q)
      cases negative with
      | false =>
          show some (wholePart m q : ℤ) = some (truncated (m * 2 ^ q))
          rw [wholePart_eq_floor, truncated, if_pos hnonneg]
      | true =>
          show some (-(wholePart m q : ℤ)) = some (truncated (-(m * 2 ^ q)))
          rw [wholePart_eq_floor, truncated_neg hnonneg]
  | infinite negative => rfl
  | undefined => rfl

end Double

/-- The number that a value is, or that it writes if it is a text. A truth
value is none. -/
def Value.number? : Value → Option ℚ
  | .int n => some n
  | .float x => x.toRat?
  | .str s => (Integer.read? s.toList).map fun n => (n : ℚ)
  | _ => none

-- ============================================================ the codec

namespace Scalar

/-- Whether an integer fits in 64 bits, one of them for the sign. -/
def IsLong (n : ℤ) : Prop := -2 ^ 63 ≤ n ∧ n < 2 ^ 63

theorem IsLong.natAbs_lt {n : ℤ} (h : IsLong n) : n.natAbs < 10 ^ Integer.maxDigits := by
  obtain ⟨hlower, hupper⟩ := h
  calc n.natAbs < 10 ^ 19 := by omega
    _ ≤ 10 ^ Integer.maxDigits := Nat.pow_le_pow_right (by decide) (by decide)

/-- A double is read as its number without the fraction. -/
theorem toOption_longOfDouble (x : Double) :
    (longOfDouble x).toOption = x.toRat?.map truncated := by
  rw [← Double.truncate?_eq]
  unfold longOfDouble Double.truncate?
  cases x.meaning <;> rfl

/-- A text is read as the integer that it writes. -/
theorem toOption_longOfText (s : String) :
    (longOfText s).toOption = Integer.read? s.toList := by
  unfold longOfText Integer.read?
  cases Integer.read s.toList with
  | ok n => rfl
  | error refusal => cases refusal <;> rfl

/-- What stands for a number is read, as that number without the fraction,
and nothing else is. -/
theorem toOption_toLong (v : Value) : (toLong v).toOption = v.number?.map truncated := by
  cases v with
  | int n =>
      show some n = some (truncated n)
      rw [truncated_intCast]
  | float x => exact toOption_longOfDouble x
  | str s =>
      show (longOfText s).toOption
        = ((Integer.read? s.toList).map fun n => (n : ℚ)).map truncated
      rw [toOption_longOfText]
      cases Integer.read? s.toList with
      | none => rfl
      | some n => exact congrArg some (truncated_intCast n).symm
  | _ => rfl

theorem toLong_eq_ok {v : Value} {n : ℤ} (h : toLong v = .ok n) :
    ∃ q, v.number? = some q ∧ n = truncated q := by
  have hoption := toOption_toLong v
  rw [h] at hoption
  obtain ⟨q, hq, hn⟩ := Option.map_eq_some_iff.1 hoption.symm
  exact ⟨q, hq, hn.symm⟩

/-- Both directions of the codec go by one rule. -/
theorem code_long {code : Value → Except Fault Value}
    (h : code = parseValue .long ∨ code = serialize .long) (v : Value) :
    code v = (toLong v).map .int := by
  rcases h with rfl | rfl <;> rfl

theorem code_long_eq_ok {code : Value → Except Fault Value}
    (hcode : code = parseValue .long ∨ code = serialize .long) {v w : Value}
    (h : code v = .ok w) : ∃ n, w = .int n ∧ toLong v = .ok n := by
  rw [code_long hcode] at h
  cases hread : toLong v with
  | error f =>
      rw [hread] at h
      cases h
  | ok n =>
      rw [hread] at h
      cases h
      exact ⟨n, rfl, rfl⟩

/-- Whether a value stands for an integer of 64 bits. -/
def HoldsLong (v : Value) : Prop := ∃ n : ℤ, IsLong n ∧ v.number? = some (n : ℚ)

/-- What the codec of long integers makes of a value, in either direction,
is the number that the value stands for, less its fraction. This is an
integer of 64 bits, and that very number, exactly if the value stands for
such an integer. Every integer of 64 bits is left as it is, and is read from
its decimal text; and what has been read is written as it is. -/
theorem long_lossless_iff {code : Value → Except Fault Value}
    (hcode : code = parseValue .long ∨ code = serialize .long) :
    (∀ v w, code v = .ok w → ∃ n q, w = .int n ∧ v.number? = some q ∧ n = truncated q
        ∧ ((IsLong n ∧ (n : ℚ) = q) ↔ HoldsLong v))
      ∧ (∀ n, IsLong n →
        code (.int n) = .ok (.int n) ∧ code (.str (toString n)) = .ok (.int n))
      ∧ ∀ v w, parseValue .long v = .ok w → serialize .long w = .ok w := by
  refine ⟨fun v w h => ?_, fun n hn => ⟨?_, ?_⟩, fun v w h => ?_⟩
  · obtain ⟨n, rfl, hn⟩ := code_long_eq_ok hcode h
    obtain ⟨q, hq, rfl⟩ := toLong_eq_ok hn
    refine ⟨truncated q, q, rfl, hq, rfl, fun ⟨hlong, heq⟩ => ?_, ?_⟩
    · exact ⟨truncated q, hlong, by rw [heq, hq]⟩
    · rintro ⟨k, hlong, hk⟩
      rw [hq, Option.some.injEq] at hk
      rw [hk, truncated_intCast]
      exact ⟨hlong, rfl⟩
  · rw [code_long hcode]
    rfl
  · rw [code_long hcode]
    show (longOfText (toString n)).map Value.int = _
    rw [longOfText, Integer.read_toString hn.natAbs_lt]
    rfl
  · obtain ⟨n, rfl, _⟩ := code_long_eq_ok (Or.inl rfl) h
    rfl

/-- The double that is the integer three. -/
def three : Double := ⟨0x4008000000000000⟩

theorem long_lossless_iff_three :
    parseValue .long (.float three) = .ok (.int 3)
      ∧ ∃ n q, Value.int 3 = .int n ∧ (Value.float three).number? = some q ∧ n = truncated q
        ∧ ((IsLong n ∧ (n : ℚ) = q) ↔ HoldsLong (.float three)) := by
  have hread : parseValue .long (.float three) = .ok (.int 3) := by rfl
  exact ⟨hread, (long_lossless_iff (Or.inl rfl)).1 _ _ hread⟩

/-- One past the greatest integer of 64 bits is read all the same, and so is
a number with a fraction, which is dropped. -/
theorem long_lossy :
    parseValue .long (.int (2 ^ 63)) = .ok (.int (2 ^ 63)) ∧ ¬IsLong (2 ^ 63)
      ∧ parseValue .long (.float ⟨0x3ff8000000000000⟩) = .ok (.int 1)
      ∧ (Value.float ⟨0x3ff8000000000000⟩).number? = some (3 / 2) := by
  refine ⟨rfl, fun h => absurd h.2 (by decide), rfl, ?_⟩
  show some ((6755399441055744 : ℕ) * 2 ^ (-52 : ℤ) : ℚ) = some (3 / 2)
  norm_num

end Scalar

end ModelSchema
