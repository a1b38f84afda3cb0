/-
Integers as JSON numbers.

An integer is written with its digits and perhaps a sign, and read back in two ways: as an integer,
and, where a value has to be held before it is known what it is for, as a number that a double can
hold.

* `head?_toDigits_ne_zero` — a positive number is written without a leading zero;
* **`isWellFormed_toString`**, **`int?_toString`** — an integer is written as a number, and the
  number is that integer;
* **`isFinite_toString`** — one of at most 53 bits is held by a double.
-/
import InlineAudit.Json.Number
import InlineAudit.Json.Value
import Mathlib.Algebra.Group.Nat.Defs

namespace InlineAudit

namespace Decimal

/-- A number of at most 53 bits is a double. -/
theorem roundToDouble_eq_self {n : Nat} (h : n < 2 ^ 53) : roundToDouble n = n := by
  have hbits : n.log2 - 52 = 0 := by
    by_cases hn : n = 0
    · subst hn
      rfl
    · have hlog : n.log2 < 53 := (Nat.log2_lt hn).2 h
      omega
  rw [roundToDouble, hbits]
  show roundedQuotient n 1 * 1 = n
  have hwhole : roundedQuotient n 1 = n := by
    rw [roundedQuotient, Nat.mod_one, Nat.div_one]
    rfl
  rw [hwhole, Nat.mul_one]

end Decimal

namespace Json.Number

/-! ### Digits -/

theorem natOfDigits_toDigits (n : Nat) : Decimal.natOfDigits (Nat.toDigits 10 n) = n :=
  Nat.ofDigitChars_toDigits (by decide) (by decide)

theorem all_isDigit_toDigits (n : Nat) : (Nat.toDigits 10 n).all Char.isDigit = true :=
  List.all_eq_true.2 fun _ hc => Nat.isDigit_of_mem_toDigits (by decide) (by decide) hc

theorem takeWhile_toDigits (n : Nat) :
    (Nat.toDigits 10 n).takeWhile Char.isDigit = Nat.toDigits 10 n := by
  have hall := @List.takeWhile_append_of_pos _ Char.isDigit _ []
    (List.all_eq_true.1 (all_isDigit_toDigits n))
  rwa [List.append_nil, List.takeWhile_nil, List.append_nil] at hall

theorem dropWhile_toDigits (n : Nat) : (Nat.toDigits 10 n).dropWhile Char.isDigit = [] := by
  have hall := @List.dropWhile_append_of_pos _ Char.isDigit _ []
    (List.all_eq_true.1 (all_isDigit_toDigits n))
  rwa [List.append_nil, List.dropWhile_nil] at hall

/-- A positive number is written without a leading zero. -/
theorem head?_toDigits_ne_zero {n : Nat} (h : 0 < n) : (Nat.toDigits 10 n).head? ≠ some '0' := by
  -- a number with a last digit begins like the number before that digit
  induction n using Nat.strongRecOn with
  | _ n ih =>
    by_cases hn : n < 10
    · rw [Nat.toDigits_of_lt_base hn, List.head?_cons, Ne, Option.some.injEq, Nat.digitChar_eq_zero]
      omega
    · have hfirst := ih (n / 10) (by omega) (by omega)
      have hdigits : Nat.toDigits 10 (n / 10) ≠ [] := Nat.toDigits_ne_nil
      obtain ⟨c, cs, hcs⟩ := List.exists_cons_of_ne_nil hdigits
      rw [Nat.toDigits_of_base_le (by decide) (by omega), hcs]
      rwa [hcs] at hfirst

/-! ### Integers -/

/-- The sign of an integer is cut off, and its digits are left. -/
theorem unsigned_toString (n : Int) :
    unsigned (toString n).toList = (decide (n < 0), Nat.toDigits 10 n.natAbs) := by
  rw [Int.toString_eq_repr, Int.repr_eq_if]
  split
  · rename_i hn
    have habs : n.toNat = n.natAbs := by omega
    have hsign : decide (n < 0) = false := decide_eq_false (by omega)
    rw [Nat.toList_repr, habs, hsign]
    unfold unsigned
    split
    · rename_i cs hcs
      -- a hyphen is no digit
      have hdigit : '-'.isDigit = true :=
        List.all_eq_true.1 (all_isDigit_toDigits n.natAbs) _ (hcs ▸ List.mem_cons_self)
      exact absurd hdigit (by decide)
    · rfl
  · rename_i hn
    have habs : (-n).toNat = n.natAbs := by omega
    have hsign : decide (n < 0) = true := decide_eq_true (by omega)
    rw [String.toList_append, Nat.toList_repr, habs, hsign]
    rfl

/-- **An integer is written as a number.** -/
theorem isWellFormed_toString (n : Int) : isWellFormed (toString n).toList = true := by
  rw [isWellFormed, unsigned_toString]
  dsimp only
  rw [takeWhile_toDigits, dropWhile_toDigits]
  split
  · rename_i hnil
    exact absurd hnil Nat.toDigits_ne_nil
  · rename_i d ds hzero
    -- only zero begins with a zero, and it has no second digit
    by_cases hn : n.natAbs = 0
    · rw [hn, Nat.toDigits_zero] at hzero
      cases hzero
    · have hhead := head?_toDigits_ne_zero (Nat.pos_of_ne_zero hn)
      rw [hzero] at hhead
      exact absurd rfl hhead
  · rfl

/-- **An integer is read back from the way it is written.** -/
theorem int?_toString (n : Int) : int? (toString n).toList = some n := by
  have hne : (Nat.toDigits 10 n.natAbs).isEmpty = false :=
    List.isEmpty_eq_false_iff.2 Nat.toDigits_ne_nil
  rw [int?, unsigned_toString]
  dsimp only
  rw [hne, all_isDigit_toDigits, natOfDigits_toDigits]
  simp only [Bool.not_true, Bool.or_self, Bool.false_eq_true, if_false]
  split
  · rename_i hsign habs
    rw [decide_eq_true_iff] at hsign
    omega
  · rename_i hsign _
    rw [decide_eq_true_iff] at hsign
    rw [Option.some.injEq]
    omega
  · rename_i hsign
    rw [decide_eq_false_iff_not] at hsign
    rw [Option.some.injEq]
    omega

/-! ### Integers as doubles -/

theorem le_natOfDigits (n : Nat) (ds : List Char) :
    n ≤ ds.foldl (fun n d => 10 * n + (d.toNat - 48)) n := by
  induction ds generalizing n with
  | nil => exact Nat.le_refl n
  | cons d ds ih =>
    have hstep : n ≤ 10 * n + (d.toNat - 48) := by omega
    exact Nat.le_trans hstep (ih _)

/-- Digits are taken as long as their value has room. -/
theorem takeDigits_eq {n : Nat} {ds : List Char}
    (h : ds.foldl (fun n d => 10 * n + (d.toNat - 48)) n ≤ maxSignificand) :
    takeDigits n ds = (ds.foldl (fun n d => 10 * n + (d.toNat - 48)) n, 0) := by
  induction ds generalizing n with
  | nil => rfl
  | cons d ds ih =>
    rw [List.foldl_cons] at h ⊢
    have hroom : ¬ maxSignificand < 10 * n + (d.toNat - 48) :=
      Nat.not_lt.2 (Nat.le_trans (le_natOfDigits _ ds) h)
    rw [takeDigits, if_neg hroom]
    exact ih h

theorem takeDigits_toDigits {n : Nat} (h : n ≤ maxSignificand) :
    takeDigits 0 (Nat.toDigits 10 n) = (n, 0) := by
  have hvalue : (Nat.toDigits 10 n).foldl (fun n d => 10 * n + (d.toNat - 48)) 0 = n :=
    natOfDigits_toDigits n
  rw [takeDigits_eq (by rwa [hvalue]), hvalue]

theorem evaluate?_toDigits {n : Nat} (h : n ≤ maxSignificand) :
    evaluate? (Nat.toDigits 10 n) = some ⟨n, 0⟩ := by
  rw [evaluate?, takeWhile_toDigits, dropWhile_toDigits, takeDigits_toDigits h]
  rfl

/-- **An integer of at most 53 bits is held by a double.** -/
theorem isFinite_toString {n : Int} (h : n.natAbs < 2 ^ 53) :
    isFinite (toString n).toList = true := by
  have hroom : n.natAbs ≤ maxSignificand := by
    have hmax : 2 ^ 53 ≤ maxSignificand := by decide
    omega
  have hbelow : n.natAbs < Decimal.overflow := by
    have hover : 2 ^ 53 ≤ Decimal.overflow := by decide +kernel
    omega
  rw [isFinite, unsigned_toString]
  dsimp only
  rw [evaluate?_toDigits hroom]
  split
  · rename_i hnone
    cases hnone
  · rfl
  · rfl
  · rename_i m e _ heq
    obtain ⟨hm, he⟩ := Decimal.mk.inj (Option.some.inj heq)
    obtain rfl : e = 0 := Int.ofNat.inj he.symm
    rw [← hm]
    simp only [Nat.zero_le, decide_true, Bool.true_and, decide_eq_true_iff,
      Decimal.roundToDouble_eq_self h]
    exact lt_of_eq_of_lt (Nat.mul_one _) hbelow

end Json.Number

end InlineAudit
