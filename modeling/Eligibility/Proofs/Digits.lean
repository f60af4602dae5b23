import Mathlib.Data.List.Induction
import Mathlib.Data.Nat.Digits.Defs

/-!
# Digits

A numeral is a run of decimal digits, as long as one likes, behind a minus sign or not. Its value
is the sum of its digits, each times the power of ten that belongs to its place, so zeros in front
make no difference and zero has no sign.

Every number has a numeral without zeros in front (`Numeral.exists_size_eq`).
-/

namespace Eligibility

/-- Digits as they are written. -/
def digitChars (digits : List (Fin 10)) : List Char :=
  digits.map fun d => Nat.digitChar d.val

/-- Decimal digits, the highest first, with a minus sign in front of them or not. -/
structure Numeral where
  negative : Bool
  digits : List (Fin 10)
  ne_nil : digits ≠ []

namespace Numeral

/-- The word that the numeral is. -/
def text (x : Numeral) : List Char :=
  (if x.negative then ['-'] else []) ++ digitChars x.digits

/-- What the digits stand for in decimal notation. -/
def size (x : Numeral) : Nat :=
  Nat.ofDigits 10 (x.digits.reverse.map Fin.val)

/-- The integer that the numeral stands for. -/
def value (x : Numeral) : Int :=
  if x.negative then -(x.size : Int) else x.size

end Numeral

theorem toNat_digitChar_sub (d : Fin 10) : (Nat.digitChar d.val).toNat - '0'.toNat = d.val := by
  rw [Nat.toNat_digitChar_of_lt_ten d.isLt]
  exact Nat.add_sub_cancel_left _ _

/-- A digit moves the digits in front of it up by one place. -/
theorem ofDigitChars_digitChars_cons (d : Fin 10) (digits : List (Fin 10)) (n : Nat) :
    Nat.ofDigitChars 10 (digitChars (d :: digits)) n =
      Nat.ofDigitChars 10 (digitChars digits) (10 * n + d.val) := by
  rw [digitChars, List.map_cons, Nat.ofDigitChars_cons, toNat_digitChar_sub]
  rfl

/-- Digits read one after the other from the left have the value of their places. -/
theorem ofDigitChars_digitChars (digits : List (Fin 10)) :
    Nat.ofDigitChars 10 (digitChars digits) 0 =
      Nat.ofDigits 10 (digits.reverse.map Fin.val) := by
  induction digits using List.reverseRecOn with
  | nil => rfl
  | append_singleton digits d ih =>
      have split : digitChars (digits ++ [d]) = digitChars digits ++ digitChars [d] :=
        List.map_append
      rw [split, Nat.ofDigitChars_append, ih, ofDigitChars_digitChars_cons,
        List.reverse_append, List.reverse_singleton, List.singleton_append, List.map_cons,
        Nat.ofDigits_cons, Nat.add_comm]
      rfl

/-- The digits that a number is written with have no zero in front, unless it is zero. -/
theorem exists_digitChars_eq_toDigits (n : Nat) :
    ∃ digits : List (Fin 10), digitChars digits = Nat.toDigits 10 n ∧ digits ≠ [] ∧
      (n = 0 ∧ digits = [0] ∨ digits.head? ≠ some 0) := by
  induction n using Nat.strongRecOn with
  | _ n ih =>
      by_cases small : n < 10
      · refine ⟨[⟨n, small⟩], ?_, List.cons_ne_nil _ _, ?_⟩
        · rw [Nat.toDigits_of_lt_base small]
          rfl
        · by_cases zero : n = 0
          · subst zero
            exact .inl ⟨rfl, rfl⟩
          · exact .inr fun h => zero (congrArg Fin.val (Option.some.inj h))
      · have large : 10 ≤ n := Nat.le_of_not_lt small
        have lt : n / 10 < n := Nat.div_lt_self (by omega) (by decide)
        obtain ⟨digits, hdigits, ne, ⟨zero, -⟩ | positive⟩ := ih (n / 10) lt
        · omega
        · refine ⟨digits ++ [⟨n % 10, Nat.mod_lt n (by decide)⟩], ?_, by simp, .inr ?_⟩
          · rw [Nat.toDigits_of_base_le (by decide) large, ← hdigits]
            exact List.map_append
          · obtain ⟨d, digits, rfl⟩ := List.exists_cons_of_ne_nil ne
            exact positive

/-- Each number has a numeral without zeros in front. -/
theorem Numeral.exists_size_eq (negative : Bool) (n : Nat) :
    ∃ x : Numeral, x.negative = negative ∧ x.size = n ∧
      digitChars x.digits = Nat.toDigits 10 n ∧ (x.digits = [0] ∨ x.digits.head? ≠ some 0) := by
  obtain ⟨digits, hdigits, ne, first⟩ := exists_digitChars_eq_toDigits n
  refine ⟨⟨negative, digits, ne⟩, rfl, ?_, hdigits, first.imp And.right id⟩
  rw [size, ← ofDigitChars_digitChars, hdigits, Nat.ofDigitChars_ten_toDigits]

end Eligibility
