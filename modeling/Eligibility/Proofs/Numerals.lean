import Eligibility.Proofs.Digits
import Eligibility.Proofs.Layout

/-!
# Integer literals

The words that spell integers are the numerals, each with its value
(`integerWord?_eq_some_iff_numeral`). As a literal a numeral is read exactly if its value is an
integer of 64 bits; the word may be of any length, since nothing is lost on the way to the value.
-/

namespace Eligibility

theorem exists_digitChar_of_isDigit {c : Char} (h : c.isDigit = true) :
    ∃ d : Fin 10, Nat.digitChar d.val = c := by
  obtain ⟨low, high⟩ := toNat_of_isDigit h
  have small : c.toNat - 0x30 < 10 := by omega
  refine ⟨⟨c.toNat - 0x30, small⟩, Char.toNat_inj.1 ?_⟩
  rw [Nat.toNat_digitChar_of_lt_ten small]
  omega

theorem exists_digitChars {text : List Char} (decimal : ∀ c ∈ text, c.isDigit = true) :
    ∃ digits, digitChars digits = text := by
  induction text with
  | nil => exact ⟨[], rfl⟩
  | cons c cs ih =>
      obtain ⟨first, later⟩ := List.forall_mem_cons.1 decimal
      obtain ⟨d, rfl⟩ := exists_digitChar_of_isDigit first
      obtain ⟨digits, rfl⟩ := ih later
      exact ⟨d :: digits, rfl⟩

theorem isNumeral_iff_exists_digits {text : List Char} :
    isNumeral text = true ↔ ∃ digits, digits ≠ [] ∧ digitChars digits = text := by
  rw [isNumeral_iff]
  constructor
  · rintro ⟨ne, decimal⟩
    obtain ⟨digits, rfl⟩ := exists_digitChars decimal
    refine ⟨digits, ?_, rfl⟩
    rintro rfl
    exact ne rfl
  · rintro ⟨digits, ne, rfl⟩
    refine ⟨fun none => ne (List.map_eq_nil_iff.1 none), ?_⟩
    intro c hc
    obtain ⟨d, -, rfl⟩ := List.mem_map.1 hc
    rw [Nat.isDigit_digitChar]
    exact decide_eq_true d.isLt

/-- The words that spell integers are the numerals. -/
theorem integerWord?_eq_some_iff_numeral {text : List Char} {n : Int} :
    integerWord? text = some n ↔ ∃ x : Numeral, x.text = text ∧ x.value = n := by
  rw [integerWord?_eq_some_iff]
  constructor
  · rintro (⟨numeral, rfl⟩ | ⟨_, rfl, numeral, rfl⟩)
    · obtain ⟨digits, ne, rfl⟩ := isNumeral_iff_exists_digits.1 numeral
      rw [ofDigitChars_digitChars]
      exact ⟨⟨false, digits, ne⟩, rfl, rfl⟩
    · obtain ⟨digits, ne, rfl⟩ := isNumeral_iff_exists_digits.1 numeral
      rw [ofDigitChars_digitChars]
      exact ⟨⟨true, digits, ne⟩, rfl, rfl⟩
  · rintro ⟨⟨negative, digits, ne⟩, rfl, rfl⟩
    have numeral := isNumeral_iff_exists_digits.2 ⟨digits, ne, rfl⟩
    rw [Numeral.value, Numeral.size, ← ofDigitChars_digitChars]
    cases negative with
    | false => exact .inl ⟨numeral, rfl⟩
    | true => exact .inr ⟨digitChars digits, rfl, numeral, rfl⟩

/-- The numbers of 64 bits are those from -2^63 to 2^63 - 1. -/
theorem exists_toInt_eq_iff {n : Int} :
    (∃ i : Int64, i.toInt = n) ↔ -2 ^ 63 ≤ n ∧ n ≤ 2 ^ 63 - 1 := by
  constructor
  · rintro ⟨i, rfl⟩
    exact ⟨Int64.le_toInt i, Int64.toInt_le i⟩
  · rintro ⟨low, high⟩
    exact ⟨Int64.ofInt n, Int64.toInt_ofInt_of_le low (Int.lt_add_one_of_le high)⟩

theorem literalWord_of_integerWord? {text : List Char} {n : Int}
    (h : integerWord? text = some n) :
    (∀ i, literalWord text = .ok (.integer i) ↔ i.toInt = n) ∧
      (literalWord text = .error .outOfRange ↔ ∀ i : Int64, i.toInt ≠ n) := by
  simp only [literalWord, h]
  cases hn : int64? n with
  | none =>
      have none : ∀ i : Int64, i.toInt ≠ n := by
        rintro i rfl
        rw [int64?_toInt] at hn
        cases hn
      simpa using none
  | some j =>
      obtain rfl := int64?_eq_some_iff.1 hn
      refine ⟨fun i => ?_, ?_⟩
      · rw [Except.ok.injEq, Value.integer.injEq, eq_comm, Int64.toInt_inj]
      · exact iff_of_false (by simp) fun h => h j rfl

/-- As a literal, a numeral of any length is its exact value if this is an integer of 64 bits,
and out of range if it is not. The literal that an integer of 64 bits is written as is a numeral
with this value, and is read back as the same integer. -/
theorem literalWord_numeral (x : Numeral) :
    (∀ i : Int64, literalWord x.text = .ok (.integer i) ↔ i.toInt = x.value) ∧
      ((∃ i : Int64, literalWord x.text = .ok (.integer i)) ↔
        -2 ^ 63 ≤ x.value ∧ x.value ≤ 2 ^ 63 - 1) ∧
      (literalWord x.text = .error .outOfRange ↔
        ¬(-2 ^ 63 ≤ x.value ∧ x.value ≤ 2 ^ 63 - 1)) ∧
      WordFault.outOfRange.message = "integer literal out of range" ∧
      ∀ n : Int64, literalWord (Value.integer n).literal.toList = .ok (.integer n) ∧
        ∃ written : Numeral, written.text = (Value.integer n).literal.toList ∧
          written.value = n.toInt := by
  have word := integerWord?_eq_some_iff_numeral.2 ⟨x, rfl, rfl⟩
  obtain ⟨inRange, outOfRange⟩ := literalWord_of_integerWord? word
  refine ⟨inRange, ?_, ?_, rfl, fun n => ⟨literalWord_literal nofun, ?_⟩⟩
  · simp only [inRange, exists_toInt_eq_iff]
  · rw [outOfRange, ← exists_toInt_eq_iff, not_exists]
  · exact integerWord?_eq_some_iff_numeral.1 (integerWord?_repr n.toInt)

example : literalWord "-000".toList = .ok (.integer 0) := by decide

example : literalWord "00009223372036854775808".toList = .error .outOfRange := by decide

example : literalWord "-9223372036854775808".toList = .ok (.integer Int64.minValue) := by decide

end Eligibility
