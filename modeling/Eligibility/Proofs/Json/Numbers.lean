import Eligibility.Json.FloatRange
import Eligibility.Json.Reader
import Eligibility.Json.Writer
import Eligibility.Proofs.Digits

/-!
# Numbers as they are written

A number is written in decimal notation, and it may be so in several ways: an exponent has one of
two marks, a plus sign or none, and any number of zeros in front (`Decimal`). The number that the
library itself writes is one of them (`exists_decimal`).

Each of them is read part by part: sign, whole part, fraction, exponent
(`NumberPart.exists_read_text`). Digits come from the left, so what a machine that shifts makes of
a numeral is told by its value alone (`NumberPart.foldlM_numeral`).

Integers of 64 bits are finite (`Number.isFinite_ofInt`): none of their digits is
left over, and rounding at most doubles them.
-/

namespace Eligibility.Json

/-! ## Decimal notation -/

/-- The exponent of a number: its mark, and a numeral with or without a sign. -/
structure Exponent where
  capital : Bool
  plus : Bool
  power : Numeral
  oneSign : plus = true → power.negative = false

def Exponent.text (x : Exponent) : List Char :=
  (if x.capital then 'E' else 'e') :: ((if x.plus then ['+'] else []) ++ x.power.text)

/-- A number in decimal notation. Its whole part has no zero in front, unless it is a zero. -/
structure Decimal where
  whole : Numeral
  fraction : List (Fin 10)
  exponent : Option Exponent
  noZero : whole.digits = [0] ∨ whole.digits.head? ≠ some 0

namespace Decimal

def text (x : Decimal) : List Char :=
  x.whole.text ++ ((if x.fraction.isEmpty then [] else '.' :: digitChars x.fraction) ++
    (x.exponent.map Exponent.text).getD [])

def number (x : Decimal) : Number :=
  ⟨x.whole.negative, x.whole.size, x.fraction, x.exponent.map (·.power.value)⟩

end Decimal

theorem exists_exponent (e : Int) :
    ∃ x : Exponent, x.power.value = e ∧
      x.text = 'e' :: (if e < 0 then '-' :: Nat.toDigits 10 e.natAbs
        else Nat.toDigits 10 e.natAbs) := by
  obtain ⟨power, negative, size, digits, -⟩ := Numeral.exists_size_eq (decide (e < 0)) e.natAbs
  refine ⟨⟨false, false, power, nofun⟩, ?_, ?_⟩
  · simp only [Numeral.value, negative, size, decide_eq_true_eq]
    omega
  · by_cases below : e < 0
    · simp [Exponent.text, Numeral.text, negative, digits, below]
    · simp [Exponent.text, Numeral.text, negative, digits, below]

/-- The way in which the library writes a number. -/
theorem exists_decimal (n : Number) :
    ∃ x : Decimal, x.number = n ∧ ∀ rest, numberChars n rest = x.text ++ rest := by
  obtain ⟨negative, whole, fraction, exponent⟩ := n
  obtain ⟨x, rfl, rfl, digits, noZero⟩ := Numeral.exists_size_eq negative whole
  cases exponent with
  | none =>
      refine ⟨⟨x, fraction, none, noZero⟩, rfl, fun rest => ?_⟩
      simp [numberChars, Decimal.text, Numeral.text, ← digits, digitChars]
  | some e =>
      obtain ⟨exponent, rfl, text⟩ := exists_exponent e
      refine ⟨⟨x, fraction, some exponent, noZero⟩, rfl, fun rest => ?_⟩
      simp [numberChars, Decimal.text, Numeral.text, ← digits, text, digitChars]

/-! ## Digits -/

theorem digitValue?_digitChar (d : Fin 10) : digitValue? (Nat.digitChar d.val) = some d := by
  revert d
  decide

/-! ## Parts of a number -/

namespace NumberPart

/-- A digit is none of the marks between the parts of a number. -/
theorem digitChar_ne (d : Fin 10) :
    Nat.digitChar d.val ≠ '.' ∧ Nat.digitChar d.val ≠ 'e' ∧ Nat.digitChar d.val ≠ 'E' ∧
      Nat.digitChar d.val ≠ '+' ∧ Nat.digitChar d.val ≠ '-' := by
  revert d
  decide

/-- What a machine makes of a numeral, if it takes the first digit and goes on by shifting what it
has to the left. -/
theorem foldlM_numeral {σ : Type} {read : σ → Char → Option σ} {start : σ} (after : Nat → σ)
    (x : Numeral)
    (first : ∀ d, x.digits.head? = some d → read start (Nat.digitChar d.val) = some (after d))
    (next : ∀ n, ∀ d : Fin 10,
      read (after n) (Nat.digitChar d.val) = some (after (10 * n + d))) :
    (digitChars x.digits).foldlM read start = some (after x.size) := by
  have later (digits : List (Fin 10)) (n : Nat) : (digitChars digits).foldlM read (after n) =
      some (after (Nat.ofDigitChars 10 (digitChars digits) n)) := by
    induction digits generalizing n with
    | nil => rfl
    | cons d digits ih =>
        rw [ofDigitChars_digitChars_cons, ← ih]
        exact congrArg (· >>= (digitChars digits).foldlM read) (next n d)
  obtain ⟨negative, digits, ne⟩ := x
  obtain ⟨d, digits, rfl⟩ := List.exists_cons_of_ne_nil ne
  rw [Numeral.size, ← ofDigitChars_digitChars, ofDigitChars_digitChars_cons, Nat.mul_zero,
    Nat.zero_add, ← later]
  exact congrArg (· >>= (digitChars digits).foldlM read) (first d rfl)

/-- A whole part is read to its end, where it is a zero or something else. -/
theorem foldlM_read_numeral (x : Numeral) (noZero : x.digits = [0] ∨ x.digits.head? ≠ some 0) :
    ∃ phase, (phase = .zero ∨ phase = .whole) ∧
      (digitChars x.digits).foldlM read { phase := .sign, negative := x.negative } =
        some { phase, negative := x.negative, whole := x.size } := by
  rcases noZero with zero | positive
  · refine ⟨.zero, .inl rfl, ?_⟩
    rw [Numeral.size, zero]
    rfl
  · refine ⟨.whole, .inr rfl, foldlM_numeral
      (fun n => ({ phase := .whole, negative := x.negative, whole := n } : NumberPart)) x ?_ ?_⟩
    · intro d hd
      have ne : ∀ d : Fin 10, some d ≠ some 0 → Nat.digitChar d.val ≠ '0' := by decide
      rw [hd] at positive
      simp [read, ne d positive, digitValue?_digitChar]
    · intro n d
      obtain ⟨point, mark, mark', -, -⟩ := digitChar_ne d
      simp [read, point, mark, mark', digitValue?_digitChar]

theorem foldlM_read_fraction (part : NumberPart) (digits : List (Fin 10))
    (ne : digits ≠ []) :
    (digits.map fun d => Nat.digitChar d.val).foldlM read { part with phase := .point } =
      some { part with phase := .fraction, fraction := digits.reverse } := by
  have more : ∀ done : List (Fin 10), ∀ digits : List (Fin 10),
      (digits.map fun d => Nat.digitChar d.val).foldlM read
          { part with phase := .fraction, fraction := done } =
        some { part with phase := .fraction, fraction := digits.reverse ++ done } := by
    intro done digits
    induction digits generalizing done with
    | nil => rfl
    | cons d digits ih =>
        obtain ⟨-, mark, mark', -, -⟩ := digitChar_ne d
        rw [List.map_cons, List.foldlM_cons]
        simp only [read, mark, mark', or_self, if_false, digitValue?_digitChar, Option.map_some]
        rw [List.reverse_cons, List.append_assoc]
        exact ih (d :: done)
  cases digits with
  | nil => exact absurd rfl ne
  | cons d digits =>
      rw [List.map_cons, List.foldlM_cons]
      simp only [read, digitValue?_digitChar, Option.map_some]
      rw [List.reverse_cons]
      exact more [d] digits

/-- The number may end after the part that is being read now, and an exponent may
begin. -/
def EndsDigits (part : NumberPart) : Prop :=
  part.phase = .zero ∨ part.phase = .whole ∨ part.phase = .fraction

theorem foldlM_read_fractionChars {part : NumberPart}
    (phase : part.phase = .zero ∨ part.phase = .whole) (none : part.fraction = [])
    (digits : List (Fin 10)) :
    ∃ part' : NumberPart,
      (if digits.isEmpty then [] else
        '.' :: digits.map fun d => Nat.digitChar d.val).foldlM read part = some part' ∧
      part'.EndsDigits ∧
      part' = { part with phase := part'.phase, fraction := digits.reverse } := by
  cases digits with
  | nil =>
      refine ⟨part, rfl, ?_, ?_⟩
      · rcases phase with phase | phase
        · exact .inl phase
        · exact .inr (.inl phase)
      · rw [List.reverse_nil, ← none]
  | cons d digits =>
      have point : part.read '.' = some { part with phase := .point } := by
        rcases phase with phase | phase
        · simp [read, phase]
        · simp [read, phase]
      refine ⟨{ part with phase := .fraction, fraction := (d :: digits).reverse }, ?_,
        .inr (.inr rfl), rfl⟩
      rw [List.isEmpty_cons, if_neg Bool.false_ne_true, List.foldlM_cons, point]
      exact foldlM_read_fraction part (d :: digits) (List.cons_ne_nil d digits)

/-- The digits of an exponent may have zeros in front. -/
theorem foldlM_read_power {part : NumberPart} (x : Numeral)
    (phase : part.phase = .mark ∨ part.phase = .exponentSign) :
    (digitChars x.digits).foldlM read part =
      some { part with phase := .exponent, exponent := x.size } := by
  refine foldlM_numeral (fun n => { part with phase := .exponent, exponent := n }) x
    (fun d _ => ?_) (fun n d => ?_)
  · obtain ⟨-, -, -, plus, minus⟩ := digitChar_ne d
    rcases phase with phase | phase
    · simp [read, phase, plus, minus, digitValue?_digitChar]
    · simp [read, phase, digitValue?_digitChar]
  · simp [read, digitValue?_digitChar]

theorem foldlM_read_exponentText {part : NumberPart} (ends : part.EndsDigits)
    (unsigned : part.exponentNegative = false) (x : Exponent) :
    ∃ part' : NumberPart, x.text.foldlM read part = some part' ∧
      part'.number? =
        some ⟨part.negative, part.whole, part.fraction.reverse, some x.power.value⟩ := by
  have mark : part.read (if x.capital then 'E' else 'e') = some { part with phase := .mark } := by
    rcases ends with phase | phase | phase
    all_goals cases x.capital <;> simp [read, phase]
  have power := fun part phase => @foldlM_read_power part x.power phase
  rw [Exponent.text, List.foldlM_cons, mark, Numeral.text, Numeral.value]
  cases negative : x.power.negative with
  | true =>
      have plus : x.plus = false := by
        by_contra plus
        exact Bool.false_ne_true ((x.oneSign (Bool.eq_true_of_not_eq_false plus)).symm.trans
          negative)
      rw [plus]
      exact ⟨_, power { part with phase := .exponentSign, exponentNegative := true } (.inr rfl),
        by simp [number?]⟩
  | false =>
      cases x.plus with
      | true =>
          exact ⟨_, power { part with phase := .exponentSign } (.inr rfl),
            by simp [number?, unsigned]⟩
      | false =>
          exact ⟨_, power { part with phase := .mark } (.inl rfl), by simp [number?, unsigned]⟩

/-- Behind its sign a number is read part by part. -/
theorem foldlM_read_unsignedText (x : Decimal) :
    ∃ last : NumberPart,
      (digitChars x.whole.digits ++
        ((if x.fraction.isEmpty then [] else '.' :: digitChars x.fraction) ++
          (x.exponent.map Exponent.text).getD [])).foldlM read
          { phase := .sign, negative := x.whole.negative } = some last ∧
      last.number? = some x.number := by
  obtain ⟨phase, whole, hwhole⟩ := foldlM_read_numeral x.whole x.noZero
  obtain ⟨part, hfraction, ends, hpart⟩ := @foldlM_read_fractionChars
    { phase, negative := x.whole.negative, whole := x.whole.size } whole rfl x.fraction
  have unsigned : part.exponentNegative = false := by rw [hpart]
  have read_exponent : ∃ last : NumberPart,
      ((x.exponent.map Exponent.text).getD []).foldlM read part = some last ∧
        last.number? = some ⟨part.negative, part.whole, part.fraction.reverse,
          x.exponent.map (·.power.value)⟩ := by
    cases x.exponent with
    | none =>
        refine ⟨part, rfl, ?_⟩
        rcases ends with phase | phase | phase
        all_goals simp [number?, phase]
    | some exponent => exact foldlM_read_exponentText ends unsigned exponent
  obtain ⟨last, hexponent, hlast⟩ := read_exponent
  refine ⟨last, ?_, ?_⟩
  · rw [List.foldlM_append, hwhole, Option.bind_eq_bind, Option.bind_some, List.foldlM_append]
    exact (congrArg (· >>= _) hfraction).trans hexponent
  · rw [hlast, hpart, List.reverse_reverse]
    rfl

/-- A character that starts a number without a sign is read as it is after a sign. -/
theorem start?_eq_read {c : Char} (ne : c ≠ '-') : start? c = read { phase := .sign } c := by
  simp only [start?, read, if_neg ne]

/-- A number is read from each of its texts: by its first character, and then part by part. -/
theorem exists_read_text (x : Decimal) :
    ∃ (c : Char) (cs : List Char) (first last : NumberPart), x.text = c :: cs ∧
      start? c = some first ∧ cs.foldlM read first = some last ∧
      last.number? = some x.number := by
  obtain ⟨last, hread, hlast⟩ := foldlM_read_unsignedText x
  cases negative : x.whole.negative with
  | true =>
      rw [negative] at hread
      refine ⟨'-', _, { phase := .sign, negative := true }, last, ?_, rfl, hread, hlast⟩
      simp [Decimal.text, Numeral.text, negative]
  | false =>
      obtain ⟨d, digits, hdigits⟩ := List.exists_cons_of_ne_nil x.whole.ne_nil
      obtain ⟨-, -, -, -, minus⟩ := digitChar_ne d
      rw [negative, hdigits] at hread
      obtain ⟨first, hfirst, hread⟩ := Option.bind_eq_some_iff.1 hread
      rw [← start?_eq_read minus] at hfirst
      refine ⟨_, _, first, last, ?_, hfirst, hread, hlast⟩
      simp [Decimal.text, Numeral.text, negative, hdigits, digitChars]

end NumberPart

/-! ## Integers are finite -/

theorem takeDigits_append {n m : Nat} {first : List (Fin 10)}
    (h : takeDigits n first = (m, 0)) (second : List (Fin 10)) :
    takeDigits n (first ++ second) = takeDigits m second := by
  induction first generalizing n with
  | nil =>
      cases h
      rfl
  | cons d first ih =>
      rw [takeDigits] at h
      split at h
      · next fits =>
        rw [List.cons_append, takeDigits, if_pos fits, ih h]
      · cases h

/-- All digits of a number of 64 bits are taken. -/
theorem takeDigits_decimalDigits {n : Nat} (h : n < UInt64.size) :
    takeDigits 0 (decimalDigits n) = (n, 0) := by
  induction n using Nat.strongRecOn with
  | _ n ih =>
      by_cases small : n < 10
      · rw [decimalDigits, Nat.toDigits_of_lt_base small]
        rw [List.filterMap_cons, digitValue?_digitChar ⟨n, small⟩]
        simp only [List.filterMap_nil, takeDigits, Nat.mul_zero, Nat.zero_add, if_pos h]
      · have large : 10 ≤ n := Nat.le_of_not_lt small
        have lt : n / 10 < n := Nat.div_lt_self (by omega) (by decide)
        have split : 10 * (n / 10) + n % 10 = n := Nat.div_add_mod n 10
        have digits : decimalDigits n =
            decimalDigits (n / 10) ++ [⟨n % 10, Nat.mod_lt n (by decide)⟩] := by
          rw [decimalDigits, Nat.toDigits_of_base_le (by decide) large, List.filterMap_append]
          rw [List.filterMap_cons, digitValue?_digitChar ⟨n % 10, Nat.mod_lt n (by decide)⟩]
          rfl
        rw [digits, takeDigits_append (ih (n / 10) lt (Nat.lt_trans lt h))]
        simp only [takeDigits, split, if_pos h]

/-- Rounding at most doubles a number. -/
theorem round53_le (n : Nat) : round53 n ≤ 2 * n := by
  rw [round53]
  split
  · omega
  · next large =>
    have pos : n ≠ 0 := by omega
    have unit_le : 1 <<< (n.log2 - 52) ≤ n := by
      rw [Nat.one_shiftLeft]
      exact Nat.le_trans (Nat.pow_le_pow_right (by decide) (Nat.sub_le _ _))
        (Nat.log2_self_le pos)
    have down : n / (1 <<< (n.log2 - 52)) * (1 <<< (n.log2 - 52)) ≤ n := Nat.div_mul_le_self _ _
    dsimp only
    split
    · rw [Nat.succ_mul]
      omega
    · omega

theorem Number.isFinite_ofInt {n : Int} (h : n.natAbs < UInt64.size) :
    (Number.ofInt n).isFinite = true := by
  have scaled : (Number.ofInt n).scaled = (n.natAbs, 0) := by
    simp only [scaled, Number.ofInt, takeDigits_decimalDigits h]
    rfl
  have rounded := round53_le n.natAbs
  have one : round53 (Nat.pow 10 (0 : Int).toNat) = 1 := rfl
  have bound : 2 * UInt64.size < 1 <<< 1024 - 1 <<< 970 := by decide
  have small : round53 n.natAbs * 1 < 1 <<< 1024 - 1 <<< 970 := by omega
  rw [Number.isFinite, scaled]
  simp only [one, small, decide_true, Bool.and_true]
  exact Bool.or_true _

end Eligibility.Json
