import Eligibility.Json

/-!
# Numbers in the range of binary floating point

Readers of JSON that keep numbers as 64-bit floats refuse a number whose value
would be infinite. They gather the digits in a 64-bit integer as long as they
fit, and scale it by a power of ten: both factors are rounded to 53 bits, and
the product must stay below the point where rounding gives infinity. A number
scaled down is never too large, and zero stays zero under any scale.
-/

namespace Eligibility.Json

/-- `n` rounded to 53 significant bits, a tie to the even neighbour. -/
def round53 (n : Nat) : Nat :=
  if n < 1 <<< 53 then n
  else
    let unit := 1 <<< (n.log2 - 52)
    let quotient := n / unit
    let rest := n % unit
    if unit < 2 * rest ∨ (unit = 2 * rest ∧ quotient % 2 = 1) then (quotient + 1) * unit
    else quotient * unit

/-- Takes digits on to the right of `n` as long as the result fits 64 bits; also
says how many digits are left over. -/
def takeDigits (n : Nat) : List (Fin 10) → Nat × Nat
  | [] => (n, 0)
  | d :: ds => if 10 * n + d < UInt64.size then takeDigits (10 * n + d) ds else (n, ds.length + 1)

/-- The decimal digits of `n`, the highest first. -/
def decimalDigits (n : Nat) : List (Fin 10) :=
  (Nat.toDigits 10 n).filterMap digitValue?

/-- The digits of a number that fit 64 bits, and the power of ten that scales
them. -/
def Number.scaled (number : Number) : Nat × Int :=
  let (whole, wholeLeft) := takeDigits 0 (decimalDigits number.whole)
  let (digits, fractionLeft) := takeDigits whole number.fraction
  (digits,
    number.exponent.getD 0 + (wholeLeft : Nat) -
      ((number.fraction.length - fractionLeft : Nat) : Int))

/-- Whether the number is finite as a 64-bit float. -/
def Number.isFinite (number : Number) : Bool :=
  let (digits, power) := number.scaled
  digits = 0 || power < 0 ||
    (power ≤ 308 &&
      round53 digits * round53 (Nat.pow 10 power.toNat) < 1 <<< 1024 - 1 <<< 970)

mutual

/-- Whether all strings of a value are texts and all its numbers are finite. -/
def isRepresentable : Json → Bool
  | null => true
  | bool _ => true
  | number n => n.isFinite
  | string text => text.isSome
  | array items => areRepresentable items
  | object members => membersRepresentable members

def areRepresentable : List Json → Bool
  | [] => true
  | item :: items => item.isRepresentable && areRepresentable items

def membersRepresentable : List (Option String × Json) → Bool
  | [] => true
  | (name, value) :: members =>
    name.isSome && value.isRepresentable && membersRepresentable members

end

end Eligibility.Json
