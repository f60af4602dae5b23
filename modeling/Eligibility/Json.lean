/-!
# JSON values

The values that JSON texts denote. Members of an object stay in their order, and
a name may occur more than once: what a repeated name means is for the reader of
the value to decide. Numbers keep their digits.

A string escape may be a surrogate without its partner. Such a string is no
text; it is kept as `none`, and so is such a name.
-/

namespace Eligibility

/-- A number as it is written: the digits of the fraction are in `fraction`, and
`exponent` is the power of ten after the mark, if there is one. -/
structure Json.Number where
  negative : Bool
  whole : Nat
  fraction : List (Fin 10)
  exponent : Option Int
deriving DecidableEq, Repr, Inhabited

/-- A JSON value. -/
inductive Json where
  | null
  | bool (b : Bool)
  | number (n : Json.Number)
  | string (text : Option String)
  | array (items : List Json)
  | object (members : List (Option String × Json))
deriving Inhabited

namespace Json

/-- The value of a decimal digit. -/
def digitValue? (c : Char) : Option (Fin 10) :=
  if h : '0' ≤ c ∧ c.toNat - '0'.toNat < 10 then some ⟨c.toNat - '0'.toNat, h.2⟩ else none

/-- The number of an integer. -/
def Number.ofInt (n : Int) : Number := ⟨decide (n < 0), n.natAbs, [], none⟩

/-- The integer that a number is: it has neither a fraction nor an exponent, and
zero has no sign. -/
def Number.integer? : Number → Option Int
  | ⟨false, whole, [], none⟩ => some whole
  | ⟨true, whole + 1, [], none⟩ => some (-(whole + 1 : Nat))
  | _ => none

@[simp] theorem Number.integer?_ofInt (n : Int) : (Number.ofInt n).integer? = some n := by
  cases n with
  | ofNat n => rfl
  | negSucc n =>
    have negative : decide (Int.negSucc n < 0) = true := decide_eq_true (Int.negSucc_lt_zero n)
    simp only [ofInt, negative]
    rfl

/-- The value of an integer. -/
def integer (n : Int) : Json := number (.ofInt n)

/-- The string of a text. -/
def text (s : String) : Json := string (some s)

/-- The value of the only member with a name, if exactly one member has it. -/
def only? (name : String) (members : List (Option String × Json)) : Option Json :=
  match members.filter (·.1 = some name) with
  | [(_, value)] => some value
  | _ => none

theorem mem_of_only? {name : String} {members : List (Option String × Json)} {value : Json}
    (h : only? name members = some value) : (some name, value) ∈ members := by
  simp only [only?] at h
  split at h
  · next name' value' found =>
    cases h
    have mem : (name', value) ∈ members.filter (·.1 = some name) := by simp [found]
    obtain ⟨mem, named⟩ := List.mem_filter.1 mem
    rw [← of_decide_eq_true named]
    exact mem
  · contradiction

end Json

end Eligibility
