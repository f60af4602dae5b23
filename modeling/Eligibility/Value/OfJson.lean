import Eligibility.Condition
import Eligibility.Json

/-!
# Values as JSON

Values of attributes and literals are JSON numbers and strings: an integer of 64
bits without fraction, exponent or signed zero, or a text.
-/

namespace Eligibility

namespace Value

def toJson : Value → Json
  | integer n => .integer n.toInt
  | text s => .text s

/-- The value that a JSON value stands for: an integer of 64 bits or a text. -/
def ofJson? : Json → Option Value
  | .number n => do return integer (← int64? (← n.integer?))
  | .string (some s) => some (text s)
  | _ => none

@[simp] theorem ofJson?_toJson (v : Value) : ofJson? v.toJson = some v := by
  cases v <;> simp [toJson, ofJson?, Json.integer, Json.text]

end Value

end Eligibility
