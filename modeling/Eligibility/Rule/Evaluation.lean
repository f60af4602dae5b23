import Eligibility.Record
import Eligibility.Rule

/-!
# Evaluation of rules

A rule holds of a record or does not, unless the record lacks an attribute that
is looked at, or has it with a value that cannot be compared. The operands of a
join are looked at from left to right, the right one only if the left one leaves
the verdict open, so an error that hides behind a decided join never shows.
-/

namespace Eligibility

/-- Why a rule has no verdict on a record. -/
inductive EvaluationError where
  /-- The record has no value for a field. -/
  | missingField (field : String)
  /-- An order is asked of values that have none. -/
  | nonNumeric (field : String) (comparator : Comparator)
  /-- The attribute is not of the type of the literal. -/
  | typeMismatch (field : String) (literal actual : ValueType)
deriving DecidableEq, Repr, Inhabited

def EvaluationError.message : EvaluationError → String
  | missingField field => "Evaluation error: missing field '" ++ field ++ "'"
  | nonNumeric field comparator =>
    "Evaluation error: non-numeric comparison: " ++ field ++ " " ++ comparator.symbol ++
      " requires integer operands"
  | typeMismatch field literal actual =>
    "Evaluation error: type mismatch on '" ++ field ++ "': literal is " ++
      literal.name ++ ", attribute is " ++ actual.name

/-- How two integers compare. -/
def Comparator.compare : Comparator → Int64 → Int64 → Bool
  | gt, a, b => b < a
  | lt, a, b => a < b
  | ge, a, b => b ≤ a
  | le, a, b => a ≤ b
  | eq, a, b => a = b
  | ne, a, b => a ≠ b

/-- The verdict of a condition on the value of its attribute. -/
def Condition.compare (c : Condition) (actual : Value) : Except EvaluationError Bool :=
  match actual, c.value with
  | .integer a, .integer b => .ok (c.comparator.compare a b)
  | .text a, .text b =>
    match c.comparator with
    | .eq => .ok (a = b)
    | .ne => .ok (a ≠ b)
    | comparator => .error (.nonNumeric c.field comparator)
  | actual, literal =>
    if c.comparator.isOrdering then .error (.nonNumeric c.field c.comparator)
    else .error (.typeMismatch c.field literal.type actual.type)

/-- The verdict of a condition on a record. -/
def Condition.evaluate (c : Condition) (record : Record) : Except EvaluationError Bool :=
  match record.get? c.field with
  | none => .error (.missingField c.field)
  | some actual => c.compare actual

/-- The verdict of the left operand that decides a join alone. -/
def Connective.decisive : Connective → Bool
  | and => false
  | or => true

/-- The verdict of a rule on a record. -/
def Rule.evaluate (record : Record) : Rule → Except EvaluationError Bool
  | condition c => c.evaluate record
  | join op left right =>
    match left.evaluate record with
    | .error e => .error e
    | .ok verdict =>
      if verdict = op.decisive then .ok verdict else right.evaluate record

end Eligibility
