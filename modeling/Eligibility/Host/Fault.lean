import Eligibility.Combination
import Eligibility.Rule.Evaluation
import Eligibility.Rule.Wire

/-!
# Faults

Why a request of a calling program fails. Most faults are errors of the library
itself; the others come from arguments that it does not accept.
-/

namespace Eligibility.Host

/-- Why a request fails. -/
inductive Fault where
  /-- An argument is of the wrong type. -/
  | wrongType
  /-- An integer is out of range. -/
  | overflow
  /-- The value of an attribute is of the wrong type. -/
  | attributeType (field : String) (isFlag : Bool)
  | rule (e : RuleError)
  | combine (e : CombineError)
  | wire (e : WireError)
  | evaluation (e : EvaluationError)
  | config (e : ConfigError)
  /-- There is nothing in the slot that is asked for. -/
  | emptySlot
deriving DecidableEq, Repr, Inhabited

/-- What a calling program can tell apart without looking at the complaint. -/
inductive Fault.Kind where
  | wrongType
  | overflow
  /-- Something that is looked up is missing. -/
  | missingKey
  | badValue
  | emptySlot
deriving DecidableEq, Repr, Inhabited

/-- The kind of a fault: whatever the library complains about is a bad value, but for
a field that is missing. -/
def Fault.kind : Fault → Kind
  | wrongType | attributeType _ _ => .wrongType
  | overflow => .overflow
  | evaluation (.missingField _) => .missingKey
  | rule _ | combine _ | wire _ | evaluation _ | config _ => .badValue
  | emptySlot => .emptySlot

/-- The complaint, if the library makes one. -/
def Fault.message? : Fault → Option String
  | wrongType | overflow | emptySlot => none
  | attributeType field isFlag =>
    some ("attribute '" ++ field ++ "' must be int, str or None" ++
      if isFlag then ", not bool" else "")
  | rule e => some e.message
  | combine e => some e.message
  | wire e => e.message?
  | evaluation e => some e.message
  | config e => e.message?

end Eligibility.Host
