import Eligibility.Config
import Eligibility.Json.FloatRange
import Eligibility.Json.Nesting
import Eligibility.Json.Node
import Eligibility.Json.Reader
import Eligibility.Json.Writer
import Eligibility.Rule
import Eligibility.Value.OfJson

/-!
# The wire form of rules

Rules travel between programs as JSON text. `Rule.toWire` writes the one form
that the library itself produces; `Rule.ofWire` reads that form and a few looser
spellings of it. The text may nest no deeper than the configuration admits
conditions, which is looked at before anything else, and every condition of the
rule must be one that rule text can express.
-/

namespace Eligibility

/-- Why a text is no rule on the wire. -/
inductive WireError where
  /-- Its containers nest too deep. -/
  | nested (limit : Nat)
  /-- It is no JSON, or not the JSON of a rule. -/
  | malformed
  /-- Rule text cannot express a condition. -/
  | inexpressible (c : Condition)
deriving DecidableEq, Repr, Inhabited

/-- The complaint; a text that is not the JSON of a rule is refused without one. -/
def WireError.message? : WireError → Option String
  | nested limit =>
    some ("Evaluation error: malformed AST: nested deeper than " ++ toString limit ++ " levels")
  | malformed => none
  | inexpressible c =>
    some ("Evaluation error: malformed AST: condition '" ++ c.text ++
      "' cannot be written as rule text")

namespace Rule

/-- The rule as a JSON value. -/
def toJson : Rule → Json
  | condition c =>
    .object
      [(some "type", .text Json.Tag.condition.word),
        (some "field", .text c.field),
        (some "operator", .text c.comparator.symbol),
        (some "value", c.value.toJson)]
  | join op left right =>
    .object
      [(some "type", .text Json.Tag.operator.word),
        (some "value", .text op.word),
        (some "left", left.toJson),
        (some "right", right.toJson)]

/-- The wire form of the rule. -/
def toWire (r : Rule) : String := r.toJson.write

/-- The word that a value spells: a text, or the name of the only member of an
object, with nothing as its value. -/
def wireWord? : Json → Option String
  | .string text => text
  | .object [(name, .null)] => name
  | .object [(name, .object [])] => name
  | _ => none

/-- The rule that a JSON value stands for. -/
def ofNode? (isRoot : Bool) (j : Json) : Option Rule :=
  match _h : Json.Node.ofJson? isRoot j with
  | none => none
  | some (.condition (.string (some field)) comparator value) => do
    let comparator ← Comparator.ofSymbol? (← wireWord? comparator)
    return condition ⟨field, comparator, ← Value.ofJson? value⟩
  | some (.condition _ _ _) => none
  | some (.operator op left right) => do
    let op ← Connective.ofWord? (← wireWord? op)
    return join op (← ofNode? false left) (← ofNode? false right)
termination_by sizeOf j
decreasing_by
  · exact (Json.Node.sizeOf_lt _h).1
  · exact (Json.Node.sizeOf_lt _h).2

/-- The rule that a JSON value stands for, if its strings and numbers can all be
represented. -/
def ofJson? (j : Json) : Option Rule :=
  if j.isRepresentable then ofNode? true j else none

/-- The rule that a text spells on the wire. -/
def ofWire (config : Config) (text : String) : Except WireError Rule :=
  if config.maxConditions < Json.nesting text then .error (.nested config.maxConditions)
  else
    match (Json.read text).bind ofJson? with
    | none => .error .malformed
    | some r =>
      match r.leaves.find? (! ·.expressible) with
      | some c => .error (.inexpressible c)
      | none => .ok r

end Rule

end Eligibility
