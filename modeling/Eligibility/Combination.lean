import Eligibility.Rule.OfText

/-!
# Combinations

Several rules are combined into one by listing their conditions, dropping those
that occurred before and joining what remains from the left with one connective.
The connectives inside the rules play no part.

Rules given as text are read first. Those that are none are left out and
recorded, each with its place in the input (`Rejection`).
-/

namespace Eligibility

/-- Why rules cannot be combined. -/
inductive CombineError where
  /-- There is no rule. -/
  | noRules
  /-- None of the texts is a rule. -/
  | allRejected (count : Nat)
  /-- There is no condition. -/
  | noConditions
  /-- There are too many different conditions. -/
  | tooManyConditions (count limit : Nat)
deriving DecidableEq, Repr, Inhabited

def CombineError.message : CombineError → String
  | noRules => "Empty input: no rules supplied"
  | allRejected count => "Empty input: all " ++ toString count ++ " rules failed to parse"
  | noConditions => "Empty input: no conditions to combine"
  | tooManyConditions count limit =>
    "Too many conditions: " ++ toString count ++ " exceeds the limit of " ++ toString limit

namespace Rule

/-- Joins the conditions from the left. -/
def chain? (op : Connective) : List Condition → Option Rule
  | [] => none
  | first :: rest =>
    some (rest.foldl (fun done c => join op done (condition c)) (condition first))

/-- The different conditions of the rules, in the order in which they first
occur. -/
def distinctLeaves (rules : List Rule) : List Condition :=
  (rules.flatMap leaves).eraseDups

/-- Combines rules into one. -/
def combine (config : Config) (op : Connective) (rules : List Rule) :
    Except CombineError Rule :=
  if rules.isEmpty then .error .noRules
  else
    let distinct := distinctLeaves rules
    if config.maxConditions < distinct.length then
      .error (.tooManyConditions distinct.length config.maxConditions)
    else
      match chain? op distinct with
      | some r => .ok r
      | none => .error .noConditions

end Rule

/-- A text that was left out of a combination. -/
structure Rejection where
  /-- Its place in the input, counted from zero. -/
  index : Nat
  text : String
  error : RuleError
deriving DecidableEq, Repr, Inhabited

/-- A combined rule and the texts that were left out of it. -/
structure Combination where
  rule : Rule
  rejected : List Rejection
deriving DecidableEq, Repr, Inhabited

namespace Combination

/-- The rules among the texts, and the texts that are none; the first text has
the place `index`. -/
def sort (config : Config) (index : Nat) : List String → List Rule × List Rejection
  | [] => ([], [])
  | text :: texts =>
    let (rules, rejected) := sort config (index + 1) texts
    match Rule.ofText config text with
    | .ok r => (r :: rules, rejected)
    | .error e => (rules, ⟨index, text, e⟩ :: rejected)

/-- Combines the texts that are rules. -/
def ofTexts (config : Config) (op : Connective) (texts : List String) :
    Except CombineError Combination :=
  if texts.isEmpty then .error .noRules
  else
    let (rules, rejected) := sort config 0 texts
    if rules.isEmpty then .error (.allRejected texts.length)
    else (Rule.combine config op rules).map (⟨·, rejected⟩)

end Combination

end Eligibility
