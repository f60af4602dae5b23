import Eligibility.Config
import Eligibility.Json.Reader

/-!
# Configurations from JSON

A configuration is written as a JSON object with a member for each setting that
is not left at its default, or as an array of the settings in order. Members with
other names may hold anything.
-/

namespace Eligibility.Config

/-- The connective that a setting names. -/
def connectiveOfJson? : Json → Option Connective
  | .string (some word) => Connective.ofWord? word
  | .object [(some word, .null)] => Connective.ofWord? word
  | _ => none

/-- The limit that a setting gives: an integer below 2^64. -/
def limitOfJson? : Json → Option Nat
  | .number n =>
    n.integer?.bind fun limit => if 0 ≤ limit ∧ limit < UInt64.size then some limit.toNat else none
  | _ => none

/-- The value of the member with a name, or the default if there is no such
member. -/
def setting {α : Type} (read? : Json → Option α) (default : α) (name : String)
    (members : List (Option String × Json)) : Option α :=
  match members.filter (·.1 = some name) with
  | [] => some default
  | [(_, value)] => read? value
  | _ => none

/-- The value of the next setting in a list, or the default if the list ends
here; also gives the settings after it. -/
def nextSetting {α : Type} (read? : Json → Option α) (default : α) :
    List Json → Option (α × List Json)
  | [] => some (default, [])
  | value :: rest => (read? value).map (·, rest)

/-- The configuration that a JSON value stands for, whatever its limits. -/
def ofJson? : Json → Option Config
  | .object members => do
    guard (members.all (·.1.isSome))
    return {
      defaultConnective :=
        ← setting connectiveOfJson? ({} : Config).defaultConnective "default_connective" members
      maxNesting := ← setting limitOfJson? ({} : Config).maxNesting "max_nesting_depth" members
      maxLength := ← setting limitOfJson? ({} : Config).maxLength "max_rule_length" members
      maxConditions :=
        ← setting limitOfJson? ({} : Config).maxConditions "max_conditions" members }
  | .array items => do
    let (defaultConnective, items) ←
      nextSetting connectiveOfJson? ({} : Config).defaultConnective items
    let (maxNesting, items) ← nextSetting limitOfJson? ({} : Config).maxNesting items
    let (maxLength, items) ← nextSetting limitOfJson? ({} : Config).maxLength items
    let (maxConditions, items) ← nextSetting limitOfJson? ({} : Config).maxConditions items
    guard items.isEmpty
    return { defaultConnective, maxNesting, maxLength, maxConditions }
  | _ => none

/-- The configuration that a JSON text denotes. -/
def read (text : String) : Except ConfigError Config :=
  match (Json.read text).bind ofJson? with
  | none => .error .unreadable
  | some config => config.check

end Eligibility.Config
