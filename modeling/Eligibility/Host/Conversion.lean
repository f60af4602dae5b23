import Eligibility.Host.Argument
import Eligibility.Host.Fault

/-!
# Converting arguments

What the library makes of the arguments that it accepts: texts, connectives,
attribute records and configurations.
-/

namespace Eligibility.Host

namespace Argument

def toText : Argument → Except Fault String
  | text s => .ok s
  | _ => .error .wrongType

def toTexts : Argument → Except Fault (List String)
  | list items => items.mapM toText
  | _ => .error .wrongType

/-- A limit is an integer below 2^64; a flag counts as zero or one. -/
def toLimit : Argument → Except Fault Nat
  | flag b => .ok b.toNat
  | integer n => if 0 ≤ n ∧ n < UInt64.size then .ok n.toNat else .error .overflow
  | _ => .error .wrongType

/-- What an attribute says. Integers beyond 64 bits are no values. -/
def toEntry (field : String) : Argument → Except Fault (Option Value)
  | nothing => .ok none
  | flag _ => .error (.attributeType field true)
  | integer n =>
    match int64? n with
    | some i => .ok (some (.integer i))
    | none => .error (.attributeType field false)
  | text s => .ok (some (.text s))
  | _ => .error (.attributeType field false)

/-- The connective that is asked for, or the default one. -/
def toConnective (config : Config) : Argument → Except Fault Connective
  | nothing => .ok config.defaultConnective
  | text name =>
    match Connective.named? name with
    | some op => .ok op
    | none => .error (.rule (.parse ⟨.unknownConnective name, 0⟩))
  | _ => .error .wrongType

end Argument

namespace Mapping

/-- The entries for a record, in order; the first that cannot be one is a fault. -/
def toEntries : Mapping → Except Fault (List (String × Option Value))
  | [] => .ok []
  | (none, _) :: _ => .error .wrongType
  | (some field, value) :: rest => do
    let entry ← value.toEntry field
    let entries ← toEntries rest
    return (field, entry) :: entries

/-- The record with the attributes of a mapping. -/
def toRecord (mapping : Mapping) : Except Fault Record :=
  (toEntries mapping).map Record.ofList

/-- A setting of a configuration: the default if the key is missing or has
nothing as its value. -/
def setting {α : Type} (mapping : Mapping) (key : String) (default : α)
    (convert : Argument → Except Fault α) : Except Fault α :=
  match mapping.get? key with
  | none | some .nothing => .ok default
  | some value => convert value

/-- A connective as a setting names it. -/
def connectiveSetting (value : Argument) : Except Fault Connective := do
  let name ← value.toText
  match Connective.named? name with
  | some op => .ok op
  | none => .error (.config (.unknownConnective name))

/-- The configuration with the settings of a mapping, checked. Other keys play no
part. -/
def toConfig (mapping : Mapping) : Except Fault Config := do
  let base : Config := {}
  let defaultConnective ←
    mapping.setting "default_connective" base.defaultConnective connectiveSetting
  let maxNesting ← mapping.setting "max_nesting_depth" base.maxNesting Argument.toLimit
  let maxLength ← mapping.setting "max_rule_length" base.maxLength Argument.toLimit
  let maxConditions ← mapping.setting "max_conditions" base.maxConditions Argument.toLimit
  ({ defaultConnective, maxNesting, maxLength, maxConditions } : Config).check.mapError .config

end Mapping

end Eligibility.Host
