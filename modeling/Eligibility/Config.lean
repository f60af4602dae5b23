import Eligibility.Connective

/-!
# Configuration

The limits on rules, and the connective that joins rules when the caller names
none. `Config.check` refuses limits that no rule could meet, and a number of
conditions beyond `conditionsCeiling`: the height of every rule the library
builds is bounded by that number.
-/

namespace Eligibility

/-- The limits that reading and combining rules obey. -/
structure Config where
  /-- Joins rules when the caller names no connective. -/
  defaultConnective : Connective := .and
  /-- How deep parentheses may nest in a rule. -/
  maxNesting : Nat := 64
  /-- The length of the longest rule, in bytes. -/
  maxLength : Nat := 64 * 1024
  /-- The number of conditions in a rule or a combination, and how deep the wire
  form of a rule may nest. -/
  maxConditions : Nat := 1024
deriving DecidableEq, Repr, Inhabited

/-- The highest value of `maxConditions`. -/
def conditionsCeiling : Nat := 16 * 1024

/-- Why a configuration is refused. -/
inductive ConfigError where
  /-- Its text is no configuration. -/
  | unreadable
  /-- It names a connective that is none. -/
  | unknownConnective (name : String)
  /-- It admits no parentheses. -/
  | nestingOutOfRange
  /-- It admits no rule text. -/
  | lengthOutOfRange
  /-- It admits no condition, or too many. -/
  | conditionsOutOfRange
deriving DecidableEq, Repr, Inhabited

/-- The complaint; a text that is no configuration is refused without one. -/
def ConfigError.message? : ConfigError → Option String
  | unreadable => none
  | unknownConnective name => some ("Invalid config: " ++ Connective.unknownMessage name)
  | nestingOutOfRange => some "Invalid config: max_nesting_depth must be at least 1"
  | lengthOutOfRange => some "Invalid config: max_rule_length must be at least 1"
  | conditionsOutOfRange =>
    some ("Invalid config: max_conditions must be between 1 and " ++
      toString conditionsCeiling)

namespace Config

/-- The configuration itself if its limits are in range, else the first one that
is not. -/
def check (config : Config) : Except ConfigError Config :=
  if config.maxNesting = 0 then .error .nestingOutOfRange
  else if config.maxLength = 0 then .error .lengthOutOfRange
  else if config.maxConditions = 0 ∨ conditionsCeiling < config.maxConditions then
    .error .conditionsOutOfRange
  else .ok config

/-- All limits are in range. -/
structure Valid (config : Config) : Prop where
  nesting : 1 ≤ config.maxNesting
  length : 1 ≤ config.maxLength
  conditions : 1 ≤ config.maxConditions
  ceiling : config.maxConditions ≤ conditionsCeiling

theorem check_eq_ok_iff {config config' : Config} :
    config.check = .ok config' ↔ config' = config ∧ config.Valid := by
  constructor
  · intro h
    simp only [check] at h
    split at h <;> try contradiction
    split at h <;> try contradiction
    split at h <;> try contradiction
    cases h
    exact ⟨rfl, ⟨by omega, by omega, by omega, by omega⟩⟩
  · rintro ⟨rfl, valid⟩
    obtain ⟨nesting, length, conditions, ceiling⟩ := valid
    simp only [check]
    rw [if_neg (by omega), if_neg (by omega), if_neg (by omega)]

/-- The defaults are in range. -/
theorem valid_default : ({} : Config).Valid :=
  ⟨by decide, by decide, by decide, by decide⟩

end Config

end Eligibility
