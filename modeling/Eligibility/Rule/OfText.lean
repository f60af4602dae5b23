import Eligibility.Config
import Eligibility.Rule.OfTokens

/-!
# Rules from text

Reads rule text under the limits of a configuration: first the length of the
text, then its tokens, then the number of conditions, and then the grammar with
the nesting of parentheses.
-/

namespace Eligibility

namespace Rule

/-- The position of the first condition beyond the first `limit` ones. -/
def extraCondition? (limit : Nat) (tokens : List PlacedToken) : Option Nat :=
  ((tokens.filter (·.token.isCondition))[limit]?).map (·.position)

/-- The rule that a text spells, within the limits of the configuration. -/
def ofText (config : Config) (text : String) : Except RuleError Rule :=
  if config.maxLength < text.utf8ByteSize then
    .error (.parse ⟨.tooLong text.utf8ByteSize config.maxLength, config.maxLength⟩)
  else
    match tokenize text with
    | .error e => .error (.lex e)
    | .ok tokens =>
      match extraCondition? config.maxConditions tokens with
      | some position =>
        .error (.parse ⟨.tooManyConditions config.maxConditions, position⟩)
      | none => (ofTokens config.maxNesting text.utf8ByteSize tokens).mapError .parse

end Rule

end Eligibility
