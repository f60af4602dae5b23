import Eligibility.Token

/-!
# Errors of rule text

A text is no rule when its words spell no tokens (`LexError`), or when its tokens
are no rule within the limits (`ParseError`).
-/

namespace Eligibility

/-- What keeps tokens from being a rule, or a text from being looked at. -/
inductive ParseFault where
  /-- There are no tokens. -/
  | empty
  /-- A parenthesis opens one group too many. -/
  | tooDeep (limit : Nat)
  /-- A parenthesis is not closed. -/
  | unclosed
  /-- A parenthesis is closed at once. -/
  | emptyGroup
  /-- A parenthesis closes nothing. -/
  | unopened
  /-- Nothing stands before a connective. -/
  | noLeft (op : Connective)
  /-- Nothing follows a connective. -/
  | noRight (op : Connective)
  /-- Two operands stand side by side; `next` starts the second. -/
  | noConnective (next : Token)
  /-- The text has too many bytes. -/
  | tooLong (bytes limit : Nat)
  /-- The text has too many conditions. -/
  | tooManyConditions (limit : Nat)
  /-- A caller asks for a connective that is none. -/
  | unknownConnective (name : String)
deriving DecidableEq, Repr, Inhabited

def ParseFault.message : ParseFault → String
  | empty => "empty expression"
  | tooDeep limit => "parentheses nested deeper than " ++ toString limit
  | unclosed => "unmatched '('"
  | emptyGroup => "empty parentheses"
  | unopened => "unmatched ')'"
  | noLeft op => "missing left operand for " ++ op.word
  | noRight op => "missing right operand for " ++ op.word
  | noConnective next => "expected AND or OR before " ++ next.describe
  | tooLong bytes limit =>
    "rule is " ++ toString bytes ++ " bytes, longer than the " ++ toString limit ++
      " byte limit"
  | tooManyConditions limit => "rule has more than " ++ toString limit ++ " conditions"
  | unknownConnective name => Connective.unknownMessage name

/-- A fault and the byte offset it is blamed on. -/
structure ParseError where
  fault : ParseFault
  position : Nat
deriving DecidableEq, Repr, Inhabited

def ParseError.message (e : ParseError) : String :=
  "Parse error at position " ++ toString e.position ++ ": " ++ e.fault.message

/-- Why a text is no rule. -/
inductive RuleError where
  | lex (e : LexError)
  | parse (e : ParseError)
deriving DecidableEq, Repr, Inhabited

def RuleError.message : RuleError → String
  | lex e => e.message
  | parse e => e.message

end Eligibility
