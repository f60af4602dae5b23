import Eligibility.Word

/-!
# Tokens

The tokens of a rule are parentheses, connectives and conditions. A condition is
spelled by exactly three words: an identifier, a comparator and a literal. All
other tokens are one word.

`tokenize` reads the words of a text from left to right and stops at the first
word that no continuation could make part of a token; a text that ends inside a
condition is blamed on the field of that condition.
-/

namespace Eligibility

/-- What the words of a rule spell. -/
inductive Token where
  /-- An opening parenthesis. -/
  | opening
  /-- A closing parenthesis. -/
  | closing
  | connective (op : Connective)
  | condition (c : Condition)
deriving DecidableEq, Repr, Inhabited

namespace Token

/-- The token as messages name it. -/
def describe : Token → String
  | opening => "'('"
  | closing => "')'"
  | connective op => op.word
  | condition c => "condition '" ++ c.text ++ "'"

/-- The token that a word spells alone, if there is one. -/
def ofWord? : List Char → Option Token
  | ['('] => some opening
  | [')'] => some closing
  | text => (Connective.ofWord? (String.ofList text)).map connective

def isCondition : Token → Bool
  | condition _ => true
  | _ => false

end Token

/-- A token and the byte offset of its first word. -/
structure PlacedToken where
  token : Token
  position : Nat
deriving DecidableEq, Repr, Inhabited

/-- What is wrong with a word. -/
inductive WordFault where
  /-- It stands where a token starts, and starts none. -/
  | unrecognized
  /-- It is the field of a condition that the end of the text cuts off. -/
  | incomplete
  /-- It stands where a comparator is due. -/
  | notComparator
  /-- It stands where a literal is due. -/
  | notLiteral
  /-- It is an integer that does not fit 64 bits. -/
  | outOfRange
deriving DecidableEq, Repr, Inhabited

def WordFault.message : WordFault → String
  | unrecognized => "unrecognized token"
  | incomplete => "incomplete condition"
  | notComparator => "expected comparator, found"
  | notLiteral => "expected literal, found"
  | outOfRange => "integer literal out of range"

/-- A word that keeps a text from being read as tokens. -/
structure LexError where
  fault : WordFault
  word : Word
deriving DecidableEq, Repr, Inhabited

def LexError.message (e : LexError) : String :=
  "Lex error at position " ++ toString e.word.position ++ ": " ++ e.fault.message ++
    " '" ++ String.ofList e.word.text ++ "'"

/-- A run of decimal digits, at least one. -/
def isNumeral (text : List Char) : Bool :=
  !text.isEmpty && text.all Char.isDigit

/-- The integer that a word spells: a numeral with or without a minus sign, of
any length, leading zeros included. -/
def integerWord? : List Char → Option Int
  | '-' :: digits =>
    if isNumeral digits then some (-(Nat.ofDigitChars 10 digits 0 : Nat)) else none
  | digits =>
    if isNumeral digits then some (Nat.ofDigitChars 10 digits 0 : Nat) else none

/-- The text that a word spells: what stands between two single quotes, with no
further quote. -/
def quotedWord? : List Char → Option (List Char)
  | '\'' :: rest =>
    if rest.getLast? = some '\'' && rest.dropLast.all (· != '\'') then some rest.dropLast
    else none
  | _ => none

/-- The value that a literal spells, or what is wrong with the word. -/
def literalWord (text : List Char) : Except WordFault Value :=
  match integerWord? text with
  | some n =>
    match int64? n with
    | some i => .ok (.integer i)
    | none => .error .outOfRange
  | none =>
    match quotedWord? text with
    | some s => .ok (.text (String.ofList s))
    | none => .error .notLiteral

/-- The tokens that a list of words spells. -/
def tokensOfWords : List Word → Except LexError (List PlacedToken)
  | [] => .ok []
  | first :: rest =>
    match Token.ofWord? first.text with
    | some token => (tokensOfWords rest).map (⟨token, first.position⟩ :: ·)
    | none =>
      if isIdentifier first.text then
        match rest with
        | [] => .error ⟨.incomplete, first⟩
        | second :: rest =>
          match Comparator.ofSymbol? (String.ofList second.text) with
          | none => .error ⟨.notComparator, second⟩
          | some comparator =>
            match rest with
            | [] => .error ⟨.incomplete, first⟩
            | third :: rest =>
              match literalWord third.text with
              | .error fault => .error ⟨fault, third⟩
              | .ok value =>
                (tokensOfWords rest).map
                  (⟨.condition ⟨String.ofList first.text, comparator, value⟩,
                    first.position⟩ :: ·)
      else .error ⟨.unrecognized, first⟩

/-- The tokens of a text. -/
def tokenize (text : String) : Except LexError (List PlacedToken) :=
  tokensOfWords (words text.toList)

end Eligibility
