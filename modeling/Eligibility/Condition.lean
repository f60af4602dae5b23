import Eligibility.Connective
import Eligibility.Text.Blank

/-!
# Conditions

A condition compares an attribute, named by its field, with a literal. Values
are 64-bit integers or texts, for literals and for attributes alike.

`Condition.text` writes a condition as three words. Not every condition can be
read back from that text: `Condition.expressible` says which ones can.
-/

namespace Eligibility

/-- What a condition compares: an integer or a text. -/
inductive Value where
  | integer (n : Int64)
  | text (s : String)
deriving DecidableEq, Repr, Inhabited

/-- The types of values. -/
inductive ValueType where
  | integer
  | text
deriving DecidableEq, Repr, Inhabited

/-- The name of a type, as messages give it. -/
def ValueType.name : ValueType → String
  | integer => "integer"
  | text => "string"

namespace Value

def type : Value → ValueType
  | integer _ => .integer
  | text _ => .text

/-- The literal that spells a value: an integer in decimal digits, a text
between single quotes. -/
def literal : Value → String
  | integer n => toString n.toInt
  | text s => "'" ++ s ++ "'"

end Value

/-- The integer `n` as a 64-bit integer, if it is one. -/
def int64? (n : Int) : Option Int64 :=
  if Int64.minValue.toInt ≤ n ∧ n ≤ Int64.maxValue.toInt then some (Int64.ofInt n) else none

theorem int64?_eq_some_iff {n : Int} {i : Int64} : int64? n = some i ↔ n = i.toInt := by
  constructor
  · intro h
    simp only [int64?] at h
    split at h
    · next bounds =>
      cases h
      exact (Int64.toInt_ofInt_of_le bounds.1 (Int.lt_add_one_of_le bounds.2)).symm
    · contradiction
  · rintro rfl
    simp only [int64?]
    rw [if_pos ⟨Int64.le_toInt i, Int64.toInt_le i⟩, Int64.ofInt_toInt]

@[simp] theorem int64?_toInt (i : Int64) : int64? i.toInt = some i :=
  int64?_eq_some_iff.2 rfl

theorem int64?_eq_none_iff {n : Int} :
    int64? n = none ↔ ¬ (Int64.minValue.toInt ≤ n ∧ n ≤ Int64.maxValue.toInt) := by
  simp only [int64?]
  split <;> simp_all

/-- How a condition compares the attribute with its literal. -/
inductive Comparator where
  | gt
  | lt
  | ge
  | le
  | eq
  | ne
deriving DecidableEq, Repr, Inhabited

namespace Comparator

/-- The word that spells the comparator. -/
def symbol : Comparator → String
  | gt => ">"
  | lt => "<"
  | ge => ">="
  | le => "<="
  | eq => "="
  | ne => "!="

/-- All comparators. -/
def all : List Comparator := [gt, lt, ge, le, eq, ne]

/-- The comparator that a word spells. -/
def ofSymbol? (word : String) : Option Comparator :=
  all.find? fun comparator => comparator.symbol = word

@[simp] theorem ofSymbol?_symbol (comparator : Comparator) :
    ofSymbol? comparator.symbol = some comparator := by
  cases comparator <;> decide

theorem ofSymbol?_eq_some_iff {word : String} {comparator : Comparator} :
    ofSymbol? word = some comparator ↔ word = comparator.symbol := by
  constructor
  · intro h
    have found := List.find?_some h
    exact (of_decide_eq_true found).symm
  · rintro rfl
    exact ofSymbol?_symbol comparator

/-- Whether the comparator asks for an order, which integers alone have. -/
def isOrdering : Comparator → Bool
  | eq | ne => false
  | _ => true

end Comparator

/-- A comparison of an attribute with a literal. -/
structure Condition where
  /-- The name of the attribute. -/
  field : String
  comparator : Comparator
  /-- The literal. -/
  value : Value
deriving DecidableEq, Repr, Inhabited

/-- The first character of an identifier: an ASCII letter or an underscore. -/
def isIdentifierStart (c : Char) : Bool :=
  c.isAlpha || c = '_'

/-- The later characters of an identifier: also the ASCII digits. -/
def isIdentifierRest (c : Char) : Bool :=
  c.isAlphanum || c = '_'

/-- An identifier is not empty, and its characters are ASCII letters, digits and
underscores, with no digit in front. -/
def isIdentifier : List Char → Bool
  | [] => false
  | c :: cs => isIdentifierStart c && cs.all isIdentifierRest

/-- A parenthesis is a word of its own wherever it stands. -/
def isParenthesis (c : Char) : Bool :=
  c = '(' || c = ')'

/-- The characters that words are made of. -/
def isWordChar (c : Char) : Bool :=
  !isParenthesis c && !isBlank c

/-- A character that may stand between the quotes of a text literal. -/
def isQuotable (c : Char) : Bool :=
  isWordChar c && c != '\''

namespace Condition

/-- The condition as rule text: field, comparator and literal, one blank
between them. -/
def text (c : Condition) : String :=
  c.field ++ " " ++ c.comparator.symbol ++ " " ++ c.value.literal

/-- Whether the text of the condition reads back as this condition: its field is
an identifier that spells no connective, and a text value holds no quote, no
parenthesis and no blank character. -/
def expressible (c : Condition) : Bool :=
  isIdentifier c.field.toList && (Connective.ofWord? c.field).isNone &&
    match c.value with
    | .integer _ => true
    | .text s => s.toList.all isQuotable

end Condition

end Eligibility
