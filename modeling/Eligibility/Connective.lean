/-!
# Connectives

The two connectives that join conditions, and the words that name them. Rule
text spells a connective in capitals only (`word`); callers may name it in any
letter case (`named?`).
-/

namespace Eligibility

/-- How two rules are joined. -/
inductive Connective where
  /-- Both must hold. -/
  | and
  /-- One of them must hold. -/
  | or
deriving DecidableEq, Repr, Inhabited

namespace Connective

/-- The word that spells the connective in rule text. -/
def word : Connective → String
  | and => "AND"
  | or => "OR"

/-- The connective that a word of rule text spells. -/
def ofWord? (text : String) : Option Connective :=
  if text = "AND" then some and else if text = "OR" then some or else none

@[simp] theorem ofWord?_word (op : Connective) : ofWord? op.word = some op := by
  cases op <;> decide

theorem ofWord?_eq_some_iff {text : String} {op : Connective} :
    ofWord? text = some op ↔ text = op.word := by
  constructor
  · intro h
    simp only [ofWord?] at h
    split at h
    · cases h; assumption
    · split at h
      · cases h; assumption
      · contradiction
  · rintro rfl
    exact ofWord?_word op

/-- The connective that a caller names, whatever the case of its letters. Only
the ASCII letters have two cases here. -/
def named? (name : String) : Option Connective :=
  ofWord? (name.map Char.toUpper)

/-- The complaint about a name that is none of the two. -/
def unknownMessage (name : String) : String :=
  "unknown logical operator '" ++ name ++ "', expected AND or OR"

end Connective

end Eligibility
