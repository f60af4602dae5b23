import Eligibility.Json

/-!
# Nodes of the wire form

On the wire a rule is a tree of JSON nodes. A node is an object, with its members
in any order, or an array; its tag says whether it is a condition or a join. This
module looks at one node at a time and leaves the parts as JSON values: which
members of an object are read depends on the tag alone, and all others are
passed over.
-/

namespace Eligibility.Json

/-- What a node stands for. -/
inductive Tag where
  | condition
  | operator
deriving DecidableEq, Repr, Inhabited

/-- The word for a tag. -/
def Tag.word : Tag → String
  | condition => "condition"
  | operator => "operator"

/-- The tag that a value spells. Below the root, a number may stand for the word. -/
def Tag.ofJson? (isRoot : Bool) : Json → Option Tag
  | string (some word) =>
    if word = condition.word then some condition
    else if word = operator.word then some operator
    else none
  | number n =>
    if isRoot then none
    else if n.integer? = some 0 then some condition
    else if n.integer? = some 1 then some operator
    else none
  | _ => none

/-- A node and its parts. -/
inductive Node where
  | condition (field comparator value : Json)
  | operator (op left right : Json)

/-- The node that a value is. -/
def Node.ofJson? (isRoot : Bool) : Json → Option Node
  | object members =>
    (only? "type" members).bind fun tag =>
      match Tag.ofJson? isRoot tag with
      | some .condition => do
        return condition (← only? "field" members) (← only? "operator" members)
          (← only? "value" members)
      | some .operator => do
        return operator (← only? "value" members) (← only? "left" members)
          (← only? "right" members)
      | none => none
  | array [tag, first, second, third] =>
    match Tag.ofJson? isRoot tag with
    | some .condition => some (condition first second third)
    | some .operator => some (operator first second third)
    | none => none
  | _ => none

theorem sizeOf_lt_of_only? {name : String} {members : List (Option String × Json)}
    {value : Json} (h : only? name members = some value) :
    sizeOf value < sizeOf (object members) := by
  have lt := List.sizeOf_lt_of_mem (mem_of_only? h)
  simp only [Prod.mk.sizeOf_spec, object.sizeOf_spec] at lt ⊢
  omega

theorem Node.sizeOf_lt {isRoot : Bool} {j op left right : Json}
    (h : Node.ofJson? isRoot j = some (operator op left right)) :
    sizeOf left < sizeOf j ∧ sizeOf right < sizeOf j := by
  cases j with
  | object members =>
    simp only [ofJson?, Option.bind_eq_some_iff] at h
    obtain ⟨tag, -, h⟩ := h
    split at h
    · simp [Option.bind_eq_some_iff] at h
    · simp only [Option.bind_eq_bind, Option.bind_eq_some_iff, Option.pure_def,
        Option.some.injEq, operator.injEq] at h
      obtain ⟨_, -, left', hLeft, right', hRight, -, rfl, rfl⟩ := h
      exact ⟨sizeOf_lt_of_only? hLeft, sizeOf_lt_of_only? hRight⟩
    · contradiction
  | array items =>
    simp only [ofJson?] at h
    split at h <;> try contradiction
    next parts =>
      cases parts
      split at h
      · simp at h
      · cases h
        simp only [array.sizeOf_spec, List.cons.sizeOf_spec]
        omega
      · contradiction
  | _ => simp [ofJson?] at h

end Eligibility.Json
