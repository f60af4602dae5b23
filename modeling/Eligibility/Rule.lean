import Eligibility.Condition

/-!
# Rules

A rule is a condition, or two rules joined by a connective.

Rules read from text are chains: long to the left and shallow to the right. So
the two walks over a rule keep what is still to visit in a list and follow left
operands without any. `Rule.leaves` lists the conditions from left to right.
`Rule.text` writes the rule; the connectives of one level are read from left to
right, so only a right operand that is itself a join needs parentheses.
-/

namespace Eligibility

/-- A boolean combination of conditions. -/
inductive Rule where
  | condition (c : Condition)
  | join (op : Connective) (left right : Rule)
deriving DecidableEq, Repr, Inhabited

namespace Rule

/-- The number of conditions and joins. -/
def size : Rule → Nat
  | condition _ => 1
  | join _ left right => left.size + right.size + 1

/-- The number of rules on the longest path from the rule to one of its
conditions. -/
def height : Rule → Nat
  | condition _ => 1
  | join _ left right => max left.height right.height + 1

/-- Whether the rule is a join. -/
def isJoin : Rule → Bool
  | condition _ => false
  | join _ _ _ => true

/-- The largest number of right operands on a path from the root, counting only
those that are joins. -/
def rightNesting : Rule → Nat
  | condition _ => 0
  | join _ left right =>
    max left.rightNesting (right.rightNesting + if right.isJoin then 1 else 0)

/-- The conditions of the rules in a work list, in order: the first rule of the
list is visited next, and a join gives way to its two operands. -/
def leavesOf : List Rule → List Condition
  | [] => []
  | condition c :: pending => c :: leavesOf pending
  | join _ left right :: pending => leavesOf (left :: right :: pending)
termination_by pending => pending.foldr (fun r total => r.size + total) 0
decreasing_by
  · simp [size]
  · simp only [size, List.foldr_cons]
    omega

/-- The conditions of a rule from left to right. -/
def leaves (r : Rule) : List Condition :=
  leavesOf [r]

@[simp] theorem leavesOf_nil : leavesOf [] = [] := by simp [leavesOf]

theorem leavesOf_append (first second : List Rule) :
    leavesOf (first ++ second) = leavesOf first ++ leavesOf second := by
  fun_induction leavesOf first with
  | case1 => simp
  | case2 c pending ih => simp [leavesOf, ih]
  | case3 op left right pending ih =>
    rw [List.cons_append, leavesOf]
    exact ih

theorem leavesOf_cons (r : Rule) (pending : List Rule) :
    leavesOf (r :: pending) = r.leaves ++ leavesOf pending :=
  leavesOf_append [r] pending

/-- The text of a rule, in pieces, in front of the pieces `later`. A left operand
is followed down with the connective and the right operand put before what is
still to come. -/
def piecesBefore : Rule → List String → List String
  | condition c, later => c.text :: later
  | join op left right, later =>
    piecesBefore left <| " " :: op.word :: " " ::
      match right with
      | condition c => c.text :: later
      | join _ _ _ => "(" :: piecesBefore right (")" :: later)

/-- The rule as rule text. -/
def text (r : Rule) : String :=
  String.join (r.piecesBefore [])

theorem piecesBefore_join (op : Connective) (left right : Rule) (later : List String) :
    (join op left right).piecesBefore later =
      left.piecesBefore (" " :: op.word :: " " ::
        if right.isJoin then "(" :: right.piecesBefore (")" :: later)
        else right.piecesBefore later) := by
  cases right <;> rfl

theorem piecesBefore_append (r : Rule) (first second : List String) :
    r.piecesBefore (first ++ second) = r.piecesBefore first ++ second := by
  induction r generalizing first second with
  | condition c => rfl
  | join op left right ihLeft ihRight =>
    simp only [piecesBefore_join, ← List.cons_append, ihRight, ← ihLeft]
    split <;> rfl

end Rule

end Eligibility
