import Eligibility.Rule
import Eligibility.Rule.Error

/-!
# Rules from tokens

The grammar of rules knows no precedence: a rule is a sequence of operands with
connectives between them, joined from the left, and an operand is a condition or
a rule in parentheses.

`Progress` is what is known after some of the tokens: the groups still open, what
stands before the next operand, or the rule that the last operand completed.
`Progress.read` takes one token and `Progress.finish` the end of the tokens; an
error arises at the first token that no further tokens could mend.
-/

namespace Eligibility

/-- A rule and the connective after it, waiting for a right operand. -/
structure Pending where
  left : Rule
  op : Connective
deriving DecidableEq, Repr, Inhabited

/-- An open group. -/
structure Group where
  /-- The position of its parenthesis. -/
  openedAt : Nat
  /-- What stands before it at the level it belongs to. -/
  before : Option Pending
deriving DecidableEq, Repr, Inhabited

/-- Joins an operand to what stands before it. -/
def attach : Option Pending → Rule → Rule
  | none, right => right
  | some pending, right => .join pending.op pending.left right

/-- What is known of a rule after some of its tokens. Of the open groups the
innermost comes first. -/
inductive Progress where
  /-- An operand is due. -/
  | operand (groups : List Group) (before : Option Pending)
  /-- An operand has just ended, and with it the rule `done` at this level. -/
  | operator (groups : List Group) (done : Rule)
deriving DecidableEq, Repr

namespace Progress

/-- No token has been read. -/
def start : Progress := operand [] none

/-- Reads one token, with at most `limit` groups open at a time. -/
def read (limit : Nat) : Progress → PlacedToken → Except ParseError Progress
  | operand groups before, ⟨.condition c, _⟩ =>
    .ok (operator groups (attach before (.condition c)))
  | operand groups before, ⟨.opening, position⟩ =>
    if groups.length < limit then .ok (operand (⟨position, before⟩ :: groups) none)
    else .error ⟨.tooDeep limit, position⟩
  | operand _ (some pending), ⟨_, position⟩ => .error ⟨.noRight pending.op, position⟩
  | operand _ none, ⟨.connective op, position⟩ => .error ⟨.noLeft op, position⟩
  | operand (group :: _) none, ⟨.closing, _⟩ => .error ⟨.emptyGroup, group.openedAt⟩
  | operand [] none, ⟨.closing, position⟩ => .error ⟨.unopened, position⟩
  | operator groups done, ⟨.connective op, _⟩ => .ok (operand groups (some ⟨done, op⟩))
  | operator (group :: groups) done, ⟨.closing, _⟩ =>
    .ok (operator groups (attach group.before done))
  | operator [] _, ⟨.closing, position⟩ => .error ⟨.unopened, position⟩
  | operator _ _, ⟨next, position⟩ => .error ⟨.noConnective next, position⟩

/-- The rule that the tokens read so far make up, if they are all; `stop` is the
position of the end. -/
def finish (stop : Nat) : Progress → Except ParseError Rule
  | operator [] done => .ok done
  | operator (group :: _) _ => .error ⟨.unclosed, group.openedAt⟩
  | operand _ (some pending) => .error ⟨.noRight pending.op, stop⟩
  | operand (group :: _) none => .error ⟨.unclosed, group.openedAt⟩
  | operand [] none => .error ⟨.empty, 0⟩

end Progress

/-- The rule that the tokens spell, with parentheses nested at most `limit` deep;
`stop` is the position of the end of the tokens. -/
def Rule.ofTokens (limit stop : Nat) (tokens : List PlacedToken) : Except ParseError Rule :=
  (tokens.foldlM (Progress.read limit) Progress.start).bind (Progress.finish stop)

end Eligibility
