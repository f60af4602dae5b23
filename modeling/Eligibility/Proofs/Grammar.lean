import Eligibility.Token
import Eligibility.Rule

/-!
# The grammar of rules

    Expression := Operand { connective Operand }
    Operand    := condition | "(" Expression ")"

`Expression` and `Operand` are the derivations of this grammar. A derivation has
the tokens that it derives, the rule that they stand for and the nesting of its
parentheses. The rule of an expression joins its operands from the left, and that
of a group is the one inside, so a rule may have many derivations. Tokens have
at most one: `Expression.tokens_injective`.
-/

namespace Eligibility

mutual

/-- A derivation of an operand. -/
inductive Operand where
  | condition (c : Condition)
  | group (inner : Expression)

/-- A derivation of an expression: the first operand, and the later ones, each
with the connective in front of it. -/
inductive Expression where
  | chain (first : Operand) (rest : List (Connective × Operand))

end

mutual

/-- The tokens of an operand. -/
def Operand.tokens : Operand → List Token
  | .condition c => [.condition c]
  | .group inner => .opening :: (inner.tokens ++ [.closing])

/-- The tokens of an expression. -/
def Expression.tokens : Expression → List Token
  | .chain first rest => first.tokens ++ tokensOfRest rest

/-- The tokens of the operands after the first one. -/
def tokensOfRest : List (Connective × Operand) → List Token
  | [] => []
  | (op, operand) :: rest => .connective op :: (operand.tokens ++ tokensOfRest rest)

end

mutual

/-- The rule that an operand stands for. -/
def Operand.rule : Operand → Rule
  | .condition c => .condition c
  | .group inner => inner.rule

/-- The rule that an expression stands for. -/
def Expression.rule : Expression → Rule
  | .chain first rest => joinRest first.rule rest

/-- Joins operands one after the other to the rule `done` before them. -/
def joinRest (done : Rule) : List (Connective × Operand) → Rule
  | [] => done
  | (op, operand) :: rest => joinRest (.join op done operand.rule) rest

end

mutual

/-- How deep the parentheses of an operand nest. -/
def Operand.nesting : Operand → Nat
  | .condition _ => 0
  | .group inner => inner.nesting + 1

/-- How deep the parentheses of an expression nest. -/
def Expression.nesting : Expression → Nat
  | .chain first rest => max first.nesting (nestingOfRest rest)

def nestingOfRest : List (Connective × Operand) → Nat
  | [] => 0
  | (_, operand) :: rest => max operand.nesting (nestingOfRest rest)

end

/-- The rule of an expression is the left fold of its operands. -/
theorem Expression.rule_chain (first : Operand) (rest : List (Connective × Operand)) :
    (Expression.chain first rest).rule =
      rest.foldl (fun done next => .join next.1 done next.2.rule) first.rule := by
  have fold : ∀ done, joinRest done rest =
      rest.foldl (fun done next => .join next.1 done next.2.rule) done := by
    induction rest with
    | nil =>
        intro done
        rfl
    | cons next rest ih =>
        intro done
        rw [joinRest, ih, List.foldl_cons]
  rw [Expression.rule, fold]

theorem tokensOfRest_append (rest later : List (Connective × Operand)) :
    tokensOfRest (rest ++ later) = tokensOfRest rest ++ tokensOfRest later := by
  induction rest with
  | nil => rfl
  | cons next rest ih =>
      obtain ⟨op, operand⟩ := next
      simp only [List.cons_append, tokensOfRest, ih, List.append_assoc]

theorem joinRest_append (done : Rule) (rest later : List (Connective × Operand)) :
    joinRest done (rest ++ later) = joinRest (joinRest done rest) later := by
  induction rest generalizing done with
  | nil => rfl
  | cons next rest ih =>
      obtain ⟨op, operand⟩ := next
      rw [List.cons_append, joinRest, ih, joinRest]

theorem nestingOfRest_append (rest later : List (Connective × Operand)) :
    nestingOfRest (rest ++ later) = max (nestingOfRest rest) (nestingOfRest later) := by
  induction rest with
  | nil => simp [nestingOfRest]
  | cons next rest ih =>
      obtain ⟨op, operand⟩ := next
      rw [List.cons_append, nestingOfRest, ih, nestingOfRest, Nat.max_assoc]

namespace Expression

/-- The expression of one operand. -/
def ofOperand (operand : Operand) : Expression :=
  .chain operand []

/-- The expression with one more operand. -/
def snoc : Expression → Connective → Operand → Expression
  | .chain first rest, op, operand => .chain first (rest ++ [(op, operand)])

@[simp] theorem tokens_ofOperand (operand : Operand) :
    (ofOperand operand).tokens = operand.tokens := by
  simp [ofOperand, tokens, tokensOfRest]

@[simp] theorem nesting_ofOperand (operand : Operand) :
    (ofOperand operand).nesting = operand.nesting := by
  simp [ofOperand, nesting, nestingOfRest]

@[simp] theorem tokens_snoc (e : Expression) (op : Connective) (operand : Operand) :
    (e.snoc op operand).tokens = e.tokens ++ .connective op :: operand.tokens := by
  obtain ⟨first, rest⟩ := e
  simp [snoc, tokens, tokensOfRest_append, tokensOfRest]

@[simp] theorem rule_snoc (e : Expression) (op : Connective) (operand : Operand) :
    (e.snoc op operand).rule = .join op e.rule operand.rule := by
  obtain ⟨first, rest⟩ := e
  simp [snoc, rule, joinRest_append, joinRest]

@[simp] theorem nesting_snoc (e : Expression) (op : Connective) (operand : Operand) :
    (e.snoc op operand).nesting = max e.nesting operand.nesting := by
  obtain ⟨first, rest⟩ := e
  simp [snoc, nesting, nestingOfRest_append, nestingOfRest, Nat.max_assoc]

end Expression

/-! ## Conditions of a derivation -/

/-- The condition that a token is. -/
def Token.condition? : Token → Option Condition
  | condition c => some c
  | _ => none

@[simp] theorem Rule.leaves_condition (c : Condition) : (Rule.condition c).leaves = [c] := by
  simp [Rule.leaves, Rule.leavesOf]

@[simp] theorem Rule.leaves_join (op : Connective) (left right : Rule) :
    (Rule.join op left right).leaves = left.leaves ++ right.leaves := by
  rw [Rule.leaves, Rule.leavesOf, Rule.leavesOf_cons, Rule.leaves, Rule.leaves]

mutual

theorem Operand.leaves_rule :
    ∀ operand : Operand, operand.rule.leaves = operand.tokens.filterMap Token.condition?
  | .condition c => by
      rw [Operand.rule, Rule.leaves_condition]
      rfl
  | .group inner => by
      rw [Operand.rule, inner.leaves_rule, Operand.tokens, List.filterMap_cons_none rfl,
        List.filterMap_append, List.filterMap_cons_none rfl, List.filterMap_nil,
        List.append_nil]

/-- The conditions of a rule are those among the tokens, in order. -/
theorem Expression.leaves_rule :
    ∀ e : Expression, e.rule.leaves = e.tokens.filterMap Token.condition?
  | .chain first rest => by
      rw [Expression.rule, leaves_joinRest, first.leaves_rule, Expression.tokens,
        List.filterMap_append]

theorem leaves_joinRest :
    ∀ (done : Rule) (rest : List (Connective × Operand)),
      (joinRest done rest).leaves =
        done.leaves ++ (tokensOfRest rest).filterMap Token.condition?
  | done, [] => by
      simp [joinRest, tokensOfRest]
  | done, (op, operand) :: rest => by
      rw [joinRest, leaves_joinRest, Rule.leaves_join, operand.leaves_rule, tokensOfRest,
        List.filterMap_cons_none rfl, List.filterMap_append, List.append_assoc]

end

mutual

/-- Every right operand that is a join stands in parentheses of its own. -/
theorem Operand.rightNesting_rule_le :
    ∀ operand : Operand,
      (operand.rule.rightNesting + if operand.rule.isJoin then 1 else 0) ≤ operand.nesting
  | .condition c => Nat.le_refl 0
  | .group inner => by
      have bound := inner.rightNesting_rule_le
      rw [Operand.rule, Operand.nesting]
      split <;> omega

/-- A rule has no derivation with parentheses nested less deep than its joins. -/
theorem Expression.rightNesting_rule_le :
    ∀ e : Expression, e.rule.rightNesting ≤ e.nesting
  | .chain first rest => by
      have bound := first.rightNesting_rule_le
      rw [Expression.rule, Expression.nesting]
      exact rightNesting_joinRest_le first.rule rest (by omega)

theorem rightNesting_joinRest_le {limit : Nat} :
    ∀ (done : Rule) (rest : List (Connective × Operand)), done.rightNesting ≤ limit →
      (joinRest done rest).rightNesting ≤ max limit (nestingOfRest rest)
  | done, [], within => by
      rw [joinRest]
      omega
  | done, (op, operand) :: rest, within => by
      have bound := operand.rightNesting_rule_le
      have joined : (Rule.join op done operand.rule).rightNesting ≤
          max limit operand.nesting := by
        rw [Rule.rightNesting]
        omega
      have whole := rightNesting_joinRest_le _ rest joined
      rw [joinRest, nestingOfRest]
      omega

end

/-! ## Tokens have at most one derivation -/

/-- No operand begins with a connective, so none can be read on past its end. -/
def EndsOperands (later : List Token) : Prop :=
  ∀ op rest, later ≠ .connective op :: rest

theorem endsOperands_nil : EndsOperands [] := by
  intro op rest h
  cases h

theorem endsOperands_closing (later : List Token) : EndsOperands (.closing :: later) := by
  intro op rest h
  cases h

mutual

/-- An operand is told from what follows it. -/
theorem Operand.tokens_append_inj :
    ∀ (a b : Operand) {later later' : List Token},
      a.tokens ++ later = b.tokens ++ later' → a = b ∧ later = later'
  | .condition c, .condition c', later, later', h => by
      simp only [Operand.tokens, List.cons_append, List.nil_append, List.cons.injEq,
        Token.condition.injEq] at h
      obtain ⟨rfl, rfl⟩ := h
      exact ⟨rfl, rfl⟩
  | .condition c, .group inner, later, later', h => by
      simp [Operand.tokens] at h
  | .group inner, .condition c, later, later', h => by
      simp [Operand.tokens] at h
  | .group inner, .group inner', later, later', h => by
      simp only [Operand.tokens, List.cons_append, List.append_assoc, List.cons.injEq,
        true_and] at h
      obtain ⟨rfl, rest⟩ := Expression.tokens_append_inj inner inner'
        (endsOperands_closing later) (endsOperands_closing later') h
      exact ⟨rfl, (List.cons.inj rest).2⟩

/-- An expression is told from what follows it, unless that is one more operand. -/
theorem Expression.tokens_append_inj :
    ∀ (a b : Expression) {later later' : List Token}, EndsOperands later →
      EndsOperands later' → a.tokens ++ later = b.tokens ++ later' → a = b ∧ later = later'
  | .chain first rest, .chain first' rest', later, later', ends, ends', h => by
      simp only [Expression.tokens, List.append_assoc] at h
      obtain ⟨rfl, hrest⟩ := Operand.tokens_append_inj first first' h
      obtain ⟨rfl, hlater⟩ := tokensOfRest_append_inj rest rest' ends ends' hrest
      exact ⟨rfl, hlater⟩

theorem tokensOfRest_append_inj :
    ∀ (a b : List (Connective × Operand)) {later later' : List Token}, EndsOperands later →
      EndsOperands later' → tokensOfRest a ++ later = tokensOfRest b ++ later' →
      a = b ∧ later = later'
  | [], [], later, later', _, _, h => ⟨rfl, h⟩
  | [], (op, operand) :: rest, later, later', ends, _, h => by
      exact absurd h (ends _ _)
  | (op, operand) :: rest, [], later, later', _, ends', h => by
      exact absurd h.symm (ends' _ _)
  | (op, operand) :: rest, (op', operand') :: rest', later, later', ends, ends', h => by
      simp only [tokensOfRest, List.cons_append, List.append_assoc, List.cons.injEq,
        Token.connective.injEq] at h
      obtain ⟨rfl, hoperand⟩ := h
      obtain ⟨rfl, hrest⟩ := Operand.tokens_append_inj operand operand' hoperand
      obtain ⟨rfl, hlater⟩ := tokensOfRest_append_inj rest rest' ends ends' hrest
      exact ⟨rfl, hlater⟩

end

/-- No two derivations have the same tokens. -/
theorem Expression.tokens_injective {a b : Expression} (h : a.tokens = b.tokens) : a = b := by
  have h : a.tokens ++ [] = b.tokens ++ [] := by rw [h]
  exact (Expression.tokens_append_inj a b endsOperands_nil endsOperands_nil h).1

end Eligibility
