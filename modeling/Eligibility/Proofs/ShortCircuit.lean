import Eligibility.Proofs.Verdicts

/-!
# What an evaluation does not look at

A condition that stands in the right operand of a join is not looked at if the left operand
decides the join. So an evaluation does not see all errors of a rule, and it may have a
verdict although some conditions have none.

The conditions of a rule are told apart by their places (`Rule.Leaf`): one condition may stand
at several of them, and not all of these need be looked at. A place is skipped if one of the
joins that have it on the right is decided by its left operand (`Rule.Leaf.Skipped`). The main
statement says that an evaluation is the truth value of the rule (`Rule.value`), whatever is
taken for the conditions without a verdict, unless a place that is not skipped has an error;
then it is the leftmost such error.
-/

namespace Eligibility

/-- The truth value of a join. -/
def Connective.holds : Connective → Bool → Bool → Bool
  | and, left, right => left && right
  | or, left, right => left || right

@[simp] theorem Connective.holds_decisive (op : Connective) (right : Bool) :
    op.holds op.decisive right = op.decisive := by
  cases op <;> rfl

@[simp] theorem Connective.holds_not_decisive (op : Connective) (right : Bool) :
    op.holds (!op.decisive) right = right := by
  cases op <;> rfl

namespace Rule

/-- The places at which a rule has its conditions. -/
inductive Leaf : Rule → Type where
  | here {c : Condition} : Leaf (condition c)
  | left {op : Connective} {left right : Rule} (leaf : Leaf left) : Leaf (join op left right)
  | right {op : Connective} {left right : Rule} (leaf : Leaf right) : Leaf (join op left right)

/-- The truth value of a rule whose conditions have these truth values. -/
def value : (r : Rule) → (r.Leaf → Bool) → Bool
  | condition _, truth => truth .here
  | join op left right, truth =>
    op.holds (left.value fun leaf => truth leaf.left) (right.value fun leaf => truth leaf.right)

namespace Leaf

/-- The condition at a place. -/
def condition : {r : Rule} → r.Leaf → Condition
  | .condition c, here => c
  | .join _ _ _, left leaf => leaf.condition
  | .join _ _ _, right leaf => leaf.condition

/-- The joins that have the place in their right operand, each with its connective and its
left operand. -/
def guards : {r : Rule} → r.Leaf → List (Connective × Rule)
  | .condition _, here => []
  | .join _ _ _, left leaf => leaf.guards
  | .join op before _, right leaf => (op, before) :: leaf.guards

/-- The first place is to the left of the second one. -/
def Before : {r : Rule} → r.Leaf → r.Leaf → Prop
  | .condition _, here, here => False
  | .join _ _ _, left leaf, left leaf' => leaf.Before leaf'
  | .join _ _ _, left _, right _ => True
  | .join _ _ _, right _, left _ => False
  | .join _ _ _, right leaf, right leaf' => leaf.Before leaf'

/-- Of two places one is to the left of the other. -/
theorem before_or_eq_or_before {r : Rule} (leaf leaf' : r.Leaf) :
    leaf.Before leaf' ∨ leaf = leaf' ∨ leaf'.Before leaf := by
  induction leaf with
  | here =>
      cases leaf'
      exact .inr (.inl rfl)
  | left leaf ih =>
      cases leaf' with
      | left leaf' => simpa [Before] using ih leaf'
      | right leaf' => exact .inl trivial
  | right leaf ih =>
      cases leaf' with
      | left leaf' => exact .inr (.inr trivial)
      | right leaf' => simpa [Before] using ih leaf'

section Skipped

variable (record : Record)

/-- The condition at the place has no verdict. -/
def Fails {r : Rule} (leaf : r.Leaf) : Prop :=
  ∃ e, leaf.condition.evaluate record = .error e

/-- A left operand decides a join that has the place on the right. -/
def Skipped {r : Rule} (leaf : r.Leaf) : Prop :=
  ∃ guard ∈ leaf.guards, guard.2.evaluate record = .ok guard.1.decisive

theorem not_skipped_here {c : Condition} : ¬ (here : Leaf (.condition c)).Skipped record := by
  simp [Skipped, guards]

theorem skipped_left_iff {op : Connective} {before after : Rule} {leaf : before.Leaf} :
    (left leaf : Leaf (.join op before after)).Skipped record ↔ leaf.Skipped record :=
  Iff.rfl

theorem skipped_right_iff {op : Connective} {before after : Rule} {leaf : after.Leaf} :
    (right leaf : Leaf (.join op before after)).Skipped record ↔
      before.evaluate record = .ok op.decisive ∨ leaf.Skipped record := by
  simp [Skipped, guards]

end Skipped

end Leaf

section Evaluation

variable {record : Record}

/-- Conditions without a verdict have no influence on a verdict. -/
theorem value_eq_of_evaluate_eq_ok {r : Rule} {b : Bool} (h : r.evaluate record = .ok b)
    {truth : r.Leaf → Bool}
    (agrees : ∀ leaf b', leaf.condition.evaluate record = .ok b' → truth leaf = b') :
    r.value truth = b := by
  induction r generalizing b with
  | condition c => exact agrees .here b h
  | join op left right ihLeft ihRight =>
      have agreesLeft := fun leaf => agrees (.left leaf)
      rw [evaluate_join, op.verdict_eq_ok_iff] at h
      rcases h with ⟨hleft, rfl⟩ | ⟨hleft, hright⟩
      · rw [value, ihLeft hleft agreesLeft, op.holds_decisive]
      · rw [value, ihLeft hleft agreesLeft, op.holds_not_decisive,
          ihRight hright fun leaf => agrees (.right leaf)]

/-- A rule with a verdict looks at no condition without one. -/
theorem skipped_of_evaluate_eq_ok {r : Rule} {b : Bool} (h : r.evaluate record = .ok b)
    {leaf : r.Leaf} (fails : leaf.Fails record) : leaf.Skipped record := by
  induction leaf generalizing b with
  | here =>
      obtain ⟨e, he⟩ := fails
      cases h.symm.trans he
  | @left op before after leaf ih =>
      rw [evaluate_join, op.verdict_eq_ok_iff] at h
      rw [Leaf.skipped_left_iff]
      rcases h with ⟨hleft, -⟩ | ⟨hleft, -⟩
      · exact ih hleft fails
      · exact ih hleft fails
  | @right op before after leaf ih =>
      rw [evaluate_join, op.verdict_eq_ok_iff] at h
      rw [Leaf.skipped_right_iff]
      rcases h with ⟨hleft, -⟩ | ⟨-, hright⟩
      · exact .inl hleft
      · exact .inr (ih hright fails)

/-- The place that an error comes from: all errors to the left of it are skipped. -/
structure Leaf.IsBlamed (record : Record) {r : Rule} (leaf : r.Leaf) (e : EvaluationError) :
    Prop where
  fails : leaf.condition.evaluate record = .error e
  seen : ¬ leaf.Skipped record
  leftmost : ∀ earlier : r.Leaf, earlier.Before leaf → earlier.Fails record →
    earlier.Skipped record

theorem exists_isBlamed_of_evaluate_eq_error {r : Rule} {e : EvaluationError}
    (h : r.evaluate record = .error e) : ∃ leaf : r.Leaf, leaf.IsBlamed record e := by
  induction r with
  | condition c =>
      refine ⟨.here, h, Leaf.not_skipped_here record, ?_⟩
      rintro ⟨⟩ before
      cases before
  | join op left right ihLeft ihRight =>
      rw [evaluate_join, op.verdict_eq_error_iff] at h
      rcases h with hleft | ⟨hleft, hright⟩
      · obtain ⟨leaf, fails, seen, leftmost⟩ := ihLeft hleft
        refine ⟨.left leaf, fails, seen, ?_⟩
        intro earlier before
        cases earlier with
        | left earlier => exact leftmost earlier before
        | right earlier => cases before
      · obtain ⟨leaf, fails, seen, leftmost⟩ := ihRight hright
        have undecided : left.evaluate record ≠ .ok op.decisive := by
          rw [hleft]
          simp [Connective.undecided]
        refine ⟨.right leaf, fails, ?_, ?_⟩
        · rw [Leaf.skipped_right_iff]
          exact not_or.2 ⟨undecided, seen⟩
        · intro earlier before
          cases earlier with
          | left earlier => exact skipped_of_evaluate_eq_ok hleft
          | right earlier =>
              intro hfails
              exact (Leaf.skipped_right_iff record).2 (.inr (leftmost earlier before hfails))

/-- Some error is not skipped exactly if the evaluation has one. -/
theorem exists_evaluate_eq_error_iff {r : Rule} :
    (∃ e, r.evaluate record = .error e) ↔
      ∃ leaf : r.Leaf, leaf.Fails record ∧ ¬ leaf.Skipped record := by
  constructor
  · rintro ⟨e, h⟩
    obtain ⟨leaf, fails, seen, -⟩ := exists_isBlamed_of_evaluate_eq_error h
    exact ⟨leaf, ⟨e, fails⟩, seen⟩
  · rintro ⟨leaf, fails, seen⟩
    cases h : r.evaluate record with
    | error e => exact ⟨e, rfl⟩
    | ok b => exact absurd (skipped_of_evaluate_eq_ok h fails) seen

/-- No two places are blamed, so there is only one error. -/
theorem Leaf.IsBlamed.error_eq {r : Rule} {leaf leaf' : r.Leaf} {e e' : EvaluationError}
    (h : leaf.IsBlamed record e) (h' : leaf'.IsBlamed record e') : e = e' := by
  rcases leaf.before_or_eq_or_before leaf' with before | rfl | before
  · exact absurd (h'.leftmost leaf before ⟨e, h.fails⟩) h.seen
  · exact Except.error.inj (h.fails.symm.trans h'.fails)
  · exact absurd (h.leftmost leaf' before ⟨e', h'.fails⟩) h'.seen

theorem evaluate_eq_error_iff {r : Rule} {e : EvaluationError} :
    r.evaluate record = .error e ↔ ∃ leaf : r.Leaf, leaf.IsBlamed record e := by
  constructor
  · exact exists_isBlamed_of_evaluate_eq_error
  · rintro ⟨leaf, blamed⟩
    obtain ⟨e', h⟩ := exists_evaluate_eq_error_iff.2 ⟨leaf, ⟨e, blamed.fails⟩, blamed.seen⟩
    obtain ⟨leaf', blamed'⟩ := exists_isBlamed_of_evaluate_eq_error h
    rw [h, blamed.error_eq blamed']

/-- A rule whose conditions all have a verdict has its truth value. -/
theorem evaluate_eq_value {r : Rule} {truth : r.Leaf → Bool}
    (h : ∀ leaf : r.Leaf, leaf.condition.evaluate record = .ok (truth leaf)) :
    r.evaluate record = .ok (r.value truth) := by
  cases hr : r.evaluate record with
  | error e =>
      obtain ⟨leaf, blamed⟩ := exists_isBlamed_of_evaluate_eq_error hr
      cases (h leaf).symm.trans blamed.fails
  | ok b =>
      rw [value_eq_of_evaluate_eq_ok hr]
      intro leaf b' hb'
      exact Except.ok.inj ((h leaf).symm.trans hb')

end Evaluation

/-- A verdict is the truth value of the rule, whatever is taken for the conditions without a
verdict. There is none exactly if a condition without a verdict is not skipped, and then the
error is the leftmost one of these. -/
theorem evaluate_eq_value_or_leftmost_error (record : Record) (r : Rule) :
    (∀ b, r.evaluate record = .ok b → ∀ truth : r.Leaf → Bool,
        (∀ (leaf : r.Leaf) b', leaf.condition.evaluate record = .ok b' → truth leaf = b') →
        r.value truth = b) ∧
      ((∃ e, r.evaluate record = .error e) ↔
        ∃ leaf : r.Leaf, leaf.Fails record ∧ ¬ leaf.Skipped record) ∧
      (∀ e, r.evaluate record = .error e ↔ ∃ leaf : r.Leaf, leaf.IsBlamed record e) ∧
      ∀ truth : r.Leaf → Bool,
        (∀ leaf : r.Leaf, leaf.condition.evaluate record = .ok (truth leaf)) →
        r.evaluate record = .ok (r.value truth) :=
  ⟨fun _ h _ agrees => value_eq_of_evaluate_eq_ok h agrees, exists_evaluate_eq_error_iff,
    fun _ => evaluate_eq_error_iff, fun _ h => evaluate_eq_value h⟩

/-- The second condition is skipped where the first one does not hold. -/
def sheltering : Rule :=
  join .or (join .and (condition ⟨"a", .gt, .integer 1⟩) (condition ⟨"b", .gt, .integer 2⟩))
    (condition ⟨"c", .gt, .integer 3⟩)

/-- The attributes that `sheltering` looks at where its first condition does not hold. -/
def shelteredAttributes : Record :=
  .ofList [("a", some (.integer 1)), ("c", some (.integer 4))]

/-- The third condition holds, and it alone. -/
def shelteredTruth (leaf : sheltering.Leaf) : Bool :=
  leaf.condition.field = "c"

theorem evaluate_eq_value_or_leftmost_error_sheltering :
    (sheltering.evaluate shelteredAttributes = .ok true ∧
      (∃ leaf : sheltering.Leaf, leaf.Fails shelteredAttributes) ∧
      (∀ (leaf : sheltering.Leaf) b', leaf.condition.evaluate shelteredAttributes = .ok b' →
        shelteredTruth leaf = b') ∧
      sheltering.value shelteredTruth = true) ∧
    ((∀ leaf : sheltering.Leaf,
        leaf.condition.evaluate (spacedAttributes 1 2 4) = .ok (shelteredTruth leaf)) ∧
      sheltering.evaluate (spacedAttributes 1 2 4) = .ok (sheltering.value shelteredTruth)) := by
  have places : ∀ leaf : sheltering.Leaf,
      leaf = .left (.left .here) ∨ leaf = .left (.right .here) ∨ leaf = .right .here := by
    intro leaf
    cases leaf with
    | left leaf =>
        cases leaf with
        | left leaf =>
            cases leaf
            exact .inl rfl
        | right leaf =>
            cases leaf
            exact .inr (.inl rfl)
    | right leaf =>
        cases leaf
        exact .inr (.inr rfl)
  have verdict : sheltering.evaluate shelteredAttributes = .ok true := by decide +kernel
  have fails : (Leaf.left (Leaf.right Leaf.here) : sheltering.Leaf).Fails shelteredAttributes :=
    ⟨.missingField "b", by decide +kernel⟩
  have agrees : ∀ (leaf : sheltering.Leaf) b',
      leaf.condition.evaluate shelteredAttributes = .ok b' → shelteredTruth leaf = b' := by
    intro leaf
    rcases places leaf with rfl | rfl | rfl <;> decide +kernel
  have all : ∀ leaf : sheltering.Leaf,
      leaf.condition.evaluate (spacedAttributes 1 2 4) = .ok (shelteredTruth leaf) := by
    intro leaf
    rcases places leaf with rfl | rfl | rfl <;> decide +kernel
  exact ⟨⟨verdict, ⟨_, fails⟩, agrees,
      (evaluate_eq_value_or_leftmost_error _ sheltering).1 _ verdict _ agrees⟩,
    ⟨all, (evaluate_eq_value_or_leftmost_error _ sheltering).2.2.2 _ all⟩⟩

end Rule

end Eligibility
