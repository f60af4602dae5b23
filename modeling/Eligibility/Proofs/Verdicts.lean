import Eligibility.Proofs.Rendering
import Eligibility.Rule.Evaluation

/-!
# Verdicts of combinations

A combination keeps of its rules only their different conditions and joins them with one
connective. What that does to verdicts is seen on the list of conditions: they are looked
at in turn until one of them decides or has no verdict (`Connective.evaluateAll`), and a
condition that has been passed over decides nothing when it comes again, so repeats can go
(`Connective.evaluateAll_eraseDups`).

Rules that join with the connective of the combination only lose nothing by it. Of all
other rules a combination still tells something: what none of its conditions decides is
decided alike by every rule.
-/

namespace Eligibility

/-! ## The verdict of a join -/

namespace Connective

/-- The verdict of a join, from the verdicts of its operands: the right one counts only
if the left one leaves the join undecided. -/
def verdict (op : Connective) (left right : Except EvaluationError Bool) :
    Except EvaluationError Bool :=
  match left with
  | .error e => .error e
  | .ok b => if b = op.decisive then .ok b else right

/-- The verdict of an operand that leaves a join undecided. -/
def undecided (op : Connective) : Except EvaluationError Bool :=
  .ok (!op.decisive)

section Verdict

variable (op : Connective)

@[simp] theorem verdict_undecided_left (right : Except EvaluationError Bool) :
    op.verdict op.undecided right = right := by
  simp [verdict, undecided]

/-- The left operand decides the join, or its verdict leaves that to the right one. -/
theorem verdict_eq_or_eq_undecided (left : Except EvaluationError Bool) :
    (∀ right, op.verdict left right = left) ∨ left = op.undecided := by
  cases left with
  | error e => exact .inl fun right => rfl
  | ok b =>
      by_cases decides : b = op.decisive
      · exact .inl fun right => if_pos decides
      · exact .inr (congrArg Except.ok (Bool.eq_not.2 decides))

@[simp] theorem verdict_undecided_right (left : Except EvaluationError Bool) :
    op.verdict left op.undecided = left := by
  rcases op.verdict_eq_or_eq_undecided left with decided | rfl
  · exact decided _
  · exact op.verdict_undecided_left _

theorem verdict_assoc (first second third : Except EvaluationError Bool) :
    op.verdict (op.verdict first second) third =
      op.verdict first (op.verdict second third) := by
  rcases op.verdict_eq_or_eq_undecided first with decided | rfl
  · rw [decided, decided, decided]
  · rw [verdict_undecided_left, verdict_undecided_left]

/-- The right operand matters only where the left one leaves the join undecided. -/
theorem verdict_congr_right {left right right' : Except EvaluationError Bool}
    (h : left = op.undecided → right = right') :
    op.verdict left right = op.verdict left right' := by
  rcases op.verdict_eq_or_eq_undecided left with decided | undecided
  · rw [decided, decided]
  · rw [h undecided]

theorem verdict_eq_undecided_iff {left right : Except EvaluationError Bool} :
    op.verdict left right = op.undecided ↔ left = op.undecided ∧ right = op.undecided := by
  rcases op.verdict_eq_or_eq_undecided left with decided | rfl
  · constructor
    · intro h
      have hleft : left = op.undecided := (decided right).symm.trans h
      rw [hleft, verdict_undecided_left] at h
      exact ⟨hleft, h⟩
    · rintro ⟨hleft, -⟩
      rw [decided, hleft]
  · simp

/-- A verdict of a join is that of a left operand which decides it, or that of the right one. -/
theorem verdict_eq_ok_iff {left right : Except EvaluationError Bool} {b : Bool} :
    op.verdict left right = .ok b ↔
      (left = .ok op.decisive ∧ b = op.decisive) ∨ (left = op.undecided ∧ right = .ok b) := by
  cases left with
  | error e => simp [verdict, undecided]
  | ok b' =>
      by_cases decides : b' = op.decisive
      · simp [verdict, undecided, decides, eq_comm]
      · simp [verdict, undecided, Bool.eq_not.2 decides]

/-- An error of a join is that of the left operand, or that of a right one which is looked at. -/
theorem verdict_eq_error_iff {left right : Except EvaluationError Bool} {e : EvaluationError} :
    op.verdict left right = .error e ↔
      left = .error e ∨ (left = op.undecided ∧ right = .error e) := by
  cases left with
  | error e' => simp [verdict, undecided]
  | ok b' =>
      by_cases decides : b' = op.decisive
      · simp [verdict, undecided, decides]
      · simp [verdict, undecided, Bool.eq_not.2 decides]

theorem verdict_self (left : Except EvaluationError Bool) : op.verdict left left = left := by
  rcases op.verdict_eq_or_eq_undecided left with decided | rfl
  · exact decided left
  · exact op.verdict_undecided_left _

end Verdict

/-! ## Conditions in turn -/

/-- The verdict of conditions that are looked at one after the other, until one of them
decides a join with the connective or has no verdict. -/
def evaluateAll (op : Connective) (record : Record) :
    List Condition → Except EvaluationError Bool
  | [] => op.undecided
  | c :: later => op.verdict (c.evaluate record) (op.evaluateAll record later)

section Conditions

variable {op : Connective} {record : Record}

theorem evaluateAll_append (first second : List Condition) :
    op.evaluateAll record (first ++ second) =
      op.verdict (op.evaluateAll record first) (op.evaluateAll record second) := by
  induction first with
  | nil => exact (op.verdict_undecided_left _).symm
  | cons c later ih =>
      rw [List.cons_append, evaluateAll, evaluateAll, ih, op.verdict_assoc]

/-- A condition that decides nothing may be left out wherever it occurs. -/
theorem evaluateAll_filter {c : Condition} (h : c.evaluate record = op.undecided)
    (conditions : List Condition) :
    op.evaluateAll record (conditions.filter (! · == c)) = op.evaluateAll record conditions := by
  induction conditions with
  | nil => rfl
  | cons c' later ih =>
      by_cases same : c' = c
      · subst same
        rw [List.filter_cons_of_neg (by simp), ih, evaluateAll, h, op.verdict_undecided_left]
      · rw [List.filter_cons_of_pos (by simp [same]), evaluateAll, evaluateAll, ih]

/-- Repeated conditions play no part: when one comes again, it has been passed over. -/
theorem evaluateAll_eraseDups :
    ∀ conditions : List Condition,
      op.evaluateAll record conditions.eraseDups = op.evaluateAll record conditions
  | [] => rfl
  | c :: later => by
      have shorter : (later.filter (! · == c)).length < later.length + 1 :=
        Nat.lt_succ_of_le (List.length_filter_le _ _)
      have ih := evaluateAll_eraseDups (later.filter (! · == c))
      rw [List.eraseDups_cons, evaluateAll, evaluateAll, ih]
      -- the rest is looked at only after `c` has been passed over
      exact op.verdict_congr_right fun passed => evaluateAll_filter passed later
termination_by conditions => conditions.length

/-- Nothing is decided exactly when no condition decides anything. -/
theorem evaluateAll_eq_undecided_iff {conditions : List Condition} :
    op.evaluateAll record conditions = op.undecided ↔
      ∀ c ∈ conditions, c.evaluate record = op.undecided := by
  induction conditions with
  | nil => simp [evaluateAll]
  | cons c later ih =>
      rw [evaluateAll, op.verdict_eq_undecided_iff, ih, List.forall_mem_cons]

end Conditions

end Connective

/-! ## Rules with one connective -/

namespace Rule

theorem evaluate_join (record : Record) (op : Connective) (left right : Rule) :
    (join op left right).evaluate record =
      op.verdict (left.evaluate record) (right.evaluate record) := by
  rw [evaluate]
  cases left.evaluate record <;> rfl

/-- Every join in the rule is one with this connective. -/
def JoinsWith (op : Connective) : Rule → Prop
  | condition _ => True
  | join op' left right => op' = op ∧ left.JoinsWith op ∧ right.JoinsWith op

section Uniform

variable {op : Connective}

/-- A rule with one connective looks at its conditions in turn, whatever its shape. -/
theorem JoinsWith.evaluate_eq {r : Rule} (h : r.JoinsWith op) (record : Record) :
    r.evaluate record = op.evaluateAll record r.leaves := by
  induction r with
  | condition c => simp [Connective.evaluateAll, evaluate]
  | join op' left right ihLeft ihRight =>
      obtain ⟨rfl, hleft, hright⟩ := h
      rw [evaluate_join, ihLeft hleft, ihRight hright, leaves_join, Connective.evaluateAll_append]

theorem joinsWith_foldl {rules : List Rule} {done : Rule} (hdone : done.JoinsWith op)
    (h : ∀ r ∈ rules, r.JoinsWith op) : (rules.foldl (join op) done).JoinsWith op := by
  induction rules generalizing done with
  | nil => exact hdone
  | cons r rules ih =>
      obtain ⟨hr, hrules⟩ := List.forall_mem_cons.1 h
      exact ih ⟨rfl, hdone, hr⟩ hrules

theorem joinsWith_chain? {conditions : List Condition} {r : Rule}
    (h : chain? op conditions = some r) : r.JoinsWith op := by
  cases conditions with
  | nil => cases h
  | cons first rest =>
      rw [chain?_cons] at h
      cases h
      refine joinsWith_foldl trivial ?_
      rintro r hr
      obtain ⟨c, -, rfl⟩ := List.mem_map.1 hr
      trivial

end Uniform

/-! ## Combinations -/

/-- A combination looks at the conditions of all rules in turn. -/
theorem evaluate_combine {config : Config} {op : Connective} {rules : List Rule}
    {combined : Rule} (h : combine config op rules = .ok combined) (record : Record) :
    combined.evaluate record = op.evaluateAll record (rules.flatMap leaves) := by
  obtain ⟨-, hchain⟩ := combine_eq_ok h
  rw [(joinsWith_chain? hchain).evaluate_eq, leaves_chain? hchain, distinctLeaves,
    Connective.evaluateAll_eraseDups]

/-- Rules that join with one connective are combined by it without a change of meaning:
on every record the combination has the verdict, or the error, of the rules joined from
the left. -/
theorem evaluate_combine_eq_evaluate_foldl (config : Config) (op : Connective)
    (first : Rule) (rest : List Rule) (combined : Rule) (record : Record)
    (uniform : ∀ r ∈ first :: rest, r.JoinsWith op)
    (h : combine config op (first :: rest) = .ok combined) :
    combined.evaluate record = (rest.foldl (join op) first).evaluate record := by
  obtain ⟨hfirst, hrest⟩ := List.forall_mem_cons.1 uniform
  rw [evaluate_combine h, (joinsWith_foldl hfirst hrest).evaluate_eq, leaves_foldl,
    List.flatMap_cons]

/-- The rule `paired` in another shape, with its first condition repeated. -/
def repeating : Rule :=
  join .and (condition ⟨"a", .gt, .integer 1⟩)
    (join .and (condition ⟨"b", .gt, .integer 2⟩) (condition ⟨"a", .gt, .integer 1⟩))

theorem evaluate_combine_eq_evaluate_foldl_repeating :
    combine {} .and [repeating, paired] = .ok paired ∧
      paired.evaluate (Record.empty.insert "a" (.integer 2)) =
        ([paired].foldl (join .and) repeating).evaluate
          (Record.empty.insert "a" (.integer 2)) ∧
      paired.evaluate (Record.empty.insert "a" (.integer 2)) = .error (.missingField "b") := by
  have uniform : ∀ r ∈ [repeating, paired], r.JoinsWith .and := by
    simp [repeating, paired, JoinsWith]
  have combined : combine {} .and [repeating, paired] = .ok paired := by decide +kernel
  exact ⟨combined, evaluate_combine_eq_evaluate_foldl {} .and repeating [paired] paired _
    uniform combined, by decide +kernel⟩

/-- A rule whose conditions all have one verdict has this verdict, whatever connectives
join them. -/
theorem evaluate_of_leaves {r : Rule} {record : Record}
    {verdict : Except EvaluationError Bool}
    (h : ∀ c ∈ r.leaves, c.evaluate record = verdict) : r.evaluate record = verdict := by
  induction r with
  | condition c => exact h c (by simp)
  | join op left right ihLeft ihRight =>
      simp only [leaves_join, List.mem_append] at h
      have hleft := ihLeft fun c hc => h c (.inl hc)
      have hright := ihRight fun c hc => h c (.inr hc)
      rw [evaluate_join, hleft, hright, op.verdict_self]

/-- Where a combination is undecided, every rule in it has the same verdict. -/
theorem evaluate_eq_undecided_of_combine {config : Config} {op : Connective}
    {rules : List Rule} {combined : Rule} {record : Record}
    (h : combine config op rules = .ok combined)
    (undecided : combined.evaluate record = op.undecided) :
    ∀ r ∈ rules, r.evaluate record = op.undecided := by
  rw [evaluate_combine h, Connective.evaluateAll_eq_undecided_iff] at undecided
  intro r hr
  exact evaluate_of_leaves fun c hc => undecided c (List.mem_flatMap_of_mem hr hc)

/-- What a combination with `and` grants every rule grants, and what one with `or`
refuses every rule refuses, whatever the connectives inside of the rules. -/
theorem evaluate_of_evaluate_combine (config : Config) (rules : List Rule) (combined : Rule)
    (record : Record) :
    (combine config .and rules = .ok combined → combined.evaluate record = .ok true →
        ∀ r ∈ rules, r.evaluate record = .ok true) ∧
      (combine config .or rules = .ok combined → combined.evaluate record = .ok false →
        ∀ r ∈ rules, r.evaluate record = .ok false) :=
  ⟨fun h granted => evaluate_eq_undecided_of_combine h granted,
    fun h refused => evaluate_eq_undecided_of_combine h refused⟩

/-- The conditions of `spaced`, joined from the left. -/
def spacedChain (op : Connective) : Rule :=
  join op (join op (condition ⟨"a", .gt, .integer 1⟩) (condition ⟨"b", .gt, .integer 2⟩))
    (condition ⟨"c", .gt, .integer 3⟩)

/-- The attributes that `spaced` looks at. -/
def spacedAttributes (a b c : Int64) : Record :=
  .ofList [("a", some (.integer a)), ("b", some (.integer b)), ("c", some (.integer c))]

theorem evaluate_of_evaluate_combine_spaced :
    (combine {} .and [spaced, paired] = .ok (spacedChain .and) ∧
      (spacedChain .and).evaluate (spacedAttributes 2 3 4) = .ok true ∧
      spaced.evaluate (spacedAttributes 2 3 4) = .ok true) ∧
    (combine {} .or [spaced, paired] = .ok (spacedChain .or) ∧
      (spacedChain .or).evaluate (spacedAttributes 1 2 3) = .ok false ∧
      spaced.evaluate (spacedAttributes 1 2 3) = .ok false) := by
  have conjunction : combine {} .and [spaced, paired] = .ok (spacedChain .and) := by
    decide +kernel
  have granted : (spacedChain .and).evaluate (spacedAttributes 2 3 4) = .ok true := by
    decide +kernel
  have disjunction : combine {} .or [spaced, paired] = .ok (spacedChain .or) := by
    decide +kernel
  have refused : (spacedChain .or).evaluate (spacedAttributes 1 2 3) = .ok false := by
    decide +kernel
  exact ⟨⟨conjunction, granted, (evaluate_of_evaluate_combine {} [spaced, paired] _ _).1
      conjunction granted spaced List.mem_cons_self⟩,
    ⟨disjunction, refused, (evaluate_of_evaluate_combine {} [spaced, paired] _ _).2
      disjunction refused spaced List.mem_cons_self⟩⟩

end Rule

end Eligibility
