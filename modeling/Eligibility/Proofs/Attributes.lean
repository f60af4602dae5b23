import Eligibility.Proofs.ShortCircuit

/-!
# Attributes that an evaluation depends on

An evaluation looks up the fields of the rule, and no others, and whether a field without a
value was entered as absent or not entered at all makes no difference to it. So a record may
be replaced by one that has the same values for the fields of the rule, and may have more of
them (`Record.ExtendsOn`): this brings out the same verdict and the same error, unless the
error was that a field is missing which the other record has.
-/

namespace Eligibility

/-- Every value that the record has for a field of the rule, the other one has too. -/
def Record.ExtendsOn (record record' : Record) (r : Rule) : Prop :=
  ∀ c ∈ r.leaves, ∀ v, record.get? c.field = some v → record'.get? c.field = some v

/-- The rule lacks a value for one of its fields, which the other record has. -/
structure Rule.Lacks (r : Rule) (record record' : Record) (field : String) : Prop where
  mentioned : ∃ c ∈ r.leaves, c.field = field
  missing : record.get? field = none
  supplied : ∃ v, record'.get? field = some v
  error : r.evaluate record = .error (.missingField field)

section Records

variable {record record' : Record}

/-- Attributes may be entered that have no value yet, or that the rule does not mention. -/
theorem Record.extendsOn_enter {r : Rule} {field : String}
    (h : record.get? field = none ∨ ∀ c ∈ r.leaves, c.field ≠ field) (value : Option Value) :
    record.ExtendsOn (record.enter field value) r := by
  intro c hc v hv
  have ne : field ≠ c.field := by
    rintro rfl
    rcases h with missing | other
    · cases missing.symm.trans hv
    · exact other c hc rfl
  rw [get?_enter, if_neg ne, hv]

/-- A condition has the outcome that it had, unless its field was missing and no longer is. -/
theorem Condition.evaluate_eq_or_missing {c : Condition}
    (h : ∀ v, record.get? c.field = some v → record'.get? c.field = some v) :
    c.evaluate record' = c.evaluate record ∨
      (record.get? c.field = none ∧ ∃ v, record'.get? c.field = some v) := by
  cases hvalue : record.get? c.field with
  | some v =>
      have hvalue' := h v hvalue
      exact .inl (by rw [evaluate, evaluate, hvalue, hvalue'])
  | none =>
      cases hvalue' : record'.get? c.field with
      | none => exact .inl (by rw [evaluate, evaluate, hvalue, hvalue'])
      | some v => exact .inr ⟨rfl, v, rfl⟩

namespace Rule

theorem Lacks.left {left right : Rule} {field : String} (op : Connective)
    (lacks : left.Lacks record record' field) :
    (join op left right).Lacks record record' field := by
  obtain ⟨⟨c, hc, hfield⟩, missing, supplied, error⟩ := lacks
  refine ⟨⟨c, ?_, hfield⟩, missing, supplied, ?_⟩
  · rw [leaves_join]
    exact List.mem_append_left _ hc
  · rw [evaluate_join, error]
    rfl

/-- The right operand is looked at only where the left one leaves the join undecided. -/
theorem Lacks.right {op : Connective} {left right : Rule} {field : String}
    (undecided : left.evaluate record = op.undecided)
    (lacks : right.Lacks record record' field) :
    (join op left right).Lacks record record' field := by
  obtain ⟨⟨c, hc, hfield⟩, missing, supplied, error⟩ := lacks
  refine ⟨⟨c, ?_, hfield⟩, missing, supplied, ?_⟩
  · rw [leaves_join]
    exact List.mem_append_right _ hc
  · rw [evaluate_join, undecided, Connective.verdict_undecided_left, error]

/-- More attributes change an evaluation only where one of them was missing. -/
theorem evaluate_eq_or_lacks {r : Rule} (h : record.ExtendsOn record' r) :
    r.evaluate record' = r.evaluate record ∨ ∃ field, r.Lacks record record' field := by
  induction r with
  | condition c =>
      have hc : c ∈ (condition c).leaves := by simp
      refine (Condition.evaluate_eq_or_missing (h c hc)).imp id ?_
      rintro ⟨missing, supplied⟩
      refine ⟨c.field, ⟨c, hc, rfl⟩, missing, supplied, ?_⟩
      rw [evaluate, Condition.evaluate, missing]
  | join op left right ihLeft ihRight =>
      simp only [Record.ExtendsOn, leaves_join, List.mem_append] at h
      rcases ihLeft fun c hc => h c (.inl hc) with hleft | ⟨field, lacks⟩
      · rw [evaluate_join, evaluate_join, hleft]
        rcases op.verdict_eq_or_eq_undecided (left.evaluate record) with decided | undecided
        · exact .inl (by rw [decided, decided])
        · rcases ihRight fun c hc => h c (.inr hc) with hright | ⟨field, lacks⟩
          · exact .inl (by rw [hright])
          · exact .inr ⟨field, lacks.right undecided⟩
      · exact .inr ⟨field, lacks.left op⟩

/-- Records with the same values for the fields of a rule are alike to it. -/
theorem evaluate_congr {r : Rule}
    (h : ∀ c ∈ r.leaves, record'.get? c.field = record.get? c.field) :
    r.evaluate record' = r.evaluate record := by
  have extend : record.ExtendsOn record' r := fun c hc v hv => (h c hc).trans hv
  refine (evaluate_eq_or_lacks extend).resolve_right ?_
  rintro ⟨field, ⟨c, hc, rfl⟩, missing, ⟨v, supplied⟩, -⟩
  rw [h c hc, missing] at supplied
  cases supplied

end Rule

end Records

namespace Rule

/-- A record that has all values which another one has for the fields of a rule gives the same
verdict, or the same error, unless the error is that a field is missing which it does have. So
a verdict stays, an error about types stays, and what else the records hold plays no part. -/
theorem evaluate_of_extendsOn (r : Rule) (record record' : Record)
    (h : record.ExtendsOn record' r) :
    (r.evaluate record' = r.evaluate record ∨
      ∃ field v, r.evaluate record = .error (.missingField field) ∧
        record'.get? field = some v) ∧
    (∀ b, r.evaluate record = .ok b → r.evaluate record' = .ok b) ∧
    (∀ e, r.evaluate record = .error e → (∀ field, e ≠ .missingField field) →
      r.evaluate record' = .error e) ∧
    ((∀ c ∈ r.leaves, record'.get? c.field = record.get? c.field) →
      r.evaluate record' = r.evaluate record) := by
  refine ⟨?_, ?_, ?_, evaluate_congr⟩
  · refine (evaluate_eq_or_lacks h).imp id ?_
    rintro ⟨field, -, -, ⟨v, supplied⟩, error⟩
    exact ⟨field, v, error, supplied⟩
  · intro b hb
    rcases evaluate_eq_or_lacks h with same | ⟨field, lacks⟩
    · exact same.trans hb
    · exact nomatch hb.symm.trans lacks.error
  · intro e he other
    rcases evaluate_eq_or_lacks h with same | ⟨field, lacks⟩
    · exact same.trans he
    · exact absurd (Except.error.inj (he.symm.trans lacks.error)) (other field)

/-- The second condition of `sheltering` is looked at where the first one holds. -/
def unsheltered : Record :=
  Record.empty.insert "a" (.integer 2)

/-- An attribute of the wrong type does no harm to a verdict that was reached without it. Where
it was missing it brings out another error, and then that error stays. -/
theorem evaluate_of_extendsOn_sheltering :
    (shelteredAttributes.ExtendsOn (shelteredAttributes.insert "b" (.text "x")) sheltering ∧
      sheltering.evaluate shelteredAttributes = .ok true ∧
      sheltering.evaluate (shelteredAttributes.insert "b" (.text "x")) = .ok true) ∧
    (unsheltered.ExtendsOn (unsheltered.insert "b" (.text "x")) sheltering ∧
      (∃ field v, sheltering.evaluate unsheltered = .error (.missingField field) ∧
        (unsheltered.insert "b" (.text "x")).get? field = some v) ∧
      sheltering.evaluate (unsheltered.insert "b" (.text "x")) =
        .error (.nonNumeric "b" .gt)) ∧
    (unsheltered.insert "b" (.text "x")).ExtendsOn
        ((unsheltered.insert "b" (.text "x")).insert "c" (.integer 4)) sheltering ∧
      sheltering.evaluate ((unsheltered.insert "b" (.text "x")).insert "c" (.integer 4)) =
        .error (.nonNumeric "b" .gt) ∧
    (unsheltered.ExtendsOn (unsheltered.insertAbsent "b") sheltering ∧
      sheltering.evaluate (unsheltered.insertAbsent "b") = sheltering.evaluate unsheltered) := by
  have sheltered : shelteredAttributes.ExtendsOn
      (shelteredAttributes.insert "b" (.text "x")) sheltering :=
    Record.extendsOn_enter (.inl (by decide +kernel)) _
  have typed : unsheltered.ExtendsOn (unsheltered.insert "b" (.text "x")) sheltering :=
    Record.extendsOn_enter (.inl (by decide +kernel)) _
  have later : (unsheltered.insert "b" (.text "x")).ExtendsOn
      ((unsheltered.insert "b" (.text "x")).insert "c" (.integer 4)) sheltering :=
    Record.extendsOn_enter (.inl (by decide +kernel)) _
  have absent : unsheltered.ExtendsOn (unsheltered.insertAbsent "b") sheltering :=
    Record.extendsOn_enter (.inl (by decide +kernel)) _
  have granted : sheltering.evaluate shelteredAttributes = .ok true := by decide +kernel
  have refused : sheltering.evaluate (unsheltered.insert "b" (.text "x")) =
      .error (.nonNumeric "b" .gt) := by decide +kernel
  have changed : sheltering.evaluate (unsheltered.insert "b" (.text "x")) ≠
      sheltering.evaluate unsheltered := by decide +kernel
  refine ⟨⟨sheltered, granted, (evaluate_of_extendsOn _ _ _ sheltered).2.1 _ granted⟩,
    ⟨typed, (evaluate_of_extendsOn _ _ _ typed).1.resolve_left changed, refused⟩, later, ?_,
    absent, ?_⟩
  · exact (evaluate_of_extendsOn _ _ _ later).2.2.1 _ refused fun field h => nomatch h
  · exact (evaluate_of_extendsOn _ _ _ absent).2.2.2 (by decide +kernel)

end Rule

end Eligibility
