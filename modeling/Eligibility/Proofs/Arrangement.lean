import Eligibility.Proofs.Combining
import Eligibility.Proofs.Verdicts

/-!
# How the rules of a combination are arranged

A combination is known by the different conditions of its rules (`combine_congr`), and these
do not change when some of the rules give way to their own combination. So rules may be
combined in groups, or one after the other (`combineStepwise`), and rules that come again
play no part.

The order of the rules is seen in the combination, and in its errors: a condition that
decides hides the errors of those behind it. It is not seen in a verdict. Where one order of
the rules leaves a record undecided, no condition decides, and then none does in any order.
-/

namespace Eligibility

/-! ## First occurrences in parts of a list -/

section FirstOccurrences

variable {α : Type} [BEq α] [LawfulBEq α]

theorem eraseDups_of_nodup {l : List α} (distinct : l.Nodup) : l.eraseDups = l := by
  induction l with
  | nil => rfl
  | cons a l ih =>
      obtain ⟨new, distinct⟩ := List.nodup_cons.1 distinct
      have others : l.filter (! · == a) = l := by
        rw [List.filter_eq_self]
        rintro b hb
        simp only [Bool.not_eq_true', beq_eq_false_iff_ne]
        rintro rfl
        exact new hb
      rw [List.eraseDups_cons, others, ih distinct]

theorem eraseDups_eraseDups (l : List α) : l.eraseDups.eraseDups = l.eraseDups :=
  eraseDups_of_nodup (nodup_of_pairwise_idxOf (pairwise_idxOf_eraseDups l))

/-- It does not matter whether elements are left out before the repetitions or after them. -/
theorem eraseDups_filter (p : α → Bool) :
    ∀ l : List α, (l.filter p).eraseDups = l.eraseDups.filter p
  | [] => rfl
  | a :: l => by
      have shorter : (l.filter (! · == a)).length < l.length + 1 :=
        Nat.lt_succ_of_le (List.length_filter_le _ _)
      have ih := eraseDups_filter p (l.filter (! · == a))
      rw [List.filter_comm] at ih
      by_cases kept : p a = true
      · rw [List.filter_cons_of_pos kept, List.eraseDups_cons, List.eraseDups_cons,
          List.filter_cons_of_pos kept, ih]
      · have others : (l.filter p).filter (! · == a) = l.filter p := by
          rw [List.filter_eq_self]
          intro b hb
          simp only [Bool.not_eq_true', beq_eq_false_iff_ne]
          rintro rfl
          exact kept (List.mem_filter.1 hb).2
        rw [others] at ih
        rw [List.filter_cons_of_neg kept, List.eraseDups_cons, List.filter_cons_of_neg kept, ih]
termination_by l => l.length

/-- Repetitions may be left out of the parts of a list first. -/
theorem eraseDups_append_eraseDups (first second : List α) :
    (first.eraseDups ++ second.eraseDups).eraseDups = (first ++ second).eraseDups := by
  have same : (fun a => ! first.eraseDups.elem a) = fun a => ! first.elem a := by
    funext a
    rw [Bool.not_inj_iff, Bool.eq_iff_iff, List.elem_iff, List.elem_iff, List.mem_eraseDups]
  rw [List.eraseDups_append, List.eraseDups_append, eraseDups_eraseDups, List.removeAll,
    List.removeAll, same, ← eraseDups_filter, eraseDups_eraseDups]

/-- What has been in the list before adds nothing to it. -/
theorem eraseDups_append_of_subset {first second : List α} (h : second ⊆ first) :
    (first ++ second).eraseDups = first.eraseDups := by
  have none : second.removeAll first = [] := by
    rw [List.removeAll, List.filter_eq_nil_iff]
    intro a ha
    simp [h ha]
  rw [List.eraseDups_append, none, List.eraseDups_nil, List.append_nil]

end FirstOccurrences

namespace Connective

variable {op : Connective} {record : Record}

/-- The same conditions in another order, or with other repetitions, have no other verdict. -/
theorem evaluateAll_unique {conditions conditions' : List Condition} {b b' : Bool}
    (same : ∀ c, c ∈ conditions ↔ c ∈ conditions')
    (h : op.evaluateAll record conditions = .ok b)
    (h' : op.evaluateAll record conditions' = .ok b') : b = b' := by
  have undecided : op.evaluateAll record conditions = op.undecided ↔
      op.evaluateAll record conditions' = op.undecided := by
    rw [evaluateAll_eq_undecided_iff, evaluateAll_eq_undecided_iff]
    exact forall_congr' fun c => by rw [same]
  have agree : b = op.decisive ↔ b' = op.decisive := by
    rw [h, h', Connective.undecided, Except.ok.injEq, Except.ok.injEq, Bool.eq_not,
      Bool.eq_not] at undecided
    exact not_iff_not.1 undecided
  by_cases decides : b = op.decisive
  · rw [decides, agree.1 decides]
  · rw [Bool.eq_not.2 decides, Bool.eq_not.2 (mt agree.2 decides)]

end Connective

namespace Rule

/-! ## Rules in groups -/

theorem distinctLeaves_append (first second : List Rule) :
    distinctLeaves (first ++ second) =
      (distinctLeaves first ++ distinctLeaves second).eraseDups := by
  rw [distinctLeaves, distinctLeaves, distinctLeaves, List.flatMap_append,
    eraseDups_append_eraseDups]

/-- Rules that have been there before add no condition. -/
theorem distinctLeaves_append_of_subset {first second : List Rule} (h : second ⊆ first) :
    distinctLeaves (first ++ second) = distinctLeaves first := by
  rw [distinctLeaves, List.flatMap_append]
  refine eraseDups_append_of_subset fun c hc => ?_
  obtain ⟨r, hr, hc⟩ := List.mem_flatMap.1 hc
  exact List.mem_flatMap_of_mem (h hr) hc

section Groups

variable {config config' : Config} {op op' : Connective} {rules rules' : List Rule} {r : Rule}

/-- Rules with the same different conditions are combined to the same. -/
theorem combine_congr (same : distinctLeaves rules = distinctLeaves rules') :
    combine config op rules = combine config op rules' := by
  have empty : rules = [] ↔ rules' = [] := by
    rw [← distinctLeaves_eq_nil_iff, same, distinctLeaves_eq_nil_iff]
  simp only [combine, List.isEmpty_iff, empty, same]

/-- A combination has the different conditions of its rules. -/
theorem distinctLeaves_of_combine (h : combine config op rules = .ok r) :
    distinctLeaves [r] = distinctLeaves rules := by
  obtain ⟨-, hchain⟩ := combine_eq_ok h
  rw [distinctLeaves, List.flatMap_singleton, leaves_chain? hchain, distinctLeaves,
    eraseDups_eraseDups]

/-- A combination may stand for its rules in front of others. -/
theorem combine_cons_of_combine (h : combine config' op' rules = .ok r) (later : List Rule) :
    combine config op (r :: later) = combine config op (rules ++ later) := by
  refine combine_congr ?_
  rw [← List.singleton_append, distinctLeaves_append, distinctLeaves_of_combine h,
    ← distinctLeaves_append]

/-- Rules that come again may be left out. -/
theorem combine_append_of_subset {before again : List Rule} (h : again ⊆ before)
    (later : List Rule) :
    combine config op (before ++ again ++ later) = combine config op (before ++ later) := by
  refine combine_congr ?_
  rw [distinctLeaves_append, distinctLeaves_append_of_subset h, ← distinctLeaves_append]

end Groups

/-! ## Rules one after the other -/

/-- Combines the first rule with the second one, the outcome with the third one, and so on. -/
def combineStepwise (config : Config) (op : Connective) : List Rule → Except CombineError Rule
  | [] => .error .noRules
  | first :: later => do
    later.foldlM (fun done r => combine config op [done, r]) (← combine config op [first])

section Stepwise

variable {config : Config} {op : Connective}

/-- Where all rules are within the limit, so are the first ones. -/
theorem exists_combine_of_append {before later : List Rule} {r : Rule} (nonempty : before ≠ [])
    (h : combine config op (before ++ later) = .ok r) :
    ∃ done, combine config op before = .ok done := by
  obtain ⟨-, few, -⟩ := combine_eq_ok_iff.1 h
  refine exists_combine_eq_ok_iff.2 ⟨nonempty, Nat.le_trans (Finset.card_le_card ?_) few⟩
  intro c hc
  rw [List.mem_toFinset] at hc ⊢
  rw [List.flatMap_append]
  exact List.mem_append_left _ hc

theorem foldlM_combine_eq_ok_iff {before later : List Rule} {done r : Rule}
    (h : combine config op before = .ok done) :
    later.foldlM (fun done r => combine config op [done, r]) done = .ok r ↔
      combine config op (before ++ later) = .ok r := by
  induction later generalizing before done with
  | nil =>
      rw [List.foldlM_nil, List.append_nil, h]
      rfl
  | cons next later ih =>
      have step : combine config op [done, next] = combine config op (before ++ [next]) :=
        combine_cons_of_combine h [next]
      have split : before ++ next :: later = before ++ [next] ++ later := by simp
      rw [List.foldlM_cons, Except.bind_eq_ok_iff, step, split]
      constructor
      · rintro ⟨done', hdone', hlater⟩
        exact (ih hdone').1 hlater
      · intro hall
        obtain ⟨done', hdone'⟩ := exists_combine_of_append (by simp) hall
        exact ⟨done', hdone', (ih hdone').2 hall⟩

/-- Rules that are combined one after the other become the combination of all of them. -/
theorem combineStepwise_eq_ok_iff {rules : List Rule} {r : Rule} :
    combineStepwise config op rules = .ok r ↔ combine config op rules = .ok r := by
  cases rules with
  | nil => exact Iff.rfl
  | cons first later =>
      rw [combineStepwise, Except.bind_eq_ok_iff]
      constructor
      · rintro ⟨done, hdone, hlater⟩
        exact (foldlM_combine_eq_ok_iff hdone).1 hlater
      · intro h
        have nonempty : [first] ≠ [] := List.cons_ne_nil first []
        obtain ⟨done, hdone⟩ := exists_combine_of_append nonempty h
        exact ⟨done, hdone, (foldlM_combine_eq_ok_iff hdone).2 h⟩

end Stepwise

/-- Two combinations are combined to the same, or refused alike, as the rules that they are
made of, whatever the connectives. So a combination is combined to itself, rules that come
again change nothing, and rules may be combined one after the other. -/
theorem combine_pair_eq_combine_append (config : Config) (op : Connective) :
    (∀ (op₁ op₂ : Connective) (rules₁ rules₂ : List Rule) (r₁ r₂ : Rule),
        combine config op₁ rules₁ = .ok r₁ → combine config op₂ rules₂ = .ok r₂ →
        combine config op [r₁, r₂] = combine config op (rules₁ ++ rules₂)) ∧
      (∀ (rules : List Rule) (r : Rule), combine config op rules = .ok r →
        combine config op [r] = .ok r) ∧
      (∀ before again later : List Rule, again ⊆ before →
        combine config op (before ++ again ++ later) = combine config op (before ++ later)) ∧
      ∀ (rules : List Rule) (r : Rule),
        combineStepwise config op rules = .ok r ↔ combine config op rules = .ok r := by
  refine ⟨?_, ?_, fun _ _ later again => combine_append_of_subset again later,
    fun _ _ => combineStepwise_eq_ok_iff⟩
  · intro op₁ op₂ rules₁ rules₂ r₁ r₂ h₁ h₂
    refine combine_congr ?_
    rw [← List.singleton_append, distinctLeaves_append, distinctLeaves_append,
      distinctLeaves_of_combine h₁, distinctLeaves_of_combine h₂]
  · intro rules r h
    rw [combine_congr (distinctLeaves_of_combine h), h]

theorem combine_pair_eq_combine_append_overlapping :
    (combine {} .and [repeating] = .ok paired ∧
      combine {} .or [spaced] = .ok (spacedChain .or) ∧
      combine {} .and [paired, spacedChain .or] = combine {} .and [repeating, spaced] ∧
      combine {} .and [repeating, spaced] = .ok (spacedChain .and)) ∧
    combine {} .and [paired] = .ok paired ∧
    [paired] ⊆ [spaced, paired] ∧
      combine {} .and [spaced, paired, paired, repeating] =
        combine {} .and [spaced, paired, repeating] := by
  have first : combine {} .and [repeating] = .ok paired := by decide +kernel
  have second : combine {} .or [spaced] = .ok (spacedChain .or) := by decide +kernel
  have again : [paired] ⊆ [spaced, paired] := by simp
  obtain ⟨pair, self, repeated, -⟩ := combine_pair_eq_combine_append {} .and
  exact ⟨⟨first, second, pair _ _ _ _ _ _ first second, by decide +kernel⟩, self _ _ first, again,
    repeated _ _ [repeating] again⟩

/-! ## Rules in another order -/

/-- Rules with the same conditions are combined within the same limits. -/
theorem combine_cases_of_perm (config : Config) (op : Connective) {rules rules' : List Rule}
    (perm : rules.Perm rules') :
    (∃ e, combine config op rules = .error e ∧ combine config op rules' = .error e) ∨
      ∃ r r', combine config op rules = .ok r ∧ combine config op rules' = .ok r' := by
  have same : (rules.flatMap inOrder).toFinset = (rules'.flatMap inOrder).toFinset :=
    List.toFinset_eq_of_perm _ _ (perm.flatMap_right inOrder)
  have nonempty : rules ≠ [] ↔ rules' ≠ [] := by
    rw [Ne, Ne, ← List.length_eq_zero_iff, perm.length_eq, List.length_eq_zero_iff]
  rcases combine_cases config op rules with
    ⟨empty, h⟩ | ⟨filled, many, h⟩ | ⟨filled, few, r, -, h⟩
  · exact .inl ⟨_, h, combine_eq_noRules_iff.2 (by simpa [empty] using nonempty)⟩
  · rw [same] at many h
    exact .inl ⟨_, h, combine_eq_tooManyConditions_iff.2 ⟨nonempty.1 filled, rfl, rfl, many⟩⟩
  · rw [same] at few
    obtain ⟨r', h'⟩ := exists_combine_eq_ok_iff.2 ⟨nonempty.1 filled, few⟩
    exact .inr ⟨r, r', h, h'⟩

/-- The order of the rules has no part in verdicts. -/
theorem evaluate_unique_of_perm {config : Config} {op : Connective} {rules rules' : List Rule}
    {r r' : Rule} {record : Record} {b b' : Bool} (perm : rules.Perm rules')
    (h : combine config op rules = .ok r) (h' : combine config op rules' = .ok r')
    (hb : r.evaluate record = .ok b) (hb' : r'.evaluate record = .ok b') : b = b' := by
  rw [evaluate_combine h] at hb
  rw [evaluate_combine h'] at hb'
  exact Connective.evaluateAll_unique (fun c => (perm.flatMap_right leaves).mem_iff) hb hb'

/-- A rule that asks for a positive value of a field. -/
def positive (field : String) : Rule :=
  condition ⟨field, .ge, .integer 1⟩

/-- A record in which `positive "a"` decides a join and `positive "b"` has no verdict. -/
def decidingRecord (op : Connective) : Record :=
  Record.empty.insert "a" (if op.decisive then .integer 1 else .integer 0)

/-- The order of the rules may tell which of two errors is seen. -/
theorem exists_perm_evaluate_error_ne (op : Connective) :
    ∃ (rules rules' : List Rule) (r r' : Rule) (record : Record) (e e' : EvaluationError),
      rules.Perm rules' ∧ combine {} op rules = .ok r ∧ combine {} op rules' = .ok r' ∧
        r.evaluate record = .error e ∧ r'.evaluate record = .error e' ∧ e ≠ e' := by
  refine ⟨[positive "a", positive "b"], [positive "b", positive "a"],
    join op (positive "a") (positive "b"), join op (positive "b") (positive "a"), .empty,
    .missingField "a", .missingField "b", .swap _ _ _, ?_⟩
  cases op <;> decide +kernel

/-- The order of the rules may tell whether an error is seen. -/
theorem exists_perm_evaluate_error_hidden (op : Connective) :
    ∃ (rules rules' : List Rule) (r r' : Rule) (record : Record) (b : Bool)
        (e : EvaluationError),
      rules.Perm rules' ∧ combine {} op rules = .ok r ∧ combine {} op rules' = .ok r' ∧
        r.evaluate record = .ok b ∧ r'.evaluate record = .error e := by
  refine ⟨[positive "a", positive "b"], [positive "b", positive "a"],
    join op (positive "a") (positive "b"), join op (positive "b") (positive "a"),
    decidingRecord op, op.decisive, .missingField "b", .swap _ _ _, ?_⟩
  cases op <;> decide +kernel

/-- Whatever the order of the rules, they are combined, or refused with the same error, and no
two orders have different verdicts on a record. Errors are another matter: for each connective
there are rules whose order tells which error is seen, or whether one is. -/
theorem combine_eq_error_or_evaluate_unique_of_perm :
    (∀ (config : Config) (op : Connective) (rules rules' : List Rule), rules.Perm rules' →
        (∃ e, combine config op rules = .error e ∧ combine config op rules' = .error e) ∨
          ∃ r r', combine config op rules = .ok r ∧ combine config op rules' = .ok r' ∧
            ∀ (record : Record) (b b' : Bool),
              r.evaluate record = .ok b → r'.evaluate record = .ok b' → b = b') ∧
      ∀ op : Connective,
        (∃ (rules rules' : List Rule) (r r' : Rule) (record : Record) (e e' : EvaluationError),
          rules.Perm rules' ∧ combine {} op rules = .ok r ∧ combine {} op rules' = .ok r' ∧
            r.evaluate record = .error e ∧ r'.evaluate record = .error e' ∧ e ≠ e') ∧
        ∃ (rules rules' : List Rule) (r r' : Rule) (record : Record) (b : Bool)
            (e : EvaluationError),
          rules.Perm rules' ∧ combine {} op rules = .ok r ∧ combine {} op rules' = .ok r' ∧
            r.evaluate record = .ok b ∧ r'.evaluate record = .error e := by
  refine ⟨?_, fun op => ⟨exists_perm_evaluate_error_ne op, exists_perm_evaluate_error_hidden op⟩⟩
  intro config op rules rules' perm
  rcases combine_cases_of_perm config op perm with refused | ⟨r, r', h, h'⟩
  · exact .inl refused
  · exact .inr ⟨r, r', h, h', fun _ _ _ => evaluate_unique_of_perm perm h h'⟩

/-- The conditions of `positive "c"` and `paired`, in this order. -/
def positiveFirst : Rule :=
  join .and (join .and (positive "c") (condition ⟨"a", .gt, .integer 1⟩))
    (condition ⟨"b", .gt, .integer 2⟩)

theorem combine_eq_error_or_evaluate_unique_of_perm_positive :
    [paired, positive "c"].Perm [positive "c", paired] ∧
      combine {} .and [paired, positive "c"] = .ok (join .and paired (positive "c")) ∧
      combine {} .and [positive "c", paired] = .ok positiveFirst ∧
      ∀ (record : Record) (b b' : Bool),
        (join .and paired (positive "c")).evaluate record = .ok b →
        positiveFirst.evaluate record = .ok b' → b = b' := by
  have perm : [paired, positive "c"].Perm [positive "c", paired] := .swap _ _ _
  have last : combine {} .and [paired, positive "c"] = .ok (join .and paired (positive "c")) := by
    decide +kernel
  have first : combine {} .and [positive "c", paired] = .ok positiveFirst := by decide +kernel
  rcases combine_eq_error_or_evaluate_unique_of_perm.1 {} .and _ _ perm with
    ⟨e, refused, -⟩ | ⟨r, r', h, h', unique⟩
  · cases last.symm.trans refused
  · cases last.symm.trans h
    cases first.symm.trans h'
    exact ⟨perm, last, first, unique⟩

end Rule

end Eligibility
