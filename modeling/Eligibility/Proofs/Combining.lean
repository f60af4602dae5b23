import Eligibility.Proofs.Rendering
import Mathlib.Data.Finset.Card

/-!
# What a combination is made of

A combination keeps every condition of its rules once, at the place where it occurs
first, and joins these conditions to a chain: all joins are on the left, and every
operand on the right is a single condition (`Rule.IsChain`). A chain is known by its
connective and its conditions, so a combination is the only rule of this kind
(`Rule.Combines`).

Conditions count as the same if they are equal. Those whose literals differ in type, and
those that only have the same text, are different conditions.
-/

namespace Eligibility

namespace Rule

/-- The conditions of a rule from left to right, by recursion on the rule. -/
def inOrder : Rule → List Condition
  | condition c => [c]
  | join _ left right => left.inOrder ++ right.inOrder

theorem leaves_eq_inOrder (r : Rule) : r.leaves = r.inOrder := by
  induction r with
  | condition c => rw [leaves_condition, inOrder]
  | join op left right ihLeft ihRight => rw [leaves_join, ihLeft, ihRight, inOrder]

theorem inOrder_ne_nil (r : Rule) : r.inOrder ≠ [] := by
  induction r with
  | condition c => exact List.cons_ne_nil c []
  | join op left right ihLeft ihRight => exact List.append_ne_nil_of_left_ne_nil ihLeft _

/-! ## Chains -/

/-- The joins follow each other on the left, each with this connective and a single
condition on the right. -/
def IsChain (op : Connective) : Rule → Prop
  | condition _ => True
  | join op' left right => op' = op ∧ left.IsChain op ∧ right.isJoin = false

section Chains

variable {op : Connective}

theorem isChain_join_condition {left : Rule} (h : left.IsChain op) (c : Condition) :
    (join op left (condition c)).IsChain op :=
  ⟨rfl, h, rfl⟩

theorem exists_condition_of_isJoin {r : Rule} (h : r.isJoin = false) :
    ∃ c, r = condition c := by
  cases r with
  | condition c => exact ⟨c, rfl⟩
  | join op left right => cases h

theorem isChain_foldl (conditions : List Condition) {done : Rule} (h : done.IsChain op) :
    ((conditions.map condition).foldl (join op) done).IsChain op := by
  induction conditions generalizing done with
  | nil => exact h
  | cons c later ih => exact ih (isChain_join_condition h c)

theorem isChain_chain? {conditions : List Condition} {r : Rule}
    (h : chain? op conditions = some r) : r.IsChain op := by
  cases conditions with
  | nil => cases h
  | cons first rest =>
      rw [chain?_cons] at h
      cases h
      exact isChain_foldl rest trivial

/-- One more condition is joined to the whole chain before it. -/
theorem chain?_append_singleton {conditions : List Condition} {r : Rule}
    (h : chain? op conditions = some r) (c : Condition) :
    chain? op (conditions ++ [c]) = some (join op r (condition c)) := by
  cases conditions with
  | nil => cases h
  | cons first rest =>
      rw [chain?_cons] at h
      cases h
      rw [List.cons_append, chain?_cons, List.map_append, List.foldl_append]
      rfl

/-- A chain is made of its conditions. -/
theorem IsChain.chain?_inOrder {r : Rule} (h : r.IsChain op) :
    chain? op r.inOrder = some r := by
  induction r with
  | condition c => rfl
  | join op' left right ihLeft ihRight =>
      obtain ⟨rfl, hleft, hright⟩ := h
      obtain ⟨c, rfl⟩ := exists_condition_of_isJoin hright
      exact chain?_append_singleton (ihLeft hleft) c

theorem chain?_eq_some_iff {conditions : List Condition} {r : Rule} :
    chain? op conditions = some r ↔ r.IsChain op ∧ r.inOrder = conditions := by
  constructor
  · intro h
    exact ⟨isChain_chain? h, (leaves_eq_inOrder r).symm.trans (leaves_chain? h)⟩
  · rintro ⟨h, rfl⟩
    exact h.chain?_inOrder

theorem chain?_eq_none_iff {conditions : List Condition} :
    chain? op conditions = none ↔ conditions = [] := by
  cases conditions with
  | nil => simp [chain?]
  | cons first rest => simp [chain?]

end Chains

end Rule

/-! ## First occurrences -/

theorem nodup_of_pairwise_idxOf {α : Type} [BEq α] {l found : List α}
    (h : found.Pairwise fun a b => l.idxOf a < l.idxOf b) : found.Nodup := by
  refine List.nodup_iff_pairwise_ne.2 (h.imp ?_)
  rintro a b lt rfl
  exact Nat.lt_irrefl _ lt

section FirstOccurrences

variable {α : Type} [BEq α] [LawfulBEq α]

/-- What a filter keeps stands in the same order as before. -/
theorem idxOf_lt_of_filter {p : α → Bool} {a b : α} (ha : p a = true) (hb : p b = true)
    {l : List α} (h : (l.filter p).idxOf a < (l.filter p).idxOf b) :
    l.idxOf a < l.idxOf b := by
  induction l with
  | nil => exact h
  | cons x l ih =>
      by_cases hx : p x = true
      · rw [List.filter_cons_of_pos hx] at h
        have hxb : x ≠ b := by
          rintro rfl
          rw [List.idxOf_cons_self] at h
          exact absurd h (Nat.not_lt_zero _)
        rw [List.idxOf_cons_ne _ hxb] at h ⊢
        by_cases hxa : x = a
        · rw [hxa, List.idxOf_cons_self]
          exact Nat.succ_pos _
        · rw [List.idxOf_cons_ne _ hxa] at h ⊢
          exact Nat.succ_lt_succ (ih (Nat.lt_of_succ_lt_succ h))
      · rw [List.filter_cons_of_neg hx] at h
        have hxa : x ≠ a := by
          rintro rfl
          exact hx ha
        have hxb : x ≠ b := by
          rintro rfl
          exact hx hb
        rw [List.idxOf_cons_ne _ hxa, List.idxOf_cons_ne _ hxb]
        exact Nat.succ_lt_succ (ih h)

/-- Without their repetitions elements stand in the order in which they occur first. -/
theorem pairwise_idxOf_eraseDups :
    ∀ l : List α, l.eraseDups.Pairwise fun a b => l.idxOf a < l.idxOf b
  | [] => .nil
  | x :: l => by
      have shorter : (l.filter (! · == x)).length < l.length + 1 :=
        Nat.lt_succ_of_le (List.length_filter_le _ _)
      have ih := pairwise_idxOf_eraseDups (l.filter (! · == x))
      have other : ∀ a ∈ (l.filter (! · == x)).eraseDups, (! a == x) = true := by
        intro a ha
        exact (List.mem_filter.1 (List.mem_eraseDups.1 ha)).2
      have ne : ∀ a, (! a == x) = true → x ≠ a := by
        rintro a ha rfl
        simp at ha
      rw [List.eraseDups_cons, List.pairwise_cons]
      constructor
      · intro a ha
        rw [List.idxOf_cons_self, List.idxOf_cons_ne _ (ne a (other a ha))]
        exact Nat.succ_pos _
      · refine ih.imp_of_mem ?_
        intro a b ha hb h
        rw [List.idxOf_cons_ne _ (ne a (other a ha)), List.idxOf_cons_ne _ (ne b (other b hb))]
        exact Nat.succ_lt_succ (idxOf_lt_of_filter (p := (! · == x)) (other a ha) (other b hb) h)
termination_by l => l.length

/-- Elements in the order in which they occur first are the elements without their
repetitions. -/
theorem eq_eraseDups_iff {l found : List α} :
    found = l.eraseDups ↔
      (∀ a, a ∈ found ↔ a ∈ l) ∧ found.Pairwise fun a b => l.idxOf a < l.idxOf b := by
  constructor
  · rintro rfl
    exact ⟨fun a => List.mem_eraseDups, pairwise_idxOf_eraseDups l⟩
  · rintro ⟨same, ordered⟩
    have ordered' := pairwise_idxOf_eraseDups l
    have perm : found.Perm l.eraseDups := by
      rw [List.perm_ext_iff_of_nodup (nodup_of_pairwise_idxOf ordered)
        (nodup_of_pairwise_idxOf ordered')]
      intro a
      rw [same, List.mem_eraseDups]
    refine perm.eq_of_pairwise ?_ ordered ordered'
    intro a b _ _ lt gt
    exact absurd gt (Nat.lt_asymm lt)

end FirstOccurrences

namespace Rule

theorem distinctLeaves_eq_eraseDups (rules : List Rule) :
    distinctLeaves rules = (rules.flatMap inOrder).eraseDups := by
  rw [distinctLeaves, funext leaves_eq_inOrder]

theorem card_inOrder_eq_length_distinctLeaves (rules : List Rule) :
    (rules.flatMap inOrder).toFinset.card = (distinctLeaves rules).length := by
  have same : (rules.flatMap inOrder).toFinset = (distinctLeaves rules).toFinset := by
    ext c
    rw [List.mem_toFinset, List.mem_toFinset, distinctLeaves_eq_eraseDups, List.mem_eraseDups]
  rw [same, distinctLeaves_eq_eraseDups, List.toFinset_card_of_nodup]
  exact nodup_of_pairwise_idxOf (pairwise_idxOf_eraseDups _)

theorem distinctLeaves_eq_nil_iff {rules : List Rule} :
    distinctLeaves rules = [] ↔ rules = [] := by
  cases rules with
  | nil => simp [distinctLeaves]
  | cons r rules =>
      obtain ⟨c, hc⟩ := List.exists_mem_of_ne_nil _ r.inOrder_ne_nil
      have found : c ∈ distinctLeaves (r :: rules) := by
        rw [distinctLeaves_eq_eraseDups, List.mem_eraseDups]
        exact List.mem_flatMap_of_mem List.mem_cons_self hc
      constructor
      · intro none
        rw [none] at found
        cases found
      · intro none
        cases none

/-! ## The outcome of combining -/

/-- What `conditions` are combined to by a connective. -/
structure Combines (op : Connective) (conditions : List Condition) (r : Rule) : Prop where
  chain : r.IsChain op
  distinct : r.inOrder.Nodup
  /-- No condition is lost, and none is added. -/
  complete : ∀ c, c ∈ r.inOrder ↔ c ∈ conditions
  /-- The conditions stand in the order in which they occur first. -/
  ordered : r.inOrder.Pairwise fun c d => conditions.idxOf c < conditions.idxOf d

theorem chain?_distinctLeaves_eq_some_iff {op : Connective} {rules : List Rule} {r : Rule} :
    chain? op (distinctLeaves rules) = some r ↔ r.Combines op (rules.flatMap inOrder) := by
  rw [chain?_eq_some_iff, distinctLeaves_eq_eraseDups, eq_eraseDups_iff]
  constructor
  · rintro ⟨chain, complete, ordered⟩
    exact ⟨chain, nodup_of_pairwise_idxOf ordered, complete, ordered⟩
  · rintro ⟨chain, -, complete, ordered⟩
    exact ⟨chain, complete, ordered⟩

theorem exists_combines (op : Connective) {rules : List Rule} (nonempty : rules ≠ []) :
    ∃ r : Rule, r.Combines op (rules.flatMap inOrder) := by
  have hchain : chain? op (distinctLeaves rules) ≠ none := by
    rw [Ne, chain?_eq_none_iff, distinctLeaves_eq_nil_iff]
    exact nonempty
  obtain ⟨r, hr⟩ := Option.ne_none_iff_exists'.1 hchain
  exact ⟨r, chain?_distinctLeaves_eq_some_iff.1 hr⟩

section Outcomes

variable {config : Config} {op : Connective} {rules : List Rule}

/-- The three outcomes that combining has. -/
theorem combine_cases (config : Config) (op : Connective) (rules : List Rule) :
    (rules = [] ∧ combine config op rules = .error .noRules) ∨
      (rules ≠ [] ∧ config.maxConditions < (rules.flatMap inOrder).toFinset.card ∧
        combine config op rules = .error
          (.tooManyConditions (rules.flatMap inOrder).toFinset.card config.maxConditions)) ∨
      (rules ≠ [] ∧ (rules.flatMap inOrder).toFinset.card ≤ config.maxConditions ∧
        ∃ r : Rule, r.Combines op (rules.flatMap inOrder) ∧ combine config op rules = .ok r) := by
  by_cases empty : rules = []
  · subst empty
    exact .inl ⟨rfl, rfl⟩
  · refine .inr ?_
    obtain ⟨r, hr⟩ := exists_combines op empty
    have hchain := chain?_distinctLeaves_eq_some_iff.2 hr
    rw [card_inOrder_eq_length_distinctLeaves, combine, if_neg (mt List.isEmpty_iff.1 empty)]
    rcases Nat.lt_or_ge config.maxConditions (distinctLeaves rules).length with many | few
    · exact .inl ⟨empty, many, if_pos many⟩
    · refine .inr ⟨empty, few, r, hr, ?_⟩
      simp only [Nat.not_lt_of_le few, if_false, hchain]

theorem combine_eq_noRules_iff : combine config op rules = .error .noRules ↔ rules = [] := by
  rcases combine_cases config op rules with ⟨empty, h⟩ | ⟨nonempty, -, h⟩ | ⟨nonempty, -, r, -, h⟩
  · rw [h]
    simp [empty]
  · simp [h, nonempty]
  · simp [h, nonempty]

theorem combine_eq_tooManyConditions_iff {count limit : Nat} :
    combine config op rules = .error (.tooManyConditions count limit) ↔
      rules ≠ [] ∧ count = (rules.flatMap inOrder).toFinset.card ∧
        limit = config.maxConditions ∧ limit < count := by
  rcases combine_cases config op rules with
    ⟨empty, h⟩ | ⟨nonempty, many, h⟩ | ⟨nonempty, few, r, -, h⟩
  · rw [h]
    simp [empty]
  · rw [h]
    constructor
    · intro same
      cases same
      exact ⟨nonempty, rfl, rfl, many⟩
    · rintro ⟨-, rfl, rfl, -⟩
      rfl
  · rw [h]
    constructor
    · intro same
      cases same
    · rintro ⟨-, rfl, rfl, many⟩
      exact absurd many (Nat.not_lt_of_le few)

/-- Within the limit the combination is the only chain of the different conditions. -/
theorem combine_eq_ok_iff {r : Rule} :
    combine config op rules = .ok r ↔
      rules ≠ [] ∧ (rules.flatMap inOrder).toFinset.card ≤ config.maxConditions ∧
        r.Combines op (rules.flatMap inOrder) := by
  rcases combine_cases config op rules with
    ⟨empty, h⟩ | ⟨nonempty, many, h⟩ | ⟨nonempty, few, r', hr', h⟩
  · rw [h]
    simp [empty]
  · simp [h, many]
  · rw [h]
    constructor
    · intro same
      cases same
      exact ⟨nonempty, few, hr'⟩
    · rintro ⟨-, -, hr⟩
      rw [← chain?_distinctLeaves_eq_some_iff] at hr hr'
      rw [Option.some.inj (hr'.symm.trans hr)]

theorem exists_combine_eq_ok_iff :
    (∃ r, combine config op rules = .ok r) ↔
      rules ≠ [] ∧ (rules.flatMap inOrder).toFinset.card ≤ config.maxConditions := by
  constructor
  · rintro ⟨r, h⟩
    obtain ⟨nonempty, few, -⟩ := combine_eq_ok_iff.1 h
    exact ⟨nonempty, few⟩
  · rintro ⟨nonempty, few⟩
    obtain ⟨r, hr⟩ := exists_combines op nonempty
    exact ⟨r, combine_eq_ok_iff.2 ⟨nonempty, few, hr⟩⟩

/-- Every rule has a condition, so there always are some to combine. -/
theorem combine_ne_noConditions : combine config op rules ≠ .error .noConditions := by
  rcases combine_cases config op rules with ⟨-, h⟩ | ⟨-, -, h⟩ | ⟨-, -, r, -, h⟩
  all_goals
    rw [h]
    exact fun same => by cases same

end Outcomes

/-- Without rules there is nothing to combine. Otherwise the number of different conditions
is held against the limit, and within it there is exactly one combination: the chain of
these conditions in the order in which they occur first. -/
theorem combine_eq_iff (config : Config) (op : Connective) (rules : List Rule) :
    (combine config op rules = .error .noRules ↔ rules = []) ∧
      CombineError.noRules.message = "Empty input: no rules supplied" ∧
      (∀ count limit, combine config op rules = .error (.tooManyConditions count limit) ↔
        rules ≠ [] ∧ count = (rules.flatMap inOrder).toFinset.card ∧
          limit = config.maxConditions ∧ limit < count) ∧
      (∀ r, combine config op rules = .ok r ↔
        rules ≠ [] ∧ (rules.flatMap inOrder).toFinset.card ≤ config.maxConditions ∧
          r.Combines op (rules.flatMap inOrder)) ∧
      ((∃ r, combine config op rules = .ok r) ↔
        rules ≠ [] ∧ (rules.flatMap inOrder).toFinset.card ≤ config.maxConditions) ∧
      combine config op rules ≠ .error .noConditions :=
  ⟨combine_eq_noRules_iff, rfl, fun _ _ => combine_eq_tooManyConditions_iff,
    fun _ => combine_eq_ok_iff, exists_combine_eq_ok_iff, combine_ne_noConditions⟩

/-- Two conditions with the text `a = 'b' = 'c'` are both kept. -/
example :
    let quoted : Condition := ⟨"a", .eq, .text "b' = 'c"⟩
    let named : Condition := ⟨"a = 'b'", .eq, .text "c"⟩
    quoted.text = named.text ∧
      combine {} .or [condition quoted, condition named, condition quoted] =
        .ok (join .or (condition quoted) (condition named)) := by
  decide +kernel

end Rule

end Eligibility
