import Eligibility.Proofs.Combining
import Eligibility.Proofs.Parentheses
import Eligibility.Proofs.ShortCircuit

/-!
# Walks over a rule

A chain is as deep as it has conditions, so a rule is not walked by recursion on its left operands.
`Listing` finds the conditions; it keeps the rules that are still to be visited on a stack.
`Writing` follows the left operands down to the first condition and keeps the connectives that it
passes, each with its right operand (the spine); then it goes up again and writes them. A right
operand that is a join is written in between, in parentheses and in the same way.

Both are loops: a step is repeated until there is none. With each step the work that remains
shrinks by one, and what comes out in the end stays the same (`Advances`), so a loop is known from
its single steps. The main statement says how many steps the two walks take, and that they end
with the conditions and the text of the rule, which follow the recursion on it.
-/

namespace Eligibility

/-! ## Loops -/

section Loops

variable {σ ρ : Type} {step : σ → Option σ}

/-- The state after so many steps, if there are as many. -/
def repeatStep (step : σ → Option σ) : Nat → σ → Option σ
  | 0, s => some s
  | n + 1, s => (step s).bind (repeatStep step n)

/-- The loop takes `n` steps from the state `s` and ends in the state `t`. -/
structure EndsAfter (step : σ → Option σ) (n : Nat) (s t : σ) : Prop where
  reaches : repeatStep step n s = some t
  ends : step t = none

theorem EndsAfter.of_step {n : Nat} {s t u : σ} (h : step s = some t)
    (later : EndsAfter step n t u) : EndsAfter step (n + 1) s u :=
  ⟨by rw [repeatStep, h, Option.bind_some, later.reaches], later.ends⟩

/-- Each step does one unit of the work that remains and keeps the outcome. -/
structure Advances (step : σ → Option σ) (remaining : σ → Nat) (outcome : σ → ρ) : Prop where
  remaining_eq_zero : ∀ {s}, step s = none → remaining s = 0
  of_step : ∀ {s t}, step s = some t → remaining s = remaining t + 1 ∧ outcome t = outcome s

/-- A loop that advances ends, after as many steps as there are units of work, and with the
outcome of its first state. -/
theorem Advances.exists_endsAfter {remaining : σ → Nat} {outcome : σ → ρ}
    (h : Advances step remaining outcome) (s : σ) :
    ∃ t, EndsAfter step (remaining s) s t ∧ outcome t = outcome s := by
  -- The work that remains carries the induction, since a state says nothing of its later ones.
  induction hn : remaining s generalizing s with
  | zero =>
      refine ⟨s, ⟨rfl, Option.eq_none_iff_forall_ne_some.2 ?_⟩, rfl⟩
      intro t hstep
      have work := (h.of_step hstep).1
      omega
  | succ n ih =>
      cases hstep : step s with
      | none =>
          have idle := h.remaining_eq_zero hstep
          omega
      | some t =>
          obtain ⟨work, kept⟩ := h.of_step hstep
          obtain ⟨u, later, houtcome⟩ := ih t (by omega)
          exact ⟨u, later.of_step hstep, houtcome.trans kept⟩

end Loops

/-! ## The conditions -/

/-- A state of the search for the conditions of a rule. -/
structure Listing where
  /-- The rules still to be visited, the next one first. -/
  pending : List Rule
  /-- The conditions found so far. -/
  found : List Condition
deriving DecidableEq, Repr

namespace Listing

/-- Visits the next rule. Of the two operands of a join the left one is next. -/
def step : Listing → Option Listing
  | ⟨[], _⟩ => none
  | ⟨.condition c :: pending, found⟩ => some ⟨pending, found ++ [c]⟩
  | ⟨.join _ left right :: pending, found⟩ => some ⟨left :: right :: pending, found⟩

/-- The number of conditions and joins in the rules still to be visited. -/
def remaining (s : Listing) : Nat :=
  s.pending.foldr (fun r total => r.size + total) 0

/-- All conditions, those found and those still to come. -/
def outcome (s : Listing) : List Condition :=
  s.found ++ Rule.leavesOf s.pending

theorem pending_eq_nil {s : Listing} (h : step s = none) : s.pending = [] := by
  obtain ⟨pending, found⟩ := s
  cases pending with
  | nil => rfl
  | cons r pending => cases r <;> cases h

theorem advances : Advances step remaining outcome where
  remaining_eq_zero h := by rw [remaining, pending_eq_nil h, List.foldr_nil]
  of_step {s t} h := by
    obtain ⟨pending, found⟩ := s
    cases pending with
    | nil => cases h
    | cons r pending =>
        cases r with
        | condition c =>
            cases h
            constructor
            · simp only [remaining, List.foldr_cons, Rule.size]
              omega
            · rw [outcome, outcome, Rule.leavesOf, List.append_assoc, List.singleton_append]
        | join op left right =>
            cases h
            constructor
            · simp only [remaining, List.foldr_cons, Rule.size]
              omega
            · rw [outcome, outcome, Rule.leavesOf]

/-- The search visits every condition and every join once, and finds the conditions. -/
theorem endsAfter_leaves (r : Rule) :
    EndsAfter step r.size ⟨[r], []⟩ ⟨[], r.leaves⟩ := by
  obtain ⟨⟨pending, found⟩, walk, houtcome⟩ := advances.exists_endsAfter ⟨[r], []⟩
  obtain rfl : pending = [] := pending_eq_nil walk.ends
  have hfound : found = r.leaves := by
    simpa [outcome, Rule.leaves] using houtcome
  rw [← hfound]
  simpa [remaining] using walk

end Listing

namespace Rule

/-- The places of a rule from left to right. -/
def places : (r : Rule) → List r.Leaf
  | condition _ => [.here]
  | join _ left right => left.places.map .left ++ right.places.map .right

theorem mem_places {r : Rule} (leaf : r.Leaf) : leaf ∈ r.places := by
  induction leaf with
  | here => exact List.mem_singleton_self _
  | left leaf ih => exact List.mem_append_left _ (List.mem_map_of_mem ih)
  | right leaf ih => exact List.mem_append_right _ (List.mem_map_of_mem ih)

theorem pairwise_before_places (r : Rule) : r.places.Pairwise Leaf.Before := by
  induction r with
  | condition c => exact List.pairwise_singleton _ _
  | join op left right ihLeft ihRight =>
      rw [places, List.pairwise_append, List.pairwise_map, List.pairwise_map]
      refine ⟨ihLeft, ihRight, ?_⟩
      intro leaf hleaf leaf' hleaf'
      obtain ⟨first, -, rfl⟩ := List.mem_map.1 hleaf
      obtain ⟨second, -, rfl⟩ := List.mem_map.1 hleaf'
      trivial

theorem Leaf.not_before_self {r : Rule} (leaf : r.Leaf) : ¬ leaf.Before leaf := by
  induction leaf with
  | here => exact id
  | left leaf ih => exact ih
  | right leaf ih => exact ih

theorem nodup_places (r : Rule) : r.places.Nodup := by
  refine r.pairwise_before_places.imp ?_
  rintro leaf leaf' before rfl
  exact leaf.not_before_self before

/-- The conditions of a rule are those at its places. -/
theorem leaves_eq_map_places (r : Rule) : r.leaves = r.places.map Leaf.condition := by
  induction r with
  | condition c => exact leaves_condition c
  | join op left right ihLeft ihRight =>
      rw [leaves_join, ihLeft, ihRight, places, List.map_append, List.map_map, List.map_map]
      rfl

/-! ## The text -/

/-- The text of a rule, by recursion on the rule. -/
def textInOrder : Rule → String
  | condition c => c.text
  | join op left right =>
    left.textInOrder ++ (" " ++ (op.word ++ (" " ++
      if right.isJoin then "(" ++ (right.textInOrder ++ ")") else right.textInOrder)))

theorem text_eq_textInOrder (r : Rule) : r.text = r.textInOrder := by
  induction r with
  | condition c => exact text_condition c
  | join op left right ihLeft ihRight => rw [text_join, ihLeft, ihRight, textInOrder]

end Rule

/-- Connectives that have been passed on the way down, each with its right operand, the last one
first. -/
abbrev Spine := List (Connective × Rule)

/-- A state of the writing of a rule. The spines of the rules in whose parentheses it stands are
kept, the innermost one first. -/
inductive Writing where
  /-- The left operands of a rule are followed down. -/
  | down (r : Rule) (spine : Spine) (outer : List Spine) (text : String)
  /-- The spine is written. -/
  | up (spine : Spine) (outer : List Spine) (text : String)
deriving DecidableEq, Repr

namespace Writing

/-- Passes a join on the way down, turns at the leftmost condition, and then writes the operands
of the spine. Before an operand in parentheses the spine is put aside, and it is taken up again
when the parenthesis is closed. -/
def step : Writing → Option Writing
  | down (.join op left right) spine outer text =>
    some (down left ((op, right) :: spine) outer text)
  | down (.condition c) spine outer text => some (up spine outer (text ++ c.text))
  | up ((op, .condition c) :: spine) outer text =>
    some (up spine outer (text ++ (" " ++ (op.word ++ (" " ++ c.text)))))
  | up ((op, .join op' left right) :: spine) outer text =>
    some (down (.join op' left right) [] (spine :: outer)
      (text ++ (" " ++ (op.word ++ (" " ++ "(")))))
  | up [] (spine :: outer) text => some (up spine outer (text ++ ")"))
  | up [] [] _ => none

/-! ### What is still to be written -/

/-- A connective and its right operand. -/
def operandText (operand : Connective × Rule) : String :=
  " " ++ (operand.1.word ++ (" " ++
    if operand.2.isJoin then "(" ++ (operand.2.text ++ ")") else operand.2.text))

/-- The operands of a spine. -/
def spineText : Spine → String
  | [] => ""
  | operand :: spine => operandText operand ++ spineText spine

/-- The spines put aside, each after the parenthesis that it waits for. -/
def outerText : List Spine → String
  | [] => ""
  | spine :: outer => ")" ++ (spineText spine ++ outerText outer)

/-- The whole text, what is written and what is still to come. -/
def outcome : Writing → String
  | down r spine outer text => text ++ (r.text ++ (spineText spine ++ outerText outer))
  | up spine outer text => text ++ (spineText spine ++ outerText outer)

theorem operandText_condition (op : Connective) (c : Condition) :
    operandText (op, .condition c) = " " ++ (op.word ++ (" " ++ c.text)) := by
  rw [operandText, Rule.isJoin, if_neg Bool.false_ne_true, Rule.text_condition]

theorem operandText_join (op op' : Connective) (left right : Rule) :
    operandText (op, .join op' left right) =
      " " ++ (op.word ++ (" " ++ ("(" ++ ((Rule.join op' left right).text ++ ")")))) := by
  rw [operandText, Rule.isJoin, if_pos rfl]

/-! ### The steps still to be taken -/

/-- One for each condition and each join, and two for each pair of parentheses. -/
def ruleSteps (r : Rule) : Nat :=
  r.size + 2 * r.rightJoins

def operandSteps (operand : Connective × Rule) : Nat :=
  ruleSteps operand.2 + if operand.2.isJoin then 2 else 0

def spineSteps : Spine → Nat
  | [] => 0
  | operand :: spine => operandSteps operand + spineSteps spine

def outerSteps : List Spine → Nat
  | [] => 0
  | spine :: outer => spineSteps spine + outerSteps outer + 1

def remaining : Writing → Nat
  | down r spine outer _ => ruleSteps r + spineSteps spine + outerSteps outer
  | up spine outer _ => spineSteps spine + outerSteps outer

theorem ruleSteps_condition (c : Condition) : ruleSteps (.condition c) = 1 := rfl

theorem ruleSteps_join (op : Connective) (left right : Rule) :
    ruleSteps (.join op left right) = ruleSteps left + operandSteps (op, right) + 1 := by
  simp only [ruleSteps, operandSteps, Rule.size, Rule.rightJoins]
  split <;> omega

theorem operandSteps_condition (op : Connective) (c : Condition) :
    operandSteps (op, .condition c) = 1 := rfl

theorem operandSteps_join (op op' : Connective) (left right : Rule) :
    operandSteps (op, .join op' left right) = ruleSteps (.join op' left right) + 2 := rfl

/-! ### The loop -/

theorem exists_eq_up {s : Writing} (h : step s = none) : ∃ text, s = up [] [] text := by
  cases s with
  | down r spine outer text => cases r <;> cases h
  | up spine outer text =>
      cases spine with
      | nil =>
          cases outer with
          | nil => exact ⟨text, rfl⟩
          | cons spine outer => cases h
      | cons operand spine =>
          obtain ⟨op, right⟩ := operand
          cases right <;> cases h

theorem advances_down {r : Rule} {spine : Spine} {outer : List Spine} {text : String}
    {t : Writing} (h : step (down r spine outer text) = some t) :
    remaining (down r spine outer text) = remaining t + 1 ∧
      outcome t = outcome (down r spine outer text) := by
  cases r with
  | condition c =>
      cases h
      constructor
      · simp only [remaining, ruleSteps_condition]
        omega
      · simp only [outcome, Rule.text_condition, String.append_assoc]
  | join op left right =>
      cases h
      -- The join is its left operand with one more operand behind it, the one put on the spine.
      have joined : (Rule.join op left right).text = left.text ++ operandText (op, right) :=
        Rule.text_join op left right
      constructor
      · simp only [remaining, ruleSteps_join, spineSteps]
        omega
      · simp only [outcome, spineText, joined, String.append_assoc]

theorem advances_up {spine : Spine} {outer : List Spine} {text : String}
    {t : Writing} (h : step (up spine outer text) = some t) :
    remaining (up spine outer text) = remaining t + 1 ∧
      outcome t = outcome (up spine outer text) := by
  cases spine with
  | nil =>
      cases outer with
      | nil => cases h
      | cons spine outer =>
          cases h
          constructor
          · simp only [remaining, spineSteps, outerSteps]
            omega
          · simp only [outcome, spineText, outerText, String.append_assoc, String.empty_append]
  | cons operand spine =>
      obtain ⟨op, right⟩ := operand
      cases right with
      | condition c =>
          cases h
          constructor
          · simp only [remaining, spineSteps, operandSteps_condition]
            omega
          · simp only [outcome, spineText, operandText_condition, String.append_assoc]
      | join op' left right =>
          cases h
          constructor
          · simp only [remaining, spineSteps, operandSteps_join, outerSteps]
            omega
          · simp only [outcome, spineText, operandText_join, outerText, String.append_assoc,
              String.empty_append]

theorem advances : Advances step remaining outcome where
  remaining_eq_zero h := by
    obtain ⟨text, rfl⟩ := exists_eq_up h
    rfl
  of_step {s t} h := by
    cases s with
    | down r spine outer text => exact advances_down h
    | up spine outer text => exact advances_up h

/-- The writing puts the text of the rule behind what has been written before. -/
theorem endsAfter_text (r : Rule) (before : String) :
    EndsAfter step (r.size + 2 * r.rightJoins) (down r [] [] before)
      (up [] [] (before ++ r.text)) := by
  obtain ⟨t, walk, houtcome⟩ := advances.exists_endsAfter (down r [] [] before)
  obtain ⟨text, rfl⟩ := exists_eq_up walk.ends
  have htext : text = before ++ r.text := by
    simpa [outcome, spineText, outerText] using houtcome
  rw [← htext]
  exact walk

end Writing

namespace Rule

/-- The two walks over a rule end. The search for its conditions takes one step for each condition
and each join; the writing takes two more for each right operand in parentheses. The conditions are
those at the places of the rule, each place once and from left to right, and they and the text
follow the recursion on the rule. -/
theorem walks_end_with_leaves_and_text (r : Rule) :
    EndsAfter Listing.step r.size ⟨[r], []⟩ ⟨[], r.leaves⟩ ∧
      r.leaves = r.inOrder ∧
      r.leaves = r.places.map Leaf.condition ∧
      (∀ leaf : r.Leaf, leaf ∈ r.places) ∧ r.places.Nodup ∧ r.places.Pairwise Leaf.Before ∧
      (∀ before, EndsAfter Writing.step (r.size + 2 * r.rightJoins) (.down r [] [] before)
        (.up [] [] (before ++ r.text))) ∧
      r.text = r.textInOrder :=
  ⟨Listing.endsAfter_leaves r, r.leaves_eq_inOrder, r.leaves_eq_map_places, mem_places,
    r.nodup_places, r.pairwise_before_places, Writing.endsAfter_text r, r.text_eq_textInOrder⟩

end Rule

end Eligibility
