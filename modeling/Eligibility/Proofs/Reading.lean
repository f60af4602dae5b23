import Eligibility.Proofs.Grammar
import Eligibility.Proofs.Outcome
import Eligibility.Rule.OfTokens

/-!
# Tokens read as the grammar derives them

`Rule.ofTokens` takes one token at a time and keeps the groups that are open. The
main statement holds it to the grammar: it gives a rule exactly for the tokens
that have a derivation within the limit, and then the rule of the only one.

From left to right, the tokens of a derivation take any progress on to the one
that a completed operand leaves (`Operand.read`). From right to left, whatever
progress is reached has been spelled by derivations (`Progress.Spelled`): one
before each open group, and one at the innermost level.
-/

namespace Eligibility

namespace Progress

/-- The progress after some more tokens. -/
def readAll (limit : Nat) (progress : Progress) (tokens : List PlacedToken) :
    Except ParseError Progress :=
  tokens.foldlM (read limit) progress

theorem readAll_cons {limit : Nat} {progress progress' : Progress} {token : PlacedToken}
    (h : progress.read limit token = .ok progress') (tokens : List PlacedToken) :
    progress.readAll limit (token :: tokens) = progress'.readAll limit tokens := by
  rw [readAll, List.foldlM_cons, h]
  rfl

theorem readAll_cons_eq_ok_iff {limit : Nat} {progress last : Progress} {token : PlacedToken}
    {tokens : List PlacedToken} :
    progress.readAll limit (token :: tokens) = .ok last ↔
      ∃ next, progress.read limit token = .ok next ∧ next.readAll limit tokens = .ok last := by
  rw [readAll, List.foldlM_cons]
  exact Except.bind_eq_ok_iff

theorem readAll_append {limit : Nat} {progress progress' : Progress}
    {tokens : List PlacedToken} (h : progress.readAll limit tokens = .ok progress')
    (later : List PlacedToken) :
    progress.readAll limit (tokens ++ later) = progress'.readAll limit later := by
  rw [readAll] at h
  rw [readAll, List.foldlM_append, h]
  rfl

theorem read_opening {limit : Nat} {groups : List Group} (h : groups.length < limit)
    (before : Option Pending) (position : Nat) :
    (operand groups before).read limit ⟨.opening, position⟩ =
      .ok (operand (⟨position, before⟩ :: groups) none) := by
  rw [read, if_pos h]

/-- A token takes one progress to another. -/
inductive Takes (limit : Nat) : Progress → PlacedToken → Progress → Prop where
  | condition {groups : List Group} {before : Option Pending} {c : Condition} {position : Nat} :
      Takes limit (operand groups before) ⟨.condition c, position⟩
        (operator groups (attach before (.condition c)))
  | opening {groups : List Group} {before : Option Pending} {position : Nat}
      (within : groups.length < limit) :
      Takes limit (operand groups before) ⟨.opening, position⟩
        (operand (⟨position, before⟩ :: groups) none)
  | connective {groups : List Group} {done : Rule} {op : Connective} {position : Nat} :
      Takes limit (operator groups done) ⟨.connective op, position⟩
        (operand groups (some ⟨done, op⟩))
  | closing {group : Group} {groups : List Group} {done : Rule} {position : Nat} :
      Takes limit (operator (group :: groups) done) ⟨.closing, position⟩
        (operator groups (attach group.before done))

theorem read_eq_ok_iff {limit : Nat} {progress progress' : Progress} {next : PlacedToken} :
    progress.read limit next = .ok progress' ↔ Takes limit progress next progress' := by
  constructor
  · intro h
    obtain ⟨token, position⟩ := next
    cases progress with
    | operand groups before =>
        cases token with
        | condition c =>
            cases h
            exact .condition
        | opening =>
            by_cases within : groups.length < limit
            · rw [read_opening within] at h
              cases h
              exact .opening within
            · simp [read, within] at h
        | closing => cases before <;> cases groups <;> cases h
        | connective op => cases before <;> cases h
    | operator groups done =>
        cases token with
        | connective op => cases groups <;> cases h <;> exact .connective
        | closing =>
            cases groups with
            | nil => cases h
            | cons group groups =>
                cases h
                exact .closing
        | condition c => cases groups <;> cases h
        | opening => cases groups <;> cases h
  · rintro (_ | within | _ | _)
    · rfl
    · exact read_opening within _ _
    · next groups _ _ _ => cases groups <;> rfl
    · rfl

end Progress

/-! ## Derivations are read -/

mutual

/-- Reading an operand completes it, whatever stands before it. -/
theorem Operand.read (limit : Nat) :
    ∀ (operand : Operand) {placed : List PlacedToken} (groups : List Group)
      (before : Option Pending), placed.map (·.token) = operand.tokens →
      groups.length + operand.nesting ≤ limit →
      (Progress.operand groups before).readAll limit placed =
        .ok (.operator groups (attach before operand.rule))
  | .condition c, placed, groups, before, spelled, _ => by
      obtain ⟨⟨token, position⟩, rest, rfl, rfl, last⟩ := List.map_eq_cons_iff.1 spelled
      obtain rfl := List.map_eq_nil_iff.1 last
      rfl
  | .group inner, placed, groups, before, spelled, within => by
      rw [Operand.nesting] at within
      obtain ⟨⟨token, position⟩, later, rfl, rfl, hlater⟩ := List.map_eq_cons_iff.1 spelled
      obtain ⟨inside, last, rfl, hinside, hlast⟩ := List.map_eq_append_iff.1 hlater
      obtain ⟨⟨token, position'⟩, none, rfl, rfl, hnone⟩ := List.map_eq_cons_iff.1 hlast
      obtain rfl := List.map_eq_nil_iff.1 hnone
      have opened := Progress.read_opening (by omega : groups.length < limit) before position
      have read := inner.read limit (⟨position, before⟩ :: groups) hinside
        (by rw [List.length_cons]; omega)
      rw [Progress.readAll_cons opened, Progress.readAll_append read]
      rfl

/-- Reading an expression at the start of a level completes it. -/
theorem Expression.read (limit : Nat) :
    ∀ (e : Expression) {placed : List PlacedToken} (groups : List Group),
      placed.map (·.token) = e.tokens → groups.length + e.nesting ≤ limit →
      (Progress.operand groups none).readAll limit placed = .ok (.operator groups e.rule)
  | .chain first rest, placed, groups, spelled, within => by
      rw [Expression.nesting] at within
      obtain ⟨front, back, rfl, hfront, hback⟩ := List.map_eq_append_iff.1 spelled
      have read := first.read limit groups none hfront (by omega)
      rw [Progress.readAll_append read]
      exact readRest limit rest groups _ hback (by omega)

/-- Reading further operands joins them to the rule that is done. -/
theorem readRest (limit : Nat) :
    ∀ (rest : List (Connective × Operand)) {placed : List PlacedToken}
      (groups : List Group) (done : Rule), placed.map (·.token) = tokensOfRest rest →
      groups.length + nestingOfRest rest ≤ limit →
      (Progress.operator groups done).readAll limit placed =
        .ok (.operator groups (joinRest done rest))
  | [], placed, groups, done, spelled, _ => by
      obtain rfl := List.map_eq_nil_iff.1 spelled
      rfl
  | (op, operand) :: rest, placed, groups, done, spelled, within => by
      rw [nestingOfRest] at within
      obtain ⟨⟨token, position⟩, later, rfl, rfl, hlater⟩ := List.map_eq_cons_iff.1 spelled
      obtain ⟨front, back, rfl, hfront, hback⟩ := List.map_eq_append_iff.1 hlater
      have joined : (Progress.operator groups done).read limit ⟨.connective op, position⟩ =
          .ok (.operand groups (some ⟨done, op⟩)) := Progress.read_eq_ok_iff.2 .connective
      have read := operand.read limit groups (some ⟨done, op⟩) hfront (by omega)
      rw [Progress.readAll_cons joined, Progress.readAll_append read]
      exact readRest limit rest groups _ hback (by omega)

end

/-! ## What is read has been derived -/

/-- The tokens that spell what stands before an operand, `depth` groups deep. -/
def Spelled (limit depth : Nat) : Option Pending → List Token → Prop
  | none, tokens => tokens = []
  | some pending, tokens =>
      ∃ e : Expression, e.rule = pending.left ∧ depth + e.nesting ≤ limit ∧
        tokens = e.tokens ++ [.connective pending.op]

/-- The tokens that spell the open groups, with all that stands before them. -/
inductive Opened (limit : Nat) : List Group → List Token → Prop where
  | nil : Opened limit [] []
  | cons {group : Group} {groups : List Group} {outer tokens : List Token}
      (opened : Opened limit groups outer)
      (before : Spelled limit groups.length group.before tokens)
      (within : groups.length < limit) :
      Opened limit (group :: groups) (outer ++ tokens ++ [.opening])

/-- No more groups are open than the limit admits. -/
theorem Opened.length_le {limit : Nat} {groups : List Group} {tokens : List Token}
    (opened : Opened limit groups tokens) : groups.length ≤ limit := by
  cases opened with
  | nil => exact Nat.zero_le limit
  | cons opened before within => exact within

namespace Progress

/-- The tokens that lead to a progress. -/
def Reads (limit : Nat) : Progress → List Token → Prop
  | operand groups before, read =>
      ∃ outer tokens, Opened limit groups outer ∧ Spelled limit groups.length before tokens ∧
        read = outer ++ tokens
  | operator groups done, read =>
      ∃ outer, ∃ e : Expression, Opened limit groups outer ∧ e.rule = done ∧
        groups.length + e.nesting ≤ limit ∧ read = outer ++ e.tokens

end Progress

/-- An operand completes the expression of its level. -/
theorem Spelled.attach {limit depth : Nat} {before : Option Pending} {tokens : List Token}
    (spelled : Spelled limit depth before tokens) (operand : Operand)
    (within : depth + operand.nesting ≤ limit) :
    ∃ e : Expression, e.rule = attach before operand.rule ∧ depth + e.nesting ≤ limit ∧
      e.tokens = tokens ++ operand.tokens := by
  cases before with
  | none =>
      obtain rfl := spelled
      refine ⟨.ofOperand operand, rfl, ?_, ?_⟩
      · rwa [Expression.nesting_ofOperand]
      · rw [Expression.tokens_ofOperand, List.nil_append]
  | some pending =>
      obtain ⟨e, hrule, hnesting, rfl⟩ := spelled
      refine ⟨e.snoc pending.op operand, ?_, ?_, ?_⟩
      · rw [Expression.rule_snoc, hrule, Eligibility.attach]
      · rw [Expression.nesting_snoc]
        omega
      · rw [Expression.tokens_snoc, List.append_assoc, List.singleton_append]

namespace Progress

/-- One more token is one more token of a derivation. -/
theorem Reads.step {limit : Nat} {progress progress' : Progress} {read : List Token}
    {next : PlacedToken} (reads : progress.Reads limit read)
    (h : progress.read limit next = .ok progress') :
    progress'.Reads limit (read ++ [next.token]) := by
  cases read_eq_ok_iff.1 h with
  | @condition groups before c =>
      obtain ⟨outer, tokens, opened, spelled, rfl⟩ := reads
      obtain ⟨e, hrule, hnesting, htokens⟩ := spelled.attach (.condition c) opened.length_le
      refine ⟨outer, e, opened, hrule, hnesting, ?_⟩
      rw [htokens, Operand.tokens, List.append_assoc]
  | opening within =>
      obtain ⟨outer, tokens, opened, spelled, rfl⟩ := reads
      exact ⟨_, [], .cons opened spelled within, rfl, (List.append_nil _).symm⟩
  | @connective groups done op =>
      obtain ⟨outer, e, opened, rfl, hnesting, rfl⟩ := reads
      refine ⟨outer, e.tokens ++ [.connective op], opened, ⟨e, rfl, hnesting, rfl⟩, ?_⟩
      rw [List.append_assoc]
  | @closing group groups =>
      obtain ⟨outer, e, opened, rfl, hnesting, rfl⟩ := reads
      cases opened with
      | @cons group groups outer tokens opened before within =>
          rw [List.length_cons] at hnesting
          have hnesting : groups.length + (Operand.group e).nesting ≤ limit := by
            rw [Operand.nesting]
            omega
          obtain ⟨e', hrule, hnesting', htokens⟩ := before.attach (.group e) hnesting
          refine ⟨outer, e', opened, hrule, hnesting', ?_⟩
          rw [htokens, Operand.tokens]
          simp only [List.append_assoc, List.cons_append, List.nil_append]

/-- What a run of tokens leads to has been spelled by them. -/
theorem Reads.readAll {limit : Nat} {progress progress' : Progress} {read : List Token}
    {tokens : List PlacedToken} (reads : progress.Reads limit read)
    (h : progress.readAll limit tokens = .ok progress') :
    progress'.Reads limit (read ++ tokens.map (·.token)) := by
  induction tokens generalizing progress read with
  | nil =>
      cases h
      rwa [List.map_nil, List.append_nil]
  | cons token tokens ih =>
      obtain ⟨next, hstep, hnext⟩ := readAll_cons_eq_ok_iff.1 h
      have reads := ih (reads.step hstep) hnext
      rwa [List.append_assoc, List.singleton_append] at reads

theorem reads_start (limit : Nat) : start.Reads limit [] :=
  ⟨[], [], .nil, rfl, rfl⟩

/-- Only a completed expression with no group open is a rule. -/
theorem finish_eq_ok_iff {stop : Nat} {progress : Progress} {r : Rule} :
    progress.finish stop = .ok r ↔ progress = operator [] r := by
  constructor
  · intro h
    cases progress with
    | operand groups before => cases before <;> cases groups <;> cases h
    | operator groups done =>
        cases groups with
        | nil =>
            cases h
            rfl
        | cons group groups => cases h
  · rintro rfl
    rfl

end Progress

/-- The tokens of a derivation within the limit make up its rule. -/
theorem Rule.ofTokens_eq_ok_of_tokens {limit stop : Nat} {placed : List PlacedToken}
    {e : Expression} (spelled : placed.map (·.token) = e.tokens) (within : e.nesting ≤ limit) :
    Rule.ofTokens limit stop placed = .ok e.rule := by
  have read := e.read limit [] spelled (by simpa using within)
  rw [Rule.ofTokens]
  change (Progress.start.readAll limit placed).bind _ = _
  rw [Progress.start, read]
  rfl

/-- Tokens that make up a rule have a derivation within the limit. -/
theorem Rule.exists_tokens_of_ofTokens_eq_ok {limit stop : Nat} {placed : List PlacedToken}
    {r : Rule} (h : Rule.ofTokens limit stop placed = .ok r) :
    ∃ e : Expression, e.tokens = placed.map (·.token) ∧ e.nesting ≤ limit ∧ e.rule = r := by
  change (Progress.start.readAll limit placed).bind _ = _ at h
  cases hread : Progress.start.readAll limit placed with
  | error e =>
      rw [hread] at h
      cases h
  | ok progress =>
      rw [hread] at h
      obtain rfl := Progress.finish_eq_ok_iff.1 h
      obtain ⟨outer, e, opened, hrule, hnesting, htokens⟩ :=
        (Progress.reads_start limit).readAll hread
      cases opened
      refine ⟨e, ?_, ?_, hrule⟩
      · simpa using htokens.symm
      · simpa using hnesting

/-- Tokens make up a rule exactly when the grammar derives them with parentheses
nested no deeper than the limit. The derivation is the only one, and the rule is
the one that it stands for: operands are joined from the left whatever the
connectives between them. -/
theorem Rule.ofTokens_eq_ok_iff (limit stop : Nat) (placed : List PlacedToken) :
    (∀ r : Rule, Rule.ofTokens limit stop placed = .ok r ↔
      ∃ e : Expression, e.tokens = placed.map (·.token) ∧ e.nesting ≤ limit ∧ e.rule = r) ∧
    (∀ e e' : Expression, e.tokens = placed.map (·.token) →
      e'.tokens = placed.map (·.token) → e = e') ∧
    ∀ (first : Operand) (rest : List (Connective × Operand)),
      (Expression.chain first rest).rule =
        rest.foldl (fun done next => .join next.1 done next.2.rule) first.rule := by
  refine ⟨?_, ?_, Expression.rule_chain⟩
  · intro r
    constructor
    · exact Rule.exists_tokens_of_ofTokens_eq_ok
    · rintro ⟨e, htokens, hnesting, rfl⟩
      exact Rule.ofTokens_eq_ok_of_tokens htokens.symm hnesting
  · intro e e' htokens htokens'
    exact Expression.tokens_injective (htokens.trans htokens'.symm)

end Eligibility
