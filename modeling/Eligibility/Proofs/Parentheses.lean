import Eligibility.Proofs.Limits

/-!
# The parentheses of a rule

A rule may be spelled with parentheses that it does not need. All of its spellings have the same
conditions and connectives in the same order (`Rule.yield`), and none of them has fewer
parentheses than joins that are right operands (`Rule.rightJoins`), or nests them less deep. The
text that a rule is written as needs no more than that, so it meets every limit on conditions
and on nesting that some spelling of the rule meets.
-/

namespace Eligibility

/-! ## What all derivations of a rule have in common -/

/-- A token that is no parenthesis. -/
def Token.isPlain : Token → Bool
  | opening => false
  | closing => false
  | _ => true

namespace Rule

/-- The conditions of a rule from left to right, with the connectives between them. -/
def yield : Rule → List Token
  | condition c => [.condition c]
  | join op left right => left.yield ++ .connective op :: right.yield

/-- The number of joins that are right operands. -/
def rightJoins : Rule → Nat
  | condition _ => 0
  | join _ left right =>
    left.rightJoins + (right.rightJoins + if right.isJoin then 1 else 0)

end Rule

mutual

theorem Operand.filter_tokens :
    ∀ operand : Operand, operand.tokens.filter Token.isPlain = operand.rule.yield
  | .condition c => rfl
  | .group inner => by
      rw [Operand.tokens, List.filter_cons_of_neg (by decide), List.filter_append,
        inner.filter_tokens, Operand.rule]
      exact List.append_nil _

/-- Without its parentheses a derivation is the conditions and connectives of its rule. -/
theorem Expression.filter_tokens :
    ∀ e : Expression, e.tokens.filter Token.isPlain = e.rule.yield
  | .chain first rest => by
      rw [Expression.tokens, List.filter_append, first.filter_tokens, Expression.rule,
        yield_joinRest]

theorem yield_joinRest :
    ∀ (done : Rule) (rest : List (Connective × Operand)),
      (joinRest done rest).yield = done.yield ++ (tokensOfRest rest).filter Token.isPlain
  | done, [] => by
      rw [joinRest, tokensOfRest, List.filter_nil, List.append_nil]
  | done, (op, operand) :: rest => by
      rw [joinRest, yield_joinRest, Rule.yield, tokensOfRest, List.filter_cons_of_pos rfl,
        List.filter_append, operand.filter_tokens, List.append_assoc, List.cons_append]

end

mutual

/-- A join stands in parentheses of its own where it is an operand. -/
theorem Operand.rightJoins_rule_le :
    ∀ operand : Operand,
      (operand.rule.rightJoins + if operand.rule.isJoin then 1 else 0) ≤
        operand.tokens.count .opening
  | .condition c => Nat.zero_le _
  | .group inner => by
      have bound := inner.rightJoins_rule_le
      rw [Operand.rule, Operand.tokens, List.count_cons_self, List.count_append]
      split <;> omega

/-- A derivation has a parenthesis for each join of its rule that is a right operand. -/
theorem Expression.rightJoins_rule_le :
    ∀ e : Expression, e.rule.rightJoins ≤ e.tokens.count .opening
  | .chain first rest => by
      have bound := first.rightJoins_rule_le
      have whole := rightJoins_joinRest_le first.rule rest
      rw [Expression.rule, Expression.tokens, List.count_append]
      omega

theorem rightJoins_joinRest_le :
    ∀ (done : Rule) (rest : List (Connective × Operand)),
      (joinRest done rest).rightJoins ≤
        done.rightJoins + (tokensOfRest rest).count .opening
  | done, [] => Nat.le_refl _
  | done, (op, operand) :: rest => by
      have bound := operand.rightJoins_rule_le
      have whole := rightJoins_joinRest_le (.join op done operand.rule) rest
      rw [Rule.rightJoins] at whole
      rw [joinRest, tokensOfRest, List.count_cons_of_ne (by simp), List.count_append]
      omega

end

/-- The derivation that the text of a rule spells has no parentheses but these. -/
theorem Rule.count_opening_derivation (r : Rule) :
    r.derivation.tokens.count .opening = r.rightJoins := by
  induction r with
  | condition c => rfl
  | join op left right ihLeft ihRight =>
      rw [derivation_join, Expression.tokens_snoc, List.count_append,
        List.count_cons_of_ne (by simp), ihLeft, rightJoins]
      cases right with
      | condition c => rfl
      | join op' left' right' =>
          rw [asOperand, Operand.tokens, List.count_cons_self, List.count_append, ihRight]
          rfl

/-- Tokens nest as deep as the derivation that they have. -/
theorem nestingOf_eq_nesting {e : Expression} {placed : List PlacedToken}
    (h : e.tokens = placed.map (·.token)) : nestingOf placed = e.nesting := by
  have read : Rule.ofTokens e.nesting 0 placed = .ok e.rule :=
    Rule.ofTokens_eq_ok_of_tokens h.symm (Nat.le_refl _)
  apply Nat.le_antisymm
  · rcases Rule.ofTokens_eq_or_opensBeyond read with ⟨flat, -⟩ | ⟨next, -, herror⟩
    · exact flat
    · cases read.symm.trans herror
  · rcases @Rule.ofTokens_eq_or_opensBeyond (nestingOf placed) _ _ _ _ read with
      ⟨-, read'⟩ | ⟨next, beyond, -⟩
    · obtain ⟨e', htokens, flat, -⟩ := Rule.exists_tokens_of_ofTokens_eq_ok read'
      rwa [Expression.tokens_injective (h.trans htokens.symm)]
    · exact absurd beyond.lt_nestingFrom (Nat.lt_irrefl _)

/-! ## Parentheses in texts -/

/-- No parenthesis stands in a word that is none. -/
theorem count_opening_of_isWordChar {text : List Char} (chars : ∀ c ∈ text, isWordChar c = true) :
    text.count '(' = 0 := by
  rw [List.count_eq_zero]
  intro mem
  exact absurd (chars _ mem) (by decide)

theorem count_opening_of_isBlank {gap : List Char} (blank : ∀ c ∈ gap, isBlank c = true) :
    gap.count '(' = 0 := by
  rw [List.count_eq_zero]
  intro mem
  exact absurd (blank _ mem) (by decide)

/-- The parentheses of a layout are those of its words. -/
theorem Layout.count_opening {position : Nat} {text : List Char} {words : List Word}
    (laid : Layout position text words) :
    text.count '(' = (words.flatMap (·.text)).count '(' := by
  induction laid with
  | nil => rfl
  | @cons position text gap rest later blank apart laid ih =>
      rw [List.count_append, List.count_append, count_opening_of_isBlank blank, ih,
        List.flatMap_cons, List.count_append, Nat.zero_add]

/-- The parentheses of words are those of the tokens that they spell. -/
theorem Spelling.count_opening {words : List Word} {placed : List PlacedToken}
    (spelling : Spelling words placed) :
    (words.flatMap (·.text)).count '(' = (placed.map (·.token)).count .opening := by
  induction spelling with
  | nil => rfl
  | opening later ih =>
      rw [List.flatMap_cons, List.map_cons, List.singleton_append, List.count_cons_self,
        List.count_cons_self, ih]
  | closing later ih =>
      rw [List.flatMap_cons, List.map_cons, List.count_append,
        List.count_cons_of_ne (by decide), ih]
      exact Nat.zero_add _
  | connective op later ih =>
      rw [List.flatMap_cons, List.map_cons, List.count_append,
        count_opening_of_isWordChar (isWordChar_of_mem_word op),
        List.count_cons_of_ne (by simp), ih, Nat.zero_add]
  | condition c identifier notConnective spelled later ih =>
      have field := isIdentifierRest_of_mem (isIdentifier_iff.2 identifier)
      rw [List.flatMap_cons, List.flatMap_cons, List.flatMap_cons, List.map_cons,
        List.count_append, List.count_append, List.count_append,
        count_opening_of_isWordChar fun a ha => isWordChar_of_isIdentifierRest (field a ha),
        count_opening_of_isWordChar (isWordChar_of_mem_symbol _),
        count_opening_of_isWordChar spelled.isWordChar,
        List.count_cons_of_ne (by simp), ih, Nat.zero_add, Nat.zero_add, Nat.zero_add]

/-- A text opens the parentheses that its tokens open. -/
theorem count_opening_of_tokenize {text : String} {placed : List PlacedToken}
    (h : tokenize text = .ok placed) :
    text.toList.count '(' = (placed.map (·.token)).count .opening := by
  obtain ⟨words, ⟨gap, rest, blank, split, laid⟩, spelling⟩ := (tokenize_eq_ok_iff _ _).1 h
  rw [split, List.count_append, count_opening_of_isBlank blank, laid.count_opening,
    spelling.count_opening, Nat.zero_add]

/-- The conditions among tokens are found without their parentheses. -/
theorem conditionCount_eq_countP (placed : List PlacedToken) :
    conditionCount placed =
      ((placed.map (·.token)).filter Token.isPlain).countP Token.isCondition := by
  have plain : ∀ token : Token, (token.isCondition && token.isPlain) = token.isCondition := by
    intro token
    cases token <;> rfl
  rw [List.countP_filter, List.countP_map, conditionCount]
  simp only [plain, Function.comp_def]

namespace Rule

/-- Of all texts that are read as some rule, the one that the rule is written as has the fewest
parentheses and nests them the least. It has the conditions and connectives of every other one
in the same order, so it is read back wherever it is not too long: under the limits on
conditions and on nesting that the other text meets it cannot fail. -/
theorem tokenize_text_of_ofText (config : Config) (text : String) (r : Rule)
    (h : ofText config text = .ok r) :
    ∃ placed rendered : List PlacedToken,
      tokenize text = .ok placed ∧ tokenize r.text = .ok rendered ∧
      (rendered.map (·.token)).filter Token.isPlain =
        (placed.map (·.token)).filter Token.isPlain ∧
      r.text.toList.count '(' ≤ text.toList.count '(' ∧
      nestingOf rendered ≤ nestingOf placed ∧
      conditionCount rendered = conditionCount placed ∧
      ∀ length, r.text.utf8ByteSize ≤ length →
        ofText { config with maxLength := length } r.text = .ok r := by
  obtain ⟨-, placed, e, htokens, hspelled, rfl, -⟩ := ofText_eq_ok_iff.1 h
  obtain ⟨expressible, conditions, nesting⟩ := fits_of_ofText h
  obtain ⟨rendered, hderived, hrendered⟩ := (spells_text expressible).tokenize
  have plain : (rendered.map (·.token)).filter Token.isPlain =
      (placed.map (·.token)).filter Token.isPlain := by
    rw [hderived, Expression.filter_tokens, rule_derivation, ← hspelled, e.filter_tokens]
  refine ⟨placed, rendered, htokens, hrendered, plain, ?_, ?_, ?_, ?_⟩
  · rw [count_opening_of_tokenize hrendered, count_opening_of_tokenize htokens, hderived,
      count_opening_derivation, ← hspelled]
    exact e.rightJoins_rule_le
  · rw [nestingOf_eq_nesting hderived.symm, nestingOf_eq_nesting hspelled, nesting_derivation]
    exact e.rightNesting_rule_le
  · rw [conditionCount_eq_countP, plain, ← conditionCount_eq_countP]
  · intro length short
    exact Fits.ofText_text ⟨expressible, conditions, nesting⟩ short

/-- A spelling of `spaced` with three parentheses too many. -/
def overdone : String :=
  "((a > 1) AND((b > 2 OR c > 3)))"

theorem tokenize_text_of_ofText_overdone :
    ofText {} overdone = .ok spaced ∧ overdone.toList.count '(' = 4 ∧
      spaced.text.toList.count '(' = 1 ∧
      ∃ placed rendered : List PlacedToken,
        tokenize overdone = .ok placed ∧ tokenize spaced.text = .ok rendered ∧
        nestingOf placed = 3 ∧ nestingOf rendered = 1 ∧
        (rendered.map (·.token)).filter Token.isPlain =
          (placed.map (·.token)).filter Token.isPlain := by
  have read : ofText {} overdone = .ok spaced := by decide +kernel
  obtain ⟨placed, rendered, htokens, hrendered, plain, -⟩ := tokenize_text_of_ofText _ _ _ read
  have deep : (tokenize overdone).map nestingOf = .ok 3 := by decide +kernel
  have flat : (tokenize spaced.text).map nestingOf = .ok 1 := by decide +kernel
  rw [htokens] at deep
  rw [hrendered] at flat
  exact ⟨read, by decide +kernel, by decide +kernel, placed, rendered, htokens, hrendered,
    Except.ok.inj deep, Except.ok.inj flat, plain⟩

end Rule

end Eligibility
