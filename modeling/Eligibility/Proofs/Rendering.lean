import Eligibility.Proofs.Layout
import Eligibility.Proofs.Reading
import Eligibility.Proofs.Rejections

/-!
# Rules read back from their text

`Rule.derivation` is the derivation that the text of a rule spells: it follows the
left operands and puts a right operand in parentheses only if that is a join. Of
all derivations of the rule it nests the least.

The main statement says when a rule is read back from its text: its conditions
can be expressed, and the text, the conditions and the nesting are within the
limits. A rule that has been read or combined under a configuration meets all but
the limit on the text (`Rule.Fits`), which its text may exceed although the text
it was read from did not.
-/

namespace Eligibility

namespace Rule

/-! ## The derivation that the text spells -/

/-- A derivation of the rule with no parentheses but those that it needs. -/
def derivation : Rule → Expression
  | condition c => .ofOperand (.condition c)
  | join op left right =>
      left.derivation.snoc op <|
        match right with
        | condition c => .condition c
        | join _ _ _ => .group right.derivation

/-- The rule as an operand on the right of a connective. -/
def asOperand (r : Rule) : Operand :=
  match r with
  | condition c => .condition c
  | join _ _ _ => .group r.derivation

theorem derivation_join (op : Connective) (left right : Rule) :
    (join op left right).derivation = left.derivation.snoc op right.asOperand := by
  cases right <;> rfl

theorem rule_asOperand {r : Rule} (h : r.derivation.rule = r) : r.asOperand.rule = r := by
  cases r with
  | condition c => rfl
  | join op left right => rw [asOperand, Operand.rule, h]

/-- The derivation stands for the rule. -/
theorem rule_derivation (r : Rule) : r.derivation.rule = r := by
  induction r with
  | condition c => rfl
  | join op left right ihLeft ihRight =>
      rw [derivation_join, Expression.rule_snoc, ihLeft, rule_asOperand ihRight]

/-- The parentheses of the derivation nest as the joins on the right do. -/
theorem nesting_derivation (r : Rule) : r.derivation.nesting = r.rightNesting := by
  induction r with
  | condition c =>
      rw [derivation, Expression.nesting_ofOperand, Operand.nesting, rightNesting]
  | join op left right ihLeft ihRight =>
      rw [derivation_join, Expression.nesting_snoc, ihLeft, rightNesting]
      cases right with
      | condition c => rfl
      | join op' left' right' =>
          rw [asOperand, Operand.nesting, ihRight]
          rfl

/-! ## The text in front of what is joined to it -/

theorem text_condition (c : Condition) : (condition c).text = c.text := by
  rw [text, piecesBefore, String.join_cons, String.join_nil, String.append_empty]

/-- The text of a join: the left operand, the connective and the right operand, in
parentheses if it is a join. -/
theorem text_join (op : Connective) (left right : Rule) :
    (join op left right).text =
      left.text ++ (" " ++ (op.word ++ (" " ++
        if right.isJoin then "(" ++ (right.text ++ ")") else right.text))) := by
  have before : ∀ (r : Rule) (later : List String),
      String.join (r.piecesBefore later) = r.text ++ String.join later := by
    intro r later
    rw [text, ← String.join_append, ← piecesBefore_append, List.nil_append]
  rw [text, piecesBefore_join, before]
  simp only [String.join_cons]
  split
  · rw [String.join_cons, before, String.join_cons, String.join_nil, String.append_empty]
  · rw [before, String.join_nil, String.append_empty]

theorem spells_asOperand {r : Rule} (h : ∀ c ∈ r.leaves, c.expressible = true)
    (spells : Spells r.text.toList r.derivation.tokens) :
    Spells (if r.isJoin then "(" ++ (r.text ++ ")") else r.text).toList r.asOperand.tokens := by
  cases r with
  | condition c =>
      rw [isJoin, if_neg Bool.false_ne_true, text_condition, asOperand, Operand.tokens]
      exact .condition (h c (by simp))
  | join op left right =>
      rw [isJoin, if_pos rfl, String.toList_append, String.toList_append, asOperand,
        Operand.tokens]
      exact .opening (spells.append .closing fun rest => breaksWord_cons (by decide) _)

/-- The text of a rule whose conditions can be expressed spells its derivation. -/
theorem spells_text {r : Rule} (h : ∀ c ∈ r.leaves, c.expressible = true) :
    Spells r.text.toList r.derivation.tokens := by
  induction r with
  | condition c =>
      rw [text_condition, derivation, Expression.tokens_ofOperand, Operand.tokens]
      exact .condition (h c (by simp))
  | join op left right ihLeft ihRight =>
      simp only [leaves_join, List.mem_append] at h
      have spellsLeft := ihLeft fun c hc => h c (.inl hc)
      have spellsRight := spells_asOperand (fun c hc => h c (.inr hc))
        (ihRight fun c hc => h c (.inr hc))
      have blank : ∀ text : List Char, BreaksWord (' ' :: text) := breaksWord_cons (by decide)
      have spellsLater := ((Spells.connective op).append spellsRight.blank
        fun rest => blank _).blank
      rw [text_join, derivation_join, Expression.tokens_snoc]
      simp only [String.toList_append]
      exact spellsLeft.append spellsLater fun rest => blank _

/-! ## Texts that are rules -/

theorem extraCondition?_eq_none_iff {limit : Nat} {placed : List PlacedToken} :
    extraCondition? limit placed = none ↔
      ((placed.map (·.token)).filterMap Token.condition?).length ≤ limit := by
  have count : ((placed.map (·.token)).filterMap Token.condition?).length =
      (placed.filter (·.token.isCondition)).length := by
    induction placed with
    | nil => rfl
    | cons next placed ih =>
        obtain ⟨token, position⟩ := next
        cases token <;> simp_all [Token.condition?, Token.isCondition, List.filterMap_cons]
  rw [extraCondition?, Option.map_eq_none_iff, List.getElem?_eq_none_iff, count]

/-- A text is a rule when its tokens have a derivation of the rule, and the text,
the conditions and the parentheses are within the limits. -/
theorem ofText_eq_ok_iff {config : Config} {text : String} {r : Rule} :
    ofText config text = .ok r ↔
      text.utf8ByteSize ≤ config.maxLength ∧
        ∃ (placed : List PlacedToken) (e : Expression), tokenize text = .ok placed ∧
          e.tokens = placed.map (·.token) ∧ e.rule = r ∧
          r.leaves.length ≤ config.maxConditions ∧ e.nesting ≤ config.maxNesting := by
  constructor
  · intro h
    rw [ofText] at h
    split at h
    · cases h
    · next short =>
      refine ⟨Nat.le_of_not_lt short, ?_⟩
      cases htokens : tokenize text with
      | error e =>
          rw [htokens] at h
          cases h
      | ok placed =>
          rw [htokens] at h
          dsimp only at h
          split at h
          · cases h
          · next few =>
            obtain ⟨e, hspelled, hnesting, rfl⟩ :=
              exists_tokens_of_ofTokens_eq_ok (Except.mapError_eq_ok_iff.1 h)
            refine ⟨placed, e, rfl, hspelled, rfl, ?_, hnesting⟩
            rw [e.leaves_rule, hspelled]
            exact extraCondition?_eq_none_iff.1 few
  · rintro ⟨short, placed, e, htokens, hspelled, rfl, few, hnesting⟩
    rw [e.leaves_rule, hspelled] at few
    rw [ofText, if_neg (Nat.not_lt_of_le short), htokens]
    simp only [extraCondition?_eq_none_iff.2 few]
    exact Except.mapError_eq_ok_iff.2 (ofTokens_eq_ok_of_tokens hspelled.symm hnesting)

/-! ## Rules that fit a configuration -/

/-- The rule meets every limit but the one on the length of a text, and its
conditions can be expressed. -/
structure Fits (config : Config) (r : Rule) : Prop where
  expressible : ∀ c ∈ r.leaves, c.expressible = true
  conditions : r.leaves.length ≤ config.maxConditions
  nesting : r.rightNesting ≤ config.maxNesting

/-- A rule that is read from a text fits. -/
theorem fits_of_ofText {config : Config} {text : String} {r : Rule}
    (h : ofText config text = .ok r) : r.Fits config := by
  obtain ⟨_, placed, e, htokens, hspelled, rfl, few, hnesting⟩ := ofText_eq_ok_iff.1 h
  refine ⟨?_, few, Nat.le_trans e.rightNesting_rule_le hnesting⟩
  intro c hc
  rw [e.leaves_rule, hspelled] at hc
  obtain ⟨token, htoken, hcondition⟩ := List.mem_filterMap.1 hc
  cases token with
  | condition c' =>
      cases hcondition
      exact expressible_of_tokenize htokens c htoken
  | _ => cases hcondition

/-- A rule that fits is read from its text if that is short enough. -/
theorem Fits.ofText_text {config : Config} {r : Rule} (fits : r.Fits config)
    (short : r.text.utf8ByteSize ≤ config.maxLength) : ofText config r.text = .ok r := by
  obtain ⟨placed, hspelled, htokens⟩ := (spells_text fits.expressible).tokenize
  refine ofText_eq_ok_iff.2
    ⟨short, placed, r.derivation, htokens, hspelled.symm, r.rule_derivation,
      fits.conditions, ?_⟩
  rw [nesting_derivation]
  exact fits.nesting

theorem utf8ByteSize_le_of_ofText {config : Config} {text : String} {r : Rule}
    (h : ofText config text = .ok r) : text.utf8ByteSize ≤ config.maxLength :=
  (ofText_eq_ok_iff.1 h).1

/-- A rule that fits is read from its text exactly if that is short enough. -/
theorem Fits.ofText_text_iff {config : Config} {r : Rule} (fits : r.Fits config) :
    ofText config r.text = .ok r ↔ r.text.utf8ByteSize ≤ config.maxLength :=
  ⟨utf8ByteSize_le_of_ofText, fits.ofText_text⟩

/-- A rule is read back from its text exactly when its conditions can be expressed
and the text, the number of conditions and the nesting of joins on the right are
within the limits. -/
theorem ofText_text_eq_ok_iff (config : Config) (r : Rule) :
    ofText config r.text = .ok r ↔
      (∀ c ∈ r.leaves, c.expressible = true) ∧
        r.text.utf8ByteSize ≤ config.maxLength ∧
        r.leaves.length ≤ config.maxConditions ∧
        r.rightNesting ≤ config.maxNesting := by
  constructor
  · intro h
    obtain ⟨expressible, conditions, nesting⟩ := fits_of_ofText h
    exact ⟨expressible, utf8ByteSize_le_of_ofText h, conditions, nesting⟩
  · rintro ⟨expressible, short, conditions, nesting⟩
    exact Fits.ofText_text ⟨expressible, conditions, nesting⟩ short

/-! ## Combinations fit -/

theorem chain?_cons (op : Connective) (first : Condition) (rest : List Condition) :
    chain? op (first :: rest) =
      some ((rest.map condition).foldl (join op) (condition first)) := by
  rw [chain?, List.foldl_map]

theorem leaves_foldl (op : Connective) (rules : List Rule) (done : Rule) :
    (rules.foldl (join op) done).leaves = done.leaves ++ rules.flatMap leaves := by
  induction rules generalizing done with
  | nil => simp
  | cons r rules ih =>
      rw [List.foldl_cons, ih, leaves_join, List.flatMap_cons, List.append_assoc]

theorem leaves_chain? {op : Connective} {conditions : List Condition} {r : Rule}
    (h : chain? op conditions = some r) : r.leaves = conditions := by
  cases conditions with
  | nil => cases h
  | cons first rest =>
      rw [chain?_cons] at h
      cases h
      rw [leaves_foldl, leaves_condition, List.flatMap_map]
      simp

/-- A chain of conditions nests nothing on the right. -/
theorem rightNesting_chain? {op : Connective} {conditions : List Condition} {r : Rule}
    (h : chain? op conditions = some r) : r.rightNesting = 0 := by
  cases conditions with
  | nil => cases h
  | cons first rest =>
      cases h
      have fold : ∀ done : Rule, done.rightNesting = 0 →
          (rest.foldl (fun done c => join op done (condition c)) done).rightNesting = 0 := by
        induction rest with
        | nil => exact fun done flat => flat
        | cons c rest ih =>
            intro done flat
            refine ih (join op done (condition c)) ?_
            rw [rightNesting, flat]
            rfl
      exact fold (condition first) rfl

theorem combine_eq_ok {config : Config} {op : Connective} {rules : List Rule} {r : Rule}
    (h : combine config op rules = .ok r) :
    (distinctLeaves rules).length ≤ config.maxConditions ∧
      chain? op (distinctLeaves rules) = some r := by
  simp only [combine] at h
  split at h
  · cases h
  · split at h
    · cases h
    · next few =>
      split at h
      · next hchain =>
        cases h
        exact ⟨Nat.le_of_not_lt few, hchain⟩
      · cases h

/-- What is combined of rules that fit fits as well. -/
theorem fits_of_combine {config : Config} {op : Connective} {rules : List Rule} {r : Rule}
    (fits : ∀ r ∈ rules, r.Fits config) (h : combine config op rules = .ok r) :
    r.Fits config := by
  obtain ⟨few, hchain⟩ := combine_eq_ok h
  have hleaves := leaves_chain? hchain
  refine ⟨?_, ?_, ?_⟩
  · intro c hc
    rw [hleaves, distinctLeaves, List.mem_eraseDups] at hc
    obtain ⟨r', hr', hc⟩ := List.mem_flatMap.1 hc
    exact (fits r' hr').expressible c hc
  · rwa [hleaves]
  · rw [rightNesting_chain? hchain]
    exact Nat.zero_le _

end Rule

namespace Combination

/-- The rules that are found among texts are read from them. -/
theorem fits_of_mem_accepted {config : Config} {texts : List String} {r : Rule}
    (h : r ∈ accepted config texts) : r.Fits config := by
  obtain ⟨text, -, hread⟩ := mem_accepted_iff.1 h
  exact Rule.fits_of_ofText hread

/-- A rule that is combined from texts fits. -/
theorem fits_of_ofTexts {config : Config} {op : Connective} {texts : List String}
    {x : Combination} (h : ofTexts config op texts = .ok x) : x.rule.Fits config :=
  Rule.fits_of_combine (fun _ => fits_of_mem_accepted) (ofTexts_eq_ok_iff.1 h).1

end Combination

/-- A text may leave out the blank before the parenthesis. -/
def Rule.spaced : Rule :=
  join .and (condition ⟨"a", .gt, .integer 1⟩)
    (join .or (condition ⟨"b", .gt, .integer 2⟩) (condition ⟨"c", .gt, .integer 3⟩))

/-- Two short rules in one. -/
def Rule.paired : Rule :=
  join .and (condition ⟨"a", .gt, .integer 1⟩) (condition ⟨"b", .gt, .integer 2⟩)

/-- A rule that has been read, or combined, under a configuration is read back from
its text under the same one exactly when its text is within the limit on texts: it
meets all the other limits. -/
theorem Rule.ofText_text_eq_ok_iff_of_read (config : Config) :
    (∀ (text : String) (r : Rule), ofText config text = .ok r →
      (ofText config r.text = .ok r ↔ r.text.utf8ByteSize ≤ config.maxLength)) ∧
    ∀ (op : Connective) (texts : List String) (x : Combination),
      Combination.ofTexts config op texts = .ok x →
      (ofText config x.rule.text = .ok x.rule ↔
        x.rule.text.utf8ByteSize ≤ config.maxLength) := by
  constructor
  · intro text r h
    exact (fits_of_ofText h).ofText_text_iff
  · intro op texts x h
    exact (Combination.fits_of_ofTexts h).ofText_text_iff

theorem Rule.ofText_text_eq_ok_iff_of_read_spaced :
    (ofText {} "a > 1 AND(b > 2 OR c > 3)" = .ok spaced ∧
      (ofText {} spaced.text = .ok spaced ↔ spaced.text.utf8ByteSize ≤ 64 * 1024)) ∧
    (Combination.ofTexts {} .and ["a > 1", "b > 2"] = .ok ⟨paired, []⟩ ∧
      (ofText {} paired.text = .ok paired ↔ paired.text.utf8ByteSize ≤ 64 * 1024)) := by
  have hspaced : ofText {} "a > 1 AND(b > 2 OR c > 3)" = .ok spaced := by decide +kernel
  have hpaired : Combination.ofTexts {} .and ["a > 1", "b > 2"] = .ok ⟨paired, []⟩ := by
    decide +kernel
  exact ⟨⟨hspaced, (ofText_text_eq_ok_iff_of_read {}).1 _ _ hspaced⟩,
    ⟨hpaired, (ofText_text_eq_ok_iff_of_read {}).2 _ _ _ hpaired⟩⟩

/-- A text of 25 bytes leaves out a blank, and the rule is written with 26; two texts
of five bytes each are combined to one of 15. -/
theorem Rule.ofText_text_spaced_eq_error :
    (({ maxLength := 25 } : Config).Valid ∧
      ofText { maxLength := 25 } "a > 1 AND(b > 2 OR c > 3)" = .ok spaced ∧
      ofText { maxLength := 25 } spaced.text = .error (.parse ⟨.tooLong 26 25, 25⟩)) ∧
    (({ maxLength := 14 } : Config).Valid ∧
      Combination.ofTexts { maxLength := 14 } .and ["a > 1", "b > 2"] = .ok ⟨paired, []⟩ ∧
      ofText { maxLength := 14 } paired.text = .error (.parse ⟨.tooLong 15 14, 14⟩)) := by
  refine ⟨⟨⟨by decide, by decide, by decide, by decide⟩, ?_, ?_⟩,
    ⟨⟨by decide, by decide, by decide, by decide⟩, ?_, ?_⟩⟩
  all_goals decide +kernel

end Eligibility
