import Eligibility.Combination
import Eligibility.Proofs.Outcome
import Mathlib.Control.Monad.Basic

/-!
# Texts that are left out

Texts that are combined fall into two parts: the rules among them, in order (`accepted`),
and those that are none, each with its place and what is wrong with it (`rejections`). The
outcome is that of combining the one part, and the other part is what a combination reports.

So a text that is no rule has no influence on the others, wherever it stands: it is reported,
and the texts after it stand one place further on.
-/

namespace Eligibility

/-- The rejection of the same text one place further on. -/
def Rejection.later (y : Rejection) : Rejection :=
  { y with index := y.index + 1 }

namespace Combination

variable {config : Config}

/-! ## The two parts -/

/-- The rules among the texts. -/
def accepted (config : Config) (texts : List String) : List Rule :=
  texts.filterMap fun text => (Rule.ofText config text).toOption

/-- The rejection of a text at a place, if it is no rule. -/
def rejection? (config : Config) (placed : String × Nat) : Option Rejection :=
  match Rule.ofText config placed.1 with
  | .ok _ => none
  | .error e => some ⟨placed.2, placed.1, e⟩

/-- The rejections of the texts that are no rules; the first text has the place `index`. -/
def rejectionsFrom (config : Config) (index : Nat) (texts : List String) : List Rejection :=
  (texts.zipIdx index).filterMap (rejection? config)

/-- The rejections of the texts that are no rules, with the places counted from zero. -/
def rejections (config : Config) (texts : List String) : List Rejection :=
  rejectionsFrom config 0 texts

theorem accepted_cons (config : Config) (text : String) (texts : List String) :
    accepted config (text :: texts) =
      match Rule.ofText config text with
      | .ok r => r :: accepted config texts
      | .error _ => accepted config texts := by
  rw [accepted, List.filterMap_cons]
  cases Rule.ofText config text <;> rfl

theorem accepted_append (config : Config) (first second : List String) :
    accepted config (first ++ second) = accepted config first ++ accepted config second :=
  List.filterMap_append

theorem rejectionsFrom_cons (config : Config) (index : Nat) (text : String)
    (texts : List String) :
    rejectionsFrom config index (text :: texts) =
      match Rule.ofText config text with
      | .ok _ => rejectionsFrom config (index + 1) texts
      | .error e => ⟨index, text, e⟩ :: rejectionsFrom config (index + 1) texts := by
  rw [rejectionsFrom, List.zipIdx_cons, List.filterMap_cons, rejection?]
  cases Rule.ofText config text <;> rfl

theorem sort_eq (config : Config) (index : Nat) (texts : List String) :
    sort config index texts = (accepted config texts, rejectionsFrom config index texts) := by
  induction texts generalizing index with
  | nil => rfl
  | cons text texts ih =>
      rw [sort, ih, accepted_cons, rejectionsFrom_cons]
      cases Rule.ofText config text <;> rfl

theorem mem_accepted_iff {texts : List String} {r : Rule} :
    r ∈ accepted config texts ↔ ∃ text ∈ texts, Rule.ofText config text = .ok r := by
  rw [accepted, List.mem_filterMap]
  refine exists_congr fun text => and_congr_right fun _ => ?_
  cases Rule.ofText config text <;> simp [Except.toOption]

theorem rejection?_eq_some_iff {placed : String × Nat} {y : Rejection} :
    rejection? config placed = some y ↔
      placed = (y.text, y.index) ∧ Rule.ofText config y.text = .error y.error := by
  obtain ⟨text, place⟩ := placed
  obtain ⟨index, text', error⟩ := y
  simp only [rejection?, Prod.mk.injEq]
  constructor
  · intro h
    split at h
    · cases h
    · next e he =>
      cases h
      exact ⟨⟨rfl, rfl⟩, he⟩
  · rintro ⟨⟨rfl, rfl⟩, he⟩
    rw [he]

/-- What is rejected: the text at this place, for this reason. -/
theorem mem_rejectionsFrom_iff {index : Nat} {texts : List String} {y : Rejection} :
    y ∈ rejectionsFrom config index texts ↔
      (index ≤ y.index ∧ texts[y.index - index]? = some y.text) ∧
        Rule.ofText config y.text = .error y.error := by
  simp only [rejectionsFrom, List.mem_filterMap, rejection?_eq_some_iff]
  constructor
  · rintro ⟨_, hmem, rfl, he⟩
    exact ⟨List.mk_mem_zipIdx_iff_le_and_getElem?_sub.1 hmem, he⟩
  · rintro ⟨hmem, he⟩
    exact ⟨_, List.mk_mem_zipIdx_iff_le_and_getElem?_sub.2 hmem, rfl, he⟩

/-- No place is reported twice, and the places are reported in order. -/
theorem pairwise_rejectionsFrom (config : Config) (index : Nat) (texts : List String) :
    (rejectionsFrom config index texts).Pairwise (·.index < ·.index) := by
  have places : (texts.zipIdx index).Pairwise (·.2 < ·.2) := by
    rw [← List.pairwise_map, List.zipIdx_map_snd]
    exact List.pairwise_lt_range'
  refine places.filterMap _ ?_
  rintro placed placed' lt y hy y' hy'
  obtain ⟨rfl, -⟩ := rejection?_eq_some_iff.1 hy
  obtain ⟨rfl, -⟩ := rejection?_eq_some_iff.1 hy'
  exact lt

theorem rejectionsFrom_append (config : Config) (index : Nat) (first second : List String) :
    rejectionsFrom config index (first ++ second) =
      rejectionsFrom config index first ++
        rejectionsFrom config (index + first.length) second := by
  rw [rejectionsFrom, List.zipIdx_append, List.filterMap_append]
  rfl

theorem rejectionsFrom_succ (config : Config) (index : Nat) (texts : List String) :
    rejectionsFrom config (index + 1) texts =
      (rejectionsFrom config index texts).map Rejection.later := by
  induction texts generalizing index with
  | nil => rfl
  | cons text texts ih =>
      rw [rejectionsFrom_cons, rejectionsFrom_cons, ih]
      cases Rule.ofText config text <;> rfl

/-- The outcome of combining texts is that of combining the rules among them. -/
theorem ofTexts_eq (config : Config) (op : Connective) (texts : List String) :
    ofTexts config op texts =
      if texts = [] then .error .noRules
      else if accepted config texts = [] then .error (.allRejected texts.length)
      else (Rule.combine config op (accepted config texts)).map (⟨·, rejections config texts⟩) := by
  simp only [ofTexts, sort_eq, List.isEmpty_iff]
  rfl

theorem ofTexts_eq_ok_iff {op : Connective} {texts : List String} {x : Combination} :
    ofTexts config op texts = .ok x ↔
      Rule.combine config op (accepted config texts) = .ok x.rule ∧
        x.rejected = rejections config texts := by
  rw [ofTexts_eq]
  constructor
  · intro h
    split at h
    · cases h
    · split at h
      · cases h
      · obtain ⟨r, hcombine, rfl⟩ := Except.map_eq_ok_iff.1 h
        exact ⟨hcombine, rfl⟩
  · rintro ⟨hcombine, hrejected⟩
    have some : accepted config texts ≠ [] := by
      intro none
      rw [none] at hcombine
      cases hcombine
    have nonempty : texts ≠ [] := by
      rintro rfl
      exact some rfl
    rw [if_neg nonempty, if_neg some, hcombine, ← hrejected]
    rfl

/-! ## One more text -/

section Insert

variable {before after : List String} {bad : String} {e : RuleError}

theorem accepted_insert (h : Rule.ofText config bad = .error e) :
    accepted config (before ++ bad :: after) = accepted config (before ++ after) := by
  rw [accepted_append, accepted_append, accepted_cons, h]

theorem rejections_insert (h : Rule.ofText config bad = .error e) :
    rejections config (before ++ bad :: after) =
      rejectionsFrom config 0 before ++ ⟨before.length, bad, e⟩ ::
        (rejectionsFrom config before.length after).map Rejection.later := by
  rw [rejections, rejectionsFrom_append, Nat.zero_add, rejectionsFrom_cons, h,
    ← rejectionsFrom_succ]

/-- The rejections of texts before a place and of those from it on. -/
theorem rejections_append_filter (config : Config) (before after : List String) :
    (rejections config (before ++ after)).filter (·.index < before.length) =
        rejectionsFrom config 0 before ∧
      (rejections config (before ++ after)).filter (before.length ≤ ·.index) =
        rejectionsFrom config before.length after := by
  have early : ∀ y ∈ rejectionsFrom config 0 before, y.index < before.length := by
    intro y hy
    obtain ⟨⟨-, found⟩, -⟩ := mem_rejectionsFrom_iff.1 hy
    exact (List.getElem?_eq_some_iff.1 found).1
  have late : ∀ y ∈ rejectionsFrom config before.length after, before.length ≤ y.index :=
    fun y hy => (mem_rejectionsFrom_iff.1 hy).1.1
  rw [rejections, rejectionsFrom_append, Nat.zero_add, List.filter_append, List.filter_append]
  constructor
  · rw [List.filter_eq_self.2 fun y hy => decide_eq_true (early y hy), List.filter_eq_nil_iff.2,
      List.append_nil]
    intro y hy
    simpa using late y hy
  · rw [List.filter_eq_self.2 fun y hy => decide_eq_true (late y hy), List.filter_eq_nil_iff.2,
      List.nil_append]
    intro y hy
    simpa using early y hy

/-- A text that is no rule is reported by a combination and changes nothing else. -/
theorem ofTexts_insert {op : Connective} {x : Combination}
    (hx : ofTexts config op (before ++ after) = .ok x) (h : Rule.ofText config bad = .error e) :
    ofTexts config op (before ++ bad :: after) =
      .ok ⟨x.rule, x.rejected.filter (·.index < before.length) ++ ⟨before.length, bad, e⟩ ::
        (x.rejected.filter (before.length ≤ ·.index)).map Rejection.later⟩ := by
  obtain ⟨hcombine, hrejected⟩ := ofTexts_eq_ok_iff.1 hx
  obtain ⟨early, late⟩ := rejections_append_filter config before after
  refine ofTexts_eq_ok_iff.2 ⟨?_, ?_⟩
  · rwa [accepted_insert h]
  · rw [rejections_insert h, hrejected, early, late]

end Insert

/-- Combining texts is combining the rules among them, if there are any, and reporting the
others: each of them once, in order, with its place and what is wrong with it. One more text
that is no rule is reported too, and makes no other difference than that the texts after it
stand one place further on. -/
theorem ofTexts_eq_combine_accepted (config : Config) (op : Connective) (texts : List String) :
    ofTexts config op texts =
        (if texts = [] then .error .noRules
        else if accepted config texts = [] then .error (.allRejected texts.length)
        else (Rule.combine config op (accepted config texts)).map
          (⟨·, rejections config texts⟩)) ∧
      CombineError.noRules.message = "Empty input: no rules supplied" ∧
      (CombineError.allRejected texts.length).message =
        "Empty input: all " ++ toString texts.length ++ " rules failed to parse" ∧
      (rejections config texts).Pairwise (·.index < ·.index) ∧
      (∀ y, y ∈ rejections config texts ↔
        texts[y.index]? = some y.text ∧ Rule.ofText config y.text = .error y.error) ∧
      ∀ (before after : List String) (bad : String) (e : RuleError) (x : Combination),
        before ++ after = texts → ofTexts config op texts = .ok x →
        Rule.ofText config bad = .error e →
        ofTexts config op (before ++ bad :: after) =
          .ok ⟨x.rule, x.rejected.filter (·.index < before.length) ++ ⟨before.length, bad, e⟩ ::
            (x.rejected.filter (before.length ≤ ·.index)).map Rejection.later⟩ := by
  refine ⟨ofTexts_eq config op texts, rfl, rfl, pairwise_rejectionsFrom config 0 texts, ?_, ?_⟩
  · intro y
    rw [rejections, mem_rejectionsFrom_iff, Nat.sub_zero, and_iff_right y.index.zero_le]
  · rintro before after bad e x rfl hx h
    exact ofTexts_insert hx h

/-- The rejection of a text of one word. -/
def incomplete (index : Nat) (word : String) : Rejection :=
  ⟨index, word, .lex ⟨.incomplete, ⟨word.toList, 0⟩⟩⟩

theorem ofTexts_eq_combine_accepted_unclosed :
    ofTexts {} .and ["a", "b > 2", "c"] =
        .ok ⟨.condition ⟨"b", .gt, .integer 2⟩, [incomplete 0 "a", incomplete 2 "c"]⟩ ∧
      Rule.ofText {} "(d > 4" = .error (.parse ⟨.unclosed, 0⟩) ∧
      ofTexts {} .and ["a", "(d > 4", "b > 2", "c"] =
        .ok ⟨.condition ⟨"b", .gt, .integer 2⟩,
          [incomplete 0 "a", ⟨1, "(d > 4", .parse ⟨.unclosed, 0⟩⟩, incomplete 3 "c"]⟩ := by
  have combined : ofTexts {} .and ["a", "b > 2", "c"] =
      .ok ⟨.condition ⟨"b", .gt, .integer 2⟩, [incomplete 0 "a", incomplete 2 "c"]⟩ := by
    decide +kernel
  have unclosed : Rule.ofText {} "(d > 4" = .error (.parse ⟨.unclosed, 0⟩) := by decide +kernel
  obtain ⟨-, -, -, -, -, insert⟩ := ofTexts_eq_combine_accepted {} .and ["a", "b > 2", "c"]
  exact ⟨combined, unclosed, insert ["a"] ["b > 2", "c"] "(d > 4" _ _ rfl combined unclosed⟩

end Combination

end Eligibility
