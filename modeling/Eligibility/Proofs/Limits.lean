import Eligibility.Proofs.Blame
import Eligibility.Proofs.Rendering

/-!
# Limits on rule text

A configuration bounds the bytes of a text, its conditions and the nesting of its
parentheses. The nesting is counted by the reader as it opens and closes groups; on tokens it
is the greatest number of parentheses that are open at a time (`nestingOf`).

Lower limits only reject: what is read under them is read as the same rule under higher ones,
and what is read under higher ones is read under them exactly if it meets each of the three.
Otherwise the first limit that it exceeds, in this order, is reported, with the place at which
it is exceeded.
-/

namespace Eligibility

/-! ## The nesting of parentheses -/

/-- How many parentheses are open at a time, at most, in tokens behind which `opened` are
open. -/
def nestingFrom (opened : List Nat) : List PlacedToken → Nat
  | [] => opened.length
  | next :: later => max opened.length (nestingFrom (openStep opened next) later)

/-- How deep the parentheses of the tokens nest. -/
def nestingOf (placed : List PlacedToken) : Nat :=
  nestingFrom [] placed

theorem length_le_nestingFrom (opened : List Nat) (placed : List PlacedToken) :
    opened.length ≤ nestingFrom opened placed := by
  cases placed with
  | nil => exact Nat.le_refl _
  | cons next later => exact Nat.le_max_left _ _

theorem length_foldl_le_nestingFrom (opened : List Nat) (read later : List PlacedToken) :
    (read.foldl openStep opened).length ≤ nestingFrom opened (read ++ later) := by
  induction read generalizing opened with
  | nil => exact length_le_nestingFrom opened later
  | cons next read ih => exact Nat.le_trans (ih _) (Nat.le_max_right _ _)

/-- The first of the tokens that opens a group beyond `limit`, where `opened` are open
before. -/
def OpensBeyond (limit : Nat) (opened : List Nat) (placed : List PlacedToken)
    (next : PlacedToken) : Prop :=
  ∃ before later, placed = before ++ next :: later ∧ next.token = .opening ∧
    (before.foldl openStep opened).length = limit ∧ nestingFrom opened before ≤ limit

theorem OpensBeyond.lt_nestingFrom {limit : Nat} {opened : List Nat}
    {placed : List PlacedToken} {next : PlacedToken} (h : OpensBeyond limit opened placed next) :
    limit < nestingFrom opened placed := by
  obtain ⟨before, later, rfl, opens, full, -⟩ := h
  have deeper : openStep (before.foldl openStep opened) next =
      next.position :: before.foldl openStep opened := by
    rw [openStep, opens]
  have deep := length_foldl_le_nestingFrom opened (before ++ [next]) later
  rw [List.foldl_append, List.foldl_cons, List.foldl_nil, deeper, List.length_cons, full,
    List.append_assoc] at deep
  exact deep

theorem OpensBeyond.cons {limit : Nat} {opened : List Nat} {token next : PlacedToken}
    {placed : List PlacedToken} (h : OpensBeyond limit (openStep opened token) placed next)
    (within : opened.length ≤ limit) : OpensBeyond limit opened (token :: placed) next := by
  obtain ⟨before, later, rfl, opens, full, first⟩ := h
  exact ⟨token :: before, later, rfl, opens, full, Nat.max_le.2 ⟨within, first⟩⟩

namespace Progress

variable {limit top : Nat}

theorem length_opened (progress : Progress) : progress.opened.length = progress.groups.length :=
  List.length_map _

/-- A token that is read under some limit is read in the same way under another one, unless it
opens a group too many. -/
theorem Takes.takes_or_read_eq_error {progress progress' : Progress} {next : PlacedToken}
    (takes : Takes top progress next progress') (limit : Nat) :
    Takes limit progress next progress' ∨
      (next.token = .opening ∧ limit ≤ progress.groups.length ∧
        progress.read limit next = .error ⟨.tooDeep limit, next.position⟩) := by
  cases takes with
  | condition => exact .inl .condition
  | connective => exact .inl .connective
  | closing => exact .inl .closing
  | @opening groups before position _ =>
      rcases Nat.lt_or_ge groups.length limit with within | deep
      · exact .inl (.opening within)
      · refine .inr ⟨rfl, deep, ?_⟩
        simp only [read, Nat.not_lt_of_le deep, if_false]

theorem Takes.length_groups_le {progress progress' : Progress} {next : PlacedToken}
    (takes : Takes limit progress next progress') (within : progress.groups.length ≤ limit) :
    progress'.groups.length ≤ limit := by
  cases takes with
  | opening deeper => exact deeper
  | closing => exact Nat.le_of_succ_le within
  | condition => exact within
  | connective => exact within

/-- What is read under some limit is read to the same end under another one if it nests within
it, and else up to the first parenthesis that does not. -/
theorem readAll_eq_or_opensBeyond {progress last : Progress} {placed : List PlacedToken}
    (within : progress.groups.length ≤ limit) (h : progress.readAll top placed = .ok last) :
    (nestingFrom progress.opened placed ≤ limit ∧ progress.readAll limit placed = .ok last) ∨
      ∃ next, OpensBeyond limit progress.opened placed next ∧
        progress.readAll limit placed = .error ⟨.tooDeep limit, next.position⟩ := by
  induction placed generalizing progress with
  | nil =>
      refine .inl ⟨?_, h⟩
      rwa [nestingFrom, length_opened]
  | cons token placed ih =>
      obtain ⟨progress', hstep, hlast⟩ := readAll_cons_eq_ok_iff.1 h
      have takes := read_eq_ok_iff.1 hstep
      have withinOpened : progress.opened.length ≤ limit := by rwa [length_opened]
      rcases takes.takes_or_read_eq_error limit with takes' | ⟨opens, deep, herror⟩
      · have step := read_eq_ok_iff.2 takes'
        rw [readAll_cons step, nestingFrom, ← takes.opened]
        rcases ih (takes'.length_groups_le within) hlast with ⟨flat, hread⟩ | ⟨next, beyond, hread⟩
        · exact .inl ⟨Nat.max_le.2 ⟨withinOpened, flat⟩, hread⟩
        · rw [takes.opened] at beyond
          exact .inr ⟨next, beyond.cons withinOpened, hread⟩
      · refine .inr ⟨token, ⟨[], placed, rfl, opens, ?_, withinOpened⟩, ?_⟩
        · exact Nat.le_antisymm withinOpened (by rwa [List.foldl_nil, length_opened])
        · rw [readAll, List.foldlM_cons, herror]
          rfl

end Progress

namespace Rule

/-- A rule of tokens is the same under another limit if their parentheses nest within it, and
else the first of them that does not is reported. -/
theorem ofTokens_eq_or_opensBeyond {limit top stop : Nat} {placed : List PlacedToken} {r : Rule}
    (h : ofTokens top stop placed = .ok r) :
    (nestingOf placed ≤ limit ∧ ofTokens limit stop placed = .ok r) ∨
      ∃ next, OpensBeyond limit [] placed next ∧
        ofTokens limit stop placed = .error ⟨.tooDeep limit, next.position⟩ := by
  change (Progress.start.readAll top placed).bind _ = _ at h
  obtain ⟨last, hread, hfinish⟩ := Except.bind_eq_ok_iff.1 h
  have none : Progress.start.groups.length ≤ limit := Nat.zero_le limit
  rcases Progress.readAll_eq_or_opensBeyond none hread with ⟨flat, hread'⟩ | ⟨next, beyond, herror⟩
  · refine .inl ⟨flat, ?_⟩
    change (Progress.start.readAll limit placed).bind _ = _
    rw [hread']
    exact hfinish
  · refine .inr ⟨next, beyond, ?_⟩
    change (Progress.start.readAll limit placed).bind _ = _
    rw [herror]
    rfl

end Rule

/-! ## The number of conditions -/

/-- The number of conditions among the tokens. -/
def conditionCount (placed : List PlacedToken) : Nat :=
  placed.countP (·.token.isCondition)

/-- The condition behind the first `limit` ones. -/
def IsExtraCondition (limit : Nat) (placed : List PlacedToken) (extra : PlacedToken) : Prop :=
  ∃ before later, placed = before ++ extra :: later ∧ extra.token.isCondition = true ∧
    conditionCount before = limit

/-- An element that passes a filter is found behind those that passed before it. -/
theorem exists_getElem?_filter {α : Type} {p : α → Bool} {n : Nat} {l : List α}
    (h : n < l.countP p) :
    ∃ before x later, l = before ++ x :: later ∧ p x = true ∧ before.countP p = n ∧
      (l.filter p)[n]? = some x := by
  induction l generalizing n with
  | nil => exact absurd h (Nat.not_lt_zero n)
  | cons a l ih =>
      by_cases ha : p a = true
      · rw [List.countP_cons_of_pos ha] at h
        rw [List.filter_cons_of_pos ha]
        cases n with
        | zero => exact ⟨[], a, l, rfl, ha, rfl, rfl⟩
        | succ n =>
            obtain ⟨before, x, later, rfl, hx, count, found⟩ := ih (Nat.lt_of_succ_lt_succ h)
            refine ⟨a :: before, x, later, rfl, hx, ?_, found⟩
            rw [List.countP_cons_of_pos ha, count]
      · rw [List.countP_cons_of_neg ha] at h
        rw [List.filter_cons_of_neg ha]
        obtain ⟨before, x, later, rfl, hx, count, found⟩ := ih h
        refine ⟨a :: before, x, later, rfl, hx, ?_, found⟩
        rw [List.countP_cons_of_neg ha, count]

theorem exists_isExtraCondition {limit : Nat} {placed : List PlacedToken}
    (many : limit < conditionCount placed) :
    ∃ extra, IsExtraCondition limit placed extra ∧
      Rule.extraCondition? limit placed = some extra.position := by
  obtain ⟨before, extra, later, split, condition, count, found⟩ := exists_getElem?_filter many
  refine ⟨extra, ⟨before, later, split, condition, count⟩, ?_⟩
  rw [Rule.extraCondition?, found]
  rfl

theorem Rule.extraCondition?_eq_none {limit : Nat} {placed : List PlacedToken}
    (few : conditionCount placed ≤ limit) : Rule.extraCondition? limit placed = none := by
  rw [Rule.extraCondition?, Option.map_eq_none_iff, List.getElem?_eq_none_iff,
    ← List.countP_eq_length_filter]
  exact few

/-! ## Texts under two configurations -/

/-- No limit of the first configuration is higher than that of the second one. -/
structure Config.Within (config widest : Config) : Prop where
  nesting : config.maxNesting ≤ widest.maxNesting
  length : config.maxLength ≤ widest.maxLength
  conditions : config.maxConditions ≤ widest.maxConditions

namespace Rule

section Texts

variable {config widest : Config} {text : String} {placed : List PlacedToken} {r : Rule}

/-- What is read under lower limits is read under higher ones. -/
theorem ofText_mono (wider : config.Within widest) (h : ofText config text = .ok r) :
    ofText widest text = .ok r := by
  obtain ⟨short, placed, e, htokens, hspelled, hrule, few, flat⟩ := ofText_eq_ok_iff.1 h
  exact ofText_eq_ok_iff.2 ⟨Nat.le_trans short wider.length, placed, e, htokens, hspelled, hrule,
    Nat.le_trans few wider.conditions, Nat.le_trans flat wider.nesting⟩

/-- The tokens of a text that is a rule are a rule. -/
theorem ofTokens_of_ofText (h : ofText widest text = .ok r) (htokens : tokenize text = .ok placed) :
    ofTokens widest.maxNesting text.utf8ByteSize placed = .ok r := by
  obtain ⟨-, placed', e, htokens', hspelled, rfl, -, flat⟩ := ofText_eq_ok_iff.1 h
  obtain rfl := Except.ok.inj (htokens.symm.trans htokens')
  exact ofTokens_eq_ok_of_tokens hspelled.symm flat

theorem ofText_of_lt_utf8ByteSize (long : config.maxLength < text.utf8ByteSize) :
    ofText config text =
      .error (.parse ⟨.tooLong text.utf8ByteSize config.maxLength, config.maxLength⟩) := by
  rw [ofText, if_pos long]

theorem ofText_of_lt_conditionCount (short : text.utf8ByteSize ≤ config.maxLength)
    (htokens : tokenize text = .ok placed)
    (many : config.maxConditions < conditionCount placed) :
    ∃ extra, IsExtraCondition config.maxConditions placed extra ∧
      ofText config text =
        .error (.parse ⟨.tooManyConditions config.maxConditions, extra.position⟩) := by
  obtain ⟨extra, isExtra, found⟩ := exists_isExtraCondition many
  refine ⟨extra, isExtra, ?_⟩
  rw [ofText, if_neg (Nat.not_lt_of_le short), htokens]
  simp only [found]

/-- A text of few bytes and conditions is read as its tokens are. -/
theorem ofText_eq_ofTokens (short : text.utf8ByteSize ≤ config.maxLength)
    (htokens : tokenize text = .ok placed)
    (few : conditionCount placed ≤ config.maxConditions) :
    ofText config text =
      (ofTokens config.maxNesting text.utf8ByteSize placed).mapError .parse := by
  rw [ofText, if_neg (Nat.not_lt_of_le short), htokens]
  simp only [extraCondition?_eq_none few]

/-- A rule of few bytes and conditions is the same under a lower limit of nesting if its
parentheses nest within it, and else the first of them that does not is reported. -/
theorem ofText_eq_ok_or_opensBeyond (h : ofText widest text = .ok r)
    (short : text.utf8ByteSize ≤ config.maxLength) (htokens : tokenize text = .ok placed)
    (few : conditionCount placed ≤ config.maxConditions) :
    (nestingOf placed ≤ config.maxNesting ∧ ofText config text = .ok r) ∨
      ∃ next, OpensBeyond config.maxNesting [] placed next ∧
        ofText config text = .error (.parse ⟨.tooDeep config.maxNesting, next.position⟩) := by
  rw [ofText_eq_ofTokens short htokens few]
  rcases ofTokens_eq_or_opensBeyond (ofTokens_of_ofText h htokens) with
    ⟨flat, hread⟩ | ⟨next, beyond, herror⟩
  · rw [hread]
    exact .inl ⟨flat, rfl⟩
  · rw [herror]
    exact .inr ⟨next, beyond, rfl⟩

/-- A text that is a rule is within each limit. -/
theorem within_limits_of_ofText (h : ofText config text = .ok r) :
    text.utf8ByteSize ≤ config.maxLength ∧
      ∃ placed, tokenize text = .ok placed ∧ conditionCount placed ≤ config.maxConditions ∧
        nestingOf placed ≤ config.maxNesting := by
  obtain ⟨short, placed, -, htokens, -⟩ := ofText_eq_ok_iff.1 h
  have few : conditionCount placed ≤ config.maxConditions := by
    refine Nat.le_of_not_lt fun many => ?_
    obtain ⟨extra, -, herror⟩ := ofText_of_lt_conditionCount short htokens many
    exact nomatch h.symm.trans herror
  refine ⟨short, placed, htokens, few, ?_⟩
  rcases ofText_eq_ok_or_opensBeyond h short htokens few with ⟨flat, -⟩ | ⟨next, -, herror⟩
  · exact flat
  · exact nomatch h.symm.trans herror

end Texts

/-- Limits only reject. A text is a rule under some of them exactly if it is this rule under
higher ones and is within each of them; if it is not, the first limit that it exceeds is
reported: its bytes, else its conditions, else its parentheses. -/
theorem ofText_eq_ok_iff_within_limits (config widest : Config) (wider : config.Within widest)
    (text : String) :
    (∀ r, ofText config text = .ok r ↔
      ofText widest text = .ok r ∧ text.utf8ByteSize ≤ config.maxLength ∧
        ∃ placed, tokenize text = .ok placed ∧
          conditionCount placed ≤ config.maxConditions ∧
          nestingOf placed ≤ config.maxNesting) ∧
    ∀ r, ofText widest text = .ok r → ∃ placed, tokenize text = .ok placed ∧
      (config.maxLength < text.utf8ByteSize →
        ofText config text =
          .error (.parse ⟨.tooLong text.utf8ByteSize config.maxLength, config.maxLength⟩)) ∧
      (text.utf8ByteSize ≤ config.maxLength →
        config.maxConditions < conditionCount placed →
        ∃ extra, IsExtraCondition config.maxConditions placed extra ∧
          ofText config text =
            .error (.parse ⟨.tooManyConditions config.maxConditions, extra.position⟩)) ∧
      (text.utf8ByteSize ≤ config.maxLength →
        conditionCount placed ≤ config.maxConditions →
        config.maxNesting < nestingOf placed →
        ∃ next, OpensBeyond config.maxNesting [] placed next ∧
          ofText config text = .error (.parse ⟨.tooDeep config.maxNesting, next.position⟩)) := by
  refine ⟨fun r => ⟨fun h => ⟨ofText_mono wider h, within_limits_of_ofText h⟩, ?_⟩,
    fun r h => ?_⟩
  · rintro ⟨h, short, placed, htokens, few, flat⟩
    rcases ofText_eq_ok_or_opensBeyond h short htokens few with ⟨-, hread⟩ | ⟨next, beyond, -⟩
    · exact hread
    · exact absurd flat (Nat.not_le_of_lt beyond.lt_nestingFrom)
  · obtain ⟨-, placed, htokens, -⟩ := within_limits_of_ofText h
    refine ⟨placed, htokens, ofText_of_lt_utf8ByteSize,
      fun short many => ofText_of_lt_conditionCount short htokens many, ?_⟩
    intro short few deep
    rcases ofText_eq_ok_or_opensBeyond h short htokens few with ⟨flat, -⟩ | beyond
    · exact absurd flat (Nat.not_le_of_lt deep)
    · exact beyond

/-- The highest limits that are numbers of 64 bits. -/
def highest : Config :=
  { maxNesting := UInt64.size - 1, maxLength := UInt64.size - 1, maxConditions := UInt64.size - 1 }

/-- The tokens of `((a > 1))`. -/
def wrapped : List PlacedToken :=
  [⟨.opening, 0⟩, ⟨.opening, 1⟩, ⟨.condition ⟨"a", .gt, .integer 1⟩, 2⟩, ⟨.closing, 7⟩,
    ⟨.closing, 8⟩]

/-- A rule of nine bytes, one condition and two levels of parentheses meets these limits, and
none that is lower. -/
theorem ofText_eq_ok_iff_within_limits_wrapped :
    ofText highest "((a > 1))" = .ok (.condition ⟨"a", .gt, .integer 1⟩) ∧
    (({ maxNesting := 2, maxLength := 9, maxConditions := 1 } : Config).Within highest ∧
      ofText { maxNesting := 2, maxLength := 9, maxConditions := 1 } "((a > 1))" =
        .ok (.condition ⟨"a", .gt, .integer 1⟩)) ∧
    (({ maxLength := 8 } : Config).Within highest ∧
      ofText { maxLength := 8 } "((a > 1))" = .error (.parse ⟨.tooLong 9 8, 8⟩)) ∧
    (({ maxConditions := 0 } : Config).Within highest ∧ 0 < conditionCount wrapped ∧
      ∃ extra, IsExtraCondition 0 wrapped extra ∧
        ofText { maxConditions := 0 } "((a > 1))" =
          .error (.parse ⟨.tooManyConditions 0, extra.position⟩)) ∧
    (({ maxNesting := 1 } : Config).Within highest ∧ 1 < nestingOf wrapped ∧
      ∃ next, OpensBeyond 1 [] wrapped next ∧
        ofText { maxNesting := 1 } "((a > 1))" =
          .error (.parse ⟨.tooDeep 1, next.position⟩)) := by
  have read : ofText highest "((a > 1))" = .ok (.condition ⟨"a", .gt, .integer 1⟩) := by
    decide +kernel
  have htokens : tokenize "((a > 1))" = .ok wrapped := by decide +kernel
  have long : "((a > 1))".utf8ByteSize = 9 := by decide +kernel
  have met : ({ maxNesting := 2, maxLength := 9, maxConditions := 1 } : Config).Within highest :=
    ⟨by decide +kernel, by decide +kernel, by decide +kernel⟩
  have shorter : ({ maxLength := 8 } : Config).Within highest :=
    ⟨by decide +kernel, by decide +kernel, by decide +kernel⟩
  have fewer : ({ maxConditions := 0 } : Config).Within highest :=
    ⟨by decide +kernel, by decide +kernel, by decide +kernel⟩
  have flatter : ({ maxNesting := 1 } : Config).Within highest :=
    ⟨by decide +kernel, by decide +kernel, by decide +kernel⟩
  have count : 0 < conditionCount wrapped := by decide +kernel
  have deep : 1 < nestingOf wrapped := by decide +kernel
  refine ⟨read, ⟨met, ?_⟩, ⟨shorter, ?_⟩, ⟨fewer, count, ?_⟩, ⟨flatter, deep, ?_⟩⟩
  · exact ((ofText_eq_ok_iff_within_limits _ _ met _).1 _).2
      ⟨read, by decide +kernel, wrapped, htokens, by decide +kernel, by decide +kernel⟩
  · obtain ⟨-, -, tooLong, -⟩ := (ofText_eq_ok_iff_within_limits _ _ shorter _).2 _ read
    rw [long] at tooLong
    exact tooLong (by decide)
  · obtain ⟨placed, htokens', -, tooMany, -⟩ :=
      (ofText_eq_ok_iff_within_limits _ _ fewer _).2 _ read
    obtain rfl := Except.ok.inj (htokens.symm.trans htokens')
    exact tooMany (by decide +kernel) count
  · obtain ⟨placed, htokens', -, -, tooDeep⟩ :=
      (ofText_eq_ok_iff_within_limits _ _ flatter _).2 _ read
    obtain rfl := Except.ok.inj (htokens.symm.trans htokens')
    exact tooDeep (by decide +kernel) (by decide +kernel) deep

end Rule

end Eligibility
