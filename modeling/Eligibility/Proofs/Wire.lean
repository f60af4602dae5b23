import Eligibility.Proofs.Grammar
import Eligibility.Proofs.Json.Nesting
import Eligibility.Rule.Wire
import Mathlib.Control.Monad.Basic

/-!
# Sending rules

The wire form of a rule nests as deep as the rule is high (`nesting_toWire`), and the
rule is found in it again (`ofJson?_toJson`). So it is refused as too deep where the limit
on conditions is below the height, and elsewhere taken for the rule, unless that has
conditions that rule text cannot express (`ofWire_toWire`).

A rule is no higher than it has conditions, and no higher than the wire text that it
came in nests, however that spells it (`Sendable`). So what has been taken from the wire can
be sent again.
-/

namespace Eligibility

/-! ## Parts of a node -/

namespace Json

/-- The values that a container holds. -/
def parts : Json → List Json
  | array items => items
  | object members => members.map (·.2)
  | _ => []

theorem depth_le_depthOfItems {item : Json} {items : List Json} (h : item ∈ items) :
    item.depth ≤ depthOfItems items := by
  induction items with
  | nil => cases h
  | cons first items ih =>
      rw [depthOfItems]
      rcases List.mem_cons.1 h with rfl | h
      · exact Nat.le_max_left _ _
      · exact Nat.le_trans (ih h) (Nat.le_max_right _ _)

theorem depth_lt_of_mem_parts {part j : Json} (h : part ∈ j.parts) : part.depth < j.depth := by
  cases j with
  | array items => exact Nat.lt_succ_of_le (depth_le_depthOfItems h)
  | object members =>
      rw [depth, depthOfMembers_eq]
      exact Nat.lt_succ_of_le (depth_le_depthOfItems h)
  | _ => cases h

theorem mem_parts_of_only? {name : String} {members : List (Option String × Json)}
    {value : Json} (h : only? name members = some value) : value ∈ (object members).parts :=
  List.mem_map_of_mem (f := Prod.snd) (mem_of_only? h)

/-- The operands of a join are parts of its node. -/
theorem Node.mem_parts_of_operator {isRoot : Bool} {j op left right : Json}
    (h : Node.ofJson? isRoot j = some (.operator op left right)) :
    left ∈ j.parts ∧ right ∈ j.parts := by
  cases j with
  | object members =>
      rw [Node.ofJson?] at h
      obtain ⟨tag, -, h⟩ := Option.bind_eq_some_iff.1 h
      split at h
      · simp only [Option.bind_eq_bind, Option.bind_eq_some_iff] at h
        obtain ⟨_, _, _, _, _, _, h⟩ := h
        cases h
      · simp only [Option.bind_eq_bind, Option.bind_eq_some_iff] at h
        obtain ⟨_, _, _, hleft, _, hright, h⟩ := h
        cases h
        exact ⟨mem_parts_of_only? hleft, mem_parts_of_only? hright⟩
      · cases h
  | array items =>
      rw [Node.ofJson?.eq_def] at h
      split at h
      · next hitems => cases hitems
      · next tag first second third hitems =>
        cases hitems
        split at h
        · cases h
        · cases h
          simp [parts]
        · cases h
      · cases h
  | _ => cases h

/-- A node is a container. -/
theorem Node.depth_pos {isRoot : Bool} {j : Json} {node : Node}
    (h : Node.ofJson? isRoot j = some node) : 0 < j.depth := by
  cases j with
  | object members => exact Nat.succ_pos _
  | array items => exact Nat.succ_pos _
  | _ => cases h

end Json

/-! ## Wire forms are representable -/

theorem Value.isRepresentable_toJson (v : Value) : v.toJson.isRepresentable = true := by
  cases v with
  | integer n =>
      refine Json.Number.isFinite_ofInt ?_
      have low := n.le_toInt
      have high := n.toInt_lt
      change n.toInt.natAbs < 2 ^ 64
      omega
  | text s => rfl

namespace Rule

theorem isRepresentable_toJson (r : Rule) : r.toJson.isRepresentable = true := by
  induction r with
  | condition c =>
      simp [toJson, Json.text, Json.isRepresentable, Json.membersRepresentable,
        c.value.isRepresentable_toJson]
  | join op left right ihLeft ihRight =>
      simp [toJson, Json.text, Json.isRepresentable, Json.membersRepresentable, ihLeft, ihRight]

theorem depth_toJson (r : Rule) : r.toJson.depth = r.height := by
  induction r with
  | condition c =>
      cases hvalue : c.value with
      | integer n =>
          simp [toJson, hvalue, Value.toJson, Json.integer, Json.text, Json.depth,
            Json.depthOfMembers, height]
      | text s =>
          simp [toJson, hvalue, Value.toJson, Json.text, Json.depth, Json.depthOfMembers, height]
  | join op left right ihLeft ihRight =>
      simp [toJson, Json.text, Json.depth, Json.depthOfMembers, height, ihLeft, ihRight]

/-- The wire form nests as deep as the rule is high. -/
theorem nesting_toWire (r : Rule) : Json.nesting r.toWire = r.height := by
  rw [toWire, Json.nesting_write, depth_toJson]

/-! ## The rule in its wire form -/

theorem node_toJson_condition (isRoot : Bool) (c : Condition) :
    Json.Node.ofJson? isRoot (condition c).toJson =
      some (.condition (.text c.field) (.text c.comparator.symbol) c.value.toJson) := by
  simp [toJson, Json.Node.ofJson?, Json.only?, Json.text, Json.Tag.ofJson?]

theorem node_toJson_join (isRoot : Bool) (op : Connective) (left right : Rule) :
    Json.Node.ofJson? isRoot (join op left right).toJson =
      some (.operator (.text op.word) left.toJson right.toJson) := by
  have ne : Json.Tag.operator.word ≠ Json.Tag.condition.word := by decide
  simp [toJson, Json.Node.ofJson?, Json.only?, Json.text, Json.Tag.ofJson?, ne]

theorem ofNode?_of_condition {isRoot : Bool} {j comparator value : Json} {field : String}
    (h : Json.Node.ofJson? isRoot j =
      some (.condition (.string (some field)) comparator value)) :
    ofNode? isRoot j =
      (wireWord? comparator).bind fun word =>
        (Comparator.ofSymbol? word).bind fun comparator =>
          (Value.ofJson? value).bind fun value => some (condition ⟨field, comparator, value⟩) := by
  rw [ofNode?.eq_def]
  split
  · next h' =>
    rw [h] at h'
    cases h'
  · next h' =>
    rw [h] at h'
    cases h'
    rfl
  · next field' _ _ other h' =>
    rw [h] at h'
    cases h'
    exact absurd rfl (other field)
  · next h' =>
    rw [h] at h'
    cases h'

theorem ofNode?_of_operator {isRoot : Bool} {j op left right : Json}
    (h : Json.Node.ofJson? isRoot j = some (.operator op left right)) :
    ofNode? isRoot j =
      (wireWord? op).bind fun word =>
        (Connective.ofWord? word).bind fun op =>
          (ofNode? false left).bind fun left =>
            (ofNode? false right).bind fun right => some (join op left right) := by
  rw [ofNode?.eq_def]
  split
  · next h' =>
    rw [h] at h'
    cases h'
  · next h' =>
    rw [h] at h'
    cases h'
  · next h' =>
    rw [h] at h'
    cases h'
  · next h' =>
    rw [h] at h'
    cases h'
    rfl

theorem ofNode?_toJson (isRoot : Bool) (r : Rule) : ofNode? isRoot r.toJson = some r := by
  induction r generalizing isRoot with
  | condition c =>
      rw [ofNode?_of_condition (node_toJson_condition isRoot c), Json.text, wireWord?,
        Option.bind_some, Comparator.ofSymbol?_symbol, Option.bind_some, Value.ofJson?_toJson]
      rfl
  | join op left right ihLeft ihRight =>
      rw [ofNode?_of_operator (node_toJson_join isRoot op left right), Json.text, wireWord?,
        Option.bind_some, Connective.ofWord?_word, Option.bind_some, ihLeft, Option.bind_some,
        ihRight]
      rfl

theorem ofJson?_toJson (r : Rule) : ofJson? r.toJson = some r := by
  rw [ofJson?, if_pos r.isRepresentable_toJson, ofNode?_toJson]

theorem read_toWire (r : Rule) : (Json.read r.toWire).bind ofJson? = some r := by
  rw [toWire, Json.read_write, Option.bind_some, ofJson?_toJson]

/-- A rule that is too high for the limit is refused on the wire. -/
theorem ofWire_toWire_of_lt {config : Config} {r : Rule} (high : config.maxConditions < r.height) :
    ofWire config r.toWire = .error (.nested config.maxConditions) := by
  rw [ofWire, nesting_toWire, if_pos high]

/-- The leftmost condition of a rule that rule text cannot express. -/
def firstInexpressible? : Rule → Option Condition
  | condition c => if c.expressible then none else some c
  | join _ left right => left.firstInexpressible?.or right.firstInexpressible?

theorem find?_leaves_eq_firstInexpressible? (r : Rule) :
    r.leaves.find? (! ·.expressible) = r.firstInexpressible? := by
  induction r with
  | condition c =>
      rw [leaves_condition, firstInexpressible?]
      cases hc : c.expressible <;> simp [hc]
  | join op left right ihLeft ihRight =>
      rw [leaves_join, List.find?_append, ihLeft, ihRight, firstInexpressible?]

theorem firstInexpressible?_eq_none_iff {r : Rule} :
    r.firstInexpressible? = none ↔ ∀ c ∈ r.leaves, c.expressible = true := by
  rw [← find?_leaves_eq_firstInexpressible?, List.find?_eq_none]
  simp

/-- A rule that is not too high for the limit is taken from the wire as it is, unless
one of its conditions cannot be expressed. -/
theorem ofWire_toWire_of_height_le {config : Config} {r : Rule}
    (low : r.height ≤ config.maxConditions) :
    ofWire config r.toWire =
      match r.firstInexpressible? with
      | some c => .error (.inexpressible c)
      | none => .ok r := by
  rw [← find?_leaves_eq_firstInexpressible?]
  cases found : r.leaves.find? (! ·.expressible) <;>
    simp only [ofWire, nesting_toWire, if_neg (Nat.not_lt_of_le low), read_toWire, found]

theorem ofWire_toWire_of_le {config : Config} {r : Rule} (low : r.height ≤ config.maxConditions)
    (expressible : ∀ c ∈ r.leaves, c.expressible = true) : ofWire config r.toWire = .ok r := by
  rw [ofWire_toWire_of_height_le low, firstInexpressible?_eq_none_iff.2 expressible]

/-- What becomes of a rule on the wire is decided by its height and its conditions: it
is refused as too deep if it is higher than the limit, else for its leftmost condition
that rule text cannot express, and comes out as it is if there is none. -/
theorem ofWire_toWire (config : Config) (r : Rule) :
    ofWire config r.toWire =
        (if config.maxConditions < r.height then .error (.nested config.maxConditions)
        else
          match r.firstInexpressible? with
          | some c => .error (.inexpressible c)
          | none => .ok r) ∧
      (WireError.nested config.maxConditions).message? =
        some ("Evaluation error: malformed AST: nested deeper than " ++
          toString config.maxConditions ++ " levels") ∧
      ∀ c : Condition, (WireError.inexpressible c).message? =
        some ("Evaluation error: malformed AST: condition '" ++ c.text ++
          "' cannot be written as rule text") := by
  refine ⟨?_, rfl, fun c => rfl⟩
  split
  · next high => exact ofWire_toWire_of_lt high
  · next low => exact ofWire_toWire_of_height_le (Nat.le_of_not_lt low)

/-! ## What comes from the wire -/

/-- What a rule must be for the wire to carry it under a configuration. -/
structure Sendable (config : Config) (r : Rule) : Prop where
  expressible : ∀ c ∈ r.leaves, c.expressible = true
  height : r.height ≤ config.maxConditions

theorem height_pos (r : Rule) : 0 < r.height := by
  cases r with
  | condition c => exact Nat.one_pos
  | join op left right => exact Nat.succ_pos _

theorem height_le_length_leaves (r : Rule) : r.height ≤ r.leaves.length := by
  induction r with
  | condition c => exact Nat.le_of_eq (by rw [leaves_condition]; rfl)
  | join op left right ihLeft ihRight =>
      have hleft := height_pos left
      have hright := height_pos right
      rw [leaves_join, height, List.length_append]
      omega

/-- A rule is no higher than the value that it is found in is deep. -/
theorem height_le_depth_of_ofNode? {isRoot : Bool} {j : Json} {r : Rule}
    (h : ofNode? isRoot j = some r) : r.height ≤ j.depth := by
  fun_induction ofNode? isRoot j generalizing r with
  | case1 isRoot j none => cases h
  | case2 isRoot j field comparator value node =>
      simp only [Option.bind_eq_bind, Option.bind_eq_some_iff] at h
      obtain ⟨_, _, _, _, _, _, h⟩ := h
      cases h
      exact Json.Node.depth_pos node
  | case3 isRoot j field comparator value other node => cases h
  | case4 isRoot j op left right node ihLeft ihRight =>
      simp only [Option.bind_eq_bind, Option.bind_eq_some_iff] at h
      obtain ⟨_, _, _, _, left', hleft, right', hright, h⟩ := h
      cases h
      obtain ⟨hpart, hpart'⟩ := Json.Node.mem_parts_of_operator node
      have hleft := Nat.lt_of_le_of_lt (ihLeft hleft) (Json.depth_lt_of_mem_parts hpart)
      have hright := Nat.lt_of_le_of_lt (ihRight hright) (Json.depth_lt_of_mem_parts hpart')
      exact Nat.succ_le_of_lt (Nat.max_lt.2 ⟨hleft, hright⟩)

/-- A rule is no higher than the text that it is found in nests. -/
theorem height_le_nesting_of_read {text : String} {r : Rule}
    (h : (Json.read text).bind ofJson? = some r) : r.height ≤ Json.nesting text := by
  obtain ⟨j, hj, hr⟩ := Option.bind_eq_some_iff.1 h
  rw [Json.nesting_eq_depth hj]
  rw [ofJson?] at hr
  split at hr
  · exact height_le_depth_of_ofNode? hr
  · cases hr

/-- A text is taken for a rule when it does not nest too deep, spells the rule, and rule
text can express all of its conditions. -/
theorem ofWire_eq_ok_iff {config : Config} {text : String} {r : Rule} :
    ofWire config text = .ok r ↔
      Json.nesting text ≤ config.maxConditions ∧ (Json.read text).bind ofJson? = some r ∧
        ∀ c ∈ r.leaves, c.expressible = true := by
  constructor
  · intro h
    rw [ofWire] at h
    split at h
    · cases h
    · next low =>
      split at h
      · cases h
      · next hread =>
        split at h
        · cases h
        · next none =>
          cases h
          rw [find?_leaves_eq_firstInexpressible?, firstInexpressible?_eq_none_iff] at none
          exact ⟨Nat.le_of_not_lt low, hread, none⟩
  · rintro ⟨low, hread, expressible⟩
    rw [← firstInexpressible?_eq_none_iff, ← find?_leaves_eq_firstInexpressible?] at expressible
    simp only [ofWire, if_neg (Nat.not_lt_of_le low), hread, expressible]

theorem sendable_of_ofWire {config : Config} {text : String} {r : Rule}
    (h : ofWire config text = .ok r) : r.Sendable config := by
  obtain ⟨low, hread, expressible⟩ := ofWire_eq_ok_iff.1 h
  exact ⟨expressible, Nat.le_trans (height_le_nesting_of_read hread) low⟩

/-- However a rule is spelled on the wire, its conditions can be expressed, it is no higher
than the limit, and its own wire form, which nests no deeper than the spelling, is taken for
the same rule. -/
theorem ofWire_toWire_of_ofWire (config : Config) (text : String) (r : Rule)
    (h : ofWire config text = .ok r) :
    (∀ c ∈ r.leaves, c.expressible = true) ∧ r.height ≤ config.maxConditions ∧
      Json.nesting r.toWire ≤ Json.nesting text ∧ ofWire config r.toWire = .ok r := by
  obtain ⟨expressible, height⟩ := sendable_of_ofWire h
  refine ⟨expressible, height, ?_, ofWire_toWire_of_le height expressible⟩
  rw [nesting_toWire]
  exact height_le_nesting_of_read (ofWire_eq_ok_iff.1 h).2.1

/-- A join as an array, its connective as an object, and its operands as an object, with
the members in another order and one to spare, and as an array. -/
def spelling : String :=
  "[ \"operator\", \x7b\"OR\": null\x7d,\n" ++
  "  \x7b\"value\": -1, \"note\": [], \"operator\": \"\\u003e\"," ++
  " \"type\": 0, \"field\": \"a\"\x7d,\n" ++
  "  [\"condition\", \"b\", \"=\", \"\\u00e9\"] ]"

/-- The rule that is spelled. -/
def spelled : Rule :=
  join .or (condition ⟨"a", .gt, .integer (-1)⟩) (condition ⟨"b", .eq, .text "é"⟩)

theorem ofWire_toWire_of_ofWire_spelling :
    ofWire { maxConditions := 3 } spelling = .ok spelled ∧ spelled.toWire ≠ spelling ∧
      spelled.height ≤ 3 ∧ ofWire { maxConditions := 3 } spelled.toWire = .ok spelled := by
  have h : ofWire { maxConditions := 3 } spelling = .ok spelled := by decide +kernel
  obtain ⟨-, height, -, again⟩ := ofWire_toWire_of_ofWire _ _ _ h
  exact ⟨h, by decide +kernel, height, again⟩

end Rule

end Eligibility
