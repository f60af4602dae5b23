import Eligibility.Proofs.Json.Nodes
import Eligibility.Proofs.Json.Objects
import Mathlib.Logic.Relation

/-!
# Wire texts with their members arranged otherwise

The members of an object on the wire may come in any order, and a node may have members that
nodes of its kind do not read. So the text of a rule stays one when the members of its objects
are rearranged, with whatever blanks between them, or when such members are put among those of
its nodes, as long as it does not come to nest too deep. No object is left out by this: wherever
a brace opens one, outside of strings, it is written as its members (`ofWire_of_rewrites`).

Which values may take the place of others is said by `StandsFor`: whatever is read of the one
is read of the other. A value that has no parts has to stay as it is, for it may be a tag, a
field or a literal.
-/

namespace Eligibility

namespace Rule

/-! ## Values that stand for others -/

/-- Whatever is read of the value `j` is read of `j'`. -/
structure StandsFor (j j' : Json) : Prop where
  representable : j.isRepresentable = true → j'.isRepresentable = true
  same : j.parts = [] → j' = j
  word : ∀ word, wireWord? j = some word → wireWord? j' = some word
  rule : ∀ isRoot r, ofNode? isRoot j = some r → ofNode? isRoot j' = some r

theorem StandsFor.refl (j : Json) : StandsFor j j :=
  ⟨id, fun _ => rfl, fun _ h => h, fun _ _ h => h⟩

theorem parts_of_ofJson? {j : Json} {v : Value} (h : Value.ofJson? j = some v) :
    j.parts = [] := by
  cases j with
  | array items => cases h
  | object members => cases h
  | _ => rfl

theorem exists_node_of_ofNode? {isRoot : Bool} {j : Json} {r : Rule}
    (h : ofNode? isRoot j = some r) :
    (∃ field comparator value, Json.Node.ofJson? isRoot j =
      some (.condition (.string (some field)) comparator value)) ∨
      ∃ op left right, Json.Node.ofJson? isRoot j = some (.operator op left right) := by
  rw [ofNode?.eq_def] at h
  split at h
  · cases h
  · next hnode => exact .inl ⟨_, _, _, hnode⟩
  · cases h
  · next hnode => exact .inr ⟨_, _, _, hnode⟩

/-- A node whose parts stand for those of another is of the same rule. -/
theorem ofNode?_of_related {isRoot : Bool} {j j' : Json}
    (nodes : ∀ node, Json.Node.ofJson? isRoot j = some node →
      ∃ node', Json.Node.ofJson? isRoot j' = some node' ∧ node.Related StandsFor node')
    {r : Rule} (h : ofNode? isRoot j = some r) : ofNode? isRoot j' = some r := by
  rcases exists_node_of_ofNode? h with
    ⟨field, comparator, value, hnode⟩ | ⟨op, left, right, hnode⟩
  · obtain ⟨node', hnode', related⟩ := nodes _ hnode
    rw [ofNode?_of_condition hnode] at h
    obtain ⟨word, hword, h⟩ := Option.bind_eq_some_iff.1 h
    obtain ⟨parsed, hparsed, h⟩ := Option.bind_eq_some_iff.1 h
    obtain ⟨literal, hliteral, h⟩ := Option.bind_eq_some_iff.1 h
    cases related with
    | condition hfield hcomparator hvalue =>
        rw [hfield.same rfl] at hnode'
        rw [ofNode?_of_condition hnode', hcomparator.word _ hword, Option.bind_some, hparsed,
          Option.bind_some, hvalue.same (parts_of_ofJson? hliteral), hliteral]
        exact h
  · obtain ⟨node', hnode', related⟩ := nodes _ hnode
    rw [ofNode?_of_operator hnode] at h
    obtain ⟨word, hword, h⟩ := Option.bind_eq_some_iff.1 h
    obtain ⟨parsed, hparsed, h⟩ := Option.bind_eq_some_iff.1 h
    obtain ⟨leftRule, hleftRule, h⟩ := Option.bind_eq_some_iff.1 h
    obtain ⟨rightRule, hrightRule, h⟩ := Option.bind_eq_some_iff.1 h
    cases related with
    | operator hop hleft hright =>
        rw [ofNode?_of_operator hnode', hop.word _ hword, Option.bind_some, hparsed,
          Option.bind_some, hleft.rule _ _ hleftRule, Option.bind_some,
          hright.rule _ _ hrightRule]
        exact h

/-- The object is a word: it has one member, with nothing as its value. -/
theorem wireWord?_object_eq_some_iff {members : List (Option String × Json)} {word : String} :
    wireWord? (.object members) = some word ↔
      members = [(some word, .null)] ∨ members = [(some word, .object [])] := by
  constructor
  · intro h
    rw [wireWord?.eq_def] at h
    split at h
    · next hj => cases hj
    · next hj =>
      cases hj
      exact .inl (by rw [h])
    · next hj =>
      cases hj
      exact .inr (by rw [h])
    · cases h
  · rintro (rfl | rfl) <;> rfl

section Containers

variable {items items' : List Json} {members members' : List (Option String × Json)}

theorem areRepresentable_of_standsFor (h : List.Forall₂ StandsFor items items') :
    Json.areRepresentable items = true → Json.areRepresentable items' = true := by
  induction h with
  | nil => exact id
  | cons item h ih =>
      simp only [Json.areRepresentable, Bool.and_eq_true]
      exact And.imp item.representable ih

theorem membersRepresentable_of_standsFor
    (h : List.Forall₂ (Json.RelatedMembers StandsFor) members members') :
    Json.membersRepresentable members = true → Json.membersRepresentable members' = true := by
  induction h with
  | nil => exact id
  | @cons member member' _ _ related h ih =>
      simp only [Json.membersRepresentable, Bool.and_eq_true, ← related.1]
      exact And.imp (And.imp id related.2.representable) ih

/-- The value of the only member of a word has no parts. -/
theorem wireWord?_of_standsFor {word : String}
    (h : List.Forall₂ (Json.RelatedMembers StandsFor) members members')
    (hword : wireWord? (.object members) = some word) :
    wireWord? (.object members') = some word := by
  have single : ∀ value : Json, value.parts = [] → members = [(some word, value)] →
      members' = [(some word, value)] := by
    rintro value empty rfl
    obtain ⟨⟨name', value'⟩, _, ⟨hname, hvalue⟩, last, rfl⟩ := List.forall₂_cons_left_iff.1 h
    cases hname
    cases last
    rw [show value' = value from hvalue.same empty]
  rw [wireWord?_object_eq_some_iff] at hword ⊢
  exact hword.imp (single .null rfl) (single (.object []) rfl)

theorem standsFor_array (h : List.Forall₂ StandsFor items items') :
    StandsFor (.array items) (.array items') where
  representable := areRepresentable_of_standsFor h
  same := by
    intro empty
    cases h with
    | nil => rfl
    | cons => cases empty
  word := by
    intro word hword
    cases hword
  rule := fun _ _ => ofNode?_of_related fun _ => Json.Node.exists_ofJson?_array StandsFor.same h

theorem standsFor_object (h : List.Forall₂ (Json.RelatedMembers StandsFor) members members') :
    StandsFor (.object members) (.object members') where
  representable := membersRepresentable_of_standsFor h
  same := by
    intro empty
    cases h with
    | nil => rfl
    | cons => cases empty
  word := fun _ => wireWord?_of_standsFor h
  rule := fun _ _ => ofNode?_of_related fun _ => Json.Node.exists_ofJson?_object StandsFor.same h

/-- Containers stand for others if what they hold stands for what those hold. -/
theorem congruence_standsFor : Json.Congruence StandsFor :=
  ⟨StandsFor.refl, standsFor_array, standsFor_object⟩

end Containers

/-- An object whose only member has nothing as its value is no node. -/
theorem wireWord?_of_isNode {tag : Json.Tag} {members : List (Option String × Json)}
    (node : Json.IsNode tag members) : wireWord? (.object members) = none := by
  obtain ⟨j, hj, htag⟩ := Option.bind_eq_some_iff.1 node
  have mem := Json.mem_of_only? hj
  cases hword : wireWord? (.object members) with
  | none => rfl
  | some word =>
      rcases wireWord?_object_eq_some_iff.1 hword with rfl | rfl
      · rw [List.mem_singleton] at mem
        cases mem
        cases htag
      · rw [List.mem_singleton] at mem
        cases mem
        cases htag

theorem standsFor_arranged {members members' added : List (Option String × Json)}
    (perm : members'.Perm (added ++ members))
    (spare : ∀ member ∈ added, Json.IsSpare members member) :
    StandsFor (.object members) (.object members') where
  representable := Json.membersRepresentable_arranged perm spare
  same := by
    intro empty
    obtain rfl : members = [] := List.map_eq_nil_iff.1 empty
    rcases Json.eq_nil_or_exists_isNode spare with rfl | ⟨_, node, _⟩
    · rw [List.perm_nil.1 perm]
    · cases node
  word := by
    intro word hword
    rcases Json.eq_nil_or_exists_isNode spare with rfl | ⟨_, node, _⟩
    · rcases wireWord?_object_eq_some_iff.1 hword with rfl | rfl
      · rwa [List.perm_singleton.1 perm]
      · rwa [List.perm_singleton.1 perm]
    · rw [wireWord?_of_isNode node] at hword
      cases hword
  rule := by
    intro isRoot r hr
    refine ofNode?_of_related (fun node hnode => ⟨node, ?_, ?_⟩) hr
    · rw [Json.Node.ofJson?_arranged perm spare, hnode]
    · cases node with
      | condition => exact .condition (.refl _) (.refl _) (.refl _)
      | operator => exact .operator (.refl _) (.refl _) (.refl _)

/-! ## Texts arranged otherwise -/

/-- In an object of the text the members are written in another order, and `added` among them.
If there are any of these, the object is a node, of a kind that does not read them. The members
are told by what they say, so white space and spelling may change with the order. -/
inductive Rewrites (added : List (Option String × Json)) (text text' : String) : Prop
  | object {before rest : List Char} {ms ms' : List Json.Member}
    (htext : text = String.ofList (before ++ (Json.objectText ms ++ rest)))
    (htext' : text' = String.ofList (before ++ (Json.objectText ms' ++ rest)))
    (outside : (before.foldl Json.Scan.step {}).phase = .outside)
    (perm : (ms'.map Json.Member.entry).Perm (added ++ ms.map Json.Member.entry))
    (spare : ∀ member ∈ added, Json.IsSpare (ms.map Json.Member.entry) member)

section Rewrites

variable {added : List (Option String × Json)} {text text' : String}

/-- The text spells the rule that it spelled before. -/
theorem Rewrites.bind_ofJson? (h : Rewrites added text text') {r : Rule}
    (hr : (Json.read text).bind ofJson? = some r) : (Json.read text').bind ofJson? = some r := by
  obtain ⟨rfl, rfl, outside, perm, spare⟩ := h
  obtain ⟨j, hj, hr⟩ := Option.bind_eq_some_iff.1 hr
  have related : StandsFor _ _ := standsFor_arranged perm spare
  obtain ⟨j', hj', stands⟩ := Json.exists_read_objectText congruence_standsFor outside related hj
  rw [hj', Option.bind_some]
  rw [ofJson?] at hr ⊢
  split at hr
  · next representable =>
    rw [if_pos (stands.representable representable)]
    exact stands.rule _ _ hr
  · cases hr

/-- In another order, the members nest as deep as before. -/
theorem Rewrites.nesting_eq (h : Rewrites [] text text') {j : Json}
    (hj : Json.read text = some j) : Json.nesting text' = Json.nesting text := by
  obtain ⟨rfl, rfl, outside, perm, -⟩ := h
  have related := Json.depth_object_perm perm
  obtain ⟨j', hj', depth⟩ :=
    Json.exists_read_objectText Json.congruence_depth outside related hj
  rw [Json.nesting_eq_depth hj, Json.nesting_eq_depth hj', depth]

end Rewrites

/-- In a text that is taken for a rule every brace outside of strings begins an object. The text
is taken for the same rule when the members of its objects are arranged otherwise. It is so too
when members are put among those of its nodes that these do not read, if the text does not come
to nest too deep by them. -/
theorem ofWire_of_rewrites (config : Config) (text : String) (r : Rule)
    (h : ofWire config text = .ok r) :
    (∀ before rest, text = String.ofList (before ++ '{' :: rest) →
        (before.foldl Json.Scan.step {}).phase = .outside → Json.BeginsObject ('{' :: rest)) ∧
      (∀ text', Relation.ReflTransGen (Rewrites []) text text' → ofWire config text' = .ok r) ∧
      ∀ text', Relation.ReflTransGen (fun text text' => ∃ added, Rewrites added text text')
          text text' →
        Json.nesting text' ≤ config.maxConditions → ofWire config text' = .ok r := by
  obtain ⟨low, hread, expressible⟩ := ofWire_eq_ok_iff.1 h
  refine ⟨?_, ?_, ?_⟩
  · rintro before rest rfl outside
    obtain ⟨j, hj, -⟩ := Option.bind_eq_some_iff.1 hread
    exact Json.beginsObject_of_read outside hj
  · intro text' rewritten
    have kept : (Json.read text').bind ofJson? = some r ∧
        Json.nesting text' = Json.nesting text := by
      induction rewritten with
      | refl => exact ⟨hread, rfl⟩
      | tail _ last ih =>
          obtain ⟨j, hj, -⟩ := Option.bind_eq_some_iff.1 ih.1
          exact ⟨last.bind_ofJson? ih.1, (last.nesting_eq hj).trans ih.2⟩
    exact ofWire_eq_ok_iff.2 ⟨kept.2 ▸ low, kept.1, expressible⟩
  · intro text' rewritten low'
    have kept : (Json.read text').bind ofJson? = some r := by
      clear low'
      induction rewritten with
      | refl => exact hread
      | tail _ last ih =>
          obtain ⟨added, last⟩ := last
          exact last.bind_ofJson? ih
    exact ofWire_eq_ok_iff.2 ⟨low', kept, expressible⟩

section Adult

open Json Json.Member

/-- `age > 17 AND state = "CA"` -/
def adult : Rule :=
  join .and (condition ⟨"age", .gt, .integer 17⟩) (condition ⟨"state", .eq, .text "CA"⟩)

/-- The rule on the wire, with a blank behind each comma and each colon. -/
def adultText : String :=
  "\x7b\"type\": \"operator\", \"value\": \"AND\", " ++
  "\"left\": \x7b\"type\": \"condition\", \"field\": \"age\", " ++
  "\"operator\": \">\", \"value\": 17\x7d, " ++
  "\"right\": \x7b\"type\": \"condition\", \"field\": \"state\", " ++
  "\"operator\": \"=\", \"value\": \"CA\"\x7d\x7d"

/-- The left operand has moved to the front, and there are members that only a condition reads.
Within it the tag has moved to the end, and in front of all others there are members that only a
join reads, one name twice. -/
def arrangedText : String :=
  "\x7b\"left\": \x7b\"left\": [null], \"right\": \"\x7d\", \"left\": null, " ++
  "\"value\": 17, \"operator\": \">\", \"field\": \"age\", \"type\": \"condition\"\x7d, " ++
  "\"operator\": \x7b\x7d, \"field\": null, " ++
  "\"right\": \x7b\"type\": \"condition\", \"field\": \"state\", " ++
  "\"operator\": \"=\", \"value\": \"CA\"\x7d, " ++
  "\"type\": \"operator\", \"value\": \"AND\"\x7d"

def ageMembers : List Member :=
  [spaced "type" (read_write (.text "condition")), spaced "field" (read_write (.text "age")),
    spaced "operator" (read_write (.text ">")), spaced "value" (read_write (.integer 17))]

def ageAdded : List Member :=
  [spaced "left" (read_write (.array [.null])), spaced "right" (read_write (.text "\x7d")),
    spaced "left" (read_write .null)]

def stateMembers : List Member :=
  [spaced "type" (read_write (.text "condition")), spaced "field" (read_write (.text "state")),
    spaced "operator" (read_write (.text "=")), spaced "value" (read_write (.text "CA"))]

/-- The members of the join in front of its operands. -/
def adultMembers : List Member :=
  [spaced "type" (read_write (.text "operator")), spaced "value" (read_write (.text "AND"))]

def adultAdded : List Member :=
  [spaced "operator" (read_write (.object [])), spaced "field" (read_write .null)]

def leftMember : Member := spaced "left" (read_objectText (spread ageMembers))

def rightMember : Member := spaced "right" (read_objectText (spread stateMembers))

theorem adultText_eq :
    adultText =
      String.ofList (objectText (spread (adultMembers ++ [leftMember, rightMember]))) := by
  decide +kernel

/-- The text of the join with its left operand, written with these members, at the front. -/
def movedText (age : List Member) : String :=
  String.ofList (['{', '"', 'l', 'e', 'f', 't', '"', ':', ' '] ++ (objectText (spread age) ++
    (laterMemberText ((adultAdded ++ rightMember :: adultMembers).map indented) ++ ['}'])))

theorem movedText_eq :
    movedText ageMembers = String.ofList
      (objectText (spread (leftMember :: (adultAdded ++ rightMember :: adultMembers)))) :=
  congrArg String.ofList (by decide +kernel)

theorem arrangedText_eq : arrangedText = movedText (ageAdded ++ ageMembers.reverse) := by
  decide +kernel

/-- The members of an object in this layout may be arranged otherwise. -/
theorem rewrites_spread {before : List Char} {ms ms' added : List Member}
    (outside : (before.foldl Scan.step {}).phase = .outside) (perm : ms'.Perm (added ++ ms))
    (spare : ∀ m ∈ added, IsSpare (ms.map entry) m.entry) (rest : List Char) :
    Rewrites (added.map entry) (String.ofList (before ++ (objectText (spread ms) ++ rest)))
      (String.ofList (before ++ (objectText (spread ms') ++ rest))) := by
  refine .object rfl rfl outside ?_ ?_
  · rw [map_entry_spread, map_entry_spread, ← List.map_append]
    exact perm.map entry
  · rw [map_entry_spread]
    exact List.forall_mem_map.2 spare

theorem rewrites_adultText :
    Rewrites (adultAdded.map entry) adultText (movedText ageMembers) := by
  have perm : (leftMember :: (adultAdded ++ rightMember :: adultMembers)).Perm
      (adultAdded ++ (adultMembers ++ [leftMember, rightMember])) :=
    List.perm_middle.symm.trans
      ((List.perm_append_comm : ([leftMember, rightMember] ++ adultMembers).Perm _).append_left _)
  have node : IsNode .operator ((adultMembers ++ [leftMember, rightMember]).map entry) := rfl
  have spare : ∀ m ∈ adultAdded,
      IsSpare ((adultMembers ++ [leftMember, rightMember]).map entry) m.entry := by
    rw [adultAdded, List.forall_mem_cons, List.forall_mem_singleton]
    exact ⟨⟨_, node, ⟨"operator", rfl, by decide⟩, rfl⟩,
      ⟨_, node, ⟨"field", rfl, by decide⟩, rfl⟩⟩
  have moved := @rewrites_spread [] _ _ _ rfl perm spare []
  rw [List.append_nil, List.append_nil] at moved
  rw [adultText_eq, movedText_eq]
  exact moved

theorem rewrites_movedText :
    Rewrites (ageAdded.map entry) (movedText ageMembers) arrangedText := by
  have node : IsNode .condition (ageMembers.map entry) := rfl
  have spare : ∀ m ∈ ageAdded, IsSpare (ageMembers.map entry) m.entry := by
    rw [ageAdded, List.forall_mem_cons, List.forall_mem_cons, List.forall_mem_singleton]
    exact ⟨⟨_, node, ⟨"left", rfl, by decide⟩, rfl⟩, ⟨_, node, ⟨"right", rfl, by decide⟩, rfl⟩,
      ⟨_, node, ⟨"left", rfl, by decide⟩, rfl⟩⟩
  rw [arrangedText_eq]
  exact rewrites_spread rfl ((List.reverse_perm ageMembers).append_left ageAdded) spare _

theorem ofWire_of_rewrites_adult :
    ofWire { maxConditions := 3 } adultText = .ok adult ∧ Json.nesting arrangedText ≤ 3 ∧
      ofWire { maxConditions := 3 } arrangedText = .ok adult := by
  have read : Json.read adultText =
      some (.object ((spread (adultMembers ++ [leftMember, rightMember])).map entry)) := by
    rw [adultText_eq]
    exact read_objectText _
  have sent : ofWire { maxConditions := 3 } adultText = .ok adult := by
    refine ofWire_eq_ok_iff.2 ⟨?_, ?_, by decide +kernel⟩
    · rw [nesting_eq_depth read]
      decide
    · rw [read]
      decide +kernel
  have nesting : Json.nesting arrangedText ≤ 3 := by
    rw [arrangedText_eq, movedText, nesting_ofList]
    decide +kernel
  refine ⟨sent, nesting, (ofWire_of_rewrites _ _ _ sent).2.2 _ ?_ nesting⟩
  exact .tail (.single ⟨_, rewrites_adultText⟩) ⟨_, rewrites_movedText⟩

end Adult

end Rule

end Eligibility
