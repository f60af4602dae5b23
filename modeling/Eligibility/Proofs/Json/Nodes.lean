import Eligibility.Proofs.Json.Replacement
import Eligibility.Proofs.Wire

/-!
# Members of nodes

Of the members of a node some are read, each by its name (`Tag.names`), and the others are
passed over. So a node is the same with its members in another order, and with members of
other names among them (`Node.ofJson?_arranged`). If its parts are exchanged for related ones,
it is of the same kind still, as long as its tag stays (`Node.exists_ofJson?_object`,
`Node.exists_ofJson?_array`).
-/

namespace Eligibility

namespace Json

/-! ## Members of a node -/

theorem only?_eq_some_iff {name : String} {members : List (Option String × Json)}
    {value : Json} :
    only? name members = some value ↔
      members.filter (fun member => decide (member.1 = some name)) = [(some name, value)] := by
  constructor
  · intro h
    simp only [only?] at h
    split at h
    · next name' value' found =>
      cases h
      have mem : (name', value) ∈ members.filter (·.1 = some name) := by simp [found]
      have named : name' = some name := of_decide_eq_true (List.mem_filter.1 mem).2
      rw [found, named]
    · cases h
  · intro h
    rw [only?, h]

theorem only?_perm {members members' : List (Option String × Json)}
    (h : members.Perm members') (name : String) : only? name members = only? name members' := by
  have filtered := h.filter fun member => decide (member.1 = some name)
  refine Option.ext fun value => ?_
  rw [only?_eq_some_iff, only?_eq_some_iff]
  constructor
  · intro found
    rw [found] at filtered
    exact List.perm_singleton.1 filtered.symm
  · intro found
    rw [found] at filtered
    exact List.perm_singleton.1 filtered

/-- Members of other names are passed over. -/
theorem only?_append {name : String} {added : List (Option String × Json)}
    (other : ∀ member ∈ added, member.1 ≠ some name) (members : List (Option String × Json)) :
    only? name (added ++ members) = only? name members := by
  have none : added.filter (fun member => decide (member.1 = some name)) = [] := by
    simpa using other
  rw [only?, only?, List.filter_append, none, List.nil_append]

theorem exists_only?_of_related {R : Json → Json → Prop} {name : String}
    {members members' : List (Option String × Json)}
    (h : List.Forall₂ (RelatedMembers R) members members') {value : Json}
    (hvalue : only? name members = some value) :
    ∃ value', only? name members' = some value' ∧ R value value' := by
  have filtered : List.Forall₂ (RelatedMembers R)
      (members.filter fun member => decide (member.1 = some name))
      (members'.filter fun member => decide (member.1 = some name)) := by
    refine List.rel_filter (fun member member' related => ?_) h
    simp [related.1]
  rw [only?_eq_some_iff.1 hvalue] at filtered
  obtain ⟨⟨name', value'⟩, _, ⟨hname, related⟩, last, found⟩ :=
    List.forall₂_cons_left_iff.1 filtered
  cases hname
  cases last
  exact ⟨value', only?_eq_some_iff.2 found, related⟩

/-- The names of the members that are read of a node. -/
def Tag.names : Tag → List String
  | condition => ["type", "field", "operator", "value"]
  | operator => ["type", "value", "left", "right"]

/-- What spells a tag at the root spells it elsewhere. -/
theorem Tag.ofJson?_false {isRoot : Bool} {j : Json} {tag : Tag}
    (h : Tag.ofJson? isRoot j = some tag) : Tag.ofJson? false j = some tag := by
  cases isRoot with
  | false => exact h
  | true =>
      match j with
      | .string (some word) => exact h
      | .number n => cases h

/-- A value that spells a tag has no parts. -/
theorem Tag.parts_of_ofJson? {isRoot : Bool} {j : Json} {tag : Tag}
    (h : Tag.ofJson? isRoot j = some tag) : j.parts = [] := by
  cases j with
  | array items => cases h
  | object members => cases h
  | _ => rfl

/-- An object with these members is a node of this kind. -/
def IsNode (tag : Tag) (members : List (Option String × Json)) : Prop :=
  (only? "type" members).bind (Tag.ofJson? false) = some tag

theorem IsNode.unique {tag tag' : Tag} {members : List (Option String × Json)}
    (h : IsNode tag members) (h' : IsNode tag' members) : tag' = tag :=
  Option.some.inj (h'.symm.trans h)

/-- A node of this kind does not read the member. -/
def Tag.Skips (tag : Tag) (member : Option String × Json) : Prop :=
  ∃ name, member.1 = some name ∧ name ∉ tag.names

theorem Tag.Skips.ne {tag : Tag} {member : Option String × Json} (h : tag.Skips member)
    {name : String} (mem : name ∈ tag.names) : member.1 ≠ some name := by
  obtain ⟨other, hother, notMem⟩ := h
  rw [hother]
  rintro ⟨⟩
  exact notMem mem

theorem Node.ofJson?_perm (isRoot : Bool) {members members' : List (Option String × Json)}
    (h : members.Perm members') :
    Node.ofJson? isRoot (.object members) = Node.ofJson? isRoot (.object members') := by
  simp only [Node.ofJson?, only?_perm h]

/-- Members that a node does not read may be put in front of the others. -/
theorem Node.ofJson?_append (isRoot : Bool) {tag : Tag}
    {members added : List (Option String × Json)} (node : IsNode tag members)
    (skips : ∀ member ∈ added, tag.Skips member) :
    Node.ofJson? isRoot (.object (added ++ members)) =
      Node.ofJson? isRoot (.object members) := by
  have same : ∀ name ∈ tag.names, only? name (added ++ members) = only? name members :=
    fun name mem => only?_append (fun member hmember => (skips member hmember).ne mem) members
  obtain ⟨j, hj, htag⟩ := Option.bind_eq_some_iff.1 node
  have htype : "type" ∈ tag.names := by
    cases tag <;> exact List.mem_cons_self
  simp only [Node.ofJson?, same _ htype, hj, Option.bind_some]
  cases hroot : Tag.ofJson? isRoot j with
  | none => rfl
  | some tag' =>
      rw [Tag.ofJson?_false hroot] at htag
      cases htag
      cases tag with
      | condition =>
          simp only [same "field" (by decide), same "operator" (by decide),
            same "value" (by decide)]
      | operator =>
          simp only [same "value" (by decide), same "left" (by decide), same "right" (by decide)]

/-! ## Nodes with related parts -/

/-- The nodes are of one kind, and their parts are related. -/
inductive Node.Related (R : Json → Json → Prop) : Node → Node → Prop
  | condition {field field' comparator comparator' value value' : Json} (hfield : R field field')
    (hcomparator : R comparator comparator') (hvalue : R value value') :
    Related R (.condition field comparator value) (.condition field' comparator' value')
  | operator {op op' left left' right right' : Json} (hop : R op op') (hleft : R left left')
    (hright : R right right') : Related R (.operator op left right) (.operator op' left' right')

section Related

variable {R : Json → Json → Prop} (same : ∀ {j j' : Json}, R j j' → j.parts = [] → j' = j)

include same

theorem Tag.ofJson?_of_related {isRoot : Bool} {j j' : Json} (h : R j j') {tag : Tag}
    (htag : Tag.ofJson? isRoot j = some tag) : Tag.ofJson? isRoot j' = some tag := by
  rwa [same h (Tag.parts_of_ofJson? htag)]

theorem Node.exists_ofJson?_object {isRoot : Bool}
    {members members' : List (Option String × Json)}
    (h : List.Forall₂ (RelatedMembers R) members members') {node : Node}
    (hnode : Node.ofJson? isRoot (.object members) = some node) :
    ∃ node', Node.ofJson? isRoot (.object members') = some node' ∧ node.Related R node' := by
  simp only [Node.ofJson?] at hnode ⊢
  obtain ⟨j, hj, hnode⟩ := Option.bind_eq_some_iff.1 hnode
  obtain ⟨j', hj', related⟩ := exists_only?_of_related h hj
  rw [hj', Option.bind_some]
  split at hnode
  · next htag =>
    rw [Tag.ofJson?_of_related same related htag]
    simp only [Option.bind_eq_bind, Option.bind_eq_some_iff] at hnode
    obtain ⟨field, hfield, comparator, hcomparator, value, hvalue, hnode⟩ := hnode
    cases hnode
    obtain ⟨field', hfield', relatedField⟩ := exists_only?_of_related h hfield
    obtain ⟨comparator', hcomparator', relatedComparator⟩ :=
      exists_only?_of_related h hcomparator
    obtain ⟨value', hvalue', relatedValue⟩ := exists_only?_of_related h hvalue
    rw [hfield', hcomparator', hvalue']
    exact ⟨_, rfl, .condition relatedField relatedComparator relatedValue⟩
  · next htag =>
    rw [Tag.ofJson?_of_related same related htag]
    simp only [Option.bind_eq_bind, Option.bind_eq_some_iff] at hnode
    obtain ⟨op, hop, left, hleft, right, hright, hnode⟩ := hnode
    cases hnode
    obtain ⟨op', hop', relatedOp⟩ := exists_only?_of_related h hop
    obtain ⟨left', hleft', relatedLeft⟩ := exists_only?_of_related h hleft
    obtain ⟨right', hright', relatedRight⟩ := exists_only?_of_related h hright
    rw [hop', hleft', hright']
    exact ⟨_, rfl, .operator relatedOp relatedLeft relatedRight⟩
  · cases hnode

theorem Node.exists_ofJson?_array {isRoot : Bool} {items items' : List Json}
    (h : List.Forall₂ R items items') {node : Node}
    (hnode : Node.ofJson? isRoot (.array items) = some node) :
    ∃ node', Node.ofJson? isRoot (.array items') = some node' ∧ node.Related R node' := by
  rw [Node.ofJson?.eq_def] at hnode
  split at hnode
  · next hitems => cases hitems
  · next tag first second third hitems =>
    cases hitems
    simp only [List.forall₂_cons_left_iff, List.forall₂_nil_left_iff] at h
    obtain ⟨tag', _, relatedTag, ⟨first', _, relatedFirst, ⟨second', _, relatedSecond,
      ⟨third', _, relatedThird, rfl, rfl⟩, rfl⟩, rfl⟩, rfl⟩ := h
    split at hnode
    · next htag =>
      cases hnode
      rw [Node.ofJson?, Tag.ofJson?_of_related same relatedTag htag]
      exact ⟨_, rfl, .condition relatedFirst relatedSecond relatedThird⟩
    · next htag =>
      cases hnode
      rw [Node.ofJson?, Tag.ofJson?_of_related same relatedTag htag]
      exact ⟨_, rfl, .operator relatedFirst relatedSecond relatedThird⟩
    · cases hnode
  · cases hnode

end Related

/-! ## Representable values -/

theorem membersRepresentable_iff {members : List (Option String × Json)} :
    membersRepresentable members = true ↔
      ∀ member ∈ members, member.1.isSome = true ∧ member.2.isRepresentable = true := by
  induction members with
  | nil => simp [membersRepresentable]
  | cons member members ih =>
      obtain ⟨name, value⟩ := member
      rw [membersRepresentable, Bool.and_eq_true, Bool.and_eq_true, ih, List.forall_mem_cons]

/-! ## Members arranged otherwise -/

/-- An object with these members is a node that does not read the member, and what the member
says can be represented. -/
def IsSpare (members : List (Option String × Json)) (member : Option String × Json) : Prop :=
  ∃ tag, IsNode tag members ∧ tag.Skips member ∧ member.2.isRepresentable = true

section Arranged

variable {members members' added : List (Option String × Json)}

/-- Members to spare are none, or those of a node of one kind. -/
theorem eq_nil_or_exists_isNode (spare : ∀ member ∈ added, IsSpare members member) :
    added = [] ∨ ∃ tag, IsNode tag members ∧ ∀ member ∈ added, tag.Skips member := by
  cases added with
  | nil => exact .inl rfl
  | cons first added =>
      obtain ⟨tag, node, -, -⟩ := spare first List.mem_cons_self
      refine .inr ⟨tag, node, fun member hmember => ?_⟩
      obtain ⟨tag', node', skips, -⟩ := spare member hmember
      rwa [node.unique node'] at skips

variable (perm : members'.Perm (added ++ members))

include perm

theorem Node.ofJson?_arranged (spare : ∀ member ∈ added, IsSpare members member)
    (isRoot : Bool) :
    Node.ofJson? isRoot (.object members') = Node.ofJson? isRoot (.object members) := by
  rw [Node.ofJson?_perm isRoot perm]
  rcases eq_nil_or_exists_isNode spare with rfl | ⟨tag, node, skips⟩
  · rfl
  · exact Node.ofJson?_append isRoot node skips

theorem membersRepresentable_arranged (spare : ∀ member ∈ added, IsSpare members member)
    (h : membersRepresentable members = true) : membersRepresentable members' = true := by
  rw [membersRepresentable_iff] at h ⊢
  intro member hmember
  rcases List.mem_append.1 (perm.mem_iff.1 hmember) with hmember | hmember
  · obtain ⟨_, -, ⟨name, hname, -⟩, representable⟩ := spare member hmember
    exact ⟨by rw [hname]; rfl, representable⟩
  · exact h member hmember

end Arranged

theorem depthOfItems_perm {items items' : List Json} (h : items.Perm items') :
    depthOfItems items = depthOfItems items' := by
  induction h with
  | nil => rfl
  | cons item h ih => rw [depthOfItems, depthOfItems, ih]
  | swap first second items =>
      simp only [depthOfItems]
      exact Nat.max_left_comm _ _ _
  | trans h h' ih ih' => exact ih.trans ih'

theorem depth_object_perm {members members' : List (Option String × Json)}
    (h : members.Perm members') : (object members).depth = (object members').depth := by
  rw [depth, depth, depthOfMembers_eq, depthOfMembers_eq, depthOfItems_perm (h.map Prod.snd)]

/-- How deep a container is depends on how deep the values in it are. -/
theorem congruence_depth : Congruence fun j j' => j'.depth = j.depth where
  refl := fun _ => rfl
  array := by
    intro items items' h
    refine congrArg (· + 1) ?_
    induction h with
    | nil => rfl
    | cons part h ih => rw [depthOfItems, depthOfItems, ih, part]
  object := by
    intro members members' h
    refine congrArg (· + 1) ?_
    induction h with
    | nil => rfl
    | cons related h ih => rw [depthOfMembers, depthOfMembers, ih, related.2]

end Json

end Eligibility
