import Eligibility.Proofs.Json.Nesting

/-!
# Containers that are open in the middle of a text

The nesting of a text bounds what a reader of the text has to keep: at no place are more
containers open than the text nests (`length_frames_le_nesting`), whether the text turns out
to be JSON or not. So a text can be looked at before it is read, and is refused if it nests
too deep.

The scan may look at the bytes of a text instead of its characters, and stop at the first
container too many (`nestsBeyond_iff`). All bytes of a character beyond ASCII are at least
128, and so none of them is taken for a bracket, a quote or a backslash.
-/

namespace Eligibility.Json

/-! ## What a scan has seen -/

namespace Scan

variable {scan : Scan}

theorem deepest_step (seen : scan.depth ≤ scan.deepest) (c : Char) :
    (scan.step c).deepest = max scan.deepest (scan.step c).depth := by
  obtain ⟨phase, depth, deepest⟩ := scan
  have same : max deepest depth = deepest := Nat.max_eq_left seen
  cases phase with
  | escape => exact same.symm
  | inside =>
      simp only [step]
      split
      · exact same.symm
      · split <;> exact same.symm
  | outside =>
      simp only [step]
      split
      · exact same.symm
      · split
        · rfl
        · split
          · exact (Nat.max_eq_left (Nat.le_trans (Nat.sub_le depth 1) seen)).symm
          · exact same.symm

theorem depth_le_deepest_step (seen : scan.depth ≤ scan.deepest) (c : Char) :
    (scan.step c).depth ≤ (scan.step c).deepest := by
  rw [deepest_step seen]
  exact Nat.le_max_right _ _

theorem depth_le_deepest_foldl (seen : scan.depth ≤ scan.deepest) (cs : List Char) :
    (cs.foldl step scan).depth ≤ (cs.foldl step scan).deepest := by
  induction cs generalizing scan with
  | nil => exact seen
  | cons c cs ih => exact ih (depth_le_deepest_step seen c)

/-- What has been seen once is not forgotten. -/
theorem deepest_le_foldl (seen : scan.depth ≤ scan.deepest) (cs : List Char) :
    scan.deepest ≤ (cs.foldl step scan).deepest := by
  induction cs generalizing scan with
  | nil => exact Nat.le_refl _
  | cons c cs ih =>
      refine Nat.le_trans ?_ (ih (depth_le_deepest_step seen c))
      rw [deepest_step seen]
      exact Nat.le_max_left _ _

end Scan

/-- A text nests at least as deep as the containers that are open somewhere in it. -/
theorem depth_foldl_le_nesting {text : String} {begun : List Char} (h : begun <+: text.toList) :
    (begun.foldl Scan.step {}).depth ≤ nesting text := by
  obtain ⟨rest, hrest⟩ := h
  have seen : (begun.foldl Scan.step {}).depth ≤ (begun.foldl Scan.step {}).deepest :=
    Scan.depth_le_deepest_foldl (Nat.le_refl 0) begun
  rw [nesting, ← hrest, List.foldl_append]
  exact Nat.le_trans seen (Scan.deepest_le_foldl seen rest)

/-! ## What a reader has open -/

/-- However far a reader has come in a text, it has no more containers open than the text
nests. -/
theorem length_frames_le_nesting {text : String} {begun : List Char} {reader : Reader}
    (begins : begun <+: text.toList)
    (h : begun.foldlM Reader.step Reader.start = some reader) :
    reader.frames.length ≤ nesting text := by
  rw [← (follows_start.foldl h).depth]
  exact depth_foldl_le_nesting begins

/-- A text is the beginning of some JSON text. -/
def Begins (begun : List Char) : Prop :=
  ∃ later j, read (String.ofList (begun ++ later)) = some j

theorem Begins.exists_reader {begun : List Char} (h : Begins begun) :
    ∃ reader, begun.foldlM Reader.step Reader.start = some reader := by
  obtain ⟨later, j, hread⟩ := h
  rw [read, String.toList_ofList, List.foldlM_append] at hread
  obtain ⟨last, hlast, -⟩ := Option.bind_eq_some_iff.1 hread
  obtain ⟨reader, hreader, -⟩ := Option.bind_eq_some_iff.1 hlast
  exact ⟨reader, hreader⟩

/-! ## Bytes -/

/-- The bytes of a character beyond ASCII are beyond ASCII. -/
theorem le_toNat_of_mem_utf8EncodeChar {c : Char} (beyond : 127 < c.toNat) {b : UInt8}
    (h : b ∈ String.utf8EncodeChar c) : 128 ≤ b.toNat := by
  have byte : ∀ n k : Nat, 128 ≤ k → n + k < 256 → 128 ≤ (UInt8.ofNat (n + k)).toNat := by
    intro n k low high
    rw [UInt8.toNat_ofNat_of_lt' high]
    omega
  change 127 < c.val.toNat at beyond
  simp only [String.utf8EncodeChar, Nat.not_le_of_lt beyond, if_false] at h
  split at h
  · simp only [List.mem_cons, List.not_mem_nil, or_false] at h
    rcases h with rfl | rfl
    all_goals exact byte _ _ (by decide) (by omega)
  · split at h
    · simp only [List.mem_cons, List.not_mem_nil, or_false] at h
      rcases h with rfl | rfl | rfl
      all_goals exact byte _ _ (by decide) (by omega)
    · simp only [List.mem_cons, List.not_mem_nil, or_false] at h
      rcases h with rfl | rfl | rfl | rfl
      all_goals exact byte _ _ (by decide) (by omega)

namespace Scan

variable {scan : Scan}

/-- A scan behind a character that is no bracket, no quote and no backslash. -/
def passed (scan : Scan) : Scan :=
  if scan.phase = .escape then { scan with phase := .inside } else scan

theorem passed_passed (scan : Scan) : scan.passed.passed = scan.passed := by
  obtain ⟨phase, depth, deepest⟩ := scan
  cases phase <;> rfl

theorem step_of_beyond {c : Char} (beyond : 127 < c.toNat) : scan.step c = scan.passed := by
  have ne : ∀ c' : Char, c'.toNat ≤ 127 → c ≠ c' := by
    rintro c' ascii rfl
    exact Nat.not_lt_of_le ascii beyond
  obtain ⟨phase, depth, deepest⟩ := scan
  simp only [step, ne '"' (by decide), ne '\\' (by decide), ne '{' (by decide),
    ne '[' (by decide), ne '}' (by decide), ne ']' (by decide), if_false, or_self]
  cases phase <;> rfl

/-- Passes over one byte, as over the character that has it as its code. -/
def stepByte (scan : Scan) (b : UInt8) : Scan :=
  scan.step (Char.ofNat b.toNat)

theorem toNat_ofNat_of_lt {n : Nat} (h : n < 256) : (Char.ofNat n).toNat = n := by
  rw [Char.ofNat, dif_pos (.inl (by omega))]
  rfl

theorem foldl_stepByte_of_beyond {bytes : List UInt8} (ne : bytes ≠ [])
    (beyond : ∀ b ∈ bytes, 128 ≤ b.toNat) : bytes.foldl stepByte scan = scan.passed := by
  induction bytes generalizing scan with
  | nil => exact absurd rfl ne
  | cons b bytes ih =>
      obtain ⟨first, later⟩ := List.forall_mem_cons.1 beyond
      have step : scan.stepByte b = scan.passed := by
        refine step_of_beyond ?_
        rwa [toNat_ofNat_of_lt b.toNat_lt]
      rw [List.foldl_cons, step]
      by_cases last : bytes = []
      · rw [last, List.foldl_nil]
      · rw [ih last later, passed_passed]

/-- The bytes of a character are passed over as the character is. -/
theorem foldl_stepByte_utf8EncodeChar (c : Char) :
    (String.utf8EncodeChar c).foldl stepByte scan = scan.step c := by
  rcases Nat.lt_or_ge 127 c.toNat with beyond | ascii
  · rw [step_of_beyond beyond, foldl_stepByte_of_beyond String.utf8EncodeChar_ne_nil
      fun b hb => le_toNat_of_mem_utf8EncodeChar beyond hb]
  · have single : String.utf8EncodeChar c = [UInt8.ofNat c.toNat] := if_pos ascii
    have code : (UInt8.ofNat c.toNat).toNat = c.toNat :=
      UInt8.toNat_ofNat_of_lt' (Nat.lt_of_le_of_lt ascii (by decide))
    rw [single, List.foldl_cons, List.foldl_nil, stepByte, code, Char.ofNat_toNat]

theorem foldl_stepByte_toUTF8 (text : String) :
    text.toUTF8.data.toList.foldl stepByte scan = text.toList.foldl step scan := by
  have bytes : text.toUTF8.data.toList = text.toList.flatMap String.utf8EncodeChar := by
    rw [String.toUTF8_eq_toByteArray, ← String.utf8Encode_toList, List.utf8Encode,
      List.data_toByteArray]
  rw [bytes, List.foldl_flatMap]
  exact congrArg (fun f => text.toList.foldl f scan)
    (funext fun scan => funext fun c => foldl_stepByte_utf8EncodeChar c)

/-- Whether there come to be more than `limit` containers open at a time. The bytes behind
the first container too many are not looked at. -/
def exceeds (limit : Nat) : Scan → List UInt8 → Bool
  | _, [] => false
  | scan, b :: bytes =>
    if limit < (scan.stepByte b).depth then true else exceeds limit (scan.stepByte b) bytes

theorem deepest_le_foldl_stepByte (seen : scan.depth ≤ scan.deepest) (bytes : List UInt8) :
    scan.deepest ≤ (bytes.foldl stepByte scan).deepest := by
  have fold : bytes.foldl stepByte scan =
      (bytes.map fun b => Char.ofNat b.toNat).foldl step scan := by
    rw [List.foldl_map]
    rfl
  rw [fold]
  exact deepest_le_foldl seen _

theorem exceeds_iff {limit : Nat} {bytes : List UInt8} (seen : scan.depth ≤ scan.deepest)
    (within : scan.deepest ≤ limit) :
    scan.exceeds limit bytes = true ↔ limit < (bytes.foldl stepByte scan).deepest := by
  induction bytes generalizing scan with
  | nil => simp [exceeds, Nat.not_lt_of_le within]
  | cons b bytes ih =>
      have seen' : (scan.stepByte b).depth ≤ (scan.stepByte b).deepest :=
        depth_le_deepest_step seen _
      have deepest : (scan.stepByte b).deepest = max scan.deepest (scan.stepByte b).depth :=
        deepest_step seen _
      rw [exceeds, List.foldl_cons]
      split
      · next many =>
        refine iff_of_true rfl (Nat.lt_of_lt_of_le many ?_)
        exact Nat.le_trans seen' (deepest_le_foldl_stepByte seen' bytes)
      · next few => exact ih seen' (deepest ▸ Nat.max_le.2 ⟨within, Nat.le_of_not_lt few⟩)

end Scan

/-- Whether the containers of a text nest deeper than `limit`, as its bytes tell. -/
def nestsBeyond (limit : Nat) (text : String) : Bool :=
  Scan.exceeds limit {} text.toUTF8.data.toList

theorem nestsBeyond_iff {limit : Nat} {text : String} :
    nestsBeyond limit text = true ↔ limit < nesting text := by
  rw [nestsBeyond, Scan.exceeds_iff (Nat.le_refl 0) (Nat.zero_le limit),
    Scan.foldl_stepByte_toUTF8, nesting]

/-- A text that denotes a value nests as deep as the value, and no text nests less deep than a
reader of it goes: where a text does not nest beyond the limit, neither a beginning of it that
is one of some JSON text, nor any other that a reader takes, has more containers open at its
end. The bytes of the text tell whether it nests beyond the limit. -/
theorem lt_nesting_iff_and_length_frames_le (text : String) (limit : Nat) :
    (nestsBeyond limit text = true ↔ limit < nesting text) ∧
      (∀ j, read text = some j → (limit < nesting text ↔ limit < j.depth)) ∧
      (nesting text ≤ limit → ∀ begun : List Char, begun <+: text.toList →
        (Begins begun → ∃ reader, begun.foldlM Reader.step Reader.start = some reader ∧
          reader.frames.length ≤ limit) ∧
        ∀ reader, begun.foldlM Reader.step Reader.start = some reader →
          reader.frames.length ≤ limit) := by
  refine ⟨nestsBeyond_iff, ?_, ?_⟩
  · intro j hread
    rw [nesting_eq_depth hread]
  · intro low begun begins
    have within : ∀ reader, begun.foldlM Reader.step Reader.start = some reader →
        reader.frames.length ≤ limit :=
      fun reader h => Nat.le_trans (length_frames_le_nesting begins h) low
    refine ⟨fun viable => ?_, within⟩
    obtain ⟨reader, hreader⟩ := viable.exists_reader
    exact ⟨reader, hreader, within reader hreader⟩

/-- Brackets and quotes in strings, escaped and not, and a character of two bytes. -/
def bracketed : String :=
  "[\x7b\"a\\\"[é\": [\"\\u005b\\\\\"]\x7d, \"\x7d\"]"

/-- No JSON text: a bracket of the wrong kind stands in it, and it breaks off in a string. -/
def brokenOff : String :=
  "[\x7b\"a\": [1, 2\x7d, \"[["

/-- A beginning of `brokenOff` that can be completed. -/
def brokenOffBegun : List Char :=
  "[\x7b\"a\": [1".toList

theorem lt_nesting_iff_and_length_frames_le_bracketed :
    (∃ j, read bracketed = some j ∧ j.depth = 3 ∧ (2 < nesting bracketed ↔ 2 < j.depth)) ∧
      read brokenOff = none ∧ nesting brokenOff ≤ 3 ∧ brokenOffBegun <+: brokenOff.toList ∧
      Begins brokenOffBegun ∧
      ∃ reader, brokenOffBegun.foldlM Reader.step Reader.start = some reader ∧
        reader.frames.length ≤ 3 := by
  have value : (read bracketed).isSome = true := by decide +kernel
  obtain ⟨j, hj⟩ := Option.isSome_iff_exists.1 value
  have depth : j.depth = 3 := by
    rw [← nesting_eq_depth hj]
    decide +kernel
  have low : nesting brokenOff ≤ 3 := by decide +kernel
  have begins : brokenOffBegun <+: brokenOff.toList := by decide +kernel
  have completed : (read (String.ofList (brokenOffBegun ++ [']', '}', ']']))).isSome = true := by
    decide +kernel
  have viable : Begins brokenOffBegun := ⟨_, Option.isSome_iff_exists.1 completed⟩
  exact ⟨⟨j, hj, depth, (lt_nesting_iff_and_length_frames_le bracketed 2).2.1 j hj⟩,
    Option.isNone_iff_eq_none.1 (by decide +kernel), low, begins, viable,
    ((lt_nesting_iff_and_length_frames_le brokenOff 3).2.2 low _ begins).1 viable⟩

end Eligibility.Json
