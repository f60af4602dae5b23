import Eligibility.Json

/-!
# JSON values from texts

A reader takes a JSON text character by character. It keeps the containers that
are open, with what has been read of them, and the phase that says what may come
next (`Reader.step`); there is no limit on how many containers are open. A
character that no JSON text could have at this place stops it.

White space is the space, the tab, the line feed and the carriage return, and
nothing else may follow the value.
-/

namespace Eligibility.Json

/-- White space between the parts of a JSON text. -/
def isSpace (c : Char) : Bool :=
  c = ' ' || c = '\t' || c = '\n' || c = '\r'

/-- What stands between the quotes of a string: characters, and escapes that
give a UTF-16 code unit. -/
inductive Piece where
  | char (c : Char)
  | unit (u : Nat)
deriving DecidableEq, Repr, Inhabited

/-- The characters that the pieces spell. Two units that make up a surrogate pair
are one character; a surrogate without its partner is none. -/
def charsOfPieces? : List Piece → Option (List Char)
  | [] => some []
  | .char c :: rest => (charsOfPieces? rest).map (c :: ·)
  | .unit u :: rest =>
    if u < 0xD800 ∨ 0xE000 ≤ u then (charsOfPieces? rest).map (Char.ofNat u :: ·)
    else
      match rest with
      | .unit v :: rest =>
        if u < 0xDC00 ∧ 0xDC00 ≤ v ∧ v < 0xE000 then
          (charsOfPieces? rest).map
            (Char.ofNat (0x10000 + 0x400 * (u - 0xD800) + (v - 0xDC00)) :: ·)
        else none
      | _ => none

/-- How far a string has been read since its last piece. -/
inductive StringPhase where
  | plain
  /-- After a backslash. -/
  | escape
  /-- After `count` of the four digits of a unit, which make up `u` so far. -/
  | unit (count u : Nat)
deriving DecidableEq, Repr, Inhabited

/-- The value of a hexadecimal digit. -/
def hexValue? (c : Char) : Option Nat :=
  if '0' ≤ c ∧ c ≤ '9' then some (c.toNat - '0'.toNat)
  else if 'a' ≤ c ∧ c ≤ 'f' then some (c.toNat - 'a'.toNat + 10)
  else if 'A' ≤ c ∧ c ≤ 'F' then some (c.toNat - 'A'.toNat + 10)
  else none

/-- The character of a short escape. -/
def shortEscape? : Char → Option Char
  | '"' => some '"'
  | '\\' => some '\\'
  | '/' => some '/'
  | 'b' => some '\x08'
  | 'f' => some '\x0c'
  | 'n' => some '\n'
  | 'r' => some '\r'
  | 't' => some '\t'
  | _ => none

/-- The part of a number that is being read. -/
inductive NumberPhase where
  /-- After the minus sign. -/
  | sign
  /-- After a leading zero, which no digit may follow. -/
  | zero
  | whole
  /-- After the point. -/
  | point
  | fraction
  /-- After the mark of the exponent. -/
  | mark
  /-- After the sign of the exponent. -/
  | exponentSign
  | exponent
deriving DecidableEq, Repr, Inhabited

/-- What has been read of a number, the digits of the fraction latest first. -/
structure NumberPart where
  phase : NumberPhase
  negative : Bool := false
  whole : Nat := 0
  fraction : List (Fin 10) := []
  exponentNegative : Bool := false
  exponent : Nat := 0
deriving DecidableEq, Repr, Inhabited

namespace NumberPart

/-- The number that starts with a character. -/
def start? (c : Char) : Option NumberPart :=
  if c = '-' then some { phase := .sign, negative := true }
  else if c = '0' then some { phase := .zero }
  else (digitValue? c).map fun d => { phase := .whole, whole := d }

/-- The number with one more character, if the character is part of it. -/
def read (part : NumberPart) (c : Char) : Option NumberPart :=
  match part.phase with
  | .sign =>
    if c = '0' then some { part with phase := .zero }
    else (digitValue? c).map fun d => { part with phase := .whole, whole := d }
  | .zero =>
    if c = '.' then some { part with phase := .point }
    else if c = 'e' ∨ c = 'E' then some { part with phase := .mark }
    else none
  | .whole =>
    if c = '.' then some { part with phase := .point }
    else if c = 'e' ∨ c = 'E' then some { part with phase := .mark }
    else (digitValue? c).map fun d => { part with whole := 10 * part.whole + d }
  | .point =>
    (digitValue? c).map fun d => { part with phase := .fraction, fraction := [d] }
  | .fraction =>
    if c = 'e' ∨ c = 'E' then some { part with phase := .mark }
    else (digitValue? c).map fun d => { part with fraction := d :: part.fraction }
  | .mark =>
    if c = '+' then some { part with phase := .exponentSign }
    else if c = '-' then some { part with phase := .exponentSign, exponentNegative := true }
    else (digitValue? c).map fun d => { part with phase := .exponent, exponent := d }
  | .exponentSign =>
    (digitValue? c).map fun d => { part with phase := .exponent, exponent := d }
  | .exponent =>
    (digitValue? c).map fun d => { part with exponent := 10 * part.exponent + d }

/-- The number, if it may end here. -/
def number? (part : NumberPart) : Option Number :=
  match part.phase with
  | .zero | .whole | .fraction =>
    some ⟨part.negative, part.whole, part.fraction.reverse, none⟩
  | .exponent =>
    some ⟨part.negative, part.whole, part.fraction.reverse,
      some (if part.exponentNegative then -(part.exponent : Int) else part.exponent)⟩
  | _ => none

end NumberPart

/-- An open container, with what has been read of it, latest first. An object
also has the name that was read last. -/
inductive Frame where
  | array (items : List Json)
  | object (members : List (Option String × Json)) (name : Option String)
deriving Inhabited

/-- What may come next. -/
inductive Phase where
  /-- A value. -/
  | value
  /-- A value, or the end of the array that has just been opened. -/
  | firstItem
  /-- A name. -/
  | name
  /-- A name, or the end of the object that has just been opened. -/
  | firstName
  | colon
  /-- A comma, or the end of the innermost container. -/
  | separator
  /-- The end of the text. -/
  | done (j : Json)
  /-- The rest of a word that stands for a value. -/
  | word (rest : List Char) (j : Json)
  | number (part : NumberPart)
  /-- The rest of a string; its pieces are kept latest first. -/
  | string (isName : Bool) (pieces : List Piece) (phase : StringPhase)
deriving Inhabited

/-- A reader in the middle of a text. Of the open containers the innermost comes
first. -/
structure Reader where
  phase : Phase
  frames : List Frame
deriving Inhabited

namespace Reader

/-- Nothing has been read. -/
def start : Reader := ⟨.value, []⟩

/-- A value has ended: it is put into the innermost container, or is the value of
the text. -/
def store (j : Json) : List Frame → Reader
  | [] => ⟨.done j, []⟩
  | .array items :: frames => ⟨.separator, .array (j :: items) :: frames⟩
  | .object members name :: frames =>
    ⟨.separator, .object ((name, j) :: members) name :: frames⟩

/-- A string has ended. -/
def storeString (isName : Bool) (pieces : List Piece) (frames : List Frame) :
    Option Reader :=
  let text := (charsOfPieces? pieces.reverse).map String.ofList
  if isName then
    match frames with
    | .object members _ :: frames => some ⟨.colon, .object members text :: frames⟩
    | _ => none
  else some (store (.string text) frames)

/-- The first character of a value. -/
def open? (frames : List Frame) (c : Char) : Option Reader :=
  match c with
  | '{' => some ⟨.firstName, .object [] none :: frames⟩
  | '[' => some ⟨.firstItem, .array [] :: frames⟩
  | '"' => some ⟨.string false [] .plain, frames⟩
  | 'n' => some ⟨.word ['u', 'l', 'l'] .null, frames⟩
  | 't' => some ⟨.word ['r', 'u', 'e'] (.bool true), frames⟩
  | 'f' => some ⟨.word ['a', 'l', 's', 'e'] (.bool false), frames⟩
  | c => (NumberPart.start? c).map fun part => ⟨.number part, frames⟩

/-- The end of the innermost container, by its closing bracket. -/
def close? (frames : List Frame) (c : Char) : Option Reader :=
  match c, frames with
  | ']', .array items :: frames => some (store (.array items.reverse) frames)
  | '}', .object members _ :: frames => some (store (.object members.reverse) frames)
  | _, _ => none

/-- One character between the words, numbers and strings of a text. -/
def between (phase : Phase) (frames : List Frame) (c : Char) : Option Reader :=
  if isSpace c then some ⟨phase, frames⟩
  else
    match phase with
    | .value => open? frames c
    | .firstItem => if c = ']' then close? frames c else open? frames c
    | .name => if c = '"' then some ⟨.string true [] .plain, frames⟩ else none
    | .firstName =>
      if c = '"' then some ⟨.string true [] .plain, frames⟩ else close? frames c
    | .colon => if c = ':' then some ⟨.value, frames⟩ else none
    | .separator =>
      if c = ',' then
        match frames with
        | .array _ :: _ => some ⟨.value, frames⟩
        | .object _ _ :: _ => some ⟨.name, frames⟩
        | [] => none
      else close? frames c
    | _ => none

/-- One character of a string. -/
def inString (isName : Bool) (pieces : List Piece) (phase : StringPhase)
    (frames : List Frame) (c : Char) : Option Reader :=
  match phase with
  | .plain =>
    if c = '"' then storeString isName pieces frames
    else if c = '\\' then some ⟨.string isName pieces .escape, frames⟩
    else if c.toNat < 0x20 then none
    else some ⟨.string isName (.char c :: pieces) .plain, frames⟩
  | .escape =>
    if c = 'u' then some ⟨.string isName pieces (.unit 0 0), frames⟩
    else
      (shortEscape? c).map fun c => ⟨.string isName (.char c :: pieces) .plain, frames⟩
  | .unit count u =>
    (hexValue? c).map fun d =>
      let u := 16 * u + d
      if count = 3 then ⟨.string isName (.unit u :: pieces) .plain, frames⟩
      else ⟨.string isName pieces (.unit (count + 1) u), frames⟩

/-- Reads one character. A character that is not part of a number ends it. -/
def step (reader : Reader) (c : Char) : Option Reader :=
  match reader.phase with
  | .string isName pieces phase => inString isName pieces phase reader.frames c
  | .word [] _ => none
  | .word [last] j => if c = last then some (store j reader.frames) else none
  | .word (next :: rest) j =>
    if c = next then some ⟨.word rest j, reader.frames⟩ else none
  | .number part =>
    match part.read c with
    | some part => some ⟨.number part, reader.frames⟩
    | none =>
      part.number?.bind fun n =>
        let stored := store (.number n) reader.frames
        between stored.phase stored.frames c
  | phase => between phase reader.frames c

/-- The value of the text, if it ends here. -/
def finish (reader : Reader) : Option Json :=
  match reader.phase, reader.frames with
  | .done j, _ => some j
  | .number part, [] => part.number?.map .number
  | _, _ => none

end Reader

/-- The value that a JSON text denotes. -/
def read (text : String) : Option Json :=
  (text.toList.foldlM Reader.step Reader.start).bind Reader.finish

end Eligibility.Json
