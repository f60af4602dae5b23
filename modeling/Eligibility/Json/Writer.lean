import Eligibility.Json

/-!
# JSON texts from values

Writes a value without any white space. Strings escape the quote, the backslash
and the characters below the space, each by its short escape if it has one. The
text is built from the end: `chars j rest` is the text of `j` in front of `rest`.
-/

namespace Eligibility.Json

/-- The hexadecimal digit of a number below 16, in lower case. -/
def hexDigit (n : Nat) : Char := Nat.digitChar n

/-- A character of a string as it is written between the quotes. -/
def escapeChar (c : Char) : List Char :=
  if c = '"' then ['\\', '"']
  else if c = '\\' then ['\\', '\\']
  else if c = '\x08' then ['\\', 'b']
  else if c = '\x0c' then ['\\', 'f']
  else if c = '\n' then ['\\', 'n']
  else if c = '\r' then ['\\', 'r']
  else if c = '\t' then ['\\', 't']
  else if c.toNat < 0x20 then
    ['\\', 'u', '0', '0', hexDigit (c.toNat / 16), hexDigit (c.toNat % 16)]
  else [c]

/-- A string in front of `rest`. A string that is no text is written as a
surrogate without its partner. -/
def stringChars (text : Option String) (rest : List Char) : List Char :=
  match text with
  | some s => '"' :: (s.toList.flatMap escapeChar ++ '"' :: rest)
  | none => '"' :: '\\' :: 'u' :: 'd' :: '8' :: '0' :: '0' :: '"' :: rest

/-- A number in front of `rest`. -/
def numberChars (n : Number) (rest : List Char) : List Char :=
  let sign := if n.negative then ['-'] else []
  let fraction :=
    if n.fraction.isEmpty then [] else '.' :: n.fraction.map fun d => Nat.digitChar d.val
  let exponent :=
    match n.exponent with
    | none => []
    | some e => 'e' :: (if e < 0 then '-' :: Nat.toDigits 10 e.natAbs
        else Nat.toDigits 10 e.natAbs)
  sign ++ (Nat.toDigits 10 n.whole ++ (fraction ++ (exponent ++ rest)))

mutual

/-- The text of a value in front of `rest`. -/
def chars : Json → List Char → List Char
  | null, rest => 'n' :: 'u' :: 'l' :: 'l' :: rest
  | bool true, rest => 't' :: 'r' :: 'u' :: 'e' :: rest
  | bool false, rest => 'f' :: 'a' :: 'l' :: 's' :: 'e' :: rest
  | number n, rest => numberChars n rest
  | string text, rest => stringChars text rest
  | array items, rest => '[' :: itemChars items (']' :: rest)
  | object members, rest => '{' :: memberChars members ('}' :: rest)

/-- The items of an array with commas between them. -/
def itemChars : List Json → List Char → List Char
  | [], rest => rest
  | item :: items, rest => item.chars (laterItemChars items rest)

/-- Items that follow another one. -/
def laterItemChars : List Json → List Char → List Char
  | [], rest => rest
  | item :: items, rest => ',' :: item.chars (laterItemChars items rest)

/-- The members of an object with commas between them. -/
def memberChars : List (Option String × Json) → List Char → List Char
  | [], rest => rest
  | (name, value) :: members, rest =>
    stringChars name (':' :: value.chars (laterMemberChars members rest))

/-- Members that follow another one. -/
def laterMemberChars : List (Option String × Json) → List Char → List Char
  | [], rest => rest
  | (name, value) :: members, rest =>
    ',' :: stringChars name (':' :: value.chars (laterMemberChars members rest))

end

/-- The text of a value. -/
def write (j : Json) : String :=
  String.ofList (j.chars [])

end Eligibility.Json
