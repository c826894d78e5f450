import Safeguard.Decimal.Layout

/-!
# Writing JSON text

A document to be written is a tree of `Value`s. It has a compact text without
any blanks, and an indented one with a member on each line, two more blanks for
each level.

## Main definitions

* `Json.Value`: a document to be written.
* `Json.Value.compact`, `Json.Value.indented`: its two texts.
-/

namespace Safeguard.Json

/-- A document to be written. -/
inductive Value where
  | null
  | bool (b : Bool)
  | natural (n : Nat)
  | real (x : Float)
  | text (s : String)
  | object (members : List (String × Value))

/-- A hexadecimal digit. -/
def hexDigit (n : Nat) : Char := (Nat.digitChar (n % 16))

/-- A character inside a quoted text: quotes, backslashes and control characters
are escaped. -/
def escape (c : Char) : List Char :=
  if c = '"' then ['\\', '"']
  else if c = '\\' then ['\\', '\\']
  else if c = '\x08' then ['\\', 'b']
  else if c = '\x0c' then ['\\', 'f']
  else if c = '\n' then ['\\', 'n']
  else if c = '\r' then ['\\', 'r']
  else if c = '\t' then ['\\', 't']
  else if c.toNat < 0x20 then
    ['\\', 'u', '0', '0', hexDigit (c.toNat / 16), hexDigit c.toNat]
  else [c]

/-- A text between quotes. -/
def quoted (s : String) : List Char := '"' :: s.toList.flatMap escape ++ ['"']

namespace Value

/-- The text of a value without members; a number without finite value is
written as `null`. -/
def scalarText : Value → List Char
  | .null => ['n', 'u', 'l', 'l']
  | .bool true => ['t', 'r', 'u', 'e']
  | .bool false => ['f', 'a', 'l', 's', 'e']
  | .natural n => (Nat.repr n).toList
  | .real x => (Decimal.savedText? x).getD ['n', 'u', 'l', 'l']
  | .text s => quoted s
  | .object _ => []

mutual

/-- The text of a value without blanks. -/
def compactText : Value → List Char
  | .object members => '{' :: compactMembers members ++ ['}']
  | v => v.scalarText

/-- Members separated by commas. -/
def compactMembers : List (String × Value) → List Char
  | [] => []
  | [(name, v)] => quoted name ++ ':' :: compactText v
  | (name, v) :: rest => quoted name ++ ':' :: compactText v ++ ',' :: compactMembers rest

end

/-- A line break and that many levels of indentation. -/
def newline (level : Nat) : List Char := '\n' :: List.replicate (2 * level) ' '

mutual

/-- The text of a value, its members on lines of their own one level deeper. -/
def indentedText (level : Nat) : Value → List Char
  | .object [] => ['{', '}']
  | .object members => '{' :: indentedMembers (level + 1) members ++ newline level ++ ['}']
  | v => v.scalarText

/-- Members separated by commas, each on its own line. -/
def indentedMembers (level : Nat) : List (String × Value) → List Char
  | [] => []
  | [(name, v)] => newline level ++ quoted name ++ ':' :: ' ' :: indentedText level v
  | (name, v) :: rest =>
    newline level ++ quoted name ++ ':' :: ' ' :: indentedText level v ++ ',' ::
      indentedMembers level rest

end

/-- The compact text. -/
def compact (v : Value) : String := String.ofList v.compactText

/-- The indented text. -/
def indented (v : Value) : String := String.ofList (v.indentedText 0)

end Value

end Safeguard.Json
