import Safeguard.Json.Numeral

/-!
# JSON text as a document

A text is read into a tree that also remembers where the text stops being JSON:
the tree then ends in a leaf for the first flaw, and nothing behind the flaw is
part of it. Reading a typed value is afterwards a walk over the tree in the order
of the text, so the first problem met, of whatever kind, is the one reported.

Two readings of a flaw are kept apart. A value that is decoded is looked at
closely; one that is skipped, because nobody asked for it, only has to have the
outline of JSON.

## Main definitions

* `Json.Doc`: the tree.
* `Json.Doc.ofText`: the tree of a text, with what follows it.
* `Json.Doc.skip`: what is wrong with a value nobody asked for.
-/

namespace Safeguard.Json

/-- A JSON text as a tree, up to its first flaw. -/
inductive Doc where
  | null
  | bool (b : Bool)
  | number (n : Numeral)
  /-- A quoted text; it has no content if a surrogate escape lacks its partner. -/
  | text (content : Option String)
  | array (items : List Doc)
  | object (members : List (Doc × Doc))
  /-- No value stands here, perhaps behind a comma. -/
  | missing (afterComma : Bool) (fault : Fault)
  /-- A literal word is cut short or misspelt. -/
  | badWord (fault : Fault)
  /-- A number lacks a digit. -/
  | badNumber (fault : Fault)
  /-- A quoted text is cut short or holds something forbidden. -/
  | badText (whenRead whenSkipped : Fault)

/-- Blanks between the parts of a text. -/
def isBlank (c : Char) : Bool := c = ' ' || c = '\n' || c = '\t' || c = '\r'

/-- The text behind leading blanks. -/
def dropBlanks (s : List Char) : List Char := s.dropWhile isBlank

/-! ## Words, numbers and quoted texts -/

/-- What is left behind the expected letters, or the flaw met among them. -/
def expectWord : List Char → List Char → Except Fault (List Char)
  | [], s => .ok s
  | _ :: _, [] => .error .eof
  | c :: word, d :: s => if c = d then expectWord word s else .error .syntaxError

/-- A literal word whose first letter has been seen. -/
def readWord (rest : List Char) (s : List Char) (meaning : Doc) : Doc × Option (List Char) :=
  match expectWord rest s with
  | .ok left => (meaning, some left)
  | .error f => (.badWord f, none)

/-- The value of a digit. -/
def digitValue (c : Char) : Nat := c.toNat - '0'.toNat

/-- The leading digits of a text and what follows them. -/
def readDigits (s : List Char) : List Nat × List Char :=
  ((s.takeWhile Char.isDigit).map digitValue, s.dropWhile Char.isDigit)

/-- At least one digit. -/
def readSomeDigits (s : List Char) : Except Fault (List Nat × List Char) :=
  match readDigits s with
  | ([], []) => .error .eof
  | ([], _ :: _) => .error .syntaxError
  | found => .ok found

/-- The digits before the point: a leading zero stands alone. -/
def readWhole (s : List Char) : Except Fault (List Nat × List Char) := do
  let (digits, rest) ← readSomeDigits s
  match digits with
  | 0 :: _ :: _ => .error .syntaxError
  | _ => .ok (digits, rest)

/-- The digits after the point, if there is one. -/
def readFraction : List Char → Except Fault (List Nat × List Char)
  | '.' :: s => readSomeDigits s
  | s => .ok ([], s)

/-- The sign of an exponent: whether it is negative. -/
def readSign : List Char → Bool × List Char
  | '+' :: s => (false, s)
  | '-' :: s => (true, s)
  | s => (false, s)

/-- The power of ten, if there is one. -/
def readExponent : List Char → Except Fault (Option (Bool × List Nat) × List Char)
  | c :: s =>
    if c = 'e' || c = 'E' then do
      let (below, s) := readSign s
      let (digits, rest) ← readSomeDigits s
      .ok (some (below, digits), rest)
    else .ok (none, c :: s)
  | [] => .ok (none, [])

/-- The parts of a number. -/
def readNumeral (negative : Bool) (s : List Char) : Except Fault (Numeral × List Char) := do
  let (whole, s) ← readWhole s
  let (fraction, s) ← readFraction s
  let (exponent, s) ← readExponent s
  .ok (⟨negative, whole, fraction, exponent⟩, s)

/-- A number. -/
def readNumber (negative : Bool) (s : List Char) : Doc × Option (List Char) :=
  match readNumeral negative s with
  | .ok (n, rest) => (.number n, some rest)
  | .error f => (.badNumber f, none)

/-- A part of a quoted text: a character, or a 16-bit unit given by its number. -/
inductive Piece where
  | char (c : Char)
  | unit (code : Nat)

/-- The value of a hexadecimal digit. -/
def hexValue? (c : Char) : Option Nat :=
  if c.isDigit then some (c.toNat - '0'.toNat)
  else if 'a' ≤ c ∧ c ≤ 'f' then some (c.toNat - 'a'.toNat + 10)
  else if 'A' ≤ c ∧ c ≤ 'F' then some (c.toNat - 'A'.toNat + 10)
  else none

/-- The number that four hexadecimal digits give. -/
def hexUnit? (a b c d : Char) : Option Nat := do
  let a ← hexValue? a
  let b ← hexValue? b
  let c ← hexValue? c
  let d ← hexValue? d
  some (((a * 16 + b) * 16 + c) * 16 + d)

/-- The character that a one-letter escape stands for. -/
def escaped? (c : Char) : Option Char :=
  match c with
  | '"' => some '"'
  | '\\' => some '\\'
  | '/' => some '/'
  | 'b' => some '\x08'
  | 'f' => some '\x0c'
  | 'n' => some '\n'
  | 'r' => some '\r'
  | 't' => some '\t'
  | _ => none

/-- The length of a text in bytes. -/
def byteLength (s : List Char) : Nat := s.foldl (fun n c => n + c.utf8Size) 0

/-- The pieces of a quoted text whose opening quote has been seen, and what
follows the closing quote, or the flaw met before it. An escape by number needs
four bytes; fewer mean that the text was cut short. -/
def readPieces : List Char → List Piece × Except Fault (List Char)
  | [] => ([], .error .eof)
  | '"' :: rest => ([], .ok rest)
  | '\\' :: 'u' :: a :: b :: c :: d :: rest =>
    match hexUnit? a b c d with
    | none => ([], .error .syntaxError)
    | some code =>
      let (pieces, ending) := readPieces rest
      (.unit code :: pieces, ending)
  | '\\' :: 'u' :: rest => ([], .error (if byteLength rest < 4 then .eof else .syntaxError))
  | ['\\'] => ([], .error .eof)
  | '\\' :: c :: rest =>
    match escaped? c with
    | none => ([], .error .syntaxError)
    | some c =>
      let (pieces, ending) := readPieces rest
      (.char c :: pieces, ending)
  | c :: rest =>
    if c.toNat < 0x20 then ([], .error .syntaxError)
    else
      let (pieces, ending) := readPieces rest
      (.char c :: pieces, ending)

/-- A unit that opens a surrogate pair. -/
def opensPair (code : Nat) : Bool := 0xD800 ≤ code && code ≤ 0xDBFF

/-- A unit that closes a surrogate pair. -/
def closesPair (code : Nat) : Bool := 0xDC00 ≤ code && code ≤ 0xDFFF

/-- The characters that the pieces spell, ending in the given way. Units in the
surrogate range must come in pairs. -/
def spell (ending : Except Fault Unit) : List Piece → Except Fault (List Char)
  | [] => ending.map fun _ => []
  | .char c :: rest => (spell ending rest).map (c :: ·)
  | [.unit code] =>
    if closesPair code then .error .syntaxError
    else if opensPair code then
      match ending with
      | .error f => .error f
      | .ok _ => .error .syntaxError
    else ending.map fun _ => [Char.ofNat code]
  | .unit code :: .char c :: rest =>
    if closesPair code || opensPair code then .error .syntaxError
    else (spell ending rest).map (Char.ofNat code :: c :: ·)
  | .unit code :: .unit next :: rest =>
    if closesPair code then .error .syntaxError
    else if opensPair code then
      if closesPair next then
        (spell ending rest).map
          (Char.ofNat ((code - 0xD800) * 0x400 + (next - 0xDC00) + 0x10000) :: ·)
      else .error .syntaxError
    else (spell ending (.unit next :: rest)).map (Char.ofNat code :: ·)

/-- A quoted text whose opening quote has been seen. -/
def readText (s : List Char) : Doc × Option (List Char) :=
  match readPieces s with
  | (pieces, .ok rest) =>
    match spell (.ok ()) pieces with
    | .ok content => (.text (some (String.ofList content)), some rest)
    | .error _ => (.text none, some rest)
  | (pieces, .error f) =>
    match spell (.error f) pieces with
    | .ok _ => (.badText f f, none)
    | .error g => (.badText g f, none)

/-! ## Values -/

mutual

/-- The value at the start of a text and what follows it; nothing follows a
flaw. The first argument bounds the nesting and the number of parts. -/
def readValue : Nat → List Char → Doc × Option (List Char)
  | 0, _ => (.missing false .syntaxError, none)
  | fuel + 1, s =>
    match dropBlanks s with
    | [] => (.missing false .eof, none)
    | 'n' :: rest => readWord ['u', 'l', 'l'] rest .null
    | 't' :: rest => readWord ['r', 'u', 'e'] rest (.bool true)
    | 'f' :: rest => readWord ['a', 'l', 's', 'e'] rest (.bool false)
    | '"' :: rest => readText rest
    | '[' :: rest =>
      let (items, left) := readItems fuel true rest
      (.array items, left)
    | '\x7b' :: rest =>
      let (members, left) := readMembers fuel true rest
      (.object members, left)
    | '-' :: rest => readNumber true rest
    | c :: rest =>
      if c.isDigit then readNumber false (c :: rest) else (.missing false .syntaxError, none)

/-- The items of an array up to its closing bracket. -/
def readItems : Nat → Bool → List Char → List Doc × Option (List Char)
  | 0, _, _ => ([.missing false .syntaxError], none)
  | fuel + 1, first, s =>
    match dropBlanks s with
    | [] => ([.missing false .eof], none)
    | ']' :: rest => ([], some rest)
    | c :: rest =>
      if first then readItem fuel (c :: rest)
      else if c = ',' then
        match dropBlanks rest with
        | [] => ([.missing true .eof], none)
        | ']' :: _ => ([.missing true .syntaxError], none)
        | rest => readItem fuel rest
      else ([.missing false .syntaxError], none)

/-- One item of an array and those behind it. -/
def readItem : Nat → List Char → List Doc × Option (List Char)
  | 0, _ => ([.missing false .syntaxError], none)
  | fuel + 1, s =>
    match readValue fuel s with
    | (item, none) => ([item], none)
    | (item, some rest) =>
      let (items, left) := readItems fuel false rest
      (item :: items, left)

/-- The members of an object up to its closing brace. -/
def readMembers : Nat → Bool → List Char → List (Doc × Doc) × Option (List Char)
  | 0, _, _ => ([(.missing false .syntaxError, .null)], none)
  | fuel + 1, first, s =>
    match dropBlanks s with
    | [] => ([(.missing false .eof, .null)], none)
    | '\x7d' :: rest => ([], some rest)
    | c :: rest =>
      if first then readMember fuel (c :: rest)
      else if c = ',' then
        match dropBlanks rest with
        | [] => ([(.missing true .eof, .null)], none)
        -- Behind a comma only a quoted text can be a name.
        | '"' :: rest => readMember fuel ('"' :: rest)
        | _ => ([(.missing true .syntaxError, .null)], none)
      else ([(.missing false .syntaxError, .null)], none)

/-- One member of an object and those behind it. Whatever stands in the place of
a name ends the tree unless it is a quoted text. -/
def readMember : Nat → List Char → List (Doc × Doc) × Option (List Char)
  | 0, _ => ([(.missing false .syntaxError, .null)], none)
  | fuel + 1, s =>
    match readValue fuel s with
    | (.text name, some rest) =>
      match dropBlanks rest with
      | [] => ([(.text name, .missing false .eof)], none)
      | c :: rest =>
        if c = ':' then
          match readValue fuel rest with
          | (value, none) => ([(.text name, value)], none)
          | (value, some rest) =>
            let (members, left) := readMembers fuel false rest
            ((.text name, value) :: members, left)
        else ([(.text name, .missing false .syntaxError)], none)
    | (name, _) => ([(name, .null)], none)

end

namespace Doc

/-- The tree of a text, and what follows the value if it has no flaw. Every
character adds at most three levels of reading. -/
def ofText (s : List Char) : Doc × Option (List Char) := readValue (3 * s.length + 3) s

/-- What is wrong with the name of a member nobody asked for. -/
def skipName : Doc → Option Fault
  | .text _ => none
  | .badText _ whenSkipped => some whenSkipped
  | .missing _ .eof => some .eof
  | _ => some .syntaxError

mutual

/-- What is wrong with a value nobody asked for: its first flaw, if any. -/
def skip : Doc → Option Fault
  | .null | .bool _ | .number _ | .text _ => none
  | .missing _ f | .badWord f => some f
  | .badNumber _ => some .syntaxError
  | .badText _ whenSkipped => some whenSkipped
  | .array items => skipItems items
  | .object members => skipMembers members

/-- The first flaw among the items of an array. -/
def skipItems : List Doc → Option Fault
  | [] => none
  | item :: rest => (skip item).or (skipItems rest)

/-- The first flaw among the members of an object. -/
def skipMembers : List (Doc × Doc) → Option Fault
  | [] => none
  | (name, value) :: rest => (skipName name).or ((skip value).or (skipMembers rest))

end

end Doc

end Safeguard.Json
