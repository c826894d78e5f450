import Safeguard.Json.Doc
import Safeguard.Json.Value

/-!
# Typed values in JSON text

A codec reads a value of some type from a document and writes it back. Records
are read from an object, whose members may come in any order and may be joined
by members nobody knows, or from an array of all values in declaration order.
They are written as an object in declaration order.

## Main definitions

* `Json.Codec`: reading and writing of one type.
* `Json.Field`: one member of a record.
* `Json.Schema`: a record, and what becomes of members that are left out.
* `Json.Schema.codec`: its codec.
* `Json.Codec.parse`: reading a whole text.
-/

namespace Safeguard.Json

/-- Reading and writing of one type. -/
structure Codec (α : Type) where
  /-- The value that a document holds. -/
  read : Doc → Except Fault α
  /-- The document for a value. -/
  write : α → Value

/-- What is reported for a document of an unexpected kind. Words, numbers and
quoted texts are first read to their end. -/
def Doc.unexpected : Doc → Fault
  | .missing _ f | .badWord f | .badNumber f => f
  | .badText whenRead _ => whenRead
  | .text none => .syntaxError
  | .number n =>
    match n.read with
    | .error f => f
    | .ok _ => .data
  | _ => .data

/-- The name of a member as it is read; anything but a quoted text is no name. -/
def Doc.memberName : Doc → Except Fault String
  | .text (some s) => .ok s
  | .badText whenRead _ => .error whenRead
  | .missing _ .eof => .error .eof
  | _ => .error .syntaxError

namespace Codec

/-- Whole numbers up to a limit. -/
def readNatural (limit : Nat) : Doc → Except Fault Nat
  | .number n =>
    match n.read with
    | .error f => .error f
    | .ok (.natural v) => if v ≤ limit then .ok v else .error .data
    | .ok (.real _) => .error .data
  | d => .error d.unexpected

/-- Whole numbers of 32 bits. -/
def word32 : Codec UInt32 where
  read d := (readNatural (UInt32.size - 1) d).map UInt32.ofNat
  write n := .natural n.toNat

/-- Whole numbers of 64 bits. -/
def word64 : Codec UInt64 where
  read d := (readNatural (UInt64.size - 1) d).map UInt64.ofNat
  write n := .natural n.toNat

/-- Counts up to a limit. -/
def count (limit : Nat) : Codec Nat where
  read := readNatural limit
  write := .natural

/-- Floating-point numbers; a whole number is taken too. -/
def real : Codec Float where
  read
    | .number n =>
      match n.read with
      | .error f => .error f
      | .ok (.natural v) => .ok (UInt64.ofNat v).toFloat
      | .ok (.real x) => .ok x
    | d => .error d.unexpected
  write x := .real x

/-- Truth values. -/
def bool : Codec Bool where
  read
    | .bool b => .ok b
    | d => .error d.unexpected
  write b := .bool b

/-- Quoted texts. -/
def readText : Doc → Except Fault String
  | .text (some s) => .ok s
  | d => .error d.unexpected

/-- Durations in whole milliseconds; longer ones than 64 bits can count are
written as the largest count. -/
def millis : Codec Duration where
  read d := (word64.read d).map Duration.ofMillis
  write d := .natural (min d.millis (UInt64.size - 1))

/-- A value that may be absent, which is read and written as `null`. -/
def option {α : Type} (c : Codec α) : Codec (Option α) where
  read
    | .null => .ok none
    | d => (c.read d).map some
  write
    | none => .null
    | some a => c.write a

/-- What is wrong with a text that follows the single member of an object. -/
def afterOnlyMember : List (Doc × Doc) → Except Fault Unit
  | [] => .ok ()
  | (.missing false .eof, _) :: _ => .error .eof
  | _ => .error .syntaxError

/-- One of finitely many names, as a quoted text or as an object whose only
member has that name and the value `null`. -/
def choice {α : Type} (ofName? : String → Option α) (name : α → String) : Codec α where
  read
    | .text (some s) => (ofName? s).elim (.error .data) .ok
    | .object [] => .error .syntaxError
    | .object ((key, value) :: rest) => do
      let s ← key.memberName
      -- The name is judged before its value is looked at.
      let a ← (ofName? s).elim (.error .data) .ok
      match value with
      | .null => afterOnlyMember rest
      | v => .error v.unexpected
      return a
    | .text none => .error .syntaxError
    | .badText whenRead _ => .error whenRead
    | .missing _ f => .error f
    | _ => .error .syntaxError
  write a := .text (name a)

end Codec

/-- One member of a record. -/
structure Field (σ : Type) where
  /-- Its name. -/
  name : String
  /-- Whether an object may leave it out even if the record has no defaults. -/
  nullable : Bool
  /-- Reads the member into a record. -/
  store : Doc → σ → Except Fault σ
  /-- The document for the member, unless it is left out. -/
  save : σ → Option Value

namespace Field

variable {σ β : Type}

/-- A member that is always written. -/
def of (name : String) (c : Codec β) (get : σ → β) (set : β → σ → σ) : Field σ where
  name := name
  nullable := false
  store d s := (c.read d).map (set · s)
  save s := some (c.write (get s))

/-- A member that may be absent and is then written as `null`. -/
def orNull (name : String) (c : Codec β) (get : σ → Option β) (set : Option β → σ → σ) :
    Field σ :=
  { of name c.option get set with nullable := true }

/-- A member that may be absent and is then not written. -/
def optional (name : String) (c : Codec β) (get : σ → Option β) (set : Option β → σ → σ) :
    Field σ :=
  { of name c.option get set with save := fun s => (get s).map c.write }

end Field

/-- A record: its members in declaration order. -/
structure Schema (σ : Type) where
  /-- The members. -/
  fields : List (Field σ)
  /-- The record that reading starts from. -/
  start : σ
  /-- Whether members that are left out keep the value they start with. -/
  defaults : Bool

namespace Schema

variable {σ : Type}

/-- Reads one member of an object into the record. A member nobody knows is
skipped; one that was met before is refused before its value is looked at. -/
def readMember (s : Schema σ) (state : σ × List String) (member : Doc × Doc) :
    Except Fault (σ × List String) := do
  let name ← member.1.memberName
  match s.fields.find? (·.name == name) with
  | none =>
    match member.2.skip with
    | some f => .error f
    | none => .ok state
  | some field =>
    -- A repeated name is refused even if no readable value follows.
    if state.2.contains name then .error .data
    else
      let record ← field.store member.2 state.1
      .ok (record, name :: state.2)

/-- Whether a record may do without the member. -/
def mayLack (s : Schema σ) (seen : List String) (field : Field σ) : Bool :=
  s.defaults || field.nullable || seen.contains field.name

/-- Reads the members of an object. -/
def readObject (s : Schema σ) (members : List (Doc × Doc)) : Except Fault σ := do
  let (record, seen) ← members.foldlM s.readMember (s.start, [])
  if s.fields.all (s.mayLack seen) then .ok record else .error .data

/-- Reads the items of an array into the members in declaration order. -/
def readItems (s : Schema σ) : List (Field σ) → List Doc → σ → Except Fault σ
  | [], [], record => .ok record
  | [], .missing false .eof :: _, _ => .error .eof
  | [], _ :: _, _ => .error .syntaxError
  | _ :: _, [], record => if s.defaults then .ok record else .error .data
  | field :: fields, item :: items, record => do
    let record ← field.store item record
    s.readItems fields items record

/-- Reads a record. -/
def read (s : Schema σ) : Doc → Except Fault σ
  | .object members => s.readObject members
  | .array items => s.readItems s.fields items s.start
  | d => .error d.unexpected

/-- Writes a record. -/
def write (s : Schema σ) (record : σ) : Value :=
  .object (s.fields.filterMap fun field => (field.save record).map fun v => (field.name, v))

/-- The codec of a record. -/
def codec (s : Schema σ) : Codec σ := ⟨s.read, s.write⟩

end Schema

namespace Codec

variable {α : Type}

/-- Reads a whole text. Only blanks may follow the value. -/
def parse (c : Codec α) (text : String) : Except Fault α :=
  let (doc, rest) := Doc.ofText text.toList
  match c.read doc with
  | .error f => .error f
  | .ok a =>
    match rest with
    | some left => if left.all isBlank then .ok a else .error .syntaxError
    | none => .error .syntaxError

/-- The compact text of a value. -/
def compact (c : Codec α) (a : α) : String := (c.write a).compact

/-- The indented text of a value. -/
def indented (c : Codec α) (a : α) : String := (c.write a).indented

end Codec

end Safeguard.Json
