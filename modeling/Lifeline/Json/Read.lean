import Lifeline.Json.Outline
import Lifeline.Text.Quoted

/-! Reading typed values from JSON.

A value of a known type is read from an outline from left to right, and the first fault
decides: either the text is malformed there, or it says something that does not fit the
type. A record is read from an object that names its fields in any order, or from an array
of its fields in their order (`Shape`). -/
namespace Lifeline.Json

/-- What was found where something else was expected. -/
inductive Found where
  | null
  | bool (value : Bool)
  | integer (value : Int)
  | real (value : Float)
  | text (value : String)
  | sequence
  | map

def Found.describe : Found → String
  | null => "null"
  | bool value => "boolean `" ++ toString value ++ "`"
  | integer value => "integer `" ++ toString value ++ "`"
  | real value => "floating point `" ++ Decimal.format value ++ "`"
  | text value => "string " ++ Text.quote value
  | sequence => "sequence"
  | map => "map"

/-- What does not fit the type. -/
inductive Misfit where
  | invalidType (found : Found) (expected : String)
  | invalidValue (value : Int) (expected : String)
  | invalidLength (length : Nat) (expected : String)
  | unknownField (name : String) (known : List String)
  | missingField (name : String)
  | duplicateField (name : String)

/-- A name in a message. -/
def named (name : String) : String :=
  "`" ++ name ++ "`"

/-- The names that would have been known. -/
def describeKnown : List String → String
  | [] => "there are no fields"
  | [a] => "expected " ++ named a
  | [a, b] => "expected " ++ named a ++ " or " ++ named b
  | names => "expected one of " ++ ", ".intercalate (names.map named)

def Misfit.message : Misfit → String
  | invalidType found expected => "invalid type: " ++ found.describe ++ ", expected " ++ expected
  | invalidValue value expected =>
    "invalid value: " ++ (Found.integer value).describe ++ ", expected " ++ expected
  | invalidLength length expected => s!"invalid length {length}, expected {expected}"
  | unknownField name known => "unknown field " ++ named name ++ ", " ++ describeKnown known
  | missingField name => "missing field " ++ named name
  | duplicateField name => "duplicate field " ++ named name

/-- Why a text is not a value of the type. -/
inductive ReadError where
  | malformed
  | misfit (reason : Misfit)

/-- A value that is read, or the first fault. -/
abbrev Reading (α : Type) := Except ReadError α

/-! ### Plain values -/

/-- The text between quotes. -/
def readRaw (raw : List Char) : Reading String :=
  match unescape? raw with
  | some text => .ok (String.ofList text)
  | none => .error .malformed

/-- What a value is, in a message. -/
def Outline.found : Outline → Reading Found
  | .null => .ok .null
  | .bool value => .ok (.bool value)
  | .number numeral =>
    match numeral.quantity? with
    | some (.integer value) => .ok (.integer value)
    | some (.real value) => .ok (.real value)
    | none => .error .malformed
  | .text raw => (readRaw raw).map .text
  | .array _ _ => .ok .sequence
  | .object _ _ => .ok .map
  | .broken => .error .malformed

/-- The fault of a value of another type. -/
def mistyped {α : Type} (expected : String) (o : Outline) : Reading α := do
  .error (.misfit (.invalidType (← o.found) expected))

def readBool : Outline → Reading Bool
  | .bool value => .ok value
  | o => mistyped "a boolean" o

def readText : Outline → Reading String
  | .text raw => readRaw raw
  | o => mistyped "a string" o

/-- A range of whole numbers and its name. -/
structure Range where
  name : String
  least : Int
  greatest : Int

def Range.i8 : Range := ⟨"i8", -128, 127⟩
def Range.u32 : Range := ⟨"u32", 0, UInt32.size - 1⟩
def Range.u64 : Range := ⟨"u64", 0, UInt64.size - 1⟩

/-- A numeral as a whole number of a range. -/
def Range.read (range : Range) (numeral : Numeral) : Reading Int :=
  match numeral.quantity? with
  | none => .error .malformed
  | some (.integer value) =>
    if range.least ≤ value ∧ value ≤ range.greatest then .ok value
    else .error (.misfit (.invalidValue value range.name))
  | some (.real value) => .error (.misfit (.invalidType (.real value) range.name))

def readInteger (range : Range) : Outline → Reading Int
  | .number numeral => range.read numeral
  | o => mistyped range.name o

def readInt8 (o : Outline) : Reading Int8 :=
  (readInteger .i8 o).map Int8.ofInt

def readUInt32 (o : Outline) : Reading UInt32 :=
  (readInteger .u32 o).map fun n => UInt32.ofNat n.toNat

def readUInt64 (o : Outline) : Reading UInt64 :=
  (readInteger .u64 o).map fun n => UInt64.ofNat n.toNat

/-- A value, or nothing for `null`. -/
def readOption {α : Type} (read : Outline → Reading α) : Outline → Reading (Option α)
  | .null => .ok none
  | o => (read o).map some

/-! ### Containers -/

/-- An open container stops making sense where it ends. -/
def closed (isClosed : Bool) : Reading Unit :=
  if isClosed then .ok () else .error .malformed

def readList {α : Type} (read : Outline → Reading α) : Outline → Reading (List α)
  | .array items isClosed => do
    let values ← items.mapM read
    closed isClosed
    return values
  | o => mistyped "a sequence" o

/-- The name of a member, as text. -/
def Key.readText (key : Key) : Reading String :=
  if key.isWhole then readRaw key.raw else .error .malformed

/-- The name of a member, as a whole number: a numeral and nothing else. The numeral is
judged before what follows it. -/
def Key.readInteger (range : Range) (key : Key) : Reading Int :=
  match Numeral.take? key.raw with
  | none => .error .malformed
  | some (numeral, rest) => do
    let value ← range.read numeral
    if rest = [] ∧ key.isWhole = true then return value else .error .malformed

def Key.readUInt32 (key : Key) : Reading UInt32 :=
  (key.readInteger .u32).map fun n => UInt32.ofNat n.toNat

/-- The members of an object in order. -/
def readMembers {κ ν : Type} (readKey : Key → Reading κ) (readValue : Outline → Reading ν) :
    Outline → Reading (List (κ × ν))
  | .object members isClosed => do
    let entries ← members.mapM fun member => do
      return (← readKey member.1, ← readValue member.2)
    closed isClosed
    return entries
  | o => mistyped "a map" o

/-! ### Records -/

mutual

/-- Passes over a value of any type; only its end must be there. -/
def skip : Outline → Reading Unit
  | .array items isClosed => do
    skipItems items
    closed isClosed
  | .object members isClosed => do
    skipMembers members
    closed isClosed
  | .broken => .error .malformed
  | _ => .ok ()

def skipItems : List Outline → Reading Unit
  | [] => .ok ()
  | item :: rest => do
    skip item
    skipItems rest

def skipMembers : List (Key × Outline) → Reading Unit
  | [] => .ok ()
  | (key, value) :: rest => do
    if key.isWhole then
      skip value
      skipMembers rest
    else .error .malformed

end

/-- A field of a record that is read into a draft. -/
structure Field (δ : Type) where
  name : String
  /-- Whether an array may end before it. -/
  isOptional : Bool
  read : Outline → δ → Reading δ

/-- How a record is read: field by field into a draft, which then makes the record. -/
structure Shape (δ α : Type) where
  name : String
  fields : List (Field δ)
  /-- Whether members of other names are faults or passed over. -/
  isStrict : Bool
  blank : δ
  finish : δ → Reading α

namespace Shape

variable {δ α : Type}

def expected (shape : Shape δ α) : String :=
  "struct " ++ shape.name

/-- Reads named fields in the order of the text. A name that is unknown or comes again is
a fault before its value is. -/
def readNamed (shape : Shape δ α) : List String → δ → List (Key × Outline) → Reading δ
  | _, draft, [] => .ok draft
  | seen, draft, (key, value) :: rest => do
    let name ← key.readText
    match shape.fields.find? (·.name == name) with
    | none =>
      if shape.isStrict then
        .error (.misfit (.unknownField name (shape.fields.map (·.name))))
      else
        skip value
        shape.readNamed seen draft rest
    | some field =>
      if name ∈ seen then .error (.misfit (.duplicateField name))
      else
        let draft ← field.read value draft
        shape.readNamed (name :: seen) draft rest

/-- Reads fields in their own order, as far as the array goes. -/
def readInOrder (shape : Shape δ α) (isClosed : Bool) :
    List (Field δ) → δ → List Outline → Reading δ
  | [], draft, [] => do
    closed isClosed
    return draft
  | [], _, _ :: _ => .error .malformed
  | field :: fields, draft, item :: rest => do
    let draft ← field.read item draft
    shape.readInOrder isClosed fields draft rest
  | field :: fields, draft, [] => do
    closed isClosed
    if field.isOptional then shape.readInOrder isClosed fields draft []
    else
      let given := shape.fields.length - (fields.length + 1)
      .error (.misfit (.invalidLength given
        (shape.expected ++ s!" with {shape.fields.length} elements")))

/-- Reads a record from an object or an array. -/
def read (shape : Shape δ α) : Outline → Reading α
  | .object members isClosed => do
    let draft ← shape.readNamed [] shape.blank members
    closed isClosed
    shape.finish draft
  | .array items isClosed => do
    let draft ← shape.readInOrder isClosed shape.fields shape.blank items
    shape.finish draft
  | o => mistyped shape.expected o

end Shape

/-- A field that must have been named. -/
def required {α : Type} (name : String) : Option α → Reading α
  | some value => .ok value
  | none => .error (.misfit (.missingField name))

/-- Reads a whole text as one value. -/
def Document.read {α : Type} (reader : Outline → Reading α) (d : Document) : Reading α := do
  let value ← reader d.value
  if d.hasMore then .error .malformed else return value

end Lifeline.Json
