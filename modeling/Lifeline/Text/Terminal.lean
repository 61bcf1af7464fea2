/-! Text as it shows where control sequences mean nothing.

Control characters other than white space are left out, and so are the sequences that the
escape character begins, with all that belongs to them (`plain`). White space within a
sequence shows, and what follows it up to the next control character; the sequence goes on
behind that. -/
namespace Lifeline.Text

/-- The sequence that a character stands in. -/
inductive Sequence where
  | none
  /-- The escape character came last. -/
  | escape
  /-- One more character than the escape is needed. -/
  | intermediate
  /-- Parameters, up to a letter. -/
  | control
  /-- Any text, up to the bell. -/
  | command
  /-- The head of a string for a device, of which nothing was read. -/
  | device
  /-- Parameters of the head. -/
  | deviceParameter
  /-- Marks at the end of the head. -/
  | deviceMark
  /-- Any text, up to a byte that ends strings. -/
  | string
  deriving DecidableEq, Repr

namespace Sequence

/-- The sequence that a printable character behind the escape begins. -/
def begun (c : Char) : Sequence :=
  if c = '[' then .control
  else if c = ']' then .command
  else if c = 'P' then .device
  else if c ∈ ['X', '^', '_'] then .string
  else if c < '0' then .intermediate
  else .none

/-- What a printable character does to a sequence that is open. -/
def extended (s : Sequence) (c : Char) : Sequence :=
  match s with
  | .none => .none
  | .escape => .begun c
  | .intermediate => if c < '0' then .intermediate else .none
  | .control => if c < '@' then .control else .none
  | .command => .command
  | .device => if c < '0' then .deviceMark else if c < '@' then .deviceParameter else .string
  | .deviceParameter =>
    if c < '0' then .deviceMark else if c < '<' then .deviceParameter else .string
  | .deviceMark => if c < '0' then .deviceMark else .string
  | .string => .string

/-- The byte that ends a string, even within a character. -/
def terminator : UInt8 := 0x9C

/-- What a character beyond ASCII does to a sequence. -/
def passed (s : Sequence) (c : Char) : Sequence :=
  if s = .string ∧ terminator ∈ String.utf8EncodeChar c then .none else s

/-- Whether white space shows within a sequence. -/
def showsSpacing : Sequence → Bool
  | none | escape | intermediate | control => true
  | command | device | deviceParameter | deviceMark | string => false

end Sequence

/-- The control characters that are white space. -/
def isSpacing (c : Char) : Bool :=
  c == '\t' || c == '\n' || c == '\x0c' || c == '\r'

/-- Whether a character shows where no sequence is open. -/
def isVisible (c : Char) : Bool :=
  isSpacing c || (' ' ≤ c && c != '\x7f')

/-- Reads one character in a sequence: whether it shows, and the sequence behind it. -/
def Sequence.read (s : Sequence) (c : Char) : Bool × Sequence :=
  if c = '\x1b' then (false, .escape)
  else if c = '\x18' ∨ c = '\x1a' then (false, .none)
  else if '\x7f' < c then (s = .none, s.passed c)
  else if c = '\x7f' then (false, s)
  else if ' ' ≤ c then (s = .none, s.extended c)
  else if s = .command ∧ c = '\x07' then (false, .none)
  else (isSpacing c && s.showsSpacing, s)

/-- Where the reading of a text has come to. -/
structure Cursor where
  sequence : Sequence
  /-- Whether the last character showed; then the next ones do, up to a control character. -/
  isShowing : Bool
  deriving DecidableEq, Repr

namespace Cursor

/-- The beginning of a text. -/
def start : Cursor := ⟨.none, false⟩

/-- Reads one character: whether it shows, and the cursor behind it. A character beyond
ASCII that shows ends the sequence. -/
def read (k : Cursor) (c : Char) : Bool × Cursor :=
  if k.isShowing ∧ isVisible c then (true, if '\x7f' < c then ⟨.none, true⟩ else k)
  else
    let (isShown, s) := k.sequence.read c
    (isShown, ⟨s, isShown⟩)

end Cursor

/-- The characters that show, from a cursor on. -/
def plainFrom (k : Cursor) : List Char → List Char
  | [] => []
  | c :: rest =>
    match k.read c with
    | (true, k) => c :: plainFrom k rest
    | (false, k) => plainFrom k rest

/-- A text without control sequences. -/
def plain (text : String) : String :=
  String.ofList (plainFrom .start text.toList)

/-- A text up to its first line end. -/
def firstLine (text : String) : String :=
  let line := text.toList.takeWhile (· != '\n')
  let isCut := line.length < text.length
  String.ofList (if isCut ∧ line.getLast? = some '\r' then line.dropLast else line)

end Lifeline.Text
