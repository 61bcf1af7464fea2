import Lifeline.Address
import Lifeline.Text.Integer

/-! Texts between the quotes of JSON.

`escape` writes a text: the quote, the backslash and the controls behind a backslash,
all else as it is. `unescape?` reads what may stand between quotes once its shape is
known to be right; a character above the sixteen bits of an escape is two escapes, and
half of such a pair is no character. -/
namespace Lifeline.Json

/-- How a character is written between quotes. -/
def escapeChar (c : Char) : List Char :=
  if c = '"' then ['\\', '"']
  else if c = '\\' then ['\\', '\\']
  else if c = '\x08' then ['\\', 'b']
  else if c = '\x0c' then ['\\', 'f']
  else if c = '\n' then ['\\', 'n']
  else if c = '\r' then ['\\', 'r']
  else if c = '\t' then ['\\', 't']
  else if c.toNat < 0x20 then '\\' :: 'u' :: Hex.fixed 4 c.toNat
  else [c]

/-- A text as it stands between quotes. -/
def escape (text : List Char) : List Char :=
  text.flatMap escapeChar

/-- What a letter behind a backslash stands for. -/
def escaped? (letter : Char) : Option Char :=
  if letter = '"' ∨ letter = '\\' ∨ letter = '/' then some letter
  else if letter = 'b' then some '\x08'
  else if letter = 'f' then some '\x0c'
  else if letter = 'n' then some '\n'
  else if letter = 'r' then some '\r'
  else if letter = 't' then some '\t'
  else none

/-- Sixteen bits from four digits. -/
def codeUnit? (a b c d : Char) : Option Nat :=
  match Text.digitValue? 16 a, Text.digitValue? 16 b, Text.digitValue? 16 c,
      Text.digitValue? 16 d with
  | some a, some b, some c, some d => some (a * 4096 + b * 256 + c * 16 + d)
  | _, _, _, _ => none

def isHighHalf (unit : Nat) : Bool := 0xD800 ≤ unit && unit ≤ 0xDBFF

def isLowHalf (unit : Nat) : Bool := 0xDC00 ≤ unit && unit ≤ 0xDFFF

/-- The character of two halves. -/
def joinHalves (high low : Nat) : Char :=
  Char.ofNat (0x10000 + (high - 0xD800) * 0x400 + (low - 0xDC00))

/-- Reads what stands between quotes; nothing if an escape is no character. -/
def unescape? : List Char → Option (List Char)
  | [] => some []
  | '\\' :: 'u' :: a :: b :: c :: d :: rest =>
    match codeUnit? a b c d with
    | none => none
    | some unit =>
      if isLowHalf unit then none
      else if isHighHalf unit then
        match rest with
        | '\\' :: 'u' :: a :: b :: c :: d :: rest =>
          match codeUnit? a b c d with
          | none => none
          | some low =>
            if isLowHalf low then (unescape? rest).map (joinHalves unit low :: ·) else none
        | _ => none
      else (unescape? rest).map (Char.ofNat unit :: ·)
  | '\\' :: letter :: rest =>
    match escaped? letter with
    | none => none
    | some c => (unescape? rest).map (c :: ·)
  | c :: rest => if c = '\\' then none else (unescape? rest).map (c :: ·)

end Lifeline.Json
