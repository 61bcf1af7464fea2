import Lifeline.Json.Escape
import Lifeline.Json.Numeral

/-! The tokens of JSON.

`tokens` cuts a text into brackets, marks, words, numbers and texts, with any white space
between them. A text token keeps what stands between its quotes as it is spelled. The
first place that starts no token ends the list: with `torn` when it is a text whose end is
missing or whose spelling is wrong, and with `junk` otherwise. -/
namespace Lifeline.Json

inductive Token where
  | openBrace
  | closeBrace
  | openBracket
  | closeBracket
  | colon
  | comma
  | null
  | bool (value : Bool)
  | number (numeral : Numeral)
  | text (raw : List Char)
  | torn (raw : List Char)
  | junk
  deriving DecidableEq, Repr

/-- White space between tokens. -/
def isSpace (c : Char) : Bool :=
  c = ' ' ∨ c = '\n' ∨ c = '\t' ∨ c = '\r'

/-- What stands before the closing quote and what follows it, or what stands before the
place where the spelling goes wrong. -/
def takeText : List Char → List Char × Option (List Char)
  | [] => ([], none)
  | '\\' :: 'u' :: a :: b :: c :: d :: rest =>
    match codeUnit? a b c d with
    | none => ([], none)
    | some _ =>
      let (raw, after) := takeText rest
      ('\\' :: 'u' :: a :: b :: c :: d :: raw, after)
  | '\\' :: letter :: rest =>
    match escaped? letter with
    | none => ([], none)
    | some _ =>
      let (raw, after) := takeText rest
      ('\\' :: letter :: raw, after)
  | c :: rest =>
    if c = '"' then ([], some rest)
    else if c = '\\' ∨ c.toNat < 0x20 then ([], none)
    else
      let (raw, after) := takeText rest
      (c :: raw, after)

/-- What follows a word, if the text starts with it. -/
def dropWord? (word text : List Char) : Option (List Char) :=
  if word.isPrefixOf text then some (text.drop word.length) else none

/-- The mark that a character is. -/
def mark? (c : Char) : Option Token :=
  if c = '{' then some .openBrace
  else if c = '}' then some .closeBrace
  else if c = '[' then some .openBracket
  else if c = ']' then some .closeBracket
  else if c = ':' then some .colon
  else if c = ',' then some .comma
  else none

/-- The words and the tokens they are. -/
def dropNamed? (text : List Char) : Option (Token × List Char) :=
  match dropWord? "null".toList text, dropWord? "true".toList text,
      dropWord? "false".toList text with
  | some rest, _, _ => some (.null, rest)
  | _, some rest, _ => some (.bool true, rest)
  | _, _, some rest => some (.bool false, rest)
  | none, none, none => none

/-- The first token of a text that starts with none of the white space, and what follows
it, if more can follow. -/
def takeToken (c : Char) (rest : List Char) : Token × Option (List Char) :=
  match mark? c with
  | some mark => (mark, some rest)
  | none =>
    if c = '"' then
      match takeText rest with
      | (raw, some after) => (.text raw, some after)
      | (raw, none) => (.torn raw, none)
    else
      match dropNamed? (c :: rest), Numeral.take? (c :: rest) with
      | some (word, after), _ => (word, some after)
      | none, some (numeral, after) => (.number numeral, some after)
      | none, none => (.junk, none)

/-- The tokens of a text of at most `fuel` characters. -/
def tokensWithin : (fuel : Nat) → List Char → List Token
  | 0, _ => []
  | _ + 1, [] => []
  | fuel + 1, c :: rest =>
    if isSpace c then tokensWithin fuel rest
    else
      match takeToken c rest with
      | (token, none) => [token]
      | (token, some after) => token :: tokensWithin fuel after

/-- The tokens of a text. -/
def tokens (text : List Char) : List Token :=
  tokensWithin text.length text

end Lifeline.Json
