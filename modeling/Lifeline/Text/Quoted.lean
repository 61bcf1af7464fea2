import Lifeline.Address
import Lifeline.Text.Printable

/-! Texts between quotes, as messages show them.

The quote and the backslash are written behind a backslash, tabs and line ends and the
null character by their letters, and what cannot be shown by its code point. -/
namespace Lifeline.Text

/-- How a character stands between quotes. -/
def quoteChar (c : Char) : List Char :=
  if c = '"' ∨ c = '\\' then ['\\', c]
  else if c = '\n' then ['\\', 'n']
  else if c = '\r' then ['\\', 'r']
  else if c = '\t' then ['\\', 't']
  else if c = '\x00' then ['\\', '0']
  else if isPrintable c then [c]
  else '\\' :: 'u' :: '{' :: (Hex.brief c.toNat ++ ['}'])

/-- A text between quotes. -/
def quote (s : String) : String :=
  String.ofList ('"' :: (s.toList.flatMap quoteChar ++ ['"']))

end Lifeline.Text
