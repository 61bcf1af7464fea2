/-! Columns of text, measured in characters (Unicode scalar values).

A text that is wider than its column is left as it is. -/
namespace Lifeline.Text

/-- `s` with blanks behind it up to `width` characters. -/
def padRight (width : Nat) (s : String) : String :=
  s ++ String.ofList (List.replicate (width - s.length) ' ')

/-- `s` with blanks before it up to `width` characters. -/
def padLeft (width : Nat) (s : String) : String :=
  String.ofList (List.replicate (width - s.length) ' ') ++ s

end Lifeline.Text
