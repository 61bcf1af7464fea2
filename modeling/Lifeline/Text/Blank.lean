/-! White space of Unicode and the words between it.

`isBlank` is the property White_Space: twenty-five characters, among them the four blanks
that `Char.isWhitespace` knows. -/
namespace Lifeline.Text

/-- The Unicode property White_Space. -/
def isBlank (c : Char) : Bool :=
  let n := c.toNat
  (9 ≤ n && n ≤ 13) || n == 0x20 || n == 0x85 || n == 0xA0 || n == 0x1680 ||
    (0x2000 ≤ n && n ≤ 0x200A) || n == 0x2028 || n == 0x2029 || n == 0x202F || n == 0x205F ||
    n == 0x3000

/-- The words of a text: its longest pieces without white space, in order. -/
def words (text : List Char) : List (List Char) :=
  (text.splitOnP isBlank).filter fun piece => !piece.isEmpty

end Lifeline.Text
