import Rewind.Text.Ranges

namespace Rewind.Text

def blankRanges : List (Nat × Nat) :=
  [(0x9, 0xd), (0x1c, 0x20), (0x85, 0x85), (0xa0, 0xa0), (0x1680, 0x1680), (0x2000, 0x200a),
   (0x2028, 0x2029), (0x202f, 0x202f), (0x205f, 0x205f), (0x3000, 0x3000)]

/-- Of bidirectional class white space or a separator, or a space of any width. -/
def isBlank (c : Char) : Bool := covers blankRanges c.toNat

end Rewind.Text
