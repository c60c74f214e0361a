import ClassText.Text.Range

/-! Blank characters: the ranges of the White_Space property. -/
namespace ClassText.Text

def blankRanges : List (Nat × Nat) := [
    (0x9, 0xD), (0x20, 0x20), (0x85, 0x85), (0xA0, 0xA0), (0x1680, 0x1680),
    (0x2000, 0x200A), (0x2028, 0x2029), (0x202F, 0x202F), (0x205F, 0x205F), (0x3000, 0x3000)]

def isBlank (c : Char) : Bool := within blankRanges c.toNat

/-- A text with nothing to see in it: empty, or made of blank characters only. -/
def isBlankText (s : String) : Bool := s.toList.all isBlank

end ClassText.Text
