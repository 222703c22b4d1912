import KeyedModel.Text.CharRanges

/-!
# Blank characters

The characters that separate tokens without being part of any: the Unicode property `White_Space`
and the two directional marks.
-/

namespace KeyedModel.Text

/-- Ranges of `White_Space`, with U+200E and U+200F. -/
def blankRanges : CharRanges :=
  [(0x9, 0xd), (0x20, 0x20), (0x85, 0x85), (0xa0, 0xa0), (0x1680, 0x1680), (0x2000, 0x200a),
    (0x200e, 0x200f), (0x2028, 0x2029), (0x202f, 0x202f), (0x205f, 0x205f), (0x3000, 0x3000)]

/-- Whether the character separates tokens. -/
def isBlank (c : Char) : Bool := blankRanges.contains c

end KeyedModel.Text
