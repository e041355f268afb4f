import BlockTemplate.Text.Range

/-!
# Blank characters

The characters that separate words in any script, the separators among the control characters
included.
-/

namespace BlockTemplate

/-- Blank characters. -/
def blankRanges : CharRanges :=
  [
   (0x9, 0xD), (0x1C, 0x20), (0x85, 0x85), (0xA0, 0xA0), (0x1680, 0x1680), (0x2000, 0x200A),
   (0x2028, 0x2029), (0x202F, 0x202F), (0x205F, 0x205F), (0x3000, 0x3000)]

/-- Whether the character is blank. -/
def isBlank (c : Char) : Bool := blankRanges.contains c

end BlockTemplate
