import Strongbox.Text.Ranges

/-!
# Blank characters

The code points that count as white space when text is trimmed or checked for blanks: the
ASCII controls from tab to carriage return, the information separators U+001C to U+001F,
the space, next line, no-break space, and the Unicode space separators and line and
paragraph separators (Unicode 14).
-/

namespace Strongbox.Text

/-- The blank code points as sorted, disjoint, inclusive ranges. -/
def blankRanges : Array (Nat × Nat) := #[
  (0x9, 0xD), (0x1C, 0x20), (0x85, 0x85), (0xA0, 0xA0),
  (0x1680, 0x1680), (0x2000, 0x200A), (0x2028, 0x2029), (0x202F, 0x202F),
  (0x205F, 0x205F), (0x3000, 0x3000)]

/-- The code point is white space. -/
def isBlank (c : Nat) : Bool := inRanges blankRanges c

end Strongbox.Text
