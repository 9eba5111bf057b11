import Offside.Text.Unassigned

/-!
# Printable characters

A character is printable when it shows itself on a page: letters, digits, marks, symbols,
punctuation, and the plain space.  Control and format characters, the other separators, and code
points that are private or that no character is assigned to are not printable, and a quoted text
writes them as escapes.
-/

namespace Offside.Text

/-- Code points that are in use but show nothing: control and format characters, separators other
than the plain space, surrogates, and private use. -/
def invisible : Ranges :=
  [(0x0, 0x1f), (0x7f, 0xa0), (0xad, 0xad), (0x600, 0x605), (0x61c, 0x61c), (0x6dd, 0x6dd),
   (0x70f, 0x70f), (0x890, 0x891), (0x8e2, 0x8e2), (0x1680, 0x1680), (0x180e, 0x180e),
   (0x2000, 0x200f), (0x2028, 0x202f), (0x205f, 0x2064), (0x2066, 0x206f), (0x3000, 0x3000),
   (0xd800, 0xf8ff), (0xfeff, 0xfeff), (0xfff9, 0xfffb), (0x110bd, 0x110bd), (0x110cd, 0x110cd),
   (0x13430, 0x13438), (0x1bca0, 0x1bca3), (0x1d173, 0x1d17a), (0xe0001, 0xe0001),
   (0xe0020, 0xe007f), (0xf0000, 0xffffd), (0x100000, 0x10fffd)]

/-- Whether a character prints as itself. -/
def isPrintable (c : Char) : Bool := !invisible.has c && !unassigned.has c

/-- The ranges are in order. -/
example : invisible.increasing = true := by decide

/-- The visible ASCII characters lie between the first two ranges, and the space with them. -/
example : invisible.take 2 = [(0x00, 0x20 - 1), (0x7e + 1, 0xa0)] := rfl

end Offside.Text
