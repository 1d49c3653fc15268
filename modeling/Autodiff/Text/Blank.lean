import Autodiff.Text.Ranges

/-!
# White space

The characters that count as white space: those of bidirectional class `WS`, `B` or `S`
and the space separators. The file, group, record and unit separators, the next-line
control and the no-break space are among them; the zero width space is not.
-/

namespace Autodiff.Text

/-- The white space of Unicode. -/
def blankRanges : Ranges :=
  [(0x9, 0xd), (0x1c, 0x20), (0x85, 0x85), (0xa0, 0xa0), (0x1680, 0x1680), (0x2000, 0x200a),
   (0x2028, 0x2029), (0x202f, 0x202f), (0x205f, 0x205f), (0x3000, 0x3000)]

def isBlank (c : Char) : Bool := blankRanges.contains c.toNat

theorem isBlank_space : isBlank ' ' = true := by decide

end Autodiff.Text
