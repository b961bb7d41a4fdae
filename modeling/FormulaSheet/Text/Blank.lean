import FormulaSheet.Text.CodeRange

/-!
# White space

The characters that may stand around the tokens of a formula and that alone make a formula blank:
those with the Unicode property `White_Space`.
-/

namespace FormulaSheet

/-- The code points of the property `White_Space`. -/
def blankRanges : List CodeRange := [
  ⟨0x9, 0xD⟩, ⟨0x20, 0x20⟩, ⟨0x85, 0x85⟩, ⟨0xA0, 0xA0⟩, ⟨0x1680, 0x1680⟩, ⟨0x2000, 0x200A⟩,
  ⟨0x2028, 0x2029⟩, ⟨0x202F, 0x202F⟩, ⟨0x205F, 0x205F⟩, ⟨0x3000, 0x3000⟩]

/-- White space. -/
def isBlank (c : Char) : Bool := CodeRange.anyContains blankRanges c.toNat

/-- The text after its leading white space. -/
def skipBlanks (text : List Char) : List Char := text.dropWhile isBlank

/-- Nothing but white space. -/
def allBlank (text : List Char) : Bool := text.all isBlank

end FormulaSheet
