import StepGraph.Text.Ranges

/-!
# Blank characters

The characters that separate words and are removed from the ends of a text: the white space of
Unicode together with the four information separators U+001C to U+001F.
-/

namespace StepGraph.Text

/-- Boundaries of the blank characters. -/
def blankBoundaries : List Nat :=
  [0x9, 0xe, 0x1c, 0x21, 0x85, 0x86, 0xa0, 0xa1, 0x1680, 0x1681, 0x2000, 0x200b,
   0x2028, 0x202a, 0x202f, 0x2030, 0x205f, 0x2060, 0x3000, 0x3001]

/-- A character that is white space. -/
def isBlank (c : Char) : Bool := inRanges blankBoundaries c

/-- A text as characters, without the blanks at both of its ends. -/
def trimmed (cs : List Char) : List Char :=
  ((cs.dropWhile isBlank).reverse.dropWhile isBlank).reverse

/-- A text without the blanks at both of its ends. -/
def trim (s : String) : String := String.ofList (trimmed s.toList)

end StepGraph.Text
