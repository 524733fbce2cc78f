/-!
# Blank characters

The characters with the Unicode property White_Space, and what reply lines need
of them: trimming at both ends, and the test for a blank line.  The class is
wider than the one that separates tokens, which is ASCII only: a no-break space
is blank but part of a token, and so is a vertical tab.
-/

namespace SmtQuery
namespace Text

/-- The ranges of code points with the property White_Space. -/
def blankRanges : List (Nat × Nat) :=
  [(0x9, 0xd), (0x20, 0x20), (0x85, 0x85), (0xa0, 0xa0), (0x1680, 0x1680), (0x2000, 0x200a),
   (0x2028, 0x2029), (0x202f, 0x202f), (0x205f, 0x205f), (0x3000, 0x3000)]

/-- Whether a code point lies in one of the ranges, ends included. -/
def inRanges (ranges : List (Nat × Nat)) (c : Char) : Bool :=
  ranges.any fun r => r.1 ≤ c.toNat && c.toNat ≤ r.2

/-- Whether the character is blank. -/
def isBlank (c : Char) : Bool := inRanges blankRanges c

/-- The text without the blank characters at its two ends. -/
def trim (text : List Char) : List Char :=
  ((text.dropWhile isBlank).reverse.dropWhile isBlank).reverse

/-- Whether the text holds blank characters only, or nothing. -/
def isBlankLine (text : List Char) : Bool := text.all isBlank

end Text
end SmtQuery
