/-!
# Blank characters and trimming

The blanks are the characters with the Unicode `White_Space` property: the ASCII tab, line
feed, vertical tab, form feed, carriage return and space, the next-line control, the no-break
space, the Ogham space mark, the eleven typographic spaces from en quad to hair space, the line
and paragraph separators, the narrow no-break space, the medium mathematical space and the
ideographic space. Trimming removes blanks from both ends of a text.
-/

namespace RpnLang.Text

/-- Inclusive code point ranges of the `White_Space` characters. -/
def blankRanges : List (Nat × Nat) :=
  [(0x09, 0x0D), (0x20, 0x20), (0x85, 0x85), (0xA0, 0xA0), (0x1680, 0x1680), (0x2000, 0x200A),
   (0x2028, 0x2029), (0x202F, 0x202F), (0x205F, 0x205F), (0x3000, 0x3000)]

/-- The character has the `White_Space` property. -/
def isBlank (c : Char) : Bool :=
  blankRanges.any fun r => r.1 ≤ c.toNat && c.toNat ≤ r.2

/-- The characters with leading and trailing blanks removed. -/
def trimBlankList (cs : List Char) : List Char :=
  ((cs.dropWhile isBlank).reverse.dropWhile isBlank).reverse

/-- The text with leading and trailing blanks removed. -/
def trimBlank (s : String) : String :=
  String.ofList (trimBlankList s.toList)

end RpnLang.Text
