/-
The character classes of XML 1.0, fifth edition.

Four classes decide everything the reader does: blanks, the characters a document
may hold at all, and the characters that start and continue a name.
-/

namespace UrlReservations.Xml

/-- Space, tab, carriage return and line feed. -/
def isSpace (c : Char) : Bool := c = ' ' || c = '\t' || c = '\r' || c = '\n'

/--
The characters a document may hold: all but the control characters other than blanks, and the
two noncharacters U+FFFE and U+FFFF.
-/
def isAllowed (c : Char) : Bool :=
  if c.toNat < 0x20 then isSpace c else c.toNat ≠ 0xFFFE && c.toNat ≠ 0xFFFF

/-- Whether a code point lies in one of the given inclusive ranges. -/
def inRanges (ranges : List (Nat × Nat)) (c : Char) : Bool :=
  ranges.any fun (low, high) => low ≤ c.toNat && c.toNat ≤ high

/-- The ranges of characters that may begin a name. -/
def nameStartRanges : List (Nat × Nat) :=
  [(0x3A, 0x3A), (0x41, 0x5A), (0x5F, 0x5F), (0x61, 0x7A), (0xC0, 0xD6), (0xD8, 0xF6),
   (0xF8, 0x2FF), (0x370, 0x37D), (0x37F, 0x1FFF), (0x200C, 0x200D), (0x2070, 0x218F),
   (0x2C00, 0x2FEF), (0x3001, 0xD7FF), (0xF900, 0xFDCF), (0xFDF0, 0xFFFD), (0x10000, 0xEFFFF)]

/-- The ranges of characters that may continue a name but not begin one. -/
def nameTailRanges : List (Nat × Nat) :=
  [(0x2D, 0x2E), (0x30, 0x39), (0xB7, 0xB7), (0x300, 0x36F), (0x203F, 0x2040)]

/-- Characters that may begin a name, the colon included. -/
def isNameStart (c : Char) : Bool := inRanges nameStartRanges c

/-- Characters that may stand in a name, the colon included. -/
def isNameChar (c : Char) : Bool := isNameStart c || inRanges nameTailRanges c

end UrlReservations.Xml
