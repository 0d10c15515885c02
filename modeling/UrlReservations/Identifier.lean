/-
Identifiers of rows.

An identifier is authored or derived.  An authored one is legal if it begins with a
letter or underscore, goes on with letters, digits, underscores and periods, and has
at most seventy-two bytes; an illegal one is still an identifier, so that the rest of
its element can be checked.  A derived one is three letters for its kind and the
digest of the parts it is derived from.

What is hashed, `encodeParts`, is kept apart from the hashing: every part is preceded
by its length, so that a list of parts can be told from every other.
-/
import UrlReservations.Digest.Sha256
import UrlReservations.Numeral

namespace UrlReservations

/-- The identifier of a row, unique within its table. -/
structure Identifier where
  text : String
  deriving DecidableEq

namespace Identifier

/-- Identifiers are ordered by the code points of their texts. -/
instance : Ord Identifier where
  compare a b := compare a.text b.text

/-! ### Legal identifiers -/

/-- The greatest number of bytes a legal identifier may have. -/
def maxLength : Nat := 72

/-- Letters of ASCII and the underscore. -/
def isStart (c : Char) : Bool := c.isAlpha || c = '_'

/-- Letters and digits of ASCII, the underscore and the period. -/
def isPart (c : Char) : Bool := c.isAlphanum || c = '_' || c = '.'

/-- Whether characters follow the identifier grammar. -/
def followsGrammar : List Char → Bool
  | [] => false
  | c :: rest => isStart c && rest.all isPart

/-- Whether a text is a legal identifier. -/
def isLegal (text : String) : Bool := text.utf8ByteSize ≤ maxLength && followsGrammar text.toList

/-! ### Derived identifiers -/

/-- What an identifier can be derived for. -/
inductive Kind where
  | component
  | urlReservation
  | urlAce
  deriving DecidableEq

/-- The letters that identifiers derived for a kind begin with. -/
def Kind.mark : Kind → String
  | component => "cmp"
  | urlReservation => "url"
  | urlAce => "ace"

/-- The two hexadecimal digits of each byte. -/
def hex (bytes : List UInt8) : List Char :=
  bytes.flatMap fun b => Numeral.hex Numeral.lowerDigit 2 b.toNat

/-- The eight bytes of a length, least significant first. -/
def lengthMark (n : Nat) : List UInt8 := (List.range 8).map fun i => UInt8.ofNat (n >>> (8 * i))

/-- A part as it is hashed: its length in bytes, then its UTF-8 bytes. -/
def encodePart (part : String) : List UInt8 :=
  lengthMark part.utf8ByteSize ++ part.toByteArray.data.toList

/-- Parts as they are hashed, one after another; an absent part counts as an empty one. -/
def encodeParts (parts : List (Option String)) : List UInt8 :=
  parts.flatMap fun part? => encodePart (part?.getD "")

/-- The identifier of a kind derived from parts. -/
def derive (kind : Kind) (parts : List (Option String)) : Identifier :=
  ⟨kind.mark ++ String.ofList (hex (Sha256.digest (encodeParts parts)))⟩

end Identifier

end UrlReservations
