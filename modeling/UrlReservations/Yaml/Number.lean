/-
Texts that YAML reads as numbers.

Such a text has to be quoted to stay a text.  It is a whole number with a mark for its
base, a decimal number that is finite as a double, digits after a leading zero, or one
of the words for infinity and for what is not a number.
-/
import UrlReservations.Numeral

namespace UrlReservations.Yaml

/-- Split off one leading sign. -/
def splitSign : List Char → Option Char × List Char
  | '+' :: rest => (some '+', rest)
  | '-' :: rest => (some '-', rest)
  | text => (none, text)

/-- The bases that have a mark, each with the letter of its mark. -/
def markedBases : List (Char × Nat) := [('x', 16), ('o', 8), ('b', 2)]

/-- Whether a text is a whole number with a mark for its base and a sign, within 128 bits. -/
def isMarkedInteger (text : List Char) : Bool :=
  let (sign?, unsigned) := splitSign text
  match unsigned with
  | '0' :: letter :: digits =>
    match (markedBases.lookup letter).bind (Numeral.read? · digits) with
    | some n => if sign? = some '-' then n ≤ 1 <<< 127 else n < 1 <<< 128
    | none => false
  | _ => false

/-- Whether a text is a zero followed by digits. -/
def hasLeadingZero (text : List Char) : Bool :=
  match (splitSign text).2 with
  | '0' :: c :: rest => (c :: rest).all Char.isDigit
  | _ => false

/-! ### Decimal numbers -/

/-- A decimal number without its sign: a whole number times a power of ten. -/
structure Decimal where
  digits : Nat
  exponent : Int

/-- The exponent after its letter: a sign, if any, and digits. -/
def readExponent? (text : List Char) : Option Int :=
  match splitSign text with
  | (some '-', digits) => (Numeral.read? 10 digits).map fun n => -(n : Int)
  | (_, digits) => (Numeral.read? 10 digits).map fun n => (n : Int)

/--
Read a decimal number without a sign: digits with at most one point among or beside them, and
optionally an exponent.
-/
def Decimal.read? (text : List Char) : Option Decimal := do
  let whole := text.takeWhile Char.isDigit
  let afterWhole := text.drop whole.length
  let fraction := match afterWhole with
    | '.' :: rest => rest.takeWhile Char.isDigit
    | _ => []
  let afterFraction := match afterWhole with
    | '.' :: rest => rest.drop fraction.length
    | _ => afterWhole
  let digits ← Numeral.read? 10 (whole ++ fraction)
  let exponent ← match afterFraction with
    | [] => some 0
    | c :: rest => if c = 'e' || c = 'E' then readExponent? rest else none
  return ⟨digits, exponent - fraction.length⟩

/--
The least number that a double rounds to infinity: halfway from the greatest double to the next
power of two.
-/
def infinityThreshold : Nat := (1 <<< 1024) - (1 <<< 970)

/--
Whether a decimal number is finite as a double.

A number whose leading digit stands more than 310 places before the point is beyond
every double, and one whose leading digit stands at most 300 places before it is below
the greatest; only between the two is the power of ten computed.
-/
def Decimal.isFinite (d : Decimal) : Bool :=
  let magnitude := d.exponent + (toString d.digits).length
  if d.digits = 0 || magnitude ≤ 300 then true
  else if magnitude > 310 then false
  else match d.exponent with
    | .ofNat e => d.digits * Nat.pow 10 e < infinityThreshold
    | .negSucc e => d.digits < infinityThreshold * Nat.pow 10 (e + 1)

/-- Whether a text is a decimal number that is finite as a double. -/
def isFiniteDecimal (text : List Char) : Bool :=
  ((Decimal.read? (splitSign text).2).map Decimal.isFinite).getD false

/-! ### Words -/

/-- Words for infinity, which may have a sign. -/
def infinityWords : List String := [".inf", ".Inf", ".INF"]

/-- Words for what is not a number. -/
def notANumberWords : List String := [".nan", ".NaN", ".NAN"]

/-- Whether a text is a word that stands for a number. -/
def isNumberWord (text : List Char) : Bool :=
  infinityWords.contains (String.ofList (splitSign text).2) ||
    notANumberWords.contains (String.ofList text)

/-- Whether YAML reads a text as a number. -/
def isNumber (text : List Char) : Bool :=
  isMarkedInteger text || hasLeadingZero text || isFiniteDecimal text || isNumberWord text

end UrlReservations.Yaml
