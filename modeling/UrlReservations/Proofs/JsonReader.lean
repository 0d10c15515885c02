/-
Reading JSON.

This is a reader of the whole notation, not only of what is written here: space
of any kind between the parts, every escape, code units of UTF-16 that make up
one character in twos, numbers with a fraction and an exponent, and values
nested in one another.  A reader takes something off the beginning of a text
and says what is left, so readers are put together by handing on what is left.

Values are read to a given depth, and items of a list up to a given number.  Neither hides anything:
each level and each item takes at least one character, so the length of the text bounds both.
-/
import UrlReservations.Json

namespace UrlReservations.Json

/-- A JSON value; a number is a whole number times a power of ten. -/
inductive Value where
  | null
  | truth (b : Bool)
  | number (mantissa exponent : Int)
  | text (s : String)
  | array (items : List Value)
  | object (members : List (String × Value))

/-- Takes something off the beginning of a text; the answer is what was read and what is left. -/
abbrev Reader (α : Type) := List Char → Option (α × List Char)

/-- The characters that may stand between the parts of a text. -/
def isSpace (c : Char) : Bool := c = ' ' || c = '\t' || c = '\n' || c = '\r'

/-- A text without the space it begins with. -/
def skipSpace (text : List Char) : List Char := text.dropWhile isSpace

/-! ### Strings -/

/-- A part of a string: a character, or a code unit of UTF-16 given by its number. -/
inductive Piece where
  | char (c : Char)
  | unit (n : Nat)

/-- What the letters behind a backslash stand for. -/
def escapedLetters : List (Char × Char) :=
  [('"', '"'), ('\\', '\\'), ('/', '/'), ('b', '\x08'), ('f', '\x0c'), ('n', '\n'),
    ('r', '\r'), ('t', '\t')]

/-- The pieces of a string, from behind its opening mark to its closing one. -/
def readPieces : Reader (List Piece)
  | [] => none
  | c :: rest =>
    if c = '"' then some ([], rest)
    else if c = '\\' then
      match rest with
      | 'u' :: first :: second :: third :: fourth :: rest => do
        let n ← Numeral.read? 16 [first, second, third, fourth]
        (readPieces rest).map (Prod.map (.unit n :: ·) id)
      | letter :: rest => do
        let c ← escapedLetters.lookup letter
        (readPieces rest).map (Prod.map (.char c :: ·) id)
      | [] => none
    else if c.toNat < 0x20 then none
    else (readPieces rest).map (Prod.map (.char c :: ·) id)

/--
The characters that pieces stand for.  Outside of the surrogates a code unit is a character; a high
surrogate makes up one with the low surrogate behind it, and no other surrogate stands for any.
-/
def join? : List Piece → Option (List Char)
  | [] => some []
  | .char c :: rest => (join? rest).map (c :: ·)
  | .unit n :: rest =>
    if n < 0xD800 || 0xDFFF < n then (join? rest).map (Char.ofNat n :: ·)
    else match rest with
      | .unit low :: rest =>
        if n ≤ 0xDBFF && 0xDC00 ≤ low && low ≤ 0xDFFF then
          (join? rest).map (Char.ofNat (0x10000 + (n - 0xD800) * 0x400 + (low - 0xDC00)) :: ·)
        else none
      | _ => none

/-- A string with its marks. -/
def readString : Reader String
  | '"' :: rest => do
    let (pieces, rest) ← readPieces rest
    let characters ← join? pieces
    return (String.ofList characters, rest)
  | _ => none

/-! ### Numbers and words -/

/-- A minus sign, if there is one, as a factor. -/
def readMinus : List Char → Int × List Char
  | '-' :: rest => (-1, rest)
  | text => (1, text)

/-- Digits, of which the first is a zero only if it is the only one. -/
def readWhole (text : List Char) : Option (List Char × List Char) :=
  match text.takeWhile Char.isDigit with
  | [] => none
  | c :: digits =>
    if c = '0' && !digits.isEmpty then none else some (c :: digits, text.dropWhile Char.isDigit)

/-- The digits behind a point, if there is one. -/
def readFraction : Reader (List Char)
  | '.' :: rest =>
    match rest.takeWhile Char.isDigit with
    | [] => none
    | digits => some (digits, rest.dropWhile Char.isDigit)
  | text => some ([], text)

/-- The exponent behind its letter, if there is one. -/
def readExponent : Reader Int
  | [] => some (0, [])
  | c :: rest =>
    if c = 'e' || c = 'E' then
      let (sign, digits) := match rest with
        | '+' :: rest => (1, rest)
        | rest => readMinus rest
      (Numeral.read? 10 (digits.takeWhile Char.isDigit)).map fun n =>
        (sign * n, digits.dropWhile Char.isDigit)
    else some (0, c :: rest)

/-- A number. -/
def readNumber (text : List Char) : Option (Value × List Char) := do
  let (sign, rest) := readMinus text
  let (whole, rest) ← readWhole rest
  let (fraction, rest) ← readFraction rest
  let (exponent, rest) ← readExponent rest
  let n ← Numeral.read? 10 (whole ++ fraction)
  return (.number (sign * n) (exponent - fraction.length), rest)

/-- The values that are written as words. -/
def words : List (String × Value) :=
  [("null", .null), ("true", .truth true), ("false", .truth false)]

/-- A word. -/
def readWord (text : List Char) : Option (Value × List Char) :=
  words.findSome? fun (word, value) =>
    if word.toList.isPrefixOf text then some (value, text.drop word.toList.length) else none

/-! ### Lists and values -/

variable {α : Type}

/--
At least one item and at most so many, with commas between them and a closing mark behind them.
-/
def readItems (item : Reader α) (closing : Char) : Nat → Reader (List α)
  | 0, _ => none
  | bound + 1, text => do
    let (first, rest) ← item text
    match skipSpace rest with
    | [] => none
    | c :: rest =>
      if c = closing then some ([first], rest)
      else if c = ',' then (readItems item closing bound rest).map (Prod.map (first :: ·) id)
      else none

/-- Any items, from behind an opening mark to a closing one. -/
def readList (item : Reader α) (closing : Char) (text : List Char) : Option (List α × List Char) :=
  match skipSpace text with
  | [] => none
  | c :: rest => if c = closing then some ([], rest) else readItems item closing text.length text

/-- A name, a colon, and what stands under the name. -/
def readMember (value : Reader α) (text : List Char) : Option ((String × α) × List Char) := do
  let (name, rest) ← readString (skipSpace text)
  match skipSpace rest with
  | ':' :: rest => (value rest).map (Prod.map (name, ·) id)
  | _ => none

/-- A value nested to at most a depth, with the space before it. -/
def readValue : Nat → Reader Value
  | 0, _ => none
  | depth + 1, text =>
    match skipSpace text with
    | [] => none
    | c :: rest =>
      if c = '\x7b' then
        (readList (readMember (readValue depth)) '\x7d' rest).map (Prod.map .object id)
      else if c = '[' then (readList (readValue depth) ']' rest).map (Prod.map .array id)
      else if c = '"' then (readString (c :: rest)).map (Prod.map .text id)
      else (readWord (c :: rest)).or (readNumber (c :: rest))

/-- The value that a text is, with space around it. -/
def read? (text : String) : Option Value := do
  let (value, rest) ← readValue (text.toList.length + 1) text.toList
  if (skipSpace rest).isEmpty then some value else none

example :
    read? "[-2.5e+1,\t\"\\u00e9\\ud83d\\ude00\\/\"\n]"
      = some (.array [.number (-25) 0, .text "é😀/"]) := by cbv

end UrlReservations.Json
