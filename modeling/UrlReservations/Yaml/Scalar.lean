/-
Texts as YAML scalars.

A text can be written in four styles.  The style wanted depends on what the text would
be taken for: one with line feeds is wanted literal, one that would be read as something
other than a text is wanted in single quotes, and every other one plain.  A style that
cannot express the text gives way to the next: plain to single quotes, and single quotes
and literal to double quotes, which can express everything.
-/
import UrlReservations.Yaml.Number

namespace UrlReservations.Yaml

/-! ### Character classes -/

/--
The line breaks: line feed, carriage return, next line, line separator and paragraph separator.
-/
def isBreak (c : Char) : Bool :=
  c = '\n' || c = '\r' || c = '\u0085' || c = '\u2028' || c = '\u2029'

/-- Space, tab and the line breaks. -/
def isBlank (c : Char) : Bool := c = ' ' || c = '\t' || isBreak c

/-- The characters that can stand for themselves. -/
def isPrintable (c : Char) : Bool :=
  c = '\n' || (0x20 ≤ c.toNat && c.toNat ≤ 0x7E) ||
    (0xA0 ≤ c.toNat && c.toNat ≠ 0xFEFF && c.toNat ≠ 0xFFFE && c.toNat ≠ 0xFFFF)

/-! ### What is wanted -/

/-- The styles of a scalar. -/
inductive Style where
  | plain
  | singleQuoted
  | doubleQuoted
  | literal
  deriving DecidableEq

/-- The words that are read as the absence of a value or as a truth value. -/
def reservedWords : List String :=
  ["", "null", "Null", "NULL", "~", "true", "True", "TRUE", "false", "False", "FALSE"]

/-- Whether a plain text would be read as something other than a text. -/
def isAmbiguous (text : List Char) : Bool :=
  reservedWords.contains (String.ofList text) || isNumber text

/-- The style that a text is wanted in. -/
def wantedStyle (text : List Char) : Style :=
  if text.contains '\n' then .literal else if isAmbiguous text then .singleQuoted else .plain

/-! ### What is possible -/

/-- Whether two neighbouring characters satisfy a condition somewhere in a text. -/
def anyNeighbours (p : Char → Char → Bool) (text : List Char) : Bool :=
  (text.zip text.tail).any fun (a, b) => p a b

/-- Whether a space stands directly before a line break. -/
def hasSpaceBeforeBreak (text : List Char) : Bool :=
  anyNeighbours (fun a b => a = ' ' && isBreak b) text

/-- Whether a space stands directly after a line break. -/
def hasSpaceAfterBreak (text : List Char) : Bool :=
  anyNeighbours (fun a b => isBreak a && b = ' ') text

/-- The characters that no plain text begins with. -/
def indicators : List Char :=
  ['#', ',', '[', ']', '\x7b', '\x7d', '&', '*', '!', '|', '>', '\'', '"', '%', '@', '\x60']

/-- Whether the beginning of a text is taken for the beginning of something else. -/
def beginsAsMarkup (text : List Char) : Bool :=
  ['-', '-', '-'].isPrefixOf text || ['.', '.', '.'].isPrefixOf text ||
    match text with
    | [] => false
    | c :: rest => indicators.contains c || ((c = '?' || c = '-') && rest.head?.all isBlank)

/-- Whether a colon stands before a blank or at the end, or a number sign after a blank. -/
def holdsMarkup (text : List Char) : Bool :=
  text.getLast? = some ':' ||
    anyNeighbours (fun a b => (a = ':' && isBlank b) || (isBlank a && b = '#')) text

/-- Whether a text can be written as it is. -/
def allowsPlain (text : List Char) : Bool :=
  text.head? ≠ some ' ' && text.getLast? ≠ some ' ' &&
    text.all (fun c => isPrintable c && !isBreak c) &&
    !beginsAsMarkup text && !holdsMarkup text

/-- Whether a text can be written in single quotes. -/
def allowsSingleQuoted (text : List Char) : Bool :=
  text.all isPrintable && !hasSpaceBeforeBreak text && !hasSpaceAfterBreak text

/-- Whether a text can be written line by line. -/
def allowsLiteral (text : List Char) : Bool :=
  text.all isPrintable && text.getLast? ≠ some ' ' && !hasSpaceBeforeBreak text

/-- The style that a text is written in. -/
def styleOf (text : List Char) : Style :=
  match wantedStyle text with
  | .literal => if allowsLiteral text then .literal else .doubleQuoted
  | wanted =>
    if wanted = .plain && allowsPlain text then .plain
    else if allowsSingleQuoted text then .singleQuoted
    else .doubleQuoted

/-! ### Writing -/

/-- The indentation of the lines of a scalar that continues below its key. -/
def indentation : List Char := List.replicate 4 ' '

/--
A text in single quotes: a quote is doubled, and text that goes on after a line break is indented.
-/
def singleQuoted (text : List Char) : List Char := '\'' :: go false text
where
  /-- What follows, given whether a line has just been broken. -/
  go : Bool → List Char → List Char
    | broken, [] => (if broken then indentation else []) ++ ['\'']
    | broken, c :: rest =>
      if isBreak c then c :: go true rest
      else (if broken then indentation else []) ++
        (if c = '\'' then ['\'', '\''] else [c]) ++ go false rest

/-- The escapes of one letter in double quotes. -/
def shortEscapes : List (Char × Char) :=
  [('"', '"'), ('\\', '\\'), ('\x00', '0'), ('\x07', 'a'), ('\x08', 'b'), ('\t', 't'),
   ('\n', 'n'), ('\x0b', 'v'), ('\x0c', 'f'), ('\r', 'r'), ('\x1b', 'e'), ('\u0085', 'N'),
   ('\u2028', 'L'), ('\u2029', 'P')]

/-- A character in double quotes. -/
def escape (c : Char) : List Char :=
  match shortEscapes.lookup c with
  | some letter => ['\\', letter]
  | none =>
    if isPrintable c then [c]
    else if c.toNat ≤ 0xFF then '\\' :: 'x' :: Numeral.hex Numeral.upperDigit 2 c.toNat
    else if c.toNat ≤ 0xFFFF then '\\' :: 'u' :: Numeral.hex Numeral.upperDigit 4 c.toNat
    else '\\' :: 'U' :: Numeral.hex Numeral.upperDigit 8 c.toNat

/-- A text in double quotes. -/
def doubleQuoted (text : List Char) : List Char := '"' :: text.flatMap escape ++ ['"']

/--
What the mark of a literal text says about its end: that it has no line break, or more than the
one that every text line has.
-/
def chomping (text : List Char) : List Char :=
  match text.reverse with
  | [] => ['-']
  | last :: earlier =>
    if !isBreak last then ['-']
    else match earlier with
      | [] => ['+']
      | c :: _ => if isBreak c then ['+'] else []

/-- The mark of a literal text, which gives the indentation if the first line would hide it. -/
def literalMark (text : List Char) : List Char :=
  '|' :: (if text.head?.any (fun c => c = ' ' || isBreak c) then ['2'] else []) ++ chomping text

/-- The lines of a literal text, each indented unless it is empty. -/
def literalLines : Bool → List Char → List Char
  | _, [] => []
  | atStart, c :: rest =>
    if isBreak c then c :: literalLines true rest
    else (if atStart then indentation else []) ++ c :: literalLines false rest

/-- A text line by line, below its mark. -/
def literal (text : List Char) : List Char := literalMark text ++ '\n' :: literalLines true text

/-- A text in a style. -/
def write (text : List Char) : Style → List Char
  | .plain => text
  | .singleQuoted => singleQuoted text
  | .doubleQuoted => doubleQuoted text
  | .literal => literal text

/--
A text as a scalar, with the line feed that ends it unless the text itself ends in a line break.
-/
def scalarLine (s : String) : List Char :=
  let text := s.toList
  let style := styleOf text
  write text style ++ (if style = .literal && text.getLast?.any isBreak then [] else ['\n'])

end UrlReservations.Yaml
