/-
Sheets in JSON.

One object holds the sheets under their names, each an array of objects.  Everything
stands on lines of its own, indented by two spaces a level, except an array without
elements.  Only what JSON does not allow in a string is escaped.
-/
import UrlReservations.Numeral
import UrlReservations.Sheet

namespace UrlReservations.Json

/-- The escapes of one letter. -/
def shortEscapes : List (Char × Char) :=
  [('"', '"'), ('\\', '\\'), ('\x08', 'b'), ('\x0c', 'f'), ('\n', 'n'), ('\r', 'r'), ('\t', 't')]

/-- A character inside a string. -/
def escape (c : Char) : List Char :=
  match shortEscapes.lookup c with
  | some letter => ['\\', letter]
  | none => if c.toNat < 0x20 then '\\' :: 'u' :: Numeral.hex Numeral.lowerDigit 4 c.toNat else [c]

/-- A string with its quotation marks. -/
def quote (s : String) : List Char := '"' :: s.toList.flatMap escape ++ ['"']

/-- A value. -/
def cell : Cell → List Char
  | .number n => (toString n).toList
  | .text s => quote s

/-- The start of a line at a level. -/
def newline (level : Nat) : List Char := '\n' :: List.replicate (2 * level) ' '

/--
Items between an opening and a closing mark, each on a line of its own one level below the marks.
-/
def block (level : Nat) (opening closing : Char) (items : List (List Char)) : List Char :=
  if items.isEmpty then [opening, closing]
  else opening :: [','].intercalate (items.map (newline (level + 1) ++ ·)) ++
    newline level ++ [closing]

/-- A name and what stands under it. -/
def member (name : String) (value : List Char) : List Char := quote name ++ [':', ' '] ++ value

/-- A row as an object. -/
def row (r : Row) : List Char :=
  block 2 '\x7b' '\x7d' (r.map fun (name, value) => member name (cell value))

/-- A sheet as a member of the outermost object. -/
def sheet (s : Sheet) : List Char := member s.name (block 1 '[' ']' (s.rows.map row))

/-- Sheets as a text that ends in a line feed. -/
def render (sheets : List Sheet) : List Char := block 0 '\x7b' '\x7d' (sheets.map sheet) ++ ['\n']

end UrlReservations.Json
