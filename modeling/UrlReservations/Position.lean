/-
Where something stands in a source text.

A position is a line and a column, both counted from one.  Columns count
characters, and only a line feed opens a new line, so a position follows from the
characters read so far and nothing else.
-/

namespace UrlReservations

/-- A line and a column of a source text. -/
structure Position where
  line : Nat
  column : Nat
  deriving DecidableEq

namespace Position

/-- The position of the first character of a text. -/
def start : Position := ⟨1, 1⟩

/--
The position after one more character: a line feed opens the next line, any other character is
one column.
-/
def advance (pos : Position) (c : Char) : Position :=
  if c = '\n' then ⟨pos.line + 1, 1⟩ else ⟨pos.line, pos.column + 1⟩

/-- The next column of the same line. -/
def nextColumn (pos : Position) : Position := ⟨pos.line, pos.column + 1⟩

/-- A position as diagnostics show it, `line:column`. -/
def text (pos : Position) : String := toString pos.line ++ ":" ++ toString pos.column

instance : ToString Position := ⟨text⟩

/-- Positions are ordered as the text is read: by line, then by column. -/
instance : Ord Position where
  compare a b := (compare a.line b.line).then (compare a.column b.column)

end Position

end UrlReservations
