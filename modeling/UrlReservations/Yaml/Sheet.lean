/-
Sheets in YAML.

The sheets stand under their names at the outermost level, each a list of mappings at
the same indentation; a sheet without rows is an empty list after its name.
-/
import UrlReservations.Sheet
import UrlReservations.Yaml.Scalar

namespace UrlReservations.Yaml

/-- A name and its value, with the line feed that ends them. -/
def member (name : String) : Cell → List Char
  | .number n => name.toList ++ [':', ' '] ++ (toString n).toList ++ ['\n']
  | .text s => name.toList ++ [':', ' '] ++ scalarLine s

/--
A row as an element of a list: a dash before its first member, and an
indentation before every other.
-/
def row : Row → List Char
  | [] => []
  | (name, value) :: rest =>
    ['-', ' '] ++ member name value ++ rest.flatMap fun (name, value) =>
      [' ', ' '] ++ member name value

/-- A sheet under its name. -/
def sheet (s : Sheet) : List Char :=
  if s.rows.isEmpty then s.name.toList ++ [':', ' ', '[', ']', '\n']
  else s.name.toList ++ [':', '\n'] ++ s.rows.flatMap row

/-- Sheets one after another. -/
def render (sheets : List Sheet) : List Char := sheets.flatMap sheet

end UrlReservations.Yaml
