/-
Tables with unique keys.

A table is its rows in the order they were added.  A row whose key is already there is
not added, so the rows are always the first ones offered for each key.
-/

namespace UrlReservations

/-- Rows in the order they were added, told apart by a key. -/
structure Table {ρ κ : Type} (key : ρ → κ) where
  rows : List ρ
  deriving DecidableEq

namespace Table

variable {ρ κ : Type} {key : ρ → κ}

/-- The table without rows. -/
def empty : Table key := ⟨[]⟩

/-- The keys in use, in the order they were first used. -/
def keys (table : Table key) : List κ := table.rows.map key

/-- Add a row at the end, unless its key is in use. -/
def insert? [DecidableEq κ] (table : Table key) (row : ρ) : Option (Table key) :=
  if key row ∈ table.keys then none else some ⟨table.rows ++ [row]⟩

/-- Add a row at the end if its key is not in use, and change nothing otherwise. -/
def insertNew [DecidableEq κ] (table : Table key) (row : ρ) : Table key :=
  (table.insert? row).getD table

end Table

end UrlReservations
