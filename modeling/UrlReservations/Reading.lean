/-
Reading one element into at most one row.

A reading is what an element asks for before its row, and the row, if the element has
all the row needs.  It says nothing about whether the row is emitted: that is for the
session the reading is settled on.
-/
import UrlReservations.Attributes

namespace UrlReservations

/-- What an element asks for, and the row it would emit last. -/
structure Reading (ρ : Type) where
  actions : List Action
  row? : Option ρ

namespace Reading

variable {ρ : Type}

/-- All actions of a reading, the emission of its row included. -/
def allActions (reading : Reading ρ) (emit : ρ → Action) : List Action :=
  reading.actions ++ reading.row?.toList.map emit

end Reading

/--
Carry out a reading; the answer is its row, if there is one and the
gate is open when it is its turn.
-/
def Session.settle {ρ : Type} (policy : Policy) (s : Session) (reading : Reading ρ)
    (emit : ρ → Action) : Session × Option ρ :=
  let before := s.perform policy reading.actions
  match reading.row? with
  | none => (before, none)
  | some row => (before.act policy (emit row), if before.gateOpen policy then some row else none)

/-- Settling a reading carries out all its actions. -/
theorem Session.settle_fst {ρ : Type} (policy : Policy) (s : Session) (reading : Reading ρ)
    (emit : ρ → Action) :
    (s.settle policy reading emit).1 = s.perform policy (reading.allActions emit) := by
  cases h : reading.row? <;> simp [settle, Reading.allActions, h]

end UrlReservations
