import Mathlib.Data.Nat.Notation

/-!
# Cells whose content is used through a raw pointer

While a callback runs on an event, the loop keeps a raw pointer to the event and marks the cell
that holds it as stolen.  The cell lives in a slot of a vector, so its address is the identity of
the vector's buffer together with the index of the slot.
-/

namespace Eveboros

universe u

structure Addr where
  buf : Nat
  idx : Nat
  deriving DecidableEq, Repr

structure StolenCell (α : Type u) where
  data : α
  stolen : Bool

structure StolenData where
  ptr : Addr
  deriving DecidableEq, Repr

inductive CellFault
  | alreadyStolen
  /-- The pointer given back is not the address of the cell. -/
  | moved
  deriving DecidableEq, Repr

namespace StolenCell

variable {α : Type u}

def new (data : α) : StolenCell α := ⟨data, false⟩

def intoInner (cell : StolenCell α) : Except CellFault α :=
  if cell.stolen then .error .alreadyStolen else .ok cell.data

/-- `self.data.get()` is the address of the cell itself. -/
def steal (self : Addr) (cell : StolenCell α) : Except CellFault (StolenData × StolenCell α) :=
  if cell.stolen then .error .alreadyStolen else .ok (⟨self⟩, { cell with stolen := true })

def unsteal (self : Addr) (data : StolenData) (cell : StolenCell α) :
    Except CellFault (StolenCell α) :=
  if data.ptr = self then .ok { cell with stolen := false } else .error .moved

end StolenCell

end Eveboros
