/-
A depot: items with a stock, and reservations of them.

This is the machine a shop keeps its books by.  An item is supplied with a stock; a
reservation takes its number out of the stock of its item, for which there has to be enough;
it may be marked complete while it stands; and cancelling it, which is possible once, puts the
number back.  An operation that is not possible gives nothing.
-/
import Mathlib.Logic.Function.Basic

namespace Store

structure Reservation (ι : Type) where
  item : ι
  number : Int
  complete : Bool
  stands : Bool

@[ext] structure Depot (ι ω : Type) where
  stock : ι → Option Int
  reservations : ω → Option (Reservation ι)

namespace Depot

variable {ι ω : Type}

/-- Nothing is supplied and nothing is reserved. -/
def nothing : Depot ι ω := ⟨fun _ => none, fun _ => none⟩

inductive Op (ι ω : Type)
  | supply (item : ι) (number : Int)
  | reserve (id : ω) (item : ι) (number : Int)
  | complete (id : ω)
  | cancel (id : ω)

variable [DecidableEq ι] [DecidableEq ω]

/-- A number is put into the stock of an item, or taken out if it is negative. -/
def add (d : Depot ι ω) (item : ι) (number : Int) : Depot ι ω :=
  { d with stock := Function.update d.stock item ((d.stock item).map (· + number)) }

/-- A reservation is written down. -/
def note (d : Depot ι ω) (id : ω) (r : Reservation ι) : Depot ι ω :=
  { d with reservations := Function.update d.reservations id (some r) }

def step (d : Depot ι ω) : Op ι ω → Option (Depot ι ω)
  | .supply item number => some { d with stock := Function.update d.stock item (some number) }
  | .reserve id item number =>
      match d.reservations id, d.stock item with
      | none, some left =>
          if number ≤ left then some ((d.add item (-number)).note id ⟨item, number, false, true⟩)
          else none
      | _, _ => none
  | .complete id =>
      match d.reservations id with
      | some r => if r.stands then some (d.note id { r with complete := true }) else none
      | none => none
  | .cancel id =>
      match d.reservations id with
      | some r =>
          if r.stands then some ((d.add r.item r.number).note id { r with stands := false })
          else none
      | none => none

section Possible

variable {d : Depot ι ω} {id : ω} {r : Reservation ι}

theorem step_reserve {item : ι} {number left : Int} (hid : d.reservations id = none)
    (hitem : d.stock item = some left) (hle : number ≤ left) :
    d.step (.reserve id item number)
      = some ((d.add item (-number)).note id ⟨item, number, false, true⟩) := by
  simp only [step, hid, hitem, if_pos hle]

theorem step_complete (hid : d.reservations id = some r) (hstands : r.stands = true) :
    d.step (.complete id) = some (d.note id { r with complete := true }) := by
  simp only [step, hid, if_pos hstands]

theorem step_cancel (hid : d.reservations id = some r) (hstands : r.stands = true) :
    d.step (.cancel id)
      = some ((d.add r.item r.number).note id { r with stands := false }) := by
  simp only [step, hid, if_pos hstands]

end Possible

/-- The operations one after another, all of them possible. -/
def run (d : Depot ι ω) (ops : List (Op ι ω)) : Option (Depot ι ω) := ops.foldlM step d

@[simp] theorem run_nil (d : Depot ι ω) : d.run [] = some d := rfl

@[simp] theorem run_singleton (d : Depot ι ω) (op : Op ι ω) : d.run [op] = d.step op := by
  simp [run]

theorem run_append (d : Depot ι ω) (ops more : List (Op ι ω)) :
    d.run (ops ++ more) = (d.run ops).bind fun d' => d'.run more := by
  simp [run]

end Depot

end Store
