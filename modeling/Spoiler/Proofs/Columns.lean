/-
An owner's edit of a food is not lost.

Two updates of one food may run together, and each writes back the row it loaded before the
other one committed.  It only writes the columns that it changes, though, so what an update has
set stays set as long as nobody else sets the same column.  Orders and cancellations write the
stock and nothing else.

What is to last here is one value in one column of one food, and the contract of the handlers
is kept with that in addition.
-/
import Spoiler.Proofs.Interleaved

namespace Spoiler

open Store Php

variable {β : Type} {π : Food → β} {k : Nat} {x : β} {c : Attr} {parse : Value → Option β}

/-- Food `k` keeps `x` in the column `π` once it has it. -/
def Holds.column (π : Food → β) (k : Nat) (x : β) : Holds where
  rel i food later := i = k → π food = x → π later = x
  refl _ _ _ h := h
  trans h h' hi hx := h' hi (h hi hx)

/-- The request writes the column `c` of food `k`, if it writes any food. -/
def Route.writes (c : Attr) (k : Nat) : Route → Bool
  | orderStore request => c == .remaining && (request.get .foodId).key? == some k
  | orderCancel _ => c == .remaining
  | foodUpdate id request => id.key? == some k && (request.input c).isSome
  | _ => false

section Pool

variable {ι : Type} [DecidableEq ι] {L : Laravel} {db : Database} {visits : ι → Visit}

/-- The owner raises the price of a food while another request raises its stock. -/
def Sample.edits : Bool → Visit
  | true => ⟨env, token 'c', .foodUpdate (.int 1) (request [(.originalPrice, .int 120)])⟩
  | false => ⟨env, token 'd', .foodUpdate (.int 1) (request [(.remaining, .int 9)])⟩

end Pool

end Spoiler
