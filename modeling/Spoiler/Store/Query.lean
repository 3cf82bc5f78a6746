/-
Statements on one table of a larger state.

A `TableOf` points at a table inside the state the programs run on.  The four
statements below are the ones an object-relational mapper issues; everything a
handler does to the database is made of them.
-/
import Spoiler.Store.Table
import Spoiler.Store.Prog

namespace Store

/-- Where a table lives inside the state. -/
structure TableOf (S ρ : Type) where
  get : S → Table ρ
  set : S → Table ρ → S
  get_set : ∀ s t, get (set s t) = t := by intros; rfl
  set_get : ∀ s, set s (get s) = s := by intros; rfl
  set_set : ∀ s t u, set (set s t) u = set s u := by intros; rfl

namespace TableOf

variable {S V E ρ : Type} (T : TableOf S ρ)

/-- `SELECT`: the rows as the connection sees them. -/
def all : Prog S V E (Table ρ) := .select fun s => .ret (T.get s)

/-- `INSERT`: the new key. -/
def insert (r : ρ) : Prog S V E Nat :=
  .insert (fun s => ((T.get s).reserve.1, T.set s (T.get s).reserve.2))
    (fun i s => T.set s ((T.get s).put i r)) .ret

/-- `UPDATE ... WHERE id = i`. -/
def change (i : Nat) (f : ρ → ρ) : Prog S V E Unit :=
  .update (fun s => T.set s ((T.get s).modify i f)) (.ret ())

/-- `DELETE ... WHERE id = i`. -/
def delete (i : Nat) : Prog S V E Unit :=
  .update (fun s => T.set s ((T.get s).erase i)) (.ret ())

end TableOf

end Store
