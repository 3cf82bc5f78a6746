/-
Eloquent: the statements a model call issues.

`find` and `where` read the rows the connection sees.  `create` inserts the row
its attributes make.  `update` fills the loaded row with the attributes that are
fillable and writes only the columns that changed, so an update that changes
nothing issues no statement at all.  A value a column does not take, or one that
collides with a unique index, raises a `QueryException`.
-/
import Spoiler.App.Http

namespace Spoiler

open Store Php

namespace Model

variable {ρ : Type}

/-- `Model::find($v)` and the row a route parameter is bound to. -/
def find (M : Model ρ) (v : Value) : Action (Option (Nat × ρ)) :=
  .select fun db => .ret (v.key?.bind fun i => ((M.table.get db).row i).map fun r => (i, r))

/-- `Model::where(...)->get()`. -/
def whereGet (M : Model ρ) (p : Nat → ρ → Bool) : Action (List (Nat × ρ)) :=
  .select fun db => .ret ((M.table.get db).filter p)

/-- `Model::where(...)->first()`. -/
def whereFirst (M : Model ρ) (p : Nat → ρ → Bool) : Action (Option (Nat × ρ)) :=
  .select fun db => .ret ((M.table.get db).first p)

/-- `where('id', $v)`. -/
def hasKey (v : Value) (i : Nat) (_ : ρ) : Bool := v.key? == some i

/-- Another row than `i` already has `r`'s value in the unique column. -/
def taken (M : Model ρ) (db : Database) (i : Nat) (r : ρ) : Bool :=
  match M.unique with
  | none => false
  | some column => !((M.table.get db).filter fun j q => j != i && column q == column r).isEmpty

/-- The unique index rejects `r` as the new content of row `i`, now `row`.  A value
that does not change is not looked at. -/
def clash (M : Model ρ) (db : Database) (i : Nat) (row r : ρ) : Bool :=
  match M.unique with
  | none => false
  | some column => column r != column row && M.taken db i r

/-- `Model::create([...])`. -/
def create (M : Model ρ) (attributes : Attr → Value) : Action (Nat × ρ) :=
  match M.make attributes with
  | none => .raise .query
  | some r =>
      let insert : Action (Nat × ρ) := do
        let i ← M.table.insert r
        return (i, r)
      match M.unique with
      | none => insert
      | some _ => .select fun db =>
          if M.taken db (M.table.get db).next r then .raise .query else insert

/-- The changed columns of `attributes` over the loaded row, as one assignment. -/
def dirty [DecidableEq ρ] (M : Model ρ) (attributes : Attributes) (loaded : ρ) :
    List Attr → Option (ρ → ρ)
  | [] => some id
  | a :: rest =>
      match attributes a with
      | none => M.dirty attributes loaded rest
      | some v => do
          let f ← M.assign a v
          let g ← M.dirty attributes loaded rest
          some (if f loaded = loaded then g else g ∘ f)

/-- `$model->update([...])` on the row loaded as `row`. -/
def update [DecidableEq ρ] (M : Model ρ) (i : Nat) (row : ρ) (attributes : Attributes) :
    Action ρ :=
  match M.dirty attributes row M.fillable with
  | none => .raise .query
  | some f =>
      let change : Action ρ := do
        M.table.change i f
        return f row
      if f row = row then .ret row
      else match M.unique with
        | none => change
        | some _ => .select fun db => if M.clash db i row (f row) then .raise .query else change

/-- An uploaded image goes into the row with an update of its own. -/
def updateImage [DecidableEq ρ] (M : Model ρ) (request : Request) (i : Nat) (row : ρ) :
    Action ρ :=
  match request.fileUrl .image with
  | some url => M.update i row (.only .image (.str url))
  | none => pure row

end Model

/-- `DB::beginTransaction()`. -/
def beginTransaction : Action Unit := .beginTransaction (.ret ())

/-- `DB::commit()`. -/
def commit : Action Unit := .commit (.ret ())

/-- `DB::rollBack()`. -/
def rollBack : Action Unit := .rollBack (.ret ())

def raise {A : Type} (e : Exn) : Action A := .raise e

/-- `try { body } catch (Exception $e) { handler }` in a file with these imports. -/
def tryCatchException (uses : List String) (body : Handler) (handler : Handler) : Handler :=
  body.tryCatch (Exn.isA (resolveClass uses "Exception")) fun _ => handler

/-- `Exception` is imported by none of the controllers, so the clause names a class
of their own namespace that does not exist and catches nothing. -/
theorem tryCatchException_eq {uses : List String} (h : "Exception" ∉ uses) (body handler : Handler) :
    tryCatchException uses body handler = body := by
  unfold tryCatchException resolveClass
  rw [if_neg h]
  exact Prog.tryCatch_of_never (Exn.not_isA_controllers _) body

/-! ### Events -/

/-- `event(...)` of an event on a restaurant's channel.  The constructor looked the
restaurant up, `broadcastOn` reads its id, and the sync queue broadcasts at once. -/
def dispatch (env : Env) (restaurant : Option (Nat × Restaurant)) (ev : Nat → Event) :
    Action Unit :=
  match restaurant with
  | none => .raise .nullProperty
  | some (r, _) => if env.broadcasts then .emit (ev r) (.ret ()) else .raise .broadcast

/-- `event(new NewOrder($order))`. -/
def newOrder (env : Env) (id : Nat) (order : Order) : Action Unit := do
  match ← foods.find (.int order.foodId) with
  | none => raise .nullProperty
  | some (_, food) =>
      let restaurant ← restaurants.find (.int food.restaurantId)
      dispatch env restaurant (.newOrder id)

/-- `event(new FoodAdded($food))`. -/
def foodAdded (env : Env) (id : Nat) (food : Food) : Action Unit := do
  let restaurant ← restaurants.find (.int food.restaurantId)
  dispatch env restaurant (.foodAdded id)

end Spoiler
