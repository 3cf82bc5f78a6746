/-
What a stock request can do to the orders and the foods.

`Moves` lists the seven things, one constructor for each kind of write, with what
the handler has checked before it.  `moves` says that every request of the two
stock controllers does one of them.  The invariants of the files above are proved
by cases on `Moves` and never look into a handler again.
-/
import Spoiler.Proofs.Orders

namespace Spoiler

open Store Php

/-- The calls of `OrderController`. -/
def Call.isOrder : Call → Bool
  | orderStore _ _ => true
  | orderComplete _ => true
  | orderCancel _ => true
  | _ => false

/-- The calls of `FoodController`. -/
def Call.isFood : Call → Bool
  | foodStore _ => true
  | foodUpdate _ _ => true
  | _ => false

/-- What a stock request leaves of `db` and answers. -/
inductive Moves (db : Database) : Step → Database × Except Exn Response → Prop
  /-- Refused or rejected: no row changes, and the client is told. -/
  | still {step : Step} {t : Table Order} {u : Table Food} {a : Except Exn Response}
      (horders : t.row = db.orders.row) (hfoods : u.row = db.foods.row)
      (herror : isError a = true) : Moves db step ({ db with orders := t, foods := u }, a)
  /-- An order is placed; announcing it may still fail. -/
  | placed {env : Env} {user : Nat} {request : Request} {i : Nat} {food : Food} {order : Order}
      {n : Int} (hv : OrderController.verdict db user request = .ok (i, food))
      (hm : orders.make (OrderController.attributes env user request) = some order)
      (hn : (OrderController.deducted env food (request.get .foodNumber)).intColumn = some n) :
      Moves db ⟨env, .orderStore user request⟩
        ({ db with
            orders := db.orders.insert order
            foods := db.foods.modify i (Food.stocked n) },
          (announce env db food.restaurantId).map fun _ =>
            json (.order db.orders.next order) 200)
  | completed {env : Env} {id : Value} {i : Nat} {order : Order}
      (hl : orders.lookup db id = some (i, order)) (hsend : order.send = true) :
      Moves db ⟨env, .orderComplete id⟩
        ({ db with orders := db.orders.modify i Order.completed },
          .ok (json (.order i order.completed) 200))
  /-- An order is cancelled and its food cannot take the stock back. -/
  | stranded {env : Env} {id : Value} {i : Nat} {order : Order} {e : Exn}
      (hl : orders.lookup db id = some (i, order)) (hsend : order.send = true)
      (hfail : (foods.lookup db (.int order.foodId) = none ∧ e = .nullCall) ∨
        ∃ f food, foods.lookup db (.int order.foodId) = some (f, food) ∧
          (Value.int (food.remaining + order.foodNumber)).intColumn = none ∧ e = .query) :
      Moves db ⟨env, .orderCancel id⟩
        ({ db with orders := db.orders.modify i Order.cancelled }, .error e)
  | returned {env : Env} {id : Value} {i : Nat} {order : Order} {f : Nat} {food : Food} {n : Int}
      (hl : orders.lookup db id = some (i, order)) (hsend : order.send = true)
      (hf : foods.lookup db (.int order.foodId) = some (f, food))
      (hn : (Value.int (food.remaining + order.foodNumber)).intColumn = some n) :
      Moves db ⟨env, .orderCancel id⟩
        ({ db with
            orders := db.orders.modify i Order.cancelled
            foods := db.foods.modify f (Food.stocked n) },
          .ok (json (.order i order.cancelled) 200))
  | added {env : Env} {request : Request} {food : Food}
      (hvalid : failed db request.input (FoodController.storeRules request) = [])
      (hm : foods.make (FoodController.attributes request) = some food) :
      Moves db ⟨env, .foodStore request⟩
        ({ db with foods := db.foods.insert food }, .ok (json (.food db.foods.next food) 200))
  | changed {env : Env} {id : Value} {request : Request} {i : Nat} {food : Food} {f : Food → Food}
      (hl : foods.lookup db id = some (i, food))
      (hvalid : failed db request.input (FoodController.updateRules i food) = [])
      (hf : FoodController.changes request food = some f) :
      Moves db ⟨env, .foodUpdate id request⟩
        ({ db with foods := db.foods.modify i f }, .ok (json (.food i (f food)) 200))

namespace Moves

variable {db : Database} {env : Env}

theorem ofStore (user : Nat) (request : Request) :
    Moves db ⟨env, .orderStore user request⟩
      ((OrderController.store env user request).serve db).result := by
  rw [OrderController.store_result]
  cases hv : OrderController.verdict db user request with
  | error a =>
      refine .still rfl rfl ?_
      exact OrderController.isError_of_verdict hv
  | ok x =>
      obtain ⟨i, food⟩ := x
      dsimp only
      unfold OrderController.placed
      cases hm : orders.make (OrderController.attributes env user request) with
      | none => exact .still rfl rfl rfl
      | some order =>
          dsimp only
          cases hn : (OrderController.deducted env food (request.get .foodNumber)).intColumn with
          | none => exact .still rfl rfl rfl
          | some n => exact .placed hv hm hn

theorem ofComplete (id : Value) :
    Moves db ⟨env, .orderComplete id⟩ ((OrderController.complete id).serve db).result := by
  rw [OrderController.complete_result]
  cases hl : orders.lookup db id with
  | none => exact .still rfl rfl rfl
  | some x =>
      obtain ⟨i, order⟩ := x
      by_cases hsend : order.send
      · simp only [hsend, if_true]
        exact .completed hl hsend
      · simp only [hsend]
        exact .still rfl rfl rfl

theorem ofCancel (id : Value) :
    Moves db ⟨env, .orderCancel id⟩ ((OrderController.cancel id).serve db).result := by
  rw [OrderController.cancel_result]
  cases hl : orders.lookup db id with
  | none => exact .still rfl rfl rfl
  | some x =>
      obtain ⟨i, order⟩ := x
      by_cases hsend : order.send
      · simp only [hsend, if_true]
        cases hf : foods.lookup db (.int order.foodId) with
        | none => exact .stranded hl hsend (.inl ⟨hf, rfl⟩)
        | some y =>
            obtain ⟨f, food⟩ := y
            cases hn : (Value.int (food.remaining + order.foodNumber)).intColumn with
            | none =>
                simp only [hn]
                exact .stranded hl hsend (.inr ⟨f, food, hf, hn, rfl⟩)
            | some n =>
                simp only [hn]
                exact .returned hl hsend hf hn
      · simp only [hsend]
        exact .still rfl rfl rfl

theorem ofFoodStore (request : Request) :
    Moves db ⟨env, .foodStore request⟩ ((FoodController.store env request).serve db).result := by
  rw [FoodController.store_result]
  cases hvalid : failed db request.input (FoodController.storeRules request) with
  | cons e es => exact .still rfl rfl rfl
  | nil =>
      cases hm : foods.make (FoodController.attributes request) with
      | none => exact .still rfl rfl rfl
      | some food =>
          dsimp only
          cases announce env db food.restaurantId with
          | error e => exact .still rfl rfl rfl
          | ok _ => exact .added hvalid hm

theorem ofFoodUpdate (id : Value) (request : Request) :
    Moves db ⟨env, .foodUpdate id request⟩
      ((FoodController.update env id request).serve db).result := by
  rw [FoodController.update_result]
  cases hl : foods.lookup db id with
  | none => exact .still rfl rfl rfl
  | some x =>
      obtain ⟨i, food⟩ := x
      cases hvalid : failed db request.input (FoodController.updateRules i food) with
      | cons e es => simp only [hvalid]; exact .still rfl rfl rfl
      | nil =>
          simp only [hvalid]
          unfold FoodController.updated
          cases hf : FoodController.changes request food with
          | none => exact .still rfl rfl rfl
          | some f =>
              dsimp only
              split
              · exact .still rfl rfl rfl
              · exact .changed hl hvalid hf

end Moves

/-- **Every stock request makes one of these moves.** -/
theorem moves (L : Laravel) (db : Database) (step : Step)
    (h : step.call.isOrder = true ∨ step.call.isFood = true) :
    Moves db step (serve L db step, answer L db step) := by
  obtain ⟨env, call⟩ := step
  cases call with
  | orderStore user request => exact Moves.ofStore user request
  | orderComplete id => exact Moves.ofComplete id
  | orderCancel id => exact Moves.ofCancel id
  | foodStore request => exact Moves.ofFoodStore request
  | foodUpdate id request => exact Moves.ofFoodUpdate id request
  | _ => simp [Call.isOrder, Call.isFood] at h

/-- A stock request writes orders and foods only. -/
theorem stock_frame {L : Laravel} {db : Database} {step : Step}
    (h : step.call.isOrder = true ∨ step.call.isFood = true) :
    serve L db step
      = { db with orders := (serve L db step).orders, foods := (serve L db step).foods } := by
  have hmoves := moves L db step h
  generalize serve L db step = db' at hmoves ⊢
  generalize answer L db step = a at hmoves
  cases hmoves <;> rfl

end Spoiler
