/-
`OrderController` and `FoodController`: the handlers that move stock.

The bodies follow the source statement by statement.  The authenticated user's id
is a parameter, because the `auth:api` middleware has resolved the token before
the handler runs, and the food an update addresses is looked up first, because
route model binding does so before the controller opens its transaction.
-/
import Spoiler.App.Eloquent

namespace Spoiler

open Store Php

/-! ### OrderController -/

namespace OrderController

/-- The names `OrderController.php` imports. -/
def uses : List String := ["DeprivateList", "NewOrder", "Food", "Order", "Request", "Auth", "DB"]

/-- `count(DeprivateList::where('user_id', $user)->get())`. -/
def badRecords (user : Nat) : Action Nat :=
  .select fun db =>
    .ret ((deprivateLists.get db).filter fun _ r => r.userId == (user : Int)).length

/-- `DeprivateList::find($v)->is_free`. -/
def isFree (v : Value) : Action Bool :=
  .select fun db => match v.key?.bind (deprivateLists.get db).row with
    | none => .raise .nullProperty
    | some r => .ret (r.isFree != 0)

/-- The condition of the ban check; the second operand of its `||` is only evaluated
when the first is false. -/
def admitted (user : Nat) (request : Request) : Action Bool := do
  if (← badRecords user) < 3 then return true else isFree (request.get .userId)

def rules (request : Request) (food : Food) : List (Attr × List Rule) :=
  [(.foodId, [.required, .exists_ foods.table]),
   (.foodNumber, [.required, .lte (request.bound food.remaining) food.remaining]),
   (.phone, [.required, .digits 10])]

/-- The attributes of the order a request creates. -/
def attributes (env : Env) (user : Nat) (request : Request) : Attr → Value
  | .userId => .int user
  | .phone => request.get .phone
  | .foodId => request.get .foodId
  | .orderNumber => .str (toString env.rand)
  | .foodNumber => request.get .foodNumber
  | .complete => .bool false
  | .send => .bool true
  | _ => .null

/-- `$food->remaining - $request->food_number`. -/
def deducted (env : Env) (food : Food) (number : Value) : Value :=
  match number, number.num? with
  | .bool b, _ => .int (food.remaining - if b then 1 else 0)
  | _, some x => .dec (env.minus.sub food.remaining x)
  | _, none => .null

/-- The answer to a banned user. -/
def banned : String := "the user has been banned since he/she has more than three bad records."

/-- The part of `store` after the ban check. -/
def place (env : Env) (user : Nat) (request : Request) (i : Nat) (food : Food) : Handler := do
  let (id, order) ← orders.create (attributes env user request)
  let _ ← foods.update i food (.only .remaining (deducted env food (request.get .foodNumber)))
  commit
  newOrder env id order
  return json (.order id order) 200

def storeBody (env : Env) (user : Nat) (request : Request) : Handler := do
  beginTransaction
  if (← foods.whereGet (Model.hasKey (request.get .foodId))).length > 0 then
    match ← foods.find (request.get .foodId) with
    | none => raise .nullProperty
    | some (i, food) =>
        request.validate (rules request food)
        if ← admitted user request then place env user request i food
        else return sendError banned 400
  else return sendError "the food id not found" 400

def store (env : Env) (user : Nat) (request : Request) : Handler :=
  tryCatchException uses (storeBody env user request) do
    rollBack
    return json .empty 400

def complete (id : Value) : Handler := do
  if (← orders.whereGet (Model.hasKey id)).length > 0 then
    match ← orders.find id with
    | none => raise .nullProperty
    | some (i, order) =>
        if order.send then
          let order ← orders.update i order (.only .complete (.int 1))
          return json (.order i order) 200
        else return sendError "the order has been canceled" 400
  else return sendError "order not found" 400

/-- The stock goes back to the food of a cancelled order. -/
def restock (order : Order) : Action Unit := do
  match ← foods.find (.int order.foodId) with
  | none => raise .nullCall
  | some (f, food) =>
      let _ ← foods.update f food (.only .remaining (.int (food.remaining + order.foodNumber)))

def cancel (id : Value) : Handler := do
  if (← orders.whereGet (Model.hasKey id)).length > 0 then
    match ← orders.find id with
    | none => raise .nullProperty
    | some (i, order) =>
        if order.send then
          let order ← orders.update i order (.only .send (.int 0))
          restock order
          return json (.order i order) 200
        else return json (.text "the order has been canceled") 400
  else return json (.text "the given order id not found") 400

end OrderController

/-! ### FoodController -/

namespace FoodController

/-- The names `FoodController.php` imports. -/
def uses : List String :=
  ["FoodAdded", "Food", "Restaurant", "ArrayObject", "Request", "DB", "Log", "Rule"]

def storeRules (request : Request) : List (Attr × List Rule) :=
  [(.name, [.unique foods.table Food.name
     fun _ r => (request.get .restaurantId).equalsInt r.restaurantId]),
   (.remaining, [.required, .integer]),
   (.originalPrice, [.required, .integer]),
   (.discountedPrice, [.required, .integer]),
   (.image, [.sometimes, .mimes ["jpg", "jpeg", "png", "bmp"]]),
   (.restaurantId, [.required, .exists_ restaurants.table])]

/-- The attributes of the food a request creates. -/
def attributes (request : Request) : Attr → Value
  | .name => request.get .name
  | .remaining => request.get .remaining
  | .originalPrice => request.get .originalPrice
  | .discountedPrice => request.get .discountedPrice
  | .image => ((request.fileUrl .image).map Value.str).getD .null
  | .restaurantId => request.get .restaurantId
  | _ => .null

def storeBody (env : Env) (request : Request) : Handler := do
  beginTransaction
  request.validate (storeRules request)
  let (id, food) ← foods.create (attributes request)
  foodAdded env id food
  commit
  return json (.food id food) 200

def store (env : Env) (request : Request) : Handler :=
  tryCatchException uses (storeBody env request) do
    rollBack
    return json .empty 200

def updateRules (i : Nat) (food : Food) : List (Attr × List Rule) :=
  [(.name, [.unique foods.table Food.name
     fun j r => j != i && r.restaurantId == food.restaurantId]),
   (.remaining, [.integer]),
   (.originalPrice, [.integer]),
   (.discountedPrice, [.integer]),
   (.image, [.sometimes, .mimes ["png", "jpg", "jpeg", "bmp"]]),
   (.restaurantId, [.exists_ restaurants.table])]

/-- The image of a request that carries a file is stored before anything else. -/
def updateImage (request : Request) (i : Nat) (food : Food) : Action Food :=
  foods.updateImage request i food

/-- `$food->remaining > $originalNumber` after the update: the attribute then holds
the request's value, or the loaded one if the request has none. -/
def raised (request : Request) (originalNumber : Int) : Bool :=
  match request.input .remaining with
  | some v => v.gtInt originalNumber
  | none => false

def updateBody (env : Env) (request : Request) (i : Nat) (food : Food) : Handler := do
  beginTransaction
  request.validate (updateRules i food)
  let food ← updateImage request i food
  let originalNumber := food.remaining
  let food ← foods.update i food (request.except .image)
  if raised request originalNumber then foodAdded env i food
  commit
  return json (.food i food) 200

def update (env : Env) (id : Value) (request : Request) : Handler := do
  match ← foods.find id with
  | none => raise .modelNotFound
  | some (i, food) =>
      tryCatchException uses (updateBody env request i food) do
        rollBack
        return json .empty 200

end FoodController

end Spoiler
