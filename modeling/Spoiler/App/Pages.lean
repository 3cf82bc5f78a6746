/-
The pages that show one record, and the search.

`look` of a user loads the user and then calls `first()` on the loaded model.  A model
hands a method it does not have to a new query on its table, so what is shown is the first
row of the table.  The other two show what they loaded, each with what it is joined with.

`search` reads all restaurants and foods and keeps those whose name in lower case has more
than half of the keyword in it, as `similar_text` counts.  The keyword is what the field
`search` is as a string, byte for byte: a form field need not be UTF-8, and a number or a
boolean comes to `similar_text` and `strlen` as its text.
-/
import Spoiler.App.Restaurants
import Spoiler.Php.Bytes
import Spoiler.Php.Similar

namespace Spoiler

open Store Php

/-! ### One record -/

namespace UserController

def look (id : Value) : Handler := do
  if (← users.whereGet (Model.hasKey id)).length > 0 then
    match ← users.find id with
    | none => raise .nullCall
    | some _ =>
        -- `first()` on the loaded model
        match ← users.whereFirst fun _ _ => true with
        | none => return json .null 200
        | some (i, user) => return json (.user i user) 200
  else return sendError "user id not found" 400

end UserController

namespace OrderController

def look (id : Value) : Handler := do
  if (← orders.whereGet (Model.hasKey id)).length > 0 then
    match ← orders.find id with
    | none => return json .null 200
    | some (i, order) =>
        let food ← foods.find (.int order.foodId)
        let user ← users.find (.int order.userId)
        return json (.orderDetails i order food user) 200
  else return json (.text "the given order not found") 400

end OrderController

namespace RestaurantController

/-- `Restaurant::with('foods')->find($id)`. -/
def findWithFoods (id : Value) : Action (Option (Nat × Restaurant × List (Nat × Food))) := do
  match ← restaurants.find id with
  | none => return none
  | some (i, restaurant) =>
      let foods ← foods.whereGet fun _ food => food.restaurantId == (i : Int)
      return some (i, restaurant, foods)

def look (id : Value) : Handler := do
  if (← findWithFoods id).isSome then
    match ← findWithFoods id with
    | none => return json .null 200
    | some (i, restaurant, foods) => return json (.restaurantDetails i restaurant foods) 200
  else return sendError "the restaurant id not found" 400

end RestaurantController

/-! ### Search -/

namespace FoodController

/-- `if ($request->search)`: neither nothing nor the digit zero. -/
def searches (search : List UInt8) : Bool := search != [] && search != bytes "0"

/-- `similar_text(strtolower($name), $search) / strlen($search) > 0.5`. -/
def similar (search : List UInt8) (name : String) : Bool :=
  decide (search.length < 2 * similarText (strtolower (bytes name)) search)

def search (search : List UInt8) : Handler := do
  let restaurants ← restaurants.whereGet fun _ _ => true
  let foods ← foods.whereGet fun _ _ => true
  if searches search then
    return json (.found (restaurants.filter fun x => similar search x.2.name)
      (foods.filter fun x => similar search x.2.name)) 200
  else return json (.found restaurants foods) 200

end FoodController

end Spoiler
