/-
What a page shows of a row, and the pages that show whole tables.

A model names columns that are left out when a row is encoded: the `$hidden` of `User` and of
`Owner`.  The page after a Facebook login, which is a view, leaves out the same ones.  A row as
it is shown is the row with these columns blanked, so that two rows look the same exactly when
they are shown the same.

The index pages read their tables whole, some of them with a relation, which is a second query.
-/
import Spoiler.App.Catalogue
import Spoiler.App.Pages

namespace Spoiler

open Store Php

/-! ### Hidden columns -/

def User.shown (user : User) : User :=
  { user with password := "", accessToken := none, badRecord := 0 }

def Owner.shown (owner : Owner) : Owner := { owner with password := "" }

/-- What is encoded of a body. -/
def Payload.shown : Payload → Payload
  | .user id row => .user id row.shown
  | .owner id row => .owner id row.shown
  | .orderDetails id row item buyer =>
      .orderDetails id row item (buyer.map fun x => (x.1, x.2.shown))
  | body => body

def Response.shown (response : Response) : Response :=
  { response with body := response.body.shown }

/-- What the client gets to see. -/
def shown (answer : Except Exn Response) : Except Exn Response := answer.map Response.shown

/-! ### Index pages -/

/-- `User::all()`. -/
def UserController.all : Action (List (Nat × User)) := users.whereGet fun _ _ => true

/-- `User::with('subscriptRestaurant')->get()`. -/
def UserController.getSubscription : Action (List ((Nat × User) × List (Nat × Restaurant))) := do
  let users ← users.whereGet fun _ _ => true
  let restaurants ← (.select fun db => .ret (User.subscriptRestaurant db) :
    Action (Nat → List (Nat × Restaurant)))
  return users.map fun x => (x, restaurants x.1)

/-- `Owner::all()`. -/
def OwnerController.all : Action (List (Nat × Owner)) := owners.whereGet fun _ _ => true

/-- `Restaurant::with('subscriptUser')->get()`. -/
def RestaurantController.getSubscriptUsers :
    Action (List ((Nat × Restaurant) × List (Nat × User))) := do
  let restaurants ← restaurants.whereGet fun _ _ => true
  let users ← (.select fun db => .ret (Restaurant.subscriptUser db) :
    Action (Nat → List (Nat × User)))
  return restaurants.map fun x => (x, users x.1)

/-- `Food::with('restaurant')->get()`. -/
def FoodController.index : Action (List ((Nat × Food) × Option (Nat × Restaurant))) := do
  let foods ← foods.whereGet fun _ _ => true
  let restaurant ← (.select fun db => .ret fun (id : Int) => (Value.int id).key?.bind fun i =>
    (db.restaurants.row i).map fun row => (i, row) : Action (Int → Option (Nat × Restaurant)))
  return foods.map fun x => (x, restaurant x.2.restaurantId)

/-- `Order::all()`. -/
def OrderController.index : Action (List (Nat × Order)) := orders.whereGet fun _ _ => true

/-- What the index pages show. -/
inductive Contents
  | users (rows : List (Nat × User))
  | subscriptions (rows : List ((Nat × User) × List (Nat × Restaurant)))
  | owners (rows : List (Nat × Owner))
  | subscribers (rows : List ((Nat × Restaurant) × List (Nat × User)))
  | foods (rows : List ((Nat × Food) × Option (Nat × Restaurant)))
  | orders (rows : List (Nat × Order))

def Contents.shown : Contents → Contents
  | users rows => users (rows.map fun x => (x.1, x.2.shown))
  | subscriptions rows => subscriptions (rows.map fun x => ((x.1.1, x.1.2.shown), x.2))
  | owners rows => owners (rows.map fun x => (x.1, x.2.shown))
  | subscribers rows => subscribers (rows.map fun x => (x.1, x.2.map fun y => (y.1, y.2.shown)))
  | foods rows => foods rows
  | orders rows => orders rows

inductive Index
  | users
  | subscriptions
  | owners
  | subscribers
  | foods
  | orders
  deriving DecidableEq, Repr

def Index.contents : Index → Action Contents
  | users => Contents.users <$> UserController.all
  | subscriptions => Contents.subscriptions <$> UserController.getSubscription
  | owners => Contents.owners <$> OwnerController.all
  | subscribers => Contents.subscribers <$> RestaurantController.getSubscriptUsers
  | foods => Contents.foods <$> FoodController.index
  | orders => Contents.orders <$> OrderController.index

/-- What an index page shows in a state. -/
def Index.shown (index : Index) (db : Database) : Except Exn Contents :=
  (index.contents.serve db).answer.map Contents.shown

/-! ### Pages that answer with a response -/

/-- A page that only reads. -/
inductive Reading
  | userLook (id : Value)
  | orderLook (id : Value)
  | restaurantLook (id : Value)
  | restaurantAll
  | restaurantFilter (metres : Value → Value → String → String → Nat)
      (query : RestaurantController.Query)
  | foodSearch (search : List UInt8)

namespace Reading

def handler : Reading → Handler
  | userLook id => UserController.look id
  | orderLook id => OrderController.look id
  | restaurantLook id => RestaurantController.look id
  | restaurantAll => RestaurantController.all
  | restaurantFilter metres query => RestaurantController.filter metres query
  | foodSearch search => FoodController.search search

/-- What the page answers in a state. -/
def body (reading : Reading) (db : Database) : Except Exn Response :=
  (reading.handler.serve db).answer

end Reading

end Spoiler
