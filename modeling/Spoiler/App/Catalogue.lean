/-
The pages of `RestaurantController` that list restaurants, and the relations they and
the subscription pages read.

`all` shows every restaurant.  `filter` fills the conditions the request leaves out with
defaults, asks the database for the classes and for foods in stock, and keeps of the
answer what is near enough and open at the right time.  How far two points are apart is
floating-point trigonometry and a parameter here; everything else is as in the source.
-/
import Spoiler.App.Restaurants
import Spoiler.Php.Compare

namespace Spoiler

open Store Php

/-! ### Relations -/

namespace Restaurant

/-- `Restaurant::foods`. -/
def foods (db : Database) (i : Nat) : List (Nat × Food) :=
  db.foods.filter fun _ food => food.restaurantId == (i : Int)

/-- `Restaurant::likes`. -/
def likes (db : Database) (i : Nat) : List (Nat × Like) :=
  db.likes.filter fun _ like => like.restaurantId == (i : Int)

/-- `Restaurant::subscriptUser`: the users joined through the subscriptions. -/
def subscriptUser (db : Database) (i : Nat) : List (Nat × User) :=
  (db.subscriptions.filter fun _ s => s.restaurantId == (i : Int)).filterMap fun x =>
    (Value.int x.2.userId).key?.bind fun u => (db.users.row u).map fun user => (u, user)

end Restaurant

/-- `User::subscriptRestaurant`: the restaurants joined through the subscriptions. -/
def User.subscriptRestaurant (db : Database) (u : Nat) : List (Nat × Restaurant) :=
  (db.subscriptions.filter fun _ s => s.userId == (u : Int)).filterMap fun x =>
    (Value.int x.2.restaurantId).key?.bind fun i =>
      (db.restaurants.row i).map fun restaurant => (i, restaurant)

/-! ### Times as text -/

/-- A number below a hundred as two digits. -/
def twoDigits (n : Nat) : List Char := [Nat.digitChar (n / 10), Nat.digitChar (n % 10)]

/-- A `TIME` column as it is read back: `HH:MM:SS`. -/
def Time.text (t : Time) : String :=
  String.ofList (twoDigits t.hour ++ ':' :: (twoDigits t.minute ++ ':' :: twoDigits t.second))

namespace RestaurantController

/-! ### All restaurants -/

/-- The restaurants a clause keeps, each with the number of its foods and of its likes
(`withCount`), and then the foods of all of them (`with`). -/
def listings (p : Database → Nat → Restaurant → Bool) (foodsCount : Bool) :
    Action (List Listing) := do
  let result ← (.select fun db => .ret ((db.restaurants.filter (p db)).map fun x =>
    (x, (Restaurant.foods db x.1).length, (Restaurant.likes db x.1).length)) :
      Action (List ((Nat × Restaurant) × Nat × Nat)))
  let foods ← (.select fun db => .ret (Restaurant.foods db) : Action (Nat → List (Nat × Food)))
  return result.map fun x =>
    ⟨x.1.1, x.1.2, foods x.1.1, if foodsCount then some x.2.1 else none, x.2.2, none⟩

def all : Handler := do
  let restaurants ← listings (fun _ _ _ => true) true
  return json (.listings restaurants) 200

/-! ### Filtered restaurants -/

/-- A request to `filter`: its scalar fields, and the array `class` if it has one. -/
structure Query where
  request : Request
  classes : Option (List Value)
  array : classes ≠ none → request.input .«class» = none

/-- `isset($request->{$key})`, with the value. -/
def isset (request : Request) (a : Attr) : Option Value := (request.input a).filter (· != .null)

/-- `$validator->sometimes('end_time', ...)` of `filter`. -/
def sometimesIsset (request : Request) : List Rule :=
  if (isset request .startTime).isSome then [.digits 6, .gt (request.get .startTime)] else []

def filterRules (request : Request) : List (Attr × List Rule) :=
  [(.startTime, [.digits 6]),
   (.endTime, [.digits 6] ++ sometimesIsset request),
   (.onlyRemaining, [.boolean]),
   (.userNorthLatitude, [.numeric, .requiredWith (request.get .searchRange)]),
   (.userEastLongitude, [.numeric, .requiredWith (request.get .searchRange)]),
   (.searchRange, [.numeric]),
   (.«class», [.array])]

/-- `class.*` is `required_with:class`: no element may be blank. -/
def blankClasses (classes : List Value) : List (Attr × RuleName) :=
  (classes.zipIdx.filter fun x => !x.1.filled).map fun x =>
    (.other ("class." ++ toString x.2), .requiredWith)

def validateQuery (query : Query) : Action Unit :=
  .select fun db =>
    match failed db query.request.input (filterRules query.request) ++
      blankClasses (query.classes.getD []) with
    | [] => .ret ()
    | errors => .raise (.validation errors)

/-- What `filter` looks for. -/
structure Conditions where
  startTime : Value := .int 0
  endTime : Value := .int 2400
  onlyRemaining : Value := .bool false
  userNorthLatitude : Value := .int 23
  userEastLongitude : Value := .int 120
  searchRange : Value := .int 100000
  classes : List Value := []

/-- The conditions of a request over the defaults.  An element that is loosely equal to
null empties the whole array. -/
def conditions (query : Query) : Conditions :=
  let default : Conditions := {}
  let get (a : Attr) (value : Value) : Value := (isset query.request a).getD value
  let classes := query.classes.getD default.classes
  { startTime := get .startTime default.startTime
    endTime := get .endTime default.endTime
    onlyRemaining := get .onlyRemaining default.onlyRemaining
    userNorthLatitude := get .userNorthLatitude default.userNorthLatitude
    userEastLongitude := get .userEastLongitude default.userEastLongitude
    searchRange := get .searchRange default.searchRange
    classes := if classes.any fun v => v.cmp .null == .eq then [] else classes }

/-- `whereIn('class', $classes)`, when there are classes to look for. -/
def inClass (c : Conditions) (r : Restaurant) : Bool :=
  c.classes.isEmpty || c.classes.any fun v => v.equalsText r.«class»

/-- `whereHas('foods', ...)` with at least `minimal` left of one of them. -/
def hasFoods (db : Database) (minimal : Int) (i : Nat) : Bool :=
  (Restaurant.foods db i).any fun x => decide (minimal ≤ x.2.remaining)

/-- `calculateDistance::getDistance`: whole metres, in kilometres. -/
def getDistance (metres : Value → Value → String → String → Nat) (lat1 lng1 : Value)
    (lat2 lng2 : String) : Php.Num :=
  ⟨metres lat1 lng1 lat2 lng2, 3⟩

/-- The distance from where the user is. -/
def distance (metres : Value → Value → String → String → Nat) (c : Conditions)
    (r : Restaurant) : Php.Num :=
  getDistance metres c.userNorthLatitude c.userEastLongitude r.northLatitude r.eastLongitude

/-- The last predicate of `filter`, on the opening hours. -/
def openDuring (c : Conditions) (r : Restaurant) : Bool :=
  if c.startTime.less (.str r.startTime.text) then (Value.str r.startTime.text).less c.endTime
  else c.startTime.less (.str r.endTime.text)

def filter (metres : Value → Value → String → String → Nat) (query : Query) : Handler := do
  validateQuery query
  let c := conditions query
  let result ←
    if c.onlyRemaining.truthy then
      listings (fun db i r => hasFoods db (if c.onlyRemaining.truthy then 1 else 0) i &&
        inClass c r) false
    else listings (fun _ _ r => inClass c r) false
  let resultWithDistance := result.map fun x => { x with distance := some (distance metres c x.row) }
  let filted := resultWithDistance.filter fun x =>
    (Value.dec (distance metres c x.row)).lessEq c.searchRange
  let filted := filted.filter fun x => openDuring c x.row
  if !filted.isEmpty then return json (.listings filted) 200
  else return sendError "no restaurant found within the specified conditions" 400

end RestaurantController

end Spoiler
