/-
`RestaurantController`, `SubscriptController` and `ReportController`.

Only the actions that write are here.  Creating and updating a restaurant run in a
transaction; liking, subscribing and reporting do not.
-/
import Spoiler.App.Eloquent

namespace Spoiler

open Store Php

/-! ### RestaurantController -/

namespace RestaurantController

/-- The names `RestaurantController.php` imports. -/
def uses : List String :=
  ["Food", "Like", "Restaurant", "Response", "Request", "Auth", "DB", "Log", "Validator", "Rule",
   "Fluent"]

/-- `unique:restaurants` on one column. -/
def unique (column : Restaurant → String) : Rule :=
  .unique restaurants.table column fun _ _ => true

def storeRules (request : Request) : List (Attr × List Rule) :=
  [(.name, [.required, .string, unique Restaurant.name]),
   (.«class», [.required, .string]),
   (.eastLongitude, [.required, .numeric]),
   (.northLatitude, [.required, .numeric]),
   (.startTime, [.required, .digits 6]),
   (.endTime, [.required, .digits 6, .gt (request.get .startTime)]),
   (.link, [.required, unique Restaurant.link]),
   (.address, [.required, unique Restaurant.address]),
   (.image, [.sometimes, .mimes ["png", "jpg", "jpeg", "bmp"]]),
   (.phone, [.required, .digits 9, unique Restaurant.phone])]

/-- The attributes of the restaurant an owner creates. -/
def attributes (owner : Nat) (request : Request) : Attr → Value
  | .name => request.get .name
  | .«class» => request.get .«class»
  | .eastLongitude => request.get .eastLongitude
  | .northLatitude => request.get .northLatitude
  | .link => request.get .link
  | .address => request.get .address
  | .image => ((request.fileUrl .image).map Value.str).getD .null
  | .startTime => request.get .startTime
  | .endTime => request.get .endTime
  | .phone => request.get .phone
  | .ownerId => .int owner
  | _ => .null

def storeBody (owner : Nat) (request : Request) : Handler := do
  beginTransaction
  request.validate (storeRules request)
  let (id, create) ← restaurants.create (attributes owner request)
  commit
  return json (.restaurant id create) 200

def store (owner : Nat) (request : Request) : Handler :=
  tryCatchException uses (storeBody owner request) do
    rollBack
    return sendError "create restaurant failed" 400

/-- `Rule::unique('restaurants')->ignore($restaurant->id)` on one column. -/
def uniqueBut (i : Nat) (column : Restaurant → String) : Rule :=
  .unique restaurants.table column fun j _ => j != i

/-- `$validator->sometimes('end_time', ...)`: the rules `end_time` gets when the
request carries a `start_time`. -/
def sometimesEnd (request : Request) : List Rule :=
  if (request.get .startTime).truthy then [.digits 6, .gt (request.get .startTime)] else []

def updateRules (request : Request) (i : Nat) : List (Attr × List Rule) :=
  [(.name, [.string, uniqueBut i Restaurant.name]),
   (.«class», [.string]),
   (.eastLongitude, [.numeric]),
   (.northLatitude, [.numeric]),
   (.startTime, [.digits 6]),
   (.endTime, [.digits 6] ++ sometimesEnd request),
   (.link, [uniqueBut i Restaurant.link]),
   (.address, [.string, uniqueBut i Restaurant.address]),
   (.image, [.sometimes, .mimes ["png", "jpg", "jpeg", "bmp"]]),
   (.phone, [.digits 9, uniqueBut i Restaurant.phone])]

/-- The image of a request that carries a file is stored before anything else. -/
def updateImage (request : Request) (i : Nat) (restaurant : Restaurant) : Action Restaurant :=
  restaurants.updateImage request i restaurant

def updateBody (request : Request) (i : Nat) (restaurant : Restaurant) : Handler := do
  beginTransaction
  request.validate (updateRules request i)
  let restaurant ← updateImage request i restaurant
  let restaurant ← restaurants.update i restaurant (request.except .image)
  commit
  return json (.restaurant i restaurant) 200

def update (id : Value) (request : Request) : Handler := do
  match ← restaurants.find id with
  | none => raise .modelNotFound
  | some (i, restaurant) =>
      tryCatchException uses (updateBody request i restaurant) do
        rollBack
        return json .empty 200

def scoreRules : List (Attr × List Rule) :=
  [(.restaurantId, [.required, .exists_ restaurants.table]),
   (.send, [.required, .boolean])]

/-- The attributes of a first like. -/
def likeAttributes (user : Nat) (request : Request) : Attr → Value
  | .userId => .int user
  | .restaurantId => request.get .restaurantId
  | .send => request.get .send
  | _ => .null

/-- The likes of this user for the restaurant the request names. -/
def ownLike (user : Nat) (request : Request) (_ : Nat) (r : Like) : Bool :=
  r.userId == (user : Int) && (request.get .restaurantId).equalsInt r.restaurantId

def score (user : Nat) (request : Request) : Handler := do
  request.validate scoreRules
  if (← likes.whereGet (ownLike user request)).length ≠ 0 then
    match ← likes.whereFirst (ownLike user request) with
    | none => raise .nullCall
    | some (i, like) =>
        let like ← likes.update i like (.only .send (request.get .send))
        return json (.like i like) 200
  else
    let (id, create) ← likes.create (likeAttributes user request)
    return json (.like id create) 200

end RestaurantController

/-! ### SubscriptController -/

namespace SubscriptController

def rules : List (Attr × List Rule) :=
  [(.userId, [.required, .exists_ users.table]),
   (.restaurantId, [.required, .exists_ restaurants.table])]

/-- The attributes of a subscription. -/
def attributes (request : Request) : Attr → Value
  | .userId => request.get .userId
  | .restaurantId => request.get .restaurantId
  | _ => .null

def store (request : Request) : Handler := do
  request.validate rules
  let (id, create) ← subscriptions.create (attributes request)
  return json (.subscription id create) 200

def cancel (id : Value) : Handler := do
  match ← subscriptions.find id with
  | none => raise .nullCall
  | some (i, subscription) =>
      subscriptions.table.delete i
      return json (.subscription i subscription) 200

end SubscriptController

/-! ### ReportController -/

namespace ReportController

def rules : List (Attr × List Rule) :=
  [(.content, [.required, .min 2]),
   (.reporterIsUser, [.required, .boolean])]

/-- The rules for the two ids, which name a user and an owner or the reverse. -/
def partyRules (reporterIsUser : Bool) : List (Attr × List Rule) :=
  if reporterIsUser then
    [(.objectId, [.required, .exists_ owners.table]), (.reporterId, [.required, .exists_ users.table])]
  else
    [(.objectId, [.required, .exists_ users.table]), (.reporterId, [.required, .exists_ owners.table])]

/-- `intval($v)` is not zero, for the values the `boolean` rule admits. -/
def intval (v : Value) : Bool := (boolColumn v).getD false

/-- The attributes of a report. -/
def attributes (request : Request) : Attr → Value
  | .content => request.get .content
  | .objectId => request.get .objectId
  | .reporterIsUser => request.get .reporterIsUser
  | .reporterId => request.get .reporterId
  | _ => .null

def report (request : Request) : Handler := do
  request.validate rules
  request.validate (partyRules (intval (request.get .reporterIsUser)))
  let (id, create) ← reports.create (attributes request)
  return json (.report id create) 200

end ReportController

end Spoiler
