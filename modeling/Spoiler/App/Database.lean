/-
The tables of the application and how Eloquent writes them.

Columns and their types follow the migrations under `database/migrations`; the
timestamps every table has are left out, and so are the tables no controller
touches.  Each model lists its `$fillable` attributes and says what assigning one
of them does to a row.  An attribute that is fillable but has no column (`phone`
of a user) makes the `UPDATE` fail, like a value its column does not take.
-/
import Spoiler.Store.Query
import Spoiler.Php.Value

namespace Spoiler

open Store Php

/-- The names of request fields and columns.  Any other key of a body is `other`. -/
inductive Attr
  | id | name | account | email | password | point | apiToken | phone | image | badRecord
  | accessToken | userId | foodId | orderNumber | foodNumber | complete | send | remaining
  | originalPrice | discountedPrice | restaurantId | «class» | eastLongitude | northLatitude
  | address | link | ownerId | startTime | endTime | content | objectId | reporterIsUser
  | reporterId | onlyRemaining | userNorthLatitude | userEastLongitude | searchRange
  | other (key : String)
  deriving DecidableEq, Repr

/-- The attributes an Eloquent call is given, by name. -/
abbrev Attributes := Attr → Option Value

/-- One attribute. -/
def Attributes.only (a : Attr) (v : Value) : Attributes := fun b => if b = a then some v else none

/-! ### Rows -/

/-- A `TIME` value as `HHMMSS` input can make it. -/
structure Time where
  hour : Nat
  minute : Nat
  second : Nat
  valid : hour < 100 ∧ minute < 60 ∧ second < 60
  deriving DecidableEq

namespace Time

/-- Seconds since midnight. -/
def seconds (t : Time) : Nat := 3600 * t.hour + 60 * t.minute + t.second

instance : LT Time := ⟨fun s t => s.seconds < t.seconds⟩

instance (s t : Time) : Decidable (s < t) := inferInstanceAs (Decidable (s.seconds < t.seconds))

end Time

structure User where
  image : Option String
  name : String
  accessToken : Option String
  account : String
  email : Option String
  password : String
  point : Int
  badRecord : Int
  apiToken : String
  deriving DecidableEq, Repr

structure Owner where
  name : String
  account : String
  password : String
  apiToken : String
  phone : String
  deriving DecidableEq, Repr

structure Restaurant where
  name : String
  «class» : String
  image : Option String
  startTime : Time
  endTime : Time
  eastLongitude : String
  northLatitude : String
  address : String
  link : String
  phone : String
  ownerId : Int
  deriving DecidableEq

structure Food where
  name : String
  remaining : Int
  originalPrice : Int
  discountedPrice : Int
  image : Option String
  restaurantId : Int
  deriving DecidableEq, Repr

structure Order where
  userId : Int
  foodId : Int
  orderNumber : String
  foodNumber : Int
  phone : String
  complete : Bool
  send : Bool
  deriving DecidableEq, Repr

structure DeprivateList where
  userId : Int
  isFree : Int
  deriving DecidableEq, Repr

structure Like where
  userId : Int
  send : Int
  restaurantId : Int
  deriving DecidableEq, Repr

structure Subscription where
  userId : Int
  restaurantId : Int
  deriving DecidableEq, Repr

structure Report where
  content : String
  objectId : Int
  reporterIsUser : Bool
  reporterId : Int
  deriving DecidableEq, Repr

structure Database where
  users : Table User
  owners : Table Owner
  restaurants : Table Restaurant
  foods : Table Food
  orders : Table Order
  deprivateLists : Table DeprivateList
  likes : Table Like
  subscriptions : Table Subscription
  reports : Table Report

/-- The database right after the migrations. -/
def Database.empty : Database where
  users := .empty
  owners := .empty
  restaurants := .empty
  foods := .empty
  orders := .empty
  deprivateLists := .empty
  likes := .empty
  subscriptions := .empty
  reports := .empty

/-! ### Columns -/

/-- A `TIME NOT NULL` column given six digits. -/
def timeColumn (v : Value) : Option Time :=
  v.text.bind fun s =>
    let cs := s.toList
    let h := natOf (cs.take 2)
    let m := natOf ((cs.drop 2).take 2)
    let sec := natOf (cs.drop 4)
    if valid : cs.length = 6 ∧ cs.all Char.isDigit ∧ h < 100 ∧ m < 60 ∧ sec < 60 then
      some ⟨h, m, sec, valid.2.2⟩
    else none

/-- A `TINYINT(1) NOT NULL` column, read back as a truth value. -/
def boolColumn (v : Value) : Option Bool := v.intColumn.map (· != 0)

/-! ### Models -/

/-- An Eloquent model: its table, what mass assignment may touch, what assigning an
attribute does to a row (`none` when the database rejects the value), the row a
`create` inserts, and the column with a unique index. -/
structure Model (ρ : Type) where
  table : TableOf Database ρ
  fillable : List Attr
  assign : Attr → Value → Option (ρ → ρ)
  make : (Attr → Value) → Option ρ
  unique : Option (ρ → String)

def User.assign : Attr → Value → Option (User → User)
  | .name, v => v.textColumn.map fun s r => { r with name := s }
  | .account, v => v.textColumn.map fun s r => { r with account := s }
  | .email, v => v.nullableText.map fun s r => { r with email := s }
  | .password, v => v.textColumn.map fun s r => { r with password := s }
  | .point, v => v.intColumn.map fun n r => { r with point := n }
  | .apiToken, v => v.textColumn.map fun s r => { r with apiToken := s }
  | .image, v => v.nullableText.map fun s r => { r with image := s }
  | .badRecord, v => v.intColumn.map fun n r => { r with badRecord := n }
  | .accessToken, v => v.nullableText.map fun s r => { r with accessToken := s }
  | _, _ => none

def User.make (a : Attr → Value) : Option User := do
  some {
    image := ← (a .image).nullableText
    name := ← (a .name).textColumn
    accessToken := ← (a .accessToken).nullableText
    account := ← (a .account).textColumn
    email := ← (a .email).nullableText
    password := ← (a .password).textColumn
    point := ← (a .point).intColumn
    badRecord := ← (a .badRecord).intColumn
    apiToken := ← (a .apiToken).textColumn }

def users : Model User where
  table := { get := Database.users, set := fun db t => { db with users := t } }
  fillable := [.name, .account, .email, .password, .point, .apiToken, .phone, .image,
    .badRecord, .accessToken]
  assign := User.assign
  make := User.make
  unique := some User.account

def Owner.assign : Attr → Value → Option (Owner → Owner)
  | .name, v => v.textColumn.map fun s r => { r with name := s }
  | .account, v => v.textColumn.map fun s r => { r with account := s }
  | .password, v => v.textColumn.map fun s r => { r with password := s }
  | .apiToken, v => v.textColumn.map fun s r => { r with apiToken := s }
  | .phone, v => v.textColumn.map fun s r => { r with phone := s }
  | _, _ => none

def Owner.make (a : Attr → Value) : Option Owner := do
  some {
    name := ← (a .name).textColumn
    account := ← (a .account).textColumn
    password := ← (a .password).textColumn
    apiToken := ← (a .apiToken).textColumn
    phone := ← (a .phone).textColumn }

def owners : Model Owner where
  table := { get := Database.owners, set := fun db t => { db with owners := t } }
  fillable := [.name, .account, .password, .apiToken, .phone]
  assign := Owner.assign
  make := Owner.make
  unique := some Owner.account

def Restaurant.assign : Attr → Value → Option (Restaurant → Restaurant)
  | .name, v => v.textColumn.map fun s r => { r with name := s }
  | .«class», v => v.textColumn.map fun s r => { r with «class» := s }
  | .image, v => v.nullableText.map fun s r => { r with image := s }
  | .eastLongitude, v => v.textColumn.map fun s r => { r with eastLongitude := s }
  | .northLatitude, v => v.textColumn.map fun s r => { r with northLatitude := s }
  | .address, v => v.textColumn.map fun s r => { r with address := s }
  | .link, v => v.textColumn.map fun s r => { r with link := s }
  | .phone, v => v.textColumn.map fun s r => { r with phone := s }
  | .ownerId, v => v.intColumn.map fun n r => { r with ownerId := n }
  | .startTime, v => (timeColumn v).map fun t r => { r with startTime := t }
  | .endTime, v => (timeColumn v).map fun t r => { r with endTime := t }
  | _, _ => none

def Restaurant.make (a : Attr → Value) : Option Restaurant := do
  some {
    name := ← (a .name).textColumn
    «class» := ← (a .«class»).textColumn
    image := ← (a .image).nullableText
    startTime := ← timeColumn (a .startTime)
    endTime := ← timeColumn (a .endTime)
    eastLongitude := ← (a .eastLongitude).textColumn
    northLatitude := ← (a .northLatitude).textColumn
    address := ← (a .address).textColumn
    link := ← (a .link).textColumn
    phone := ← (a .phone).textColumn
    ownerId := ← (a .ownerId).intColumn }

def restaurants : Model Restaurant where
  table := { get := Database.restaurants, set := fun db t => { db with restaurants := t } }
  fillable := [.name, .«class», .image, .eastLongitude, .northLatitude, .address, .link, .phone,
    .ownerId, .startTime, .endTime]
  assign := Restaurant.assign
  make := Restaurant.make
  unique := none

def Food.assign : Attr → Value → Option (Food → Food)
  | .name, v => v.textColumn.map fun s r => { r with name := s }
  | .remaining, v => v.intColumn.map fun n r => { r with remaining := n }
  | .originalPrice, v => v.intColumn.map fun n r => { r with originalPrice := n }
  | .discountedPrice, v => v.intColumn.map fun n r => { r with discountedPrice := n }
  | .image, v => v.nullableText.map fun s r => { r with image := s }
  | .restaurantId, v => v.intColumn.map fun n r => { r with restaurantId := n }
  | _, _ => none

def Food.make (a : Attr → Value) : Option Food := do
  some {
    name := ← (a .name).textColumn
    remaining := ← (a .remaining).intColumn
    originalPrice := ← (a .originalPrice).intColumn
    discountedPrice := ← (a .discountedPrice).intColumn
    image := ← (a .image).nullableText
    restaurantId := ← (a .restaurantId).intColumn }

def foods : Model Food where
  table := { get := Database.foods, set := fun db t => { db with foods := t } }
  fillable := [.name, .remaining, .originalPrice, .discountedPrice, .image, .restaurantId]
  assign := Food.assign
  make := Food.make
  unique := none

def Order.assign : Attr → Value → Option (Order → Order)
  | .userId, v => v.intColumn.map fun n r => { r with userId := n }
  | .foodId, v => v.intColumn.map fun n r => { r with foodId := n }
  | .orderNumber, v => v.textColumn.map fun s r => { r with orderNumber := s }
  | .foodNumber, v => v.intColumn.map fun n r => { r with foodNumber := n }
  | .phone, v => v.textColumn.map fun s r => { r with phone := s }
  | .complete, v => (boolColumn v).map fun b r => { r with complete := b }
  | .send, v => (boolColumn v).map fun b r => { r with send := b }
  | _, _ => none

def Order.make (a : Attr → Value) : Option Order := do
  some {
    userId := ← (a .userId).intColumn
    foodId := ← (a .foodId).intColumn
    orderNumber := ← (a .orderNumber).textColumn
    foodNumber := ← (a .foodNumber).intColumn
    phone := ← (a .phone).textColumn
    complete := ← boolColumn (a .complete)
    send := ← boolColumn (a .send) }

def orders : Model Order where
  table := { get := Database.orders, set := fun db t => { db with orders := t } }
  fillable := [.userId, .foodId, .orderNumber, .foodNumber, .phone, .complete, .send]
  assign := Order.assign
  make := Order.make
  unique := none

/-- No handler writes the list of banned users; it is only read. -/
def deprivateLists : TableOf Database DeprivateList :=
  { get := Database.deprivateLists, set := fun db t => { db with deprivateLists := t } }

def Like.assign : Attr → Value → Option (Like → Like)
  | .userId, v => v.intColumn.map fun n r => { r with userId := n }
  | .restaurantId, v => v.intColumn.map fun n r => { r with restaurantId := n }
  | .send, v => v.intColumn.map fun n r => { r with send := n }
  | _, _ => none

def Like.make (a : Attr → Value) : Option Like := do
  some {
    userId := ← (a .userId).intColumn
    send := ← (a .send).intColumn
    restaurantId := ← (a .restaurantId).intColumn }

def likes : Model Like where
  table := { get := Database.likes, set := fun db t => { db with likes := t } }
  fillable := [.userId, .restaurantId, .send]
  assign := Like.assign
  make := Like.make
  unique := none

def Subscription.assign : Attr → Value → Option (Subscription → Subscription)
  | .userId, v => v.intColumn.map fun n r => { r with userId := n }
  | .restaurantId, v => v.intColumn.map fun n r => { r with restaurantId := n }
  | _, _ => none

def Subscription.make (a : Attr → Value) : Option Subscription := do
  some {
    userId := ← (a .userId).intColumn
    restaurantId := ← (a .restaurantId).intColumn }

def subscriptions : Model Subscription where
  table := { get := Database.subscriptions, set := fun db t => { db with subscriptions := t } }
  fillable := [.restaurantId, .userId]
  assign := Subscription.assign
  make := Subscription.make
  unique := none

def Report.assign : Attr → Value → Option (Report → Report)
  | .content, v => v.longText.map fun s r => { r with content := s }
  | .objectId, v => v.intColumn.map fun n r => { r with objectId := n }
  | .reporterIsUser, v => (boolColumn v).map fun b r => { r with reporterIsUser := b }
  | .reporterId, v => v.intColumn.map fun n r => { r with reporterId := n }
  | _, _ => none

def Report.make (a : Attr → Value) : Option Report := do
  some {
    content := ← (a .content).longText
    objectId := ← (a .objectId).intColumn
    reporterIsUser := ← boolColumn (a .reporterIsUser)
    reporterId := ← (a .reporterId).intColumn }

def reports : Model Report where
  table := { get := Database.reports, set := fun db t => { db with reports := t } }
  fillable := [.content, .objectId, .reporterIsUser, .reporterId]
  assign := Report.assign
  make := Report.make
  unique := none

end Spoiler
