/-
Concrete inputs.

A framework whose password hash is a tag in front of the password, an environment
and a restaurant, and requests written as lists of fields.  The runs that show a
condition to be met, or a law to be broken, are built from these.
-/
import Spoiler.App.Calls

namespace Spoiler.Sample

open Store Php

/-- What the sample hash puts in front of a password. -/
def tag : String := "$2y$10$sample:"

def laravel : Laravel where
  hashMake password _ := tag ++ password
  hashCheck password hash := hash == tag ++ password
  isEmail _ := true

/-- A token of twenty characters. -/
def token (c : Char) : String := String.ofList (List.replicate 20 c)

/-- The environment of a request that draws the token `token c`. -/
def draws (c : Char) : Env := ⟨token c, by simp [token], 1000000000000, "salt", true, .double⟩

def env : Env := draws 'a'

def restaurant (name : String) : Restaurant where
  name := name
  «class» := "bakery"
  image := none
  startTime := ⟨8, 0, 0, by decide⟩
  endTime := ⟨20, 0, 0, by decide⟩
  eastLongitude := "121.5"
  northLatitude := "25.0"
  address := name
  link := name
  phone := name
  ownerId := 1

/-- Two restaurants and nothing else. -/
def database : Database :=
  { Database.empty with
    restaurants := (Table.empty.insert (restaurant "north")).insert (restaurant "south") }

/-- A food of the first restaurant besides. -/
def shelf : Database :=
  { database with foods := Table.empty.insert ⟨"bread", 5, 100, 50, none, 1⟩ }

def user (account : String) (c : Char) : User where
  image := none
  name := account
  accessToken := none
  account := account
  email := none
  password := tag ++ "secret"
  point := 0
  badRecord := 0
  apiToken := token c

def owner (account : String) (c : Char) : Owner :=
  ⟨account, account, tag ++ "secret", token c, "0912345678"⟩

/-- The shelf with two users and two owners; the first user has an order and a
subscription, and the first owner has both restaurants. -/
def town : Database :=
  { shelf with
    users := (Table.empty.insert (user "ann" 'a')).insert (user "bob" 'b')
    owners := (Table.empty.insert (owner "cleo" 'c')).insert (owner "dan" 'd')
    orders := Table.empty.insert ⟨1, 1, "1000000000000", 1, "0912345678", false, true⟩
    subscriptions := Table.empty.insert ⟨1, 1⟩ }

def request (fields : List (Attr × Value)) : Request := .ofBody fun a => fields.lookup a

/-- A new food of a restaurant. -/
def newFood (name : String) (remaining restaurant : Int) : Step :=
  ⟨env, .foodStore (request [(.name, .str name), (.remaining, .int remaining),
    (.originalPrice, .int 100), (.discountedPrice, .int 50), (.restaurantId, .int restaurant)])⟩

/-- An order of a user. -/
def newOrder (user : Nat) (food number : Int) : Step :=
  ⟨env, .orderStore user (request [(.foodId, .int food), (.foodNumber, .int number),
    (.phone, .str "0912345678")])⟩

def complete (id : Int) : Step := ⟨env, .orderComplete (.int id)⟩

def cancel (id : Int) : Step := ⟨env, .orderCancel (.int id)⟩

/-- An owner's update of a food. -/
def editFood (id : Int) (fields : List (Attr × Value)) : Step :=
  ⟨env, .foodUpdate (.int id) (request fields)⟩

/-- A restaurant of the first owner, under one name in every column that takes a name. -/
def newRestaurant (name phone start stop : String) : Step :=
  ⟨env, .restaurantStore 1 (request [(.name, .str name), (.«class», .str "bakery"),
    (.eastLongitude, .str "121.5"), (.northLatitude, .str "25.0"), (.startTime, .str start),
    (.endTime, .str stop), (.link, .str name), (.address, .str name), (.phone, .str phone)])⟩

/-- An owner's update of a restaurant. -/
def editRestaurant (id : Int) (fields : List (Attr × Value)) : Step :=
  ⟨env, .restaurantUpdate (.int id) (request fields)⟩

/-- A user's score of a restaurant. -/
def score (user : Nat) (restaurant : Int) (send : Bool) : Step :=
  ⟨env, .score user (request [(.restaurantId, .int restaurant), (.send, .bool send)])⟩

/-- A user's subscription to a restaurant. -/
def subscribe (user restaurant : Int) : Step :=
  ⟨env, .subscriptStore (request [(.userId, .int user), (.restaurantId, .int restaurant)])⟩

def unsubscribe (id : Int) : Step := ⟨env, .subscriptCancel (.int id)⟩

/-- A registration. -/
def register (c : Char) (account password : String) : Step :=
  ⟨draws c, .userStore (request [(.name, .str account), (.account, .str account),
    (.password, .str password)])⟩

def login (c : Char) (account password : String) : Step :=
  ⟨draws c, .userLogin (request [(.account, .str account), (.password, .str password)])⟩

/-- A user who comes from Facebook. -/
def facebook (c : Char) (id : String) : Step :=
  ⟨draws c, .fbLogin ⟨id, "finn", "picture", "access"⟩⟩

def logout (id : Int) : Step := ⟨env, .userLogout (.int id)⟩

/-- A user's update of the profile. -/
def editUser (id : Int) (fields : List (Attr × Value)) : Step :=
  ⟨env, .userUpdate (.int id) (request fields)⟩

/-- Two requests that arrive together. -/
def pair (r q : Step) : Bool → Step
  | true => r
  | false => q

/-- Both issue their first statements before either goes on. -/
def overlapped (early late : Nat) : List Bool :=
  List.replicate early true ++ List.replicate early false ++ List.replicate late true ++
    List.replicate late false

end Spoiler.Sample
