/-
Serving controller calls one after another.

A `Call` is a controller action with the arguments the router passes it, after the
middleware has resolved who is asking.  `respond` runs it on a connection of its
own that closes when the request is over, and `serve` is the database that is
committed then.
-/
import Spoiler.App.Orders
import Spoiler.App.Accounts
import Spoiler.App.Restaurants

namespace Spoiler

open Store Php

/-- The actions that write. -/
inductive Call
  | orderStore (user : Nat) (request : Request)
  | orderComplete (id : Value)
  | orderCancel (id : Value)
  | foodStore (request : Request)
  | foodUpdate (id : Value) (request : Request)
  | userStore (request : Request)
  | userLogin (request : Request)
  | userUpdate (id : Value) (request : Request)
  | userLogout (id : Value)
  | fbLogin (resource : FBController.GraphUser)
  | ownerStore (request : Request)
  | ownerLogin (request : Request)
  | restaurantStore (owner : Nat) (request : Request)
  | restaurantUpdate (id : Value) (request : Request)
  | score (user : Nat) (request : Request)
  | subscriptStore (request : Request)
  | subscriptCancel (id : Value)
  | report (request : Request)

def Call.handler (L : Laravel) (env : Env) : Call → Handler
  | orderStore user request => OrderController.store env user request
  | orderComplete id => OrderController.complete id
  | orderCancel id => OrderController.cancel id
  | foodStore request => FoodController.store env request
  | foodUpdate id request => FoodController.update env id request
  | userStore request => UserController.store L env request
  | userLogin request => UserController.login L env request
  | userUpdate id request => UserController.update L id request
  | userLogout id => UserController.logout id
  | fbLogin resource => FBController.login env resource
  | ownerStore request => OwnerController.store L env request
  | ownerLogin request => OwnerController.login L env request
  | restaurantStore owner request => RestaurantController.store owner request
  | restaurantUpdate id request => RestaurantController.update id request
  | score user request => RestaurantController.score user request
  | subscriptStore request => SubscriptController.store request
  | subscriptCancel id => SubscriptController.cancel id
  | report request => ReportController.report request

/-- One request of a run. -/
structure Step where
  env : Env
  call : Call

/-- The whole outcome of a request. -/
def respond (L : Laravel) (db : Database) (step : Step) : Outcome Database Event Exn Response :=
  (step.call.handler L step.env).serve db

/-- The database after a request. -/
def serve (L : Laravel) (db : Database) (step : Step) : Database := (respond L db step).state

/-- What the client gets. -/
def answer (L : Laravel) (db : Database) (step : Step) : Except Exn Response :=
  (respond L db step).answer

end Spoiler
