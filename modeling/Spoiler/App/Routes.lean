/-
The routes of `routes/api.php`, and who a request acts for.

A route leads to a controller action, either openly or behind one of the two token
guards, which put the principal they find in front of the action's other arguments.
A guarded route without a principal ends in an `AuthenticationException`.

The routes that only read are one constructor: what such a page shows is a function of
the database, and nothing here depends on which one.  Five routes name methods their
controllers do not have.
-/
import Spoiler.App.Calls

namespace Spoiler

open Store Php

/-! ### Guards -/

/-- A token guard: the first row with the token.  An empty token, or `0`, which PHP
takes for empty, is nobody's. -/
def tokenGuard {ρ : Type} (t : Table ρ) (column : ρ → String) (token : String) : Option Nat :=
  if token = "" ∨ token = "0" then none else (t.first fun _ r => column r == token).map Prod.fst

/-- The guard `api`. -/
def guard (db : Database) (token : String) : Option Nat :=
  tokenGuard db.users User.apiToken token

/-- The guard `owner_api`. -/
def ownerGuard (db : Database) (token : String) : Option Nat :=
  tokenGuard db.owners Owner.apiToken token

/-- Whom a request can be authenticated as. -/
inductive Principal
  | user (id : Nat)
  | owner (id : Nat)
  deriving DecidableEq, Repr

/-! ### Routes -/

/-- What stands behind a route. -/
inductive Access
  | anyone (call : Call)
  | auth (call : Nat → Call)
  | ownerAuth (call : Nat → Call)
  | page (body : Database → Except Exn Response)
  | missing

inductive Route
  | userRegister (request : Request)
  | userLogin (request : Request)
  | userLogout (id : Value)
  | userUpdate (id : Value) (request : Request)
  | userFacebook (resource : FBController.GraphUser)
  | userReport
  | ownerRegister (request : Request)
  | ownerLogin (request : Request)
  | ownerLogout
  | ownerUpdate
  | restaurantStore (request : Request)
  | restaurantUpdate (id : Value) (request : Request)
  | restaurantScore (request : Request)
  | foodStore (request : Request)
  | foodUpdate (id : Value) (request : Request)
  | foodLook
  | orderStore (request : Request)
  | orderComplete (id : Value)
  | orderCancel (id : Value)
  | subscriptStore (request : Request)
  | subscriptNotice
  | subscriptCancel (id : Value)
  | report (request : Request)
  /-- Any of the routes that only read, and a Facebook login that Facebook refuses. -/
  | read (body : Database → Except Exn Response)

/-- The route table. -/
def Route.access : Route → Access
  | userRegister request => .anyone (.userStore request)
  | userLogin request => .anyone (.userLogin request)
  | userLogout id => .anyone (.userLogout id)
  | userUpdate id request => .anyone (.userUpdate id request)
  | userFacebook resource => .anyone (.fbLogin resource)
  | userReport => .missing
  | ownerRegister request => .anyone (.ownerStore request)
  | ownerLogin request => .anyone (.ownerLogin request)
  | ownerLogout => .missing
  | ownerUpdate => .missing
  | restaurantStore request => .ownerAuth fun owner => .restaurantStore owner request
  | restaurantUpdate id request => .ownerAuth fun _ => .restaurantUpdate id request
  | restaurantScore request => .auth fun user => .score user request
  | foodStore request => .ownerAuth fun _ => .foodStore request
  | foodUpdate id request => .ownerAuth fun _ => .foodUpdate id request
  | foodLook => .missing
  | orderStore request => .auth fun user => .orderStore user request
  | orderComplete id => .auth fun _ => .orderComplete id
  | orderCancel id => .auth fun _ => .orderCancel id
  | subscriptStore request => .anyone (.subscriptStore request)
  | subscriptNotice => .missing
  | subscriptCancel id => .anyone (.subscriptCancel id)
  | report request => .anyone (.report request)
  | read body => .page body

/-- A request as it arrives: with the token it carries, which may be empty. -/
structure Visit where
  env : Env
  token : String
  route : Route

namespace Visit

/-- The middleware `auth`, in front of an action that is told the principal. -/
def authenticate (found : Database → Option Nat) (action : Nat → Handler) : Handler :=
  .select fun db => match found db with
    | none => .raise .authentication
    | some id => action id

def handler (L : Laravel) (visit : Visit) : Handler :=
  match visit.route.access with
  | .anyone call => call.handler L visit.env
  | .auth call => authenticate (guard · visit.token) fun user => (call user).handler L visit.env
  | .ownerAuth call =>
      authenticate (ownerGuard · visit.token) fun owner => (call owner).handler L visit.env
  | .page body => .select fun db => match body db with
      | .ok response => .ret response
      | .error e => .raise e
  | .missing => .raise .badMethodCall

/-- Whom the guard of the route takes the request for. -/
def principal (db : Database) (visit : Visit) : Option Principal :=
  match visit.route.access with
  | .auth _ => (guard db visit.token).map .user
  | .ownerAuth _ => (ownerGuard db visit.token).map .owner
  | _ => none

/-- The action a request reaches. -/
def call? (db : Database) (visit : Visit) : Option Call :=
  match visit.route.access with
  | .anyone call => some call
  | .auth call => (guard db visit.token).map call
  | .ownerAuth call => (ownerGuard db visit.token).map call
  | _ => none

/-- The database after a request. -/
def serve (L : Laravel) (db : Database) (visit : Visit) : Database :=
  ((visit.handler L).serve db).state

/-- What a request is answered. -/
def answer (L : Laravel) (db : Database) (visit : Visit) : Except Exn Response :=
  ((visit.handler L).serve db).answer

/-- The events a request dispatches. -/
def events (L : Laravel) (db : Database) (visit : Visit) : List Event :=
  ((visit.handler L).serve db).events

/-- A request does what the action it reaches does. -/
theorem serve_of_call {L : Laravel} {db : Database} {visit : Visit} {call : Call}
    (h : visit.call? db = some call) :
    (visit.handler L).serve db = respond L db ⟨visit.env, call⟩ := by
  unfold call? at h
  unfold handler
  cases haccess : visit.route.access with
  | anyone c =>
      rw [haccess] at h
      cases h
      rfl
  | auth c =>
      rw [haccess] at h
      obtain ⟨u, hu, rfl⟩ := Option.map_eq_some_iff.mp h
      simp only [authenticate, Prog.serve, Prog.exec_select, Conn.view_idle, Conn.looked_idle, hu]
      rfl
  | ownerAuth c =>
      rw [haccess] at h
      obtain ⟨o, ho, rfl⟩ := Option.map_eq_some_iff.mp h
      simp only [authenticate, Prog.serve, Prog.exec_select, Conn.view_idle, Conn.looked_idle, ho]
      rfl
  | page body =>
      rw [haccess] at h
      cases h
  | missing =>
      rw [haccess] at h
      cases h

/-- A request that reaches no action does nothing. -/
theorem serve_of_none {L : Laravel} {db : Database} {visit : Visit}
    (h : visit.call? db = none) : visit.serve L db = db := by
  unfold call? at h
  unfold Visit.serve handler
  cases haccess : visit.route.access with
  | anyone c =>
      rw [haccess] at h
      cases h
  | auth c =>
      rw [haccess, Option.map_eq_none_iff] at h
      simp only [authenticate, Prog.serve, Prog.exec_select, Conn.view_idle, Conn.looked_idle, h]
      rfl
  | ownerAuth c =>
      rw [haccess, Option.map_eq_none_iff] at h
      simp only [authenticate, Prog.serve, Prog.exec_select, Conn.view_idle, Conn.looked_idle, h]
      rfl
  | page body =>
      simp only [Prog.serve, Prog.exec_select, Conn.view_idle, Conn.looked_idle]
      cases body db <;> rfl
  | missing => rfl

end Visit

end Spoiler
