/-
The addresses of the application: `routes/api.php` behind the prefix `api`, and then
`routes/web.php`, in the order in which the service providers register them.

`Endpoint` names what a route leads to, one constructor for a line of these files: a method
of a controller, which five of the lines name without the controller having it, or a view.
The guard in front of an action is in `Route.access`.
-/
import Spoiler.Php.Router

namespace Spoiler

open Php

/-- The verbs of a request. -/
inductive Method
  | get
  | head
  | post
  | put
  | patch
  | delete
  | options
  deriving DecidableEq, Repr

inductive Endpoint
  /-- The framework's own, from `Broadcast::routes()`. -/
  | broadcastingAuth
  | userStore
  | userLogin
  | userLogout
  | userUpdate
  | fbCallback
  | userLook
  | getSubscription
  | userAll
  | reportUser
  | ownerStore
  | ownerLogin
  | ownerLogout
  | ownerUpdate
  | ownerAll
  | restaurantStore
  | restaurantUpdate
  | restaurantAll
  | restaurantFilter
  | restaurantLook
  | restaurantScore
  | getSubscriptUsers
  | foodStore
  | foodUpdate
  | foodIndex
  | foodLook
  | orderStore
  | orderComplete
  | orderCancel
  | orderLook
  | orderIndex
  | subscriptStore
  | subscriptSearch
  | subscriptNotice
  | subscriptCancel
  | foodSearch
  | fbRedirect
  | report
  | welcome
  | fbLogin
  | orderInform
  | foodInform
  deriving DecidableEq, Repr

/-! ### The route files -/

namespace Endpoint

/-- A line of a route file. -/
abbrev Line := Entry Method Endpoint

/-- `Route::get`, which is for `HEAD` as well. -/
def get (uri : Pattern) (action : Endpoint) : Line := ⟨[.get, .head], uri, action⟩

def post (uri : Pattern) (action : Endpoint) : Line := ⟨[.post], uri, action⟩

def put (uri : Pattern) (action : Endpoint) : Line := ⟨[.put], uri, action⟩

def patch (uri : Pattern) (action : Endpoint) : Line := ⟨[.patch], uri, action⟩

def delete (uri : Pattern) (action : Endpoint) : Line := ⟨[.delete], uri, action⟩

/-- `Route::group` with a prefix of one segment. -/
def group (word : String) (lines : List Line) : List Line :=
  lines.map fun line => { line with pattern := .text word :: line.pattern }

/-- The segment `{id}`. -/
def id : Segment := .parameter

def api : List Line :=
  group "user" [
    post [.text "register"] userStore,
    post [.text "login"] userLogin,
    put [.text "logout", id] userLogout,
    put [.text "update", id] userUpdate,
    get [.text "facebook", .text "call-back"] fbCallback,
    get [.text "look", id] userLook,
    get [.text "subscript"] getSubscription,
    get [] userAll,
    post [.text "report"] reportUser] ++
  group "owner" [
    post [.text "register"] ownerStore,
    post [.text "login"] ownerLogin,
    post [.text "logout"] ownerLogout,
    put [.text "update", id] ownerUpdate,
    get [] ownerAll] ++
  group "restaurant" [
    post [] restaurantStore,
    patch [id] restaurantUpdate,
    get [] restaurantAll,
    post [.text "filter"] restaurantFilter,
    get [id] restaurantLook,
    post [.text "score"] restaurantScore,
    get [.text "subscript"] getSubscriptUsers] ++
  group "food" [
    post [] foodStore,
    patch [id] foodUpdate,
    get [] foodIndex,
    get [id] foodLook] ++
  group "order" [
    post [] orderStore,
    put [id] orderComplete,
    delete [id] orderCancel,
    get [.text "look", id] orderLook,
    get [] orderIndex] ++
  group "subscript" [
    post [] subscriptStore,
    post [.text "search"] subscriptSearch,
    get [.text "notice"] subscriptNotice,
    delete [id] subscriptCancel] ++
  [post [.text "search"] foodSearch,
    get [.text "redirect"] fbRedirect] ++
  group "report" [
    post [] report]

def web : List Line := [
  get [] welcome,
  get [.text "fb-login"] fbLogin,
  get [.text "order", .text "inform"] orderInform,
  get [.text "food", .text "inform"] foodInform]

/-- All routes, as `BroadcastServiceProvider` and `RouteServiceProvider` register them. -/
def routes : List Line :=
  ⟨[.get, .post, .head], [.text "broadcasting", .text "auth"], broadcastingAuth⟩ ::
    (group "api" api ++ web)

end Endpoint

end Spoiler
