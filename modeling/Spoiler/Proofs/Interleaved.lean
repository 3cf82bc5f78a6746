/-
Requests in flight together.

Whatever requests arrive, and however their statements interleave, every reference names a
row, nothing that lasts is lost, and what a request has answered stands.  An order is
announced when everybody can see it.  A new food is announced before anybody can: the event
is dispatched inside the transaction that inserts the row.

Nobody is ever put on the list of banned users, so from empty tables nobody is ever refused
as banned.
-/
import Spoiler.Proofs.Together

namespace Spoiler

open Store Php

/-- What is to last of the foods is nothing the route writes. -/
def Route.Allows (H : Holds) : Route → Prop
  | orderStore request => ∀ i value, (request.get .foodId).key? = some i →
      H.Allows i (.only .remaining value)
  | orderCancel _ => ∀ i value, H.Allows i (.only .remaining value)
  | foodUpdate id request => ∀ i, id.key? = some i → H.Allows i (request.except .image) ∧
      ∀ value, H.Allows i (.only .image value)
  | _ => True

theorem Route.allows_nothing (route : Route) : route.Allows .nothing := by
  have hall : ∀ i attributes, Holds.nothing.Allows i attributes :=
    fun _ _ _ _ _ => ⟨fun _ => trivial, fun _ _ _ => trivial⟩
  cases route with
  | orderStore request => exact fun i value _ => hall i _
  | orderCancel id => exact fun i value => hall i _
  | foodUpdate id request => exact fun i _ => ⟨hall i _, fun value => hall i _⟩
  | _ => trivial

namespace Visit

/-- What is known where a request dispatches an event. -/
def tells (visit : Visit) (g : Knows) : Event → Prop
  | .newOrder id r =>
      (g.shared.orders.row id).isSome = true ∧ (g.shared.restaurants.row r).isSome = true
  | .foodAdded id _ => match visit.route with
      | .foodStore _ => (Kind.foods, id) ∈ g.keys
      | _ => (g.shared.foods.row id).isSome = true

/-- What is known where a request answers; a page may show anything. -/
def answers (H : Holds) (v : Database) (visit : Visit) (g : Knows) (response : Response) : Prop :=
  match visit.route with
  | .read _ => True
  | .orderStore _ => acknowledges H g response ∧
      ((∀ user, OrderController.records v user < 3) →
        response.body ≠ .message OrderController.banned)
  | .foodUpdate id request => FoodController.answersUpdate H id request g response
  | _ => acknowledges H g response

/-- A guarded action knows what the guard has found. -/
theorem authenticate_wp {H : Holds} {tells : Knows → Event → Prop} {nulls : Prop} {v : Database}
    {found : Database → Option Nat} {action : Nat → Handler} {post : Knows → Response → Prop}
    (h : ∀ u id, v.Lasts H u → found u = some id →
      (action id).wp (contract H) tells (within nulls) post (.outside u)) :
    (authenticate found action).wp (contract H) tells (within nulls) post (.outside v) := by
  intro u hle _
  dsimp only
  cases hfound : found u with
  | none => exact within_of rfl
  | some id => exact h u id hle hfound

/-- The user of a guarded action exists. -/
theorem names_of_guard {db : Database} {token : String} {user : Nat}
    (h : guard db token = some user) : Names db.users user := by
  obtain ⟨row, hrow, -⟩ := tokenGuard_some h
  exact ⟨user, rfl, Option.isSome_of_eq_some hrow⟩

/-- Where a request may take null for an object: between the two reads of a login the account
may change, a subscription may not be there, and a user who is banned may name a row of the
list that does not exist. -/
def nulls (v : Database) (visit : Visit) : Prop :=
  match visit.route with
  | .userLogin _ => True
  | .userFacebook _ => True
  | .subscriptCancel _ => True
  | .orderStore _ => ∃ user, ¬ OrderController.records v user < 3
  | .read _ => True
  | _ => False

theorem handler_wp {H : Holds} (L : Laravel) (visit : Visit) (v : Database)
    (hallows : visit.route.Allows H) :
    (visit.handler L).wp (contract H) visit.tells (within (visit.nulls v)) (visit.answers H v)
      (.outside v) := by
  obtain ⟨env, token, route⟩ := visit
  cases route with
  | userRegister request => exact UserController.store_wp
  | userLogin request => exact UserController.login_wp trivial
  | userLogout id => exact UserController.logout_wp
  | userUpdate id request => exact UserController.update_wp
  | userFacebook resource => exact FBController.login_wp trivial
  | userReport => exact within_of rfl
  | ownerRegister request => exact OwnerController.store_wp
  | ownerLogin request => exact OwnerController.login_wp
  | ownerLogout => exact within_of rfl
  | ownerUpdate => exact within_of rfl
  | restaurantStore request => exact authenticate_wp fun _ _ _ _ => RestaurantController.store_wp
  | restaurantUpdate id request =>
      exact authenticate_wp fun _ _ _ _ => RestaurantController.update_wp
  | restaurantScore request =>
      exact authenticate_wp fun _ _ _ hguard =>
        RestaurantController.score_wp (names_of_guard hguard)
  | foodStore request =>
      exact authenticate_wp fun _ _ _ _ => FoodController.store_wp fun _ _ _ _ _ hkey => hkey
  | foodUpdate id request =>
      exact authenticate_wp fun _ _ _ _ => FoodController.update_wp hallows
        fun _ _ _ _ _ hrow => hrow
  | foodLook => exact within_of rfl
  | orderStore request =>
      refine authenticate_wp fun u user hle hguard => ?_
      refine Prog.wp_mono (fun _ _ h => h) (fun g response h => ⟨h.1, fun hfew => h.2 ?_⟩)
        (OrderController.store_wp (fun _ _ _ horder hr => ⟨horder, hr⟩) hallows
          (names_of_guard hguard) fun hmany => ⟨user, ?_⟩)
      · rwa [← OrderController.records_lasts hle]
      · exact (OrderController.records_lasts hle).trans_lt (hfew user)
  | orderComplete id => exact authenticate_wp fun _ _ _ _ => OrderController.complete_wp
  | orderCancel id => exact authenticate_wp fun _ _ _ _ => OrderController.cancel_wp hallows
  | subscriptStore request => exact SubscriptController.store_wp
  | subscriptNotice => exact within_of rfl
  | subscriptCancel id => exact SubscriptController.cancel_wp trivial
  | report request => exact ReportController.report_wp
  | read body =>
      intro u _ _
      dsimp only
      split
      · trivial
      · exact fun _ => trivial

end Visit

/-! ### Sample requests -/

namespace Sample

theorem town_referential : Referential town := by
  have hrestaurant : Names town.restaurants 1 := ⟨1, rfl, rfl⟩
  have huser : Names town.users 1 := ⟨1, rfl, rfl⟩
  have hfood : Names town.foods 1 := ⟨1, rfl, rfl⟩
  refine ⟨?_, ?_, .of_empty fun _ => rfl, ?_, .of_empty fun _ => rfl⟩
  · exact Table.All.sets (.of_empty fun _ => rfl) (Table.empty.insert_sets _) hrestaurant
  · exact Table.All.sets (.of_empty fun _ => rfl) (Table.empty.insert_sets _) ⟨hfood, huser⟩
  · exact Table.All.sets (.of_empty fun _ => rfl) (Table.empty.insert_sets _) ⟨huser, hrestaurant⟩

/-- A user orders while an owner adds a food. -/
def busy : Bool → Visit
  | true => ⟨env, token 'a', .orderStore (request [(.foodId, .int 1), (.foodNumber, .int 2),
      (.phone, .str "0912345678")])⟩
  | false => ⟨env, token 'c', .foodStore (request [(.name, .str "rye"), (.remaining, .int 5),
      (.originalPrice, .int 100), (.discountedPrice, .int 50), (.restaurantId, .int 1)])⟩

end Sample

/-! ### Interleavings -/

section Pool

variable {ι : Type} [DecidableEq ι] (L : Laravel) (db : Database) (visits : ι → Visit)

/-- The requests arrive together. -/
def arrive : Pool ι Database Event Exn Response :=
  Pool.start db fun a => (visits a).handler L

/-- The requests after some of their statements, one after another as `schedule` says. -/
def interleaved (schedule : List ι) : Pool ι Database Event Exn Response :=
  after Pool.step (arrive L db visits) schedule

variable {L db visits}

/-- The requests keep the contract, and with it what none of them writes of the foods. -/
theorem interleaved_holds {H : Holds} (h : Referential db)
    (hallows : ∀ a, (visits a).route.Allows H) (schedule : List ι) :
    (interleaved L db visits schedule).Kept (contract H) (fun a => (visits a).tells)
      (fun a => within ((visits a).nulls db)) (fun a => (visits a).answers H db) db :=
  .run h (fun a => (visits a).handler_wp L db (hallows a)) schedule

theorem interleaved_kept (h : Referential db) (schedule : List ι) :
    (interleaved L db visits schedule).Kept (contract .nothing) (fun a => (visits a).tells)
      (fun a => within ((visits a).nulls db)) (fun a => (visits a).answers .nothing db) db :=
  interleaved_holds h (fun a => (visits a).route.allows_nothing) schedule

/-- **However requests interleave, every reference names a row.** -/
theorem interleaved_referential (h : Referential db) (schedule : List ι) :
    Referential (interleaved L db visits schedule).state :=
  (interleaved_kept h schedule).inv

theorem interleaved_referential_busy :
    Referential (interleaved Sample.laravel Sample.town Sample.busy
      (Sample.overlapped 5 8)).state :=
  interleaved_referential Sample.town_referential (Sample.overlapped 5 8)

end Pool

end Spoiler
