/-
The five handlers that open a transaction.

Each of them ends its transaction in one place, with a commit.  Everything that can go
wrong before it leaves the handler by an early return, which does not roll back, or by an
exception, which the `catch` clause does not catch because the class it names does not
exist.  So the database is never left half written, since a connection that closes drops
what it has not committed; but the connection itself is handed back with the transaction
still open, and a later request on it writes into that transaction.

`whole` is the database a handler commits if it comes to its commit, and both results are
about when that is.
-/
import Spoiler.App.Sample
import Spoiler.Proofs.Inside
import Spoiler.Proofs.Restaurants
import Spoiler.Store.Transaction

namespace Spoiler

open Store Php

/-- The calls that open a transaction. -/
def Call.isTransaction : Call → Bool
  | orderStore _ _ => true
  | foodStore _ => true
  | foodUpdate _ _ => true
  | restaurantStore _ _ => true
  | restaurantUpdate _ _ => true
  | _ => false

/-- Every table has the same rows.  The counters that keys are drawn from are not
transactional: a key that was taken is not given back. -/
structure SameRows (db db' : Database) : Prop where
  users : db'.users.row = db.users.row
  owners : db'.owners.row = db.owners.row
  restaurants : db'.restaurants.row = db.restaurants.row
  foods : db'.foods.row = db.foods.row
  orders : db'.orders.row = db.orders.row
  deprivateLists : db'.deprivateLists.row = db.deprivateLists.row
  likes : db'.likes.row = db.likes.row
  subscriptions : db'.subscriptions.row = db.subscriptions.row
  reports : db'.reports.row = db.reports.row

theorem SameRows.refl (db : Database) : SameRows db db :=
  ⟨rfl, rfl, rfl, rfl, rfl, rfl, rfl, rfl, rfl⟩

theorem SameRows.trans {a b c : Database} (h : SameRows a b) (h' : SameRows b c) :
    SameRows a c where
  users := h'.users.trans h.users
  owners := h'.owners.trans h.owners
  restaurants := h'.restaurants.trans h.restaurants
  foods := h'.foods.trans h.foods
  orders := h'.orders.trans h.orders
  deprivateLists := h'.deprivateLists.trans h.deprivateLists
  likes := h'.likes.trans h.likes
  subscriptions := h'.subscriptions.trans h.subscriptions
  reports := h'.reports.trans h.reports

/-! ### What the handlers commit -/

/-- The database an order leaves. -/
def OrderController.storeWhole (env : Env) (user : Nat) (request : Request) (db : Database) :
    Option Database := do
  let (i, food) ← (verdict db user request).toOption
  let order ← orders.make (attributes env user request)
  let n ← (deducted env food (request.get .foodNumber)).intColumn
  some { db with
    orders := db.orders.insert order
    foods := db.foods.modify i (Food.stocked n) }

/-- The database a new food leaves, if it can be announced. -/
def FoodController.storeWhole (env : Env) (request : Request) (db : Database) :
    Option Database :=
  match failed db request.input (storeRules request) with
  | [] => do
      let food ← foods.make (attributes request)
      let _ ← (announce env db food.restaurantId).toOption
      some { db with foods := db.foods.insert food }
  | _ => none

/-- The database an update of a food leaves, if a rise in stock can be announced. -/
def FoodController.updateWhole (env : Env) (request : Request) (i : Nat) (food : Food)
    (db : Database) : Option Database :=
  match failed db request.input (updateRules i food) with
  | [] => do
      let f ← foods.changes request food
      let _ ← (if raised request food.remaining then announce env db (f food).restaurantId
        else .ok ()).toOption
      some { db with foods := db.foods.modify i f }
  | _ => none

/-- The database a new restaurant leaves. -/
def RestaurantController.storeWhole (owner : Nat) (request : Request) (db : Database) :
    Option Database :=
  match failed db request.input (storeRules request) with
  | [] => do
      let restaurant ← restaurants.make (attributes owner request)
      some { db with restaurants := db.restaurants.insert restaurant }
  | _ => none

/-- The database an update of a restaurant leaves. -/
def RestaurantController.updateWhole (request : Request) (i : Nat) (restaurant : Restaurant)
    (db : Database) : Option Database :=
  match failed db request.input (updateRules request i) with
  | [] => do
      let f ← restaurants.changes request restaurant
      some { db with restaurants := db.restaurants.modify i f }
  | _ => none

/-- The database the request commits, if it comes to its commit. -/
def whole (db : Database) (step : Step) : Option Database :=
  match step.call with
  | .orderStore user request => OrderController.storeWhole step.env user request db
  | .foodStore request => FoodController.storeWhole step.env request db
  | .foodUpdate id request =>
      (foods.lookup db id).bind fun x => FoodController.updateWhole step.env request x.1 x.2 db
  | .restaurantStore owner request => RestaurantController.storeWhole owner request db
  | .restaurantUpdate id request =>
      (restaurants.lookup db id).bind fun x =>
        RestaurantController.updateWhole request x.1 x.2 db
  | _ => none

/-! ### How they end -/

/-- A new row waits for its key, and what is left of the handler goes on with it. -/
theorem Model.inner_create {ρ A : Type} {M : Model ρ} (hu : M.unique = none) {snap : Database}
    {ws : List (Database → Database)} (attributes : Attr → Value) (k : Nat × ρ → Action A) :
    (M.create attributes >>= k).inner snap ws =
      match M.make attributes with
      | none => .stops
      | some r =>
          .inserts ws (fun s => ((M.table.get s).next, M.table.set s (M.table.get s).reserve.2))
            (fun i s => M.table.set s ((M.table.get s).put i r)) fun i => k (i, r) := by
  unfold create
  cases M.make attributes with
  | none => rfl
  | some r =>
      dsimp only
      rw [hu]
      rfl

theorem OrderController.store_opens (env : Env) (user : Nat) (request : Request) :
    (store env user request).Opens SameRows fun db => (storeWhole env user request db).isSome := by
  obtain ⟨k, hk, hinner⟩ := store_inner env user request
  refine ⟨k, hk, fun v => ?_⟩
  have hv := hinner v
  unfold storeWhole
  cases hverdict : verdict v user request with
  | error answer =>
      rw [hverdict] at hv
      exact .of_stops hv (by simp [hverdict, Except.toOption])
  | ok x =>
      obtain ⟨i, food⟩ := x
      rw [hverdict] at hv
      dsimp only at hv
      rw [place_inner] at hv
      cases hm : orders.make (attributes env user request) with
      | none =>
          rw [hm] at hv
          exact .of_stops hv (by simp [hverdict, Except.toOption])
      | some order =>
          rw [hm] at hv
          refine .inserts hv (fun s => ⟨rfl, rfl, rfl, rfl, rfl, rfl, rfl, rfl, rfl⟩) fun id => ?_
          have hrest := placeRest_inner env request i food order id v ([] ++ [putOrder order id])
          cases hn : (deducted env food (request.get .foodNumber)).intColumn with
          | none =>
              rw [hn] at hrest
              exact .of_stops hrest (by simp [hverdict, hn, Except.toOption])
          | some n =>
              rw [hn] at hrest
              exact .of_commits hrest (quiet_newOrder env id order _)
                (by simp [hverdict, hn, Except.toOption])

theorem FoodController.store_opens (env : Env) (request : Request) :
    (store env request).Opens SameRows fun db => (storeWhole env request db).isSome := by
  rw [store_eq]
  unfold storeBody storeWhole
  simp only [beginTransaction, Prog.beginTransaction_bind, Prog.ret_bind, Request.validate,
    Prog.select_bind]
  refine ⟨_, rfl, fun v => ?_⟩
  cases hvalid : failed v request.input (storeRules request) with
  | cons e es => exact .of_stops rfl (by simp [hvalid])
  | nil =>
      simp only [Prog.ret_bind]
      cases hm : foods.make (attributes request) with
      | none => exact .of_stops (by rw [Model.inner_create rfl, hm]) (by simp [hvalid])
      | some food =>
          refine .inserts (by rw [Model.inner_create rfl, hm])
            (fun s => ⟨rfl, rfl, rfl, rfl, rfl, rfl, rfl, rfl, rfl⟩) fun i => ?_
          cases ha : announce env v food.restaurantId with
          | error e =>
              refine .of_stops ((inner_foodAdded (by rfl) _).trans ?_)
                (by simp [hvalid, ha, Except.toOption])
              rw [ha]
          | ok _ =>
              have htail : (.ret (json (.food i food) 200) : Handler).Quiet := trivial
              exact .of_commits ((inner_foodAdded (by rfl) _).trans (by rw [ha]; rfl)) htail
                (by simp [hvalid, ha, Except.toOption])

theorem FoodController.update_opens (env : Env) (request : Request) (i : Nat) (food : Food) :
    (updateBody env request i food).Opens SameRows
      fun db => (updateWhole env request i food db).isSome := by
  obtain ⟨k, hk, hinner⟩ := updateBody_inner env request i food
  refine ⟨k, hk, fun v => ?_⟩
  have hv := hinner v
  unfold updateWhole Model.changes
  cases hvalid : failed v request.input (updateRules i food) with
  | cons e es =>
      rw [hvalid] at hv
      exact .of_stops hv (by simp [hvalid])
  | nil =>
      rw [hvalid] at hv
      cases hf : foods.imageChange request with
      | none =>
          rw [hf] at hv
          exact .of_stops hv (by simp [hvalid])
      | some f =>
          rw [hf] at hv
          dsimp only at hv
          cases hg : foods.dirty (request.except .image) (f food) foods.fillable with
          | none =>
              rw [hg] at hv
              exact .of_stops hv (by simp [hvalid, hg])
          | some g =>
              rw [hg] at hv
              dsimp only at hv
              cases ha : (if raised request food.remaining
                  then announce env v (g (f food)).restaurantId else .ok ()) with
              | error e =>
                  rw [ha] at hv
                  exact .of_stops hv (by simp [hvalid, hg, ha, Except.toOption])
              | ok _ =>
                  rw [ha] at hv
                  exact .of_commits hv trivial (by simp [hvalid, hg, ha, Except.toOption])

/-- The food of the route is looked up first. -/
theorem FoodController.update_opensIf (env : Env) (id : Value) (request : Request) :
    (update env id request).OpensIf SameRows (fun db => (foods.lookup db id).isSome)
      fun db db' => ((foods.lookup db id).bind fun x =>
        updateWhole env request x.1 x.2 db').isSome := by
  refine ⟨_, update_parts env id request, fun v => ?_⟩
  dsimp only
  cases foods.lookup v id with
  | none => exact .inr ⟨rfl, trivial⟩
  | some x => exact .inl ⟨rfl, update_opens env request x.1 x.2⟩

theorem RestaurantController.store_opens (owner : Nat) (request : Request) :
    (store owner request).Opens SameRows fun db => (storeWhole owner request db).isSome := by
  rw [store_eq]
  unfold storeBody storeWhole
  simp only [beginTransaction, Prog.beginTransaction_bind, Prog.ret_bind, Request.validate,
    Prog.select_bind]
  refine ⟨_, rfl, fun v => ?_⟩
  cases hvalid : failed v request.input (storeRules request) with
  | cons e es => exact .of_stops rfl (by simp [hvalid])
  | nil =>
      simp only [Prog.ret_bind]
      cases hm : restaurants.make (attributes owner request) with
      | none => exact .of_stops (by rw [Model.inner_create rfl, hm]) (by simp [hvalid])
      | some restaurant =>
          refine .inserts (by rw [Model.inner_create rfl, hm])
            (fun s => ⟨rfl, rfl, rfl, rfl, rfl, rfl, rfl, rfl, rfl⟩) fun i => ?_
          exact .of_commits rfl trivial (by simp [hvalid])

namespace RestaurantController

theorem update_parts (id : Value) (request : Request) :
    update id request = .select fun db =>
      match restaurants.lookup db id with
      | none => .raise .modelNotFound
      | some (i, restaurant) => updateBody request i restaurant := by
  rw [update_eq]
  rfl

theorem updateBody_inner (request : Request) (i : Nat) (restaurant : Restaurant) :
    ∃ k, updateBody request i restaurant = .beginTransaction (.select k) ∧ ∀ snap,
      (k snap).inner snap [] =
        match failed snap request.input (updateRules request i) with
        | [] =>
            match restaurants.imageChange request with
            | none => .stops
            | some f =>
                match restaurants.dirty (request.except .image) (f restaurant)
                  restaurants.fillable with
                | none => .stops
                | some g =>
                    .commits (restaurants.buffered (restaurants.buffered [] i restaurant f) i
                      (f restaurant) g) (.ret (json (.restaurant i (g (f restaurant))) 200))
        | _ => .stops := by
  unfold updateBody updateImage
  simp only [beginTransaction, Prog.beginTransaction_bind, Prog.ret_bind, Request.validate,
    Prog.select_bind]
  refine ⟨_, rfl, fun snap => ?_⟩
  cases failed snap request.input (updateRules request i) with
  | cons e es => rfl
  | nil =>
      simp only [Prog.ret_bind]
      rw [Model.inner_updateImage rfl restaurants_nodup (by decide)]
      cases restaurants.imageChange request with
      | none => rfl
      | some f =>
          dsimp only
          rw [Model.inner_update rfl]
          cases restaurants.dirty (request.except .image) (f restaurant) restaurants.fillable <;>
            rfl

theorem update_opens (request : Request) (i : Nat) (restaurant : Restaurant) :
    (updateBody request i restaurant).Opens SameRows
      fun db => (updateWhole request i restaurant db).isSome := by
  obtain ⟨k, hk, hinner⟩ := updateBody_inner request i restaurant
  refine ⟨k, hk, fun v => ?_⟩
  have hv := hinner v
  unfold updateWhole Model.changes
  cases hvalid : failed v request.input (updateRules request i) with
  | cons e es =>
      rw [hvalid] at hv
      exact .of_stops hv (by simp [hvalid])
  | nil =>
      rw [hvalid] at hv
      cases hf : restaurants.imageChange request with
      | none =>
          rw [hf] at hv
          exact .of_stops hv (by simp [hvalid])
      | some f =>
          rw [hf] at hv
          dsimp only at hv
          cases hg : restaurants.dirty (request.except .image) (f restaurant)
              restaurants.fillable with
          | none =>
              rw [hg] at hv
              exact .of_stops hv (by simp [hvalid, hg])
          | some g =>
              rw [hg] at hv
              exact .of_commits hv trivial (by simp [hvalid, hg])

/-- The restaurant of the route is looked up first. -/
theorem update_opensIf (id : Value) (request : Request) :
    (update id request).OpensIf SameRows (fun db => (restaurants.lookup db id).isSome)
      fun db db' => ((restaurants.lookup db id).bind fun x =>
        updateWhole request x.1 x.2 db').isSome := by
  refine ⟨_, update_parts id request, fun v => ?_⟩
  dsimp only
  cases restaurants.lookup v id with
  | none => exact .inr ⟨rfl, trivial⟩
  | some x => exact .inl ⟨rfl, update_opens request x.1 x.2⟩

end RestaurantController

/-! ### All or nothing -/

/-- The database once the connection of a request that got no further than `n` statements
has closed. -/
def stopped (L : Laravel) (db : Database) (step : Step) (n : Nat) : Database :=
  (step.call.handler L step.env).cut n db .idle

/-- A handler leaves what it commits, or answers with an error. -/
def Settled (committed : Option Database) (x : Database × Except Exn Response) : Prop :=
  committed = some x.1 ∨ (committed = none ∧ isError x.2 = true)

theorem OrderController.store_settled (env : Env) (user : Nat) (request : Request)
    (db : Database) :
    Settled (storeWhole env user request db) ((store env user request).serve db).result := by
  rw [store_result]
  unfold storeWhole
  cases hv : verdict db user request with
  | error answer => exact .inr ⟨rfl, isError_of_verdict hv⟩
  | ok x =>
      obtain ⟨i, food⟩ := x
      unfold placed
      cases hm : orders.make (attributes env user request) with
      | none => exact .inr ⟨rfl, rfl⟩
      | some order =>
          cases hn : (deducted env food (request.get .foodNumber)).intColumn with
          | none => exact .inr ⟨by simp [hn, Except.toOption], by simp [hn, isError]⟩
          | some n => exact .inl (by simp [hn, Except.toOption])

theorem FoodController.store_settled (env : Env) (request : Request) (db : Database) :
    Settled (storeWhole env request db) ((store env request).serve db).result := by
  rw [store_result]
  unfold storeWhole
  cases failed db request.input (storeRules request) with
  | cons e es => exact .inr ⟨rfl, rfl⟩
  | nil =>
      cases foods.make (attributes request) with
      | none => exact .inr ⟨rfl, rfl⟩
      | some food =>
          cases ha : announce env db food.restaurantId with
          | error e => exact .inr ⟨by simp [ha, Except.toOption], by simp [ha, isError]⟩
          | ok _ => exact .inl (by simp [ha, Except.toOption])

theorem FoodController.update_settled (env : Env) (id : Value) (request : Request)
    (db : Database) :
    Settled ((foods.lookup db id).bind fun x => updateWhole env request x.1 x.2 db)
      ((update env id request).serve db).result := by
  rw [update_result]
  cases foods.lookup db id with
  | none => exact .inr ⟨rfl, rfl⟩
  | some x =>
      obtain ⟨i, food⟩ := x
      simp only [Option.bind_some]
      unfold updateWhole updated changes
      cases failed db request.input (updateRules i food) with
      | cons e es => exact .inr ⟨rfl, rfl⟩
      | nil =>
          cases foods.changes request food with
          | none => exact .inr ⟨rfl, rfl⟩
          | some f =>
              dsimp only
              cases ha : (if raised request food.remaining
                  then announce env db (f food).restaurantId else .ok ()) with
              | error e => exact .inr ⟨by simp [ha, Except.toOption], rfl⟩
              | ok _ => exact .inl (by simp [ha, Except.toOption])

theorem RestaurantController.store_settled (owner : Nat) (request : Request) (db : Database) :
    Settled (storeWhole owner request db) ((store owner request).serve db).result := by
  rw [store_result]
  unfold storeWhole
  cases failed db request.input (storeRules request) with
  | cons e es => exact .inr ⟨rfl, rfl⟩
  | nil =>
      cases restaurants.make (attributes owner request) with
      | none => exact .inr ⟨rfl, rfl⟩
      | some restaurant => exact .inl rfl

theorem RestaurantController.update_settled (id : Value) (request : Request) (db : Database) :
    Settled ((restaurants.lookup db id).bind fun x => updateWhole request x.1 x.2 db)
      ((update id request).serve db).result := by
  rw [update_result]
  cases restaurants.lookup db id with
  | none => exact .inr ⟨rfl, rfl⟩
  | some x =>
      obtain ⟨i, restaurant⟩ := x
      simp only [Option.bind_some]
      unfold updateWhole
      cases failed db request.input (updateRules request i) with
      | cons e es => exact .inr ⟨rfl, rfl⟩
      | nil =>
          cases restaurants.changes request restaurant with
          | none => exact .inr ⟨rfl, rfl⟩
          | some f => exact .inl rfl

theorem settled (L : Laravel) (db : Database) (step : Step) (h : step.call.isTransaction = true) :
    Settled (whole db step) (serve L db step, answer L db step) := by
  obtain ⟨env, call⟩ := step
  cases call with
  | orderStore user request => exact OrderController.store_settled env user request db
  | foodStore request => exact FoodController.store_settled env request db
  | foodUpdate id request => exact FoodController.update_settled env id request db
  | restaurantStore owner request => exact RestaurantController.store_settled owner request db
  | restaurantUpdate id request => exact RestaurantController.update_settled id request db
  | _ => cases h

/-- A request that stops anywhere has changed no row, or has left what it leaves in the
end, and then it comes to its commit. -/
theorem stopped_or_served (L : Laravel) (db : Database) (step : Step)
    (h : step.call.isTransaction = true) (n : Nat) :
    SameRows db (stopped L db step n) ∨
      ((whole db step).isSome = true ∧ stopped L db step n = serve L db step) := by
  obtain ⟨env, call⟩ := step
  cases call with
  | orderStore user request =>
      exact (OrderController.store_opens env user request).cut .refl .trans n db
  | foodStore request => exact (FoodController.store_opens env request).cut .refl .trans n db
  | foodUpdate id request =>
      exact ((FoodController.update_opensIf env id request).cut .refl .trans n db).imp_right
        And.right
  | restaurantStore owner request =>
      exact (RestaurantController.store_opens owner request).cut .refl .trans n db
  | restaurantUpdate id request =>
      exact ((RestaurantController.update_opensIf id request).cut .refl .trans n db).imp_right
        And.right
  | _ => cases h

/-- **Wherever a request of these stops, once its connection is closed the database has the
rows it had before, or is the one that the request commits; and a request that succeeds
leaves that one.** -/
theorem all_or_nothing (L : Laravel) (db : Database) (step : Step)
    (h : step.call.isTransaction = true) :
    (∀ n, SameRows db (stopped L db step n) ∨ whole db step = some (stopped L db step n)) ∧
      (isError (answer L db step) = false → whole db step = some (serve L db step)) := by
  have hsettled := settled L db step h
  constructor
  · intro n
    refine (stopped_or_served L db step h n).imp_right fun ⟨hsome, hserve⟩ => ?_
    rcases hsettled with hwhole | ⟨hnone, -⟩
    · rw [hserve]
      exact hwhole
    · rw [hnone] at hsome
      cases hsome
  · intro hok
    rcases hsettled with hwhole | ⟨-, herror⟩
    · exact hwhole
    · rw [herror] at hok
      cases hok

/-- An order that is cut off after its food has been written, but not committed. -/
theorem all_or_nothing_order :
    (SameRows Sample.shelf (stopped Sample.laravel Sample.shelf (Sample.newOrder 1 1 2) 7) ∨
      whole Sample.shelf (Sample.newOrder 1 1 2)
        = some (stopped Sample.laravel Sample.shelf (Sample.newOrder 1 1 2) 7)) ∧
      whole Sample.shelf (Sample.newOrder 1 1 2)
        = some (serve Sample.laravel Sample.shelf (Sample.newOrder 1 1 2)) :=
  ⟨(all_or_nothing Sample.laravel Sample.shelf (Sample.newOrder 1 1 2) rfl).1 7,
    (all_or_nothing Sample.laravel Sample.shelf (Sample.newOrder 1 1 2) rfl).2 (by decide +kernel)⟩

/-! ### The level of the connection -/

/-- The request comes to its commit, or never opens its transaction: the row its route
names is not there. -/
def closes (db : Database) (step : Step) : Bool :=
  (whole db step).isSome ||
    match step.call with
    | .foodUpdate id _ => (foods.lookup db id).isNone
    | .restaurantUpdate id _ => (restaurants.lookup db id).isNone
    | _ => false

theorem level_exec (L : Laravel) {c : Conn Database} (hc : c.Sane) (db : Database) (step : Step)
    (h : step.call.isTransaction = true) :
    ((step.call.handler L step.env).exec db c).conn.level
      = c.level + if closes (c.view db) step = true then 0 else 1 := by
  obtain ⟨env, call⟩ := step
  cases call with
  | orderStore user request =>
      rw [closes, Bool.or_false]
      exact (OrderController.store_opens env user request).level hc db
  | foodStore request =>
      rw [closes, Bool.or_false]
      exact (FoodController.store_opens env request).level hc db
  | foodUpdate id request =>
      refine ((FoodController.update_opensIf env id request).level hc db).trans ?_
      cases hl : foods.lookup (c.view db) id with
      | none => simp [closes, hl]
      | some x =>
          cases hw : FoodController.updateWhole env request x.1 x.2 (c.view db) <;>
            simp [closes, whole, hl, hw]
  | restaurantStore owner request =>
      rw [closes, Bool.or_false]
      exact (RestaurantController.store_opens owner request).level hc db
  | restaurantUpdate id request =>
      refine ((RestaurantController.update_opensIf id request).level hc db).trans ?_
      cases hl : restaurants.lookup (c.view db) id with
      | none => simp [closes, hl]
      | some x =>
          cases hw : RestaurantController.updateWhole request x.1 x.2 (c.view db) <;>
            simp [closes, whole, hl, hw]
  | _ => cases h

/-- **A request leaves its connection at the level it found it exactly when it comes to
its commit; otherwise the transaction it opened stays open.** -/
theorem level_kept_iff (L : Laravel) (c : Conn Database) (hc : c.Sane) (db : Database)
    (step : Step) (h : step.call.isTransaction = true) :
    ((step.call.handler L step.env).exec db c).conn.level = c.level ↔
      closes (c.view db) step = true := by
  rw [level_exec L hc db step h]
  by_cases hcloses : closes (c.view db) step = true
  · simp [hcloses]
  · simp [hcloses]

theorem level_kept_order :
    (respond Sample.laravel Sample.shelf (Sample.newOrder 1 1 2)).conn.level = 0 :=
  (level_kept_iff Sample.laravel .idle Conn.sane_idle Sample.shelf (Sample.newOrder 1 1 2) rfl).mpr
    (by decide +kernel)

/-- An early return, an exception of the validation and one of the event each leave the
transaction open. -/
theorem level_leaked :
    let level step := (respond Sample.laravel Sample.shelf step).conn.level
    (Conn.idle : Conn Database).level = 0 ∧
      level (Sample.newOrder 1 7 2) = 1 ∧
      level (Sample.newOrder 1 1 200) = 1 ∧
      level { Sample.newFood "cake" 5 1 with env.broadcasts := false } = 1 ∧
      level (Sample.editFood 1 [(.remaining, .str "many")]) = 1 ∧
      level (Sample.newRestaurant "west" "12" "080000" "200000") = 1 ∧
      level (Sample.editRestaurant 1 [(.phone, .str "12")]) = 1 := by
  decide +kernel

/-- A request on the connection that the request before it has left. -/
def reuse (L : Laravel) (x : Database × Conn Database) (step : Step) :
    Database × Conn Database :=
  let o := (step.call.handler L step.env).exec x.1 x.2
  (o.state, o.conn)

/-- **On a connection that is used again and again the open transactions are those of the
requests that did not come to their commit.** -/
theorem level_after_reuse (L : Laravel) (db : Database) {run : List Step}
    (hcalls : ∀ step ∈ run, step.call.isTransaction = true) :
    ((after (reuse L) (db, .idle) run).2.level : Int)
      = tally (reuse L) (fun x step => if closes (x.2.view x.1) step = true then 0 else 1)
        (db, .idle) run := by
  have hrun : Along (reuse L) (fun _ step => step.call.isTransaction = true) (db, .idle) run :=
    Along.of_forall fun step hmem _ => hcalls step hmem
  have hkeep : ∀ (x : Database × Conn Database) (step : Step), x.2.Sane →
      step.call.isTransaction = true → (reuse L x step).2.Sane :=
    fun x step hx _ => Prog.sane_exec _ hx
  have hmove : ∀ (x : Database × Conn Database) (step : Step), x.2.Sane →
      step.call.isTransaction = true → ((reuse L x step).2.level : Int)
        = (x.2.level : Int) + if closes (x.2.view x.1) step = true then 0 else 1 := by
    intro x step hx hstep
    have hlevel : (reuse L x step).2.level = _ := level_exec L hx x.1 step hstep
    rw [hlevel]
    by_cases hcloses : closes (x.2.view x.1) step = true
    · simp [hcloses]
    · simp [hcloses]
  have hend := after_tally (m := fun x => (x.2.level : Int)) hkeep hmove
    (Conn.sane_idle : (db, Conn.idle).2.Sane) hrun
  simpa [Conn.level, Conn.idle] using hend

/-- An order of a food that does not exist leaves its transaction open, and the next order of
the connection is placed inside it. -/
theorem level_after_reuse_order :
    let run := [Sample.newOrder 1 7 2, Sample.newOrder 1 1 2]
    ((after (reuse Sample.laravel) (Sample.shelf, .idle) run).2.level : Int) = 1 := by
  intro run
  have hcalls : ∀ step ∈ run, step.call.isTransaction = true := by decide
  rw [level_after_reuse Sample.laravel Sample.shelf hcalls]
  decide +kernel

end Spoiler
