/-
What the stock handlers do, one request at a time.

For each handler one equation gives the database it leaves and its answer as plain
functions of the database it starts from.  The transaction, the buffered writes and
the `catch` clause that catches nothing are gone after this file: `store` either
refuses with the database as it was, or fails at a column with at most an order key
spent, or places the order, and in the last case the order and the stock are
committed before the event that may still fail.
-/
import Spoiler.Proofs.Eloquent

namespace Spoiler

open Store Php

/-! ### Rows after a write -/

def Order.completed (order : Order) : Order := { order with complete := true }

def Order.cancelled (order : Order) : Order := { order with send := false }

@[simp] theorem cancelled_foodId (order : Order) : order.cancelled.foodId = order.foodId := rfl

@[simp] theorem cancelled_foodNumber (order : Order) :
    order.cancelled.foodNumber = order.foodNumber := rfl

def Food.stocked (n : Int) (food : Food) : Food := { food with remaining := n }

@[simp] theorem orders_get (db : Database) : orders.table.get db = db.orders := rfl
@[simp] theorem foods_get (db : Database) : foods.table.get db = db.foods := rfl

theorem lookup_order {db : Database} {v : Value} {i : Nat} {order : Order}
    (h : orders.lookup db v = some (i, order)) : v.key? = some i ∧ db.orders.row i = some order :=
  Model.lookup_some.mp h

theorem lookup_food {db : Database} {v : Value} {i : Nat} {food : Food}
    (h : foods.lookup db v = some (i, food)) : v.key? = some i ∧ db.foods.row i = some food :=
  Model.lookup_some.mp h

theorem assign_complete : orders.assign .complete (.int 1) = some Order.completed := rfl

theorem assign_send : orders.assign .send (.int 0) = some Order.cancelled := rfl

theorem assign_remaining (v : Value) :
    foods.assign .remaining v = v.intColumn.map Food.stocked := rfl

theorem orders_nodup : orders.fillable.Nodup := by decide

theorem foods_nodup : foods.fillable.Nodup := by decide

/-- The columns of a food an assignment to `b` leaves alone. -/
structure Food.Beside (b : Attr) (r q : Food) : Prop where
  name : b ≠ .name → q.name = r.name
  remaining : b ≠ .remaining → q.remaining = r.remaining
  originalPrice : b ≠ .originalPrice → q.originalPrice = r.originalPrice
  discountedPrice : b ≠ .discountedPrice → q.discountedPrice = r.discountedPrice
  image : b ≠ .image → q.image = r.image
  restaurantId : b ≠ .restaurantId → q.restaurantId = r.restaurantId

theorem foods_keeps {b : Attr} {v : Value} {f : Food → Food} (hf : foods.assign b v = some f)
    (r : Food) : r.Beside b (f r) := by
  cases b <;> first
    | (obtain ⟨x, -, rfl⟩ := Option.map_eq_some_iff.mp hf
       constructor <;> intro hb <;> first | rfl | exact absurd rfl hb)
    | cases hf

theorem name_column : foods.Column .name Food.name Value.textColumn :=
  .of_beside foods_keeps foods_nodup (by decide) (fun _ => rfl) (fun _ _ => rfl)
    fun _ _ _ h => h.name

theorem remaining_column : foods.Column .remaining Food.remaining Value.intColumn :=
  .of_beside foods_keeps foods_nodup (by decide) assign_remaining (fun _ _ => rfl)
    fun _ _ _ h => h.remaining

theorem originalPrice_column : foods.Column .originalPrice Food.originalPrice Value.intColumn :=
  .of_beside foods_keeps foods_nodup (by decide) (fun _ => rfl) (fun _ _ => rfl)
    fun _ _ _ h => h.originalPrice

theorem discountedPrice_column :
    foods.Column .discountedPrice Food.discountedPrice Value.intColumn :=
  .of_beside foods_keeps foods_nodup (by decide) (fun _ => rfl) (fun _ _ => rfl)
    fun _ _ _ h => h.discountedPrice

theorem foodImage_column : foods.Column .image Food.image Value.nullableText :=
  .of_beside foods_keeps foods_nodup (by decide) (fun _ => rfl) (fun _ _ => rfl)
    fun _ _ _ h => h.image

theorem restaurantId_column : foods.Column .restaurantId Food.restaurantId Value.intColumn :=
  .of_beside foods_keeps foods_nodup (by decide) (fun _ => rfl) (fun _ _ => rfl)
    fun _ _ _ h => h.restaurantId

theorem foods_settles : foods.Settles := by
  intro a v f hf
  cases a with
  | name => exact name_column.settled (fun _ => rfl) (fun _ => rfl) hf
  | remaining => exact remaining_column.settled assign_remaining (fun _ => rfl) hf
  | originalPrice => exact originalPrice_column.settled (fun _ => rfl) (fun _ => rfl) hf
  | discountedPrice => exact discountedPrice_column.settled (fun _ => rfl) (fun _ => rfl) hf
  | image => exact foodImage_column.settled (fun _ => rfl) (fun _ => rfl) hf
  | restaurantId => exact restaurantId_column.settled (fun _ => rfl) (fun _ => rfl) hf
  | _ => cases hf

/-! ### Announcing

Both events look the restaurant of a food up and broadcast on its channel. -/

/-- The exception announcing something about a restaurant ends in, if any. -/
def announce (env : Env) (db : Database) (restaurantId : Int) : Except Exn Unit :=
  match restaurants.lookup db (.int restaurantId) with
  | none => .error .nullProperty
  | some _ => if env.broadcasts then .ok () else .error .broadcast

theorem exec_dispatch {A : Type} (env : Env) (db s : Database) (c : Conn Database)
    (restaurantId : Int) (ev : Nat → Event) (k : Unit → Action A) :
    ((dispatch env (restaurants.lookup db (.int restaurantId)) ev >>= k).exec s c).result =
      match announce env db restaurantId with
      | .error e => (s, .error e)
      | .ok _ => ((k ()).exec s c).result := by
  unfold announce
  cases restaurants.lookup db (.int restaurantId) with
  | none => rfl
  | some r =>
      simp only [dispatch]
      by_cases hb : env.broadcasts
      · rw [if_pos hb, if_pos hb]
        rfl
      · rw [if_neg hb, if_neg hb]
        rfl

namespace OrderController

/-! ### Completing and cancelling -/

theorem complete_result (id : Value) (db : Database) :
    ((complete id).serve db).result =
      match orders.lookup db id with
      | none => (db, .ok (sendError "order not found" 400))
      | some (i, order) =>
          if order.send then
            ({ db with orders := db.orders.modify i Order.completed },
              .ok (json (.order i order.completed) 200))
          else (db, .ok (sendError "the order has been canceled" 400)) := by
  unfold complete Prog.serve
  rw [Model.exec_counted_idle]
  cases hl : orders.lookup db id with
  | none => rfl
  | some x =>
      obtain ⟨i, order⟩ := x
      obtain ⟨-, hrow⟩ := Model.lookup_some.mp hl
      rw [Option.isSome_some, if_pos rfl, Model.exec_find_idle, hl]
      dsimp only
      by_cases hsend : order.send
      · rw [if_pos hsend, if_pos hsend, Model.exec_update_only_idle hrow orders_nodup (by decide)
          assign_complete (Model.clash_of_unique_none rfl i _ _)]
        rfl
      · rw [if_neg hsend, if_neg hsend]
        rfl

/-- Giving stock back outside a transaction. -/
theorem exec_restock (order : Order) (k : Unit → Handler) (db : Database) :
    (restock order >>= k).exec db .idle =
      match foods.lookup db (.int order.foodId) with
      | none => ⟨db, .idle, [], .error .nullCall⟩
      | some (f, food) =>
          match (Value.int (food.remaining + order.foodNumber)).intColumn with
          | none => ⟨db, .idle, [], .error .query⟩
          | some n => (k ()).exec { db with foods := db.foods.modify f (Food.stocked n) } .idle := by
  unfold restock
  simp only [Model.find_eq, Prog.select_bind, Prog.ret_bind, Prog.exec_select, Conn.view_idle,
    Conn.looked_idle]
  cases hf : foods.lookup db (.int order.foodId) with
  | none => rfl
  | some y =>
      obtain ⟨f, food⟩ := y
      obtain ⟨-, hfrow⟩ := Model.lookup_some.mp hf
      simp only [bind_assoc]
      cases hn : (Value.int (food.remaining + order.foodNumber)).intColumn with
      | none =>
          rw [Model.update_only_rejected foods_nodup (by decide) (by rw [assign_remaining, hn]; rfl)]
          rfl
      | some n =>
          rw [Model.exec_update_only_idle (f := Food.stocked n) hfrow foods_nodup (by decide)
            (by rw [assign_remaining, hn]; rfl) (Model.clash_of_unique_none rfl f _ _)]
          rfl

theorem cancel_result (id : Value) (db : Database) :
    ((cancel id).serve db).result =
      match orders.lookup db id with
      | none => (db, .ok (json (.text "the given order id not found") 400))
      | some (i, order) =>
          if order.send then
            match foods.lookup db (.int order.foodId) with
            | none => ({ db with orders := db.orders.modify i Order.cancelled }, .error .nullCall)
            | some (f, food) =>
                match (Value.int (food.remaining + order.foodNumber)).intColumn with
                | none => ({ db with orders := db.orders.modify i Order.cancelled }, .error .query)
                | some n =>
                    ({ db with
                        orders := db.orders.modify i Order.cancelled
                        foods := db.foods.modify f (Food.stocked n) },
                      .ok (json (.order i order.cancelled) 200))
          else (db, .ok (json (.text "the order has been canceled") 400)) := by
  unfold cancel Prog.serve
  rw [Model.exec_counted_idle]
  cases hl : orders.lookup db id with
  | none => rfl
  | some x =>
      obtain ⟨i, order⟩ := x
      obtain ⟨-, hrow⟩ := Model.lookup_some.mp hl
      rw [Option.isSome_some, if_pos rfl, Model.exec_find_idle, hl]
      dsimp only
      by_cases hsend : order.send
      · rw [if_pos hsend, if_pos hsend, Model.exec_update_only_idle hrow orders_nodup (by decide)
          assign_send (Model.clash_of_unique_none rfl i _ _)]
        -- the food is looked up after the order was written, in a table that write left alone
        have hfood : foods.lookup (orders.table.set db ((orders.table.get db).modify i
            Order.cancelled)) (.int order.foodId) = foods.lookup db (.int order.foodId) := rfl
        rw [exec_restock, cancelled_foodId, cancelled_foodNumber, hfood]
        cases foods.lookup db (.int order.foodId) with
        | none => rfl
        | some y =>
            simp only
            cases (Value.int (y.2.remaining + order.foodNumber)).intColumn <;> rfl
      · rw [if_neg hsend, if_neg hsend]
        rfl

/-! ### Placing an order -/

/-- How many rows of the banned users' list belong to a user. -/
def records (db : Database) (user : Nat) : Nat :=
  (db.deprivateLists.filter fun _ r => r.userId == (user : Int)).length

/-- The ban check, or the exception that ends it. -/
def admission (db : Database) (user : Nat) (request : Request) : Except Exn Bool :=
  if records db user < 3 then .ok true
  else match (request.get .userId).key?.bind db.deprivateLists.row with
    | none => .error .nullProperty
    | some r => .ok (r.isFree != 0)

/-- What `store` checks first: the food the order is for, or the answer the request is
refused with. -/
def checked (db : Database) (request : Request) : Except (Except Exn Response) (Nat × Food) :=
  match foods.lookup db (request.get .foodId) with
  | none => .error (.ok (sendError "the food id not found" 400))
  | some (i, food) =>
      match failed db request.input (rules request food) with
      | [] => .ok (i, food)
      | errors => .error (.error (.validation errors))

/-- Everything `store` checks before it writes. -/
def verdict (db : Database) (user : Nat) (request : Request) :
    Except (Except Exn Response) (Nat × Food) :=
  match checked db request with
  | .error answer => .error answer
  | .ok x =>
      match admission db user request with
      | .ok true => .ok x
      | .ok false => .error (.ok (sendError banned 400))
      | .error e => .error (.error e)

/-- The ban check reads, inside the transaction, the state the transaction started in. -/
theorem exec_admitted (user : Nat) (request : Request) (k : Bool → Handler) (db : Database) :
    (admitted user request >>= k).exec db ⟨some db, [[]]⟩ =
      match admission db user request with
      | .ok b => (k b).exec db ⟨some db, [[]]⟩
      | .error e => ⟨db, ⟨some db, [[]]⟩, [], .error e⟩ := by
  have hcount : badRecords user = .select fun db => .ret (records db user) := rfl
  unfold admitted admission
  simp only [hcount, Prog.select_bind, Prog.ret_bind, Prog.exec_select, Conn.view_snap,
    applyAll_nil, Conn.looked_inside, Option.getD_some]
  by_cases hfew : records db user < 3
  · rw [if_pos hfew, if_pos hfew]
    rfl
  · rw [if_neg hfew, if_neg hfew]
    simp only [isFree, Prog.select_bind, Prog.exec_select, Conn.view_snap, applyAll_nil,
      Conn.looked_inside, Option.getD_some]
    rw [show deprivateLists.get db = db.deprivateLists from rfl]
    cases (request.get .userId).key?.bind db.deprivateLists.row <;> rfl

theorem store_eq (env : Env) (user : Nat) (request : Request) :
    store env user request = storeBody env user request :=
  tryCatchException_eq (by decide) _ _

/-- The statements of `store` up to the ban check only read. -/
theorem exec_storeBody (env : Env) (user : Nat) (request : Request) (db : Database) :
    (storeBody env user request).exec db .idle =
      match verdict db user request with
      | .error answer => ⟨db, ⟨some db, [[]]⟩, [], answer⟩
      | .ok (i, food) => (place env user request i food).exec db ⟨some db, [[]]⟩ := by
  unfold storeBody verdict checked
  simp only [beginTransaction, Prog.beginTransaction_bind, Prog.ret_bind,
    Prog.exec_beginTransaction, Conn.opened_idle, Model.whereGet, Prog.select_bind,
    Prog.exec_select, Conn.view_first, Conn.looked_inside, gt_iff_lt, length_hasKey,
    Option.getD_none]
  cases hl : foods.lookup db (request.get .foodId) with
  | none =>
      simp only [Option.isSome_none, Bool.false_eq_true, if_false]
      rfl
  | some x =>
      obtain ⟨i, food⟩ := x
      simp only [Option.isSome_some, if_true, Model.find_eq, Prog.select_bind, Prog.ret_bind,
        Prog.exec_select, Conn.view_snap, applyAll_nil, Conn.looked_inside, Option.getD_some, hl,
        Request.validate]
      cases hv : failed db request.input (rules request food) with
      | cons e es => rfl
      | nil =>
          simp only [Prog.ret_bind]
          rw [exec_admitted]
          cases admission db user request with
          | error answer => cases answer <;> rfl
          | ok b =>
              cases b with
              | false =>
                  simp only [Bool.false_eq_true, if_false]
                  rfl
              | true => simp only [if_true]

theorem checked_ok {db : Database} {request : Request} {i : Nat} {food : Food} :
    checked db request = .ok (i, food) ↔
      foods.lookup db (request.get .foodId) = some (i, food) ∧
      failed db request.input (rules request food) = [] := by
  unfold checked
  cases hl : foods.lookup db (request.get .foodId) with
  | none => simp
  | some x =>
      obtain ⟨j, row⟩ := x
      dsimp only
      constructor
      · intro h
        split at h
        · rename_i hvalid
          cases h
          exact ⟨rfl, hvalid⟩
        · cases h
      · rintro ⟨hx, hvalid⟩
        cases hx
        rw [hvalid]

/-- The checks pass when the food exists, the fields are valid and the user is admitted. -/
theorem verdict_ok {db : Database} {user : Nat} {request : Request} {i : Nat} {food : Food} :
    verdict db user request = .ok (i, food) ↔
      foods.lookup db (request.get .foodId) = some (i, food) ∧
      failed db request.input (rules request food) = [] ∧ admission db user request = .ok true := by
  rw [← and_assoc, ← checked_ok]
  unfold verdict
  cases checked db request with
  | error a => simp
  | ok x =>
      dsimp only
      constructor
      · intro h
        split at h
        · rename_i hallowed
          exact ⟨h, hallowed⟩
        · cases h
        · cases h
      · rintro ⟨hx, hallowed⟩
        rw [hallowed]
        exact hx

/-- A refusal is an error answer. -/
theorem isError_of_checked {db : Database} {request : Request} {a : Except Exn Response}
    (h : checked db request = .error a) : isError a = true := by
  unfold checked at h
  split at h
  · cases h
    rfl
  · split at h
    · cases h
    · cases h
      rfl

theorem isError_of_verdict {db : Database} {user : Nat} {request : Request}
    {a : Except Exn Response} (h : verdict db user request = .error a) : isError a = true := by
  unfold verdict at h
  split at h
  · rename_i hc
    cases h
    exact isError_of_checked hc
  · split at h
    · cases h
    · cases h
      rfl
    · cases h
      rfl

/-- What validation knows of the number ordered, if no field of the request bears the name of
the bound: it is numeric and in stock. -/
theorem number_of_valid {db : Database} {food : Food} {request : Request}
    (hbound : request.bound food.remaining = none)
    (h : failed db request.input (rules request food) = []) :
    ∃ x, (request.get .foodNumber).num? = some x ∧ x.le food.remaining = true := by
  have hfield : (Attr.foodNumber, [Rule.required, Rule.lte none food.remaining])
      ∈ rules request food := by
    simp [rules, hbound]
  have hlte : (Rule.lte none food.remaining).passes db (request.get .foodNumber) = true :=
    passes_of_required h hfield (by simp) (by simp)
  cases hx : (request.get .foodNumber).num? with
  | none => simp [Rule.lte, hx] at hlte
  | some x => exact ⟨x, rfl, by simpa [Rule.lte, hx] using hlte⟩

/-- The columns of a new order. -/
structure Drawn (env : Env) (user : Nat) (request : Request) (order : Order) : Prop where
  userId : (Value.int user).intColumn = some order.userId
  foodId : (request.get .foodId).intColumn = some order.foodId
  foodNumber : (request.get .foodNumber).intColumn = some order.foodNumber
  complete : order.complete = false
  send : order.send = true

theorem drawn_of_make {env : Env} {user : Nat} {request : Request} {order : Order}
    (h : orders.make (attributes env user request) = some order) : Drawn env user request order := by
  simp only [orders, Order.make, attributes, Option.bind_eq_bind, Option.bind_eq_some_iff,
    Option.some.injEq] at h
  obtain ⟨u, hu, f, hf, s, -, n, hn, p, -, c, hc, d, hd, rfl⟩ := h
  refine ⟨hu, hf, hn, ?_, ?_⟩
  · simp only [boolColumn, Value.intColumn, Option.map_some, Option.some.injEq] at hc
    rw [← hc]
    rfl
  · simp only [boolColumn, Value.intColumn, Option.map_some, Option.some.injEq] at hd
    rw [← hd]
    rfl

theorem lookup_natCast {ρ : Type} (M : Model ρ) (db : Database) (i : Nat) :
    M.lookup db (.int i) = ((M.table.get db).row i).map fun r => (i, r) := by
  unfold Model.lookup
  rw [key_int, if_pos (Int.natCast_nonneg i)]
  rfl

/-- The event is raised after the commit and looks the food up again. -/
theorem exec_newOrder {env : Env} {i id : Nat} {food : Food} {order : Order} (db : Database)
    (hrow : db.foods.row i = some food) (hfood : order.foodId = i) (response : Response) :
    ((newOrder env id order >>= fun _ => pure response).exec db .idle).result
      = (db, (announce env db food.restaurantId).map fun _ => response) := by
  unfold newOrder
  simp only [Model.find_eq, Prog.select_bind, Prog.ret_bind, Prog.exec_select, Conn.view_idle,
    Conn.looked_idle, hfood, lookup_natCast, foods_get, hrow, Option.map_some]
  rw [exec_dispatch]
  cases announce env db food.restaurantId <;> rfl

/-- What `store` does once every check has passed: fail at a column, with at most an
order key spent, or place the order and then try to announce it. -/
def placed (env : Env) (user : Nat) (request : Request) (i : Nat) (food : Food) (db : Database) :
    Database × Except Exn Response :=
  match orders.make (attributes env user request) with
  | none => (db, .error .query)
  | some order =>
      match (deducted env food (request.get .foodNumber)).intColumn with
      | none => ({ db with orders := db.orders.reserve.2 }, .error .query)
      | some n =>
          ({ db with
              orders := db.orders.insert order
              foods := db.foods.modify i (Food.stocked n) },
            (announce env db food.restaurantId).map fun _ =>
              json (.order db.orders.next order) 200)

theorem place_result {env : Env} {user : Nat} {request : Request} {i : Nat} {food : Food}
    {db : Database} (hl : foods.lookup db (request.get .foodId) = some (i, food)) :
    ((place env user request i food).exec db ⟨some db, [[]]⟩).result
      = placed env user request i food db := by
  obtain ⟨hkey, hrow⟩ := Model.lookup_some.mp hl
  unfold placed
  rw [place, Model.exec_create_inside rfl]
  cases hm : orders.make (attributes env user request) with
  | none => rfl
  | some order =>
      have hfood : order.foodId = i := Value.intColumn_of_key hkey (drawn_of_make hm).foodId
      cases hn : (deducted env food (request.get .foodNumber)).intColumn with
      | none =>
          dsimp only
          rw [Model.update_only_rejected foods_nodup (by decide)
            (by rw [assign_remaining, hn]; rfl)]
          rfl
      | some n =>
          dsimp only
          rw [Model.exec_update_only_inside rfl foods_nodup (f := Food.stocked n) (by decide)
            (by rw [assign_remaining, hn]; rfl)]
          simp only [commit, Prog.commit_bind, Prog.ret_bind, Prog.exec_commit,
            Conn.committed_inside]
          rw [Model.applyAll_buffered hrow]
          have hstocked : (db.foods.modify i (Food.stocked n)).row i = some (food.stocked n) := by
            rw [Table.modify_row, if_pos rfl, show db.foods.row i = some food from hrow]
            rfl
          exact exec_newOrder { db with
            orders := db.orders.insert order
            foods := db.foods.modify i (Food.stocked n) } hstocked hfood _

/-- **What `store` does.** -/
theorem store_result (env : Env) (user : Nat) (request : Request) (db : Database) :
    ((store env user request).serve db).result =
      match verdict db user request with
      | .error answer => (db, answer)
      | .ok (i, food) => placed env user request i food db := by
  rw [store_eq, Prog.serve, exec_storeBody]
  cases hv : verdict db user request with
  | error answer => rfl
  | ok x => exact place_result (verdict_ok.mp hv).1

end OrderController

/-! ### Foods -/

namespace FoodController

theorem store_eq (env : Env) (request : Request) : store env request = storeBody env request :=
  tryCatchException_eq (by decide) _ _

theorem update_eq (env : Env) (id : Value) (request : Request) :
    update env id request = (do
      match ← foods.find id with
      | none => raise .modelNotFound
      | some (i, food) => updateBody env request i food) := by
  unfold update
  refine congrArg _ (funext fun x => ?_)
  cases x with
  | none => rfl
  | some y => exact tryCatchException_eq (by decide) _ _

/-- An event of a food transaction sees the restaurants as they were before it. -/
theorem exec_foodAdded {A : Type} {env : Env} {id : Nat} {food : Food} {db s : Database}
    {ws : List (Database → Database)} (hws : (applyAll ws db).restaurants = db.restaurants)
    (k : Unit → Action A) :
    ((foodAdded env id food >>= k).exec s ⟨some db, [ws]⟩).result =
      match announce env db food.restaurantId with
      | .error e => (s, .error e)
      | .ok _ => ((k ()).exec s ⟨some db, [ws]⟩).result := by
  have hlook : restaurants.lookup (applyAll ws db) (.int food.restaurantId)
      = restaurants.lookup db (.int food.restaurantId) := by
    unfold Model.lookup
    rw [show restaurants.table.get (applyAll ws db) = restaurants.table.get db from hws]
  unfold foodAdded
  simp only [Model.find_eq, Prog.select_bind, Prog.ret_bind, Prog.exec_select,
    Conn.view_snap, Conn.looked_inside, Option.getD_some, hlook]
  exact exec_dispatch env db s _ food.restaurantId _ k

/-- **What `store` does.**  The key of a food that is not announced is spent. -/
theorem store_result (env : Env) (request : Request) (db : Database) :
    ((store env request).serve db).result =
      match failed db request.input (storeRules request) with
      | [] =>
          match foods.make (attributes request) with
          | none => (db, .error .query)
          | some food =>
              match announce env db food.restaurantId with
              | .error e => ({ db with foods := db.foods.reserve.2 }, .error e)
              | .ok _ =>
                  ({ db with foods := db.foods.insert food },
                    .ok (json (.food db.foods.next food) 200))
      | errors => (db, .error (.validation errors)) := by
  rw [store_eq, Prog.serve]
  unfold storeBody
  rw [exec_validated]
  cases hv : failed db request.input (storeRules request) with
  | cons e es => rfl
  | nil =>
      dsimp only
      rw [Model.exec_create_inside rfl]
      cases hm : foods.make (attributes request) with
      | none => rfl
      | some food =>
          dsimp only
          rw [exec_foodAdded rfl]
          cases announce env db food.restaurantId with
          | error e => rfl
          | ok _ => rfl

/-- The columns of a new food that later requests look at. -/
structure Drawn (request : Request) (food : Food) : Prop where
  name : (request.get .name).textColumn = some food.name
  remaining : (request.get .remaining).intColumn = some food.remaining
  restaurantId : (request.get .restaurantId).intColumn = some food.restaurantId

theorem drawn_of_make {request : Request} {food : Food}
    (h : foods.make (attributes request) = some food) : Drawn request food := by
  simp only [foods, Food.make, attributes, Option.bind_eq_bind, Option.bind_eq_some_iff,
    Option.some.injEq] at h
  obtain ⟨s, hs, n, hn, p, -, q, -, u, -, r, hr, rfl⟩ := h
  exact ⟨hs, hn, hr⟩

/-- What an update does to the food it addresses, or `none` if a column rejects it. -/
def changes (request : Request) (food : Food) : Option (Food → Food) := foods.changes request food

theorem image_mem : Attr.image ∈ foods.fillable := by decide

theorem imageChange_remaining {request : Request} {f : Food → Food}
    (hf : foods.imageChange request = some f) (food : Food) :
    (f food).remaining = food.remaining :=
  remaining_column.imageChange (by decide) hf food

/-- What an update does once the request is valid. -/
def updated (env : Env) (request : Request) (i : Nat) (food : Food) (db : Database) :
    Database × Except Exn Response :=
  match changes request food with
  | none => (db, .error .query)
  | some f =>
      match if raised request food.remaining then announce env db (f food).restaurantId
        else .ok () with
      | .error e => (db, .error e)
      | .ok _ =>
          ({ db with foods := db.foods.modify i f }, .ok (json (.food i (f food)) 200))

/-- **What `update` does.** -/
theorem update_result (env : Env) (id : Value) (request : Request) (db : Database) :
    ((update env id request).serve db).result =
      match foods.lookup db id with
      | none => (db, .error .modelNotFound)
      | some (i, food) =>
          match failed db request.input (updateRules i food) with
          | [] => updated env request i food db
          | errors => (db, .error (.validation errors)) := by
  rw [update_eq, Prog.serve, Model.exec_find_idle]
  cases hl : foods.lookup db id with
  | none => rfl
  | some x =>
      obtain ⟨i, food⟩ := x
      obtain ⟨-, hrow⟩ := Model.lookup_some.mp hl
      dsimp only
      unfold updateBody
      rw [exec_validated]
      cases hv : failed db request.input (updateRules i food) with
      | cons e es => rfl
      | nil =>
          dsimp only
          unfold updateImage
          rw [Model.exec_updateImage rfl foods_nodup image_mem]
          unfold updated changes Model.changes
          cases hf : foods.imageChange request with
          | none => rfl
          | some f =>
              dsimp only
              rw [Model.exec_update_inside rfl, imageChange_remaining hf]
              simp only [Option.bind_eq_bind, Option.bind_some]
              cases hg : foods.dirty (request.except .image) (f food) foods.fillable with
              | none => rfl
              | some g =>
                  have hbuf : applyAll (foods.buffered (foods.buffered [] i food f) i (f food) g) db
                      = { db with foods := db.foods.modify i (g ∘ f) } :=
                    Model.applyAll_twice hrow
                  dsimp only [Option.bind_some, Function.comp_apply]
                  by_cases hraised : raised request food.remaining
                  · rw [if_pos hraised, if_pos hraised, exec_foodAdded (by rw [hbuf])]
                    cases announce env db (g (f food)).restaurantId with
                    | error e => rfl
                    | ok _ =>
                        simp only [commit, Prog.commit_bind, Prog.ret_bind, Prog.exec_commit,
                          Conn.committed_inside, hbuf]
                        rfl
                  · rw [if_neg hraised, if_neg hraised]
                    simp only [commit, Prog.commit_bind, Prog.ret_bind, Prog.exec_commit,
                      Conn.committed_inside, hbuf]
                    rfl

end FoodController

end Spoiler
