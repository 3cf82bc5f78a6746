/-
The stock handlers as the statements they issue.

`store` and `update` open a transaction, and from their first `SELECT` on they see a
snapshot: what they go on to write is a function of it.  `cancel` runs outside a
transaction and reads the shared state at each of its statements, so its parts are
spelled out one by one.
-/
import Spoiler.Proofs.Orders
import Spoiler.Store.Pool

namespace Spoiler

open Store Php

variable {ρ A : Type}

/-! ### Calls inside a transaction -/

section Inner

variable {M : Model ρ} [DecidableEq ρ] {snap : Database} {ws : List (Database → Database)}

theorem Model.inner_update (hu : M.unique = none) (i : Nat) (row : ρ) (attributes : Attributes)
    (k : ρ → Action A) :
    (M.update i row attributes >>= k).inner snap ws =
      match M.dirty attributes row M.fillable with
      | none => .stops
      | some f => (k (f row)).inner snap (M.buffered ws i row f) := by
  unfold update buffered
  cases M.dirty attributes row M.fillable with
  | none => rfl
  | some f =>
      simp only
      by_cases hclean : f row = row
      · rw [if_pos hclean, if_pos hclean, hclean]
        rfl
      · rw [if_neg hclean, if_neg hclean, hu]
        rfl

theorem Model.inner_update_only (hu : M.unique = none) (hnodup : M.fillable.Nodup) (i : Nat)
    (row : ρ) {a : Attr} (v : Value) (ha : a ∈ M.fillable) (k : ρ → Action A) :
    (M.update i row (.only a v) >>= k).inner snap ws =
      match M.assign a v with
      | none => .stops
      | some f => (k (f row)).inner snap (M.buffered ws i row f) := by
  rw [inner_update hu, dirty_only hnodup ha]
  cases M.assign a v with
  | none => rfl
  | some f =>
      simp only [Option.map_some, buffered]
      by_cases hclean : f row = row
      · rw [if_pos hclean, if_pos hclean, id_eq, if_pos rfl, hclean]
      · rw [if_neg hclean]

theorem Model.inner_updateImage (hu : M.unique = none) (hnodup : M.fillable.Nodup)
    (himage : .image ∈ M.fillable) (request : Request) (i : Nat) (row : ρ) (k : ρ → Action A) :
    (M.updateImage request i row >>= k).inner snap [] =
      match M.imageChange request with
      | none => .stops
      | some f => (k (f row)).inner snap (M.buffered [] i row f) := by
  unfold updateImage imageChange
  cases request.fileUrl .image with
  | none =>
      dsimp only
      rw [Model.buffered_id]
      rfl
  | some url => exact Model.inner_update_only hu hnodup i row (.str url) himage k

end Inner

theorem inner_foodAdded {env : Env} {id : Nat} {food : Food} {snap : Database}
    {ws : List (Database → Database)} (hws : (applyAll ws snap).restaurants = snap.restaurants)
    (k : Unit → Action A) :
    (foodAdded env id food >>= k).inner snap ws =
      match announce env snap food.restaurantId with
      | .error _ => .stops
      | .ok _ => (k ()).inner snap ws := by
  have hlook : restaurants.lookup (applyAll ws snap) (.int food.restaurantId)
      = restaurants.lookup snap (.int food.restaurantId) := by
    unfold Model.lookup
    rw [show restaurants.table.get (applyAll ws snap) = restaurants.table.get snap from hws]
  unfold foodAdded announce
  simp only [Model.find_eq, Prog.select_bind, Prog.ret_bind, Prog.inner_select, hlook]
  cases restaurants.lookup snap (.int food.restaurantId) with
  | none => rfl
  | some r =>
      simp only [dispatch]
      by_cases hb : env.broadcasts
      · rw [if_pos hb, if_pos hb]
        rfl
      · rw [if_neg hb, if_neg hb]
        rfl

/-! ### Placing an order -/

namespace OrderController

/-- What is left of `store` after its commit only reads. -/
theorem quiet_newOrder (env : Env) (id : Nat) (order : Order) (response : Response) :
    (newOrder env id order >>= fun _ => pure response : Handler).Quiet := by
  unfold newOrder
  simp only [Model.find_eq, Prog.select_bind, Prog.ret_bind]
  intro db
  dsimp only
  cases foods.lookup db (.int order.foodId) with
  | none => trivial
  | some x =>
      intro db'
      dsimp only
      cases restaurants.lookup db' (.int x.2.restaurantId) with
      | none => trivial
      | some r =>
          simp only [dispatch]
          by_cases hb : env.broadcasts
          · rw [if_pos hb]
            trivial
          · rw [if_neg hb]
            trivial

theorem inner_admitted (user : Nat) (request : Request) (k : Bool → Handler) (snap : Database) :
    (admitted user request >>= k).inner snap [] =
      match admission snap user request with
      | .ok b => (k b).inner snap []
      | .error _ => .stops := by
  have hcount : badRecords user = .select fun db => .ret (records db user) := rfl
  unfold admitted admission
  simp only [hcount, Prog.select_bind, Prog.ret_bind, Prog.inner_select_nil]
  by_cases hfew : records snap user < 3
  · rw [if_pos hfew, if_pos hfew]
    rfl
  · rw [if_neg hfew, if_neg hfew]
    simp only [isFree, Prog.select_bind, Prog.inner_select_nil]
    rw [show deprivateLists.get snap = snap.deprivateLists from rfl]
    cases (request.get .userId).key?.bind snap.deprivateLists.row <;> rfl

/-- `store` opens a transaction and reads; the snapshot decides how it goes on. -/
theorem store_inner (env : Env) (user : Nat) (request : Request) :
    ∃ k, store env user request = .beginTransaction (.select k) ∧ ∀ snap,
      (k snap).inner snap [] =
        match verdict snap user request with
        | .error _ => .stops
        | .ok (i, food) => (place env user request i food).inner snap [] := by
  rw [store_eq]
  unfold storeBody
  simp only [beginTransaction, Prog.beginTransaction_bind, Prog.ret_bind, Model.whereGet,
    Prog.select_bind, gt_iff_lt, length_hasKey]
  refine ⟨_, rfl, fun snap => ?_⟩
  unfold verdict checked
  cases hl : foods.lookup snap (request.get .foodId) with
  | none =>
      simp only [Option.isSome_none, Bool.false_eq_true, if_false]
      rfl
  | some x =>
      obtain ⟨i, food⟩ := x
      simp only [Option.isSome_some, if_true, Model.find_eq, Prog.select_bind, Prog.ret_bind,
        Prog.inner_select_nil, hl, Request.validate]
      cases hv : failed snap request.input (rules request food) with
      | cons e es => rfl
      | nil =>
          simp only [Prog.ret_bind]
          rw [inner_admitted]
          cases admission snap user request with
          | error answer => rfl
          | ok b => cases b <;> rfl

/-- The key of a new order is taken at once. -/
def reserveOrder (s : Database) : Nat × Database :=
  (s.orders.next, { s with orders := s.orders.reserve.2 })

/-- The row of a new order is written with the commit. -/
def putOrder (order : Order) (k : Nat) (s : Database) : Database :=
  { s with orders := s.orders.put k order }

/-- What is left of `store` once the order has its key. -/
def placeRest (env : Env) (request : Request) (i : Nat) (food : Food) (order : Order) (id : Nat) :
    Handler := do
  let _ ← foods.update i food (.only .remaining (deducted env food (request.get .foodNumber)))
  commit
  newOrder env id order
  return json (.order id order) 200

theorem place_inner (env : Env) (user : Nat) (request : Request) (i : Nat) (food : Food)
    (snap : Database) :
    (place env user request i food).inner snap [] =
      match orders.make (attributes env user request) with
      | none => .stops
      | some order => .inserts [] reserveOrder (fun k => putOrder order k)
          (placeRest env request i food order) := by
  unfold place Model.create
  cases orders.make (attributes env user request) with
  | none => rfl
  | some order => rfl

theorem placeRest_inner (env : Env) (request : Request) (i : Nat) (food : Food) (order : Order)
    (id : Nat) (snap : Database) (ws : List (Database → Database)) :
    (placeRest env request i food order id).inner snap ws =
      match (deducted env food (request.get .foodNumber)).intColumn with
      | none => .stops
      | some n => .commits (foods.buffered ws i food (Food.stocked n))
          (newOrder env id order >>= fun _ => pure (json (.order id order) 200)) := by
  unfold placeRest
  rw [Model.inner_update_only rfl foods_nodup i food _ (by decide), assign_remaining]
  cases (deducted env food (request.get .foodNumber)).intColumn <;> rfl

/-! ### Cancelling -/

/-- What is left of `cancel` once the stock has been given back. -/
def cancelDone (k : Nat) (order : Order) : Handler := .ret (json (.order k order.cancelled) 200)

/-- What is left once the food of the order is known. -/
def cancelPay (k : Nat) (order : Order) (f : Nat) (n : Int) : Handler :=
  .update (fun s => { s with foods := s.foods.modify f (Food.stocked n) }) (cancelDone k order)

/-- What is left once the order has been written. -/
def cancelRestock (k : Nat) (order : Order) : Handler :=
  .select fun db => match foods.lookup db (.int order.foodId) with
    | none => .raise .nullCall
    | some (f, food) =>
        match (Value.int (food.remaining + order.foodNumber)).intColumn with
        | none => .raise .query
        | some n => if n = food.remaining then cancelDone k order else cancelPay k order f n

/-- What is left once the order is loaded, and sent. -/
def cancelWrite (k : Nat) (order : Order) : Handler :=
  .update (fun s => { s with orders := s.orders.modify k Order.cancelled }) (cancelRestock k order)

/-- What is left once the order is known to exist. -/
def cancelFind (id : Value) : Handler :=
  .select fun db => match orders.lookup db id with
    | none => .raise .nullProperty
    | some (k, order) =>
        if order.send then cancelWrite k order
        else .ret (json (.text "the order has been canceled") 400)

theorem stocked_eq_self {food : Food} {n : Int} : food.stocked n = food ↔ n = food.remaining := by
  constructor
  · intro h
    exact congrArg Food.remaining h
  · rintro rfl
    rfl

theorem restock_parts (k : Nat) (order : Order) :
    (restock order.cancelled >>= fun _ => pure (json (.order k order.cancelled) 200) : Handler)
      = cancelRestock k order := by
  unfold restock cancelRestock
  simp only [Model.find_eq, Prog.select_bind, Prog.ret_bind, cancelled_foodId,
    cancelled_foodNumber]
  refine congrArg _ (funext fun db => ?_)
  cases foods.lookup db (.int order.foodId) with
  | none => rfl
  | some x =>
      obtain ⟨f, food⟩ := x
      dsimp only
      unfold Model.update
      rw [Model.dirty_only foods_nodup (by decide), assign_remaining]
      cases (Value.int (food.remaining + order.foodNumber)).intColumn with
      | none => rfl
      | some n =>
          simp only [Option.map_some]
          by_cases hn : n = food.remaining
          · have hclean : food.stocked n = food := stocked_eq_self.mpr hn
            rw [if_pos hclean, if_pos hn, if_pos (id_eq food)]
            rfl
          · have hdirty : ¬ food.stocked n = food := fun h => hn (stocked_eq_self.mp h)
            rw [if_neg hdirty, if_neg hn, if_neg hdirty]
            rfl

theorem cancel_parts (id : Value) :
    cancel id = .select fun db =>
      if (orders.lookup db id).isSome then cancelFind id
      else .ret (json (.text "the given order id not found") 400) := by
  unfold cancel
  simp only [Model.whereGet, Prog.select_bind, Prog.ret_bind, gt_iff_lt, length_hasKey,
    Model.find_eq]
  refine congrArg _ (funext fun db => ?_)
  by_cases hsome : (orders.lookup db id).isSome = true
  · rw [if_pos hsome, if_pos hsome]
    refine congrArg _ (funext fun db' => ?_)
    cases orders.lookup db' id with
    | none => rfl
    | some x =>
        obtain ⟨k, order⟩ := x
        dsimp only
        by_cases hsend : order.send = true
        · rw [if_pos hsend, if_pos hsend]
          have hdirty : ¬ order.cancelled = order := fun h => by
            have hfalse := congrArg Order.send h
            rw [hsend] at hfalse
            cases hfalse
          unfold Model.update cancelWrite
          rw [Model.dirty_only orders_nodup (by decide), assign_send]
          simp only [Option.map_some, if_neg hdirty]
          rw [← restock_parts]
          rfl
        · rw [if_neg hsend, if_neg hsend]
          rfl
  · rw [if_neg hsome, if_neg hsome]
    rfl

end OrderController

/-! ### Updating a food -/

namespace FoodController

/-- The writes an update commits: one for the image and one for the rest, if they change
anything. -/
def updateWrites (i : Nat) (food : Food) (f g : Food → Food) : List (Database → Database) :=
  foods.buffered (foods.buffered [] i food f) i (f food) g

theorem restaurants_buffered {ws : List (Database → Database)} {i : Nat} {food : Food}
    {f : Food → Food} {s : Database} :
    (applyAll (foods.buffered ws i food f) s).restaurants = (applyAll ws s).restaurants := by
  unfold Model.buffered
  by_cases hclean : f food = food
  · rw [if_pos hclean]
  · rw [if_neg hclean, applyAll_append]
    rfl

theorem update_parts (env : Env) (id : Value) (request : Request) :
    update env id request = .select fun db =>
      match foods.lookup db id with
      | none => .raise .modelNotFound
      | some (i, food) => updateBody env request i food := by
  rw [update_eq]
  rfl

/-- Its first statement looks the food up. -/
theorem update_step (env : Env) (id : Value) (request : Request) (db : Database) :
    (update env id request).step db .idle = some (match foods.lookup db id with
      | none => .raise .modelNotFound
      | some (i, food) => updateBody env request i food, db, .idle) := by
  rw [update_parts]
  rfl

/-- An update opens a transaction and validates; the snapshot decides how it goes on. -/
theorem updateBody_inner (env : Env) (request : Request) (i : Nat) (food : Food) :
    ∃ k, updateBody env request i food = .beginTransaction (.select k) ∧ ∀ snap,
      (k snap).inner snap [] =
        match failed snap request.input (updateRules i food) with
        | [] =>
            match foods.imageChange request with
            | none => .stops
            | some f =>
                match foods.dirty (request.except .image) (f food) foods.fillable with
                | none => .stops
                | some g =>
                    match if raised request food.remaining
                      then announce env snap (g (f food)).restaurantId else .ok () with
                    | .error _ => .stops
                    | .ok _ => .commits (updateWrites i food f g)
                        (.ret (json (.food i (g (f food))) 200))
        | _ => .stops := by
  unfold updateBody
  simp only [beginTransaction, Prog.beginTransaction_bind, Prog.ret_bind, Request.validate,
    Prog.select_bind]
  refine ⟨_, rfl, fun snap => ?_⟩
  cases failed snap request.input (updateRules i food) with
  | cons e es => rfl
  | nil =>
      simp only [Prog.ret_bind]
      unfold updateImage
      rw [Model.inner_updateImage rfl foods_nodup image_mem]
      cases hf : foods.imageChange request with
      | none => rfl
      | some f =>
          dsimp only
          rw [Model.inner_update rfl, imageChange_remaining hf]
          cases hg : foods.dirty (request.except .image) (f food) foods.fillable with
          | none => rfl
          | some g =>
              dsimp only
              have hrest : (applyAll (updateWrites i food f g) snap).restaurants
                  = snap.restaurants := by
                unfold updateWrites
                rw [restaurants_buffered, restaurants_buffered]
                rfl
              by_cases hraised : raised request food.remaining
              · rw [if_pos hraised, if_pos hraised]
                refine (inner_foodAdded hrest _).trans ?_
                cases announce env snap (g (f food)).restaurantId <;> rfl
              · rw [if_neg hraised, if_neg hraised]
                rfl

end FoodController

end Spoiler
