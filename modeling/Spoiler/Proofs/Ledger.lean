/-
The stock ledger.

For one food the ledger compares what the owners put in with where it went.  In
come the stock the food is created with and, for each owner update that carries
`remaining`, the difference it makes; out go the portions of the orders that stand.
`balance` is what is left plus what is ordered, and each move changes it by exactly
what an owner supplies in that step.

The ledger needs one fact about the tables besides: an order's food exists.  Without
it, cancelling an order could take its portions out of the sum and put them nowhere.
-/
import Spoiler.App.Sample
import Spoiler.Proofs.Stock
import Spoiler.Store.Run

namespace Spoiler

open Store Php

/-! ### The two sides -/

/-- What is left of a food. -/
def left (t : Table Food) (f : Nat) : Int := ((t.row f).map Food.remaining).getD 0

/-- The portions of food `f` an order takes while it stands. -/
def portion (f : Nat) (order : Order) : Int :=
  if order.foodId = f ∧ order.send = true then order.foodNumber else 0

/-- The portions of a food that stand ordered. -/
def ordered (t : Table Order) (f : Nat) : Int := t.sum fun _ order => portion f order

def balance (f : Nat) (db : Database) : Int := left db.foods f + ordered db.orders f

/-- The stock a request creates food `f` with. -/
def created (L : Laravel) (f : Nat) (db : Database) (step : Step) : Int :=
  match step.call with
  | .foodStore request =>
      if isError (answer L db step) = false ∧ db.foods.next = f then
        (request.get .remaining).intColumn.getD 0
      else 0
  | _ => 0

/-- What an owner's update of food `f` adds to the stock just before it. -/
def supplied (L : Laravel) (f : Nat) (db : Database) (step : Step) : Int :=
  match step.call with
  | .foodUpdate id request =>
      match request.input .remaining with
      | some v =>
          if isError (answer L db step) = false ∧ id.key? = some f then
            v.intColumn.getD 0 - left db.foods f
          else 0
      | none => 0
  | _ => 0

/-- The number a request orders, if it is one, is whole. -/
def Call.ordersWhole : Call → Bool
  | orderStore _ request => ((request.get .foodNumber).num?.map Num.isInt).getD true
  | _ => true

/-- Every order is for a food there is. -/
def Grounded (db : Database) : Prop :=
  ∀ i order, db.orders.row i = some order →
    ∃ (f : Nat) (food : Food), order.foodId = f ∧ db.foods.row f = some food

/-! ### The two sides under a write -/

section Sides

variable {t : Table Food} {u : Table Order} {i f : Nat} {food : Food} {order : Order}

theorem left_of_row (h : t.row f = some food) : left t f = food.remaining := by
  simp [left, h]

theorem left_modify (h : t.row i = some food) (g : Food → Food) : left (t.modify i g) f
    = left t f + if f = i then (g food).remaining - food.remaining else 0 := by
  by_cases hf : f = i
  · subst hf
    simp [left, h]
  · simp [left, hf]

theorem left_insert :
    left (t.insert food) f = left t f + if f = t.next then food.remaining else 0 := by
  by_cases hf : f = t.next
  · subst hf
    simp [left]
  · simp [left, hf]

theorem ordered_insert : ordered (u.insert order) f = ordered u f + portion f order :=
  Table.sum_insert _

theorem ordered_modify (h : u.row i = some order) (g : Order → Order) :
    ordered (u.modify i g) f = ordered u f + portion f (g order) - portion f order :=
  Table.sum_modify h

theorem portion_completed (order : Order) : portion f order.completed = portion f order := rfl

theorem portion_cancelled (order : Order) : portion f order.cancelled = 0 := by
  simp [portion, Order.cancelled]

theorem portion_of_send (hsend : order.send = true) (hid : order.foodId = i) :
    portion f order = if f = i then order.foodNumber else 0 := by
  unfold portion
  by_cases hf : f = i
  · rw [if_pos hf, if_pos ⟨by rw [hid, hf], hsend⟩]
  · rw [if_neg hf, if_neg fun hand => hf (by rw [hid] at hand; omega)]

end Sides

/-- A stored id that selects a key is that key. -/
theorem foodId_of_key {n : Int} {k : Nat} (h : (Value.int n).key? = some k) : n = k := by
  rw [key_int] at h
  split at h
  · cases h
    omega
  · cases h

theorem intColumn_int {m n : Int} (h : (Value.int m).intColumn = some n) : n = m := by
  rw [Value.intColumn_some rfl h]
  exact Num.round_ofInt m

/-! ### One step -/

/-- An order's food stays, and a new order is for a food that was found. -/
theorem grounded_of_moves {db db' : Database} {step : Step} {a : Except Exn Response}
    (hmoves : Moves db step (db', a)) (h : Grounded db) : Grounded db' := by
  intro i order hrow
  cases hmoves with
  | still horders hfoods herror =>
      rw [horders] at hrow
      rw [hfoods]
      exact h i order hrow
  | @placed env user request j food new n hv hm hn =>
      obtain ⟨hkey, hfood⟩ := lookup_food (OrderController.verdict_ok.mp hv).1
      rcases Table.insert_row_some.mp hrow with ⟨-, rfl⟩ | hold
      · refine ⟨j, food.stocked n, ?_, ?_⟩
        · exact Value.intColumn_of_key hkey (OrderController.drawn_of_make hm).foodId
        · exact Table.modify_row_some.mpr (.inr ⟨rfl, food, hfood, rfl⟩)
      · obtain ⟨f, g, hf, hg⟩ := h i order hold
        obtain ⟨g', hg'⟩ := Table.exists_modify (i := j) (f := Food.stocked n) hg
        exact ⟨f, g', hf, hg'⟩
  | completed hl hsend =>
      rcases Table.modify_row_some.mp hrow with ⟨-, hold⟩ | ⟨rfl, old, hold, rfl⟩
      · exact h i order hold
      · exact h i old hold
  | stranded hl hsend hfail =>
      rcases Table.modify_row_some.mp hrow with ⟨-, hold⟩ | ⟨rfl, old, hold, rfl⟩
      · exact h i order hold
      · exact h i old hold
  | @returned env id j new k food n hl hsend hf hn =>
      have hfrom : ∃ old, db.orders.row i = some old ∧ order.foodId = old.foodId := by
        rcases Table.modify_row_some.mp hrow with ⟨-, hold⟩ | ⟨rfl, old, hold, rfl⟩
        · exact ⟨order, hold, rfl⟩
        · exact ⟨old, hold, rfl⟩
      obtain ⟨old, hold, hid⟩ := hfrom
      obtain ⟨f, g, hfid, hg⟩ := h i old hold
      obtain ⟨g', hg'⟩ := Table.exists_modify (i := k) (f := Food.stocked n) hg
      exact ⟨f, g', by rw [hid, hfid], hg'⟩
  | added hvalid hm =>
      obtain ⟨f, g, hf, hg⟩ := h i order hrow
      exact ⟨f, g, hf, Table.insert_row_some.mpr (.inr hg)⟩
  | @changed env id request j food k hl hvalid hf =>
      obtain ⟨f, g, hfid, hg⟩ := h i order hrow
      obtain ⟨g', hg'⟩ := Table.exists_modify (i := j) (f := k) hg
      exact ⟨f, g', hfid, hg'⟩

theorem created_of_error {L : Laravel} {f : Nat} {db : Database} {step : Step}
    (h : isError (answer L db step) = true) : created L f db step = 0 := by
  unfold created
  split
  · rw [if_neg (by simp [h])]
  · rfl

theorem supplied_of_error {L : Laravel} {f : Nat} {db : Database} {step : Step}
    (h : isError (answer L db step) = true) : supplied L f db step = 0 := by
  unfold supplied
  split
  · split
    · rw [if_neg (by simp [h])]
    · rfl
  · rfl

theorem deducted_num {env : Env} {food : Food} {v : Value} {x : Php.Num} (hx : v.num? = some x) :
    OrderController.deducted env food v = .dec (env.minus.sub food.remaining x) := by
  cases v <;> simp_all [OrderController.deducted, Value.num?]

/-- The stock `store` writes. -/
theorem deducted_round {env : Env} {food : Food} {v : Value} {x : Php.Num} {n : Int}
    (hx : v.num? = some x) (hn : (OrderController.deducted env food v).intColumn = some n) :
    n = (env.minus.sub food.remaining x).round := by
  rw [deducted_num hx] at hn
  exact Value.intColumn_some rfl hn

/-- It is what was left less the portions it records, if these are whole. -/
theorem deducted_eq {env : Env} {user : Nat} {request : Request} {food : Food} {order : Order}
    {n : Int} (hm : orders.make (OrderController.attributes env user request) = some order)
    (hn : (OrderController.deducted env food (request.get .foodNumber)).intColumn = some n)
    (hwhole : (Call.orderStore user request).ordersWhole = true) :
    n = food.remaining - order.foodNumber := by
  have hnumber := (OrderController.drawn_of_make hm).foodNumber
  simp only [Call.ordersWhole] at hwhole
  generalize request.get .foodNumber = v at hn hnumber hwhole
  cases hx : v.num? with
  | some x =>
      have hint : x.isInt = true := by simpa [hx] using hwhole
      rw [deducted_round hx hn, env.minus.whole _ _ hint, Num.round_subFrom hint,
        Value.intColumn_some hx hnumber]
  | none =>
      -- of what is not a number, the column takes a boolean
      cases v with
      | bool b =>
          have hflag : (if b then 1 else 0) = order.foodNumber := Option.some.inj hnumber
          rw [intColumn_int hn, hflag]
      | _ => simp [Value.intColumn, hx] at hnumber

/-- **Each step moves the balance of a food by what an owner supplies in it.** -/
theorem balance_step {L : Laravel} {f : Nat} {db : Database} {step : Step}
    (hstock : step.call.isOrder = true ∨ step.call.isFood = true)
    (hwhole : step.call.ordersWhole = true)
    (hwrite : isRejected (answer L db step) = false) (h : Grounded db) :
    balance f (serve L db step)
      = balance f db + (created L f db step + supplied L f db step) := by
  have hmoves := moves L db step hstock
  generalize hs : serve L db step = db' at hmoves ⊢
  generalize ha : answer L db step = a at hmoves hwrite
  unfold balance
  cases hmoves with
  | still horders hfoods herror =>
      rw [← ha] at herror
      rw [created_of_error herror, supplied_of_error herror]
      unfold left ordered
      rw [hfoods, Table.sum_congr_row horders]
      omega
  | @placed env user request i food order n hv hm hn =>
      obtain ⟨hkey, hfood⟩ := lookup_food (OrderController.verdict_ok.mp hv).1
      have hdrawn := OrderController.drawn_of_make hm
      have hid : order.foodId = i := Value.intColumn_of_key hkey hdrawn.foodId
      have hn' : n = food.remaining - order.foodNumber := deducted_eq hm hn hwhole
      show left (db.foods.modify i (Food.stocked n)) f + ordered (db.orders.insert order) f = _
      rw [ordered_insert, left_modify hfood, portion_of_send hdrawn.send hid]
      simp only [created, supplied, Food.stocked]
      split <;> omega
  | @completed env id i order hl hsend =>
      obtain ⟨-, hrow⟩ := lookup_order hl
      show left db.foods f + ordered (db.orders.modify i Order.completed) f = _
      rw [ordered_modify hrow, portion_completed]
      simp only [created, supplied]
      omega
  | @stranded env id i order e hl hsend hfail =>
      obtain ⟨-, hrow⟩ := lookup_order hl
      obtain ⟨k, food, hid, hfood⟩ := h i order hrow
      rcases hfail with ⟨hnone, -⟩ | ⟨-, -, -, -, rfl⟩
      · rw [hid, OrderController.lookup_natCast, foods_get, hfood] at hnone
        cases hnone
      · cases hwrite
  | @returned env id i order k food n hl hsend hf hn =>
      obtain ⟨-, hrow⟩ := lookup_order hl
      obtain ⟨hkey, hfood⟩ := lookup_food hf
      have hid : order.foodId = k := foodId_of_key hkey
      have hn' : n = food.remaining + order.foodNumber := intColumn_int hn
      show left (db.foods.modify k (Food.stocked n)) f
        + ordered (db.orders.modify i Order.cancelled) f = _
      rw [ordered_modify hrow, left_modify hfood, portion_cancelled, portion_of_send hsend hid]
      simp only [created, supplied, Food.stocked]
      split <;> omega
  | @added env request food hvalid hm =>
      have hdrawn := FoodController.drawn_of_make hm
      show left (db.foods.insert food) f + ordered db.orders f = _
      rw [left_insert]
      have haccept : isError (answer L db ⟨env, .foodStore request⟩) = false := by
        rw [ha]
        rfl
      simp only [created, supplied, haccept, hdrawn.remaining, true_and, Option.getD_some,
        eq_comm (a := f)]
      omega
  | @changed env id request i food k hl hvalid hf =>
      obtain ⟨hkey, hfood⟩ := lookup_food hl
      have haccept : isError (answer L db ⟨env, .foodUpdate id request⟩) = false := by
        rw [ha]
        rfl
      show left (db.foods.modify i k) f + ordered db.orders f = _
      rw [left_modify hfood]
      simp only [created, supplied, haccept, hkey, true_and, Option.some.injEq, eq_comm (a := f)]
      rcases remaining_column.changes (by decide) hf with
        ⟨hnone, hsame⟩ | ⟨v, x, hv, hx, hset⟩
      · simp only [hnone, hsame]
        omega
      · simp only [hv, hx, Option.getD_some, hset]
        by_cases hfi : i = f
        · rw [if_pos hfi, if_pos hfi, ← hfi, left_of_row hfood]
          omega
        · rw [if_neg hfi, if_neg hfi]
          omega

/-! ### Runs -/

/-- The steps the ledger covers: stock requests that order whole portions and whose
writes the database takes. -/
def Covered (L : Laravel) (db : Database) (step : Step) : Prop :=
  (step.call.isOrder = true ∨ step.call.isFood = true) ∧ step.call.ordersWhole = true ∧
    isRejected (answer L db step) = false

instance (L : Laravel) (db : Database) (step : Step) : Decidable (Covered L db step) :=
  inferInstanceAs (Decidable (_ ∧ _ ∧ _))

/-- **The stock ledger.**  Whatever is served, what is left of a food plus what stands
ordered of it is the stock it was created with plus what the owners' updates added. -/
theorem stock_ledger (L : Laravel) (db : Database) (run : List Step)
    (horders : ∀ i, db.orders.row i = none) (hfoods : ∀ i, db.foods.row i = none)
    (hrun : Along (serve L) (Covered L) db run) (f : Nat) (food : Food)
    (hf : (after (serve L) db run).foods.row f = some food) :
    food.remaining + (after (serve L) db run).orders.sum (fun _ order => portion f order)
      = tally (serve L) (created L f) db run + tally (serve L) (supplied L f) db run := by
  have hground : Grounded db := by
    intro i order hrow
    rw [horders i] at hrow
    cases hrow
  have hstart : balance f db = 0 := by
    have hempty : ordered db.orders f = 0 := by
      unfold ordered
      rw [Table.sum_congr_row (u := Table.empty) (funext horders), Table.sum_empty]
    simp [balance, left, hfoods f, hempty]
  have htally := after_tally (m := balance f)
    (w := fun db step => created L f db step + supplied L f db step)
    (fun s r hs hc => grounded_of_moves (moves L s r hc.1) hs)
    (fun s r hs hc => balance_step hc.1 hc.2.1 hc.2.2 hs) hground hrun
  rw [hstart, tally_add] at htally
  have hleft : left (after (serve L) db run).foods f = food.remaining := left_of_row hf
  unfold balance at htally
  rw [hleft] at htally
  unfold ordered at htally
  omega

/-- A food is stocked up while orders for it are placed, completed and cancelled. -/
theorem stock_ledger_run :
    let run := [Sample.newFood "bread" 5 1, Sample.newOrder 1 1 2, Sample.newOrder 2 1 (-1),
      Sample.complete 1, Sample.editFood 1 [(.remaining, .int 9)], Sample.cancel 2, Sample.cancel 2]
    ((after (serve Sample.laravel) Sample.database run).foods.row 1).map Food.remaining = some 8 ∧
      8 + (after (serve Sample.laravel) Sample.database run).orders.sum
          (fun _ order => portion 1 order)
        = tally (serve Sample.laravel) (created Sample.laravel 1) Sample.database run
          + tally (serve Sample.laravel) (supplied Sample.laravel 1) Sample.database run :=
  ⟨by decide +kernel,
    stock_ledger Sample.laravel Sample.database _ (fun _ => rfl) (fun _ => rfl) (by decide +kernel)
      1 ⟨"bread", 8, 100, 50, none, 1⟩ (by decide +kernel)⟩

/-! ### Portions that are not whole

`store` takes any number up to what is left.  The order records it rounded and the food keeps
the rest of it rounded, and each of the two is rounded on its own. -/

/-- A stored order has passed the checks, and its food keeps the rest. -/
theorem stored_order {L : Laravel} {db : Database} {env : Env} {user : Nat} {request : Request}
    {order : Order}
    (h : (serve L db ⟨env, .orderStore user request⟩).orders.row db.orders.next = some order) :
    ∃ i food n, OrderController.verdict db user request = .ok (i, food) ∧
      orders.make (OrderController.attributes env user request) = some order ∧
      (OrderController.deducted env food (request.get .foodNumber)).intColumn = some n ∧
      (serve L db ⟨env, .orderStore user request⟩).foods.row i = some (food.stocked n) := by
  have hmoves := moves L db ⟨env, .orderStore user request⟩ (.inl rfl)
  generalize serve L db ⟨env, .orderStore user request⟩ = db' at hmoves h ⊢
  generalize answer L db ⟨env, .orderStore user request⟩ = a at hmoves
  cases hmoves with
  | still horders hfoods herror =>
      rw [horders, Table.row_next] at h
      cases h
  | @placed _ _ _ i food new n hv hm hn =>
      have hnew : (db.orders.insert new).row db.orders.next = some order := h
      rw [(db.orders.insert_sets new).here] at hnew
      cases hnew
      obtain ⟨-, hrow⟩ := lookup_food (OrderController.verdict_ok.mp hv).1
      exact ⟨i, food, n, hv, hm, hn, (Table.modify_sets hrow).here⟩

/-- A number a column has taken is of the column's size. -/
theorem abs_val_of_intColumn {v : Value} {x : Php.Num} {n : Int} (hx : v.num? = some x)
    (hn : v.intColumn = some n) : |x.val| ≤ 2 ^ 32 := by
  have hround : x.round = n := (Value.intColumn_some hx hn).symm
  have hfits := Value.abs_le_of_isInt32 (Value.isInt32_of_intColumn hn)
  have hsize : |(n : ℚ)| ≤ 2 ^ 31 := by exact_mod_cast hfits
  have hnear := x.abs_val_sub_round
  rw [hround] at hnear
  rw [abs_le] at hsize hnear ⊢
  constructor <;> linarith

/-- What the order records and what a step leaves of its food add up to what there was. -/
def AddsUp (L : Laravel) (db : Database) (step : Step) (i : Nat) (food : Food) (order : Order) :
    Prop :=
  ∃ left, (serve L db step).foods.row i = some left ∧
    order.foodNumber + left.remaining = food.remaining

/-- **What an order records and what its food keeps add up to what was left, if and only if the
difference does not tip; where PHP computes the difference exactly, if and only if the number
ordered is not a positive one that ends in a half.** -/
theorem recorded_iff (L : Laravel) (db : Database) (env : Env) (user : Nat) (request : Request)
    (i : Nat) (food : Food) (x : Php.Num) (order : Order)
    (hfood : foods.lookup db (request.get .foodId) = some (i, food))
    (hfits : Value.isInt32 food.remaining = true)
    (hx : (request.get .foodNumber).num? = some x) (hle : x.le food.remaining = true)
    (hstored : (serve L db ⟨env, .orderStore user request⟩).orders.row db.orders.next
      = some order) :
    (AddsUp L db ⟨env, .orderStore user request⟩ i food order ↔
        tips food.remaining x (env.minus.sub food.remaining x) = false) ∧
      ((env.minus.sub food.remaining x).val = food.remaining - x.val →
        (AddsUp L db ⟨env, .orderStore user request⟩ i food order ↔
          ¬ (0 ≤ x.mant ∧ x.isHalf = true))) := by
  have hiff : AddsUp L db ⟨env, .orderStore user request⟩ i food order ↔
      tips food.remaining x (env.minus.sub food.remaining x) = false := by
    obtain ⟨j, food', n, hv, hm, hn, hrow⟩ := stored_order hstored
    obtain ⟨hl, -, -⟩ := OrderController.verdict_ok.mp hv
    cases hfood.symm.trans hl
    have hnumber := (OrderController.drawn_of_make hm).foodNumber
    have hrecorded : order.foodNumber = x.round := Value.intColumn_some hx hnumber
    have hkept := deducted_round hx hn
    have hsize : |food.remaining| ≤ 2 ^ 32 := by
      have h := Value.abs_le_of_isInt32 hfits
      omega
    rw [AddsUp, hrow, ← env.minus.round_add_round_iff hsize (abs_val_of_intColumn hx hnumber) hle,
      ← hrecorded, ← hkept]
    constructor
    · rintro ⟨left, hleft, hsum⟩
      cases hleft
      exact hsum
    · intro hsum
      exact ⟨_, rfl, hsum⟩
  refine ⟨hiff, fun hexact => ?_⟩
  rw [hiff, ← tips_of_exact hexact, Bool.not_eq_true]

/-- An order of the first user for part of the bread on the shelf. -/
def Sample.part (x : Php.Num) : Step :=
  ⟨env, .orderStore 1 (request [(.foodId, .int 1), (.foodNumber, .dec x),
    (.phone, .str "0912345678")])⟩

/-- Of five loaves one and a quarter is ordered: one is recorded and four are left. -/
theorem recorded_quarter :
    AddsUp Sample.laravel Sample.shelf (Sample.part ⟨125, 2⟩) 1 ⟨"bread", 5, 100, 50, none, 1⟩
      ⟨1, 1, "1000000000000", 1, "0912345678", false, true⟩ :=
  (recorded_iff Sample.laravel Sample.shelf Sample.env 1 _ 1 ⟨"bread", 5, 100, 50, none, 1⟩ ⟨125, 2⟩
    ⟨1, 1, "1000000000000", 1, "0912345678", false, true⟩ (by decide +kernel) rfl rfl
    (by decide +kernel) (by decide +kernel)).1.mpr (by decide +kernel)

/-- Of five loaves half a loaf is ordered: one is recorded and five are left. -/
theorem recorded_half :
    ((serve Sample.laravel Sample.shelf (Sample.part ⟨5, 1⟩)).orders.row
        Sample.shelf.orders.next).map Order.foodNumber = some 1 ∧
      ((serve Sample.laravel Sample.shelf (Sample.part ⟨5, 1⟩)).foods.row 1).map Food.remaining
        = some 5 ∧
      (Sample.shelf.foods.row 1).map Food.remaining = some 5 ∧
      isError (answer Sample.laravel Sample.shelf (Sample.part ⟨5, 1⟩)) = false := by
  decide +kernel

/-! ### Stock below zero

`store` bounds the number ordered from above only.  A negative number puts stock on
the shelf that a later order may take, and cancelling the first order then takes it
away again. -/

/-- The number a request orders, if it is one, is not negative. -/
def Call.ordersNonneg : Call → Bool
  | orderStore _ request =>
      ((request.get .foodNumber).num?.map fun x => decide (0 ≤ x.mant)).getD true
  | _ => true

/-- No field of an order bears the name of the bound its number is held against: Laravel would
take `lte:5` for the field `5`. -/
def Call.unshadowed (db : Database) : Call → Bool
  | orderStore _ request => (foods.lookup db (request.get .foodId)).all fun x =>
      (request.bound x.2.remaining).isNone
  | _ => true

theorem shelf_nonneg (i : Nat) (food : Food) (hrow : Sample.shelf.foods.row i = some food) :
    0 ≤ food.remaining := by
  rcases Table.insert_row_some.mp hrow with ⟨-, rfl⟩ | hnone
  · decide
  · cases hnone

/-- Five portions are on the shelf; minus five are ordered, ten more after that, and
the first order is cancelled. -/
theorem stock_below_zero :
    let run := [Sample.newOrder 1 1 (-5), Sample.newOrder 2 1 10, Sample.cancel 1]
    (∀ i, Sample.shelf.orders.row i = none) ∧
      (∀ i food, Sample.shelf.foods.row i = some food → 0 ≤ food.remaining) ∧
      (∀ step ∈ run, step.call.isOrder = true ∧ step.call.ordersWhole = true) ∧
      ((after (serve Sample.laravel) Sample.shelf run).foods.row 1).map Food.remaining
        = some (-5) :=
  ⟨fun _ => rfl, shelf_nonneg, by decide +kernel, by decide +kernel⟩

/-- What the order requests keep: no stock and no order below zero. -/
structure Stocked (db : Database) : Prop where
  foods : ∀ i food, db.foods.row i = some food → 0 ≤ food.remaining
  orders : ∀ i order, db.orders.row i = some order → 0 ≤ order.foodNumber

/-- The number taken is at most what is left, so what is written is not negative. -/
theorem deducted_nonneg {db : Database} {env : Env} {food : Food} {request : Request} {n : Int}
    (hbound : request.bound food.remaining = none)
    (hvalid : failed db request.input (OrderController.rules request food) = [])
    (hn : (OrderController.deducted env food (request.get .foodNumber)).intColumn = some n) :
    0 ≤ n := by
  obtain ⟨x, hx, hle⟩ := OrderController.number_of_valid hbound hvalid
  rw [deducted_round hx hn]
  exact Num.round_nonneg (Num.mant_nonneg_iff.mpr (env.minus.nonneg _ _ (Num.le_iff.mp hle)))

theorem foodNumber_nonneg {db : Database} {env : Env} {user : Nat} {request : Request}
    {food : Food} {order : Order} (hbound : request.bound food.remaining = none)
    (hvalid : failed db request.input (OrderController.rules request food) = [])
    (hm : orders.make (OrderController.attributes env user request) = some order)
    (hnonneg : (Call.orderStore user request).ordersNonneg = true) : 0 ≤ order.foodNumber := by
  obtain ⟨x, hx, -⟩ := OrderController.number_of_valid hbound hvalid
  have hmant : 0 ≤ x.mant := by simpa [Call.ordersNonneg, hx] using hnonneg
  rw [Value.intColumn_some hx (OrderController.drawn_of_make hm).foodNumber]
  exact Num.round_nonneg hmant

theorem stocked_of_moves {db db' : Database} {step : Step} {a : Except Exn Response}
    (hmoves : Moves db step (db', a)) (horder : step.call.isOrder = true)
    (hnonneg : step.call.ordersNonneg = true) (hnames : step.call.unshadowed db = true)
    (h : Stocked db) : Stocked db' := by
  cases hmoves with
  | still horders hfoods herror =>
      refine ⟨fun i food hrow => ?_, fun i order hrow => ?_⟩
      · exact h.foods i food (by rwa [hfoods] at hrow)
      · exact h.orders i order (by rwa [horders] at hrow)
  | @placed env user request i food order n hv hm hn =>
      obtain ⟨hl, hvalid, -⟩ := OrderController.verdict_ok.mp hv
      have hbound : request.bound food.remaining = none := by
        simpa [Call.unshadowed, hl] using hnames
      refine ⟨fun j row hrow => ?_, fun j row hrow => ?_⟩
      · rcases Table.modify_row_some.mp hrow with ⟨-, hold⟩ | ⟨-, old, -, rfl⟩
        · exact h.foods j row hold
        · exact deducted_nonneg hbound hvalid hn
      · rcases Table.insert_row_some.mp hrow with ⟨-, rfl⟩ | hold
        · exact foodNumber_nonneg hbound hvalid hm hnonneg
        · exact h.orders j row hold
  | completed hl hsend =>
      refine ⟨h.foods, fun j row hrow => ?_⟩
      rcases Table.modify_row_some.mp hrow with ⟨-, hold⟩ | ⟨-, old, hold, rfl⟩
      · exact h.orders j row hold
      · exact h.orders _ old hold
  | stranded hl hsend hfail =>
      refine ⟨h.foods, fun j row hrow => ?_⟩
      rcases Table.modify_row_some.mp hrow with ⟨-, hold⟩ | ⟨-, old, hold, rfl⟩
      · exact h.orders j row hold
      · exact h.orders _ old hold
  | @returned env id i order k food n hl hsend hf hn =>
      refine ⟨fun j row hrow => ?_, fun j row hrow => ?_⟩
      · rcases Table.modify_row_some.mp hrow with ⟨-, hold⟩ | ⟨-, old, -, rfl⟩
        · exact h.foods j row hold
        · have hleft := h.foods k food (lookup_food hf).2
          have hback := h.orders i order (lookup_order hl).2
          show 0 ≤ n
          rw [intColumn_int hn]
          omega
      · rcases Table.modify_row_some.mp hrow with ⟨-, hold⟩ | ⟨-, old, hold, rfl⟩
        · exact h.orders j row hold
        · exact h.orders _ old hold
  | added hvalid hm => cases horder
  | changed hl hvalid hf => cases horder

/-- **Orders never take stock below zero, as long as nobody orders less than nothing.** -/
theorem stock_nonneg (L : Laravel) (db : Database) (run : List Step)
    (horders : ∀ i, db.orders.row i = none)
    (hfoods : ∀ i food, db.foods.row i = some food → 0 ≤ food.remaining)
    (hcalls : ∀ step ∈ run, step.call.isOrder = true)
    (hnonneg : ∀ step ∈ run, step.call.ordersNonneg = true)
    (hnames : Along (serve L) (fun db step => step.call.unshadowed db = true) db run) (f : Nat)
    (food : Food) (hf : (after (serve L) db run).foods.row f = some food) :
    0 ≤ food.remaining := by
  have hstart : Stocked db := by
    refine ⟨hfoods, fun i order hrow => ?_⟩
    rw [horders i] at hrow
    cases hrow
  have hrun : Along (serve L) (fun _ step => step.call.isOrder = true ∧
      step.call.ordersNonneg = true) db run :=
    Along.of_forall fun step hmem _ => ⟨hcalls step hmem, hnonneg step hmem⟩
  have hend : Stocked (after (serve L) db run) :=
    after_invariant (fun s r hs hc =>
      stocked_of_moves (moves L s r (.inl hc.1.1)) hc.1.1 hc.1.2 hc.2 hs) hstart (hrun.and hnames)
  exact hend.foods f food hf

theorem stock_nonneg_run :
    let run := [Sample.newOrder 1 1 5, Sample.newOrder 2 1 1, Sample.cancel 1, Sample.cancel 1]
    ∃ food, (after (serve Sample.laravel) Sample.shelf run).foods.row 1 = some food ∧
      0 ≤ food.remaining :=
  ⟨⟨"bread", 5, 100, 50, none, 1⟩, by decide +kernel,
    stock_nonneg Sample.laravel Sample.shelf
      [Sample.newOrder 1 1 5, Sample.newOrder 2 1 1, Sample.cancel 1, Sample.cancel 1]
      (fun _ => rfl) shelf_nonneg (by decide) (by decide +kernel) (by decide +kernel) 1 _
      (by decide +kernel)⟩

end Spoiler
