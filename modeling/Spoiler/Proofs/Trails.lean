/-
A shared state behind the state of a serial run.

A request takes its place in the serial run at one of its statements: `store` at its
`INSERT`, which takes the key of the order, `cancel` where it writes the order, and an
update at its commit.  From there on the shared state trails the state of the serial
run by the writes the request still owes.  There is one lemma for each way to take a
place and one for paying.
-/
import Spoiler.Proofs.Phases
import Spoiler.Store.Ahead

namespace Spoiler

open Store Php OrderController

/-! ### Behind a serial run -/

namespace Stage

def debt : Stage → Option Debt
  | owing d => some d
  | _ => none

/-- The order a request has still to write. -/
def order (st : Stage) : Option (Nat × Order) := st.debt.bind Debt.order

/-- The stock a request has still to write. -/
def stock (st : Stage) : Option (Nat × Int) := st.debt.map fun d => (d.food, d.remaining)

/-- The request has its place in the serial run. -/
def placed : Stage → Bool
  | owing _ => true
  | served => true
  | _ => false

theorem stock_some {st : Stage} {i : Nat} {n : Int} (h : st.stock = some (i, n)) :
    ∃ d, st = .owing d ∧ d.food = i ∧ d.remaining = n := by
  cases st with
  | owing d =>
      cases h
      exact ⟨d, rfl, rfl, rfl⟩
  | waiting => cases h
  | served => cases h
  | refused => cases h

end Stage

/-- The row of an owed order is not there yet. -/
def OrderDue (order : Order) (here ahead : Option Order) : Prop :=
  here = none ∧ ahead = some order

/-- An owed stock is all that is missing in a row. -/
def StockDue (n : Int) (here ahead : Option Food) : Prop :=
  ∃ row, here = some row ∧ ahead = some (row.stocked n)

variable {ι : Type}

/-- `db` is `σ` but for what the requests owe. -/
structure Trails (stage : ι → Stage) (db σ : Database) : Prop where
  rest : σ = { db with orders := σ.orders, foods := σ.foods }
  orders : Ahead OrderDue (fun a => (stage a).order) db.orders σ.orders
  foods : Ahead StockDue (fun a => (stage a).stock) db.foods σ.foods

namespace Trails

variable {stage : ι → Stage} {db σ : Database} (h : Trails stage db σ)
include h

theorem restaurants : σ.restaurants = db.restaurants := by
  rw [h.rest]

theorem deprivateLists : σ.deprivateLists = db.deprivateLists := by
  rw [h.rest]

/-- An order that can be seen is the one of the serial run. -/
theorem order_row {k : Nat} {order : Order} (hrow : db.orders.row k = some order) :
    σ.orders.row k = some order := by
  rw [← hrow]
  refine h.orders.row_eq fun a o howed => ?_
  have hnone := (h.orders.due a k o howed).1
  rw [hrow] at hnone
  cases hnone

theorem sees_order {v : Value} {k : Nat} {order : Order}
    (hl : Spoiler.orders.lookup db v = some (k, order)) :
    Spoiler.orders.lookup σ v = some (k, order) := by
  obtain ⟨hkey, hrow⟩ := lookup_order hl
  exact Model.lookup_some.mpr ⟨hkey, h.order_row hrow⟩

/-- Stock that nobody owes is the stock of the serial run. -/
theorem food_row {i : Nat} (hfree : ∀ a d, stage a = .owing d → d.food ≠ i) :
    σ.foods.row i = db.foods.row i := by
  refine h.foods.row_eq fun a n howed => ?_
  obtain ⟨d, hst, hfood, -⟩ := Stage.stock_some howed
  exact hfree a d hst hfood

/-- Owed or not, the rest of a food is that of the serial run. -/
theorem cards : SameCards σ db := by
  intro i
  rcases h.foods.free i with heq | ⟨a, n, howed⟩
  · rw [heq]
  · obtain ⟨row, hrow, hahead⟩ := h.foods.due a i n howed
    rw [hrow, hahead]
    rfl

theorem sees_no_food {v : Value} (hl : Spoiler.foods.lookup db v = none) :
    Spoiler.foods.lookup σ v = none := by
  cases hσ : Spoiler.foods.lookup σ v with
  | none => rfl
  | some x =>
      obtain ⟨i, row⟩ := x
      obtain ⟨hkey, hrow⟩ := lookup_food hσ
      obtain ⟨row', hrow', -⟩ := h.cards.found hrow
      rw [Model.lookup_some.mpr ⟨hkey, hrow'⟩] at hl
      cases hl

/-- The row an update finds in the serial run, with the stock if it needs to know it. -/
theorem matches_row {request : Request} {i : Nat} {row food : Food}
    (hrow : db.foods.row i = some row) (hmatch : Matches request row food)
    (hfree : (request.input .remaining).isSome = true →
      ∀ a d, stage a = .owing d → d.food ≠ i) :
    ∃ row', σ.foods.row i = some row' ∧ Matches request row' food := by
  obtain ⟨row', hrow', hcard⟩ := h.cards.symm.found hrow
  refine ⟨row', hrow', Matches.trans ⟨hcard.symm, fun hcarry => ?_⟩ hmatch⟩
  rw [h.food_row (hfree hcarry), hrow] at hrow'
  cases hrow'
  rfl

/-- Nobody owes the next key. -/
theorem next_free (b : ι) (order : Order) : (stage b).order ≠ some (db.orders.next, order) := by
  intro howed
  have hlt := Table.lt_next (h.orders.due b _ order howed).2
  rw [h.orders.next] at hlt
  exact absurd hlt (Nat.lt_irrefl _)

/-- Both states take the cancellation of an order that can be seen. -/
theorem cancelled {k : Nat} {order : Order} (hrow : db.orders.row k = some order) :
    Ahead OrderDue (fun b => (stage b).order) (db.orders.modify k Order.cancelled)
      (σ.orders.modify k Order.cancelled) := by
  refine h.orders.both (k := k) h.orders.next (fun j hj => ?_) (fun j hj => ?_) (fun heq => ?_)
    (fun o _ hdue => ?_)
  · rw [Table.modify_row, if_neg hj]
  · rw [Table.modify_row, if_neg hj]
  · rw [Table.modify_row, Table.modify_row, heq]
  · have hnone := hdue.1
    rw [hrow] at hnone
    cases hnone

/-- A stock that has been paid is the stock of the serial run. -/
theorem paid_row {a : ι} {d : Debt} (hst : stage a = .owing d) :
    σ.foods.row d.food = (d.pay db).foods.row d.food := by
  have hstock : (stage a).stock = some (d.food, d.remaining) := by rw [hst]; rfl
  obtain ⟨row, hrow, hahead⟩ := h.foods.due a _ _ hstock
  show _ = (db.foods.modify d.food _).row d.food
  rw [Table.modify_row, if_pos rfl, hrow, hahead]
  rfl

theorem eq_of_paid (hpaid : ∀ a, (stage a).debt = none) : σ = db := by
  have horders : σ.orders = db.orders := h.orders.eq_of_paid fun a => by
    show (stage a).debt.bind Debt.order = none
    rw [hpaid a]
    rfl
  have hfoods : σ.foods = db.foods := h.foods.eq_of_paid fun a => by
    show (stage a).debt.map _ = none
    rw [hpaid a]
    rfl
  rw [h.rest, horders, hfoods]

end Trails

/-! ### Requests served in order -/

section Served

variable (L : Laravel) {σ : Database} {env : Env}

theorem serve_store_refused {user : Nat} {request : Request}
    (h : ∀ i row, verdict σ user request = .ok (i, row) →
      Spoiler.orders.make (attributes env user request) = none) :
    serve L σ ⟨env, .orderStore user request⟩ = σ := by
  have hresult := congrArg Prod.fst (store_result env user request σ)
  refine hresult.trans ?_
  cases hv : verdict σ user request with
  | error answer => rfl
  | ok x =>
      dsimp only
      unfold OrderController.placed
      rw [h x.1 x.2 hv]

theorem serve_store_misfit {user : Nat} {request : Request} {i : Nat} {row : Food} {order : Order}
    (hv : verdict σ user request = .ok (i, row))
    (hm : Spoiler.orders.make (attributes env user request) = some order)
    (hn : (deducted env row (request.get .foodNumber)).intColumn = none) :
    serve L σ ⟨env, .orderStore user request⟩ = { σ with orders := σ.orders.reserve.2 } := by
  refine (congrArg Prod.fst (store_result env user request σ)).trans ?_
  rw [hv]
  dsimp only
  unfold OrderController.placed
  rw [hm]
  dsimp only
  rw [hn]

theorem serve_store {user : Nat} {request : Request} {i : Nat} {row : Food} {order : Order}
    {n : Int} (hv : verdict σ user request = .ok (i, row))
    (hm : Spoiler.orders.make (attributes env user request) = some order)
    (hn : (deducted env row (request.get .foodNumber)).intColumn = some n) :
    serve L σ ⟨env, .orderStore user request⟩
      = { σ with
          orders := σ.orders.insert order
          foods := σ.foods.modify i (Food.stocked n) } := by
  refine (congrArg Prod.fst (store_result env user request σ)).trans ?_
  rw [hv]
  dsimp only
  unfold OrderController.placed
  rw [hm]
  dsimp only
  rw [hn]

theorem serve_cancel_refused {id : Value}
    (h : ∀ k order, Spoiler.orders.lookup σ id = some (k, order) → order.send = false) :
    serve L σ ⟨env, .orderCancel id⟩ = σ := by
  refine (congrArg Prod.fst (cancel_result id σ)).trans ?_
  cases hl : Spoiler.orders.lookup σ id with
  | none => rfl
  | some x =>
      dsimp only
      rw [h x.1 x.2 hl]
      rfl

theorem serve_cancel_stranded {id : Value} {k : Nat} {order : Order}
    (hl : Spoiler.orders.lookup σ id = some (k, order)) (hsend : order.send = true)
    (hfail : ∀ f row, Spoiler.foods.lookup σ (.int order.foodId) = some (f, row) →
      (Value.int (row.remaining + order.foodNumber)).intColumn = none) :
    serve L σ ⟨env, .orderCancel id⟩
      = { σ with orders := σ.orders.modify k Order.cancelled } := by
  refine (congrArg Prod.fst (cancel_result id σ)).trans ?_
  rw [hl]
  dsimp only
  rw [if_pos hsend]
  cases hf : Spoiler.foods.lookup σ (.int order.foodId) with
  | none => rfl
  | some x =>
      dsimp only
      rw [hfail x.1 x.2 hf]

theorem serve_cancel {id : Value} {k f : Nat} {order : Order} {row : Food} {n : Int}
    (hl : Spoiler.orders.lookup σ id = some (k, order)) (hsend : order.send = true)
    (hf : Spoiler.foods.lookup σ (.int order.foodId) = some (f, row))
    (hn : (Value.int (row.remaining + order.foodNumber)).intColumn = some n) :
    serve L σ ⟨env, .orderCancel id⟩
      = { σ with
          orders := σ.orders.modify k Order.cancelled
          foods := σ.foods.modify f (Food.stocked n) } := by
  refine (congrArg Prod.fst (cancel_result id σ)).trans ?_
  rw [hl]
  dsimp only
  rw [if_pos hsend, hf]
  dsimp only
  rw [hn]

theorem serve_update_refused {id : Value} {request : Request}
    (h : ∀ i row, Spoiler.foods.lookup σ id = some (i, row) → TurnsDown env request i row σ) :
    serve L σ ⟨env, .foodUpdate id request⟩ = σ := by
  refine (congrArg Prod.fst (FoodController.update_result env id request σ)).trans ?_
  cases hl : Spoiler.foods.lookup σ id with
  | none => rfl
  | some x =>
      obtain ⟨i, row⟩ := x
      dsimp only
      cases hvalid : failed σ request.input (FoodController.updateRules i row) with
      | cons e es => rfl
      | nil =>
          dsimp only
          unfold FoodController.updated FoodController.changes
          cases hf : Spoiler.foods.changes request row with
          | none => rfl
          | some f =>
              obtain ⟨hraised, hannounce⟩ := h i row hl f hvalid hf
              dsimp only
              rw [if_pos hraised]
              cases ha : announce env σ (f row).restaurantId with
              | error e => rfl
              | ok u => exact absurd ha hannounce

theorem serve_update {id : Value} {request : Request} {i : Nat} {row : Food} {f : Food → Food}
    (hl : Spoiler.foods.lookup σ id = some (i, row))
    (hvalid : failed σ request.input (FoodController.updateRules i row) = [])
    (hf : Spoiler.foods.changes request row = some f)
    (hannounce : FoodController.raised request row.remaining = true →
      announce env σ (f row).restaurantId = .ok ()) :
    serve L σ ⟨env, .foodUpdate id request⟩ = { σ with foods := σ.foods.modify i f } := by
  refine (congrArg Prod.fst (FoodController.update_result env id request σ)).trans ?_
  rw [hl]
  dsimp only
  rw [hvalid]
  dsimp only
  unfold FoodController.updated FoodController.changes
  rw [hf]
  dsimp only
  by_cases hraised : FoodController.raised request row.remaining = true
  · rw [if_pos hraised, hannounce hraised]
  · rw [if_neg hraised]

end Served

/-! ### Taking a place -/

section Place

variable [DecidableEq ι] {stage : ι → Stage} {db σ : Database} {a : ι} {st : Stage}

theorem order_update (hst : st.order = (stage a).order) :
    (fun b => (Function.update stage a st b).order) = fun b => (stage b).order := by
  funext b
  by_cases hb : b = a
  · subst hb
    rw [Function.update_self, hst]
  · rw [Function.update_of_ne hb]

theorem stock_update (hst : st.stock = (stage a).stock) :
    (fun b => (Function.update stage a st b).stock) = fun b => (stage b).stock := by
  funext b
  by_cases hb : b = a
  · subst hb
    rw [Function.update_self, hst]
  · rw [Function.update_of_ne hb]

/-- A request that owes nothing before and after. -/
theorem Trails.same (h : Trails stage db σ) (hold : (stage a).debt = none) (hnew : st.debt = none) :
    Trails (Function.update stage a st) db σ := by
  refine ⟨h.rest, ?_, ?_⟩
  · rw [order_update (by unfold Stage.order; rw [hold, hnew])]
    exact h.orders
  · rw [stock_update (by unfold Stage.stock; rw [hold, hnew])]
    exact h.foods

/-- A request that borrows a stock nobody owes. -/
theorem Trails.borrow {i : Nat} {row : Food} {n : Int} {key : Option (Nat × Order)}
    (h : Trails stage db σ) (hold : (stage a).debt = none)
    (hfree : ∀ b d, stage b = .owing d → d.food ≠ i) (hrow : db.foods.row i = some row) :
    Ahead StockDue (fun b => (Function.update stage a (.owing ⟨key, i, n⟩) b).stock) db.foods
      (σ.foods.modify i (Food.stocked n)) := by
  refine h.foods.write (a := a) (k := i) h.foods.next (fun _ _ => rfl) (fun j hj => ?_)
    (fun b hb => ?_) (fun b _ m howed => ?_) (fun j m howed => ?_) (.inr ⟨n, ?_, ?_⟩)
  · rw [Table.modify_row, if_neg hj]
  · rw [Function.update_of_ne hb]
  · obtain ⟨d, hst, hfood, -⟩ := Stage.stock_some howed
    exact hfree b d hst hfood
  · have hnone : (stage a).stock = none := by unfold Stage.stock; rw [hold]; rfl
    rw [hnone] at howed
    cases howed
  · rw [Function.update_self]
    rfl
  · refine ⟨row, hrow, ?_⟩
    rw [Table.modify_row, if_pos rfl, h.food_row hfree, hrow]
    rfl

/-- `store` takes the key of its order, and owes the order and the stock. -/
theorem Trails.store (h : Trails stage db σ) (L : Laravel) {env : Env} {user : Nat}
    {request : Request} {i : Nat} {row : Food} {order : Order} {n : Int}
    (hold : (stage a).debt = none) (hfree : ∀ b d, stage b = .owing d → d.food ≠ i)
    (hcur : verdict db user request = .ok (i, row))
    (hm : Spoiler.orders.make (attributes env user request) = some order)
    (hn : (deducted env row (request.get .foodNumber)).intColumn = some n) :
    Trails (Function.update stage a (.owing ⟨some (db.orders.next, order), i, n⟩))
      { db with orders := db.orders.reserve.2 } (serve L σ ⟨env, .orderStore user request⟩) := by
  obtain ⟨hl, -⟩ := verdict_ok.mp hcur
  obtain ⟨-, hrow⟩ := lookup_food hl
  have hσ : verdict σ user request = .ok (i, row) :=
    verdict_congr h.deprivateLists hcur ((h.food_row hfree).trans hrow) rfl
  rw [serve_store L hσ hm hn]
  refine ⟨by rw [h.rest], ?_, h.borrow hold hfree hrow⟩
  refine h.orders.write (a := a) (k := db.orders.next) ?_ (fun _ _ => rfl) (fun j hj => ?_)
    (fun b hb => ?_) (fun b _ o => h.next_free b o) (fun j o howed => ?_)
    (.inr ⟨order, ?_, ?_, ?_⟩)
  · rw [Table.insert_next, h.orders.next]
    rfl
  · rw [Table.insert_row, h.orders.next, if_neg hj]
  · rw [Function.update_of_ne hb]
  · have hnone : (stage a).order = none := by unfold Stage.order; rw [hold]; rfl
    rw [hnone] at howed
    cases howed
  · rw [Function.update_self]
    rfl
  · exact db.orders.row_next
  · rw [Table.insert_row, h.orders.next, if_pos rfl]

/-- `store` takes a key and finds that the stock does not fit its column. -/
theorem Trails.misfit (h : Trails stage db σ) (L : Laravel) {env : Env} {user : Nat}
    {request : Request} {i : Nat} {row : Food} {order : Order}
    (hold : (stage a).debt = none) (hfree : ∀ b d, stage b = .owing d → d.food ≠ i)
    (hcur : verdict db user request = .ok (i, row))
    (hm : Spoiler.orders.make (attributes env user request) = some order)
    (hn : (deducted env row (request.get .foodNumber)).intColumn = none) :
    Trails (Function.update stage a .served)
      { db with orders := db.orders.reserve.2 } (serve L σ ⟨env, .orderStore user request⟩) := by
  obtain ⟨hl, -⟩ := verdict_ok.mp hcur
  obtain ⟨-, hrow⟩ := lookup_food hl
  have hσ : verdict σ user request = .ok (i, row) :=
    verdict_congr h.deprivateLists hcur ((h.food_row hfree).trans hrow) rfl
  have hsame : Trails (Function.update stage a .served) db σ := h.same hold rfl
  rw [serve_store_misfit L hσ hm hn]
  refine ⟨by rw [h.rest], ⟨?_, hsame.orders.free, hsame.orders.due, hsame.orders.once⟩,
    hsame.foods⟩
  rw [Table.reserve_next, h.orders.next]
  rfl

/-- `cancel` writes the order, and owes the stock. -/
theorem Trails.cancel (h : Trails stage db σ) (L : Laravel) {env : Env} {id : Value} {k f : Nat}
    {order : Order} {row : Food} {n : Int} (hold : (stage a).debt = none)
    (hfree : ∀ b d, stage b = .owing d → d.food ≠ f)
    (hl : Spoiler.orders.lookup db id = some (k, order)) (hsend : order.send = true)
    (hf : Spoiler.foods.lookup db (.int order.foodId) = some (f, row))
    (hn : (Value.int (row.remaining + order.foodNumber)).intColumn = some n) :
    Trails (Function.update stage a (.owing ⟨none, f, n⟩))
      { db with orders := db.orders.modify k Order.cancelled }
      (serve L σ ⟨env, .orderCancel id⟩) := by
  obtain ⟨-, horder⟩ := lookup_order hl
  obtain ⟨hkey, hrow⟩ := lookup_food hf
  have hσ : Spoiler.foods.lookup σ (.int order.foodId) = some (f, row) :=
    Model.lookup_some.mpr ⟨hkey, (h.food_row hfree).trans hrow⟩
  rw [serve_cancel L (h.sees_order hl) hsend hσ hn]
  refine ⟨by rw [h.rest], ?_, h.borrow hold hfree hrow⟩
  rw [order_update (by unfold Stage.order; rw [hold]; rfl)]
  exact h.cancelled horder

/-- `cancel` writes the order, and the stock cannot be given back. -/
theorem Trails.strand (h : Trails stage db σ) (L : Laravel) {env : Env} {id : Value} {k : Nat}
    {order : Order} (hold : (stage a).debt = none)
    (hfree : ∀ f, (Value.int order.foodId).key? = some f →
      ∀ b d, stage b = .owing d → d.food ≠ f)
    (hl : Spoiler.orders.lookup db id = some (k, order)) (hsend : order.send = true)
    (hfail : ∀ f row, Spoiler.foods.lookup db (.int order.foodId) = some (f, row) →
      (Value.int (row.remaining + order.foodNumber)).intColumn = none) :
    Trails (Function.update stage a .served)
      { db with orders := db.orders.modify k Order.cancelled }
      (serve L σ ⟨env, .orderCancel id⟩) := by
  obtain ⟨-, horder⟩ := lookup_order hl
  rw [serve_cancel_stranded L (h.sees_order hl) hsend fun f row hf => ?_]
  · refine ⟨by rw [h.rest], ?_, ?_⟩
    · rw [order_update (by unfold Stage.order; rw [hold]; rfl)]
      exact h.cancelled horder
    · rw [stock_update (by unfold Stage.stock; rw [hold]; rfl)]
      exact h.foods
  · obtain ⟨hkey, hrow⟩ := lookup_food hf
    rw [h.food_row (hfree f hkey)] at hrow
    exact hfail f row (Model.lookup_some.mpr ⟨hkey, hrow⟩)

/-- An update writes at once what it has to write. -/
theorem Trails.update (h : Trails stage db σ) (L : Laravel) {env : Env} {id : Value}
    {request : Request} {i : Nat} {row food : Food} {f : Food → Food}
    (hold : (stage a).debt = none) (hkey : id.key? = some i) (hrow : db.foods.row i = some row)
    (hmatch : Matches request row food)
    (hfree : (request.input .remaining).isSome = true → ∀ b d, stage b = .owing d → d.food ≠ i)
    (hvalid : failed db request.input (FoodController.updateRules i row) = [])
    (hf : Spoiler.foods.changes request food = some f)
    (hannounce : FoodController.raised request food.remaining = true →
      announce env db (f food).restaurantId = .ok ()) :
    Trails (Function.update stage a .served) { db with foods := db.foods.modify i f }
      (serve L σ ⟨env, .foodUpdate id request⟩) := by
  obtain ⟨row', hrow', hmatch'⟩ := h.matches_row hrow hmatch hfree
  have hl : Spoiler.foods.lookup σ id = some (i, row') := Model.lookup_some.mpr ⟨hkey, hrow'⟩
  have hchanges : Spoiler.foods.changes request row' = some f := by
    rw [changes_matches hmatch']
    exact hf
  have hpasses : failed σ request.input (FoodController.updateRules i row') = [] := by
    rw [failed_update_congr h.cards h.restaurants (hmatch'.trans hmatch.symm).1]
    exact hvalid
  rw [serve_update L hl hpasses hchanges fun hraised => ?_]
  · refine ⟨by rw [h.rest], ?_, ?_⟩
    · rw [order_update (by unfold Stage.order; rw [hold]; rfl)]
      exact h.orders
    · rw [stock_update (by unfold Stage.stock; rw [hold]; rfl)]
      refine h.foods.both (k := i) h.foods.next (fun j hj => ?_) (fun j hj => ?_) (fun heq => ?_) ?_
      · rw [Table.modify_row, if_neg hj]
      · rw [Table.modify_row, if_neg hj]
      · rw [Table.modify_row, Table.modify_row, heq]
      · -- a stock that is owed is not the update's business
        rintro n ⟨b, howed⟩ ⟨r, hr, hahead⟩
        obtain ⟨d, hst, hfood, -⟩ := Stage.stock_some howed
        have hsilent : request.input .remaining = none := by
          cases hin : request.input .remaining with
          | none => rfl
          | some v => exact absurd hfood (hfree (by rw [hin]; rfl) b d hst)
        refine ⟨f r, ?_, ?_⟩
        · rw [Table.modify_row, if_pos rfl, hr]
          rfl
        · rw [Table.modify_row, if_pos rfl, hahead]
          exact congrArg some (changes_stocked hsilent hf r n)
  · rw [announce_congr h.restaurants, (changes_card hmatch' hf).restaurantId]
    rw [raised_congr hmatch'] at hraised
    exact hannounce hraised

/-! ### Paying -/

theorem Trails.pay (h : Trails stage db σ) {d : Debt} (hst : stage a = .owing d) :
    Trails (Function.update stage a .served) (d.pay db) σ := by
  obtain ⟨key, i, n⟩ := d
  have hstock : (stage a).stock = some (i, n) := by rw [hst]; rfl
  have horder : (stage a).order = key := by rw [hst]; rfl
  refine ⟨by rw [h.rest]; rfl, ?_, ?_⟩
  · cases key with
    | none =>
        rw [order_update (by rw [horder]; rfl)]
        exact h.orders
    | some x =>
        obtain ⟨k, order⟩ := x
        obtain ⟨-, hahead⟩ := h.orders.due a k order horder
        have hlt := Table.lt_next hahead
        refine h.orders.write (a := a) (k := k) ?_ (fun j hj => ?_) (fun _ _ => rfl)
          (fun b hb => ?_) (fun b hb o howed => ?_) (fun j o howed => ?_) (.inl ⟨?_, ?_⟩)
        · show σ.orders.next = max db.orders.next (k + 1)
          rw [h.orders.next] at hlt ⊢
          omega
        · exact if_neg hj
        · rw [Function.update_of_ne hb]
        · exact hb (h.orders.once b a k o order howed horder)
        · rw [horder] at howed
          cases howed
          rfl
        · rw [Function.update_self]
          rfl
        · exact hahead.trans (if_pos rfl).symm
  · obtain ⟨row, hrow, hahead⟩ := h.foods.due a i n hstock
    refine h.foods.write (a := a) (k := i) h.foods.next (fun j hj => ?_) (fun _ _ => rfl)
      (fun b hb => ?_) (fun b hb m howed => ?_) (fun j m howed => ?_) (.inl ⟨?_, ?_⟩)
    · exact if_neg hj
    · rw [Function.update_of_ne hb]
    · exact hb (h.foods.once b a i m n howed hstock)
    · rw [hstock] at howed
      cases howed
      rfl
    · rw [Function.update_self]
      rfl
    · show σ.foods.row i = (db.foods.modify i (Food.stocked n)).row i
      rw [Table.modify_row, if_pos rfl, hrow, hahead]
      rfl

end Place

end Spoiler
