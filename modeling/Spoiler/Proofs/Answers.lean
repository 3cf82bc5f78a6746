/-
What the answer of an order request tells.

Two laws a client would like to rely on.  An error answer means that nothing
happened: `store` commits before it announces the order and `cancel` writes the order
before it finds the food, so each has one way to fail after it has written, and
`failsLate` is those two.  And the ban rule is about the user's own record: it counts
the user's rows, but then asks the row whose *key* the client sends, so it is about
the user's record only while the count decides.
-/
import Spoiler.App.Sample
import Spoiler.Proofs.Stock

namespace Spoiler

open Store Php

/-! ### An error answer -/

/-- The rows of the two tables are the same. -/
def SameStock (db db' : Database) : Prop :=
  db'.orders.row = db.orders.row ∧ db'.foods.row = db.foods.row

/-- `store` places an order that cannot be announced, or `cancel` takes back an order
whose food is gone or has no room for the stock. -/
def failsLate (db : Database) (step : Step) : Bool :=
  match step.call with
  | .orderStore user request =>
      match OrderController.verdict db user request with
      | .error _ => false
      | .ok (_, food) =>
          (orders.make (OrderController.attributes step.env user request)).isSome &&
          (OrderController.deducted step.env food (request.get .foodNumber)).intColumn.isSome &&
          !(announce step.env db food.restaurantId).isOk
  | .orderCancel id =>
      match orders.lookup db id with
      | none => false
      | some (_, order) =>
          order.send &&
          match foods.lookup db (.int order.foodId) with
          | none => true
          | some (_, food) => (Value.int (food.remaining + order.foodNumber)).intColumn.isNone
  | _ => false

theorem insert_row_ne {ρ : Type} (t : Table ρ) (r : ρ) : (t.insert r).row ≠ t.row := by
  intro h
  have hnew : (t.insert r).row t.next = some r := by simp
  rw [h, Table.row_next] at hnew
  cases hnew

theorem modify_row_ne {ρ : Type} {t : Table ρ} {i : Nat} {r : ρ} {f : ρ → ρ}
    (hrow : t.row i = some r) (hf : f r ≠ r) : (t.modify i f).row ≠ t.row := by
  intro h
  have hnew : (t.modify i f).row i = some (f r) := by simp [hrow]
  rw [h, hrow] at hnew
  exact hf (Option.some.inj hnew).symm

theorem cancelled_ne {order : Order} (hsend : order.send = true) : order.cancelled ≠ order := by
  intro h
  have hgone : order.cancelled.send = false := rfl
  rw [h, hsend] at hgone
  cases hgone

theorem late_store {env : Env} {db : Database} {user : Nat} {request : Request}
    (h : failsLate db ⟨env, .orderStore user request⟩ = true) :
    isError ((OrderController.store env user request).serve db).result.2 = true ∧
      ¬ SameStock db ((OrderController.store env user request).serve db).result.1 := by
  rw [OrderController.store_result]
  cases hv : OrderController.verdict db user request with
  | error a => simp [failsLate, hv] at h
  | ok x =>
      obtain ⟨i, food⟩ := x
      simp only [failsLate, hv, Bool.and_eq_true, Option.isSome_iff_exists] at h
      obtain ⟨⟨⟨order, hm⟩, ⟨n, hn⟩⟩, hfail⟩ := h
      simp only [OrderController.placed, hm, hn]
      cases ha : announce env db food.restaurantId with
      | error e => exact ⟨rfl, fun hsame => insert_row_ne _ _ hsame.1⟩
      | ok _ => simp [ha, Except.isOk, Except.toBool] at hfail

theorem late_cancel {env : Env} {db : Database} {id : Value}
    (h : failsLate db ⟨env, .orderCancel id⟩ = true) :
    isError ((OrderController.cancel id).serve db).result.2 = true ∧
      ¬ SameStock db ((OrderController.cancel id).serve db).result.1 := by
  rw [OrderController.cancel_result]
  cases hl : orders.lookup db id with
  | none => simp [failsLate, hl] at h
  | some x =>
      obtain ⟨i, order⟩ := x
      simp only [failsLate, hl, Bool.and_eq_true] at h
      obtain ⟨hsend, hfail⟩ := h
      have hwritten : ¬ SameStock db { db with orders := db.orders.modify i Order.cancelled } :=
        fun hsame => modify_row_ne (lookup_order hl).2 (cancelled_ne hsend) hsame.1
      simp only [hsend, if_true]
      cases hf : foods.lookup db (.int order.foodId) with
      | none => exact ⟨rfl, hwritten⟩
      | some y =>
          obtain ⟨f, food⟩ := y
          simp only [hf, Option.isNone_iff_eq_none] at hfail
          simp only [hfail]
          exact ⟨rfl, hwritten⟩

/-- A request that fails late has changed the tables. -/
theorem changed_of_failsLate {L : Laravel} {db : Database} {step : Step}
    (h : failsLate db step = true) :
    isError (answer L db step) = true ∧ ¬ SameStock db (serve L db step) := by
  obtain ⟨env, call⟩ := step
  cases call with
  | orderStore user request => exact late_store h
  | orderCancel id => exact late_cancel h
  | _ => simp [failsLate] at h

/-- A request that does not fail late and is answered with an error has not. -/
theorem same_of_error {L : Laravel} {db : Database} {step : Step}
    (horder : step.call.isOrder = true) (hlate : failsLate db step = false)
    (herror : isError (answer L db step) = true) : SameStock db (serve L db step) := by
  have hmoves := moves L db step (.inl horder)
  generalize serve L db step = db' at hmoves ⊢
  generalize answer L db step = a at hmoves herror
  cases hmoves with
  | still horders hfoods _ => exact ⟨horders, hfoods⟩
  | @placed env user request i food order n hv hm hn =>
      simp only [failsLate, hv, hm, hn, Option.isSome_some, Bool.true_and] at hlate
      cases ha : announce env db food.restaurantId with
      | error e => simp [ha, Except.isOk, Except.toBool] at hlate
      | ok _ =>
          rw [ha] at herror
          cases herror
  | completed hl hsend => cases herror
  | @stranded env id i order e hl hsend hfail =>
      rcases hfail with ⟨hnone, -⟩ | ⟨f, food, hf, hn, -⟩
      · simp [failsLate, hl, hsend, hnone] at hlate
      · simp [failsLate, hl, hsend, hf, hn] at hlate
  | returned hl hsend hf hn => cases herror
  | added hvalid hm => cases horder
  | changed hl hvalid hf => cases horder

/-- **An error answer means nothing happened, for exactly the requests that do not
fail late.** -/
theorem error_means_nothing_iff (L : Laravel) (db : Database) (step : Step)
    (horder : step.call.isOrder = true) :
    (isError (answer L db step) = true → SameStock db (serve L db step)) ↔
      failsLate db step = false := by
  constructor
  · intro h
    by_contra hlate
    have hlate' : failsLate db step = true := by simpa using hlate
    obtain ⟨herror, hchanged⟩ := changed_of_failsLate (L := L) hlate'
    exact hchanged (h herror)
  · intro hlate herror
    exact same_of_error horder hlate herror

theorem error_means_nothing_refused :
    SameStock Sample.shelf (serve Sample.laravel Sample.shelf (Sample.newOrder 1 1 6)) :=
  (error_means_nothing_iff Sample.laravel Sample.shelf (Sample.newOrder 1 1 6) rfl).mpr
    (by decide +kernel) (by decide +kernel)

/-- A broadcaster that is down, and a shelf that is full. -/
theorem error_after_write :
    let placed := respond Sample.laravel Sample.shelf
      { Sample.newOrder 1 1 2 with env := { Sample.env with broadcasts := false } }
    let full : Database := { Sample.shelf with
      foods := Table.empty.insert ⟨"bread", 2147483647, 100, 50, none, 1⟩
      orders := Table.empty.insert ⟨1, 1, "1000000000000", 1, "0912345678", false, true⟩ }
    let cancelled := respond Sample.laravel full (Sample.cancel 1)
    (isError placed.answer = true ∧ (placed.state.orders.row 1).isSome = true ∧
        (placed.state.foods.row 1).map Food.remaining = some 3) ∧
      isError cancelled.answer = true ∧
        (cancelled.state.orders.row 1).map Order.send = some false ∧
        (cancelled.state.foods.row 1).map Food.remaining = some 2147483647 := by
  decide +kernel

/-! ### The ban rule -/

/-- A user's rows of the banned users' list, whatever their keys. -/
def own (t : Table DeprivateList) (user : Nat) : List DeprivateList :=
  (t.filter fun _ r => r.userId == (user : Int)).map Prod.snd

/-- The second request differs from the first at most in `user_id`. -/
def SameButUserId (request request' : Request) : Prop :=
  ∀ a, a ≠ .userId → request'.input a = request.input a

/-- What `store` does to this request stays the same if the client sends another
`user_id` and the others' rows of the list are different ones. -/
def BanByOwnRecord (env : Env) (user : Nat) (db : Database) (request : Request) : Prop :=
  ∀ (request' : Request) (t : Table DeprivateList), SameButUserId request request' →
    (own t user).Perm (own db.deprivateLists user) →
    let this := (OrderController.store env user request).serve db
    let that := (OrderController.store env user request').serve { db with deprivateLists := t }
    that.answer = this.answer ∧ SameStock this.state that.state

namespace OrderController

variable {env : Env} {user : Nat} {db : Database} {request request' : Request}
  {t : Table DeprivateList}

theorem get_congr (h : SameButUserId request request') {a : Attr} (ha : a ≠ .userId) :
    request'.get a = request.get a := by
  unfold Request.get
  rw [h a ha]

/-- The checks before the ban rule read neither `user_id` nor the list. -/
theorem checked_congr (h : SameButUserId request request') :
    checked { db with deprivateLists := t } request' = checked db request := by
  have hfailed : ∀ food,
      failed { db with deprivateLists := t } request'.input (rules request' food)
        = failed db request.input (rules request food) := by
    intro food
    simp only [failed, failures, rules, Request.bound, List.flatMap_cons, List.flatMap_nil,
      h .foodId (by decide), h .foodNumber (by decide), h .phone (by decide),
      h (.other (toString food.remaining)) (by simp)]
    rfl
  have hlook : foods.lookup { db with deprivateLists := t } (request'.get .foodId)
      = foods.lookup db (request.get .foodId) := by
    rw [get_congr h (by decide)]
    rfl
  unfold checked
  rw [hlook]
  cases foods.lookup db (request.get .foodId) with
  | none => rfl
  | some x => simp only [hfailed]

theorem attributes_congr (h : SameButUserId request request') :
    attributes env user request' = attributes env user request := by
  funext a
  unfold attributes
  rw [get_congr h (a := .phone) (by decide), get_congr h (a := .foodId) (by decide),
    get_congr h (a := .foodNumber) (by decide)]

/-- Neither does anything after it. -/
theorem placed_congr (h : SameButUserId request request') (i : Nat) (food : Food) :
    placed env user request' i food { db with deprivateLists := t }
      = ({ (placed env user request i food db).1 with deprivateLists := t },
        (placed env user request i food db).2) := by
  unfold placed
  rw [attributes_congr h, get_congr h (a := .foodNumber) (by decide)]
  cases orders.make (attributes env user request) with
  | none => rfl
  | some order =>
      dsimp only
      cases (deducted env food (request.get .foodNumber)).intColumn with
      | none => rfl
      | some n => rfl

/-- So `store` does the same whenever the ban rule says the same or is not reached. -/
theorem store_congr (env : Env) (h : SameButUserId request request')
    (hban : (∃ a, checked db request = .error a) ∨
      admission { db with deprivateLists := t } user request' = admission db user request) :
    ((store env user request').serve { db with deprivateLists := t }).result
      = ({ ((store env user request).serve db).result.1 with deprivateLists := t },
        ((store env user request).serve db).result.2) := by
  rw [store_result, store_result]
  unfold verdict
  rw [checked_congr h]
  cases hc : checked db request with
  | error a => rfl
  | ok x =>
      rcases hban with ⟨a, ha⟩ | hallowed
      · rw [hc] at ha
        cases ha
      · dsimp only
        rw [hallowed]
        cases admission db user request with
        | error e => rfl
        | ok b =>
            cases b with
            | false => rfl
            | true => exact placed_congr h x.1 x.2

theorem records_eq (db : Database) (user : Nat) :
    records db user = (own db.deprivateLists user).length := by
  simp [records, own]

theorem admission_of_few (h : records db user < 3) : admission db user request = .ok true := by
  unfold admission
  rw [if_pos h]

/-- Without a `user_id` a user with three records gets an exception. -/
theorem admission_of_silent (h : ¬ records db user < 3) (hnone : request.input .userId = none) :
    admission db user request = .error .nullProperty := by
  unfold admission
  rw [if_neg h, Request.get, hnone]
  rfl

/-- With the key of a free row, whoever's it is, the same user is admitted. -/
theorem admission_of_free {k : Nat} {r : DeprivateList}
    (hkey : request.input .userId = some (.int k)) (hrow : db.deprivateLists.row k = some r)
    (hfree : r.isFree ≠ 0) : admission db user request = .ok true := by
  unfold admission
  by_cases hfew : records db user < 3
  · rw [if_pos hfew]
  · rw [if_neg hfew, Request.get, hkey, Option.getD_some, key_int, if_pos (Int.natCast_nonneg k)]
    simp [hrow, hfree]

/-- The same request by a user with three records, without a `user_id`. -/
theorem store_silent (env : Env) {x : Nat × Food} (hc : checked db request = .ok x)
    (hmany : ¬ records db user < 3) (h : SameButUserId request request')
    (hnone : request'.input .userId = none) :
    ((store env user request').serve db).result = (db, .error .nullProperty) := by
  have hchecked : checked db request' = .ok x := by
    rw [← hc]
    exact checked_congr (t := db.deprivateLists) h
  rw [store_result, verdict, hchecked]
  dsimp only
  rw [admission_of_silent hmany hnone]

/-- The same request with the key of a free row. -/
theorem store_free (env : Env) (user : Nat) (t : Table DeprivateList) {x : Nat × Food} {k : Nat}
    {r : DeprivateList}
    (hc : checked db request = .ok x) (h : SameButUserId request request')
    (hkey : request'.input .userId = some (.int k)) (hrow : t.row k = some r)
    (hfree : r.isFree ≠ 0) :
    ((store env user request').serve { db with deprivateLists := t }).result
      = placed env user request' x.1 x.2 { db with deprivateLists := t } := by
  rw [store_result, verdict, checked_congr h, hc]
  dsimp only
  rw [admission_of_free hkey hrow hfree]

end OrderController

/-- The request with another `user_id`, or without. -/
def Request.withUserId (request : Request) (v : Option Value)
    (hv : ∀ w, v = some w → cleaned .userId w = w) : Request where
  input a := if a = .userId then v else request.input a
  clean a w h := by
    by_cases ha : a = .userId
    · subst ha
      exact hv w (by simpa using h)
    · rw [if_neg ha] at h
      exact request.clean a w h

theorem sameButUserId_withUserId (request : Request) (v : Option Value)
    (hv : ∀ w, v = some w → cleaned .userId w = w) :
    SameButUserId request (request.withUserId v hv) :=
  fun _ ha => if_neg ha

theorem own_insert_other (t : Table DeprivateList) (user : Nat) (isFree : Int) :
    own (t.insert ⟨user + 1, isFree⟩) user = own t user := by
  unfold own
  rw [Table.filter_insert (by simp)]

/-- An order that is placed is in the table, and one that a column rejects is reported
as that. -/
theorem placed_ne_refused {env : Env} {user : Nat} {request : Request} {i : Nat} {food : Food}
    {db : Database} {o : Outcome Database Event Exn Response}
    (hplace : o.result = OrderController.placed env user request i food db)
    (hanswer : o.answer = .error .nullProperty) : o.state.orders.row ≠ db.orders.row := by
  unfold OrderController.placed at hplace
  cases hm : orders.make (OrderController.attributes env user request) with
  | none =>
      rw [hm] at hplace
      obtain ⟨-, h⟩ := Prod.mk.inj hplace
      rw [hanswer] at h
      cases h
  | some order =>
      rw [hm] at hplace
      dsimp only at hplace
      cases hn : (OrderController.deducted env food (request.get .foodNumber)).intColumn with
      | none =>
          rw [hn] at hplace
          obtain ⟨-, h⟩ := Prod.mk.inj hplace
          rw [hanswer] at h
          cases h
      | some n =>
          rw [hn] at hplace
          obtain ⟨h, -⟩ := Prod.mk.inj hplace
          rw [h]
          exact insert_row_ne _ _

/-- **The ban rule is about the user's own record for exactly the requests it does not
reach, and for users with fewer than three records.** -/
theorem banByOwnRecord_iff (env : Env) (user : Nat) (db : Database) (request : Request) :
    BanByOwnRecord env user db request ↔
      OrderController.records db user < 3 ∨
        ∃ a, OrderController.checked db request = .error a := by
  constructor
  · intro hlaw
    by_contra hnot
    rw [not_or] at hnot
    obtain ⟨hmany, hpass⟩ := hnot
    cases hc : OrderController.checked db request with
    | error a => exact hpass ⟨a, hc⟩
    | ok x =>
        -- the same request without a `user_id`, and with the key of a stranger's free row
        let silent := request.withUserId none (fun _ h => by cases h)
        let free := request.withUserId (some (.int db.deprivateLists.next))
          (fun _ h => by cases h; rfl)
        let list := db.deprivateLists.insert ⟨user + 1, 1⟩
        have hsilent : SameButUserId request silent := sameButUserId_withUserId request _ _
        have hfree : SameButUserId request free := sameButUserId_withUserId request _ _
        have hown : own list user = own db.deprivateLists user := own_insert_other _ _ _
        have hrefuse := OrderController.store_silent env hc hmany hsilent rfl
        have hplace := OrderController.store_free env user list (r := ⟨user + 1, 1⟩) hc hfree rfl
          (by simp [list]) Int.one_ne_zero
        obtain ⟨hanswer₀, hstate₀⟩ := hlaw silent db.deprivateLists hsilent (.refl _)
        obtain ⟨hanswer₁, hstate₁⟩ := hlaw free list hfree (by rw [hown])
        obtain ⟨hrefuse₁, hrefuse₂⟩ := Prod.mk.inj hrefuse
        refine placed_ne_refused hplace (hanswer₁.trans (hanswer₀.symm.trans hrefuse₂)) ?_
        refine hstate₁.1.trans (hstate₀.1.symm.trans ?_)
        rw [hrefuse₁]
  · intro hcond request' t hsame hperm
    have hban : (∃ a, OrderController.checked db request = .error a) ∨
        OrderController.admission { db with deprivateLists := t } user request'
          = OrderController.admission db user request := by
      rcases hcond with hfew | hrefused
      · refine .inr ?_
        have hfew' : OrderController.records { db with deprivateLists := t } user < 3 := by
          rw [OrderController.records_eq, hperm.length_eq, ← OrderController.records_eq]
          exact hfew
        rw [OrderController.admission_of_few hfew, OrderController.admission_of_few hfew']
      · exact .inl hrefused
    have hresult := OrderController.store_congr env hsame hban
    obtain ⟨hstate, hanswer⟩ := Prod.mk.inj hresult
    have horders := congrArg Database.orders hstate
    have hfoods := congrArg Database.foods hstate
    exact ⟨hanswer, congrArg Table.row horders, congrArg Table.row hfoods⟩

/-- User 7 has three records.  Naming a stranger's row as `user_id` gets the order
placed if that row is free and the ban if it is not; naming no row raises. -/
theorem ban_steered :
    let list (isFree : Int) : Table DeprivateList :=
      (((Table.empty.insert ⟨7, 0⟩).insert ⟨7, 0⟩).insert ⟨7, 0⟩).insert ⟨8, isFree⟩
    let ask (isFree userId : Int) :=
      ((OrderController.store Sample.env 7 (Sample.request [(.foodId, .int 1),
        (.foodNumber, .int 2), (.phone, .str "0912345678"), (.userId, .int userId)])).serve
          { Sample.shelf with deprivateLists := list isFree }).answer
    own (list 1) 7 = own (list 0) 7 ∧
      (ask 1 4).toOption.map Response.status = some 200 ∧
      (ask 0 4).toOption.map Response.status = some 400 ∧
      (ask 1 1).toOption.map Response.status = some 400 ∧
      (ask 1 9).toOption.map Response.status = none := by
  decide +kernel

end Spoiler
