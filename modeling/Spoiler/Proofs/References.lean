/-
Every id names a row.

The migrations declare no foreign keys, so that an order's food, a like's restaurant or
a report's parties exist rests on two things.  A request that writes such an id has had
it checked, by an `exists` rule, by a lookup or by the guard that found the user; and no
request ever deletes a user, an owner, a restaurant or a food.

The events need it: both look a food's restaurant up and read its id unchecked.
-/
import Spoiler.Proofs.Ownership
import Spoiler.Proofs.Tokens
import Spoiler.Store.Run

namespace Spoiler

open Store Php

/-! ### References -/

/-- The id names a row of the table. -/
def Names {ρ : Type} (t : Table ρ) (n : Int) : Prop := ∃ i : Nat, n = i ∧ (t.row i).isSome = true

theorem Names.grows {ρ : Type} {t u : Table ρ} {n : Int} (h : Names t n) (hgrows : t.Grows u) :
    Names u n := by
  obtain ⟨i, hn, hi⟩ := h
  exact ⟨i, hn, hgrows i hi⟩

/-- What an integer column stores of a value that selects a row names the row. -/
theorem Names.of_exists {ρ : Type} {T : TableOf Database ρ} {db : Database} {v : Value} {n : Int}
    (h : (Rule.exists_ T).passes db v = true) (hn : v.intColumn = some n) : Names (T.get db) n := by
  obtain ⟨i, r, hkey, hrow⟩ := exists_passes h
  exact ⟨i, Value.intColumn_of_key hkey hn, by rw [hrow]; rfl⟩

/-- A required id that is checked names a row. -/
theorem Names.of_required {ρ : Type} {T : TableOf Database ρ} {db : Database} {request : Request}
    {fields : List (Attr × List Rule)} (hvalid : failed db request.input fields = []) {a : Attr}
    (hrule : (a, [Rule.required, .exists_ T]) ∈ fields) {n : Int}
    (hn : (request.get a).intColumn = some n) : Names (T.get db) n :=
  .of_exists (passes_of_required hvalid hrule (by simp) (by simp)) hn

/-- A row an id names can be looked up. -/
theorem Names.lookup {ρ : Type} {M : Model ρ} {db : Database} {n : Int}
    (h : Names (M.table.get db) n) : ∃ i r, M.lookup db (.int n) = some (i, r) := by
  obtain ⟨i, rfl, hi⟩ := h
  obtain ⟨r, hr⟩ := Option.isSome_iff_exists.mp hi
  exact ⟨i, r, Model.lookup_some.mpr ⟨by simp, hr⟩⟩

def Food.Refers (db : Database) (food : Food) : Prop := Names db.restaurants food.restaurantId

def Order.Refers (db : Database) (order : Order) : Prop :=
  Names db.foods order.foodId ∧ Names db.users order.userId

def Like.Refers (db : Database) (like : Like) : Prop :=
  Names db.users like.userId ∧ Names db.restaurants like.restaurantId

def Subscription.Refers (db : Database) (subscription : Subscription) : Prop :=
  Names db.users subscription.userId ∧ Names db.restaurants subscription.restaurantId

/-- The flag says which of the two parties is the user. -/
def Report.Refers (db : Database) (report : Report) : Prop :=
  if report.reporterIsUser then Names db.users report.reporterId ∧ Names db.owners report.objectId
  else Names db.users report.objectId ∧ Names db.owners report.reporterId

/-- Every reference of every row names a row. -/
structure Referential (db : Database) : Prop where
  foods : db.foods.All (Food.Refers db)
  orders : db.orders.All (Order.Refers db)
  likes : db.likes.All (Like.Refers db)
  subscriptions : db.subscriptions.All (Subscription.Refers db)
  reports : db.reports.All (Report.Refers db)

/-- No row that can be referred to goes away. -/
structure Database.Grows (db db' : Database) : Prop where
  users : db.users.Grows db'.users
  owners : db.owners.Grows db'.owners
  restaurants : db.restaurants.Grows db'.restaurants
  foods : db.foods.Grows db'.foods

/-- When nothing goes away, the references of the new rows may be judged in the old state. -/
theorem Referential.of_grows {db db' : Database} (hgrows : db.Grows db')
    (hfoods : db'.foods.All (Food.Refers db)) (horders : db'.orders.All (Order.Refers db))
    (hlikes : db'.likes.All (Like.Refers db))
    (hsubscriptions : db'.subscriptions.All (Subscription.Refers db))
    (hreports : db'.reports.All (Report.Refers db)) : Referential db' where
  foods := hfoods.mono fun _ h => h.grows hgrows.restaurants
  orders := horders.mono fun _ h => ⟨h.1.grows hgrows.foods, h.2.grows hgrows.users⟩
  likes := hlikes.mono fun _ h => ⟨h.1.grows hgrows.users, h.2.grows hgrows.restaurants⟩
  subscriptions := hsubscriptions.mono fun _ h =>
    ⟨h.1.grows hgrows.users, h.2.grows hgrows.restaurants⟩
  reports := hreports.mono fun r h => by
    unfold Report.Refers at h ⊢
    split
    · rename_i hflag
      rw [if_pos hflag] at h
      exact ⟨h.1.grows hgrows.users, h.2.grows hgrows.owners⟩
    · rename_i hflag
      rw [if_neg hflag] at h
      exact ⟨h.1.grows hgrows.users, h.2.grows hgrows.owners⟩

/-! ### New rows -/

section Rows

variable {db : Database} {request : Request}

theorem added_refers {food : Food}
    (hvalid : failed db request.input (FoodController.storeRules request) = [])
    (hm : foods.make (FoodController.attributes request) = some food) : food.Refers db :=
  .of_required (T := restaurants.table) hvalid (by simp [FoodController.storeRules])
    (FoodController.drawn_of_make hm).restaurantId

theorem changed_refers {i : Nat} {food : Food} {f : Food → Food}
    (hvalid : failed db request.input (FoodController.updateRules i food) = [])
    (hf : FoodController.changes request food = some f) (h : food.Refers db) :
    (f food).Refers db := by
  unfold Food.Refers at h ⊢
  rcases restaurantId_column.changes (by decide) hf with ⟨-, hsame⟩ | ⟨v, n, hv, hn, hset⟩
  · rw [hsame]
    exact h
  · have hrule : (Attr.restaurantId, [Rule.exists_ restaurants.table])
        ∈ FoodController.updateRules i food := by simp [FoodController.updateRules]
    have hpass : (Rule.exists_ restaurants.table).passes db v = true :=
      passes_of_input hvalid hrule (by simp) (by decide) hv
    rw [hset]
    exact Names.of_exists hpass hn

theorem placed_refers {env : Env} {user i : Nat} {food : Food} {order : Order}
    (hv : OrderController.verdict db user request = .ok (i, food))
    (hm : orders.make (OrderController.attributes env user request) = some order)
    (huser : Names db.users user) : order.Refers db := by
  obtain ⟨hkey, hrow⟩ := lookup_food (OrderController.verdict_ok.mp hv).1
  have hdrawn := OrderController.drawn_of_make hm
  refine ⟨⟨i, Value.intColumn_of_key hkey hdrawn.foodId, by rw [hrow]; rfl⟩, ?_⟩
  rw [userId_of_make hm]
  exact huser

theorem liked_refers {user : Nat} {like : Like}
    (hvalid : failed db request.input RestaurantController.scoreRules = [])
    (hm : likes.make (RestaurantController.likeAttributes user request) = some like)
    (huser : Names db.users user) : like.Refers db := by
  obtain ⟨hown, hrestaurant, -⟩ := RestaurantController.like_of_make hm
  refine ⟨by rw [hown]; exact huser, ?_⟩
  exact .of_required (T := restaurants.table) hvalid (by simp [RestaurantController.scoreRules])
    hrestaurant

theorem subscribed_refers {subscription : Subscription}
    (hvalid : failed db request.input SubscriptController.rules = [])
    (hm : subscriptions.make (SubscriptController.attributes request) = some subscription) :
    subscription.Refers db := by
  obtain ⟨huser, hrestaurant⟩ := SubscriptController.subscription_of_make hm
  exact ⟨.of_required (T := users.table) hvalid (by simp [SubscriptController.rules]) huser,
    .of_required (T := restaurants.table) hvalid (by simp [SubscriptController.rules]) hrestaurant⟩

theorem reported_refers {row : Report}
    (hparty : failed db request.input (ReportController.partyRules
      (ReportController.intval (request.get .reporterIsUser))) = [])
    (hm : reports.make (ReportController.attributes request) = some row) : row.Refers db := by
  simp only [reports, Report.make, ReportController.attributes, Option.bind_eq_bind,
    Option.bind_eq_some_iff, Option.some.injEq] at hm
  obtain ⟨s, -, o, ho, b, hb, r, hr, rfl⟩ := hm
  -- the flag the second validation looks at is the flag the row stores
  have hflag : ReportController.intval (request.get .reporterIsUser) = b := by
    simp [ReportController.intval, hb]
  rw [hflag] at hparty
  unfold Report.Refers
  cases b with
  | true =>
      rw [if_pos rfl]
      exact ⟨.of_required (T := users.table) hparty (by simp [ReportController.partyRules]) hr,
        .of_required (T := owners.table) hparty (by simp [ReportController.partyRules]) ho⟩
  | false =>
      rw [if_neg (by simp)]
      exact ⟨.of_required (T := users.table) hparty (by simp [ReportController.partyRules]) ho,
        .of_required (T := owners.table) hparty (by simp [ReportController.partyRules]) hr⟩

end Rows

/-! ### One request -/

section Step

variable {L : Laravel} {db : Database} {step : Step}

/-- Every request keeps the rows that can be referred to. -/
theorem call_grows (L : Laravel) (db : Database) (step : Step) : db.Grows (serve L db step) := by
  rcases step.call.group with hstock | huser | hedit
  · have hmoves := moves L db step hstock
    generalize serve L db step = db' at hmoves ⊢
    generalize answer L db step = a at hmoves
    cases hmoves with
    | still horders hfoods herror => exact ⟨.refl _, .refl _, .refl _, .of_row hfoods⟩
    | placed hv hm hn => exact ⟨.refl _, .refl _, .refl _, .modify _ _ _⟩
    | completed hl hsend => exact ⟨.refl _, .refl _, .refl _, .refl _⟩
    | stranded hl hsend hfail => exact ⟨.refl _, .refl _, .refl _, .refl _⟩
    | returned hl hsend hf hn => exact ⟨.refl _, .refl _, .refl _, .modify _ _ _⟩
    | added hvalid hm => exact ⟨.refl _, .refl _, .refl _, .sets (db.foods.insert_sets _)⟩
    | changed hl hvalid hf => exact ⟨.refl _, .refl _, .refl _, .modify _ _ _⟩
  · have hsigns := signs L db step huser
    generalize serve L db step = db' at hsigns ⊢
    generalize answer L db step = a at hsigns
    cases hsigns with
    | still herror => exact ⟨.refl _, .refl _, .refl _, .refl _⟩
    | registered hvalid hm htaken =>
        exact ⟨.sets (db.users.insert_sets _), .refl _, .refl _, .refl _⟩
    | arrived hnone hm => exact ⟨.sets (db.users.insert_sets _), .refl _, .refl _, .refl _⟩
    | _ => exact ⟨.modify _ _ _, .refl _, .refl _, .refl _⟩
  · have hedits := edits L db step hedit
    generalize serve L db step = db' at hedits ⊢
    generalize step.call = call at hedits
    cases hedits with
    | ownerRegistered => exact ⟨.refl _, .sets (db.owners.insert_sets _), .refl _, .refl _⟩
    | ownerLoggedIn hby => exact ⟨.refl _, .modify _ _ _, .refl _, .refl _⟩
    | opened hvalid hm => exact ⟨.refl _, .refl _, .sets (db.restaurants.insert_sets _), .refl _⟩
    | remodelled hl hvalid hf => exact ⟨.refl _, .refl _, .modify _ _ _, .refl _⟩
    | _ => exact ⟨.refl _, .refl _, .refl _, .refl _⟩

theorem stock_referential (hstock : step.call.isOrder = true ∨ step.call.isFood = true)
    (hactor : ∀ u, step.call.actor = some (.user u) → Names db.users u) (h : Referential db) :
    Referential (serve L db step) := by
  have hgrows := call_grows L db step
  have hmoves := moves L db step hstock
  generalize serve L db step = db' at hgrows hmoves ⊢
  generalize answer L db step = a at hmoves
  cases hmoves with
  | still horders hfoods herror =>
      exact .of_grows hgrows (h.foods.of_row hfoods) (h.orders.of_row horders) h.likes
        h.subscriptions h.reports
  | @placed env user request i food order n hv hm hn =>
      obtain ⟨-, hrow⟩ := lookup_food (OrderController.verdict_ok.mp hv).1
      have horder := placed_refers hv hm (hactor user rfl)
      exact .of_grows hgrows (h.foods.sets (Table.modify_sets hrow) (h.foods i food hrow))
        (h.orders.sets (db.orders.insert_sets order) horder) h.likes h.subscriptions h.reports
  | @completed env id i order hl hsend =>
      obtain ⟨-, hrow⟩ := lookup_order hl
      exact .of_grows hgrows h.foods
        (h.orders.sets (Table.modify_sets hrow) (h.orders i order hrow)) h.likes h.subscriptions
        h.reports
  | @stranded env id i order e hl hsend hfail =>
      obtain ⟨-, hrow⟩ := lookup_order hl
      exact .of_grows hgrows h.foods
        (h.orders.sets (Table.modify_sets hrow) (h.orders i order hrow)) h.likes h.subscriptions
        h.reports
  | @returned env id i order f food n hl hsend hf hn =>
      obtain ⟨-, hrow⟩ := lookup_order hl
      obtain ⟨-, hfood⟩ := lookup_food hf
      exact .of_grows hgrows (h.foods.sets (Table.modify_sets hfood) (h.foods f food hfood))
        (h.orders.sets (Table.modify_sets hrow) (h.orders i order hrow)) h.likes h.subscriptions
        h.reports
  | @added env request food hvalid hm =>
      exact .of_grows hgrows (h.foods.sets (db.foods.insert_sets food) (added_refers hvalid hm))
        h.orders h.likes h.subscriptions h.reports
  | @changed env id request i food f hl hvalid hf =>
      obtain ⟨-, hrow⟩ := lookup_food hl
      have hfood := changed_refers hvalid hf (h.foods i food hrow)
      exact .of_grows hgrows (h.foods.sets (Table.modify_sets hrow) hfood) h.orders h.likes
        h.subscriptions h.reports

/-- An account request writes users and nothing else. -/
theorem account_referential (hcall : step.call.isUser = true) (h : Referential db) :
    Referential (serve L db step) := by
  have hgrows := call_grows L db step
  have hsigns := signs L db step hcall
  generalize serve L db step = db' at hgrows hsigns ⊢
  generalize answer L db step = a at hsigns
  cases hsigns <;> exact .of_grows hgrows h.foods h.orders h.likes h.subscriptions h.reports

theorem edit_referential (hcall : step.call.isEdit = true)
    (hactor : ∀ u, step.call.actor = some (.user u) → Names db.users u) (h : Referential db) :
    Referential (serve L db step) := by
  have hgrows := call_grows L db step
  have hedits := edits L db step hcall
  obtain ⟨env, call⟩ := step
  dsimp only at hedits hactor
  generalize serve L db ⟨env, call⟩ = db' at hgrows hedits ⊢
  cases hedits with
  | @liked user request like hvalid hnone hm =>
      have hlike := liked_refers hvalid hm (hactor user rfl)
      exact .of_grows hgrows h.foods h.orders (h.likes.sets (db.likes.insert_sets like) hlike)
        h.subscriptions h.reports
  | @scored user request i like f hvalid hby hf =>
      obtain ⟨hrow, -⟩ := Table.first_some hby
      obtain ⟨n, -, hlike⟩ := RestaurantController.like_of_dirty hf
      have hrefers : (f like).Refers db := by
        rw [hlike]
        exact h.likes i like hrow
      exact .of_grows hgrows h.foods h.orders (h.likes.sets (Table.modify_sets hrow) hrefers)
        h.subscriptions h.reports
  | @subscribed request subscription hvalid hm =>
      exact .of_grows hgrows h.foods h.orders h.likes (h.subscriptions.sets
        (db.subscriptions.insert_sets subscription) (subscribed_refers hvalid hm)) h.reports
  | unsubscribed hl =>
      exact .of_grows hgrows h.foods h.orders h.likes (h.subscriptions.erase _) h.reports
  | @reported request row hvalid hparty hm =>
      exact .of_grows hgrows h.foods h.orders h.likes h.subscriptions
        (h.reports.sets (db.reports.insert_sets row) (reported_refers hparty hm))
  | _ => exact .of_grows hgrows h.foods h.orders h.likes h.subscriptions h.reports

theorem call_referential (step : Step)
    (hactor : ∀ u, step.call.actor = some (.user u) → Names db.users u)
    (h : Referential db) : Referential (serve L db step) := by
  rcases step.call.group with hstock | huser | hedit
  · exact stock_referential hstock hactor h
  · exact account_referential huser h
  · exact edit_referential hedit hactor h

/-- No request writes the list of banned users. -/
theorem call_deprivateLists : (serve L db step).deprivateLists = db.deprivateLists := by
  rcases step.call.group with hstock | huser | hedit
  · rw [stock_frame hstock]
  · rw [account_frame huser]
  · rw [edit_frame hedit]

end Step

/-! ### Announcing -/

/-- The actions that dispatch an event. -/
def Call.announces : Call → Bool
  | orderStore _ _ => true
  | foodStore _ => true
  | foodUpdate _ _ => true
  | _ => false

/-- Announcing something about a restaurant that exists reads no property of null. -/
theorem announce_ne_null (env : Env) {db : Database} {n : Int} (h : Names db.restaurants n) :
    announce env db n ≠ .error .nullProperty := by
  obtain ⟨i, r, hl⟩ := Names.lookup (M := restaurants) h
  unfold announce
  rw [hl]
  cases env.broadcasts <;> simp

theorem store_ne_null {env : Env} {db : Database} {user : Nat} {request : Request}
    (hlist : ∀ i, db.deprivateLists.row i = none) (h : Referential db) :
    ((OrderController.store env user request).serve db).result.2 ≠ .error .nullProperty := by
  have hrecords : OrderController.records db user < 3 := by
    have hnil : (db.deprivateLists.filter fun _ r => r.userId == (user : Int)) = [] :=
      Table.filter_eq_nil.mpr fun i r hr => by rw [hlist i] at hr; cases hr
    simp [OrderController.records, hnil]
  rw [OrderController.store_result]
  unfold OrderController.verdict
  rw [show OrderController.admission db user request = .ok true from if_pos hrecords]
  cases hc : OrderController.checked db request with
  | error a =>
      -- a refusal is a message or a list of failed rules
      unfold OrderController.checked at hc
      split at hc
      · cases hc
        simp
      · split at hc
        · cases hc
        · cases hc
          simp
  | ok x =>
      obtain ⟨i, food⟩ := x
      obtain ⟨-, hrow⟩ := lookup_food (OrderController.checked_ok.mp hc).1
      have hannounce := announce_ne_null env (h.foods i food hrow)
      dsimp only
      unfold OrderController.placed
      cases orders.make (OrderController.attributes env user request) with
      | none => simp
      | some order =>
          dsimp only
          cases (OrderController.deducted env food (request.get .foodNumber)).intColumn with
          | none => simp
          | some n =>
              cases ha : announce env db food.restaurantId with
              | ok _ => simp [Except.map]
              | error e =>
                  rw [ha] at hannounce
                  simpa [Except.map] using hannounce

theorem foodStore_ne_null {env : Env} {db : Database} {request : Request} :
    ((FoodController.store env request).serve db).result.2 ≠ .error .nullProperty := by
  rw [FoodController.store_result]
  cases hvalid : failed db request.input (FoodController.storeRules request) with
  | cons e es => simp
  | nil =>
      dsimp only
      cases hm : foods.make (FoodController.attributes request) with
      | none => simp
      | some food =>
          have hannounce := announce_ne_null env (added_refers hvalid hm)
          dsimp only
          cases ha : announce env db food.restaurantId with
          | ok _ => simp
          | error e =>
              rw [ha] at hannounce
              simpa using hannounce

theorem foodUpdate_ne_null {env : Env} {db : Database} {id : Value} {request : Request}
    (h : Referential db) :
    ((FoodController.update env id request).serve db).result.2 ≠ .error .nullProperty := by
  rw [FoodController.update_result]
  cases hl : foods.lookup db id with
  | none => simp
  | some x =>
      obtain ⟨i, food⟩ := x
      obtain ⟨-, hrow⟩ := lookup_food hl
      dsimp only
      cases hvalid : failed db request.input (FoodController.updateRules i food) with
      | cons e es => simp
      | nil =>
          dsimp only
          unfold FoodController.updated
          cases hf : FoodController.changes request food with
          | none => simp
          | some f =>
              have hfood := changed_refers hvalid hf (h.foods i food hrow)
              have hannounce := announce_ne_null env hfood
              dsimp only
              by_cases hraised : FoodController.raised request food.remaining = true
              · rw [if_pos hraised]
                cases ha : announce env db (f food).restaurantId with
                | ok _ => simp
                | error e =>
                    rw [ha] at hannounce
                    simpa using hannounce
              · rw [if_neg hraised]
                simp

/-! ### Runs -/

/-- A state the routes can reach from empty tables. -/
structure Sound (db : Database) : Prop where
  referential : Referential db
  /-- Nobody is on the list of banned users. -/
  unlisted : ∀ i, db.deprivateLists.row i = none

namespace Visit

variable {L : Laravel} {db : Database} {visit : Visit}

/-- The request reaches an action that dispatches an event. -/
def announces (db : Database) (visit : Visit) : Bool := (visit.call? db).any Call.announces

theorem guard_of_principal {u : Nat} (h : visit.principal db = some (.user u)) :
    guard db visit.token = some u := by
  unfold principal at h
  split at h
  · obtain ⟨i, hi, heq⟩ := Option.map_eq_some_iff.mp h
    cases heq
    exact hi
  · obtain ⟨i, -, heq⟩ := Option.map_eq_some_iff.mp h
    cases heq
  · cases h

/-- The user an action is told of exists. -/
theorem names_of_actor {call : Call} (hcall : visit.call? db = some call) {u : Nat}
    (hactor : call.actor = some (.user u)) : Names db.users u := by
  have hguard := guard_of_principal (principal_of_actor hcall hactor)
  obtain ⟨user, hrow, -⟩ := tokenGuard_some hguard
  exact ⟨u, rfl, by rw [hrow]; rfl⟩

theorem sound_serve (h : Sound db) : Sound (visit.serve L db) := by
  cases hcall : visit.call? db with
  | none =>
      rw [serve_of_none hcall]
      exact h
  | some call =>
      rw [Visit.serve, serve_of_call hcall]
      refine ⟨?_, ?_⟩
      · exact call_referential ⟨visit.env, call⟩ (fun u => names_of_actor hcall) h.referential
      · intro i
        rw [show (respond L db ⟨visit.env, call⟩).state.deprivateLists = db.deprivateLists
          from call_deprivateLists]
        exact h.unlisted i

theorem ne_null_of_announces (h : Sound db) (hannounces : visit.announces db = true) :
    ((visit.handler L).serve db).answer ≠ .error .nullProperty := by
  cases hcall : visit.call? db with
  | none => simp [announces, hcall] at hannounces
  | some call =>
      rw [serve_of_call hcall]
      simp only [announces, hcall, Option.any_some] at hannounces
      cases call with
      | orderStore user request => exact store_ne_null h.unlisted h.referential
      | foodStore request => exact foodStore_ne_null
      | foodUpdate id request => exact foodUpdate_ne_null h.referential
      | _ => cases hannounces

end Visit

theorem sound_after (L : Laravel) (run : List Visit) :
    Sound (after (Visit.serve L) Database.empty run) := by
  have hempty : Sound Database.empty :=
    ⟨⟨.of_empty fun _ => rfl, .of_empty fun _ => rfl, .of_empty fun _ => rfl,
      .of_empty fun _ => rfl, .of_empty fun _ => rfl⟩, fun _ => rfl⟩
  have hrun : Along (Visit.serve L) (fun _ _ => True) Database.empty run :=
    Along.of_forall fun _ _ _ => trivial
  exact after_invariant (fun _ _ h _ => Visit.sound_serve h) hempty hrun

/-- **In every state the routes reach from empty tables every reference names a row.  So
the events find the restaurant of every order and of every food, and no action that
dispatches one reads a property of null.** -/
theorem references_kept (L : Laravel) (run : List Visit) :
    Referential (after (Visit.serve L) Database.empty run) ∧
      (∀ i order, (after (Visit.serve L) Database.empty run).orders.row i = some order →
        ∃ f food r restaurant,
          foods.lookup (after (Visit.serve L) Database.empty run) (.int order.foodId)
            = some (f, food) ∧
          restaurants.lookup (after (Visit.serve L) Database.empty run) (.int food.restaurantId)
            = some (r, restaurant)) ∧
      (∀ i food, (after (Visit.serve L) Database.empty run).foods.row i = some food →
        ∃ r restaurant,
          restaurants.lookup (after (Visit.serve L) Database.empty run) (.int food.restaurantId)
            = some (r, restaurant)) ∧
      ∀ visit : Visit, visit.announces (after (Visit.serve L) Database.empty run) = true →
        ((visit.handler L).serve (after (Visit.serve L) Database.empty run)).answer
          ≠ .error .nullProperty := by
  have hsound := sound_after L run
  generalize after (Visit.serve L) Database.empty run = db at hsound ⊢
  obtain ⟨href, hunlisted⟩ := hsound
  have hfoods : ∀ i food, db.foods.row i = some food → ∃ r restaurant,
      restaurants.lookup db (.int food.restaurantId) = some (r, restaurant) :=
    fun i food hrow => Names.lookup (M := restaurants) (href.foods i food hrow)
  refine ⟨href, fun i order hrow => ?_, hfoods,
    fun visit => visit.ne_null_of_announces ⟨href, hunlisted⟩⟩
  obtain ⟨f, food, hfood⟩ := Names.lookup (M := foods) (href.orders i order hrow).1
  obtain ⟨r, restaurant, hrestaurant⟩ := hfoods f food (lookup_food hfood).2
  exact ⟨f, food, r, restaurant, hfood, hrestaurant⟩

/-- An owner opens a restaurant with a food, and a user registers and orders it. -/
def Sample.opening : List Visit :=
  [⟨draws 'c', "", .ownerRegister (request [(.name, .str "cleo"), (.account, .str "cleo"),
      (.password, .str "secret"), (.phone, .str "0912345678")])⟩,
    ⟨env, token 'c', .restaurantStore (request [(.name, .str "north"), (.«class», .str "bakery"),
      (.eastLongitude, .str "121.5"), (.northLatitude, .str "25.0"), (.startTime, .str "080000"),
      (.endTime, .str "200000"), (.link, .str "north"), (.address, .str "north"),
      (.phone, .str "021234567")])⟩,
    ⟨env, token 'c', .foodStore (request [(.name, .str "bread"), (.remaining, .int 5),
      (.originalPrice, .int 100), (.discountedPrice, .int 50), (.restaurantId, .int 1)])⟩,
    ⟨draws 'a', "", .userRegister (request [(.name, .str "ann"), (.account, .str "ann"),
      (.password, .str "secret")])⟩,
    ⟨env, token 'a', .orderStore (request [(.foodId, .int 1), (.foodNumber, .int 2),
      (.phone, .str "0912345678")])⟩]

theorem references_kept_opening :
    ∃ order f food r restaurant,
      (after (Visit.serve Sample.laravel) Database.empty Sample.opening).orders.row 1
        = some order ∧
      foods.lookup (after (Visit.serve Sample.laravel) Database.empty Sample.opening)
        (.int order.foodId) = some (f, food) ∧
      restaurants.lookup (after (Visit.serve Sample.laravel) Database.empty Sample.opening)
        (.int food.restaurantId) = some (r, restaurant) := by
  have hsome : ((after (Visit.serve Sample.laravel) Database.empty
      Sample.opening).orders.row 1).isSome = true := by decide +kernel
  obtain ⟨order, hrow⟩ := Option.isSome_iff_exists.mp hsome
  obtain ⟨f, food, r, restaurant, hfood, hrestaurant⟩ :=
    (references_kept Sample.laravel Sample.opening).2.1 1 order hrow
  exact ⟨order, f, food, r, restaurant, hrow, hfood, hrestaurant⟩

end Spoiler
