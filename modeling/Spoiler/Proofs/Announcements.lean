/-
What is announced.

An order is announced once, to the restaurant that sells the food, and stays unannounced only
where the broadcaster refuses the event: over a run the orders announced are the orders in the
table.  A food is announced when an owner's request makes more of it than there was, and so
what customers hear of a food is exactly what an owner has put in; portions that come back from
a cancelled order are not announced.

The three handlers that dispatch an event get one equation each for the events.  The others
are programs of which the contract lets nothing be dispatched.
-/
import Spoiler.Php.Digits
import Spoiler.Proofs.Interleaved
import Spoiler.Proofs.Ledger

namespace Spoiler

open Store Php

/-! ### The events of one request -/

/-- What is heard on the channel of a restaurant. -/
def heard (env : Env) (db : Database) (restaurantId : Int) (ev : Nat → Event) : List Event :=
  match restaurants.lookup db (.int restaurantId) with
  | none => []
  | some (r, _) => if env.broadcasts then [ev r] else []

theorem events_dispatch {A : Type} (env : Env) (db s : Database) (c : Conn Database)
    (restaurantId : Int) (ev : Nat → Event) (k : Unit → Action A) :
    ((dispatch env (restaurants.lookup db (.int restaurantId)) ev >>= k).exec s c).events =
      match announce env db restaurantId with
      | .error _ => []
      | .ok _ => heard env db restaurantId ev ++ ((k ()).exec s c).events := by
  unfold announce heard
  cases restaurants.lookup db (.int restaurantId) with
  | none => rfl
  | some r =>
      simp only [dispatch]
      by_cases hb : env.broadcasts
      · rw [if_pos hb, if_pos hb, if_pos hb]
        rfl
      · rw [if_neg hb, if_neg hb]
        rfl

namespace OrderController

theorem events_newOrder {env : Env} {i id : Nat} {food : Food} {order : Order} (db : Database)
    (hrow : db.foods.row i = some food) (hfood : order.foodId = i) (response : Response) :
    ((newOrder env id order >>= fun _ => pure response).exec db .idle).events
      = heard env db food.restaurantId (.newOrder id) := by
  unfold newOrder
  simp only [Model.find_eq, Prog.select_bind, Prog.ret_bind, Prog.exec_select, Conn.view_idle,
    Conn.looked_idle, hfood, lookup_natCast, foods_get, hrow, Option.map_some]
  rw [events_dispatch]
  unfold announce heard
  cases restaurants.lookup db (.int food.restaurantId) with
  | none => rfl
  | some r => cases env.broadcasts <;> rfl

/-- The events of an order request. -/
theorem store_events (env : Env) (user : Nat) (request : Request) (db : Database) :
    ((store env user request).serve db).events =
      match verdict db user request with
      | .error _ => []
      | .ok (_, food) =>
          match orders.make (attributes env user request),
            (deducted env food (request.get .foodNumber)).intColumn with
          | some _, some _ => heard env db food.restaurantId (.newOrder db.orders.next)
          | _, _ => [] := by
  rw [store_eq, Prog.serve, exec_storeBody]
  cases hv : verdict db user request with
  | error answer => rfl
  | ok x =>
      obtain ⟨i, food⟩ := x
      obtain ⟨hkey, hrow⟩ := Model.lookup_some.mp (verdict_ok.mp hv).1
      dsimp only
      rw [place, Model.exec_create_inside rfl]
      cases hm : orders.make (attributes env user request) with
      | none => rfl
      | some order =>
          have hfood : order.foodId = i := Value.intColumn_of_key hkey (drawn_of_make hm).foodId
          cases hn : (deducted env food (request.get .foodNumber)).intColumn with
          | none =>
              dsimp only
              rw [Model.update_only_rejected foods_nodup (by decide)
                (by rw [assign_remaining, hn]; rfl)]
              rfl
          | some n =>
              dsimp only
              rw [Model.exec_update_only_inside rfl foods_nodup (f := Food.stocked n) (by decide)
                (by rw [assign_remaining, hn]; rfl)]
              simp only [commit, Prog.commit_bind, Prog.ret_bind, Prog.exec_commit,
                Conn.committed_inside]
              rw [Model.applyAll_buffered hrow]
              have hstocked : (db.foods.modify i (Food.stocked n)).row i
                  = some (food.stocked n) := by
                rw [Table.modify_row, if_pos rfl, show db.foods.row i = some food from hrow]
                rfl
              exact events_newOrder { db with
                orders := db.orders.insert order
                foods := db.foods.modify i (Food.stocked n) } hstocked hfood _

end OrderController

namespace FoodController

theorem events_foodAdded {env : Env} {id : Nat} {food : Food} {db s : Database}
    {ws : List (Database → Database)} (hws : (applyAll ws db).restaurants = db.restaurants)
    (response : Response) :
    ((foodAdded env id food >>= fun _ => commit >>= fun _ => pure response).exec s
      ⟨some db, [ws]⟩).events = heard env db food.restaurantId (.foodAdded id) := by
  have hlook : restaurants.lookup (applyAll ws db) (.int food.restaurantId)
      = restaurants.lookup db (.int food.restaurantId) := by
    unfold Model.lookup
    rw [show restaurants.table.get (applyAll ws db) = restaurants.table.get db from hws]
  unfold foodAdded
  simp only [Model.find_eq, Prog.select_bind, Prog.ret_bind, Prog.exec_select,
    Conn.view_snap, Conn.looked_inside, Option.getD_some, hlook]
  rw [events_dispatch]
  unfold announce heard
  cases restaurants.lookup db (.int food.restaurantId) with
  | none => rfl
  | some r => cases env.broadcasts <;> rfl

/-- The events of a request for a new food. -/
theorem store_events (env : Env) (request : Request) (db : Database) :
    ((store env request).serve db).events =
      match failed db request.input (storeRules request), foods.make (attributes request) with
      | [], some food => heard env db food.restaurantId (.foodAdded db.foods.next)
      | _, _ => [] := by
  rw [store_eq, Prog.serve]
  unfold storeBody
  rw [exec_validated]
  cases hv : failed db request.input (storeRules request) with
  | cons e es => rfl
  | nil =>
      dsimp only
      rw [Model.exec_create_inside rfl]
      cases hm : foods.make (attributes request) with
      | none => rfl
      | some food => exact events_foodAdded rfl _

/-- The events of an update of a food. -/
theorem update_events (env : Env) (id : Value) (request : Request) (db : Database) :
    ((update env id request).serve db).events =
      match foods.lookup db id with
      | none => []
      | some (i, food) =>
          match failed db request.input (updateRules i food), changes request food with
          | [], some f =>
              if raised request food.remaining then
                heard env db (f food).restaurantId (.foodAdded i)
              else []
          | _, _ => [] := by
  rw [update_eq, Prog.serve, Model.exec_find_idle]
  cases hl : foods.lookup db id with
  | none => rfl
  | some x =>
      obtain ⟨i, food⟩ := x
      obtain ⟨-, hrow⟩ := Model.lookup_some.mp hl
      dsimp only
      unfold updateBody
      rw [exec_validated]
      cases hv : failed db request.input (updateRules i food) with
      | cons e es => rfl
      | nil =>
          dsimp only
          unfold updateImage
          rw [Model.exec_updateImage rfl foods_nodup image_mem]
          unfold changes Model.changes
          cases hf : foods.imageChange request with
          | none => rfl
          | some f =>
              dsimp only
              rw [Model.exec_update_inside rfl, imageChange_remaining hf]
              simp only [Option.bind_eq_bind, Option.bind_some]
              cases hg : foods.dirty (request.except .image) (f food) foods.fillable with
              | none => rfl
              | some g =>
                  have hbuf : applyAll (foods.buffered (foods.buffered [] i food f) i (f food) g) db
                      = { db with foods := db.foods.modify i (g ∘ f) } :=
                    Model.applyAll_twice hrow
                  dsimp only [Option.bind_some, Function.comp_apply]
                  by_cases hraised : raised request food.remaining
                  · rw [if_pos hraised, if_pos hraised]
                    exact events_foodAdded (by rw [hbuf]) _
                  · rw [if_neg hraised, if_neg hraised]
                    rfl

end FoodController

/-! ### The other requests -/

/-- An action that dispatches no event. -/
theorem events_of_not_announces {L : Laravel} {db : Database} (h : Referential db) {step : Step}
    (hactor : ∀ u, step.call.actor = some (.user u) → Names db.users u)
    (hcall : step.call.announces = false) : (respond L db step).events = [] := by
  obtain ⟨env, call⟩ := step
  have hnone : ∀ {post : Knows → Response → Prop},
      (call.handler L env).wp (contract .nothing) (fun _ _ => False) (within True)
        post (.outside db) →
      ((call.handler L env).serve db).events = [] := by
    intro post hwp
    refine List.eq_nil_iff_forall_not_mem.mpr fun ev hev => ?_
    have hright : (contract .nothing).Right db (.outside db) .idle := ⟨rfl, .refl db⟩
    obtain ⟨g, hfalse⟩ := Prog.events_of_wp _ hright h hwp ev hev
    exact hfalse
  cases call with
  | orderStore user request => cases hcall
  | foodStore request => cases hcall
  | foodUpdate id request => cases hcall
  | orderComplete id => exact hnone OrderController.complete_wp
  | orderCancel id => exact hnone (OrderController.cancel_wp (Route.orderCancel id).allows_nothing)
  | userStore request => exact hnone UserController.store_wp
  | userLogin request => exact hnone (UserController.login_wp trivial)
  | userUpdate id request => exact hnone UserController.update_wp
  | userLogout id => exact hnone UserController.logout_wp
  | fbLogin resource => exact hnone (FBController.login_wp trivial)
  | ownerStore request => exact hnone OwnerController.store_wp
  | ownerLogin request => exact hnone OwnerController.login_wp
  | restaurantStore owner request => exact hnone RestaurantController.store_wp
  | restaurantUpdate id request => exact hnone RestaurantController.update_wp
  | score user request => exact hnone (RestaurantController.score_wp (hactor user rfl))
  | subscriptStore request => exact hnone SubscriptController.store_wp
  | subscriptCancel id => exact hnone (SubscriptController.cancel_wp trivial)
  | report request => exact hnone ReportController.report_wp

/-! ### Orders -/

/-- The order an event announces. -/
def Event.order? : Event → Option Nat
  | .newOrder id _ => some id
  | .foodAdded _ _ => none

/-- The orders announced by some events. -/
def announcedOrders (events : List Event) : List Nat := events.filterMap Event.order?

theorem announcedOrders_heard (env : Env) (db : Database) (restaurantId : Int) (id : Nat) :
    announcedOrders (heard env db restaurantId (.foodAdded id)) = [] := by
  unfold heard
  cases restaurants.lookup db (.int restaurantId) with
  | none => rfl
  | some r => cases env.broadcasts <;> rfl

/-- A request that is no order leaves the same orders in the table. -/
theorem keys_of_not_store {L : Laravel} {db : Database} {step : Step}
    (h : ∀ user request, step.call ≠ .orderStore user request) :
    (serve L db step).orders.keys = db.orders.keys := by
  rcases step.call.group with hstock | huser | hedit
  · have hmoves := moves L db step hstock
    generalize serve L db step = db' at hmoves ⊢
    generalize answer L db step = a at hmoves
    cases hmoves with
    | still horders hfoods herror => exact Table.keys_congr fun i => by rw [horders]
    | @placed env user request i food order n hv hm hn => exact absurd rfl (h user request)
    | completed hl hsend => exact Table.keys_modify _ _ _
    | stranded hl hsend hfail => exact Table.keys_modify _ _ _
    | returned hl hsend hf hn => exact Table.keys_modify _ _ _
    | added hvalid hm => rfl
    | changed hl hvalid hf => rfl
  · rw [account_frame huser]
  · rw [edit_frame hedit]

/-- The orders a request adds to the table, and those it announces: none of them more than
once, and all of them unless the broadcaster refuses. -/
theorem call_announced {L : Laravel} {db : Database} (h : Referential db) (step : Step)
    (hactor : ∀ u, step.call.actor = some (.user u) → Names db.users u) :
    ∃ new, (serve L db step).orders.keys = db.orders.keys ++ new ∧
      (announcedOrders (respond L db step).events).Sublist new ∧
      (step.env.broadcasts = true → announcedOrders (respond L db step).events = new) := by
  by_cases hstore : ∃ user request, step.call = .orderStore user request
  · obtain ⟨env, call⟩ := step
    obtain ⟨user, request, rfl⟩ := hstore
    have hresult : serve L db ⟨env, .orderStore user request⟩ = _ :=
      congrArg Prod.fst (OrderController.store_result env user request db)
    have hevents : (respond L db ⟨env, .orderStore user request⟩).events = _ :=
      OrderController.store_events env user request db
    rw [hresult, hevents]
    cases hv : OrderController.verdict db user request with
    | error a => exact ⟨[], (List.append_nil _).symm, .slnil, fun _ => rfl⟩
    | ok x =>
        obtain ⟨i, food⟩ := x
        dsimp only
        unfold OrderController.placed
        cases hm : orders.make (OrderController.attributes env user request) with
        | none => exact ⟨[], (List.append_nil _).symm, .slnil, fun _ => rfl⟩
        | some order =>
            dsimp only
            cases hn : (OrderController.deducted env food (request.get .foodNumber)).intColumn with
            | none =>
                refine ⟨[], ?_, .slnil, fun _ => rfl⟩
                rw [List.append_nil]
                exact Table.keys_congr fun _ => rfl
            | some n =>
                obtain ⟨-, hrow⟩ := lookup_food (OrderController.verdict_ok.mp hv).1
                obtain ⟨r, restaurant, hl⟩ := Names.lookup (M := restaurants) (h.foods i food hrow)
                refine ⟨[db.orders.next], Table.keys_insert _ _, ?_, fun hb => ?_⟩
                · dsimp only
                  rw [heard, hl]
                  dsimp only
                  split
                  · exact .refl _
                  · exact List.nil_sublist _
                · dsimp only at hb ⊢
                  rw [heard, hl]
                  dsimp only
                  rw [if_pos hb]
                  rfl
  · have hnot : ∀ user request, step.call ≠ .orderStore user request :=
      fun user request heq => hstore ⟨user, request, heq⟩
    have hnone : announcedOrders (respond L db step).events = [] := by
      by_cases hannounces : step.call.announces = false
      · rw [events_of_not_announces h hactor hannounces]
        rfl
      · obtain ⟨env, call⟩ := step
        cases call with
        | orderStore user request => exact absurd rfl (hnot user request)
        | foodStore request =>
            rw [show (respond L db ⟨env, .foodStore request⟩).events = _
              from FoodController.store_events env request db]
            split
            · exact announcedOrders_heard _ _ _ _
            · rfl
        | foodUpdate id request =>
            rw [show (respond L db ⟨env, .foodUpdate id request⟩).events = _
              from FoodController.update_events env id request db]
            split
            · rfl
            · split
              · split
                · exact announcedOrders_heard _ _ _ _
                · rfl
              · rfl
        | _ => exact absurd rfl hannounces
    exact ⟨[], by rw [keys_of_not_store hnot, List.append_nil], by rw [hnone], fun _ => hnone⟩

namespace Visit

variable {L : Laravel} {db : Database} {visit : Visit}

theorem events_of_call {call : Call} (h : visit.call? db = some call) :
    visit.events L db = (respond L db ⟨visit.env, call⟩).events := by
  rw [events, serve_of_call h]

theorem events_of_none (h : visit.call? db = none) : visit.events L db = [] := by
  unfold call? at h
  unfold events handler
  cases haccess : visit.route.access with
  | anyone c =>
      rw [haccess] at h
      cases h
  | auth c =>
      rw [haccess, Option.map_eq_none_iff] at h
      simp only [authenticate, Prog.serve, Prog.exec_select, Conn.view_idle, Conn.looked_idle, h]
      rfl
  | ownerAuth c =>
      rw [haccess, Option.map_eq_none_iff] at h
      simp only [authenticate, Prog.serve, Prog.exec_select, Conn.view_idle, Conn.looked_idle, h]
      rfl
  | page body =>
      simp only [Prog.serve, Prog.exec_select, Conn.view_idle, Conn.looked_idle]
      cases body db <;> rfl
  | missing => rfl

theorem announced (h : Sound db) :
    ∃ new, (visit.serve L db).orders.keys = db.orders.keys ++ new ∧
      (announcedOrders (visit.events L db)).Sublist new ∧
      (visit.env.broadcasts = true → announcedOrders (visit.events L db) = new) := by
  cases hcall : visit.call? db with
  | none =>
      rw [serve_of_none hcall, events_of_none hcall]
      exact ⟨[], (List.append_nil _).symm, .slnil, fun _ => rfl⟩
  | some call =>
      rw [events_of_call hcall, Visit.serve, serve_of_call hcall]
      exact call_announced h.referential ⟨visit.env, call⟩ fun u => names_of_actor hcall

end Visit

theorem announcedOrders_append (l l' : List Event) :
    announcedOrders (l ++ l') = announcedOrders l ++ announcedOrders l' :=
  List.filterMap_append

/-- **The orders announced in a run are orders in the table, each announced once and in the
order they were placed; and they are all of them unless the broadcaster refuses one.** -/
theorem orders_announced (L : Laravel) (run : List Visit) :
    (announcedOrders (trace (Visit.serve L) (Visit.events L) Database.empty run)).Sublist
        (after (Visit.serve L) Database.empty run).orders.keys ∧
      ((∀ visit ∈ run, visit.env.broadcasts = true) →
        announcedOrders (trace (Visit.serve L) (Visit.events L) Database.empty run)
          = (after (Visit.serve L) Database.empty run).orders.keys) := by
  have hempty : Sound Database.empty := sound_after L []
  constructor
  · have hstep : ∀ db l (visit : Visit),
        (Sound db ∧ (announcedOrders l).Sublist db.orders.keys) → True →
        Sound (visit.serve L db) ∧
          (announcedOrders (l ++ visit.events L db)).Sublist (visit.serve L db).orders.keys := by
      rintro db l visit ⟨hsound, hsub⟩ -
      obtain ⟨new, hkeys, hnew, -⟩ := visit.announced (L := L) hsound
      refine ⟨Visit.sound_serve hsound, ?_⟩
      rw [announcedOrders_append, hkeys]
      exact hsub.append hnew
    have hrun : Along (Visit.serve L) (fun _ _ => True) Database.empty run :=
      Along.of_forall fun _ _ _ => trivial
    have hbase : Sound Database.empty ∧ (announcedOrders []).Sublist Database.empty.orders.keys :=
      ⟨hempty, List.nil_sublist _⟩
    exact (after_trace_invariant hstep hbase hrun).2
  · intro hbroadcasts
    have hstep : ∀ db l (visit : Visit),
        (Sound db ∧ announcedOrders l = db.orders.keys) → visit.env.broadcasts = true →
        Sound (visit.serve L db) ∧
          announcedOrders (l ++ visit.events L db) = (visit.serve L db).orders.keys := by
      rintro db l visit ⟨hsound, heq⟩ hb
      obtain ⟨new, hkeys, -, hnew⟩ := visit.announced (L := L) hsound
      refine ⟨Visit.sound_serve hsound, ?_⟩
      rw [announcedOrders_append, hkeys, heq, hnew hb]
    have hrun : Along (Visit.serve L) (fun _ visit => visit.env.broadcasts = true) Database.empty
        run := Along.of_forall fun visit hvisit _ => hbroadcasts visit hvisit
    have hbase : Sound Database.empty ∧ announcedOrders [] = Database.empty.orders.keys :=
      ⟨hempty, rfl⟩
    exact (after_trace_invariant hstep hbase hrun).2

/-! ### Foods -/

/-- After a request there is more of food `i` than before it, or it is new, and it belongs to
restaurant `r`.  The number `true` counts as more only where there was not less than none. -/
def Restocked (before after : Database) (request : Request) (i r : Nat) : Prop :=
  ∃ food, after.foods.row i = some food ∧ food.restaurantId = r ∧
    ∀ old, before.foods.row i = some old →
      old.remaining < food.remaining ∧
        (request.input .remaining = some (.bool true) → 0 ≤ old.remaining)

theorem not_restocked {before after : Database} {request : Request} {i r : Nat}
    (h : after.foods.row i = before.foods.row i) : ¬ Restocked before after request i r := by
  rintro ⟨food, hrow, -, hmore⟩
  exact lt_irrefl _ (hmore food (h ▸ hrow)).1

theorem foodAdded_mem_heard {env : Env} {db : Database} {n : Int} {i j r : Nat} :
    .foodAdded j r ∈ heard env db n (.foodAdded i) ↔
      announce env db n = .ok () ∧ j = i ∧ n = r := by
  unfold heard announce
  cases hl : restaurants.lookup db (.int n) with
  | none => simp
  | some x =>
      obtain ⟨k, restaurant⟩ := x
      have hkey : n = k := foodId_of_key (Model.lookup_some.mp hl).1
      cases env.broadcasts with
      | false => simp
      | true =>
          simp only [if_true, List.mem_singleton, Event.foodAdded.injEq, true_and, hkey]
          omega

namespace FoodController

theorem store_foodAdded (env : Env) (request : Request) (db : Database) (i r : Nat) :
    .foodAdded i r ∈ ((store env request).serve db).events ↔
      Restocked db ((store env request).serve db).state request i r := by
  rw [show ((store env request).serve db).state = _
    from congrArg Prod.fst (store_result env request db), store_events]
  cases failed db request.input (storeRules request) with
  | cons e es => exact iff_of_false List.not_mem_nil (not_restocked rfl)
  | nil =>
      cases foods.make (attributes request) with
      | none => exact iff_of_false List.not_mem_nil (not_restocked rfl)
      | some food =>
          dsimp only
          rw [foodAdded_mem_heard]
          cases announce env db food.restaurantId with
          | error e => exact iff_of_false (by simp) (not_restocked rfl)
          | ok _ =>
              constructor
              · rintro ⟨-, rfl, hr⟩
                refine ⟨food, by simp, hr, fun old hold => ?_⟩
                rw [Table.row_next] at hold
                cases hold
              · rintro ⟨new, hrow, hr, hmore⟩
                rcases Table.insert_row_some.mp hrow with ⟨rfl, rfl⟩ | hold
                · exact ⟨rfl, rfl, hr⟩
                · exact absurd (hmore new hold).1 (lt_irrefl _)

/-- The comparison `update` makes is the one between the food before and after it. -/
theorem raised_iff {db : Database} {request : Request} {i : Nat} {food : Food} {f : Food → Food}
    (hvalid : failed db request.input (updateRules i food) = [])
    (hf : changes request food = some f) :
    raised request food.remaining = true ↔
      food.remaining < (f food).remaining ∧
        (request.input .remaining = some (.bool true) → 0 ≤ food.remaining) := by
  unfold raised
  rcases remaining_column.changes (by decide) hf with ⟨hnone, hsame⟩ | ⟨v, n, hv, hn, hset⟩
  · rw [hnone, hsame]
    simp
  · have hrule : (Attr.remaining, [Rule.integer]) ∈ updateRules i food := by simp [updateRules]
    have hint : Rule.integer.passes db v = true :=
      passes_of_input hvalid hrule (List.mem_singleton.mpr rfl) (by decide) hv
    rw [hv, hset]
    simpa using gtInt_iff hint hn

theorem update_foodAdded (env : Env) (id : Value) (request : Request) (db : Database) (i r : Nat) :
    .foodAdded i r ∈ ((update env id request).serve db).events ↔
      Restocked db ((update env id request).serve db).state request i r := by
  rw [show ((update env id request).serve db).state = _
    from congrArg Prod.fst (update_result env id request db), update_events]
  cases hl : foods.lookup db id with
  | none => exact iff_of_false List.not_mem_nil (not_restocked rfl)
  | some x =>
      obtain ⟨k, food⟩ := x
      have hold := (lookup_food hl).2
      dsimp only
      cases hvalid : failed db request.input (updateRules k food) with
      | cons e es => exact iff_of_false List.not_mem_nil (not_restocked rfl)
      | nil =>
          unfold updated
          cases hf : changes request food with
          | none => exact iff_of_false List.not_mem_nil (not_restocked rfl)
          | some f =>
              have hraised := raised_iff hvalid hf
              dsimp only
              by_cases h : raised request food.remaining
              · rw [if_pos h, if_pos h, foodAdded_mem_heard]
                cases announce env db (f food).restaurantId with
                | error e => exact iff_of_false (by simp) (not_restocked rfl)
                | ok _ =>
                    constructor
                    · rintro ⟨-, rfl, hr⟩
                      refine ⟨f food, by simp [hold], hr, fun old hrow => ?_⟩
                      cases hold.symm.trans hrow
                      exact hraised.mp h
                    · rintro ⟨new, hrow, hr, hmore⟩
                      rcases Table.modify_row_some.mp hrow with ⟨-, hsame⟩ | ⟨rfl, old, hrow', rfl⟩
                      · exact absurd (hmore new hsame).1 (lt_irrefl _)
                      · cases hold.symm.trans hrow'
                        exact ⟨rfl, rfl, hr⟩
              · rw [if_neg h, if_neg h]
                refine iff_of_false List.not_mem_nil ?_
                rintro ⟨new, hrow, hr, hmore⟩
                rcases Table.modify_row_some.mp hrow with ⟨-, hsame⟩ | ⟨rfl, old, hrow', rfl⟩
                · exact lt_irrefl _ (hmore new hsame).1
                · cases hold.symm.trans hrow'
                  exact h (hraised.mpr (hmore food hold))

end FoodController

/-- Only a food request announces a food. -/
theorem isFood_of_foodAdded {L : Laravel} {db : Database} (h : Referential db) {step : Step}
    (hactor : ∀ u, step.call.actor = some (.user u) → Names db.users u) {i r : Nat}
    (hmem : .foodAdded i r ∈ (respond L db step).events) : step.call.isFood = true := by
  by_cases hannounces : step.call.announces = false
  · rw [events_of_not_announces h hactor hannounces] at hmem
    cases hmem
  · obtain ⟨env, call⟩ := step
    cases call with
    | foodStore request => rfl
    | foodUpdate id request => rfl
    | orderStore user request =>
        rw [show (respond L db ⟨env, .orderStore user request⟩).events = _
          from OrderController.store_events env user request db] at hmem
        split at hmem
        · cases hmem
        · split at hmem
          · unfold heard at hmem
            split at hmem
            · cases hmem
            · split at hmem <;> simp at hmem
          · cases hmem
    | _ => exact absurd rfl hannounces

namespace Visit

variable {L : Laravel} {db : Database} {visit : Visit}

/-- The two routes to a food request. -/
theorem route_of_isFood {call : Call} (hcall : visit.call? db = some call)
    (h : call.isFood = true) :
    ∃ request, visit.route = .foodStore request ∨ ∃ id, visit.route = .foodUpdate id request := by
  obtain ⟨env, token, route⟩ := visit
  cases route with
  | foodStore request => exact ⟨request, .inl rfl⟩
  | foodUpdate id request => exact ⟨request, .inr ⟨id, rfl⟩⟩
  | _ =>
      simp only [call?, Route.access, Option.map_eq_some_iff] at hcall
      grind [Call.isFood]

theorem restocked_iff (h : Sound db) (i r : Nat) :
    .foodAdded i r ∈ visit.events L db ↔
      ∃ request, (visit.route = .foodStore request ∨ ∃ id, visit.route = .foodUpdate id request) ∧
        Restocked db (visit.serve L db) request i r := by
  cases hcall : visit.call? db with
  | none =>
      rw [events_of_none hcall, serve_of_none hcall]
      exact iff_of_false List.not_mem_nil fun ⟨_, _, hmore⟩ => not_restocked rfl hmore
  | some call =>
      rw [events_of_call hcall, Visit.serve, serve_of_call hcall]
      have hfood : (∃ request, visit.route = .foodStore request ∨
          ∃ id, visit.route = .foodUpdate id request) →
          (.foodAdded i r ∈ (respond L db ⟨visit.env, call⟩).events ↔
            ∃ request,
              (visit.route = .foodStore request ∨ ∃ id, visit.route = .foodUpdate id request) ∧
              Restocked db (respond L db ⟨visit.env, call⟩).state request i r) := by
        obtain ⟨env, token, route⟩ := visit
        rintro ⟨request, rfl | ⟨id, rfl⟩⟩
        · obtain ⟨owner, -, rfl⟩ := Option.map_eq_some_iff.mp hcall
          refine (FoodController.store_foodAdded env request db i r).trans ?_
          simp [respond, Call.handler]
        · obtain ⟨owner, -, rfl⟩ := Option.map_eq_some_iff.mp hcall
          refine (FoodController.update_foodAdded env id request db i r).trans ?_
          simp [respond, Call.handler]
      constructor
      · intro hmem
        have hisFood := isFood_of_foodAdded h.referential (fun u => names_of_actor hcall) hmem
        exact (hfood (route_of_isFood hcall hisFood)).mp hmem
      · rintro ⟨request, hroute, hmore⟩
        exact (hfood ⟨request, hroute⟩).mpr ⟨request, hroute, hmore⟩

end Visit

/-- **At any time a food is announced on a restaurant's channel exactly if the request at hand
is one for a new food or an update of one, and it leaves more of the food than there was.** -/
theorem foodAdded_iff (L : Laravel) (run : List Visit) (visit : Visit) (i r : Nat) :
    .foodAdded i r ∈ visit.events L (after (Visit.serve L) Database.empty run) ↔
      ∃ request, (visit.route = .foodStore request ∨ ∃ id, visit.route = .foodUpdate id request) ∧
        Restocked (after (Visit.serve L) Database.empty run)
          (after (Visit.serve L) Database.empty (run ++ [visit])) request i r := by
  rw [after_append]
  exact visit.restocked_iff (sound_after L run) i r

end Spoiler
