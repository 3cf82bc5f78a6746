/-
The answers tell the whole story of the stock.

Read as a depot, the database has the foods for items and the orders for reservations.  What
the clients were told determines it: replayed from an empty depot, each answer is a possible
operation of the depot, and together they lead to the stock and the orders that are stored.

That takes four things of the requests.  Portions are whole, or what is recorded is not what
is deducted; no field bears the name of the bound of the portions, or more may be ordered than
there is; the database rejects no write, or a cancelled order may not give its portions back;
and the broadcaster takes the events, or an order is stored that the client is told has failed.
-/
import Spoiler.Proofs.Announcements
import Spoiler.Store.Depot

namespace Spoiler

open Store Php

/-! ### The depot -/

def Order.reservation (order : Order) : Reservation Nat :=
  ⟨order.foodId.toNat, order.foodNumber, order.complete, order.send⟩

/-- The stock and the orders of a database. -/
def depot (db : Database) : Depot Nat Nat where
  stock i := (db.foods.row i).map Food.remaining
  reservations k := (db.orders.row k).map Order.reservation

/-- What the client is told that has happened to the stock. -/
def told (call : Call) (answer : Except Exn Response) : List (Depot.Op Nat Nat) :=
  match call, answer with
  | .foodStore _, .ok ⟨200, .food i food⟩ => [.supply i food.remaining]
  | .foodUpdate _ _, .ok ⟨200, .food i food⟩ => [.supply i food.remaining]
  | .orderStore _ _, .ok ⟨200, .order k order⟩ =>
      [.reserve k order.foodId.toNat order.foodNumber]
  | .orderComplete _, .ok ⟨200, .order k _⟩ => [.complete k]
  | .orderCancel _, .ok ⟨200, .order k _⟩ => [.cancel k]
  | _, _ => []

theorem told_of_error {call : Call} {a : Except Exn Response} (h : isError a = true) :
    told call a = [] := by
  unfold told
  split <;> first | rfl | (simp [isError] at h)

theorem told_of_other {call : Call} (hstock : ¬ (call.isOrder = true ∨ call.isFood = true))
    (a : Except Exn Response) : told call a = [] := by
  unfold told
  split <;> first | rfl | (simp [Call.isOrder, Call.isFood] at hstock)

/-! ### One request -/

section Step

variable {L : Laravel} {db : Database} {step : Step}

/-- Requests that have nothing to do with the stock. -/
theorem depot_of_other (h : ¬ (step.call.isOrder = true ∨ step.call.isFood = true)) :
    depot (serve L db step) = depot db := by
  rcases step.call.group with hstock | huser | hedit
  · exact absurd hstock h
  · rw [account_frame huser]
    rfl
  · rw [edit_frame hedit]
    rfl

/-- A food that is set to a stock, and everything else as it was. -/
theorem depot_supply {foods : Table Food} {i : Nat} {n : Int}
    (hset : (foods.row i).map Food.remaining = some n)
    (helse : ∀ j, j ≠ i → (foods.row j).map Food.remaining = (db.foods.row j).map Food.remaining) :
    (depot db).step (.supply i n) = some (depot { db with foods := foods }) := by
  refine congrArg some (Depot.ext (funext fun j => ?_) rfl)
  show Function.update (depot db).stock i (some n) j = (foods.row j).map Food.remaining
  by_cases hj : j = i
  · subst hj
    rw [Function.update_self]
    exact hset.symm
  · rw [Function.update_of_ne hj]
    exact (helse j hj).symm

/-- An order whose row is set, and everything else as it was. -/
theorem depot_note {orders : Table Order} {k : Nat} {order : Order}
    (hsets : db.orders.Sets orders k order) :
    (depot db).note k order.reservation = depot { db with orders := orders } := by
  refine Depot.ext rfl (funext fun j => ?_)
  show Function.update (depot db).reservations k (some order.reservation) j
    = (orders.row j).map Order.reservation
  by_cases hj : j = k
  · subst hj
    rw [Function.update_self, hsets.here]
    rfl
  · rw [Function.update_of_ne hj, hsets.elsewhere j hj]
    rfl

/-- A stock that changes by a number. -/
theorem depot_add {i : Nat} {food : Food} (hrow : db.foods.row i = some food) {n m : Int}
    (hn : n = food.remaining + m) :
    (depot db).add i m = depot { db with foods := db.foods.modify i (Food.stocked n) } := by
  refine Depot.ext (funext fun j => ?_) rfl
  show Function.update (depot db).stock i (((depot db).stock i).map (· + m)) j
    = ((db.foods.modify i (Food.stocked n)).row j).map Food.remaining
  by_cases hj : j = i
  · subst hj
    rw [Function.update_self, Table.modify_row, if_pos rfl]
    simp [depot, hrow, Food.stocked, hn]
  · rw [Function.update_of_ne hj, Table.modify_row, if_neg hj]
    rfl

theorem told_step (h : Referential db) (hwhole : step.call.ordersWhole = true)
    (hnames : step.call.unshadowed db = true)
    (hwrite : isRejected (answer L db step) = false) (hbroadcasts : step.env.broadcasts = true) :
    (depot db).run (told step.call (answer L db step)) = some (depot (serve L db step)) := by
  by_cases hstock : step.call.isOrder = true ∨ step.call.isFood = true
  · have hmoves := moves L db step hstock
    generalize serve L db step = db' at hmoves ⊢
    generalize answer L db step = a at hmoves hwrite ⊢
    cases hmoves with
    | still horders hfoods herror =>
        rw [told_of_error herror, Depot.run_nil]
        refine congrArg some (Depot.ext (funext fun i => ?_) (funext fun k => ?_))
        · simp only [depot, hfoods]
        · simp only [depot, horders]
    | @placed env user request i food order n hv hm hn =>
        obtain ⟨hl, hvalid, -⟩ := OrderController.verdict_ok.mp hv
        obtain ⟨hkey, hrow⟩ := lookup_food hl
        have hdrawn := OrderController.drawn_of_make hm
        have hid : order.foodId = i := Value.intColumn_of_key hkey hdrawn.foodId
        have hn' : n = food.remaining - order.foodNumber := deducted_eq hm hn hwhole
        have hbound : request.bound food.remaining = none := by
          simpa [Call.unshadowed, hl] using hnames
        have hnonneg : 0 ≤ n := deducted_nonneg hbound hvalid hn
        obtain ⟨r, restaurant, hplace⟩ := Names.lookup (M := restaurants) (h.foods i food hrow)
        have hannounce : announce env db food.restaurantId = .ok () := by
          unfold announce
          rw [hplace]
          exact if_pos hbroadcasts
        rw [hannounce]
        show (depot db).run [.reserve db.orders.next order.foodId.toNat order.foodNumber] = _
        rw [Depot.run_singleton, hid, Int.toNat_natCast]
        have hfresh : (depot db).reservations db.orders.next = none := by
          show (db.orders.row db.orders.next).map Order.reservation = none
          rw [Table.row_next, Option.map_none]
        have hleft : (depot db).stock i = some food.remaining := by
          show (db.foods.row i).map Food.remaining = some food.remaining
          rw [hrow, Option.map_some]
        have hnew : (⟨i, order.foodNumber, false, true⟩ : Reservation Nat) = order.reservation := by
          unfold Order.reservation
          rw [hid, Int.toNat_natCast, hdrawn.complete, hdrawn.send]
        rw [Depot.step_reserve hfresh hleft (by omega), depot_add hrow (n := n) (by omega), hnew]
        exact congrArg some (depot_note (db.orders.insert_sets order))
    | @completed env id k order hl hsend =>
        obtain ⟨-, hrow⟩ := lookup_order hl
        have hid : (depot db).reservations k = some order.reservation := by
          show (db.orders.row k).map Order.reservation = some order.reservation
          rw [hrow, Option.map_some]
        show (depot db).run [.complete k] = _
        rw [Depot.run_singleton, Depot.step_complete hid hsend]
        exact congrArg some (depot_note (Table.modify_sets (f := Order.completed) hrow))
    | @stranded env id k order e hl hsend hfail =>
        -- the food of an order is there, so it is the column that rejects the number
        obtain ⟨-, hrow⟩ := lookup_order hl
        rcases hfail with ⟨hnone, -⟩ | ⟨-, -, -, -, rfl⟩
        · obtain ⟨f, food, hf⟩ := Names.lookup (M := foods) (h.orders k order hrow).1
          rw [hnone] at hf
          cases hf
        · cases hwrite
    | @returned env id k order i food n hl hsend hf hn =>
        obtain ⟨-, hrow⟩ := lookup_order hl
        obtain ⟨hkey, hfood⟩ := lookup_food hf
        have hid : (depot db).reservations k = some order.reservation := by
          show (db.orders.row k).map Order.reservation = some order.reservation
          rw [hrow, Option.map_some]
        have hitem : order.reservation.item = i := by
          show order.foodId.toNat = i
          rw [foodId_of_key hkey, Int.toNat_natCast]
        have hgone : { order.reservation with stands := false } = order.cancelled.reservation := rfl
        show (depot db).run [.cancel k] = _
        rw [Depot.run_singleton, Depot.step_cancel hid hsend, hgone, hitem,
          depot_add hfood (m := order.reservation.number) (intColumn_int hn)]
        exact congrArg some (depot_note (Table.modify_sets (f := Order.cancelled) hrow))
    | @added env request food hvalid hm =>
        show (depot db).run [.supply db.foods.next food.remaining] = _
        rw [Depot.run_singleton]
        refine depot_supply ?_ fun j hj => ?_
        · rw [(db.foods.insert_sets food).here, Option.map_some]
        · rw [(db.foods.insert_sets food).elsewhere j hj]
    | @changed env id request i food f hl hvalid hf =>
        obtain ⟨-, hrow⟩ := lookup_food hl
        have hsets := Table.modify_sets (f := f) hrow
        show (depot db).run [.supply i (f food).remaining] = _
        rw [Depot.run_singleton]
        refine depot_supply ?_ fun j hj => ?_
        · rw [hsets.here, Option.map_some]
        · rw [hsets.elsewhere j hj]
  · rw [told_of_other hstock, Depot.run_nil, depot_of_other hstock]

end Step

/-! ### Runs -/

namespace Visit

/-- What the client is told that has happened to the stock. -/
def told (L : Laravel) (db : Database) (visit : Visit) : List (Depot.Op Nat Nat) :=
  match visit.call? db with
  | none => []
  | some call => Spoiler.told call (visit.answer L db)

/-- Portions are whole and held against the stock, the database takes every write and the
broadcaster every event. -/
structure Plain (L : Laravel) (db : Database) (visit : Visit) : Prop where
  whole : (visit.call? db).all Call.ordersWhole = true
  unshadowed : (visit.call? db).all (Call.unshadowed db) = true
  written : isRejected (visit.answer L db) = false
  broadcasts : visit.env.broadcasts = true

instance (L : Laravel) (db : Database) (visit : Visit) : Decidable (visit.Plain L db) :=
  decidable_of_iff (_ ∧ _ ∧ _ ∧ _)
    ⟨fun h => ⟨h.1, h.2.1, h.2.2.1, h.2.2.2⟩, fun h => ⟨h.1, h.2, h.3, h.4⟩⟩

theorem replayed {L : Laravel} {db : Database} {visit : Visit} (h : Referential db)
    (hplain : visit.Plain L db) :
    (depot db).run (visit.told L db) = some (depot (visit.serve L db)) := by
  unfold told
  cases hcall : visit.call? db with
  | none =>
      rw [serve_of_none hcall]
      rfl
  | some call =>
      have hserve := serve_of_call (L := L) hcall
      have hanswer : visit.answer L db = Spoiler.answer L db ⟨visit.env, call⟩ :=
        congrArg Outcome.answer hserve
      have hstate : visit.serve L db = Spoiler.serve L db ⟨visit.env, call⟩ :=
        congrArg Outcome.state hserve
      obtain ⟨hwhole, hnames, hwrite, hbroadcasts⟩ := hplain
      rw [hcall, Option.all_some] at hwhole hnames
      rw [hanswer] at hwrite ⊢
      rw [hstate]
      exact told_step h hwhole hnames hwrite hbroadcasts

end Visit

/-- **What the clients were told, replayed in an empty depot, is possible step by step and
leads to the stock and the orders in the database.** -/
theorem answers_replay (L : Laravel) (run : List Visit)
    (hrun : Along (Visit.serve L) (Visit.Plain L) Database.empty run) :
    Depot.nothing.run (trace (Visit.serve L) (Visit.told L) Database.empty run)
      = some (depot (after (Visit.serve L) Database.empty run)) := by
  have hstep : ∀ (db : Database) (log : List (Depot.Op Nat Nat)) (visit : Visit),
      (Sound db ∧ Depot.nothing.run log = some (depot db)) → visit.Plain L db →
        Sound (visit.serve L db) ∧
          Depot.nothing.run (log ++ visit.told L db) = some (depot (visit.serve L db)) := by
    intro db log visit hinv hplain
    obtain ⟨hsound, hlog⟩ := hinv
    refine ⟨Visit.sound_serve hsound, ?_⟩
    rw [Depot.run_append, hlog, Option.bind_some, visit.replayed hsound.referential hplain]
  have hbase : Sound Database.empty ∧
      (Depot.nothing : Depot Nat Nat).run [] = some (depot Database.empty) :=
      ⟨sound_after L [], rfl⟩
  exact (after_trace_invariant hstep hbase hrun).2

/-- A restaurant opens, and two of its five portions are ordered and then cancelled. -/
def Sample.changed : List Visit := opening ++ [⟨env, token 'a', .orderCancel (.int 1)⟩]

theorem answers_replay_changed :
    Along (Visit.serve Sample.laravel) (Visit.Plain Sample.laravel) Database.empty Sample.changed ∧
      (trace (Visit.serve Sample.laravel) (Visit.told Sample.laravel) Database.empty
        Sample.changed).length = 3 ∧
      Depot.nothing.run (trace (Visit.serve Sample.laravel) (Visit.told Sample.laravel)
          Database.empty Sample.changed)
        = some (depot (after (Visit.serve Sample.laravel) Database.empty Sample.changed)) := by
  have hrun : Along (Visit.serve Sample.laravel) (Visit.Plain Sample.laravel) Database.empty
      Sample.changed := by decide +kernel
  exact ⟨hrun, by decide +kernel, answers_replay Sample.laravel Sample.changed hrun⟩

end Spoiler
