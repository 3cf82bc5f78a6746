/-
Where a stock request stands.

`Phase` lists the points a request in flight can be at, with what is known there of the
shared state.  The stage tells how the request is to be accounted for in a serial run:
a request that is `waiting` has no place in it yet; one that is `owing` has been placed,
and what it owes is a write it has still to make; `served` and `refused` requests write
nothing any more, and a refused one never wrote.

A phase survives the statements of other requests as long as these leave alone what the
request holds.
-/
import Spoiler.Proofs.Windows

namespace Spoiler

open Store Php OrderController

/-- The writes a request has still to make: the row of an order, and a stock. -/
structure Debt where
  order : Option (Nat × Order)
  food : Nat
  remaining : Int

/-- Making these writes. -/
def Debt.pay (d : Debt) (db : Database) : Database :=
  { db with
    orders := match d.order with
      | none => db.orders
      | some (k, order) => db.orders.put k order
    foods := db.foods.modify d.food (Food.stocked d.remaining) }

inductive Stage
  | waiting
  | owing (debt : Debt)
  | served
  | refused

/-- Where a request stands, in a pool whose state is `db`. -/
inductive Phase (db : Database) : Step → Flight → Stage → Prop
  | quiet {r : Step} {p : Flight} {st : Stage} (hq : p.prog.Quiet)
      (hst : st = .served ∨ st = .refused) : Phase db r p st
  /-- Inside a transaction that is not going to be committed. -/
  | stuck {r : Step} {prog : Handler} {snap : Database} {ws : List (Database → Database)} {n : Nat}
      {st : Stage} (h : prog.inner snap ws = .stops) (hst : st = .served ∨ st = .refused) :
      Phase db r ⟨prog, ⟨some snap, [ws]⟩, n⟩ st
  | storeStart {env : Env} {user : Nat} {request : Request} :
      Phase db ⟨env, .orderStore user request⟩ (.start (store env user request)) .waiting
  | storeBegun {env : Env} {user : Nat} {request : Request} {k : Database → Handler}
      (hk : ∀ snap, (k snap).inner snap [] =
        match verdict snap user request with
        | .error _ => .stops
        | .ok (i, food) => (place env user request i food).inner snap []) :
      Phase db ⟨env, .orderStore user request⟩ ⟨.select k, ⟨none, [[]]⟩, 1⟩ .waiting
  | storeReading {env : Env} {user : Nat} {request : Request} {prog : Handler} {snap : Database}
      {ws : List (Database → Database)} {n i : Nat} {food row : Food} {order : Order}
      (hinner : prog.inner snap ws = .inserts [] reserveOrder (fun k => putOrder order k)
        (placeRest env request i food order))
      (hm : orders.make (attributes env user request) = some order)
      (hv : verdict snap user request = .ok (i, food))
      (hcur : verdict db user request = .ok (i, row)) (hrem : row.remaining = food.remaining) :
      Phase db ⟨env, .orderStore user request⟩ ⟨prog, ⟨some snap, [ws]⟩, n⟩ .waiting
  | storePaying {env : Env} {user : Nat} {request : Request} {prog tail : Handler}
      {snap : Database} {ws : List (Database → Database)} {n i k : Nat} {x : Int} {food row : Food}
      {order : Order}
      (hinner : prog.inner snap ws
        = .commits (foods.buffered [putOrder order k] i food (Food.stocked x)) tail)
      (htail : tail.Quiet) (hm : orders.make (attributes env user request) = some order)
      (hv : verdict snap user request = .ok (i, food)) (hrow : db.foods.row i = some row)
      (hrem : row.remaining = food.remaining) :
      Phase db ⟨env, .orderStore user request⟩ ⟨prog, ⟨some snap, [ws]⟩, n⟩
        (.owing ⟨some (k, order), i, x⟩)
  | updateStart {env : Env} {id : Value} {request : Request} :
      Phase db ⟨env, .foodUpdate id request⟩ (.start (FoodController.update env id request)) .waiting
  | updateFound {env : Env} {id : Value} {request : Request} {i : Nat} {food row : Food}
      (hkey : id.key? = some i) (hrow : db.foods.row i = some row)
      (hmatch : Matches request row food) :
      Phase db ⟨env, .foodUpdate id request⟩
        ⟨FoodController.updateBody env request i food, .idle, 1⟩ .waiting
  | updateBegun {env : Env} {id : Value} {request : Request} {i : Nat} {food row : Food}
      {k : Database → Handler}
      (hbody : FoodController.updateBody env request i food = .beginTransaction (.select k))
      (hkey : id.key? = some i) (hrow : db.foods.row i = some row)
      (hmatch : Matches request row food) :
      Phase db ⟨env, .foodUpdate id request⟩ ⟨.select k, ⟨none, [[]]⟩, 2⟩ .waiting
  | updateCommitting {env : Env} {id : Value} {request : Request} {prog tail : Handler}
      {snap : Database} {ws : List (Database → Database)} {n i : Nat} {food row : Food}
      {f g : Food → Food}
      (hinner : prog.inner snap ws = .commits (FoodController.updateWrites i food f g) tail)
      (htail : tail.Quiet) (hkey : id.key? = some i) (hrow : db.foods.row i = some row)
      (hmatch : Matches request row food) (hf : foods.imageChange request = some f)
      (hg : foods.dirty (request.except .image) (f food) foods.fillable = some g)
      (hannounce : FoodController.raised request food.remaining = true →
        announce env db (g (f food)).restaurantId = .ok ()) (hn : 1 ≤ n) :
      Phase db ⟨env, .foodUpdate id request⟩ ⟨prog, ⟨some snap, [ws]⟩, n⟩ .waiting
  | cancelStart {env : Env} {id : Value} :
      Phase db ⟨env, .orderCancel id⟩ (.start (cancel id)) .waiting
  | cancelCounted {env : Env} {id : Value} {k : Nat} {order : Order}
      (hl : orders.lookup db id = some (k, order)) :
      Phase db ⟨env, .orderCancel id⟩ ⟨cancelFind id, .idle, 1⟩ .waiting
  | cancelFound {env : Env} {id : Value} {k : Nat} {order : Order}
      (hl : orders.lookup db id = some (k, order)) (hsend : order.send = true) :
      Phase db ⟨env, .orderCancel id⟩ ⟨cancelWrite k order, .idle, 2⟩ .waiting
  | cancelOwing {env : Env} {id : Value} {k f : Nat} {order found : Order} {row : Food} {x : Int}
      (hl : orders.lookup db id = some (k, found)) (hfood : found.foodId = order.foodId)
      (hkey : (Value.int order.foodId).key? = some f) (hrow : db.foods.row f = some row)
      (hx : (Value.int (row.remaining + order.foodNumber)).intColumn = some x) :
      Phase db ⟨env, .orderCancel id⟩ ⟨cancelRestock k order, .idle, 3⟩ (.owing ⟨none, f, x⟩)
  | cancelStranded {env : Env} {id : Value} {k : Nat} {order found : Order}
      (hl : orders.lookup db id = some (k, found)) (hfood : found.foodId = order.foodId)
      (hfail : ∀ f row, foods.lookup db (.int order.foodId) = some (f, row) →
        (Value.int (row.remaining + order.foodNumber)).intColumn = none) :
      Phase db ⟨env, .orderCancel id⟩ ⟨cancelRestock k order, .idle, 3⟩ .served
  | cancelPaying {env : Env} {id : Value} {k f : Nat} {order found : Order} {row : Food} {x : Int}
      (hl : orders.lookup db id = some (k, found)) (hfood : found.foodId = order.foodId)
      (hkey : (Value.int order.foodId).key? = some f) (hrow : db.foods.row f = some row) :
      Phase db ⟨env, .orderCancel id⟩ ⟨cancelPay k order f x, .idle, 4⟩ (.owing ⟨none, f, x⟩)

theorem Phase.start {db : Database} {r : Step} (L : Laravel) (h : r.call.isContended = true) :
    Phase db r (.start (r.call.handler L r.env)) .waiting := by
  obtain ⟨env, call⟩ := r
  cases call with
  | orderStore user request => exact .storeStart
  | orderCancel id => exact .cancelStart
  | foodUpdate id request => exact .updateStart
  | _ => cases h

/-! ### What a phase holds -/

section Held

variable {db : Database} {r : Step} {p : Flight} {st : Stage}

theorem not_ended {prog : Handler} {snap : Database} {ws : List (Database → Database)}
    (h : prog.inner snap ws ≠ .stops) : prog.ended = false := by
  cases prog <;> first | rfl | exact absurd rfl h

/-- A request that has been answered owes nothing and waits for nothing. -/
theorem Phase.of_ended (h : Phase db r p st) (hend : p.prog.ended = true) :
    st = .served ∨ st = .refused := by
  cases h with
  | quiet hq hst => exact hst
  | stuck h hst => exact hst
  | storeReading hinner hm hv hcur hrem =>
      have := not_ended (by rw [hinner]; exact fun h => nomatch h)
      rw [this] at hend
      cases hend
  | storePaying hinner htail hm hv hrow hrem =>
      have := not_ended (by rw [hinner]; exact fun h => nomatch h)
      rw [this] at hend
      cases hend
  | updateCommitting hinner htail hkey hrow hmatch hf hg hannounce hn =>
      have := not_ended (by rw [hinner]; exact fun h => nomatch h)
      rw [this] at hend
      cases hend
  | updateFound hkey hrow hmatch =>
      obtain ⟨k, hk, -⟩ := FoodController.updateBody_inner _ _ _ _
      rw [hk] at hend
      cases hend
  | storeStart =>
      obtain ⟨k, hk, -⟩ := store_inner _ _ _
      rw [show (Process.start _ : Flight).prog = _ from rfl, hk] at hend
      cases hend
  | updateStart =>
      rw [show (Process.start _ : Flight).prog = _ from rfl, FoodController.update_parts] at hend
      cases hend
  | cancelStart =>
      rw [show (Process.start _ : Flight).prog = _ from rfl, cancel_parts] at hend
      cases hend
  | storeBegun hk => cases hend
  | updateBegun hbody hkey hrow hmatch => cases hend
  | cancelCounted hl => cases hend
  | cancelFound hl hsend => cases hend
  | cancelOwing hl hfood hkey hrow hx => cases hend
  | cancelStranded hl hfood hfail => exact .inl rfl
  | cancelPaying hl hfood hkey hrow => cases hend

variable {env : Env} {prog : Handler} {conn : Conn Database} {n i k : Nat}

theorem heldStock_store {user : Nat} {request : Request} {snap : Database}
    {ws : List (Database → Database)} {food : Food} {order : Order} (hend : prog.ended = false)
    (hv : verdict snap user request = .ok (i, food))
    (hm : orders.make (attributes env user request) = some order) :
    heldStock ⟨env, .orderStore user request⟩ ⟨prog, ⟨some snap, [ws]⟩, n⟩ db = some i := by
  simp [heldStock, hend, hv, hm]

theorem heldStock_cancel {id : Value} {found order : Order} (hend : prog.ended = false)
    (hn : 3 ≤ n) (hl : orders.lookup db id = some (k, found)) (hfood : found.foodId = order.foodId)
    (hkey : (Value.int order.foodId).key? = some i) :
    heldStock ⟨env, .orderCancel id⟩ ⟨prog, conn, n⟩ db = some i := by
  simp only [heldStock, hend, hl, hn, if_true, Bool.false_eq_true, if_false, Option.bind_some,
    hfood]
  exact hkey

theorem heldStock_update {id : Value} {request : Request} (hend : prog.ended = false)
    (hn : 1 ≤ n) (hkey : id.key? = some i)
    (hcarry : (request.input .remaining).isSome = true) :
    heldStock ⟨env, .foodUpdate id request⟩ ⟨prog, conn, n⟩ db = some i := by
  simp [heldStock, hend, hn, hkey, hcarry]

theorem heldCard_update {id : Value} {request : Request} (hend : prog.ended = false)
    (hn : 1 ≤ n) (hkey : id.key? = some i) :
    heldCard ⟨env, .foodUpdate id request⟩ ⟨prog, conn, n⟩ = some i := by
  simp [heldCard, hend, hn, hkey]

theorem heldOrder_cancel {id : Value} (hend : prog.ended = false) (hkey : id.key? = some k) :
    heldOrder ⟨env, .orderCancel id⟩ ⟨prog, conn, 2⟩ = some k := by
  simp [heldOrder, hend, hkey]

/-- A request holds the stock it owes. -/
theorem Phase.owing_stock {d : Debt} (h : Phase db r p (.owing d)) :
    heldStock r p db = some d.food := by
  cases h with
  | quiet hq hst => rcases hst with h | h <;> cases h
  | stuck h hst => rcases hst with h | h <;> cases h
  | storePaying hinner htail hm hv hrow hrem =>
      exact heldStock_store (not_ended (by rw [hinner]; exact fun h => nomatch h)) hv hm
  | cancelOwing hl hfood hkey hrow hx => exact heldStock_cancel rfl (by decide) hl hfood hkey
  | cancelPaying hl hfood hkey hrow => exact heldStock_cancel rfl (by decide) hl hfood hkey

end Held

/-! ### What others leave alone -/

/-- From `db` to `db'` nothing changes but orders, foods and keys, no row goes away, and
stock, card and order change at most at the keys named. -/
structure Frame (stock card order : Option Nat) (db db' : Database) : Prop where
  rest : db' = { db with orders := db'.orders, foods := db'.foods }
  food : ∀ i row, db.foods.row i = some row → ∃ row', db'.foods.row i = some row' ∧
    (stock ≠ some i → row'.remaining = row.remaining) ∧ (card ≠ some i → SameCard row' row)
  noFood : ∀ i, db.foods.row i = none → db'.foods.row i = none
  order : ∀ k o, db.orders.row k = some o → ∃ o', db'.orders.row k = some o' ∧
    o'.foodId = o.foodId ∧ (order ≠ some k → o' = o)

namespace Frame

variable {s c o : Option Nat} {db db' : Database} (h : Frame s c o db db')
include h

theorem restaurants : db'.restaurants = db.restaurants := by
  rw [h.rest]

theorem deprivateLists : db'.deprivateLists = db.deprivateLists := by
  rw [h.rest]

theorem lookup_order {v : Value} {k : Nat} {order : Order}
    (hl : orders.lookup db v = some (k, order)) :
    ∃ order', orders.lookup db' v = some (k, order') ∧ order'.foodId = order.foodId ∧
      (o ≠ some k → order' = order) := by
  obtain ⟨hkey, hrow⟩ := Model.lookup_some.mp hl
  obtain ⟨order', hrow', hfood, hsame⟩ := h.order k order hrow
  exact ⟨order', Model.lookup_some.mpr ⟨hkey, hrow'⟩, hfood, hsame⟩

theorem lookup_food_back {v : Value} {i : Nat} {row' : Food}
    (hl : foods.lookup db' v = some (i, row')) :
    ∃ row, foods.lookup db v = some (i, row) ∧ (s ≠ some i → row'.remaining = row.remaining) := by
  obtain ⟨hkey, hrow'⟩ := Model.lookup_some.mp hl
  cases hrow : db.foods.row i with
  | none =>
      have hnone := h.noFood i hrow
      rw [show db'.foods.row i = some row' from hrow'] at hnone
      cases hnone
  | some row =>
      obtain ⟨row'', hrow'', hstock, -⟩ := h.food i row hrow
      rw [show db'.foods.row i = some row' from hrow'] at hrow''
      cases hrow''
      exact ⟨row, Model.lookup_some.mpr ⟨hkey, hrow⟩, hstock⟩

/-- A row that an update may find instead of its own stays one. -/
theorem matches_row {request : Request} {i : Nat} {row food : Food}
    (hrow : db.foods.row i = some row) (hmatch : Matches request row food)
    (hs : (request.input .remaining).isSome = true → s ≠ some i) (hc : c ≠ some i) :
    ∃ row', db'.foods.row i = some row' ∧ Matches request row' food := by
  obtain ⟨row', hrow', hstock, hcard⟩ := h.food i row hrow
  have hnew : Matches request row' row := ⟨hcard hc, fun hcarry => hstock (hs hcarry)⟩
  exact ⟨row', hrow', hnew.trans hmatch⟩

end Frame

section Frames

variable {s c o : Option Nat} {db : Database}

theorem Frame.refl : Frame s c o db db where
  rest := rfl
  food _ row hrow := ⟨row, hrow, fun _ => rfl, fun _ => rfl⟩
  noFood _ hrow := hrow
  order _ order hrow := ⟨order, hrow, rfl, fun _ => rfl⟩

theorem Frame.reserve : Frame s c o db { db with orders := db.orders.reserve.2 } where
  rest := rfl
  food _ row hrow := ⟨row, hrow, fun _ => rfl, fun _ => rfl⟩
  noFood _ hrow := hrow
  order _ order hrow := ⟨order, hrow, rfl, fun _ => rfl⟩

theorem Frame.cancelled {k : Nat} (ho : o = some k) :
    Frame s c o db { db with orders := db.orders.modify k Order.cancelled } where
  rest := rfl
  food _ row hrow := ⟨row, hrow, fun _ => rfl, fun _ => rfl⟩
  noFood _ hrow := hrow
  order j order hrow := by
    subst ho
    by_cases hj : j = k
    · subst hj
      refine ⟨order.cancelled, ?_, rfl, fun hne => absurd rfl hne⟩
      rw [Table.modify_row, if_pos rfl, hrow]
      rfl
    · refine ⟨order, ?_, rfl, fun _ => rfl⟩
      rw [Table.modify_row, if_neg hj]
      exact hrow

/-- A change of one food. -/
theorem Frame.food_modify {i j : Nat} {row : Food} {f : Food → Food}
    (hs : s = some i ∨ ∀ r, (f r).remaining = r.remaining)
    (hc : c = some i ∨ ∀ r, SameCard (f r) r) (hrow : db.foods.row j = some row) :
    ∃ row', (db.foods.modify i f).row j = some row' ∧
      (s ≠ some j → row'.remaining = row.remaining) ∧ (c ≠ some j → SameCard row' row) := by
  rw [Table.modify_row]
  by_cases hj : j = i
  · subst hj
    refine ⟨f row, by rw [if_pos rfl, hrow]; rfl, fun hne => ?_, fun hne => ?_⟩
    · exact hs.elim (fun h => absurd h hne) fun h => h row
    · exact hc.elim (fun h => absurd h hne) fun h => h row
  · exact ⟨row, by rw [if_neg hj]; exact hrow, fun _ => rfl, fun _ => rfl⟩

theorem Frame.updated {i : Nat} {f : Food → Food}
    (hs : s = some i ∨ ∀ r, (f r).remaining = r.remaining) (hc : c = some i) :
    Frame s c o db { db with foods := db.foods.modify i f } where
  rest := rfl
  food _ _ hrow := Frame.food_modify hs (.inl hc) hrow
  noFood _ hrow := Table.modify_row_none hrow
  order _ order hrow := ⟨order, hrow, rfl, fun _ => rfl⟩

theorem Frame.pay {d : Debt} (hs : s = some d.food)
    (hnew : ∀ k order, d.order = some (k, order) → db.orders.row k = none) :
    Frame s c o db (d.pay db) where
  rest := rfl
  food _ _ hrow := Frame.food_modify (.inl hs) (.inr fun r => SameCard.stocked _ r) hrow
  noFood _ hrow := Table.modify_row_none hrow
  order j order hrow := by
    obtain ⟨key, i, n⟩ := d
    cases key with
    | none => exact ⟨order, hrow, rfl, fun _ => rfl⟩
    | some x =>
        have hj : j ≠ x.1 := by
          rintro rfl
          rw [hnew x.1 x.2 rfl] at hrow
          cases hrow
        exact ⟨order, (if_neg hj).trans hrow, rfl, fun _ => rfl⟩

end Frames

/-- **A phase survives what leaves alone the rows its request holds.** -/
theorem Phase.frame {db db' : Database} {r : Step} {p : Flight} {st : Stage} {s c o : Option Nat}
    (h : Phase db r p st) (hframe : Frame s c o db db')
    (hs : ∀ i, heldStock r p db = some i → s ≠ some i)
    (hc : ∀ i, heldCard r p = some i → c ≠ some i)
    (ho : ∀ k, heldOrder r p = some k → o ≠ some k) : Phase db' r p st := by
  cases h with
  | quiet hq hst => exact .quiet hq hst
  | stuck h hst => exact .stuck h hst
  | storeStart => exact .storeStart
  | storeBegun hk => exact .storeBegun hk
  | @storeReading env user request prog snap ws n i food row order hinner hm hv hcur hrem =>
      have hend : prog.ended = false := not_ended (by rw [hinner]; exact fun h => nomatch h)
      obtain ⟨hl, -⟩ := verdict_ok.mp hcur
      obtain ⟨hkey, hrow⟩ := Spoiler.lookup_food hl
      obtain ⟨row', hrow', hstock, -⟩ := hframe.food i row hrow
      have hsame := hstock (hs i (heldStock_store hend hv hm))
      exact .storeReading hinner hm hv (verdict_congr hframe.deprivateLists hcur hrow' hsame)
        (hsame.trans hrem)
  | @storePaying env user request prog tail snap ws n i k x food row order hinner htail hm hv hrow
      hrem =>
      have hend : prog.ended = false := not_ended (by rw [hinner]; exact fun h => nomatch h)
      obtain ⟨row', hrow', hstock, -⟩ := hframe.food i row hrow
      have hsame := hstock (hs i (heldStock_store hend hv hm))
      exact .storePaying hinner htail hm hv hrow' (hsame.trans hrem)
  | updateStart => exact .updateStart
  | @updateFound env id request i food row hkey hrow hmatch =>
      obtain ⟨k, hk, -⟩ := FoodController.updateBody_inner env request i food
      have hend : (FoodController.updateBody env request i food).ended = false := by rw [hk]; rfl
      obtain ⟨row', hrow', hmatch'⟩ := hframe.matches_row hrow hmatch
        (fun hcarry => hs i (heldStock_update hend (by decide) hkey hcarry))
        (hc i (heldCard_update hend (by decide) hkey))
      exact .updateFound hkey hrow' hmatch'
  | @updateBegun env id request i food row k hbody hkey hrow hmatch =>
      obtain ⟨row', hrow', hmatch'⟩ := hframe.matches_row hrow hmatch
        (fun hcarry => hs i (heldStock_update rfl (by decide) hkey hcarry))
        (hc i (heldCard_update rfl (by decide) hkey))
      exact .updateBegun hbody hkey hrow' hmatch'
  | @updateCommitting env id request prog tail snap ws n i food row f g hinner htail hkey hrow hmatch
      hf hg hannounce hn =>
      have hend : prog.ended = false := not_ended (by rw [hinner]; exact fun h => nomatch h)
      obtain ⟨row', hrow', hmatch'⟩ := hframe.matches_row hrow hmatch
        (fun hcarry => hs i (heldStock_update hend hn hkey hcarry))
        (hc i (heldCard_update hend hn hkey))
      refine .updateCommitting hinner htail hkey hrow' hmatch' hf hg (fun hraised => ?_) hn
      rw [announce_congr hframe.restaurants]
      exact hannounce hraised
  | cancelStart => exact .cancelStart
  | cancelCounted hl =>
      obtain ⟨order', hl', -⟩ := hframe.lookup_order hl
      exact .cancelCounted hl'
  | @cancelFound env id k order hl hsend =>
      obtain ⟨hkey, -⟩ := Spoiler.lookup_order hl
      obtain ⟨order', hl', -, hsame⟩ := hframe.lookup_order hl
      have heq := hsame (ho k (heldOrder_cancel rfl hkey))
      rw [heq] at hl'
      exact .cancelFound hl' hsend
  | @cancelOwing env id k f order found row x hl hfood hkey hrow hx =>
      obtain ⟨found', hl', hfood', -⟩ := hframe.lookup_order hl
      obtain ⟨row', hrow', hstock, -⟩ := hframe.food f row hrow
      have hsame := hstock (hs f (heldStock_cancel rfl (by decide) hl hfood hkey))
      exact .cancelOwing hl' (hfood'.trans hfood) hkey hrow' (by rw [hsame]; exact hx)
  | @cancelStranded env id k order found hl hfood hfail =>
      obtain ⟨found', hl', hfood', -⟩ := hframe.lookup_order hl
      refine .cancelStranded hl' (hfood'.trans hfood) fun f row' hfl => ?_
      obtain ⟨hkey, -⟩ := Spoiler.lookup_food hfl
      obtain ⟨row, hfl', hstock⟩ := hframe.lookup_food_back hfl
      rw [hstock (hs f (heldStock_cancel rfl (by decide) hl hfood hkey))]
      exact hfail f row hfl'
  | cancelPaying hl hfood hkey hrow =>
      obtain ⟨found', hl', hfood', -⟩ := hframe.lookup_order hl
      obtain ⟨row', hrow', -⟩ := hframe.food _ _ hrow
      exact .cancelPaying hl' (hfood'.trans hfood) hkey hrow'

end Spoiler
