/-
What no request undoes, whatever runs beside it.

Rows of six tables are never deleted, and of some of them most columns are never written
again: an order's user, food, number and portions, who has liked what, a report as a whole,
and all of an owner but the token.  An order that is complete stays so and one that is
cancelled stays so.  `Database.Lasts` collects this, and together with the references it is
the contract every handler keeps with every other.

The second half of the file says which writes the contract permits.  A reference that has
been checked once may be written at any later time, because the row it names is still there.
-/
import Spoiler.Proofs.References
import Spoiler.Store.Contract

namespace Spoiler

open Store Php

/-! ### What lasts -/

/-- Only the token of an owner is ever written again. -/
structure Owner.Lasts (owner later : Owner) : Prop where
  name : later.name = owner.name
  account : later.account = owner.account
  password : later.password = owner.password
  phone : later.phone = owner.phone

theorem Owner.Lasts.refl (owner : Owner) : owner.Lasts owner := ⟨rfl, rfl, rfl, rfl⟩

theorem Owner.Lasts.trans {a b c : Owner} (h : a.Lasts b) (h' : b.Lasts c) : a.Lasts c :=
  ⟨h'.name.trans h.name, h'.account.trans h.account, h'.password.trans h.password,
    h'.phone.trans h.phone⟩

/-- Of an order only the two flags are ever written again, and each of them in one direction. -/
structure Order.Lasts (order later : Order) : Prop where
  userId : later.userId = order.userId
  foodId : later.foodId = order.foodId
  orderNumber : later.orderNumber = order.orderNumber
  foodNumber : later.foodNumber = order.foodNumber
  phone : later.phone = order.phone
  complete : order.complete = true → later.complete = true
  cancelled : order.send = false → later.send = false

theorem Order.Lasts.refl (order : Order) : order.Lasts order :=
  ⟨rfl, rfl, rfl, rfl, rfl, id, id⟩

theorem Order.Lasts.trans {a b c : Order} (h : a.Lasts b) (h' : b.Lasts c) : a.Lasts c :=
  ⟨h'.userId.trans h.userId, h'.foodId.trans h.foodId, h'.orderNumber.trans h.orderNumber,
    h'.foodNumber.trans h.foodNumber, h'.phone.trans h.phone, fun hc => h'.complete (h.complete hc),
    fun hc => h'.cancelled (h.cancelled hc)⟩

/-- A like stays with its user and its restaurant. -/
structure Like.Lasts (like later : Like) : Prop where
  userId : later.userId = like.userId
  restaurantId : later.restaurantId = like.restaurantId

theorem Like.Lasts.refl (like : Like) : like.Lasts like := ⟨rfl, rfl⟩

theorem Like.Lasts.trans {a b c : Like} (h : a.Lasts b) (h' : b.Lasts c) : a.Lasts c :=
  ⟨h'.userId.trans h.userId, h'.restaurantId.trans h.restaurantId⟩

/-- A row of which every column may change. -/
def Anything {ρ : Type} (_ : Nat) (_ _ : ρ) : Prop := True

/-- What else is to last of the foods. -/
structure Holds where
  rel : Nat → Food → Food → Prop
  refl : ∀ i food, rel i food food
  trans : ∀ {i a b c}, rel i a b → rel i b c → rel i a c

/-- Nothing in particular. -/
def Holds.nothing : Holds := ⟨Anything, fun _ _ => trivial, fun _ _ => trivial⟩

/-- Nothing that lasts of the first database is lost in the second. -/
structure Database.Lasts (H : Holds) (db later : Database) : Prop where
  users : db.users.Evolves Anything later.users
  owners : db.owners.Evolves (fun _ => Owner.Lasts) later.owners
  restaurants : db.restaurants.Evolves Anything later.restaurants
  foods : db.foods.Evolves H.rel later.foods
  orders : db.orders.Evolves (fun _ => Order.Lasts) later.orders
  deprivateLists : later.deprivateLists = db.deprivateLists
  likes : db.likes.Evolves (fun _ => Like.Lasts) later.likes
  subscriptions : db.subscriptions.next ≤ later.subscriptions.next
  reports : db.reports.Evolves (fun _ => Eq) later.reports

namespace Database.Lasts

variable {H : Holds} {db db' db'' : Database}

theorem refl (db : Database) : db.Lasts H db where
  users := .refl (fun _ _ => trivial) _
  owners := .refl (fun _ => Owner.Lasts.refl) _
  restaurants := .refl (fun _ _ => trivial) _
  foods := .refl H.refl _
  orders := .refl (fun _ => Order.Lasts.refl) _
  deprivateLists := rfl
  likes := .refl (fun _ => Like.Lasts.refl) _
  subscriptions := Nat.le_refl _
  reports := .refl (fun _ _ => rfl) _

theorem trans (h : db.Lasts H db') (h' : db'.Lasts H db'') : db.Lasts H db'' where
  users := h.users.trans (fun _ _ => trivial) h'.users
  owners := h.owners.trans Owner.Lasts.trans h'.owners
  restaurants := h.restaurants.trans (fun _ _ => trivial) h'.restaurants
  foods := h.foods.trans H.trans h'.foods
  orders := h.orders.trans Order.Lasts.trans h'.orders
  deprivateLists := h'.deprivateLists.trans h.deprivateLists
  likes := h.likes.trans Like.Lasts.trans h'.likes
  subscriptions := Nat.le_trans h.subscriptions h'.subscriptions
  reports := h.reports.trans Eq.trans h'.reports

theorem grows (h : db.Lasts H db') : db.Grows db' :=
  ⟨h.users.grows, h.owners.grows, h.restaurants.grows, h.foods.grows⟩

end Database.Lasts

/-! ### Keys -/

/-- The tables rows are inserted into. -/
inductive Kind
  | users | owners | restaurants | foods | orders | likes | subscriptions | reports
  deriving DecidableEq

/-- The key a table hands out next. -/
def Database.next (db : Database) : Kind → Nat
  | .users => db.users.next
  | .owners => db.owners.next
  | .restaurants => db.restaurants.next
  | .foods => db.foods.next
  | .orders => db.orders.next
  | .likes => db.likes.next
  | .subscriptions => db.subscriptions.next
  | .reports => db.reports.next

/-- Whether a table has a row at a key. -/
def Database.has (db : Database) : Kind → Nat → Bool
  | .users, i => (db.users.row i).isSome
  | .owners, i => (db.owners.row i).isSome
  | .restaurants, i => (db.restaurants.row i).isSome
  | .foods, i => (db.foods.row i).isSome
  | .orders, i => (db.orders.row i).isSome
  | .likes, i => (db.likes.row i).isSome
  | .subscriptions, i => (db.subscriptions.row i).isSome
  | .reports, i => (db.reports.row i).isSome

theorem Table.lt_next_of_isSome {ρ : Type} {t : Table ρ} {i : Nat} (h : (t.row i).isSome = true) :
    i < t.next := by
  obtain ⟨r, hr⟩ := Option.isSome_iff_exists.mp h
  exact t.lt_next hr

/-- What the handlers keep together. -/
def contract (H : Holds) : Contract Database (Kind × Nat) where
  le := Database.Lasts H
  inv := Referential
  spent db k := k.2 < db.next k.1
  present db k := db.has k.1 k.2 = true
  refl := .refl
  trans := .trans
  spent_le := by
    rintro db later ⟨kind, i⟩ h hlt
    cases kind with
    | users => exact Nat.lt_of_lt_of_le hlt h.users.next
    | owners => exact Nat.lt_of_lt_of_le hlt h.owners.next
    | restaurants => exact Nat.lt_of_lt_of_le hlt h.restaurants.next
    | foods => exact Nat.lt_of_lt_of_le hlt h.foods.next
    | orders => exact Nat.lt_of_lt_of_le hlt h.orders.next
    | likes => exact Nat.lt_of_lt_of_le hlt h.likes.next
    | subscriptions => exact Nat.lt_of_lt_of_le hlt h.subscriptions
    | reports => exact Nat.lt_of_lt_of_le hlt h.reports.next
  spent_of_present := by
    rintro db ⟨kind, i⟩ h
    cases kind <;> exact Table.lt_next_of_isSome h

/-! ### The tables of the contract -/

section Tables

variable {ρ : Type} {T : TableOf Database ρ} {Q : Nat → ρ → ρ → Prop} {kind : Kind} {H : Holds}

/-- The table `T` is the one of this kind, and its rows change as `Q` allows. -/
structure Kind.Rows (H : Holds) (kind : Kind) (T : TableOf Database ρ) (Q : Nat → ρ → ρ → Prop) :
    Prop where
  refl : ∀ i r, Q i r r
  has : ∀ db i, db.has kind i = ((T.get db).row i).isSome
  has_other : ∀ db t other i, other ≠ kind → (T.set db t).has other i = db.has other i
  next : ∀ db, db.next kind = (T.get db).next
  evolves : ∀ {db later : Database}, db.Lasts H later → (T.get db).Evolves Q (T.get later)
  lasts : ∀ {db later : Database} {t u : Table ρ}, db.Lasts H later → t.Evolves Q u →
    (T.set db t).Lasts H (T.set later u)
  /-- The counter is no part of what refers and is referred to. -/
  referential : ∀ {db : Database} {t : Table ρ}, db.Lasts H (T.set db t) → t.row = (T.get db).row →
    Referential db → Referential (T.set db t)

theorem users_rows : Kind.users.Rows H users.table Anything where
  refl _ _ := trivial
  has _ _ := rfl
  has_other db t other i h := by cases other <;> first | rfl | exact absurd rfl h
  next _ := rfl
  evolves h := h.users
  lasts h ht := { h with users := ht }
  referential hlasts _ h :=
    .of_grows hlasts.grows h.foods h.orders h.likes h.subscriptions h.reports

theorem owners_rows : Kind.owners.Rows H owners.table (fun _ => Owner.Lasts) where
  refl _ := Owner.Lasts.refl
  has _ _ := rfl
  has_other db t other i h := by cases other <;> first | rfl | exact absurd rfl h
  next _ := rfl
  evolves h := h.owners
  lasts h ht := { h with owners := ht }
  referential hlasts _ h :=
    .of_grows hlasts.grows h.foods h.orders h.likes h.subscriptions h.reports

theorem restaurants_rows : Kind.restaurants.Rows H restaurants.table Anything where
  refl _ _ := trivial
  has _ _ := rfl
  has_other db t other i h := by cases other <;> first | rfl | exact absurd rfl h
  next _ := rfl
  evolves h := h.restaurants
  lasts h ht := { h with restaurants := ht }
  referential hlasts _ h :=
    .of_grows hlasts.grows h.foods h.orders h.likes h.subscriptions h.reports

theorem foods_rows : Kind.foods.Rows H foods.table H.rel where
  refl := H.refl
  has _ _ := rfl
  has_other db t other i h := by cases other <;> first | rfl | exact absurd rfl h
  next _ := rfl
  evolves h := h.foods
  lasts h ht := { h with foods := ht }
  referential hlasts hrow h :=
    .of_grows hlasts.grows (h.foods.of_row hrow) h.orders h.likes h.subscriptions h.reports

theorem orders_rows : Kind.orders.Rows H orders.table (fun _ => Order.Lasts) where
  refl _ := Order.Lasts.refl
  has _ _ := rfl
  has_other db t other i h := by cases other <;> first | rfl | exact absurd rfl h
  next _ := rfl
  evolves h := h.orders
  lasts h ht := { h with orders := ht }
  referential hlasts hrow h :=
    .of_grows hlasts.grows h.foods (h.orders.of_row hrow) h.likes h.subscriptions h.reports

theorem likes_rows : Kind.likes.Rows H likes.table (fun _ => Like.Lasts) where
  refl _ := Like.Lasts.refl
  has _ _ := rfl
  has_other db t other i h := by cases other <;> first | rfl | exact absurd rfl h
  next _ := rfl
  evolves h := h.likes
  lasts h ht := { h with likes := ht }
  referential hlasts hrow h :=
    .of_grows hlasts.grows h.foods h.orders (h.likes.of_row hrow) h.subscriptions h.reports

theorem reports_rows : Kind.reports.Rows H reports.table (fun _ => Eq) where
  refl _ _ := rfl
  has _ _ := rfl
  has_other db t other i h := by cases other <;> first | rfl | exact absurd rfl h
  next _ := rfl
  evolves h := h.reports
  lasts h ht := { h with reports := ht }
  referential hlasts hrow h :=
    .of_grows hlasts.grows h.foods h.orders h.likes h.subscriptions (h.reports.of_row hrow)

/-- A table changed in place. -/
theorem Kind.Rows.lasts_set (hT : kind.Rows H T Q) {db : Database} {t : Table ρ}
    (h : (T.get db).Evolves Q t) : db.Lasts H (T.set db t) := by
  have hset := hT.lasts (.refl db) h
  rwa [T.set_get] at hset

/-- The rows of a table that has been written. -/
theorem Kind.Rows.has_set (hT : kind.Rows H T Q) (db : Database) (t : Table ρ) (k : Kind × Nat)
    (h : (T.set db t).has k.1 k.2 = true) :
    db.has k.1 k.2 = true ∨ (k.1 = kind ∧ (t.row k.2).isSome = true) := by
  by_cases hk : k.1 = kind
  · rw [hk, hT.has, T.get_set] at h
    exact .inr ⟨hk, h⟩
  · rw [hT.has_other db t _ _ hk] at h
    exact .inl h

theorem reserves (hT : kind.Rows H T Q) :
    (contract H).Reserves (fun db => ((T.get db).reserve.1, T.set db (T.get db).reserve.2))
      fun i => (kind, i) where
  le db := hT.lasts_set (.reserve hT.refl _)
  inv db := hT.referential (hT.lasts_set (.reserve hT.refl _)) rfl
  unspent db := by simp [contract, hT.next]
  spent db := by simp [contract, hT.next, T.get_set]
  creates db k hk := by
    rcases hT.has_set _ _ k hk with hold | ⟨hkind, hrow⟩
    · exact hold
    · change db.has k.1 k.2 = true
      rw [hkind, hT.has]
      exact hrow

variable {v : Database} {i : Nat}

/-- A new row. -/
theorem permits_put {r : ρ} (hT : kind.Rows H T Q)
    (hinv : ∀ db, v.Lasts H db → db.Lasts H (T.set db ((T.get db).put i r)) → Referential db →
      Referential (T.set db ((T.get db).put i r))) :
    (contract H).Permits v [(kind, i)] fun db => T.set db ((T.get db).put i r) where
  keeps db hle h habsent := by
    have hnone : (T.get db).row i = none := by
      have hnot := habsent (kind, i) (by simp)
      simpa [contract, hT.has] using hnot
    have hlasts := hT.lasts_set (.put hT.refl hnone r)
    exact ⟨hlasts, hinv db hle hlasts h⟩
  mono db later h := hT.lasts h ((hT.evolves h).put_both hT.refl i r)
  creates db k hk := by
    rcases hT.has_set _ _ k hk with hold | ⟨hkind, hrow⟩
    · exact .inl hold
    · by_cases hki : k.2 = i
      · exact .inr (by simp [← hkind, ← hki])
      · rw [Table.put_row, if_neg hki] at hrow
        refine .inl ?_
        change db.has k.1 k.2 = true
        rw [hkind, hT.has]
        exact hrow

/-- A changed row. -/
theorem permits_modify {f : ρ → ρ} (hT : kind.Rows H T Q) (hf : ∀ r, Q i r (f r))
    (hboth : ∀ r q, Q i r q → Q i (f r) (f q))
    (hinv : ∀ db, v.Lasts H db → db.Lasts H (T.set db ((T.get db).modify i f)) → Referential db →
      Referential (T.set db ((T.get db).modify i f))) :
    (contract H).Permits v [] fun db => T.set db ((T.get db).modify i f) where
  keeps db hle h _ :=
    have hlasts := hT.lasts_set (.modify hT.refl i hf _)
    ⟨hlasts, hinv db hle hlasts h⟩
  mono db later h := hT.lasts h ((hT.evolves h).modify_both i hboth)
  creates db k hk := by
    rcases hT.has_set _ _ k hk with hold | ⟨hkind, hrow⟩
    · exact .inl hold
    · refine .inl ?_
      change db.has k.1 k.2 = true
      rw [hkind, hT.has]
      by_cases hnone : (T.get db).row k.2 = none
      · rw [Table.modify_row_none hnone] at hrow
        cases hrow
      · exact Option.isSome_iff_ne_none.mpr hnone

end Tables

/-! ### The writes of the handlers -/

section Writes

variable {H : Holds} {v : Database} {i : Nat}

theorem Food.Refers.lasts {db later : Database} {food : Food} (h : food.Refers db)
    (hle : db.Lasts H later) : food.Refers later :=
  h.grows hle.grows.restaurants

theorem Order.Refers.lasts {db later : Database} {order : Order} (h : order.Refers db)
    (hle : db.Lasts H later) : order.Refers later :=
  ⟨h.1.grows hle.grows.foods, h.2.grows hle.grows.users⟩

theorem Like.Refers.lasts {db later : Database} {like : Like} (h : like.Refers db)
    (hle : db.Lasts H later) : like.Refers later :=
  ⟨h.1.grows hle.grows.users, h.2.grows hle.grows.restaurants⟩

theorem Subscription.Refers.lasts {db later : Database} {subscription : Subscription}
    (h : subscription.Refers db) (hle : db.Lasts H later) : subscription.Refers later :=
  ⟨h.1.grows hle.grows.users, h.2.grows hle.grows.restaurants⟩

theorem Report.Refers.lasts {db later : Database} {report : Report} (h : report.Refers db)
    (hle : db.Lasts H later) : report.Refers later := by
  unfold Report.Refers at h ⊢
  split
  · rename_i hflag
    rw [if_pos hflag] at h
    exact ⟨h.1.grows hle.grows.users, h.2.grows hle.grows.owners⟩
  · rename_i hflag
    rw [if_neg hflag] at h
    exact ⟨h.1.grows hle.grows.users, h.2.grows hle.grows.owners⟩

theorem permits_user (user : User) :
    (contract H).Permits v [(.users, i)]
      fun db => users.table.set db ((users.table.get db).put i user) :=
  permits_put users_rows fun _ _ hlasts h =>
    .of_grows hlasts.grows h.foods h.orders h.likes h.subscriptions h.reports

theorem permits_owner (owner : Owner) :
    (contract H).Permits v [(.owners, i)]
      fun db => owners.table.set db ((owners.table.get db).put i owner) :=
  permits_put owners_rows fun _ _ hlasts h =>
    .of_grows hlasts.grows h.foods h.orders h.likes h.subscriptions h.reports

theorem permits_restaurant (restaurant : Restaurant) :
    (contract H).Permits v [(.restaurants, i)]
      fun db => restaurants.table.set db ((restaurants.table.get db).put i restaurant) :=
  permits_put restaurants_rows fun _ _ hlasts h =>
    .of_grows hlasts.grows h.foods h.orders h.likes h.subscriptions h.reports

theorem permits_food {food : Food} (hfood : food.Refers v) :
    (contract H).Permits v [(.foods, i)]
      fun db => foods.table.set db ((foods.table.get db).put i food) :=
  permits_put foods_rows fun db hle hlasts h =>
    .of_grows hlasts.grows (h.foods.sets (db.foods.put_sets i food) (hfood.lasts hle)) h.orders
      h.likes h.subscriptions h.reports

theorem permits_order {order : Order} (horder : order.Refers v) :
    (contract H).Permits v [(.orders, i)]
      fun db => orders.table.set db ((orders.table.get db).put i order) :=
  permits_put orders_rows fun db hle hlasts h =>
    .of_grows hlasts.grows h.foods
      (h.orders.sets (db.orders.put_sets i order) (horder.lasts hle)) h.likes
        h.subscriptions h.reports

theorem permits_like {like : Like} (hlike : like.Refers v) :
    (contract H).Permits v [(.likes, i)]
      fun db => likes.table.set db ((likes.table.get db).put i like) :=
  permits_put likes_rows fun db hle hlasts h =>
    .of_grows hlasts.grows h.foods h.orders
      (h.likes.sets (db.likes.put_sets i like) (hlike.lasts hle)) h.subscriptions h.reports

theorem permits_report {report : Report} (hreport : report.Refers v) :
    (contract H).Permits v [(.reports, i)]
      fun db => reports.table.set db ((reports.table.get db).put i report) :=
  permits_put reports_rows fun db hle hlasts h =>
    .of_grows hlasts.grows h.foods h.orders h.likes h.subscriptions
      (h.reports.sets (db.reports.put_sets i report) (hreport.lasts hle))

theorem permits_subscription {subscription : Subscription} (h : subscription.Refers v) :
    (contract H).Permits v [(.subscriptions, i)]
      fun db => subscriptions.table.set db ((subscriptions.table.get db).put i subscription) where
  keeps db hle hdb _ := by
    have hlasts : db.Lasts H { db with subscriptions := db.subscriptions.put i subscription } :=
      { Database.Lasts.refl db with subscriptions := Nat.le_max_left _ _ }
    refine ⟨hlasts, .of_grows hlasts.grows hdb.foods hdb.orders hdb.likes ?_ hdb.reports⟩
    exact hdb.subscriptions.sets (db.subscriptions.put_sets i subscription) (h.lasts hle)
  mono db later hle := by
    refine { hle with subscriptions := ?_ }
    have hnext := hle.subscriptions
    simp only [subscriptions, Table.put_next]
    omega
  creates db k hk := by
    obtain ⟨kind, j⟩ := k
    cases kind with
    | subscriptions =>
        by_cases hj : j = i
        · exact .inr (by simp [hj])
        · refine .inl ?_
          simpa [contract, Database.has, subscriptions, hj] using hk
    | _ => exact .inl hk

theorem permits_unsubscribe :
    (contract H).Permits v []
      fun db => subscriptions.table.set db ((subscriptions.table.get db).erase i) where
  keeps db hle hdb _ := by
    have hlasts : db.Lasts H { db with subscriptions := db.subscriptions.erase i } :=
      { Database.Lasts.refl db with subscriptions := Nat.le_refl _ }
    exact ⟨hlasts, .of_grows hlasts.grows hdb.foods hdb.orders hdb.likes (hdb.subscriptions.erase i)
      hdb.reports⟩
  mono db later hle := { hle with subscriptions := hle.subscriptions }
  creates db k hk := by
    obtain ⟨kind, j⟩ := k
    cases kind with
    | subscriptions =>
        refine .inl ?_
        by_cases hj : j = i
        · simp [contract, Database.has, subscriptions, hj] at hk
        · simpa [contract, Database.has, subscriptions, hj] using hk
    | _ => exact .inl hk

theorem reserves_subscription :
    (contract H).Reserves (fun db => ((subscriptions.table.get db).reserve.1,
      subscriptions.table.set db (subscriptions.table.get db).reserve.2))
      fun i => (.subscriptions, i) where
  le db := { Database.Lasts.refl db with subscriptions := Nat.le_succ _ }
  inv db h := ⟨h.foods, h.orders, h.likes, h.subscriptions, h.reports⟩
  unspent db := by simp [contract, Database.next, subscriptions]
  spent db := by simp [contract, Database.next, subscriptions]
  creates db k hk := by
    obtain ⟨kind, j⟩ := k
    cases kind <;> exact hk

end Writes

end Spoiler
