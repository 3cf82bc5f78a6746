/-
What a page about one record shows.

The page of a restaurant or an order is a function of the record and of what it is joined
with, so nothing else in the database can be read off it.  The page of a user is not: it
shows the first row of the table, and is about the user asked for only where no user has a
smaller id.
-/
import Spoiler.App.Catalogue
import Spoiler.App.Pages
import Spoiler.App.Sample
import Spoiler.Proofs.Orders

namespace Spoiler

open Store Php

/-! ### Pages -/

inductive Page
  | user
  | order
  | restaurant
  deriving DecidableEq, Repr

namespace Page

def look : Page → Value → Handler
  | user => UserController.look
  | order => OrderController.look
  | restaurant => RestaurantController.look

def answer (page : Page) (db : Database) (id : Value) : Except Exn Response :=
  ((page.look id).serve db).answer

/-- What a page about the record with key `i` says, if there is one. -/
def about (page : Page) (db : Database) (i : Nat) : Option Response :=
  match page with
  | user => (db.users.row i).map fun row => json (.user i row) 200
  | order => (db.orders.row i).map fun row => json (.orderDetails i row
      (foods.lookup db (.int row.foodId)) (users.lookup db (.int row.userId))) 200
  | restaurant => (db.restaurants.row i).map fun row =>
      json (.restaurantDetails i row (Restaurant.foods db i)) 200

/-- What it says if there is none. -/
def missing : Page → Response
  | user => sendError "user id not found" 400
  | order => json (.text "the given order not found") 400
  | restaurant => sendError "the restaurant id not found" 400

/-- Two states agree on the record asked for and on what it is joined with. -/
def Agree (page : Page) (id : Value) (db db' : Database) : Prop :=
  ∀ i, id.key? = some i →
    match page with
    | user => db.users.row i = db'.users.row i
    | order => db.orders.row i = db'.orders.row i ∧ ∀ row, db.orders.row i = some row →
        foods.lookup db (.int row.foodId) = foods.lookup db' (.int row.foodId) ∧
          users.lookup db (.int row.userId) = users.lookup db' (.int row.userId)
    | restaurant => db.restaurants.row i = db'.restaurants.row i ∧
        Restaurant.foods db i = Restaurant.foods db' i

/-- If the page is about a user, no user comes before the one asked for. -/
def Leads (page : Page) (id : Value) (db : Database) : Prop :=
  page = .user → ∀ i user, id.key? = some i → db.users.row i = some user →
    ∀ j, j < i → db.users.row j = none

/-! ### What they answer -/

/-- The page about the record asked for, or else that it is missing. -/
def shown (page : Page) (db : Database) (id : Value) : Response :=
  (id.key?.bind (page.about db)).getD page.missing

theorem shown_of_key {page : Page} {db : Database} {id : Value} {i : Nat} {response : Response}
    (hkey : id.key? = some i) (h : page.about db i = some response) :
    page.shown db id = response := by
  simp [shown, hkey, h]

theorem shown_of_missing {page : Page} {db : Database} {id : Value}
    (h : ∀ i, id.key? = some i → page.about db i = none) : page.shown db id = page.missing := by
  unfold shown
  cases hkey : id.key? with
  | none => rfl
  | some i => simp [h i hkey]

theorem answer_order (db : Database) (id : Value) :
    order.answer db id = .ok (order.shown db id) := by
  unfold answer look OrderController.look Prog.serve
  rw [Model.exec_counted_idle]
  cases hl : orders.lookup db id with
  | none =>
      have hmissing := Model.lookup_none.mp hl
      rw [shown_of_missing fun i hkey => by simp [about, show db.orders.row i = none from
        hmissing i hkey]]
      rfl
  | some x =>
      obtain ⟨i, row⟩ := x
      obtain ⟨hkey, hrow⟩ := lookup_order hl
      rw [Option.isSome_some, if_pos rfl, Model.exec_find_idle, hl]
      have habout : order.about db i = some (json (.orderDetails i row
          (foods.lookup db (.int row.foodId)) (users.lookup db (.int row.userId))) 200) := by
        simp only [about, hrow, Option.map_some]
      rw [shown_of_key hkey habout]
      rfl

theorem answer_restaurant (db : Database) (id : Value) :
    restaurant.answer db id = .ok (restaurant.shown db id) := by
  unfold answer look RestaurantController.look RestaurantController.findWithFoods Prog.serve
  simp only [Model.find_eq, Prog.select_bind, Prog.ret_bind, Prog.exec_select, Conn.view_idle,
    Conn.looked_idle]
  cases hl : restaurants.lookup db id with
  | none =>
      have hmissing := Model.lookup_none.mp hl
      rw [shown_of_missing fun i hkey => by simp [about, show db.restaurants.row i = none from
        hmissing i hkey]]
      rfl
  | some x =>
      obtain ⟨i, row⟩ := x
      obtain ⟨hkey, hrow⟩ := Model.lookup_some.mp hl
      have habout : restaurant.about db i
          = some (json (.restaurantDetails i row (Restaurant.foods db i)) 200) := by
        simp only [about, show db.restaurants.row i = some row from hrow, Option.map_some]
      rw [shown_of_key hkey habout]
      simp only [Model.whereGet, Prog.select_bind, Prog.ret_bind, Prog.pure_eq,
        Prog.exec_select, Conn.view_idle, Conn.looked_idle, Option.isSome_some, if_true, hl]
      rfl

/-- The page of a user who exists shows the first user. -/
theorem answer_user (db : Database) (id : Value) :
    user.answer db id = .ok (match users.lookup db id, db.users.first fun _ _ => true with
      | some _, some (i, row) => json (.user i row) 200
      | some _, none => json .null 200
      | none, _ => user.missing) := by
  unfold answer look UserController.look Prog.serve
  rw [Model.exec_counted_idle]
  cases hl : users.lookup db id with
  | none => rfl
  | some x =>
      rw [Option.isSome_some, if_pos rfl, Model.exec_find_idle, hl]
      simp only [Model.whereFirst, Prog.select_bind, Prog.ret_bind, Prog.exec_select,
        Conn.view_idle, Conn.looked_idle]
      cases hfirst : db.users.first fun _ _ => true with
      | none => simp [users, hfirst]
      | some y => simp [users, hfirst]

/-! ### Two states -/

section TwoStates

variable {page : Page} {id : Value} {db db' : Database}

theorem Agree.about (h : page.Agree id db db') {i : Nat} (hkey : id.key? = some i) :
    page.about db i = page.about db' i := by
  have hi := h i hkey
  cases page with
  | user =>
      dsimp only at hi
      simp only [Page.about, hi]
  | order =>
      obtain ⟨hrow, hjoined⟩ := hi
      simp only [Page.about, ← hrow]
      cases hr : db.orders.row i with
      | none => rfl
      | some row =>
          obtain ⟨hfood, huser⟩ := hjoined row hr
          simp only [Option.map_some, hfood, huser]
  | restaurant =>
      obtain ⟨hrow, hfoods⟩ := hi
      simp only [Page.about, hrow, hfoods]

theorem Agree.shown (h : page.Agree id db db') : page.shown db id = page.shown db' id := by
  unfold Page.shown
  cases hkey : id.key? with
  | none => rfl
  | some i => simp only [Option.bind_some, h.about hkey]

/-- A page that leads with the record asked for shows that record. -/
theorem Leads.answer (h : page.Leads id db) : page.answer db id = .ok (page.shown db id) := by
  cases page with
  | order => exact answer_order db id
  | restaurant => exact answer_restaurant db id
  | user =>
      rw [answer_user]
      cases hl : users.lookup db id with
      | none =>
          have hmissing := Model.lookup_none.mp hl
          rw [shown_of_missing fun i hkey => by simp [Page.about, show db.users.row i = none from
            hmissing i hkey]]
      | some x =>
          obtain ⟨i, row⟩ := x
          obtain ⟨hkey, hrow⟩ := Model.lookup_some.mp hl
          have hfirst : db.users.first (fun _ _ => true) = some (i, row) := by
            refine Table.first_eq_some.mpr ⟨hrow, rfl, fun j q hj hji => ?_⟩
            rw [h rfl i row hkey hrow j hji] at hj
            cases hj
          have habout : user.about db i = some (json (.user i row) 200) := by
            simp only [Page.about, show db.users.row i = some row from hrow, Option.map_some]
          rw [hfirst, shown_of_key hkey habout]

/-- One that shows it leads with it. -/
theorem leads_of_answer (h : ∀ i response, id.key? = some i → page.about db i = some response →
    page.answer db id = .ok response) : page.Leads id db := by
  rintro rfl i row hkey hrow j hji
  have habout : user.about db i = some (json (.user i row) 200) := by
    simp only [Page.about, hrow, Option.map_some]
  have hanswer := h i _ hkey habout
  have hl : users.lookup db id = some (i, row) := Model.lookup_some.mpr ⟨hkey, hrow⟩
  rw [answer_user, hl] at hanswer
  cases hfirst : db.users.first fun _ _ => true with
  | none => simp [hfirst, json] at hanswer
  | some x =>
      obtain ⟨k, q⟩ := x
      simp only [hfirst, json, Except.ok.injEq, Response.mk.injEq, Payload.user.injEq,
        true_and] at hanswer
      obtain ⟨rfl, rfl⟩ := hanswer
      cases hj : db.users.row j with
      | none => rfl
      | some other => exact absurd ((Table.first_eq_some.mp hfirst).2.2 j other hj hji) (by simp)

/-- **A page is about the record asked for and tells nothing else, if and only if it is no
user's page or no user comes before the one asked for.** -/
theorem lookups_private_iff (page : Page) (id : Value) (db db' : Database)
    (h : page.Agree id db db') :
    (page.answer db id = page.answer db' id ∧ ∀ i response, id.key? = some i →
        page.about db i = some response → page.answer db id = .ok response) ↔
      page.Leads id db ∧ page.Leads id db' := by
  constructor
  · rintro ⟨hsame, habout⟩
    refine ⟨leads_of_answer habout, leads_of_answer fun i response hkey hrecord => ?_⟩
    rw [← hsame]
    exact habout i response hkey (by rw [h.about hkey, hrecord])
  · rintro ⟨hleads, hleads'⟩
    refine ⟨by rw [hleads.answer, hleads'.answer, h.shown], fun i response hkey hrecord => ?_⟩
    rw [hleads.answer, shown_of_key hkey hrecord]

end TwoStates

end Page

/-- The town, but for the name its first user goes by. -/
def Sample.renamed : Database :=
  { town with users := town.users.modify 1 fun user => { user with name := "eve" } }

/-- The page of a restaurant does not tell the two apart. -/
theorem lookups_private_restaurant :
    Page.restaurant.answer Sample.town (.int 1) = Page.restaurant.answer Sample.renamed (.int 1) :=
  ((Page.lookups_private_iff .restaurant (.int 1) Sample.town Sample.renamed
    fun _ _ => ⟨rfl, rfl⟩).mpr
    ⟨fun h => absurd h (by decide), fun h => absurd h (by decide)⟩).1

/-- The page of the second user is that of the first, and changes with the first. -/
theorem looked_at_another :
    Page.user.Agree (.int 2) Sample.town Sample.renamed ∧
      Page.user.about Sample.town 2 = some (json (.user 2 (Sample.user "bob" 'b')) 200) ∧
      Page.user.answer Sample.town (.int 2) ≠ Page.user.answer Sample.renamed (.int 2) ∧
      Page.user.answer Sample.town (.int 2) = .ok (json (.user 1 (Sample.user "ann" 'a')) 200) := by
  have htown : Page.user.answer Sample.town (.int 2)
      = .ok (json (.user 1 (Sample.user "ann" 'a')) 200) := rfl
  have hrenamed : Page.user.answer Sample.renamed (.int 2)
      = .ok (json (.user 1 { Sample.user "ann" 'a' with name := "eve" }) 200) := rfl
  refine ⟨fun i hi => ?_, rfl, ?_, htown⟩
  · cases hi
    rfl
  · rw [htown, hrenamed]
    simp [json, Sample.user]

end Spoiler
