/-
Whose rows a request can touch.

A principal's rows are the account itself and what the foreign keys tie to it: orders,
likes and subscriptions for a user, restaurants and their foods for an owner.  No
controller compares the rows it addresses with the authenticated principal, so the
frame theorem has to let go of the row the client names.  It lets go of that one row
only: every other row of a stranger is left as it was, whatever the request does to the
row it names.
-/
import Spoiler.App.Routes
import Spoiler.App.Sample
import Spoiler.Proofs.Restaurants
import Spoiler.Proofs.Stock
import Spoiler.Proofs.Users

namespace Spoiler

open Store Php

/-! ### A principal's rows -/

/-- A row of one of the tables that belong to somebody. -/
inductive RowId
  | user (i : Nat)
  | owner (i : Nat)
  | order (i : Nat)
  | like (i : Nat)
  | subscription (i : Nat)
  | restaurant (i : Nat)
  | food (i : Nat)
  deriving DecidableEq

/-- The restaurant exists and is the owner's. -/
def runs (db : Database) (o : Nat) (r : Int) : Bool :=
  (restaurants.lookup db (.int r)).any fun x => x.2.ownerId == (o : Int)

/-- The row is the principal's. -/
def RowId.isOf (db : Database) : Principal → RowId → Bool
  | .user u, user i => i == u
  | .user u, order i => (db.orders.row i).any fun r => r.userId == (u : Int)
  | .user u, like i => (db.likes.row i).any fun r => r.userId == (u : Int)
  | .user u, subscription i => (db.subscriptions.row i).any fun r => r.userId == (u : Int)
  | .owner o, owner i => i == o
  | .owner o, restaurant i => (db.restaurants.row i).any fun r => r.ownerId == (o : Int)
  | .owner o, food i => (db.foods.row i).any fun r => runs db o r.restaurantId
  | _, _ => false

/-- The row is the same in both states, up to the stock if `stock` says so. -/
def RowId.Same (stock : Bool) (db db' : Database) : RowId → Prop
  | user i => db'.users.row i = db.users.row i
  | owner i => db'.owners.row i = db.owners.row i
  | order i => db'.orders.row i = db.orders.row i
  | like i => db'.likes.row i = db.likes.row i
  | subscription i => db'.subscriptions.row i = db.subscriptions.row i
  | restaurant i => db'.restaurants.row i = db.restaurants.row i
  | food i => (db'.foods.row i).map (if stock then Food.stocked 0 else id)
      = (db.foods.row i).map (if stock then Food.stocked 0 else id)

instance (stock : Bool) (db db' : Database) (row : RowId) : Decidable (row.Same stock db db') :=
  match row with
  | .user i => inferInstanceAs (Decidable (db'.users.row i = db.users.row i))
  | .owner i => inferInstanceAs (Decidable (db'.owners.row i = db.owners.row i))
  | .order i => inferInstanceAs (Decidable (db'.orders.row i = db.orders.row i))
  | .like i => inferInstanceAs (Decidable (db'.likes.row i = db.likes.row i))
  | .subscription i =>
      inferInstanceAs (Decidable (db'.subscriptions.row i = db.subscriptions.row i))
  | .restaurant i => inferInstanceAs (Decidable (db'.restaurants.row i = db.restaurants.row i))
  | .food i => inferInstanceAs (Decidable ((db'.foods.row i).map _ = (db.foods.row i).map _))

/-- Every row that is the principal's in one of the states is the same in both, but for those
`but` lets go of. -/
def Undisturbed (p : Principal) (stock : Bool) (but : RowId → Bool) (db db' : Database) : Prop :=
  ∀ row : RowId, but row = false → (row.isOf db p || row.isOf db' p) = true →
    row.Same stock db db'

theorem Undisturbed.refl (p : Principal) (stock : Bool) (but : RowId → Bool) (db : Database) :
    Undisturbed p stock but db db := by
  intro row _ _
  cases row <;> rfl

/-- The principal has an account. -/
def Principal.registered (db : Database) : Principal → Bool
  | user u => (db.users.row u).isSome
  | owner o => (db.owners.row o).isSome

/-! ### One row written -/

/-- The row `w` is all that is written, up to the stock if `stock` says so. -/
def WritesOnly (stock : Bool) (w : RowId) (db db' : Database) : Prop :=
  ∀ row, row ≠ w → row.Same stock db db'

section Writes

variable {stock : Bool} {db db' : Database} {i : Nat}

/-- Writing a row that is let go of, or is never the principal's, disturbs nothing. -/
theorem WritesOnly.undisturbed {w : RowId} {p : Principal} {but : RowId → Bool}
    (h : WritesOnly stock w db db')
    (hw : but w = false → (w.isOf db p || w.isOf db' p) = false) :
    Undisturbed p stock but db db' := by
  intro row hbut hmine
  by_cases hrow : row = w
  · subst hrow
    rw [hw hbut] at hmine
    cases hmine
  · exact h row hrow

theorem writes_user {t : Table User} (h : ∀ j, j ≠ i → t.row j = db.users.row j) :
    WritesOnly stock (.user i) db { db with users := t } := by
  intro row hrow
  cases row with
  | user j => exact h j fun hj => hrow (by rw [hj])
  | _ => rfl

theorem writes_owner {t : Table Owner} (h : ∀ j, j ≠ i → t.row j = db.owners.row j) :
    WritesOnly stock (.owner i) db { db with owners := t } := by
  intro row hrow
  cases row with
  | owner j => exact h j fun hj => hrow (by rw [hj])
  | _ => rfl

theorem writes_restaurant {t : Table Restaurant} (h : ∀ j, j ≠ i → t.row j = db.restaurants.row j) :
    WritesOnly stock (.restaurant i) db { db with restaurants := t } := by
  intro row hrow
  cases row with
  | restaurant j => exact h j fun hj => hrow (by rw [hj])
  | _ => rfl

theorem writes_food {t : Table Food} (h : ∀ j, j ≠ i → t.row j = db.foods.row j) :
    WritesOnly stock (.food i) db { db with foods := t } := by
  intro row hrow
  cases row with
  | food j => exact congrArg _ (h j fun hj => hrow (by rw [hj]))
  | _ => rfl

theorem writes_like {t : Table Like} (h : ∀ j, j ≠ i → t.row j = db.likes.row j) :
    WritesOnly stock (.like i) db { db with likes := t } := by
  intro row hrow
  cases row with
  | like j => exact h j fun hj => hrow (by rw [hj])
  | _ => rfl

theorem writes_subscription {t : Table Subscription}
    (h : ∀ j, j ≠ i → t.row j = db.subscriptions.row j) :
    WritesOnly stock (.subscription i) db { db with subscriptions := t } := by
  intro row hrow
  cases row with
  | subscription j => exact h j fun hj => hrow (by rw [hj])
  | _ => rfl

theorem writes_order {t : Table Order} (h : ∀ j, j ≠ i → t.row j = db.orders.row j) :
    WritesOnly stock (.order i) db { db with orders := t } := by
  intro row hrow
  cases row with
  | order j => exact h j fun hj => hrow (by rw [hj])
  | _ => rfl

/-- A stock of another size is all that changes. -/
theorem stocked_same (t : Table Food) (i j : Nat) (n : Int) :
    ((t.modify i (Food.stocked n)).row j).map (Food.stocked 0)
      = (t.row j).map (Food.stocked 0) := by
  rw [Table.modify_row]
  by_cases hj : j = i
  · rw [if_pos hj]
    cases t.row j <;> rfl
  · rw [if_neg hj]

/-- An order and the stock of a food. -/
theorem writes_order_stock {t : Table Order} {k : Nat} {n : Int}
    (h : ∀ j, j ≠ i → t.row j = db.orders.row j) :
    WritesOnly true (.order i) db
      { db with orders := t, foods := db.foods.modify k (Food.stocked n) } := by
  intro row hrow
  cases row with
  | order j => exact h j fun hj => hrow (by rw [hj])
  | food j => exact stocked_same db.foods k j n
  | _ => rfl

end Writes

/-! ### What a request says about a principal -/

/-- The principal the guard put in front of the action. -/
def Call.actor : Call → Option Principal
  | orderStore user _ => some (.user user)
  | score user _ => some (.user user)
  | restaurantStore owner _ => some (.owner owner)
  | _ => none

/-- `OrderController::store` and `cancel` move stock. -/
def Call.movesStock : Call → Bool
  | orderStore _ _ => true
  | orderCancel _ => true
  | _ => false

/-- A login to the principal's account, with a password or through Facebook. -/
def Call.logsInto (db : Database) : Call → Principal → Bool
  | userLogin request, .user u =>
      (UserController.byAccount db (request.get .account)).any fun x => x.1 == u
  | fbLogin resource, .user u => (FBController.byAccount db resource.id).any fun x => x.1 == u
  | ownerLogin request, .owner o =>
      (OwnerController.byAccount db (request.get .account)).any fun x => x.1 == o
  | _, _ => false

/-- The restaurant a value selects is the principal's. -/
def atRestaurantOf (db : Database) (p : Principal) (v : Value) : Bool :=
  match p with
  | .user _ => false
  | .owner o => (restaurants.lookup db v).any fun x => x.2.ownerId == (o : Int)

/-- The value makes the principal an owner. -/
def handsTo (p : Principal) (v : Value) : Bool :=
  match p with
  | .user _ => false
  | .owner o => v.intColumn == some (o : Int)

/-- An id in the request names the row, which is the principal's or is made so: the row a user
or an order or a subscription is addressed by, the new subscription of the principal, the
principal's restaurant or one that is handed over, the principal's food or one that comes to a
restaurant of the principal. -/
def Call.names (db : Database) (p : Principal) : Call → RowId → Bool
  | userUpdate id _, .user i => id.key? == some i
  | userLogout id, .user i => id.key? == some i
  | orderComplete id, .order i => id.key? == some i
  | orderCancel id, .order i => id.key? == some i
  | subscriptStore request, .subscription i =>
      i == db.subscriptions.next && (request.get .userId).key?.map .user == some p
  | subscriptCancel id, .subscription i => id.key? == some i
  | restaurantUpdate id request, .restaurant i =>
      id.key? == some i && ((RowId.restaurant i).isOf db p || handsTo p (request.get .ownerId))
  | foodStore request, .food i =>
      i == db.foods.next && atRestaurantOf db p (request.get .restaurantId)
  | foodUpdate id request, .food i =>
      id.key? == some i && ((RowId.food i).isOf db p ||
        atRestaurantOf db p (request.get .restaurantId))
  | _, _ => false

/-! ### Stock requests -/

section Stock

variable {L : Laravel} {db : Database} {step : Step} {p : Principal}

theorem userId_of_make {env : Env} {user : Nat} {request : Request} {order : Order}
    (h : orders.make (OrderController.attributes env user request) = some order) :
    order.userId = user := by
  have hcol := (OrderController.drawn_of_make h).userId
  exact Value.intColumn_of_key (by simp) hcol

/-- The order of somebody else is not the principal's. -/
theorem placed_not_of {order : Order} {user : Nat} {t : Table Food} (huser : order.userId = user)
    (hactor : some (Principal.user user) ≠ some p) :
    ((RowId.order db.orders.next).isOf db p ||
      (RowId.order db.orders.next).isOf
        { db with orders := db.orders.insert order, foods := t } p) = false := by
  cases p with
  | owner o => rfl
  | user u =>
      have hne : user ≠ u := fun h => hactor (by rw [h])
      simp [RowId.isOf, huser, hne]

/-- The restaurant a value selects by its key is not the principal's. -/
theorem runs_of_key {o : Nat} {v : Value} {i : Nat} {restaurant : Restaurant}
    (hkey : v.key? = some i) (hrow : db.restaurants.row i = some restaurant)
    (hother : atRestaurantOf db (.owner o) v = false) : runs db o i = false := by
  have hl : restaurants.lookup db v = some (i, restaurant) := Model.lookup_some.mpr ⟨hkey, hrow⟩
  have hl' : restaurants.lookup db (.int i) = some (i, restaurant) :=
    Model.lookup_some.mpr ⟨by simp, hrow⟩
  unfold runs
  rw [hl']
  unfold atRestaurantOf at hother
  dsimp only at hother
  rw [hl] at hother
  exact hother

/-- A new food is at the restaurant the request names. -/
theorem added_not_of {request : Request} {food : Food}
    (hvalid : failed db request.input (FoodController.storeRules request) = [])
    (hm : foods.make (FoodController.attributes request) = some food)
    (hother : atRestaurantOf db p (request.get .restaurantId) = false) :
    ((RowId.food db.foods.next).isOf db p ||
      (RowId.food db.foods.next).isOf { db with foods := db.foods.insert food } p) = false := by
  cases p with
  | user u => rfl
  | owner o =>
      have hrule : (Attr.restaurantId, [Rule.required, .exists_ restaurants.table])
          ∈ FoodController.storeRules request := by simp [FoodController.storeRules]
      have hexists : (Rule.exists_ restaurants.table).passes db (request.get .restaurantId)
          = true := passes_of_required hvalid hrule (by simp) (by simp)
      obtain ⟨i, restaurant, hkey, hrow⟩ := exists_passes hexists
      have hplace : food.restaurantId = i :=
        Value.intColumn_of_key hkey (FoodController.drawn_of_make hm).restaurantId
      have hruns : runs { db with foods := db.foods.insert food } o food.restaurantId = false := by
        rw [hplace]
        exact runs_of_key hkey hrow hother
      simp [RowId.isOf, hruns]

/-- A food after an update is at its old restaurant or at the one the request names. -/
theorem changed_not_of {request : Request} {i : Nat} {food : Food} {f : Food → Food}
    (hrow : db.foods.row i = some food)
    (hvalid : failed db request.input (FoodController.updateRules i food) = [])
    (hf : FoodController.changes request food = some f)
    (hold : (RowId.food i).isOf db p = false)
    (hother : atRestaurantOf db p (request.get .restaurantId) = false) :
    (RowId.food i).isOf { db with foods := db.foods.modify i f } p = false := by
  cases p with
  | user u => rfl
  | owner o =>
      have hrow' : (db.foods.modify i f).row i = some (f food) := (Table.modify_sets hrow).here
      have hruns : runs db o (f food).restaurantId = false := by
        rcases restaurantId_column.changes (by decide) hf with ⟨-, hsame⟩ | ⟨v, n, hv, hn, hset⟩
        · simpa [RowId.isOf, hrow, hsame] using hold
        · have hrule : (Attr.restaurantId, [Rule.exists_ restaurants.table])
              ∈ FoodController.updateRules i food := by simp [FoodController.updateRules]
          have hexists : (Rule.exists_ restaurants.table).passes db v = true :=
            passes_of_input hvalid hrule (by simp) (by decide) hv
          obtain ⟨j, restaurant, hkey, hplace⟩ := exists_passes hexists
          have hget : request.get .restaurantId = v := by simp [Request.get, hv]
          rw [hget] at hother
          rw [hset, Value.intColumn_of_key hkey hn]
          exact runs_of_key hkey hplace hother
      show ((db.foods.modify i f).row i).any _ = false
      rw [hrow']
      exact hruns

theorem stock_undisturbed (hstock : step.call.isOrder = true ∨ step.call.isFood = true)
    (hactor : step.call.actor ≠ some p) :
    Undisturbed p step.call.movesStock (step.call.names db p) db (serve L db step) := by
  have hmoves := moves L db step hstock
  generalize serve L db step = db' at hmoves ⊢
  generalize answer L db step = a at hmoves
  cases hmoves with
  | still horders hfoods herror =>
      intro row _ _
      cases row with
      | order i => exact congrFun horders i
      | food i => simp only [RowId.Same, hfoods]
      | _ => rfl
  | @placed env user request i food order n hv hm hn =>
      exact (writes_order_stock (db.orders.insert_sets order).elsewhere).undisturbed fun _ =>
        placed_not_of (userId_of_make hm) hactor
  | completed hl hsend =>
      obtain ⟨hkey, hrow⟩ := lookup_order hl
      exact (writes_order (Table.modify_sets hrow).elsewhere).undisturbed fun hbut =>
        absurd hbut (by simp [Call.names, hkey])
  | stranded hl hsend hfail =>
      obtain ⟨hkey, hrow⟩ := lookup_order hl
      exact (writes_order (Table.modify_sets hrow).elsewhere).undisturbed fun hbut =>
        absurd hbut (by simp [Call.names, hkey])
  | @returned env id i order k food n hl hsend hf hn =>
      obtain ⟨hkey, hrow⟩ := lookup_order hl
      exact (writes_order_stock (Table.modify_sets hrow).elsewhere).undisturbed fun hbut =>
        absurd hbut (by simp [Call.names, hkey])
  | @added env request food hvalid hm =>
      refine (writes_food (db.foods.insert_sets food).elsewhere).undisturbed fun hbut => ?_
      exact added_not_of hvalid hm (by simpa [Call.names] using hbut)
  | @changed env id request i food f hl hvalid hf =>
      obtain ⟨hkey, hrow⟩ := lookup_food hl
      refine (writes_food (Table.modify_sets hrow).elsewhere).undisturbed fun hbut => ?_
      have hneither : (RowId.food i).isOf db p = false ∧
          atRestaurantOf db p (request.get .restaurantId) = false := by
        simpa [Call.names, hkey] using hbut
      rw [hneither.1, changed_not_of hrow hvalid hf hneither.1 hneither.2]
      rfl

end Stock

/-! ### Accounts -/

theorem not_any {α : Type} {o : Option α} {f : α → Bool} {x : α} (h : o.any f = false)
    (hx : o = some x) : f x = false := by
  rw [hx] at h
  exact h

/-- Of the users a principal has the one row of the account. -/
theorem user_not_of {db db' : Database} {p : Principal} {i : Nat} (h : p ≠ .user i) :
    ((RowId.user i).isOf db p || (RowId.user i).isOf db' p) = false := by
  cases p with
  | owner o => rfl
  | user u =>
      have hi : i ≠ u := fun hi => h (by rw [hi])
      simp [RowId.isOf, hi]

theorem owner_not_of {db db' : Database} {p : Principal} {i : Nat} (h : p ≠ .owner i) :
    ((RowId.owner i).isOf db p || (RowId.owner i).isOf db' p) = false := by
  cases p with
  | user u => rfl
  | owner o =>
      have hi : i ≠ o := fun hi => h (by rw [hi])
      simp [RowId.isOf, hi]

/-- A new account is nobody's who has one. -/
theorem Principal.ne_next {db : Database} {p : Principal} (h : p.registered db = true) :
    p ≠ .user db.users.next ∧ p ≠ .owner db.owners.next := by
  constructor <;>
  · rintro rfl
    simp [registered] at h

section Accounts

variable {L : Laravel} {db : Database} {step : Step} {p : Principal}

theorem account_undisturbed (hcall : step.call.isUser = true) (hp : p.registered db = true)
    (hlogin : step.call.logsInto db p = false) :
    Undisturbed p step.call.movesStock (step.call.names db p) db (serve L db step) := by
  have hsigns := signs L db step hcall
  generalize serve L db step = db' at hsigns ⊢
  generalize answer L db step = a at hsigns
  cases hsigns with
  | still herror => exact Undisturbed.refl p _ _ db
  | @registered env request user hvalid hm htaken =>
      exact (writes_user (db.users.insert_sets user).elsewhere).undisturbed fun _ =>
        user_not_of (Principal.ne_next hp).1
  | loggedIn hby hcheck =>
      refine (writes_user (Table.modify_sets (Table.first_some hby).1).elsewhere).undisturbed
        fun _ => user_not_of ?_
      rintro rfl
      simpa using not_any hlogin hby
  | updated hl hvalid hf hclash =>
      obtain ⟨hkey, hrow⟩ := Model.lookup_some.mp hl
      exact (writes_user (Table.modify_sets hrow).elsewhere).undisturbed fun hbut =>
        absurd hbut (by simp [Call.names, hkey])
  | loggedOut hl =>
      obtain ⟨hkey, hrow⟩ := Model.lookup_some.mp hl
      exact (writes_user (Table.modify_sets hrow).elsewhere).undisturbed fun hbut =>
        absurd hbut (by simp [Call.names, hkey])
  | @arrived env resource user hnone hm =>
      exact (writes_user (db.users.insert_sets user).elsewhere).undisturbed fun _ =>
        user_not_of (Principal.ne_next hp).1
  | returned hby hf =>
      refine (writes_user (Table.modify_sets (Table.first_some hby).1).elsewhere).undisturbed
        fun _ => user_not_of ?_
      rintro rfl
      simpa using not_any hlogin hby

end Accounts

/-! ### The other requests -/

section Edits

variable {L : Laravel} {db : Database} {step : Step} {p : Principal}

/-- A restaurant somebody else opens is not the principal's. -/
theorem opened_not_of {restaurant : Restaurant} {owner : Nat} (howner : restaurant.ownerId = owner)
    (hactor : some (Principal.owner owner) ≠ some p) :
    ((RowId.restaurant db.restaurants.next).isOf db p ||
      (RowId.restaurant db.restaurants.next).isOf
        { db with restaurants := db.restaurants.insert restaurant } p) = false := by
  cases p with
  | user u => rfl
  | owner o =>
      have hne : owner ≠ o := fun h => hactor (by rw [h])
      simp [RowId.isOf, howner, hne]

/-- A restaurant is its old owner's or the one's the request hands it to. -/
theorem remodelled_not_of {request : Request} {i : Nat} {restaurant : Restaurant}
    {f : Restaurant → Restaurant} (hrow : db.restaurants.row i = some restaurant)
    (hf : restaurants.changes request restaurant = some f)
    (hold : (RowId.restaurant i).isOf db p = false)
    (hother : handsTo p (request.get .ownerId) = false) :
    (RowId.restaurant i).isOf { db with restaurants := db.restaurants.modify i f } p = false := by
  cases p with
  | user u => rfl
  | owner o =>
      have hrow' : (db.restaurants.modify i f).row i = some (f restaurant) :=
        (Table.modify_sets hrow).here
      show ((db.restaurants.modify i f).row i).any _ = false
      rw [hrow', Option.any_some]
      rcases ownerId_column.changes (by decide) hf with ⟨-, hsame⟩ | ⟨v, n, hv, hn, hset⟩
      · simpa [RowId.isOf, hrow, hsame] using hold
      · have hget : request.get .ownerId = v := by simp [Request.get, hv]
        simp only [handsTo, hget, hn] at hother
        rw [hset]
        simpa using hother

/-- A like of somebody else is not the principal's. -/
theorem like_not_of {like : Like} {user : Nat} (huser : like.userId = user)
    (hactor : some (Principal.user user) ≠ some p) {db : Database} {i : Nat}
    (hrow : db.likes.row i = some like) : (RowId.like i).isOf db p = false := by
  cases p with
  | owner o => rfl
  | user u =>
      have hne : user ≠ u := fun h => hactor (by rw [h])
      simp [RowId.isOf, hrow, huser, hne]

theorem subscriber_of_make {request : Request} {subscription : Subscription}
    (hvalid : failed db request.input SubscriptController.rules = [])
    (h : subscriptions.make (SubscriptController.attributes request) = some subscription) :
    ∃ i : Nat, (request.get .userId).key? = some i ∧ subscription.userId = i := by
  have hexists : (Rule.exists_ users.table).passes db (request.get .userId) = true :=
    passes_of_required hvalid
      (show (Attr.userId, [Rule.required, .exists_ users.table]) ∈ SubscriptController.rules by
        simp [SubscriptController.rules]) (by simp) (by simp)
  obtain ⟨i, user, hkey, -⟩ := exists_passes hexists
  obtain ⟨huser, -⟩ := SubscriptController.subscription_of_make h
  exact ⟨i, hkey, Value.intColumn_of_key hkey huser⟩

/-- A new subscription is the user's whom the request names. -/
theorem subscribed_not_of {request : Request} {subscription : Subscription}
    (hvalid : failed db request.input SubscriptController.rules = [])
    (hm : subscriptions.make (SubscriptController.attributes request) = some subscription)
    (hother : ((request.get .userId).key?.map Principal.user == some p) = false) :
    ((RowId.subscription db.subscriptions.next).isOf db p ||
      (RowId.subscription db.subscriptions.next).isOf
        { db with subscriptions := db.subscriptions.insert subscription } p) = false := by
  obtain ⟨i, hkey, huser⟩ := subscriber_of_make hvalid hm
  cases p with
  | owner o => rfl
  | user u =>
      have hne : i ≠ u := by simpa [hkey] using hother
      simp [RowId.isOf, huser, hne]

theorem edit_undisturbed (hcall : step.call.isEdit = true) (hp : p.registered db = true)
    (hactor : step.call.actor ≠ some p) (hlogin : step.call.logsInto db p = false) :
    Undisturbed p step.call.movesStock (step.call.names db p) db (serve L db step) := by
  have hedits := edits L db step hcall
  obtain ⟨env, call⟩ := step
  dsimp only at hedits hactor hlogin ⊢
  generalize serve L db ⟨env, call⟩ = db' at hedits ⊢
  cases hedits with
  | still => exact Undisturbed.refl p _ _ db
  | @ownerRegistered request owner =>
      exact (writes_owner (db.owners.insert_sets owner).elsewhere).undisturbed fun _ =>
        owner_not_of (Principal.ne_next hp).2
  | ownerLoggedIn hby =>
      refine (writes_owner (Table.modify_sets (Table.first_some hby).1).elsewhere).undisturbed
        fun _ => owner_not_of ?_
      rintro rfl
      simpa using not_any hlogin hby
  | @opened owner request restaurant hvalid hm =>
      exact (writes_restaurant (db.restaurants.insert_sets restaurant).elsewhere).undisturbed
        fun _ => opened_not_of (RestaurantController.drawn_of_make hm).ownerId hactor
  | @remodelled id request i restaurant f hl hvalid hf =>
      obtain ⟨hkey, hrow⟩ : id.key? = some i ∧ db.restaurants.row i = some restaurant :=
        Model.lookup_some.mp hl
      refine (writes_restaurant (Table.modify_sets hrow).elsewhere).undisturbed fun hbut => ?_
      have hneither : (RowId.restaurant i).isOf db p = false ∧
          handsTo p (request.get .ownerId) = false := by
        simpa [Call.names, hkey] using hbut
      rw [hneither.1, remodelled_not_of hrow hf hneither.1 hneither.2]
      rfl
  | @liked user request like hvalid hnone hm =>
      have hsets := db.likes.insert_sets like
      refine (writes_like hsets.elsewhere).undisturbed fun _ => ?_
      have huser : like.userId = user := (RestaurantController.like_of_make hm).1
      have hbefore : (RowId.like db.likes.next).isOf db p = false := by
        cases p <;> simp [RowId.isOf]
      rw [hbefore, like_not_of huser hactor hsets.here]
      rfl
  | @scored user request k like f hvalid hby hf =>
      obtain ⟨hrow, hown⟩ := Table.first_some hby
      have hsets := Table.modify_sets (f := f) hrow
      refine (writes_like hsets.elsewhere).undisturbed fun _ => ?_
      have huser : like.userId = user := by
        simp only [RestaurantController.ownLike, Bool.and_eq_true, beq_iff_eq] at hown
        exact hown.1
      have hsame : (f like).userId = user := by
        obtain ⟨n, -, hlike⟩ := RestaurantController.like_of_dirty hf
        rw [hlike]
        exact huser
      rw [like_not_of huser hactor hrow, like_not_of hsame hactor hsets.here]
      rfl
  | @subscribed request subscription hvalid hm =>
      refine (writes_subscription
        (db.subscriptions.insert_sets subscription).elsewhere).undisturbed fun hbut => ?_
      exact subscribed_not_of hvalid hm (by simpa [Call.names] using hbut)
  | @unsubscribed id k subscription hl =>
      obtain ⟨hkey, hrow⟩ := Model.lookup_some.mp hl
      have herase : ∀ j, j ≠ k → (db.subscriptions.erase k).row j = db.subscriptions.row j :=
        fun j hj => by rw [Table.erase_row, if_neg hj]
      exact (writes_subscription herase).undisturbed fun hbut =>
        absurd hbut (by simp [Call.names, hkey])
  | reported hvalid hparty hm =>
      intro row _ _
      cases row <;> rfl

end Edits

/-! ### Any request -/

/-- Stock, accounts and the rest are all the calls there are. -/
theorem Call.group (call : Call) :
    (call.isOrder = true ∨ call.isFood = true) ∨ call.isUser = true ∨ call.isEdit = true := by
  cases call <;> simp [isOrder, isFood, isUser, isEdit]

theorem call_undisturbed {L : Laravel} {db : Database} {p : Principal} (step : Step)
    (hp : p.registered db = true) (hactor : step.call.actor ≠ some p)
    (hlogin : step.call.logsInto db p = false) :
    Undisturbed p step.call.movesStock (step.call.names db p) db (serve L db step) := by
  rcases step.call.group with hstock | huser | hedit
  · exact stock_undisturbed hstock hactor
  · exact account_undisturbed huser hp hlogin
  · exact edit_undisturbed hedit hp hactor hlogin

namespace Visit

/-- The request moves stock. -/
def movesStock (db : Database) (visit : Visit) : Bool := (visit.call? db).any Call.movesStock

/-- The request is a login to the principal's account. -/
def logsInto (db : Database) (visit : Visit) (p : Principal) : Bool :=
  (visit.call? db).any fun call => call.logsInto db p

/-- An id the request carries names the row. -/
def names (db : Database) (visit : Visit) (p : Principal) (row : RowId) : Bool :=
  (visit.call? db).any fun call => call.names db p row

/-- The route table passes on only the principal its guard found. -/
theorem actor_of_access (route : Route) :
    match route.access with
    | .anyone call => call.actor = none
    | .auth call => ∀ u p, (call u).actor = some p → .user u = p
    | .ownerAuth call => ∀ o p, (call o).actor = some p → .owner o = p
    | _ => True := by
  cases route <;> simp [Route.access, Call.actor]

theorem principal_of_actor {db : Database} {visit : Visit} {call : Call} {p : Principal}
    (hcall : visit.call? db = some call) (hactor : call.actor = some p) :
    visit.principal db = some p := by
  have htable := actor_of_access visit.route
  unfold call? at hcall
  unfold principal
  cases haccess : visit.route.access with
  | anyone c =>
      rw [haccess] at hcall htable
      cases hcall
      rw [htable] at hactor
      cases hactor
  | auth c =>
      rw [haccess] at hcall htable
      obtain ⟨u, hu, rfl⟩ := Option.map_eq_some_iff.mp hcall
      show (guard db visit.token).map _ = _
      rw [hu, Option.map_some, htable u p hactor]
  | ownerAuth c =>
      rw [haccess] at hcall htable
      obtain ⟨o, ho, rfl⟩ := Option.map_eq_some_iff.mp hcall
      show (ownerGuard db visit.token).map _ = _
      rw [ho, Option.map_some, htable o p hactor]
  | page body =>
      rw [haccess] at hcall
      cases hcall
  | missing =>
      rw [haccess] at hcall
      cases hcall

end Visit

/-- **A request to which a principal is a stranger, and which is no login to their account,
changes none of their rows but the one an id it carries names.** -/
theorem strangers_undisturbed (L : Laravel) (db : Database) (visit : Visit) (p : Principal)
    (hp : p.registered db = true) (hauth : visit.principal db ≠ some p)
    (hlogin : visit.logsInto db p = false) :
    Undisturbed p (visit.movesStock db) (visit.names db p) db (visit.serve L db) := by
  unfold Visit.movesStock
  unfold Visit.logsInto at hlogin
  cases hcall : visit.call? db with
  | none =>
      rw [Visit.serve_of_none hcall]
      exact Undisturbed.refl p _ _ db
  | some call =>
      rw [hcall] at hlogin
      have hnames : visit.names db p = call.names db p := by
        funext row
        unfold Visit.names
        rw [hcall]
        rfl
      rw [hnames, Visit.serve, Visit.serve_of_call hcall]
      have hactor : call.actor ≠ some p := fun h => hauth (Visit.principal_of_actor hcall h)
      exact call_undisturbed ⟨visit.env, call⟩ hp hactor hlogin

/-- Anybody logs a user out, and of the user's rows only the account changes. -/
theorem strangers_undisturbed_logout :
    let visit : Visit := ⟨Sample.env, "", .userLogout (.int 1)⟩
    visit.names Sample.town (.user 1) (.user 1) = true ∧
      (∀ i, visit.names Sample.town (.user 1) (.order i) = false) ∧
      Undisturbed (.user 1) false (visit.names Sample.town (.user 1)) Sample.town
        (visit.serve Sample.laravel Sample.town) :=
  ⟨by decide +kernel, fun _ => rfl,
    strangers_undisturbed Sample.laravel Sample.town _ (.user 1) (by decide +kernel)
      (by decide +kernel) (by decide +kernel)⟩

/-- The request is neither the principal's nor a login to their account, and it changes
rows of theirs. -/
def Disturbs (L : Laravel) (db : Database) (visit : Visit) (p : Principal) : Prop :=
  visit.principal db ≠ some p ∧ visit.logsInto db p = false ∧
    ¬ Undisturbed p (visit.movesStock db) (fun _ => false) db (visit.serve L db)

/-- Anybody logs a user out, renames a user, and subscribes a user; another user completes
and cancels a user's order; another owner takes over a restaurant and reprices its food. -/
theorem strangers_disturbed :
    Disturbs Sample.laravel Sample.town ⟨Sample.env, "", .userLogout (.int 1)⟩ (.user 1) ∧
    Disturbs Sample.laravel Sample.town
      ⟨Sample.env, "", .userUpdate (.int 1) (Sample.request [(.name, .str "eve")])⟩ (.user 1) ∧
    Disturbs Sample.laravel Sample.town
      ⟨Sample.env, "", .subscriptStore (Sample.request
        [(.userId, .int 1), (.restaurantId, .int 2)])⟩ (.user 1) ∧
    Disturbs Sample.laravel Sample.town ⟨Sample.env, "", .subscriptCancel (.int 1)⟩ (.user 1) ∧
    Disturbs Sample.laravel Sample.town
      ⟨Sample.env, Sample.token 'b', .orderComplete (.int 1)⟩ (.user 1) ∧
    Disturbs Sample.laravel Sample.town
      ⟨Sample.env, Sample.token 'b', .orderCancel (.int 1)⟩ (.user 1) ∧
    Disturbs Sample.laravel Sample.town
      ⟨Sample.env, Sample.token 'd', .restaurantUpdate (.int 1) (Sample.request
        [(.ownerId, .int 2)])⟩ (.owner 1) ∧
    Disturbs Sample.laravel Sample.town
      ⟨Sample.env, Sample.token 'd', .foodUpdate (.int 1) (Sample.request
        [(.discountedPrice, .int 1)])⟩ (.owner 1) := by
  refine ⟨?_, ?_, ?_, ?_, ?_, ?_, ?_, ?_⟩
  · exact ⟨by decide +kernel, by decide +kernel,
      fun h => absurd (h (.user 1) rfl (by decide +kernel)) (by decide +kernel)⟩
  · exact ⟨by decide +kernel, by decide +kernel,
      fun h => absurd (h (.user 1) rfl (by decide +kernel)) (by decide +kernel)⟩
  · exact ⟨by decide +kernel, by decide +kernel,
      fun h => absurd (h (.subscription 2) rfl (by decide +kernel)) (by decide +kernel)⟩
  · exact ⟨by decide +kernel, by decide +kernel,
      fun h => absurd (h (.subscription 1) rfl (by decide +kernel)) (by decide +kernel)⟩
  · exact ⟨by decide +kernel, by decide +kernel,
      fun h => absurd (h (.order 1) rfl (by decide +kernel)) (by decide +kernel)⟩
  · exact ⟨by decide +kernel, by decide +kernel,
      fun h => absurd (h (.order 1) rfl (by decide +kernel)) (by decide +kernel)⟩
  · exact ⟨by decide +kernel, by decide +kernel,
      fun h => absurd (h (.restaurant 1) rfl (by decide +kernel)) (by decide +kernel)⟩
  · exact ⟨by decide +kernel, by decide +kernel,
      fun h => absurd (h (.food 1) rfl (by decide +kernel)) (by decide +kernel)⟩

end Spoiler
