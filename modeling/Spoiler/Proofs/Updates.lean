/-
What an accepted update writes.

The three update actions hand the request body to Eloquent, a user's whole and the others'
without the image, and Eloquent assigns whatever of it is fillable.  Nothing else changes:
one row of one table is written.  But `$fillable` of a user holds the tokens, the points and
the bad records, and that of a restaurant its owner, so these are as safe as the client is
honest: they stay as they are exactly if the body does not name them or sends what is stored.
-/
import Spoiler.App.Sample
import Spoiler.Proofs.Restaurants
import Spoiler.Proofs.Stock
import Spoiler.Proofs.Users

namespace Spoiler

open Store Php

/-! ### Accepted updates -/

def Call.isUpdate : Call → Bool
  | userUpdate _ _ => true
  | foodUpdate _ _ => true
  | restaurantUpdate _ _ => true
  | _ => false

/-- What an accepted update leaves of `db`. -/
inductive Updates (L : Laravel) (db : Database) : Call → Database → Prop
  | user {id : Value} {request : Request} {i : Nat} {user : User} {f : User → User}
      (hl : users.lookup db id = some (i, user))
      (hvalid : failed db request.input (UserController.updateRules L) = [])
      (hf : users.dirty request.input user users.fillable = some f) :
      Updates L db (.userUpdate id request) { db with users := db.users.modify i f }
  | food {id : Value} {request : Request} {i : Nat} {food : Food} {f : Food → Food}
      (hl : foods.lookup db id = some (i, food))
      (hvalid : failed db request.input (FoodController.updateRules i food) = [])
      (hf : foods.changes request food = some f) :
      Updates L db (.foodUpdate id request) { db with foods := db.foods.modify i f }
  | restaurant {id : Value} {request : Request} {i : Nat} {restaurant : Restaurant}
      {f : Restaurant → Restaurant} (hl : restaurants.lookup db id = some (i, restaurant))
      (hvalid : failed db request.input (RestaurantController.updateRules request i) = [])
      (hf : restaurants.changes request restaurant = some f) :
      Updates L db (.restaurantUpdate id request)
        { db with restaurants := db.restaurants.modify i f }

namespace Updates

variable {L : Laravel} {db : Database} {env : Env} {id : Value} {request : Request}

theorem ofUser (h : isError (answer L db ⟨env, .userUpdate id request⟩) = false) :
    Updates L db (.userUpdate id request) (serve L db ⟨env, .userUpdate id request⟩) := by
  have hsigns := signs L db ⟨env, .userUpdate id request⟩ rfl
  generalize serve L db ⟨env, .userUpdate id request⟩ = db' at hsigns ⊢
  generalize answer L db ⟨env, .userUpdate id request⟩ = a at hsigns h
  cases hsigns with
  | still herror =>
      rw [h] at herror
      cases herror
  | updated hl hvalid hf hclash => exact .user hl hvalid hf

theorem ofFood (h : isError (answer L db ⟨env, .foodUpdate id request⟩) = false) :
    Updates L db (.foodUpdate id request) (serve L db ⟨env, .foodUpdate id request⟩) := by
  have hmoves := moves L db ⟨env, .foodUpdate id request⟩ (.inr rfl)
  generalize serve L db ⟨env, .foodUpdate id request⟩ = db' at hmoves ⊢
  generalize answer L db ⟨env, .foodUpdate id request⟩ = a at hmoves h
  cases hmoves with
  | still horders hfoods herror =>
      rw [h] at herror
      cases herror
  | changed hl hvalid hf => exact .food hl hvalid hf

theorem ofRestaurant (h : isError (answer L db ⟨env, .restaurantUpdate id request⟩) = false) :
    Updates L db (.restaurantUpdate id request)
      (serve L db ⟨env, .restaurantUpdate id request⟩) := by
  have hresult : (serve L db ⟨env, .restaurantUpdate id request⟩,
      answer L db ⟨env, .restaurantUpdate id request⟩) = _ :=
    RestaurantController.update_result id request db
  generalize serve L db ⟨env, .restaurantUpdate id request⟩ = db' at hresult ⊢
  generalize answer L db ⟨env, .restaurantUpdate id request⟩ = a at hresult h
  cases hl : restaurants.lookup db id with
  | none =>
      simp only [hl] at hresult
      cases hresult
      cases h
  | some x =>
      obtain ⟨i, restaurant⟩ := x
      simp only [hl] at hresult
      cases hvalid : failed db request.input (RestaurantController.updateRules request i) with
      | cons e es =>
          simp only [hvalid] at hresult
          cases hresult
          cases h
      | nil =>
          simp only [hvalid] at hresult
          cases hf : restaurants.changes request restaurant with
          | none =>
              simp only [hf] at hresult
              cases hresult
              cases h
          | some f =>
              simp only [hf] at hresult
              cases hresult
              exact .restaurant hl hvalid hf

end Updates

/-! ### A food after an update -/

namespace FoodController

/-- The restaurant a food is at after an update. -/
def movedTo (request : Request) (food : Food) : Int :=
  ((request.input .restaurantId).bind Value.intColumn).getD food.restaurantId

/-- The name it has then. -/
def renamedTo (request : Request) (food : Food) : String :=
  ((request.input .name).bind Value.textColumn).getD food.name

section

variable {request : Request} {food : Food} {f : Food → Food}

theorem movedTo_eq (hf : foods.changes request food = some f) :
    (f food).restaurantId = movedTo request food := by
  unfold movedTo
  rcases restaurantId_column.changes (by decide) hf with ⟨hnone, hsame⟩ | ⟨v, n, hv, hn, hset⟩
  · rw [hnone, hsame]
    rfl
  · rw [hv, hset, Option.bind_some, hn]
    rfl

theorem renamedTo_eq (hf : foods.changes request food = some f) :
    (f food).name = renamedTo request food := by
  unfold renamedTo
  rcases name_column.changes (by decide) hf with ⟨hnone, hsame⟩ | ⟨v, s, hv, hs, hset⟩
  · rw [hnone, hsame]
    rfl
  · rw [hv, hset, Option.bind_some, hs]
    rfl

end

/-- There is no rise of the stock to announce, or it can be announced. -/
def announces (env : Env) (db : Database) (request : Request) (food : Food) : Bool :=
  !raised request food.remaining || (announce env db (movedTo request food)).isOk

/-- What an update has to pass. -/
theorem accepted_iff {L : Laravel} {db : Database} {env : Env} {id : Value} {request : Request}
    {i : Nat} {food : Food} (hl : foods.lookup db id = some (i, food)) :
    isError (answer L db ⟨env, .foodUpdate id request⟩) = false ↔
      failed db request.input (updateRules i food) = [] ∧
        (foods.changes request food).isSome = true ∧ announces env db request food = true := by
  have hanswer : answer L db ⟨env, .foodUpdate id request⟩
      = ((update env id request).serve db).result.2 := rfl
  rw [hanswer, update_result, hl]
  dsimp only
  cases hvalid : failed db request.input (updateRules i food) with
  | cons e es => simp [isError]
  | nil =>
      dsimp only
      unfold updated changes
      cases hf : foods.changes request food with
      | none => simp [isError]
      | some f =>
          dsimp only
          rw [movedTo_eq hf]
          unfold announces
          cases raised request food.remaining with
          | false => simp [isError, json]
          | true =>
              cases announce env db (movedTo request food) with
              | error e => simp [isError, Except.isOk, Except.toBool]
              | ok _ => simp [isError, json, Except.isOk, Except.toBool]

end FoodController

/-- **An accepted update makes one of these writes.** -/
theorem updates {L : Laravel} {db : Database} {env : Env} {call : Call}
    (hcall : call.isUpdate = true) (h : isError (answer L db ⟨env, call⟩) = false) :
    Updates L db call (serve L db ⟨env, call⟩) := by
  cases call with
  | userUpdate id request => exact .ofUser h
  | foodUpdate id request => exact .ofFood h
  | restaurantUpdate id request => exact .ofRestaurant h
  | _ => cases hcall

/-! ### Server-managed columns -/

section Stored

variable {ρ β : Type} {M : Model ρ} {a : Attr} {π : ρ → β} {parse : Value → Option β} {row : ρ}
  {f : ρ → ρ}

/-- The body does not name the attribute, or sends what the column then stores as `x`. -/
def Request.Stores (request : Request) (a : Attr) (parse : Value → Option β) (x : β) : Prop :=
  ∀ v, request.input a = some v → parse v = some x

/-- A column that ends as the request says keeps what it has exactly if the request says so. -/
theorem same_iff_stores {request : Request} {x y : β}
    (h : (request.input a = none ∧ y = x) ∨
      ∃ v z, request.input a = some v ∧ parse v = some z ∧ y = z) :
    y = x ↔ request.Stores a parse x := by
  unfold Request.Stores
  rcases h with ⟨hnone, rfl⟩ | ⟨v, z, hv, hz, rfl⟩
  · simp [hnone]
  · simp [hv, hz]

variable [DecidableEq ρ]

theorem Model.Column.dirty_same (hcol : M.Column a π parse) {request : Request}
    (hf : M.dirty request.input row M.fillable = some f) :
    π (f row) = π row ↔ request.Stores a parse (π row) :=
  same_iff_stores (hcol.dirty hf)

theorem Model.Column.changes_same (hcol : M.Column a π parse) (ha : a ≠ .image)
    {request : Request} (hf : M.changes request row = some f) :
    π (f row) = π row ↔ request.Stores a parse (π row) :=
  same_iff_stores (hcol.changes ha hf)

end Stored

/-- The columns of a user that are not the user's to write are the same. -/
structure User.Managed (user user' : User) : Prop where
  apiToken : user'.apiToken = user.apiToken
  accessToken : user'.accessToken = user.accessToken
  point : user'.point = user.point
  badRecord : user'.badRecord = user.badRecord

/-- One row is written, the one the route names, no other table, and what is written keeps to
`keeps`. -/
def WritesRow {ρ : Type} (T : TableOf Database ρ) (db db' : Database) (id : Value)
    (keeps : ρ → ρ → Prop) : Prop :=
  db' = T.set db (T.get db') ∧ (T.get db').next = (T.get db).next ∧
    ∃ i row row', id.key? = some i ∧ (T.get db).row i = some row ∧
      (T.get db).Sets (T.get db') i row' ∧ keeps row row'

/-- An update writes nothing the server manages. -/
def Guards (db db' : Database) : Call → Prop
  | .userUpdate id _ => WritesRow users.table db db' id User.Managed
  | .restaurantUpdate id _ =>
      WritesRow restaurants.table db db' id fun restaurant restaurant' =>
        restaurant'.ownerId = restaurant.ownerId
  -- a food has no columns but its fillable ones
  | .foodUpdate id _ => WritesRow foods.table db db' id fun _ _ => True
  | _ => True

/-- The body sends back what is stored, wherever it names a column the server manages. -/
def Call.SendsBack (db : Database) : Call → Prop
  | userUpdate id request => ∀ i user, users.lookup db id = some (i, user) →
      request.Stores .apiToken Value.textColumn user.apiToken ∧
      request.Stores .accessToken Value.nullableText user.accessToken ∧
      request.Stores .point Value.intColumn user.point ∧
      request.Stores .badRecord Value.intColumn user.badRecord
  | restaurantUpdate id request => ∀ i restaurant, restaurants.lookup db id = some (i, restaurant) →
      request.Stores .ownerId Value.intColumn restaurant.ownerId
  | _ => True

/-- A change of the row the route names is such a write exactly if it keeps to `keeps`. -/
theorem writesRow_modify {ρ : Type} {M : Model ρ} {db : Database} {id : Value} {i : Nat} {row : ρ}
    {f : ρ → ρ} {keeps : ρ → ρ → Prop} (hl : M.lookup db id = some (i, row)) :
    WritesRow M.table db (M.table.set db ((M.table.get db).modify i f)) id keeps ↔
      keeps row (f row) := by
  obtain ⟨hkey, hrow⟩ := Model.lookup_some.mp hl
  have hsets : (M.table.get db).Sets ((M.table.get db).modify i f) i (f row) :=
    Table.modify_sets hrow
  unfold WritesRow
  rw [M.table.get_set]
  constructor
  · rintro ⟨-, -, j, q, q', hj, hq, hsets', hkeeps⟩
    cases hkey.symm.trans hj
    cases hrow.symm.trans hq
    cases hsets.here.symm.trans hsets'.here
    exact hkeeps
  · intro hkeeps
    exact ⟨rfl, rfl, i, row, f row, hkey, hrow, hsets, hkeeps⟩

theorem managed_iff {request : Request} {user : User} {f : User → User}
    (hf : users.dirty request.input user users.fillable = some f) :
    User.Managed user (f user) ↔
      request.Stores .apiToken Value.textColumn user.apiToken ∧
      request.Stores .accessToken Value.nullableText user.accessToken ∧
      request.Stores .point Value.intColumn user.point ∧
      request.Stores .badRecord Value.intColumn user.badRecord := by
  rw [← token_column.dirty_same hf, ← accessToken_column.dirty_same hf,
    ← point_column.dirty_same hf, ← badRecord_column.dirty_same hf]
  constructor
  · rintro ⟨htoken, haccess, hpoint, hrecord⟩
    exact ⟨htoken, haccess, hpoint, hrecord⟩
  · rintro ⟨htoken, haccess, hpoint, hrecord⟩
    exact ⟨htoken, haccess, hpoint, hrecord⟩

/-- **An accepted update writes nothing the server manages, if and only if the body sends back
what is stored wherever it names such a column.** -/
theorem guards_iff (L : Laravel) (db : Database) (env : Env) (call : Call)
    (hcall : call.isUpdate = true) (haccept : isError (answer L db ⟨env, call⟩) = false) :
    Guards db (serve L db ⟨env, call⟩) call ↔ call.SendsBack db := by
  have hupdates := updates hcall haccept
  generalize serve L db ⟨env, call⟩ = db' at hupdates ⊢
  cases hupdates with
  | @user id request i user f hl hvalid hf =>
      have hwrites : Guards db { db with users := db.users.modify i f } (.userUpdate id request)
          ↔ User.Managed user (f user) := writesRow_modify hl
      rw [hwrites, managed_iff hf]
      constructor
      · intro h j user' hl'
        cases hl.symm.trans hl'
        exact h
      · intro h
        exact h i user hl
  | @restaurant id request i restaurant f hl hvalid hf =>
      have hwrites : Guards db { db with restaurants := db.restaurants.modify i f }
          (.restaurantUpdate id request) ↔ (f restaurant).ownerId = restaurant.ownerId :=
        writesRow_modify hl
      rw [hwrites, ownerId_column.changes_same (by decide) hf]
      constructor
      · intro h j restaurant' hl'
        cases hl.symm.trans hl'
        exact h
      · intro h
        exact h i restaurant hl
  | @food id request i food f hl hvalid hf =>
      have hwrites : Guards db { db with foods := db.foods.modify i f } (.foodUpdate id request)
          ↔ True := writesRow_modify hl
      exact hwrites

/-- A user changes the name. -/
theorem guards_rename : Guards Sample.town
    (serve Sample.laravel Sample.town
      ⟨Sample.env, .userUpdate (.int 1) (Sample.request [(.name, .str "anna")])⟩)
    (.userUpdate (.int 1) (Sample.request [(.name, .str "anna")])) :=
  (guards_iff Sample.laravel Sample.town Sample.env
    (.userUpdate (.int 1) (Sample.request [(.name, .str "anna")])) rfl (by decide +kernel)).mpr (by
      intro i user _
      refine ⟨?_, ?_, ?_, ?_⟩ <;> intro v hv <;> cases hv)

/-- A user takes a hundred points, and an owner gives a restaurant away. -/
theorem guards_broken :
    (isError (answer Sample.laravel Sample.town
        ⟨Sample.env, .userUpdate (.int 1) (Sample.request [(.point, .int 100)])⟩) = false ∧
      ¬ Guards Sample.town (serve Sample.laravel Sample.town
        ⟨Sample.env, .userUpdate (.int 1) (Sample.request [(.point, .int 100)])⟩)
        (.userUpdate (.int 1) (Sample.request [(.point, .int 100)]))) ∧
    isError (answer Sample.laravel Sample.town
        ⟨Sample.env, .restaurantUpdate (.int 1) (Sample.request [(.ownerId, .int 2)])⟩) = false ∧
      ¬ Guards Sample.town (serve Sample.laravel Sample.town
        ⟨Sample.env, .restaurantUpdate (.int 1) (Sample.request [(.ownerId, .int 2)])⟩)
        (.restaurantUpdate (.int 1) (Sample.request [(.ownerId, .int 2)])) := by
  refine ⟨⟨by decide +kernel, ?_⟩, by decide +kernel, ?_⟩
  · rintro ⟨-, -, i, user, user', hi, hrow, hsets, hmanaged⟩
    cases hi
    have hbefore : Sample.town.users.row 1 = some user := hrow
    have hafter : (serve Sample.laravel Sample.town ⟨Sample.env,
        .userUpdate (.int 1) (Sample.request [(.point, .int 100)])⟩).users.row 1
          = some user' := hsets.here
    have hpoint := congrArg some hmanaged.point
    rw [← Option.map_some, ← Option.map_some, ← hafter, ← hbefore] at hpoint
    exact absurd hpoint (by decide +kernel)
  · rintro ⟨-, -, i, restaurant, restaurant', hi, hrow, hsets, howner⟩
    cases hi
    have hbefore : Sample.town.restaurants.row 1 = some restaurant := hrow
    have hafter : (serve Sample.laravel Sample.town ⟨Sample.env,
        .restaurantUpdate (.int 1) (Sample.request [(.ownerId, .int 2)])⟩).restaurants.row 1
          = some restaurant' := hsets.here
    have hsame := congrArg some howner
    rw [← Option.map_some, ← Option.map_some, ← hafter, ← hbefore] at hsame
    exact absurd hsame (by decide +kernel)

end Spoiler
