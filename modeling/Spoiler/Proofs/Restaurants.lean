/-
What the remaining handlers do: owners, restaurants, likes, subscriptions, reports.

As for stock and accounts, each handler gets one equation, and then one relation,
`Edits`, lists the writes of the whole group.  None of these tables has a unique index
but the owners', so a write that the columns take goes through.
-/
import Spoiler.Proofs.Accounts

namespace Spoiler

open Store Php

theorem restaurants_nodup : restaurants.fillable.Nodup := by decide

theorem lookup_restaurant {db : Database} {v : Value} {i : Nat} {restaurant : Restaurant}
    (h : restaurants.lookup db v = some (i, restaurant)) :
    v.key? = some i ∧ db.restaurants.row i = some restaurant :=
  Model.lookup_some.mp h

/-- The columns of a restaurant an assignment to `b` leaves alone. -/
structure Restaurant.Beside (b : Attr) (r q : Restaurant) : Prop where
  name : b ≠ .name → q.name = r.name
  «class» : b ≠ .«class» → q.«class» = r.«class»
  image : b ≠ .image → q.image = r.image
  eastLongitude : b ≠ .eastLongitude → q.eastLongitude = r.eastLongitude
  northLatitude : b ≠ .northLatitude → q.northLatitude = r.northLatitude
  link : b ≠ .link → q.link = r.link
  address : b ≠ .address → q.address = r.address
  phone : b ≠ .phone → q.phone = r.phone
  startTime : b ≠ .startTime → q.startTime = r.startTime
  endTime : b ≠ .endTime → q.endTime = r.endTime
  ownerId : b ≠ .ownerId → q.ownerId = r.ownerId

theorem restaurants_keeps {b : Attr} {v : Value} {f : Restaurant → Restaurant}
    (hf : restaurants.assign b v = some f) (r : Restaurant) : r.Beside b (f r) := by
  cases b <;> first
    | (obtain ⟨x, -, rfl⟩ := Option.map_eq_some_iff.mp hf
       constructor <;> intro hb <;> first | rfl | exact absurd rfl hb)
    | cases hf

theorem restaurantName_column : restaurants.Column .name Restaurant.name Value.textColumn :=
  .of_beside restaurants_keeps restaurants_nodup (by decide) (fun _ => rfl) (fun _ _ => rfl)
    fun _ _ _ h => h.name

theorem link_column : restaurants.Column .link Restaurant.link Value.textColumn :=
  .of_beside restaurants_keeps restaurants_nodup (by decide) (fun _ => rfl) (fun _ _ => rfl)
    fun _ _ _ h => h.link

theorem address_column : restaurants.Column .address Restaurant.address Value.textColumn :=
  .of_beside restaurants_keeps restaurants_nodup (by decide) (fun _ => rfl) (fun _ _ => rfl)
    fun _ _ _ h => h.address

theorem phone_column : restaurants.Column .phone Restaurant.phone Value.textColumn :=
  .of_beside restaurants_keeps restaurants_nodup (by decide) (fun _ => rfl) (fun _ _ => rfl)
    fun _ _ _ h => h.phone

theorem startTime_column : restaurants.Column .startTime Restaurant.startTime timeColumn :=
  .of_beside restaurants_keeps restaurants_nodup (by decide) (fun _ => rfl) (fun _ _ => rfl)
    fun _ _ _ h => h.startTime

theorem endTime_column : restaurants.Column .endTime Restaurant.endTime timeColumn :=
  .of_beside restaurants_keeps restaurants_nodup (by decide) (fun _ => rfl) (fun _ _ => rfl)
    fun _ _ _ h => h.endTime

theorem ownerId_column : restaurants.Column .ownerId Restaurant.ownerId Value.intColumn :=
  .of_beside restaurants_keeps restaurants_nodup (by decide) (fun _ => rfl) (fun _ _ => rfl)
    fun _ _ _ h => h.ownerId

theorem class_column : restaurants.Column .«class» Restaurant.«class» Value.textColumn :=
  .of_beside restaurants_keeps restaurants_nodup (by decide) (fun _ => rfl) (fun _ _ => rfl)
    fun _ _ _ h => h.«class»

theorem restaurantImage_column :
    restaurants.Column .image Restaurant.image Value.nullableText :=
  .of_beside restaurants_keeps restaurants_nodup (by decide) (fun _ => rfl) (fun _ _ => rfl)
    fun _ _ _ h => h.image

theorem eastLongitude_column :
    restaurants.Column .eastLongitude Restaurant.eastLongitude Value.textColumn :=
  .of_beside restaurants_keeps restaurants_nodup (by decide) (fun _ => rfl) (fun _ _ => rfl)
    fun _ _ _ h => h.eastLongitude

theorem northLatitude_column :
    restaurants.Column .northLatitude Restaurant.northLatitude Value.textColumn :=
  .of_beside restaurants_keeps restaurants_nodup (by decide) (fun _ => rfl) (fun _ _ => rfl)
    fun _ _ _ h => h.northLatitude

theorem restaurants_settles : restaurants.Settles := by
  intro a v f hf
  cases a with
  | name => exact restaurantName_column.settled (fun _ => rfl) (fun _ => rfl) hf
  | «class» => exact class_column.settled (fun _ => rfl) (fun _ => rfl) hf
  | image => exact restaurantImage_column.settled (fun _ => rfl) (fun _ => rfl) hf
  | eastLongitude => exact eastLongitude_column.settled (fun _ => rfl) (fun _ => rfl) hf
  | northLatitude => exact northLatitude_column.settled (fun _ => rfl) (fun _ => rfl) hf
  | address => exact address_column.settled (fun _ => rfl) (fun _ => rfl) hf
  | link => exact link_column.settled (fun _ => rfl) (fun _ => rfl) hf
  | phone => exact phone_column.settled (fun _ => rfl) (fun _ => rfl) hf
  | ownerId => exact ownerId_column.settled (fun _ => rfl) (fun _ => rfl) hf
  | startTime => exact startTime_column.settled (fun _ => rfl) (fun _ => rfl) hf
  | endTime => exact endTime_column.settled (fun _ => rfl) (fun _ => rfl) hf
  | _ => cases hf

/-! ### RestaurantController -/

namespace RestaurantController

/-- The columns of a new restaurant. -/
structure Drawn (owner : Nat) (request : Request) (restaurant : Restaurant) : Prop where
  name : (request.get .name).textColumn = some restaurant.name
  link : (request.get .link).textColumn = some restaurant.link
  address : (request.get .address).textColumn = some restaurant.address
  phone : (request.get .phone).textColumn = some restaurant.phone
  startTime : timeColumn (request.get .startTime) = some restaurant.startTime
  endTime : timeColumn (request.get .endTime) = some restaurant.endTime
  ownerId : restaurant.ownerId = owner

theorem drawn_of_make {owner : Nat} {request : Request} {restaurant : Restaurant}
    (h : restaurants.make (attributes owner request) = some restaurant) :
    Drawn owner request restaurant := by
  obtain ⟨n, hn, h⟩ := Option.bind_eq_some_iff.mp h
  obtain ⟨c, -, h⟩ := Option.bind_eq_some_iff.mp h
  obtain ⟨m, -, h⟩ := Option.bind_eq_some_iff.mp h
  obtain ⟨s, hs, h⟩ := Option.bind_eq_some_iff.mp h
  obtain ⟨e, he, h⟩ := Option.bind_eq_some_iff.mp h
  obtain ⟨x, -, h⟩ := Option.bind_eq_some_iff.mp h
  obtain ⟨y, -, h⟩ := Option.bind_eq_some_iff.mp h
  obtain ⟨a, ha, h⟩ := Option.bind_eq_some_iff.mp h
  obtain ⟨l, hl, h⟩ := Option.bind_eq_some_iff.mp h
  obtain ⟨p, hp, h⟩ := Option.bind_eq_some_iff.mp h
  obtain ⟨w, hw, h⟩ := Option.bind_eq_some_iff.mp h
  cases h
  exact ⟨hn, hl, ha, hp, hs, he, Value.intColumn_of_key (v := .int owner) (by simp) hw⟩

theorem store_eq (owner : Nat) (request : Request) : store owner request = storeBody owner request :=
  tryCatchException_eq (by decide) _ _

theorem update_eq (id : Value) (request : Request) :
    update id request = (do
      match ← restaurants.find id with
      | none => raise .modelNotFound
      | some (i, restaurant) => updateBody request i restaurant) := by
  unfold update
  refine congrArg _ (funext fun x => ?_)
  cases x with
  | none => rfl
  | some y => exact tryCatchException_eq (by decide) _ _

theorem store_result (owner : Nat) (request : Request) (db : Database) :
    ((store owner request).serve db).result =
      match failed db request.input (storeRules request) with
      | [] =>
          match restaurants.make (attributes owner request) with
          | none => (db, .error .query)
          | some restaurant =>
              ({ db with restaurants := db.restaurants.insert restaurant },
                .ok (json (.restaurant db.restaurants.next restaurant) 200))
      | errors => (db, .error (.validation errors)) := by
  rw [store_eq, Prog.serve]
  unfold storeBody
  rw [exec_validated]
  cases failed db request.input (storeRules request) with
  | cons e es => rfl
  | nil =>
      dsimp only
      rw [Model.exec_create_inside rfl]
      cases restaurants.make (attributes owner request) with
      | none => rfl
      | some restaurant => rfl

theorem update_result (id : Value) (request : Request) (db : Database) :
    ((update id request).serve db).result =
      match restaurants.lookup db id with
      | none => (db, .error .modelNotFound)
      | some (i, restaurant) =>
          match failed db request.input (updateRules request i) with
          | [] =>
              match restaurants.changes request restaurant with
              | none => (db, .error .query)
              | some f =>
                  ({ db with restaurants := db.restaurants.modify i f },
                    .ok (json (.restaurant i (f restaurant)) 200))
          | errors => (db, .error (.validation errors)) := by
  rw [update_eq, Prog.serve, Model.exec_find_idle]
  cases hl : restaurants.lookup db id with
  | none => rfl
  | some x =>
      obtain ⟨i, restaurant⟩ := x
      obtain ⟨-, hrow⟩ := Model.lookup_some.mp hl
      dsimp only
      unfold updateBody
      rw [exec_validated]
      cases failed db request.input (updateRules request i) with
      | cons e es => rfl
      | nil =>
          dsimp only
          unfold updateImage
          rw [Model.exec_updateImage rfl restaurants_nodup (by decide)]
          unfold Model.changes
          cases restaurants.imageChange request with
          | none => rfl
          | some f =>
              dsimp only
              rw [Model.exec_update_inside rfl]
              simp only [Option.bind_eq_bind, Option.bind_some]
              cases restaurants.dirty (request.except .image) (f restaurant)
                  restaurants.fillable with
              | none => rfl
              | some g =>
                  simp only [commit, Prog.commit_bind, Prog.ret_bind, Prog.exec_commit,
                    Conn.committed_inside, Model.applyAll_twice hrow]
                  rfl

/-- An update that finds its row, passes its rules and fits its columns is made. -/
theorem update_of_valid (L : Laravel) (env : Env) {db : Database} {id : Value} {request : Request}
    {i : Nat} {restaurant : Restaurant} {f : Restaurant → Restaurant}
    (hl : restaurants.lookup db id = some (i, restaurant))
    (hvalid : failed db request.input (updateRules request i) = [])
    (hf : restaurants.changes request restaurant = some f) :
    serve L db ⟨env, .restaurantUpdate id request⟩
      = { db with restaurants := db.restaurants.modify i f } := by
  have hresult := update_result id request db
  simp only [hl, hvalid, hf] at hresult
  exact congrArg Prod.fst hresult

theorem score_result (user : Nat) (request : Request) (db : Database) :
    ((score user request).serve db).result =
      match failed db request.input scoreRules with
      | [] =>
          match db.likes.first (ownLike user request) with
          | some (i, like) =>
              match likes.dirty (.only .send (request.get .send)) like likes.fillable with
              | none => (db, .error .query)
              | some f =>
                  ({ db with likes := db.likes.modify i f }, .ok (json (.like i (f like)) 200))
          | none =>
              match likes.make (likeAttributes user request) with
              | none => (db, .error .query)
              | some like =>
                  ({ db with likes := db.likes.insert like },
                    .ok (json (.like db.likes.next like) 200))
      | errors => (db, .error (.validation errors)) := by
  unfold score Prog.serve
  simp only [Request.validate, Model.whereGet, Model.whereFirst, Prog.select_bind, Prog.exec_select,
    Conn.view_idle, Conn.looked_idle]
  cases failed db request.input scoreRules with
  | cons e es => rfl
  | nil =>
      have hfirst : (likes.table.get db).first (ownLike user request)
          = db.likes.first (ownLike user request) := rfl
      have hcount : ((likes.table.get db).filter (ownLike user request)).length ≠ 0
          ↔ (db.likes.first (ownLike user request)).isSome = true := by
        rw [← hfirst, ← Table.filter_length_pos, Nat.pos_iff_ne_zero]
      simp only [Prog.ret_bind, Prog.exec_select, Conn.view_idle, Conn.looked_idle, hcount]
      cases hby : db.likes.first (ownLike user request) with
      | none =>
          simp only [Option.isSome_none, Bool.false_eq_true, if_false]
          refine (Model.result_create (likeAttributes user request) fun x =>
            json (.like x.1 x.2) 200).trans ?_
          cases likes.make (likeAttributes user request) <;> rfl
      | some x =>
          obtain ⟨i, like⟩ := x
          obtain ⟨hrow, -⟩ := Table.first_some hby
          simp only [Option.isSome_some, if_true, Prog.exec_select, Conn.view_idle,
            Conn.looked_idle, hfirst, hby]
          refine (Model.result_update hrow (.only .send (request.get .send)) fun r =>
            json (.like i r) 200).trans ?_
          cases likes.dirty (.only .send (request.get .send)) like likes.fillable <;> rfl

/-- The columns of a first like. -/
theorem like_of_make {user : Nat} {request : Request} {like : Like}
    (h : likes.make (likeAttributes user request) = some like) :
    like.userId = user ∧ (request.get .restaurantId).intColumn = some like.restaurantId ∧
      (request.get .send).intColumn = some like.send := by
  simp only [likes, Like.make, likeAttributes, Option.bind_eq_bind, Option.bind_eq_some_iff,
    Option.some.injEq] at h
  obtain ⟨n, hn, s, hs, r, hr, rfl⟩ := h
  exact ⟨Value.intColumn_of_key (by simp) hn, hr, hs⟩

/-- A later one changes what was sent and nothing else. -/
theorem like_of_dirty {v : Value} {like : Like} {f : Like → Like}
    (h : likes.dirty (.only .send v) like likes.fillable = some f) :
    ∃ n, v.intColumn = some n ∧ f like = { like with send := n } := by
  rw [Model.dirty_only (by decide) (by decide)] at h
  obtain ⟨g, hg, rfl⟩ := Option.map_eq_some_iff.mp h
  obtain ⟨n, hn, rfl⟩ := Option.map_eq_some_iff.mp hg
  refine ⟨n, hn, ?_⟩
  split
  · rename_i hsame
    exact hsame.symm
  · rfl

end RestaurantController

/-! ### SubscriptController and ReportController -/

namespace SubscriptController

theorem subscription_of_make {request : Request} {subscription : Subscription}
    (h : subscriptions.make (attributes request) = some subscription) :
    (request.get .userId).intColumn = some subscription.userId ∧
      (request.get .restaurantId).intColumn = some subscription.restaurantId := by
  simp only [subscriptions, Subscription.make, attributes, Option.bind_eq_bind,
    Option.bind_eq_some_iff, Option.some.injEq] at h
  obtain ⟨n, hn, r, hr, rfl⟩ := h
  exact ⟨hn, hr⟩

theorem store_result (request : Request) (db : Database) :
    ((store request).serve db).result =
      match failed db request.input rules with
      | [] =>
          match subscriptions.make (attributes request) with
          | none => (db, .error .query)
          | some subscription =>
              ({ db with subscriptions := db.subscriptions.insert subscription },
                .ok (json (.subscription db.subscriptions.next subscription) 200))
      | errors => (db, .error (.validation errors)) := by
  unfold store Prog.serve
  simp only [Request.validate, Prog.select_bind, Prog.exec_select, Conn.view_idle,
    Conn.looked_idle]
  cases failed db request.input rules with
  | cons e es => rfl
  | nil =>
      simp only [Prog.ret_bind]
      refine (Model.result_create (attributes request) fun x =>
        json (.subscription x.1 x.2) 200).trans ?_
      cases subscriptions.make (attributes request) <;> rfl

theorem cancel_result (id : Value) (db : Database) :
    ((cancel id).serve db).result =
      match subscriptions.lookup db id with
      | none => (db, .error .nullCall)
      | some (i, subscription) =>
          ({ db with subscriptions := db.subscriptions.erase i },
            .ok (json (.subscription i subscription) 200)) := by
  unfold cancel Prog.serve
  simp only [Model.find_eq, Prog.select_bind, Prog.ret_bind, Prog.exec_select, Conn.view_idle,
    Conn.looked_idle]
  cases subscriptions.lookup db id with
  | none => rfl
  | some x => rfl

end SubscriptController

namespace ReportController

theorem report_result (request : Request) (db : Database) :
    ((report request).serve db).result =
      match failed db request.input rules with
      | [] =>
          match failed db request.input
              (partyRules (intval (request.get .reporterIsUser))) with
          | [] =>
              match reports.make (attributes request) with
              | none => (db, .error .query)
              | some row =>
                  ({ db with reports := db.reports.insert row },
                    .ok (json (.report db.reports.next row) 200))
          | errors => (db, .error (.validation errors))
      | errors => (db, .error (.validation errors)) := by
  unfold report Prog.serve
  simp only [Request.validate, Prog.select_bind, Prog.exec_select, Conn.view_idle,
    Conn.looked_idle]
  cases failed db request.input rules with
  | cons e es => rfl
  | nil =>
      simp only [Prog.ret_bind, Prog.exec_select, Conn.view_idle, Conn.looked_idle]
      cases failed db request.input (partyRules (intval (request.get .reporterIsUser))) with
      | cons e es => rfl
      | nil =>
          simp only [Prog.ret_bind]
          refine (Model.result_create (attributes request) fun x =>
            json (.report x.1 x.2) 200).trans ?_
          cases reports.make (attributes request) <;> rfl

end ReportController

/-! ### Scores -/

/-- What a score leaves of `db` and answers. -/
inductive Rates (db : Database) (user : Nat) (request : Request) :
    Database × Except Exn Response → Prop
  | refused {a : Except Exn Response} (herror : isError a = true) : Rates db user request (db, a)
  | first {like : Like} (hvalid : failed db request.input RestaurantController.scoreRules = [])
      (hnone : db.likes.first (RestaurantController.ownLike user request) = none)
      (hm : likes.make (RestaurantController.likeAttributes user request) = some like) :
      Rates db user request ({ db with likes := db.likes.insert like },
        .ok (json (.like db.likes.next like) 200))
  | again {i : Nat} {like : Like} {f : Like → Like}
      (hvalid : failed db request.input RestaurantController.scoreRules = [])
      (hby : db.likes.first (RestaurantController.ownLike user request) = some (i, like))
      (hf : likes.dirty (.only .send (request.get .send)) like likes.fillable = some f) :
      Rates db user request ({ db with likes := db.likes.modify i f },
        .ok (json (.like i (f like)) 200))

theorem rates (L : Laravel) (db : Database) (env : Env) (user : Nat) (request : Request) :
    Rates db user request (serve L db ⟨env, .score user request⟩,
      answer L db ⟨env, .score user request⟩) := by
  show Rates db user request ((RestaurantController.score user request).serve db).result
  rw [RestaurantController.score_result]
  cases hvalid : failed db request.input RestaurantController.scoreRules with
  | cons e es => exact .refused rfl
  | nil =>
      dsimp only
      cases hby : db.likes.first (RestaurantController.ownLike user request) with
      | none =>
          dsimp only
          cases hm : likes.make (RestaurantController.likeAttributes user request) with
          | none => exact .refused rfl
          | some like => exact .first hvalid hby hm
      | some x =>
          obtain ⟨i, like⟩ := x
          dsimp only
          cases hf : likes.dirty (.only .send (request.get .send)) like likes.fillable with
          | none => exact .refused rfl
          | some f => exact .again hvalid hby hf

/-! ### Moves -/

/-- The calls that write neither stock nor users. -/
def Call.isEdit : Call → Bool
  | ownerStore _ => true
  | ownerLogin _ => true
  | restaurantStore _ _ => true
  | restaurantUpdate _ _ => true
  | score _ _ => true
  | subscriptStore _ => true
  | subscriptCancel _ => true
  | report _ => true
  | _ => false

/-- The calls of `RestaurantController` that write restaurants. -/
def Call.isRestaurant : Call → Bool
  | restaurantStore _ _ => true
  | restaurantUpdate _ _ => true
  | _ => false

theorem Call.isEdit_of_isRestaurant {call : Call} (h : call.isRestaurant = true) :
    call.isEdit = true := by
  cases call <;> first | rfl | cases h

/-- The database such a request leaves. -/
inductive Edits (db : Database) : Call → Database → Prop
  | still {call : Call} : Edits db call db
  | ownerRegistered {request : Request} {owner : Owner} :
      Edits db (.ownerStore request) { db with owners := db.owners.insert owner }
  | ownerLoggedIn {request : Request} {i : Nat} {owner : Owner} {f : Owner → Owner}
      (hby : OwnerController.byAccount db (request.get .account) = some (i, owner)) :
      Edits db (.ownerLogin request) { db with owners := db.owners.modify i f }
  | opened {owner : Nat} {request : Request} {restaurant : Restaurant}
      (hvalid : failed db request.input (RestaurantController.storeRules request) = [])
      (hm : restaurants.make (RestaurantController.attributes owner request) = some restaurant) :
      Edits db (.restaurantStore owner request)
        { db with restaurants := db.restaurants.insert restaurant }
  | remodelled {id : Value} {request : Request} {i : Nat} {restaurant : Restaurant}
      {f : Restaurant → Restaurant} (hl : restaurants.lookup db id = some (i, restaurant))
      (hvalid : failed db request.input (RestaurantController.updateRules request i) = [])
      (hf : restaurants.changes request restaurant = some f) :
      Edits db (.restaurantUpdate id request)
        { db with restaurants := db.restaurants.modify i f }
  | liked {user : Nat} {request : Request} {like : Like}
      (hvalid : failed db request.input RestaurantController.scoreRules = [])
      (hnone : db.likes.first (RestaurantController.ownLike user request) = none)
      (hm : likes.make (RestaurantController.likeAttributes user request) = some like) :
      Edits db (.score user request) { db with likes := db.likes.insert like }
  | scored {user : Nat} {request : Request} {i : Nat} {like : Like} {f : Like → Like}
      (hvalid : failed db request.input RestaurantController.scoreRules = [])
      (hby : db.likes.first (RestaurantController.ownLike user request) = some (i, like))
      (hf : likes.dirty (.only .send (request.get .send)) like likes.fillable = some f) :
      Edits db (.score user request) { db with likes := db.likes.modify i f }
  | subscribed {request : Request} {subscription : Subscription}
      (hvalid : failed db request.input SubscriptController.rules = [])
      (hm : subscriptions.make (SubscriptController.attributes request) = some subscription) :
      Edits db (.subscriptStore request)
        { db with subscriptions := db.subscriptions.insert subscription }
  | unsubscribed {id : Value} {i : Nat} {subscription : Subscription}
      (hl : subscriptions.lookup db id = some (i, subscription)) :
      Edits db (.subscriptCancel id)
        { db with subscriptions := db.subscriptions.erase i }
  | reported {request : Request} {row : Report}
      (hvalid : failed db request.input ReportController.rules = [])
      (hparty : failed db request.input (ReportController.partyRules
        (ReportController.intval (request.get .reporterIsUser))) = [])
      (hm : reports.make (ReportController.attributes request) = some row) :
      Edits db (.report request) { db with reports := db.reports.insert row }

namespace Edits

variable {db : Database}

theorem ofOwnerStore (L : Laravel) (env : Env) (request : Request) :
    Edits db (.ownerStore request)
      ((OwnerController.store L env request).serve db).result.1 := by
  rw [OwnerController.store_result]
  cases failed db request.input OwnerController.storeRules with
  | cons e es => exact .still
  | nil =>
      dsimp only
      cases owners.make (OwnerController.attributes L env request) with
      | none => exact .still
      | some owner =>
          dsimp only
          split
          · exact .still
          · exact .ownerRegistered

theorem ofOwnerLogin (L : Laravel) (env : Env) (request : Request) :
    Edits db (.ownerLogin request)
      ((OwnerController.login L env request).serve db).result.1 := by
  rw [OwnerController.login_result]
  cases hby : OwnerController.byAccount db (request.get .account) with
  | none => exact .still
  | some x =>
      dsimp only
      split
      · exact .ownerLoggedIn hby
      · exact .still

theorem ofStore (owner : Nat) (request : Request) : Edits db (.restaurantStore owner request)
    ((RestaurantController.store owner request).serve db).result.1 := by
  rw [RestaurantController.store_result]
  cases hvalid : failed db request.input (RestaurantController.storeRules request) with
  | cons e es => exact .still
  | nil =>
      dsimp only
      cases hm : restaurants.make (RestaurantController.attributes owner request) with
      | none => exact .still
      | some restaurant => exact .opened hvalid hm

theorem ofUpdate (id : Value) (request : Request) : Edits db (.restaurantUpdate id request)
    ((RestaurantController.update id request).serve db).result.1 := by
  rw [RestaurantController.update_result]
  cases hl : restaurants.lookup db id with
  | none => exact .still
  | some x =>
      obtain ⟨i, restaurant⟩ := x
      dsimp only
      cases hvalid : failed db request.input (RestaurantController.updateRules request i) with
      | cons e es => exact .still
      | nil =>
          dsimp only
          cases hf : restaurants.changes request restaurant with
          | none => exact .still
          | some f => exact .remodelled hl hvalid hf

theorem ofScore (L : Laravel) (env : Env) (user : Nat) (request : Request) :
    Edits db (.score user request) (serve L db ⟨env, .score user request⟩) := by
  have hrates := rates L db env user request
  generalize serve L db ⟨env, .score user request⟩ = db' at hrates ⊢
  generalize answer L db ⟨env, .score user request⟩ = a at hrates
  cases hrates with
  | refused herror => exact .still
  | first hvalid hnone hm => exact .liked hvalid hnone hm
  | again hvalid hby hf => exact .scored hvalid hby hf

theorem ofSubscribe (request : Request) : Edits db (.subscriptStore request)
    ((SubscriptController.store request).serve db).result.1 := by
  rw [SubscriptController.store_result]
  cases hvalid : failed db request.input SubscriptController.rules with
  | cons e es => exact .still
  | nil =>
      dsimp only
      cases hm : subscriptions.make (SubscriptController.attributes request) with
      | none => exact .still
      | some subscription => exact .subscribed hvalid hm

theorem ofUnsubscribe (id : Value) : Edits db (.subscriptCancel id)
    ((SubscriptController.cancel id).serve db).result.1 := by
  rw [SubscriptController.cancel_result]
  cases hl : subscriptions.lookup db id with
  | none => exact .still
  | some x => exact .unsubscribed hl

theorem ofReport (request : Request) : Edits db (.report request)
    ((ReportController.report request).serve db).result.1 := by
  rw [ReportController.report_result]
  cases hvalid : failed db request.input ReportController.rules with
  | cons e es => exact .still
  | nil =>
      dsimp only
      cases hparty : failed db request.input (ReportController.partyRules
          (ReportController.intval (request.get .reporterIsUser))) with
      | cons e es => exact .still
      | nil =>
          dsimp only
          cases hm : reports.make (ReportController.attributes request) with
          | none => exact .still
          | some row => exact .reported hvalid hparty hm

end Edits

/-- **Every request of the group makes one of these edits.** -/
theorem edits (L : Laravel) (db : Database) (step : Step) (h : step.call.isEdit = true) :
    Edits db step.call (serve L db step) := by
  obtain ⟨env, call⟩ := step
  cases call with
  | ownerStore request => exact Edits.ofOwnerStore L env request
  | ownerLogin request => exact Edits.ofOwnerLogin L env request
  | restaurantStore owner request => exact Edits.ofStore owner request
  | restaurantUpdate id request => exact Edits.ofUpdate id request
  | score user request => exact Edits.ofScore L env user request
  | subscriptStore request => exact Edits.ofSubscribe request
  | subscriptCancel id => exact Edits.ofUnsubscribe id
  | report request => exact Edits.ofReport request
  | _ => cases h

/-- The other requests write neither users nor stock, nor the list of the banned. -/
theorem edit_frame {L : Laravel} {db : Database} {step : Step} (h : step.call.isEdit = true) :
    serve L db step = { serve L db step with
      users := db.users, foods := db.foods, orders := db.orders,
      deprivateLists := db.deprivateLists } := by
  have hedits := edits L db step h
  generalize serve L db step = db' at hedits ⊢
  generalize step.call = call at hedits
  cases hedits <;> rfl

end Spoiler
