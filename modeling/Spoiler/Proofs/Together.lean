/-
The handlers keep the contract.

Each handler is judged on its own.  The rules for the Eloquent calls say what the program
knows after them; between two statements others may have written anything the contract lets
them, so what a handler read is a lower bound of what is there and no more.
-/
import Spoiler.Proofs.Lasting

namespace Spoiler

open Store Php

/-- What a handler knows. -/
abbrev Knows := Known Database (Kind × Nat)

/-- The exceptions of code that takes null for an object. -/
def Exn.isNull : Exn → Bool
  | .nullProperty => true
  | .nullCall => true
  | _ => false

/-- Any exception but those, unless `nulls` holds. -/
def within (nulls : Prop) (e : Exn) : Prop := e.isNull = true → nulls

theorem within_of {nulls : Prop} {e : Exn} (h : e.isNull = false) : within nulls e := by
  intro hnull
  rw [h] at hnull
  cases hnull

/-! ### The calls -/

section Calls

variable {A ρ : Type} {H : Holds} {tells : Knows → Event → Prop} {nulls : Prop} {g : Knows}
  {M : Model ρ}

theorem wp_find {v : Value} {post : Knows → Option (Nat × ρ) → Prop}
    (h : ∀ u, g.view.Lasts H u → Referential u → post (g.next [] u) (M.lookup u v)) :
    (M.find v).wp (contract H) tells (within nulls) post g :=
  h

theorem wp_whereGet {p : Nat → ρ → Bool} {post : Knows → List (Nat × ρ) → Prop}
    (h : ∀ u, g.view.Lasts H u → Referential u → post (g.next [] u) ((M.table.get u).filter p)) :
    (M.whereGet p).wp (contract H) tells (within nulls) post g :=
  h

theorem wp_whereFirst {p : Nat → ρ → Bool} {post : Knows → Option (Nat × ρ) → Prop}
    (h : ∀ u, g.view.Lasts H u → Referential u → post (g.next [] u) ((M.table.get u).first p)) :
    (M.whereFirst p).wp (contract H) tells (within nulls) post g :=
  h

theorem wp_validate {request : Request} {fields : List (Attr × List Rule)}
    {post : Knows → Unit → Prop}
    (h : ∀ u, g.view.Lasts H u → Referential u → failed u request.input fields = [] →
      post (g.next [] u) ()) :
    (request.validate fields).wp (contract H) tells (within nulls) post g := by
  intro u hle hinv
  dsimp only
  cases hvalid : failed u request.input fields with
  | nil => exact h u hle hinv hvalid
  | cons e es => exact within_of rfl

theorem wp_beginTransaction {v : Database} {post : Knows → Unit → Prop}
    (h : post (.inside v v []) ()) :
    beginTransaction.wp (contract H) tells (within nulls) post (.outside v) :=
  h

theorem wp_commit {s v : Database} {keys : List (Kind × Nat)} {post : Knows → Unit → Prop}
    (h : post (.outside v) ()) :
    commit.wp (contract H) tells (within nulls) post (.inside s v keys) :=
  h

theorem next_next (new : List (Kind × Nat)) (u u' : Database) :
    (g.next [] u).next new u' = g.next new u' := by
  cases g <;> rfl

/-- A row may be inserted by a program that knows `v`. -/
structure Takes (H : Holds) (kind : Kind) (M : Model ρ) (v : Database) (r : ρ) : Prop where
  reserves : (contract H).Reserves (fun db => ((M.table.get db).reserve.1,
    M.table.set db (M.table.get db).reserve.2)) fun i => (kind, i)
  permits : ∀ i, (contract H).Permits v [(kind, i)]
    fun db => M.table.set db ((M.table.get db).put i r)

theorem wp_create {kind : Kind} {attributes : Attr → Value} {post : Knows → Nat × ρ → Prop}
    (h : ∀ r, M.make attributes = some r → ∀ u, g.view.Lasts H u → Takes H kind M u r ∧
      ∀ i, post (g.next [(kind, i)] (M.table.set u ((M.table.get u).put i r))) (i, r)) :
    (M.create attributes).wp (contract H) tells (within nulls) post g := by
  unfold Model.create
  cases hm : M.make attributes with
  | none => exact within_of rfl
  | some r =>
      have hinsert : ∀ u, g.view.Lasts H u → (M.table.insert r >>= fun i => pure (i, r) :
          Action (Nat × ρ)).wp (contract H) tells (within nulls) post (g.next [] u) := by
        intro u hle
        obtain ⟨htakes, hpost⟩ := h r hm u hle
        refine ⟨_, htakes.reserves, fun i => ?_⟩
        rw [Known.view_next, next_next]
        exact ⟨htakes.permits i, hpost i⟩
      cases M.unique with
      | none =>
          have hself := hinsert g.view (.refl _)
          rwa [show g.next [] g.view = g by cases g <;> rfl] at hself
      | some column =>
          intro u hle _
          by_cases htaken : M.taken u (M.table.get u).next r = true
          · simp only [htaken, if_true]
            exact within_of rfl
          · simp only [htaken]
            exact hinsert u hle

theorem wp_update [DecidableEq ρ] {i : Nat} {row : ρ} {attributes : Attributes}
    {post : Knows → ρ → Prop}
    (h : ∀ f, M.dirty attributes row M.fillable = some f → (f row = row → post g (f row)) ∧
      ∀ u, g.view.Lasts H u →
        (contract H).Permits u [] (fun db => M.table.set db ((M.table.get db).modify i f)) ∧
          post (g.next [] (M.table.set u ((M.table.get u).modify i f))) (f row)) :
    (M.update i row attributes).wp (contract H) tells (within nulls) post g := by
  unfold Model.update
  cases hf : M.dirty attributes row M.fillable with
  | none => exact within_of rfl
  | some f =>
      obtain ⟨hsame, hchange⟩ := h f hf
      dsimp only
      by_cases hclean : f row = row
      · rw [if_pos hclean]
        have hpost := hsame hclean
        rwa [hclean] at hpost
      · rw [if_neg hclean]
        have hwrite : ∀ u, g.view.Lasts H u → (M.table.change i f >>= fun _ => pure (f row) :
            Action ρ).wp (contract H) tells (within nulls) post (g.next [] u) := by
          intro u hle
          obtain ⟨hpermits, hpost⟩ := hchange u hle
          refine ⟨?_, ?_⟩
          · rw [Known.view_next]
            exact hpermits
          · rw [Known.view_next, next_next]
            exact hpost
        cases M.unique with
        | none =>
            have hself := hwrite g.view (.refl _)
            rwa [show g.next [] g.view = g by cases g <;> rfl] at hself
        | some column =>
            intro u hle _
            by_cases hclash : M.clash u i row (f row) = true
            · simp only [hclash, if_true]
              exact within_of rfl
            · simp only [hclash]
              exact hwrite u hle

/-- An update of a row that is there. -/
theorem wp_update_rows [DecidableEq ρ] {kind : Kind} {Q : Nat → ρ → ρ → Prop} {i : Nat} {row : ρ}
    {attributes : Attributes} {post : Knows → ρ → Prop} (hT : kind.Rows H M.table Q)
    (hrow : ∃ q, (M.table.get g.view).row i = some q ∧ Q i row q)
    (hf : ∀ f, M.dirty attributes row M.fillable = some f →
      (∀ r, Q i r (f r)) ∧ ∀ r q, Q i r q → Q i (f r) (f q))
    (hQ : ∀ {i a b c}, Q i a b → Q i b c → Q i a c)
    (hinv : ∀ f, M.dirty attributes row M.fillable = some f → ∀ db, g.view.Lasts H db →
      db.Lasts H (M.table.set db ((M.table.get db).modify i f)) → Referential db →
        Referential (M.table.set db ((M.table.get db).modify i f)))
    (hpost : ∀ f, M.dirty attributes row M.fillable = some f → ∀ u, g.view.Lasts H u →
      (∃ q, (M.table.get u).row i = some q ∧ Q i (f row) q) → post (g.next [] u) (f row)) :
    (M.update i row attributes).wp (contract H) tells (within nulls) post g := by
  refine wp_update fun f hdirty => ?_
  obtain ⟨hone, hboth⟩ := hf f hdirty
  refine ⟨fun hclean => ?_, fun u hle => ⟨?_, ?_⟩⟩
  · have hself := hpost f hdirty g.view (.refl _) (by rw [hclean]; exact hrow)
    rwa [show g.next [] g.view = g by cases g <;> rfl] at hself
  · exact permits_modify hT hone hboth fun db hdb => hinv f hdirty db (hle.trans hdb)
  · obtain ⟨q, hq, hrowq⟩ := hrow
    obtain ⟨p, hp, hqp⟩ := (hT.evolves hle).row i q hq
    have hlasts := hT.lasts_set (.modify hT.refl i hone (M.table.get u))
    refine hpost f hdirty _ (hle.trans hlasts) ⟨f p, ?_, hboth _ _ (hQ hrowq hqp)⟩
    rw [M.table.get_set, Table.modify_row, if_pos rfl, hp]
    rfl

theorem wp_dispatch {env : Env} {restaurant : Option (Nat × Restaurant)} {ev : Nat → Event}
    {post : Knows → Unit → Prop} (hsome : restaurant ≠ none)
    (htells : ∀ i r, restaurant = some (i, r) → tells g (ev i)) (hpost : post g ()) :
    (dispatch env restaurant ev).wp (contract H) tells (within nulls) post g := by
  unfold dispatch
  cases restaurant with
  | none => exact absurd rfl hsome
  | some x =>
      obtain ⟨i, r⟩ := x
      dsimp only
      split
      · exact ⟨htells i r rfl, hpost⟩
      · exact within_of rfl

/-- A row that has been counted is found later. -/
theorem lookup_of_counted {db later : Database} {v : Value}
    (h : 0 < ((M.table.get db).filter (Model.hasKey v)).length)
    (hgrows : (M.table.get db).Grows (M.table.get later)) : M.lookup later v ≠ none := by
  obtain ⟨⟨i, r⟩, hl⟩ := Option.isSome_iff_exists.mp (length_hasKey.mp h)
  obtain ⟨hkey, hrow⟩ := Model.lookup_some.mp hl
  obtain ⟨q, hq⟩ := Option.isSome_iff_exists.mp (hgrows i (Option.isSome_of_eq_some hrow))
  rw [Model.lookup_some.mpr ⟨hkey, hq⟩]
  exact Option.some_ne_none _

/-- What a stored id names is found later. -/
theorem Names.lookup_ne {db later : Database} {n : Int} (h : Names (M.table.get db) n)
    (hgrows : (M.table.get db).Grows (M.table.get later)) : M.lookup later (.int n) ≠ none := by
  obtain ⟨i, r, hl⟩ := (h.grows hgrows).lookup
  rw [hl]
  exact Option.some_ne_none _

end Calls

/-! ### Answers -/

/-- What an answer reports is in the database, as far as it lasts. -/
def Payload.Stands (H : Holds) (db : Database) : Payload → Prop
  | .user i _ => (db.users.row i).isSome = true
  | .owner i row => ∃ later, db.owners.row i = some later ∧ row.Lasts later
  | .restaurant i _ => (db.restaurants.row i).isSome = true
  | .food i row => ∃ later, db.foods.row i = some later ∧ H.rel i row later
  | .order i row => ∃ later, db.orders.row i = some later ∧ row.Lasts later
  | .like i row => ∃ later, db.likes.row i = some later ∧ row.Lasts later
  | .report i row => db.reports.row i = some row
  | _ => True

theorem Payload.Stands.lasts {H : Holds} {db later : Database} {body : Payload}
    (h : body.Stands H db) (hle : db.Lasts H later) : body.Stands H later := by
  cases body with
  | user i user => exact hle.users.grows i h
  | restaurant i restaurant => exact hle.restaurants.grows i h
  | food i food =>
      obtain ⟨food', hrow, hlasts⟩ := h
      obtain ⟨food'', hrow', hlasts'⟩ := hle.foods.row i food' hrow
      exact ⟨food'', hrow', H.trans hlasts hlasts'⟩
  | owner i owner =>
      obtain ⟨owner', hrow, hlasts⟩ := h
      obtain ⟨owner'', hrow', hlasts'⟩ := hle.owners.row i owner' hrow
      exact ⟨owner'', hrow', hlasts.trans hlasts'⟩
  | order i order =>
      obtain ⟨order', hrow, hlasts⟩ := h
      obtain ⟨order'', hrow', hlasts'⟩ := hle.orders.row i order' hrow
      exact ⟨order'', hrow', hlasts.trans hlasts'⟩
  | like i like =>
      obtain ⟨like', hrow, hlasts⟩ := h
      obtain ⟨like'', hrow', hlasts'⟩ := hle.likes.row i like' hrow
      exact ⟨like'', hrow', hlasts.trans hlasts'⟩
  | report i report =>
      obtain ⟨report', hrow, rfl⟩ := hle.reports.row i report h
      exact hrow
  | _ => trivial

/-- What a handler answers with stands in the shared state. -/
def acknowledges (H : Holds) (g : Knows) (response : Response) : Prop :=
  response.body.Stands H g.shared

/-! ### Accounts -/

section Accounts

variable {H : Holds} {tells : Knows → Event → Prop} {nulls : Prop} {L : Laravel} {env : Env}
  {request : Request}
  {v : Database}

theorem UserController.store_wp :
    (UserController.store L env request).wp (contract H) tells (within nulls)
      (acknowledges H) (.outside v) := by
  unfold UserController.store
  refine Prog.wp_bind (wp_validate fun u _ _ _ => Prog.wp_bind (wp_create fun user _ u' _ =>
    ⟨⟨reserves users_rows, fun i => permits_user user⟩, fun i => ?_⟩))
  show ((u'.users.put i user).row i).isSome = true
  simp

/-- Any update of a user. -/
theorem wp_user_update {g : Knows} {i : Nat} {user : User} {attributes : Attributes}
    {post : Knows → User → Prop} (hrow : g.view.users.row i = some user)
    (hpost : ∀ u row, g.view.Lasts H u → (u.users.row i).isSome = true → post (g.next [] u) row) :
    (users.update i user attributes).wp (contract H) tells (within nulls) post g := by
  refine wp_update_rows users_rows ⟨user, hrow, trivial⟩ (fun _ _ => ⟨fun _ => trivial,
    fun _ _ _ => trivial⟩) (fun _ _ => trivial) (fun f _ db _ hlasts h => ?_)
    fun f _ u hle hq => ?_
  · exact .of_grows hlasts.grows h.foods h.orders h.likes h.subscriptions h.reports
  · obtain ⟨q, hq, -⟩ := hq
    exact hpost u _ hle (Option.isSome_of_eq_some hq)

/-- Between the two reads of a login another request may change the account. -/
theorem UserController.login_wp (hnulls : nulls) :
    (UserController.login L env request).wp (contract H) tells (within nulls) (acknowledges H)
      (.outside v) := by
  unfold UserController.login
  refine Prog.wp_bind (wp_whereGet fun u _ _ => ?_)
  split
  · refine Prog.wp_bind (wp_whereFirst fun u' _ _ => ?_)
    split
    · exact fun _ => hnulls
    · rename_i i user hfirst
      split
      · exact Prog.wp_bind (wp_user_update (Table.first_some hfirst).1 fun _ _ _ h => h)
      · trivial
  · trivial

theorem UserController.update_wp {id : Value} :
    (UserController.update L id request).wp (contract H) tells (within nulls)
      (acknowledges H) (.outside v) := by
  unfold UserController.update
  refine Prog.wp_bind (wp_whereGet fun u _ _ => ?_)
  split
  · rename_i hcount
    refine Prog.wp_bind (wp_validate fun u' hu' _ _ => Prog.wp_bind (wp_find fun u'' hu'' _ => ?_))
    split
    · rename_i hl
      exact absurd hl (lookup_of_counted hcount (hu'.trans hu'').grows.users)
    · rename_i i user hl
      exact Prog.wp_bind (wp_user_update (Model.lookup_some.mp hl).2 fun _ _ _ h => h)
  · trivial

theorem UserController.logout_wp {id : Value} :
    (UserController.logout id).wp (contract H) tells (within nulls)
      (acknowledges H) (.outside v) := by
  unfold UserController.logout
  refine Prog.wp_bind (wp_whereGet fun u _ _ => ?_)
  split
  · rename_i hcount
    refine Prog.wp_bind (wp_find fun u' hu' _ => ?_)
    split
    · rename_i hl
      exact absurd hl (lookup_of_counted hcount hu'.grows.users)
    · rename_i i user hl
      exact Prog.wp_bind (wp_user_update (Model.lookup_some.mp hl).2 fun _ _ _ h => h)
  · trivial

theorem FBController.login_wp {resource : FBController.GraphUser} (hnulls : nulls) :
    (FBController.login env resource).wp (contract H) tells (within nulls)
      (acknowledges H) (.outside v) := by
  unfold FBController.login
  refine Prog.wp_bind (wp_whereGet fun u _ _ => ?_)
  split
  · refine Prog.wp_bind (wp_create fun user _ u' _ =>
      ⟨⟨reserves users_rows, fun i => permits_user user⟩, fun i => ?_⟩)
    show ((u'.users.put i user).row i).isSome = true
    simp
  · refine Prog.wp_bind (wp_whereFirst fun u' _ _ => ?_)
    split
    · exact fun _ => hnulls
    · rename_i i user hfirst
      exact Prog.wp_bind (wp_user_update (Table.first_some hfirst).1 fun _ _ _ h => h)

theorem OwnerController.store_wp :
    (OwnerController.store L env request).wp (contract H) tells (within nulls)
      (acknowledges H) (.outside v) := by
  unfold OwnerController.store
  refine Prog.wp_bind (wp_validate fun u _ _ _ => Prog.wp_bind (wp_create fun owner _ u' _ =>
    ⟨⟨reserves owners_rows, fun i => permits_owner owner⟩, fun i => ?_⟩))
  exact ⟨owner, by simp [Known.shared, Known.next, owners], .refl owner⟩

/-- A login writes the token of an owner and nothing else. -/
theorem OwnerController.dirty_lasts {owner : Owner} {f : Owner → Owner}
    (hf : owners.dirty (.only .apiToken (.str env.random)) owner owners.fillable = some f) :
    (∀ r : Owner, r.Lasts (f r)) ∧ ∀ r q : Owner, r.Lasts q → (f r).Lasts (f q) := by
  have hassign := assign_ownerToken (textColumn_random env)
  rcases Model.dirty_only_cases owners_nodup (by decide) hassign hf with rfl | rfl
  · exact ⟨Owner.Lasts.refl, fun _ _ h => h⟩
  · exact ⟨fun _ => ⟨rfl, rfl, rfl, rfl⟩, fun _ _ h => ⟨h.name, h.account, h.password, h.phone⟩⟩

theorem OwnerController.login_wp :
    (OwnerController.login L env request).wp (contract H) tells (within nulls)
      (acknowledges H) (.outside v) := by
  unfold OwnerController.login
  refine Prog.wp_bind (wp_whereGet fun u _ _ => ?_)
  split
  · rename_i hcount
    refine Prog.wp_bind (wp_whereFirst fun u' hu' _ => ?_)
    split
    · rename_i hfirst
      refine absurd hfirst (Table.Evolves.first hu'.owners hcount fun i r q hrq hr => ?_)
      rwa [hrq.account]
    · rename_i i owner hfirst
      split
      · refine Prog.wp_bind (wp_update_rows owners_rows
          ⟨owner, (Table.first_some hfirst).1, .refl owner⟩ (fun f hf => dirty_lasts hf)
          Owner.Lasts.trans (fun f _ db _ hlasts h => ?_) fun _ _ _ _ h => h)
        exact .of_grows hlasts.grows h.foods h.orders h.likes h.subscriptions h.reports
      · trivial
  · trivial

end Accounts

/-! ### Restaurants, likes, subscriptions, reports -/

section Places

variable {H : Holds} {tells : Knows → Event → Prop} {nulls : Prop} {request : Request}
  {v : Database}

theorem RestaurantController.store_wp {owner : Nat} :
    (RestaurantController.store owner request).wp (contract H) tells (within nulls)
      (acknowledges H) (.outside v) := by
  unfold RestaurantController.store
  rw [tryCatchException_eq (by decide)]
  unfold RestaurantController.storeBody
  refine Prog.wp_bind (wp_beginTransaction (Prog.wp_bind (wp_validate fun u _ _ _ =>
    Prog.wp_bind (wp_create fun restaurant _ u' _ =>
      ⟨⟨reserves restaurants_rows, fun i => permits_restaurant restaurant⟩, fun i => ?_⟩))))
  show ((u'.restaurants.put i restaurant).row i).isSome = true
  simp

/-- Any update of a restaurant. -/
theorem wp_restaurant_update {g : Knows} {i : Nat} {restaurant : Restaurant}
    {attributes : Attributes} {post : Knows → Restaurant → Prop}
    (hrow : (g.view.restaurants.row i).isSome = true)
    (hpost : ∀ u row, g.view.Lasts H u → (u.restaurants.row i).isSome = true →
      post (g.next [] u) row) :
    (restaurants.update i restaurant attributes).wp (contract H) tells (within nulls) post g := by
  obtain ⟨q, hq⟩ := Option.isSome_iff_exists.mp hrow
  refine wp_update_rows restaurants_rows ⟨q, hq, trivial⟩ (fun _ _ => ⟨fun _ => trivial,
    fun _ _ _ => trivial⟩) (fun _ _ => trivial) (fun f _ db _ hlasts h => ?_)
    fun f _ u hle hq => ?_
  · exact .of_grows hlasts.grows h.foods h.orders h.likes h.subscriptions h.reports
  · obtain ⟨q, hq, -⟩ := hq
    exact hpost u _ hle (Option.isSome_of_eq_some hq)

theorem RestaurantController.update_wp {id : Value} :
    (RestaurantController.update id request).wp (contract H) tells (within nulls)
      (acknowledges H) (.outside v) := by
  unfold RestaurantController.update
  refine Prog.wp_bind (wp_find fun u _ _ => ?_)
  split
  · exact within_of rfl
  · rename_i i restaurant hl
    have hrow : (u.restaurants.row i).isSome = true :=
      Option.isSome_of_eq_some (Model.lookup_some.mp hl).2
    rw [tryCatchException_eq (by decide)]
    unfold RestaurantController.updateBody
    refine Prog.wp_bind (wp_beginTransaction (Prog.wp_bind (wp_validate fun u' hle _ _ =>
      Prog.wp_bind ?_)))
    have hrow' := hle.restaurants.grows i hrow
    -- the rest of the transaction, once the image is stored
    have hrest : ∀ w row, u'.Lasts H w → (w.restaurants.row i).isSome = true →
        (restaurants.update i row (request.except .image) >>= fun restaurant =>
          (commit >>= fun _ => pure (json (.restaurant i restaurant) 200) :
            Handler)).wp (contract H) tells (within nulls) (acknowledges H) (.inside u w []) :=
            fun w row _ hw =>
      Prog.wp_bind (wp_restaurant_update hw fun _ _ _ h => h)
    unfold RestaurantController.updateImage Model.updateImage
    split
    · exact wp_restaurant_update hrow' fun w row hw h => hrest w row hw h
    · exact hrest u' restaurant (.refl _) hrow'

theorem RestaurantController.dirty_lasts {value : Value} {like : Like} {f : Like → Like}
    (hf : likes.dirty (.only .send value) like likes.fillable = some f) :
    (∀ r : Like, r.Lasts (f r)) ∧ ∀ r q : Like, r.Lasts q → (f r).Lasts (f q) := by
  rw [Model.dirty_only (by decide) (by decide)] at hf
  obtain ⟨g, hg, rfl⟩ := Option.map_eq_some_iff.mp hf
  obtain ⟨n, -, rfl⟩ := Option.map_eq_some_iff.mp hg
  split
  · exact ⟨.refl, fun _ _ h => h⟩
  · exact ⟨fun _ => ⟨rfl, rfl⟩, fun _ _ h => ⟨h.userId, h.restaurantId⟩⟩

theorem RestaurantController.score_wp {user : Nat} (huser : Names v.users user) :
    (RestaurantController.score user request).wp (contract H) tells (within nulls)
      (acknowledges H) (.outside v) := by
  unfold RestaurantController.score
  refine Prog.wp_bind (wp_validate fun u hu _ hvalid =>
    Prog.wp_bind (wp_whereGet fun u' hu' _ => ?_))
  split
  · rename_i hcount
    refine Prog.wp_bind (wp_whereFirst fun w hw _ => ?_)
    split
    · rename_i hfirst
      refine absurd hfirst (Table.Evolves.first hw.likes (Nat.pos_of_ne_zero hcount)
        fun i r q hrq hr => ?_)
      unfold ownLike
      rwa [hrq.userId, hrq.restaurantId]
    · rename_i i like hfirst
      have hrow := (Table.first_some hfirst).1
      refine Prog.wp_bind (wp_update_rows likes_rows ⟨like, hrow, .refl like⟩
        (fun f hf => dirty_lasts hf) Like.Lasts.trans (fun f hf db _ hlasts h => ?_)
        fun _ _ _ _ h => h)
      have hlikes := h.likes.modify (f := f) (fun r hr => ?_) i
      · exact .of_grows hlasts.grows h.foods h.orders hlikes h.subscriptions h.reports
      · have hsame := (dirty_lasts hf).1 r
        unfold Like.Refers
        rw [hsame.userId, hsame.restaurantId]
        exact hr
  · refine Prog.wp_bind (wp_create fun like hm w hw =>
      ⟨⟨reserves likes_rows, fun i => permits_like ?_⟩, fun i => ?_⟩)
    · exact (liked_refers hvalid hm (huser.grows hu.grows.users)).lasts (hu'.trans hw)
    · exact ⟨like, by simp [Known.shared, Known.next, likes], .refl like⟩

theorem SubscriptController.store_wp :
    (SubscriptController.store request).wp (contract H) tells (within nulls)
      (acknowledges H) (.outside v) := by
  unfold SubscriptController.store
  refine Prog.wp_bind (wp_validate fun u _ _ hvalid => Prog.wp_bind (wp_create
    fun subscription hm w hw => ⟨⟨reserves_subscription, fun i => permits_subscription ?_⟩,
      fun i => trivial⟩))
  exact (subscribed_refers hvalid hm).lasts hw

/-- A subscription that is not there, or not any more, is null. -/
theorem SubscriptController.cancel_wp {id : Value} (hnulls : nulls) :
    (SubscriptController.cancel id).wp (contract H) tells (within nulls)
      (acknowledges H) (.outside v) := by
  unfold SubscriptController.cancel
  refine Prog.wp_bind (wp_find fun u _ _ => ?_)
  split
  · exact fun _ => hnulls
  · exact ⟨permits_unsubscribe, trivial⟩

theorem ReportController.report_wp :
    (ReportController.report request).wp (contract H) tells (within nulls)
      (acknowledges H) (.outside v) := by
  unfold ReportController.report
  refine Prog.wp_bind (wp_validate fun u _ _ _ => Prog.wp_bind (wp_validate fun u' _ _ hparty =>
    Prog.wp_bind (wp_create fun report hm w hw =>
      ⟨⟨reserves reports_rows, fun i => permits_report ?_⟩, fun i => ?_⟩)))
  · exact (reported_refers hparty hm).lasts hw
  · show (w.reports.put i report).row i = some report
    simp

end Places

/-! ### Updates of a food -/

/-- An update with these attributes changes nothing of what is to last of food `i`. -/
def Holds.Allows (H : Holds) (i : Nat) (attributes : Attributes) : Prop :=
  ∀ row f, foods.dirty attributes row foods.fillable = some f →
    (∀ r, H.rel i r (f r)) ∧ ∀ r q, H.rel i r q → H.rel i (f r) (f q)

/-- An update of a food, whose new restaurant has been looked for if it has one. -/
theorem wp_food_update {H : Holds} {tells : Knows → Event → Prop} {nulls : Prop} {g : Knows}
    {i : Nat} {food : Food} {attributes : Attributes} {post : Knows → Food → Prop}
    (hallows : H.Allows i attributes)
    (hrow : ∃ q, g.view.foods.row i = some q ∧ H.rel i food q)
    (hnames : ∀ v n, attributes .restaurantId = some v → v.intColumn = some n →
      Names g.view.restaurants n)
    (hpost : ∀ f, foods.dirty attributes food foods.fillable = some f → ∀ u, g.view.Lasts H u →
      (∃ q, u.foods.row i = some q ∧ H.rel i (f food) q) →
      (food.Refers g.view → (f food).Refers u) → post (g.next [] u) (f food)) :
    (foods.update i food attributes).wp (contract H) tells (within nulls) post g := by
  refine wp_update_rows foods_rows hrow (hallows food) H.trans (fun f hf db hle hlasts h => ?_)
    fun f hf u hle hq => hpost f hf u hle hq fun hrefers => ?_
  · refine .of_grows hlasts.grows (h.foods.modify (fun r hr => ?_) i) h.orders h.likes
      h.subscriptions h.reports
    unfold Food.Refers
    rcases restaurantId_column.dirty_all hf with hkeep | ⟨v, n, hv, hn, hset⟩
    · rw [hkeep r]
      exact hr
    · rw [hset r]
      exact (hnames v n hv hn).grows hle.grows.restaurants
  · unfold Food.Refers
    rcases restaurantId_column.dirty_all hf with hkeep | ⟨v, n, hv, hn, hset⟩
    · rw [hkeep food]
      exact hrefers.lasts hle
    · rw [hset food]
      exact (hnames v n hv hn).grows hle.grows.restaurants

/-- An update of one column that is not the restaurant. -/
theorem wp_food_update_only {H : Holds} {tells : Knows → Event → Prop} {nulls : Prop} {g : Knows}
    {i : Nat} {food : Food} {a : Attr} {value : Value} {post : Knows → Food → Prop}
    (ha : .restaurantId ≠ a) (hallows : H.Allows i (.only a value))
    (hrow : ∃ q, g.view.foods.row i = some q ∧ H.rel i food q)
    (hpost : ∀ u row, g.view.Lasts H u → (∃ q, u.foods.row i = some q ∧ H.rel i row q) →
      (food.Refers g.view → row.Refers u) → post (g.next [] u) row) :
    (foods.update i food (.only a value)).wp (contract H) tells (within nulls) post g := by
  refine wp_food_update hallows hrow (fun v n hv => ?_) fun f _ u hle hq => hpost u (f food) hle hq
  rw [Attributes.only_ne _ ha] at hv
  cases hv

/-! ### Orders -/

namespace OrderController

variable {H : Holds} {tells : Knows → Event → Prop} {nulls : Prop} {env : Env} {user : Nat}
  {request : Request} {v : Database}

theorem records_lasts {db later : Database} (h : db.Lasts H later) :
    records later user = records db user := by
  unfold records
  rw [h.deprivateLists]

/-- The ban check lets a user through who is on the list less than three times, and looks up a
row of the list for nobody else. -/
theorem wp_admitted {g : Knows} {post : Knows → Bool → Prop}
    (hnulls : ¬ records g.view user < 3 → nulls)
    (h : ∀ u b, g.view.Lasts H u → (records g.view user < 3 → b = true) → post (g.next [] u) b) :
    (admitted user request).wp (contract H) tells (within nulls) post g := by
  unfold admitted badRecords
  refine Prog.wp_bind fun u hu _ => ?_
  show (if records u user < 3 then _ else _ : Action Bool).wp (contract H)
    tells (within nulls) post (g.next [] u)
  rw [records_lasts hu]
  split
  · exact h u true hu fun _ => rfl
  · rename_i hmany
    intro u' hu' _
    rw [Known.view_next] at hu'
    dsimp only
    rw [next_next]
    split
    · exact fun _ => hnulls hmany
    · exact h u' _ (hu.trans hu') fun hfew => absurd hfew hmany

theorem newOrder_wp {id : Nat} {order : Order} {post : Knows → Unit → Prop}
    (hfood : Names v.foods order.foodId)
    (htells : ∀ w r, v.Lasts H w → (w.restaurants.row r).isSome = true →
      tells (.outside w) (.newOrder id r))
    (hpost : ∀ w, v.Lasts H w → post (.outside w) ()) :
    (newOrder env id order).wp (contract H) tells (within nulls) post (.outside v) := by
  unfold newOrder
  refine Prog.wp_bind (wp_find fun u hu href => ?_)
  split
  · rename_i hl
    exact absurd hl (hfood.lookup_ne (M := foods) hu.grows.foods)
  · rename_i f food hl
    have hplace : food.Refers u := href.foods f food (lookup_food hl).2
    refine Prog.wp_bind (wp_find fun u' hu' _ => ?_)
    have hle : v.Lasts H u' := hu.trans hu'
    refine wp_dispatch (hplace.lookup_ne (M := restaurants) hu'.grows.restaurants)
      (fun r restaurant hl => ?_) (hpost u' hle)
    exact htells u' r hle (Option.isSome_of_eq_some (Model.lookup_some.mp hl).2)

/-- What an order request answers with: it stands, and it is the ban only for a user who is
on the list three times. -/
def answersStore (H : Holds) (v : Database) (user : Nat) (g : Knows) (response : Response) : Prop :=
  acknowledges H g response ∧ (records v user < 3 → response.body ≠ .message banned)

theorem place_wp {s : Database} {i : Nat} {food : Food}
    (htells : ∀ w id r, (w.orders.row id).isSome = true → (w.restaurants.row r).isSome = true →
      tells (.outside w) (.newOrder id r))
    (hallows : ∀ value, H.Allows i (.only .remaining value)) (huser : Names v.users user)
    (hkey : (request.get .foodId).key? = some i)
    (hrow : ∃ q, v.foods.row i = some q ∧ H.rel i food q) :
    (place env user request i food).wp (contract H) tells (within nulls)
      (answersStore H s user) (.inside s v []) := by
  unfold place
  obtain ⟨q, hq, hfood⟩ := hrow
  refine Prog.wp_bind (wp_create fun order hm u hu => ⟨⟨reserves orders_rows, fun id =>
    permits_order ?_⟩, fun id => ?_⟩)
  · refine ⟨⟨i, Value.intColumn_of_key hkey (drawn_of_make hm).foodId,
      hu.foods.grows i (Option.isSome_of_eq_some hq)⟩, ?_⟩
    rw [userId_of_make hm]
    exact huser.grows hu.grows.users
  · have hown : (u.orders.put id order).row id = some order := by simp
    obtain ⟨p, hp, hqp⟩ := hu.foods.row i q hq
    refine Prog.wp_bind (wp_food_update_only (by decide) (hallows _) ⟨p, hp, H.trans hfood hqp⟩
      fun w _ hw hwrow _ => Prog.wp_bind (wp_commit (Prog.wp_bind (newOrder_wp ?_
        (fun w' r hw' hr => ?_) fun w' hw' => ?_))))
    · obtain ⟨r, hr, -⟩ := hwrow
      exact ⟨i, Value.intColumn_of_key hkey (drawn_of_make hm).foodId, Option.isSome_of_eq_some hr⟩
    · exact htells w' id r ((hw.trans hw').orders.grows id (Option.isSome_of_eq_some hown)) hr
    · exact ⟨(hw.trans hw').orders.row id order hown, fun _ h => Payload.noConfusion h⟩

theorem store_wp
    (htells : ∀ w id r, (w.orders.row id).isSome = true → (w.restaurants.row r).isSome = true →
      tells (.outside w) (.newOrder id r))
    (hallows : ∀ i value, (request.get .foodId).key? = some i →
      H.Allows i (.only .remaining value))
    (huser : Names v.users user) (hnulls : ¬ records v user < 3 → nulls) :
    (store env user request).wp (contract H) tells (within nulls)
      (answersStore H v user) (.outside v) := by
  unfold store
  rw [tryCatchException_eq (by decide)]
  unfold storeBody
  refine Prog.wp_bind (wp_beginTransaction (Prog.wp_bind (wp_whereGet fun u hu _ => ?_)))
  split
  · rename_i hcount
    refine Prog.wp_bind (wp_find fun u' hu' _ => ?_)
    split
    · rename_i hl
      exact absurd hl (lookup_of_counted hcount hu'.grows.foods)
    · rename_i i food hl
      obtain ⟨hkey, hrow⟩ := lookup_food hl
      refine Prog.wp_bind (wp_validate fun w hw _ _ => ?_)
      have hle : v.Lasts H w := (hu.trans hu').trans hw
      refine Prog.wp_bind (wp_admitted (fun hmany => hnulls ?_) fun w' b hw' hb => ?_)
      · rwa [← records_lasts hle]
      split
      · refine place_wp htells (fun value => hallows i value hkey)
          (huser.grows (hle.trans hw').grows.users) hkey ?_
        exact (hw.trans hw').foods.row i food hrow
      · rename_i hnot
        refine ⟨trivial, fun hfew => absurd (hb ?_) hnot⟩
        exact (records_lasts hle).trans_lt hfew
  · exact ⟨trivial, fun _ h => by simp [sendError, json, banned] at h⟩

/-- An update of one of the flags, in its direction. -/
theorem wp_flag_update {g : Knows} {i : Nat} {order : Order} {a : Attr} {value : Value}
    {flag : Order → Order} {post : Knows → Order → Prop} (ha : a ∈ orders.fillable)
    (hassign : orders.assign a value = some flag) (hone : ∀ r : Order, r.Lasts (flag r))
    (hboth : ∀ r q : Order, r.Lasts q → (flag r).Lasts (flag q))
    (hrow : g.view.orders.row i = some order)
    (hpost : ∀ u row, g.view.Lasts H u → (∃ later, u.orders.row i = some later ∧ row.Lasts later) →
      post (g.next [] u) row) :
    (orders.update i order (.only a value)).wp (contract H) tells (within nulls) post g := by
  have hf : ∀ f, orders.dirty (.only a value) order orders.fillable = some f →
      (∀ r : Order, r.Lasts (f r)) ∧ ∀ r q : Order, r.Lasts q → (f r).Lasts (f q) := by
    intro f hf
    rcases Model.dirty_only_cases (by decide) ha hassign hf with rfl | rfl
    · exact ⟨.refl, fun _ _ h => h⟩
    · exact ⟨hone, hboth⟩
  refine wp_update_rows orders_rows ⟨order, hrow, .refl order⟩ hf Order.Lasts.trans
    (fun f hdirty db _ hlasts h => ?_) fun f _ u hle hq => hpost u (f order) hle hq
  refine .of_grows hlasts.grows h.foods (h.orders.modify (fun r hr => ?_) i) h.likes
    h.subscriptions h.reports
  have hsame := (hf f hdirty).1 r
  unfold Order.Refers
  rw [hsame.foodId, hsame.userId]
  exact hr

theorem completed_lasts (order : Order) : order.Lasts order.completed :=
  ⟨rfl, rfl, rfl, rfl, rfl, fun _ => rfl, id⟩

theorem cancelled_lasts (order : Order) : order.Lasts order.cancelled :=
  ⟨rfl, rfl, rfl, rfl, rfl, id, fun _ => rfl⟩

theorem complete_wp {id : Value} :
    (complete id).wp (contract H) tells (within nulls) (acknowledges H) (.outside v) := by
  unfold complete
  refine Prog.wp_bind (wp_whereGet fun u _ _ => ?_)
  split
  · rename_i hcount
    refine Prog.wp_bind (wp_find fun u' hu' _ => ?_)
    split
    · rename_i hl
      exact absurd hl (lookup_of_counted hcount hu'.orders.grows)
    · rename_i i order hl
      split
      · exact Prog.wp_bind (wp_flag_update (by decide) assign_complete completed_lasts
          (fun _ _ h => { h with complete := fun _ => rfl }) (lookup_order hl).2 fun _ _ _ h => h)
      · trivial
  · trivial

theorem cancel_wp {id : Value} (hallows : ∀ i value, H.Allows i (.only .remaining value)) :
    (cancel id).wp (contract H) tells (within nulls) (acknowledges H) (.outside v) := by
  unfold cancel
  refine Prog.wp_bind (wp_whereGet fun u _ _ => ?_)
  split
  · rename_i hcount
    refine Prog.wp_bind (wp_find fun u' hu' _ => ?_)
    split
    · rename_i hl
      exact absurd hl (lookup_of_counted hcount hu'.orders.grows)
    · rename_i i order hl
      split
      · refine Prog.wp_bind (wp_flag_update (by decide) assign_send cancelled_lasts
          (fun _ _ h => { h with cancelled := fun _ => rfl }) (lookup_order hl).2
          fun w row _ hstands => ?_)
        unfold restock
        refine Prog.wp_bind (Prog.wp_bind (wp_find fun w' hw' href => ?_))
        obtain ⟨later, hlater, hlasts⟩ := hstands
        obtain ⟨last, hlast, hlasts'⟩ := hw'.orders.row i later hlater
        have hfood : Names w'.foods row.foodId := by
          rw [← (hlasts.trans hlasts').foodId]
          exact (href.orders i last hlast).1
        split
        · rename_i hl
          exact absurd hl (hfood.lookup_ne (M := foods) (.refl _))
        · rename_i f food hl
          refine Prog.wp_bind (wp_food_update_only (by decide) (hallows f _)
            ⟨food, (lookup_food hl).2, H.refl f food⟩ fun w'' _ hw'' _ _ => ?_)
          have hbody : (Payload.order i row).Stands H w := ⟨later, hlater, hlasts⟩
          exact hbody.lasts (hw'.trans hw'')
      · trivial
  · trivial

end OrderController

/-! ### Foods -/

namespace FoodController

variable {H : Holds} {tells : Knows → Event → Prop} {nulls : Prop} {env : Env} {request : Request}
  {v : Database}

theorem foodAdded_wp {g : Knows} {id : Nat} {food : Food} {post : Knows → Unit → Prop}
    (hplace : food.Refers g.view)
    (htells : ∀ w r, g.view.Lasts H w → tells (g.next [] w) (.foodAdded id r))
    (hpost : ∀ w, g.view.Lasts H w → post (g.next [] w) ()) :
    (foodAdded env id food).wp (contract H) tells (within nulls) post g := by
  unfold foodAdded
  refine Prog.wp_bind (wp_find fun u hu _ => ?_)
  exact wp_dispatch (hplace.lookup_ne (M := restaurants) hu.grows.restaurants)
    (fun r restaurant _ => htells u r hu) (hpost u hu)

theorem store_wp
    (htells : ∀ s w keys id r, (.foods, id) ∈ keys → tells (.inside s w keys) (.foodAdded id r)) :
    (store env request).wp (contract H) tells (within nulls) (acknowledges H) (.outside v) := by
  unfold store
  rw [tryCatchException_eq (by decide)]
  unfold storeBody
  refine Prog.wp_bind (wp_beginTransaction (Prog.wp_bind (wp_validate fun u _ _ hvalid =>
    Prog.wp_bind (wp_create fun food hm w hw =>
      ⟨⟨reserves foods_rows, fun id => permits_food ?_⟩, fun id => ?_⟩))))
  · exact (added_refers hvalid hm).lasts hw
  · have hplace : food.Refers w := (added_refers hvalid hm).lasts hw
    refine Prog.wp_bind (foodAdded_wp hplace (fun w' r _ => htells _ _ _ id r (by simp))
      fun w' hw' => ?_)
    have hown : (w.foods.put id food).row id = some food := by simp
    exact hw'.foods.row id food hown

/-- What an update answers with: it stands, and it is a row filled with the request. -/
def answersUpdate (H : Holds) (id : Value) (request : Request) (g : Knows) (response : Response) :
    Prop :=
  acknowledges H g response ∧ ∃ i row f, id.key? = some i ∧
    foods.dirty (request.except .image) row foods.fillable = some f ∧
    response.body = .food i (f row)

theorem update_wp {id : Value}
    (hallows : ∀ i, id.key? = some i → H.Allows i (request.except .image) ∧
      ∀ value, H.Allows i (.only .image value))
    (htells : ∀ s w keys i r, (s.foods.row i).isSome = true →
      tells (.inside s w keys) (.foodAdded i r)) :
    (update env id request).wp (contract H) tells (within nulls) (answersUpdate H id request)
      (.outside v) := by
  unfold update
  refine Prog.wp_bind (wp_find fun u _ href => ?_)
  split
  · exact within_of rfl
  · rename_i i food hl
    obtain ⟨hkey, hrow⟩ := lookup_food hl
    obtain ⟨hcolumns, himage⟩ := hallows i hkey
    have hplace : food.Refers u := href.foods i food hrow
    rw [tryCatchException_eq (by decide)]
    unfold updateBody
    refine Prog.wp_bind (wp_beginTransaction (Prog.wp_bind (wp_validate fun u' hle _ hvalid =>
      Prog.wp_bind ?_)))
    have hrow' := hle.foods.row i food hrow
    have hnames : ∀ w, u'.Lasts H w → ∀ value n, request.except .image .restaurantId = some value →
        value.intColumn = some n → Names w.restaurants n := by
      intro w hw value n hvalue hn
      have hrule : (Attr.restaurantId, [Rule.exists_ restaurants.table]) ∈ updateRules i food := by
        simp [updateRules]
      have hpass : (Rule.exists_ restaurants.table).passes u' value = true :=
        passes_of_input hvalid hrule (by simp) (by decide) hvalue
      exact (Names.of_exists hpass hn).grows hw.grows.restaurants
    -- the rest of the transaction, once the image is stored
    have hrest : ∀ w row, u'.Lasts H w → (∃ q, w.foods.row i = some q ∧ H.rel i row q) →
        row.Refers w → (foods.update i row (request.except .image) >>= fun food => (do
          if raised request row.remaining then foodAdded env i food
          commit
          return json (.food i food) 200 : Handler)).wp (contract H) tells (within nulls)
            (answersUpdate H id request) (.inside u w []) := by
      intro w row hw hwrow hwplace
      refine Prog.wp_bind (wp_food_update hcolumns hwrow (hnames w hw)
        fun f hf x hx hxrow hxplace => ?_)
      have hcommit : ∀ y, x.Lasts H y → (commit >>= fun _ => pure (json (.food i (f row)) 200) :
          Handler).wp (contract H) tells (within nulls) (answersUpdate H id request)
            (.inside u y []) := by
        intro y hy
        have hbody : (Payload.food i (f row)).Stands H x := hxrow
        exact Prog.wp_bind (wp_commit ⟨hbody.lasts hy, i, row, f, hkey, hf, rfl⟩)
      split
      · refine Prog.wp_bind (foodAdded_wp (hxplace hwplace) (fun _ r _ => ?_) hcommit)
        exact htells _ _ _ i r (Option.isSome_of_eq_some hrow)
      · exact hcommit x (.refl _)
    unfold updateImage Model.updateImage
    split
    · exact wp_food_update_only (by decide) (himage _) hrow' fun w row hw h hwplace =>
        hrest w row hw h (hwplace (hplace.lasts hle))
    · exact hrest u' food (.refl _) hrow' (hplace.lasts hle)

end FoodController

end Spoiler
