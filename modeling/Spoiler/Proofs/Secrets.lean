/-
What the hidden columns give away.

Of two databases that are alike, every page shows the same, and every request answers the
same, dispatches the same events and leaves databases that are alike again; all but a login
whose password is the stored one in only one of the two.  So the one thing a client can find
out about the hidden columns is whether a password is right.
-/
import Spoiler.App.Routes
import Spoiler.Proofs.Blindness
import Spoiler.Proofs.Lookups
import Spoiler.Store.Run

namespace Spoiler

open Store Php

/-! ### Pages -/

section Pages

variable {db db' : Database}

theorem listings_blind {p : Database → Nat → Restaurant → Bool}
    (hp : ∀ db db' : Database, db.Alike db' → p db = p db') (foodsCount : Bool) :
    (RestaurantController.listings p foodsCount).Blind Database.Alike := by
  unfold RestaurantController.listings
  refine .bind (blind_read fun db db' h => ?_) fun _ => .bind (blind_read fun db db' h => ?_)
    fun _ => trivial
  · unfold Restaurant.foods Restaurant.likes
    rw [hp db db' h, h.restaurants, h.foods, h.likes]
  · unfold Restaurant.foods
    rw [h.foods]

theorem filter_blind (metres : Value → Value → String → String → Nat)
    (query : RestaurantController.Query) :
    (RestaurantController.filter metres query).Blind Database.Alike := by
  have hvalidate : (RestaurantController.validateQuery query).Blind Database.Alike := by
    refine ⟨fun db db' h => ?_, fun db => ?_⟩
    · have hfailed : failed db query.request.input (RestaurantController.filterRules query.request)
          = failed db' query.request.input
            (RestaurantController.filterRules query.request) := by
        refine failed_congr fun f hf r hr v => ?_
        have hopen : ∀ f ∈ RestaurantController.filterRules query.request, ∀ r ∈ f.2, r.Open := by
          unfold RestaurantController.filterRules RestaurantController.sometimesIsset
          split <;> simp
        exact hopen f hf r hr db db' h v
      simp only [hfailed]
    · dsimp only
      split <;> trivial
  unfold RestaurantController.filter
  refine .bind hvalidate fun _ => ?_
  dsimp only
  split
  · refine .bind (listings_blind (fun db db' h => ?_) _) fun result => ?_
    · unfold RestaurantController.hasFoods Restaurant.foods
      rw [h.foods]
    · split <;> trivial
  · refine .bind (listings_blind (fun _ _ _ => rfl) _) fun result => ?_
    split <;> trivial

theorem restaurantLook_blind (id : Value) :
    (RestaurantController.look id).Blind Database.Alike := by
  have hfind : (RestaurantController.findWithFoods id).Blind Database.Alike := by
    unfold RestaurantController.findWithFoods
    refine .bind (blind_find restaurants_open _) fun x => ?_
    split
    · trivial
    · exact .bind (blind_whereGet foods_open _) fun _ => trivial
  unfold RestaurantController.look
  refine .bind hfind fun x => ?_
  split
  · refine .bind hfind fun y => ?_
    split <;> trivial
  · trivial

theorem search_blind (search : List UInt8) :
    (FoodController.search search).Blind Database.Alike := by
  unfold FoodController.search
  refine .bind (blind_whereGet restaurants_open _) fun _ =>
    .bind (blind_whereGet foods_open _) fun _ => ?_
  split <;> trivial

/-- The user who is shown is the first one. -/
theorem userLook_shown (h : db.Alike db') (id : Value) :
    shown (Reading.body (.userLook id) db) = shown (Reading.body (.userLook id) db') := by
  have hanswer (db : Database) : Reading.body (.userLook id) db = Page.user.answer db id := rfl
  rw [hanswer, hanswer, Page.answer_user, Page.answer_user]
  rcases users_lookup h id with ⟨hl, hl'⟩ | ⟨i, user, user', hl, hl', -⟩
  · rw [hl, hl']
  · rw [hl, hl']
    rcases users_first h (p := fun _ _ => true) fun _ _ => rfl with
      ⟨hf, hf'⟩ | ⟨j, row, row', hf, hf', hshown⟩
    · rw [show db.users.first _ = none from hf, show db'.users.first _ = none from hf']
    · rw [show db.users.first _ = some (j, row) from hf,
        show db'.users.first _ = some (j, row') from hf']
      exact congrArg (fun row => Except.ok (json (.user j row) 200)) hshown

/-- An order is shown with the user who gave it. -/
theorem orderLook_shown (h : db.Alike db') (id : Value) :
    shown (Reading.body (.orderLook id) db) = shown (Reading.body (.orderLook id) db') := by
  have hanswer (db : Database) : Reading.body (.orderLook id) db = Page.order.answer db id := rfl
  rw [hanswer, hanswer, Page.answer_order, Page.answer_order]
  unfold Page.shown
  cases id.key? with
  | none => rfl
  | some i =>
      simp only [Option.bind_some, Page.about, h.orders]
      cases db'.orders.row i with
      | none => rfl
      | some order =>
          have hfood : foods.lookup db (.int order.foodId)
              = foods.lookup db' (.int order.foodId) := by
            unfold Model.lookup
            rw [foods_open.get db db' h]
          simp only [Option.map_some, Option.getD_some, hfood]
          rcases users_lookup h (.int order.userId) with
            ⟨hl, hl'⟩ | ⟨j, user, user', hl, hl', hshown⟩
          · rw [hl, hl']
          · rw [hl, hl']
            exact congrArg (fun row => Except.ok
              (json (.orderDetails i order _ (some (j, row))) 200))
              hshown

theorem reading_shown (h : db.Alike db') (reading : Reading) :
    shown (reading.body db) = shown (reading.body db') := by
  have hblind {p : Handler} (hp : p.Blind Database.Alike) :
      shown (p.serve db).answer = shown (p.serve db').answer := (seen_of_blind hp h).answer
  cases reading with
  | userLook id => exact userLook_shown h id
  | orderLook id => exact orderLook_shown h id
  | restaurantLook id => exact hblind (restaurantLook_blind id)
  | restaurantAll => exact hblind (.bind (listings_blind (fun _ _ _ => rfl) _) fun _ => trivial)
  | restaurantFilter metres query => exact hblind (filter_blind metres query)
  | foodSearch search => exact hblind (search_blind search)

/-- The users who are joined with a restaurant. -/
theorem subscriptUser_shown (h : db.Alike db') (i : Nat) :
    (Restaurant.subscriptUser db i).map (fun x => (x.1, x.2.shown))
      = (Restaurant.subscriptUser db' i).map fun x => (x.1, x.2.shown) := by
  unfold Restaurant.subscriptUser
  rw [List.map_filterMap, List.map_filterMap, h.subscriptions]
  refine List.filterMap_congr fun x _ => ?_
  cases (Value.int x.2.userId).key? with
  | none => rfl
  | some u =>
      have hrow := congrArg (Option.map fun row => (u, row)) (h.users.row u)
      simpa only [Option.bind_some, Option.map_map, Function.comp_def] using hrow

/-- The index pages as well. -/
theorem index_shown (h : db.Alike db') (index : Index) : index.shown db = index.shown db' := by
  have hblind {p : Action Contents} (hp : p.Blind Database.Alike) :
      (p.serve db).answer.map Contents.shown = (p.serve db').answer.map Contents.shown :=
    congrArg _ (hp.serve h).answer
  cases index with
  | users =>
      exact congrArg (fun rows => Except.ok (Contents.users rows))
        (h.users.filter (q := fun _ _ => true) fun _ _ => rfl)
  | subscriptions =>
      have hpage (db : Database) : Index.subscriptions.shown db = .ok (.subscriptions
          (((db.users.filter fun _ _ => true).map fun x => (x.1, x.2.shown)).map fun x =>
            (x, User.subscriptRestaurant db x.1))) := by
        rw [List.map_map]
        exact congrArg (fun rows => Except.ok (Contents.subscriptions rows)) (List.map_map ..)
      have hjoined : User.subscriptRestaurant db = User.subscriptRestaurant db' := by
        unfold User.subscriptRestaurant
        rw [h.subscriptions, h.restaurants]
      rw [hpage, hpage, hjoined, h.users.filter (q := fun _ _ => true) fun _ _ => rfl]
  | owners =>
      exact congrArg (fun rows => Except.ok (Contents.owners rows))
        (h.owners.filter (q := fun _ _ => true) fun _ _ => rfl)
  | subscribers =>
      have hpage (db : Database) : Index.subscribers.shown db = .ok (.subscribers
          ((db.restaurants.filter fun _ _ => true).map fun x => (x,
            (Restaurant.subscriptUser db x.1).map fun y => (y.1, y.2.shown)))) :=
        congrArg (fun rows => Except.ok (Contents.subscribers rows)) (List.map_map ..)
      rw [hpage, hpage, h.restaurants]
      simp only [subscriptUser_shown h]
  | foods =>
      refine hblind (.bind (.bind (blind_whereGet foods_open _) fun _ =>
        .bind (blind_read fun db db' h => ?_) fun _ => trivial) fun _ => trivial)
      rw [h.restaurants]
  | orders => exact hblind (.bind (blind_whereGet orders_open _) fun _ => trivial)

end Pages

/-! ### Requests -/

theorem guard_alike {db db' : Database} (h : db.Alike db') (token : String) :
    guard db token = guard db' token := by
  unfold guard tokenGuard
  split
  · rfl
  · rcases users_first h (p := fun _ r => r.apiToken == token) fun _ _ => rfl with
      ⟨hf, hf'⟩ | ⟨i, user, user', hf, hf', -⟩
    · rw [show db.users.first _ = none from hf, show db'.users.first _ = none from hf']
    · rw [show db.users.first _ = some (i, user) from hf,
        show db'.users.first _ = some (i, user') from hf']
      rfl

theorem ownerGuard_alike {db db' : Database} (h : db.Alike db') (token : String) :
    ownerGuard db token = ownerGuard db' token := by
  unfold ownerGuard tokenGuard
  split
  · rfl
  · rcases owners_first h (p := fun _ r => r.apiToken == token) fun _ _ => rfl with
      ⟨hf, hf'⟩ | ⟨i, owner, owner', hf, hf', -⟩
    · rw [show db.owners.first _ = none from hf, show db'.owners.first _ = none from hf']
    · rw [show db.owners.first _ = some (i, owner) from hf,
        show db'.owners.first _ = some (i, owner') from hf']
      rfl

namespace Visit

/-- A route that only reads leads to one of the pages. -/
def Reads (visit : Visit) : Prop :=
  ∀ body, visit.route = .read body → ∃ reading : Reading, body = reading.body

/-- The request is a login whose password is the stored one in only one of two states. -/
def Tells (L : Laravel) (db db' : Database) (visit : Visit) : Prop :=
  match visit.route with
  | .userLogin request =>
      UserController.verdict L db request ≠ UserController.verdict L db' request
  | .ownerLogin request =>
      OwnerController.verdict L db request ≠ OwnerController.verdict L db' request
  | _ => False

theorem authenticate_blind {found : Database → Option Nat} {action : Nat → Handler}
    (hfound : ∀ db db' : Database, db.Alike db' → found db = found db')
    (haction : ∀ id, (action id).Blind Database.Alike) :
    (authenticate found action).Blind Database.Alike := by
  refine ⟨fun db db' h => ?_, fun db => ?_⟩
  · simp only [hfound db db' h]
  · dsimp only
    split
    · trivial
    · exact haction _

theorem read_serve (L : Laravel) (env : Env) (token : String)
    (body : Database → Except Exn Response) (db : Database) :
    ((Visit.handler L ⟨env, token, .read body⟩).serve db) = ⟨db, .idle, [], body db⟩ := by
  simp only [handler, Route.access, Prog.serve, Prog.exec_select, Conn.view_idle, Conn.looked_idle]
  cases body db <;> rfl

/-- **A request looks the same in two states that are alike, unless it is a login that tells
them apart.** -/
theorem seen (L : Laravel) {db db' : Database} (h : db.Alike db') {visit : Visit}
    (hreads : visit.Reads) (htells : ¬ visit.Tells L db db') :
    Seen ((visit.handler L).serve db) ((visit.handler L).serve db') := by
  obtain ⟨env, token, route⟩ := visit
  have hauth {action : Nat → Handler} (haction : ∀ id, (action id).Blind Database.Alike) :
      Seen ((authenticate (guard · token) action).serve db)
        ((authenticate (guard · token) action).serve db') :=
    seen_of_blind (authenticate_blind (fun _ _ h => guard_alike h token) haction) h
  have hownerAuth {action : Nat → Handler} (haction : ∀ id, (action id).Blind Database.Alike) :
      Seen ((authenticate (ownerGuard · token) action).serve db)
        ((authenticate (ownerGuard · token) action).serve db') :=
    seen_of_blind (authenticate_blind (fun _ _ h => ownerGuard_alike h token) haction) h
  cases route with
  | userRegister request => exact seen_of_blind (UserController.store_blind L env request) h
  | userLogin request => exact UserController.login_seen h env (not_not.mp htells)
  | userLogout id => exact UserController.logout_seen h id
  | userUpdate id request => exact UserController.update_seen L h id request
  | userFacebook resource => exact FBController.login_seen h env resource
  | ownerRegister request => exact seen_of_blind (OwnerController.store_blind L env request) h
  | ownerLogin request => exact OwnerController.login_seen h env (not_not.mp htells)
  | restaurantStore request =>
      exact hownerAuth fun owner => RestaurantController.store_blind owner request
  | restaurantUpdate id request =>
      exact hownerAuth fun _ => RestaurantController.update_blind id request
  | restaurantScore request => exact hauth fun user => RestaurantController.score_blind user request
  | foodStore request => exact hownerAuth fun _ => FoodController.store_blind env request
  | foodUpdate id request => exact hownerAuth fun _ => FoodController.update_blind env id request
  | orderStore request => exact hauth fun user => OrderController.store_blind env user request
  | orderComplete id => exact hauth fun _ => OrderController.complete_blind id
  | orderCancel id => exact hauth fun _ => OrderController.cancel_blind id
  | subscriptStore request => exact seen_of_blind (SubscriptController.store_blind request) h
  | subscriptCancel id => exact seen_of_blind (SubscriptController.cancel_blind id) h
  | report request => exact seen_of_blind (ReportController.report_blind request) h
  | userReport => exact seen_of_blind (p := .raise .badMethodCall) trivial h
  | ownerLogout => exact seen_of_blind (p := .raise .badMethodCall) trivial h
  | ownerUpdate => exact seen_of_blind (p := .raise .badMethodCall) trivial h
  | foodLook => exact seen_of_blind (p := .raise .badMethodCall) trivial h
  | subscriptNotice => exact seen_of_blind (p := .raise .badMethodCall) trivial h
  | read body =>
      obtain ⟨reading, rfl⟩ := hreads body rfl
      rw [read_serve, read_serve]
      exact ⟨h, rfl, reading_shown h reading⟩

end Visit

/-! ### Runs -/

/-- What the clients see of a run: the events, and what is shown of the answers. -/
def seenLog (L : Laravel) (db : Database) (run : List Visit) :
    List (List Event × Except Exn Response) :=
  trace (Visit.serve L) (fun db visit => [(visit.events L db, shown (visit.answer L db))]) db run

/-- **Two databases that differ in hidden columns only look the same in every run and on every
index page, up to a login whose password is the stored one in one of them and not in the
other.** -/
theorem hidden_unseen (L : Laravel) {db db' : Database} (h : db.Alike db') (run : List Visit)
    (hreads : ∀ visit ∈ run, visit.Reads) :
    (seenLog L db run = seenLog L db' run ∧
      ∀ index : Index, index.shown (after (Visit.serve L) db run)
        = index.shown (after (Visit.serve L) db' run)) ∨
    ∃ before visit later, run = before ++ visit :: later ∧
      seenLog L db before = seenLog L db' before ∧
      visit.Tells L (after (Visit.serve L) db before) (after (Visit.serve L) db' before) := by
  have hstep : ∀ db db' visit, db.Alike db' → visit.Reads → ¬ Visit.Tells L db db' visit →
      [(visit.events L db, shown (visit.answer L db))]
        = [(visit.events L db', shown (visit.answer L db'))] ∧
      (visit.serve L db).Alike (visit.serve L db') := by
    intro db db' visit halike hvisit htells
    obtain ⟨hstate, hevents, hanswer⟩ := Visit.seen L halike hvisit htells
    refine ⟨?_, hstate⟩
    rw [show visit.events L db = visit.events L db' from hevents,
      show shown (visit.answer L db) = shown (visit.answer L db') from hanswer]
  rcases trace_together hstep h hreads with ⟨hlog, hafter⟩ | htold
  · exact .inl ⟨hlog, fun index => index_shown hafter index⟩
  · exact .inr htold

namespace Sample

/-- The town, with another password for the first user. -/
def rekeyed : Database :=
  { town with users := town.users.modify 1 fun user => { user with password := tag ++ "other" } }

/-- A login of the first user. -/
def knock (password : String) : Visit :=
  ⟨draws 'e', "", .userLogin (request [(.account, .str "ann"), (.password, .str password)])⟩

/-- A wrong password, a look at a user, and an order with the token the user has. -/
def errands : List Visit :=
  [knock "guess", ⟨env, "", .read (Reading.body (.userLook (.int 1)))⟩,
    ⟨env, token 'a', .orderStore (request [(.foodId, .int 1), (.foodNumber, .int 1),
      (.phone, .str "0912345678")])⟩]

theorem town_alike : town.Alike rekeyed where
  users := .of_hidden _ _ fun _ => rfl
  owners := ⟨rfl, fun _ => rfl⟩
  restaurants := rfl
  foods := rfl
  orders := rfl
  deprivateLists := rfl
  likes := rfl
  subscriptions := rfl
  reports := rfl

theorem errands_reads : ∀ visit ∈ errands, visit.Reads := by
  intro visit hvisit body hroute
  simp only [errands, List.mem_cons, List.not_mem_nil, or_false] at hvisit
  rcases hvisit with rfl | rfl | rfl
  · cases hroute
  · cases hroute
    exact ⟨.userLook (.int 1), rfl⟩
  · cases hroute

end Sample

/-- The town and the town with the other password, on which the right password tells. -/
theorem hidden_unseen_town :
    (Sample.knock "secret").Tells Sample.laravel Sample.town Sample.rekeyed ∧
    Sample.town.Alike Sample.rekeyed ∧ (∀ visit ∈ Sample.errands, visit.Reads) ∧
    ((seenLog Sample.laravel Sample.town Sample.errands
          = seenLog Sample.laravel Sample.rekeyed Sample.errands ∧
        ∀ index : Index,
          index.shown (after (Visit.serve Sample.laravel) Sample.town Sample.errands)
            = index.shown (after (Visit.serve Sample.laravel) Sample.rekeyed Sample.errands)) ∨
      ∃ before visit later, Sample.errands = before ++ visit :: later ∧
        seenLog Sample.laravel Sample.town before = seenLog Sample.laravel Sample.rekeyed before ∧
        visit.Tells Sample.laravel (after (Visit.serve Sample.laravel) Sample.town before)
          (after (Visit.serve Sample.laravel) Sample.rekeyed before)) := by
  refine ⟨?_, Sample.town_alike, Sample.errands_reads,
    hidden_unseen Sample.laravel Sample.town_alike Sample.errands Sample.errands_reads⟩
  show UserController.verdict _ _ _ ≠ UserController.verdict _ _ _
  decide +kernel

end Spoiler
