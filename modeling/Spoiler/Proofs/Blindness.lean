/-
The actions that do not see the hidden columns.

Two databases are alike when they differ in nothing but the columns that are never shown.
Most actions are blind to these columns: they read none of them and write none.  The actions
on accounts write them, with what the request brings, and load the rows they are in; what they
answer is shown without them.  A login also compares a password with the stored one.
-/
import Spoiler.App.Indexes
import Spoiler.Proofs.Accounts
import Spoiler.Proofs.Orders
import Spoiler.Proofs.Restaurants
import Spoiler.Proofs.Users
import Spoiler.Store.Blind

namespace Spoiler

open Store Php

/-- Nothing that is ever shown differs. -/
structure Database.Alike (db db' : Database) : Prop where
  users : Table.Same User.shown db.users db'.users
  owners : Table.Same Owner.shown db.owners db'.owners
  restaurants : db.restaurants = db'.restaurants
  foods : db.foods = db'.foods
  orders : db.orders = db'.orders
  deprivateLists : db.deprivateLists = db'.deprivateLists
  likes : db.likes = db'.likes
  subscriptions : db.subscriptions = db'.subscriptions
  reports : db.reports = db'.reports

/-! ### Tables and rules -/

section Tables

theorem restaurants_open : restaurants.table.Open Database.Alike :=
  ⟨fun _ _ h => h.restaurants, fun _ _ _ h => { h with restaurants := rfl }⟩

theorem foods_open : foods.table.Open Database.Alike :=
  ⟨fun _ _ h => h.foods, fun _ _ _ h => { h with foods := rfl }⟩

theorem orders_open : orders.table.Open Database.Alike :=
  ⟨fun _ _ h => h.orders, fun _ _ _ h => { h with orders := rfl }⟩

theorem likes_open : likes.table.Open Database.Alike :=
  ⟨fun _ _ h => h.likes, fun _ _ _ h => { h with likes := rfl }⟩

theorem subscriptions_open : subscriptions.table.Open Database.Alike :=
  ⟨fun _ _ h => h.subscriptions, fun _ _ _ h => { h with subscriptions := rfl }⟩

theorem reports_open : reports.table.Open Database.Alike :=
  ⟨fun _ _ h => h.reports, fun _ _ _ h => { h with reports := rfl }⟩

end Tables

namespace Rule

/-- The rule looks at nothing hidden. -/
def Open (r : Rule) : Prop := ∀ db db' : Database, db.Alike db' → ∀ v, r.passes db v = r.passes db' v

@[simp] theorem open_required : required.Open := fun _ _ _ _ => rfl
@[simp] theorem open_sometimes : sometimes.Open := fun _ _ _ _ => rfl
@[simp] theorem open_integer : integer.Open := fun _ _ _ _ => rfl
@[simp] theorem open_numeric : numeric.Open := fun _ _ _ _ => rfl
@[simp] theorem open_string : string.Open := fun _ _ _ _ => rfl
@[simp] theorem open_boolean : boolean.Open := fun _ _ _ _ => rfl
@[simp] theorem open_email (L : Laravel) : (email L).Open := fun _ _ _ _ => rfl
@[simp] theorem open_digits (n : Nat) : (digits n).Open := fun _ _ _ _ => rfl
@[simp] theorem open_between (lo hi : Nat) : (between lo hi).Open := fun _ _ _ _ => rfl
@[simp] theorem open_min (n : Nat) : (Rule.min n).Open := fun _ _ _ _ => rfl
@[simp] theorem open_lte (field : Option Value) (n : Int) : (lte field n).Open := fun _ _ _ _ => rfl
@[simp] theorem open_gt (v : Value) : (gt v).Open := fun _ _ _ _ => rfl
@[simp] theorem open_mimes (exts : List String) : (mimes exts).Open := fun _ _ _ _ => rfl
@[simp] theorem open_array : array.Open := fun _ _ _ _ => rfl
@[simp] theorem open_requiredWith (v : Value) : (requiredWith v).Open := fun _ _ _ _ => rfl

theorem open_exists {ρ β : Type} {T : TableOf Database ρ} {f : ρ → β}
    (h : ∀ db db' : Database, db.Alike db' → Table.Same f (T.get db) (T.get db')) :
    (exists_ T).Open := by
  intro db db' halike v
  simp only [exists_, (h db db' halike).isSome]

theorem open_unique {ρ β : Type} {T : TableOf Database ρ} {f : ρ → β} {column : ρ → String}
    {scope : Nat → ρ → Bool} {c : β → String} (hcolumn : ∀ r, column r = c (f r))
    {s : Nat → β → Bool} (hscope : ∀ i r, scope i r = s i (f r))
    (h : ∀ db db' : Database, db.Alike db' → Table.Same f (T.get db) (T.get db')) :
    (unique T column scope).Open := by
  intro db db' halike v
  exact (h db db' halike).isEmpty_filter (q := fun i b => s i b && v.equalsText (c b))
    fun i r => by rw [hcolumn, hscope]

@[simp] theorem open_exists_users : (exists_ users.table).Open :=
  open_exists (f := User.shown) fun _ _ h => h.users
@[simp] theorem open_exists_owners : (exists_ owners.table).Open :=
  open_exists (f := Owner.shown) fun _ _ h => h.owners

@[simp] theorem open_exists_foods : (exists_ foods.table).Open :=
  open_exists fun _ _ => foods_open.same
@[simp] theorem open_exists_restaurants : (exists_ restaurants.table).Open :=
  open_exists fun _ _ => restaurants_open.same

@[simp] theorem open_unique_userAccount :
    (unique users.table User.account fun _ _ => true).Open :=
  open_unique (f := User.shown) (c := User.account) (s := fun _ _ => true) (fun _ => rfl)
    (fun _ _ => rfl) fun _ _ h => h.users

@[simp] theorem open_unique_ownerAccount :
    (unique owners.table Owner.account fun _ _ => true).Open :=
  open_unique (f := Owner.shown) (c := Owner.account) (s := fun _ _ => true) (fun _ => rfl)
    (fun _ _ => rfl) fun _ _ h => h.owners

@[simp] theorem open_unique_foods (column : Food → String) (scope : Nat → Food → Bool) :
    (unique foods.table column scope).Open :=
  open_unique (c := column) (s := scope) (fun _ => rfl) (fun _ _ => rfl)
    fun _ _ => foods_open.same

@[simp] theorem open_unique_restaurants (column : Restaurant → String)
    (scope : Nat → Restaurant → Bool) : (unique restaurants.table column scope).Open :=
  open_unique (c := column) (s := scope) (fun _ => rfl) (fun _ _ => rfl)
    fun _ _ => restaurants_open.same

end Rule

/-! ### Statements -/

section Statements

variable {ρ : Type} {M : Model ρ}

theorem blind_read {A : Type} {f : Database → A}
    (hf : ∀ db db' : Database, db.Alike db' → f db = f db') :
    (.select fun db => .ret (f db) : Action A).Blind Database.Alike :=
  .select hf fun _ => trivial

theorem blind_find (hM : M.table.Open Database.Alike) (v : Value) :
    (M.find v).Blind Database.Alike :=
  blind_read fun db db' h => by rw [hM.get db db' h]

theorem blind_whereGet (hM : M.table.Open Database.Alike) (p : Nat → ρ → Bool) :
    (M.whereGet p).Blind Database.Alike :=
  blind_read fun db db' h => by rw [hM.get db db' h]

theorem blind_whereFirst (hM : M.table.Open Database.Alike) (p : Nat → ρ → Bool) :
    (M.whereFirst p).Blind Database.Alike :=
  blind_read fun db db' h => by rw [hM.get db db' h]

theorem blind_validate {request : Request} {fields : List (Attr × List Rule)}
    (h : ∀ f ∈ fields, ∀ r ∈ f.2, r.Open) : (request.validate fields).Blind Database.Alike := by
  unfold Request.validate
  refine ⟨fun db db' halike => ?_, fun db => ?_⟩
  · have hfailed : failed db request.input fields = failed db' request.input fields :=
      failed_congr fun f hf r hr v => h f hf r hr db db' halike v
    simp only [hfailed]
  · dsimp only
    split <;> trivial

/-- A row that the request makes goes in at the same key. -/
theorem blind_create_of (hinsert : ∀ r, (M.table.insert r : Action Nat).Blind Database.Alike)
    (htaken : ∀ db db' r, db.Alike db' →
      M.taken db (M.table.get db).next r = M.taken db' (M.table.get db').next r)
    (attributes : Attr → Value) : (M.create attributes).Blind Database.Alike := by
  unfold Model.create
  cases M.make attributes with
  | none => trivial
  | some r =>
      have hreturn : (M.table.insert r >>= fun i => pure (i, r) : Action (Nat × ρ)).Blind
          Database.Alike := .bind (hinsert r) fun _ => trivial
      dsimp only
      split
      · exact hreturn
      · refine ⟨fun db db' h => ?_, fun db => ?_⟩
        · simp only [htaken db db' r h]
        · dsimp only
          split
          · trivial
          · exact hreturn

theorem blind_create (hM : M.table.Open Database.Alike) (attributes : Attr → Value) :
    (M.create attributes).Blind Database.Alike :=
  blind_create_of hM.insert (fun db db' r h => by
    rw [hM.get db db' h, Model.taken, Model.taken, hM.get db db' h]) attributes

theorem blind_update [DecidableEq ρ] (hM : M.table.Open Database.Alike) (i : Nat) (row : ρ)
    (attributes : Attributes) : (M.update i row attributes).Blind Database.Alike := by
  unfold Model.update
  cases M.dirty attributes row M.fillable with
  | none => trivial
  | some f =>
      have hchange : (M.table.change i f >>= fun _ => pure (f row) : Action ρ).Blind
          Database.Alike := .bind (hM.change i f) fun _ => trivial
      dsimp only
      split
      · trivial
      · split
        · exact hchange
        · refine ⟨fun db db' h => ?_, fun db => ?_⟩
          · have hclash : M.clash db i row (f row) = M.clash db' i row (f row) := by
              unfold Model.clash Model.taken
              rw [hM.get db db' h]
            simp only [hclash]
          · dsimp only
            split
            · trivial
            · exact hchange

theorem blind_updateImage [DecidableEq ρ] (hM : M.table.Open Database.Alike) (request : Request)
    (i : Nat) (row : ρ) : (M.updateImage request i row).Blind Database.Alike := by
  unfold Model.updateImage
  split
  · exact blind_update hM i row _
  · trivial

theorem blind_dispatch (env : Env) (restaurant : Option (Nat × Restaurant)) (ev : Nat → Event) :
    (dispatch env restaurant ev).Blind Database.Alike := by
  unfold dispatch
  split
  · trivial
  · split <;> trivial

theorem blind_newOrder (env : Env) (id : Nat) (order : Order) :
    (newOrder env id order).Blind Database.Alike := by
  unfold newOrder
  refine .bind (blind_find foods_open _) fun x => ?_
  split
  · trivial
  · exact .bind (blind_find restaurants_open _) fun _ => blind_dispatch _ _ _

theorem blind_foodAdded (env : Env) (id : Nat) (food : Food) :
    (foodAdded env id food).Blind Database.Alike :=
  .bind (blind_find restaurants_open _) fun _ => blind_dispatch _ _ _

end Statements

/-! ### Orders and foods -/

namespace OrderController

theorem admitted_blind (user : Nat) (request : Request) :
    (admitted user request).Blind Database.Alike := by
  unfold admitted
  refine .bind (blind_read fun db db' h => ?_) fun count => ?_
  · simp only [deprivateLists, h.deprivateLists]
  · split
    · trivial
    · refine ⟨fun db db' h => ?_, fun db => ?_⟩
      · simp only [deprivateLists, h.deprivateLists]
      · dsimp only
        split <;> trivial

theorem store_blind (env : Env) (user : Nat) (request : Request) :
    (store env user request).Blind Database.Alike := by
  rw [store_eq]
  unfold storeBody
  refine .bind trivial fun _ => .bind (blind_whereGet foods_open _) fun found => ?_
  split
  · refine .bind (blind_find foods_open _) fun x => ?_
    split
    · trivial
    · refine .bind (blind_validate (by simp [rules])) fun _ =>
        .bind (admitted_blind user request) fun admits => ?_
      split
      · unfold place
        exact .bind (blind_create orders_open _) fun x => .bind (blind_update foods_open _ _ _)
          fun _ => .bind trivial fun _ => .bind (blind_newOrder _ _ _) fun _ => trivial
      · trivial
  · trivial

theorem complete_blind (id : Value) : (complete id).Blind Database.Alike := by
  unfold complete
  refine .bind (blind_whereGet orders_open _) fun found => ?_
  split
  · refine .bind (blind_find orders_open _) fun x => ?_
    split
    · trivial
    · split
      · exact .bind (blind_update orders_open _ _ _) fun _ => trivial
      · trivial
  · trivial

theorem cancel_blind (id : Value) : (cancel id).Blind Database.Alike := by
  unfold cancel
  refine .bind (blind_whereGet orders_open _) fun found => ?_
  split
  · refine .bind (blind_find orders_open _) fun x => ?_
    split
    · trivial
    · split
      · refine .bind (blind_update orders_open _ _ _) fun order => .bind ?_ fun _ => trivial
        refine .bind (blind_find foods_open _) fun y => ?_
        split
        · trivial
        · exact .bind (blind_update foods_open _ _ _) fun _ => trivial
      · trivial
  · trivial

end OrderController

namespace FoodController

theorem store_blind (env : Env) (request : Request) :
    (store env request).Blind Database.Alike := by
  rw [store_eq]
  unfold storeBody
  exact .bind trivial fun _ => .bind (blind_validate (by simp [storeRules])) fun _ =>
    .bind (blind_create foods_open _) fun _ => .bind (blind_foodAdded _ _ _) fun _ =>
      .bind trivial fun _ => trivial

theorem update_blind (env : Env) (id : Value) (request : Request) :
    (update env id request).Blind Database.Alike := by
  rw [update_eq]
  refine .bind (blind_find foods_open _) fun x => ?_
  split
  · trivial
  · unfold updateBody
    refine .bind trivial fun _ => .bind (blind_validate (by simp [updateRules])) fun _ =>
      .bind (blind_updateImage foods_open _ _ _) fun _ => .bind (blind_update foods_open _ _ _)
        fun _ => ?_
    split
    · exact .bind (blind_foodAdded _ _ _) fun _ => .bind trivial fun _ => trivial
    · exact .bind trivial fun _ => trivial

end FoodController

/-! ### Restaurants, subscriptions and reports -/

namespace RestaurantController

theorem store_blind (owner : Nat) (request : Request) :
    (store owner request).Blind Database.Alike := by
  rw [store_eq]
  unfold storeBody
  exact .bind trivial fun _ => .bind (blind_validate (by simp [storeRules, unique])) fun _ =>
    .bind (blind_create restaurants_open _) fun _ => .bind trivial fun _ => trivial

theorem update_blind (id : Value) (request : Request) :
    (update id request).Blind Database.Alike := by
  rw [update_eq]
  refine .bind (blind_find restaurants_open _) fun x => ?_
  split
  · trivial
  · unfold updateBody
    refine .bind trivial fun _ => .bind (blind_validate ?_) fun _ =>
      .bind (blind_updateImage restaurants_open _ _ _) fun _ =>
        .bind (blind_update restaurants_open _ _ _) fun _ => .bind trivial fun _ => trivial
    unfold updateRules sometimesEnd
    split <;> simp [uniqueBut]

theorem score_blind (user : Nat) (request : Request) :
    (score user request).Blind Database.Alike := by
  unfold score
  refine .bind (blind_validate (by simp [scoreRules])) fun _ =>
    .bind (blind_whereGet likes_open _) fun found => ?_
  split
  · refine .bind (blind_whereFirst likes_open _) fun x => ?_
    split
    · trivial
    · exact .bind (blind_update likes_open _ _ _) fun _ => trivial
  · exact .bind (blind_create likes_open _) fun _ => trivial

end RestaurantController

theorem SubscriptController.store_blind (request : Request) :
    (SubscriptController.store request).Blind Database.Alike :=
  .bind (blind_validate (by simp [SubscriptController.rules])) fun _ =>
    .bind (blind_create subscriptions_open _) fun _ => trivial

theorem SubscriptController.cancel_blind (id : Value) :
    (SubscriptController.cancel id).Blind Database.Alike := by
  unfold SubscriptController.cancel
  refine .bind (blind_find subscriptions_open _) fun x => ?_
  split
  · trivial
  · exact .bind (subscriptions_open.delete _) fun _ => trivial

theorem ReportController.report_blind (request : Request) :
    (ReportController.report request).Blind Database.Alike := by
  unfold ReportController.report
  refine .bind (blind_validate (by simp [ReportController.rules])) fun _ =>
    .bind (blind_validate ?_) fun _ => .bind (blind_create reports_open _) fun _ => trivial
  unfold ReportController.partyRules
  split <;> simp

/-! ### Accounts -/

/-- Two users of whom the same is shown have the same account. -/
theorem User.account_of_shown {user user' : User} (h : user.shown = user'.shown) :
    user.account = user'.account := by
  show user.shown.account = user'.shown.account
  rw [h]

/-- An index that covers a column which is not hidden. -/
theorem taken_alike {db db' : Database} (h : db.Alike db') (i : Nat) {user user' : User}
    (haccount : user.account = user'.account) :
    users.taken db i user = users.taken db' i user' := by
  have hempty := h.users.isEmpty_filter
    (p := fun j q => j != i && q.account == user'.account)
    (q := fun j q => j != i && q.account == user'.account) fun _ _ => rfl
  simp only [Model.taken, users, haccount, hempty]

theorem clash_alike {db db' : Database} (h : db.Alike db') (i : Nat) {user user' q q' : User}
    (huser : user.account = user'.account) (hq : q.account = q'.account) :
    users.clash db i user q = users.clash db' i user' q' := by
  have htaken := taken_alike h i hq
  simp only [Model.clash, users, huser, hq] at htaken ⊢
  rw [htaken]

theorem ownerTaken_alike {db db' : Database} (h : db.Alike db') (i : Nat) (owner : Owner) :
    owners.taken db i owner = owners.taken db' i owner := by
  have hempty := h.owners.isEmpty_filter
    (p := fun j q => j != i && q.account == owner.account)
    (q := fun j q => j != i && q.account == owner.account) fun _ _ => rfl
  simp only [Model.taken, owners, hempty]

theorem blind_userCreate (attributes : Attr → Value) :
    (users.create attributes).Blind Database.Alike := by
  refine blind_create_of (fun user => ?_) (fun db db' user h => ?_) attributes
  · exact ⟨fun _ _ h => ⟨h.users.next, { h with users := h.users.reserve }⟩,
      fun i _ _ h => { h with users := h.users.put i user }, fun _ => trivial⟩
  · rw [show (users.table.get db).next = (users.table.get db').next from h.users.next]
    exact taken_alike h _ rfl

theorem blind_ownerCreate (attributes : Attr → Value) :
    (owners.create attributes).Blind Database.Alike := by
  refine blind_create_of (fun owner => ?_) (fun db db' owner h => ?_) attributes
  · exact ⟨fun _ _ h => ⟨h.owners.next, { h with owners := h.owners.reserve }⟩,
      fun i _ _ h => { h with owners := h.owners.put i owner }, fun _ => trivial⟩
  · rw [show (owners.table.get db).next = (owners.table.get db').next from h.owners.next]
    exact ownerTaken_alike h _ _

theorem UserController.store_blind (L : Laravel) (env : Env) (request : Request) :
    (UserController.store L env request).Blind Database.Alike :=
  .bind (blind_validate (by simp [UserController.storeRules])) fun _ =>
    .bind (blind_userCreate _) fun _ => trivial

theorem OwnerController.store_blind (L : Laravel) (env : Env) (request : Request) :
    (OwnerController.store L env request).Blind Database.Alike :=
  .bind (blind_validate (by simp [OwnerController.storeRules])) fun _ =>
    .bind (blind_ownerCreate _) fun _ => trivial

/-! ### Rows that are loaded and written -/

/-- An assignment writes a hidden column, or it changes two rows that look the same alike. -/
theorem assign_shown {a : Attr} {v : Value} {g : User → User} (hg : users.assign a v = some g) :
    (∀ q, (g q).shown = q.shown) ∨ ∀ r q : User, r.shown = q.shown →
      (g r).shown = (g q).shown ∧ (g r = r ↔ g q = q) := by
  cases a <;> first
    | (obtain ⟨x, -, rfl⟩ := Option.map_eq_some_iff.mp hg
       first
         | exact .inl fun _ => rfl
         | (right
            intro r q h
            simp only [User.shown, User.mk.injEq] at h
            cases r
            cases q
            simp_all [User.shown]))
    | cases hg

/-- What an update makes of a row does not show what was hidden in it. -/
theorem dirty_shown {attributes : Attributes} {user user' : User} (h : user.shown = user'.shown)
    {l : List Attr} :
    Option.Rel (fun f f' => ∀ r q : User, r.shown = q.shown → (f r).shown = (f' q).shown)
      (users.dirty attributes user l) (users.dirty attributes user' l) := by
  induction l with
  | nil => exact .some fun _ _ hrq => hrq
  | cons a rest ih =>
      simp only [Model.dirty]
      cases attributes a with
      | none => exact ih
      | some v =>
          dsimp only
          cases hg : users.assign a v with
          | none => exact .none
          | some g =>
              generalize users.dirty attributes user rest = x at ih ⊢
              generalize users.dirty attributes user' rest = x' at ih ⊢
              cases ih with
              | none => exact .none
              | some hff' =>
                  refine .some fun r q hrq => ?_
                  -- a column is left out in one row and written in the other only if hidden
                  rcases assign_shown hg with hhidden | hplain
                  · have hinner (c : Prop) [Decidable c] (f : User → User) (r : User) :
                        ∃ r', (if c then f else f ∘ g) r = f r' ∧ r'.shown = r.shown := by
                      split
                      · exact ⟨r, rfl, rfl⟩
                      · exact ⟨g r, rfl, hhidden r⟩
                    obtain ⟨r', hr', hshown⟩ := hinner (g user = user) _ r
                    obtain ⟨q', hq', hshown'⟩ := hinner (g user' = user') _ q
                    rw [hr', hq']
                    exact hff' r' q' (hshown.trans (hrq.trans hshown'.symm))
                  · have hsame := (hplain user user' h).2
                    by_cases hclean : g user = user
                    · rw [if_pos hclean, if_pos (hsame.mp hclean)]
                      exact hff' r q hrq
                    · rw [if_neg hclean, if_neg fun hc => hclean (hsame.mpr hc)]
                      exact hff' _ _ (hplain r q hrq).1

/-- Two runs that look the same to the client. -/
structure Seen (o o' : Outcome Database Event Exn Response) : Prop where
  state : o.state.Alike o'.state
  events : o.events = o'.events
  answer : shown o.answer = shown o'.answer

theorem Seen.of_alike {o o' : Outcome Database Event Exn Response} (h : o.Alike Database.Alike o') :
    Seen o o' :=
  ⟨h.state, h.events, congrArg shown h.answer⟩

theorem seen_of_blind {p : Handler} (hp : p.Blind Database.Alike) {db db' : Database}
    (h : db.Alike db') : Seen (p.serve db) (p.serve db') :=
  .of_alike (hp.serve h)

section Loaded

variable {db db' : Database} {i : Nat}

theorem users_lookup (h : db.Alike db') (id : Value) :
    (users.lookup db id = none ∧ users.lookup db' id = none) ∨ ∃ i user user',
      users.lookup db id = some (i, user) ∧ users.lookup db' id = some (i, user') ∧
        user.shown = user'.shown := by
  refine Table.Same.paired ?_
  unfold Model.lookup
  cases id.key? with
  | none => rfl
  | some i =>
      have hrow := congrArg (Option.map fun row => (i, row)) (h.users.row i)
      simp only [Option.map_map, Function.comp_def] at hrow
      simp only [Option.bind_some, Option.map_map, Function.comp_def]
      exact hrow

/-- An update of a user that is answered with the row. -/
theorem seen_update (h : db.Alike db') {user user' : User} (hrow : db.users.row i = some user)
    (hrow' : db'.users.row i = some user') (attributes : Attributes) :
    Seen ((users.update i user attributes >>= fun user =>
        pure (json (.user i user) 200)).exec db .idle)
      ((users.update i user' attributes >>= fun user =>
        pure (json (.user i user) 200)).exec db' .idle) := by
  have hshown : user.shown = user'.shown := by
    have hi := h.users.row i
    rw [hrow, hrow'] at hi
    exact Option.some.inj hi
  rw [Model.exec_update_idle hrow, Model.exec_update_idle hrow']
  have hdirty : Option.Rel _ (users.dirty attributes user users.fillable)
      (users.dirty attributes user' users.fillable) := dirty_shown hshown
  generalize users.dirty attributes user users.fillable = x at hdirty ⊢
  generalize users.dirty attributes user' users.fillable = x' at hdirty ⊢
  cases hdirty with
  | none => exact ⟨h, rfl, rfl⟩
  | @some f f' hff' =>
      dsimp only
      rw [clash_alike h i (User.account_of_shown hshown)
        (User.account_of_shown (hff' user user' hshown))]
      split
      · exact ⟨h, rfl, rfl⟩
      · refine ⟨{ h with users := h.users.modify hff' }, rfl, ?_⟩
        exact congrArg (fun row => Except.ok (json (.user i row) 200)) (hff' user user' hshown)

theorem UserController.logout_seen (h : db.Alike db') (id : Value) :
    Seen ((UserController.logout id).serve db) ((UserController.logout id).serve db') := by
  unfold UserController.logout Prog.serve
  rw [Model.exec_counted_idle, Model.exec_counted_idle]
  rcases users_lookup h id with ⟨hl, hl'⟩ | ⟨i, user, user', hl, hl', -⟩
  · rw [hl, hl']
    exact ⟨h, rfl, rfl⟩
  · rw [hl, hl', Option.isSome_some, Option.isSome_some, if_pos rfl, if_pos rfl,
      Model.exec_find_idle, Model.exec_find_idle, hl, hl']
    exact seen_update h (Model.lookup_some.mp hl).2 (Model.lookup_some.mp hl').2 _

theorem UserController.update_seen (L : Laravel) (h : db.Alike db') (id : Value)
    (request : Request) : Seen ((UserController.update L id request).serve db)
      ((UserController.update L id request).serve db') := by
  unfold UserController.update Prog.serve
  rw [Model.exec_counted_idle, Model.exec_counted_idle]
  rcases users_lookup h id with ⟨hl, hl'⟩ | ⟨i, user, user', hl, hl', -⟩
  · rw [hl, hl']
    exact ⟨h, rfl, rfl⟩
  · rw [hl, hl', Option.isSome_some, Option.isSome_some, if_pos rfl, if_pos rfl]
    have hfailed : failed db request.input (updateRules L)
        = failed db' request.input (updateRules L) := by
      refine failed_congr fun f hf r hr v => ?_
      have hopen : ∀ f ∈ updateRules L, ∀ r ∈ f.2, r.Open := by simp [updateRules]
      exact hopen f hf r hr db db' h v
    simp only [Request.validate, Prog.select_bind, Prog.exec_select, Conn.view_idle,
      Conn.looked_idle, hfailed]
    cases failed db' request.input (updateRules L) with
    | cons e es => exact ⟨h, rfl, rfl⟩
    | nil =>
        dsimp only
        rw [Prog.ret_bind, Model.exec_find_idle, Model.exec_find_idle, hl, hl']
        exact seen_update h (Model.lookup_some.mp hl).2 (Model.lookup_some.mp hl').2 _

/-- A clause on what is shown finds the same user. -/
theorem users_first (h : db.Alike db') {p : Nat → User → Bool} (hp : ∀ i r, p i r = p i r.shown) :
    ((users.table.get db).first p = none ∧ (users.table.get db').first p = none) ∨
      ∃ i user user', (users.table.get db).first p = some (i, user) ∧
        (users.table.get db').first p = some (i, user') ∧ user.shown = user'.shown :=
  Table.Same.paired (h.users.first hp)

theorem owners_first (h : db.Alike db') {p : Nat → Owner → Bool}
    (hp : ∀ i r, p i r = p i r.shown) :
    ((owners.table.get db).first p = none ∧ (owners.table.get db').first p = none) ∨
      ∃ i owner owner', (owners.table.get db).first p = some (i, owner) ∧
        (owners.table.get db').first p = some (i, owner') ∧ owner.shown = owner'.shown :=
  Table.Same.paired (h.owners.first hp)

section Exec

variable {ρ A : Type} (M : Model ρ) (p : Nat → ρ → Bool)

/-- Counting the rows of a clause asks for its first row. -/
theorem exec_known_idle (x y : Action A) :
    (M.whereGet p >>= fun found => if found.length > 0 then x else y).exec db .idle
      = if ((M.table.get db).first p).isSome then x.exec db .idle else y.exec db .idle := by
  simp only [Model.whereGet, Prog.select_bind, Prog.ret_bind, Prog.exec_select, Conn.view_idle,
    Conn.looked_idle, gt_iff_lt, Table.filter_length_pos]
  split <;> rfl

theorem exec_first_idle (k : Option (Nat × ρ) → Action A) :
    (M.whereFirst p >>= k).exec db .idle = (k ((M.table.get db).first p)).exec db .idle := rfl

end Exec

theorem FBController.login_seen (h : db.Alike db') (env : Env)
    (resource : FBController.GraphUser) :
    Seen ((FBController.login env resource).serve db)
      ((FBController.login env resource).serve db') := by
  have hlength : ((users.table.get db).filter fun _ r => r.account == resource.id).length
      = ((users.table.get db').filter fun _ r => r.account == resource.id).length :=
    h.users.length_filter (q := fun _ r => r.account == resource.id) fun _ _ => rfl
  unfold FBController.login Prog.serve
  simp only [Model.whereGet, Prog.select_bind, Prog.ret_bind, Prog.exec_select, Conn.view_idle,
    Conn.looked_idle, hlength]
  split
  · refine seen_of_blind (p := users.create (attributes env resource) >>= fun x =>
      pure (json (.user x.1 x.2) 200)) (.bind (blind_userCreate _) fun _ => ?_) h
    trivial
  · rw [exec_first_idle, exec_first_idle]
    rcases users_first h (p := fun _ r => r.account == resource.id) fun _ _ => rfl with
      ⟨hf, hf'⟩ | ⟨i, user, user', hf, hf', -⟩
    · rw [hf, hf']
      exact ⟨h, rfl, rfl⟩
    · rw [hf, hf']
      exact seen_update h (Table.first_some hf).1 (Table.first_some hf').1 _

/-- Whether the password of a login is the stored one, if somebody has the account. -/
def UserController.verdict (L : Laravel) (db : Database) (request : Request) : Option Bool :=
  (UserController.byAccount db (request.get .account)).map fun x =>
    L.hashCheck ((request.get .password).text.getD "") x.2.password

def OwnerController.verdict (L : Laravel) (db : Database) (request : Request) : Option Bool :=
  (OwnerController.byAccount db (request.get .account)).map fun x =>
    L.hashCheck ((request.get .password).text.getD "") x.2.password

theorem UserController.login_seen {L : Laravel} (h : db.Alike db') (env : Env) {request : Request}
    (hverdict : UserController.verdict L db request = UserController.verdict L db' request) :
    Seen ((UserController.login L env request).serve db)
      ((UserController.login L env request).serve db') := by
  unfold UserController.login Prog.serve
  dsimp only
  rw [exec_known_idle, exec_known_idle]
  rcases users_first h (p := fun _ r => (request.get .account).equalsText r.account)
    fun _ _ => rfl with ⟨hf, hf'⟩ | ⟨i, user, user', hf, hf', -⟩
  · rw [hf, hf']
    exact ⟨h, rfl, rfl⟩
  · have hcheck : L.hashCheck ((request.get .password).text.getD "") user.password
        = L.hashCheck ((request.get .password).text.getD "") user'.password := by
      rw [verdict, verdict, show byAccount db _ = some (i, user) from hf,
        show byAccount db' _ = some (i, user') from hf'] at hverdict
      exact Option.some.inj hverdict
    rw [hf, hf', Option.isSome_some, Option.isSome_some, if_pos rfl, if_pos rfl,
      exec_first_idle, exec_first_idle, hf, hf']
    dsimp only
    rw [hcheck]
    split
    · exact seen_update h (Table.first_some hf).1 (Table.first_some hf').1 _
    · exact ⟨h, rfl, rfl⟩

theorem OwnerController.login_seen {L : Laravel} (h : db.Alike db') (env : Env)
    {request : Request}
    (hverdict : OwnerController.verdict L db request = OwnerController.verdict L db' request) :
    Seen ((OwnerController.login L env request).serve db)
      ((OwnerController.login L env request).serve db') := by
  unfold OwnerController.login Prog.serve
  dsimp only
  rw [exec_known_idle, exec_known_idle]
  rcases owners_first h (p := fun _ r => (request.get .account).equalsText r.account)
    fun _ _ => rfl with ⟨hf, hf'⟩ | ⟨i, owner, owner', hf, hf', hshown⟩
  · rw [hf, hf']
    exact ⟨h, rfl, rfl⟩
  · have hcheck : L.hashCheck ((request.get .password).text.getD "") owner.password
        = L.hashCheck ((request.get .password).text.getD "") owner'.password := by
      rw [verdict, verdict, show byAccount db _ = some (i, owner) from hf,
        show byAccount db' _ = some (i, owner') from hf'] at hverdict
      exact Option.some.inj hverdict
    have htoken (r q : Owner) (hrq : r.shown = q.shown) :
        (r.withToken env.random).shown = (q.withToken env.random).shown :=
      congrArg (Owner.withToken env.random) hrq
    rw [hf, hf', Option.isSome_some, Option.isSome_some, if_pos rfl, if_pos rfl,
      exec_first_idle, exec_first_idle, hf, hf']
    dsimp only
    rw [hcheck]
    split
    · rw [Model.exec_update_only_idle (Table.first_some hf).1 owners_nodup (by decide)
          (assign_ownerToken (textColumn_random env)) (clash_ownerAccount rfl),
        Model.exec_update_only_idle (Table.first_some hf').1 owners_nodup (by decide)
          (assign_ownerToken (textColumn_random env)) (clash_ownerAccount rfl)]
      refine ⟨{ h with owners := h.owners.modify htoken }, rfl, ?_⟩
      exact congrArg (fun row => Except.ok (json (.owner i row) 200))
        (htoken owner owner' hshown)
    · exact ⟨h, rfl, rfl⟩

end Loaded

end Spoiler
