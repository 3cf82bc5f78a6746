/-
Sending an update twice.

An update that was accepted should be accepted again, and then change nothing and announce
nothing.  The second part holds throughout: every column already has what the request writes
into it, so Eloquent has no statement to issue, and the number of portions is not above the
one stored.  What may fail is the validation.  A restaurant's rules leave its own row out of
account.  A user's do not, and the account just written is taken, by the user.  A food's do,
but they look for the name among the foods of the restaurant it had, and after a move the
second request looks among those of the new one.
-/
import Spoiler.Php.Digits
import Spoiler.Proofs.Updates

namespace Spoiler

open Store Php

/-! ### Nothing to write -/

section Clean

variable {ρ : Type} {M : Model ρ} {db : Database}

theorem Model.update_clean [DecidableEq ρ] {i : Nat} {row : ρ} {attributes : Attributes}
    (h : M.dirty attributes row M.fillable = some id) : M.update i row attributes = .ret row := by
  unfold update
  rw [h]
  simp

theorem Model.lookup_modify {v : Value} {i : Nat} {row : ρ} {f : ρ → ρ}
    (hl : M.lookup db v = some (i, row)) :
    M.lookup (M.table.set db ((M.table.get db).modify i f)) v = some (i, f row) := by
  obtain ⟨hkey, hrow⟩ := Model.lookup_some.mp hl
  refine Model.lookup_some.mpr ⟨hkey, ?_⟩
  rw [M.table.get_set, Table.modify_row, if_pos rfl, hrow]
  rfl

end Clean

/-- The request is accepted and nothing happens. -/
structure Uneventful (db : Database) (o : Outcome Database Event Exn Response) : Prop where
  accepted : isError o.answer = false
  state : o.state = db
  events : o.events = []

section Second

variable {L : Laravel} {env : Env} {db : Database} {id : Value} {request : Request} {i : Nat}

theorem UserController.update_uneventful {user : User} (hl : users.lookup db id = some (i, user))
    (hvalid : failed db request.input (updateRules L) = [])
    (hclean : users.dirty request.input user users.fillable = some (fun r => r)) :
    Uneventful db ((update L id request).serve db) := by
  unfold update Prog.serve
  rw [Model.exec_counted_idle, hl, Option.isSome_some, if_pos rfl]
  simp only [Request.validate, Prog.select_bind, Prog.exec_select, Conn.view_idle,
    Conn.looked_idle, hvalid, Prog.ret_bind]
  rw [Model.exec_find_idle, hl]
  dsimp only
  rw [Model.update_clean hclean]
  exact ⟨rfl, rfl, rfl⟩

theorem FoodController.update_uneventful {food : Food} (hl : foods.lookup db id = some (i, food))
    (hvalid : failed db request.input (updateRules i food) = [])
    (hfile : request.fileUrl .image = none)
    (hclean : foods.dirty (request.except .image) food foods.fillable = some (fun r => r))
    (hraised : raised request food.remaining = false) :
    Uneventful db ((update env id request).serve db) := by
  rw [update_eq, Prog.serve, Model.exec_find_idle, hl]
  dsimp only
  unfold updateBody updateImage Model.updateImage
  rw [exec_validated, hvalid]
  simp only [hfile, Prog.pure_eq, Prog.ret_bind, Model.update_clean hclean, hraised]
  exact ⟨rfl, rfl, rfl⟩

theorem RestaurantController.update_uneventful {restaurant : Restaurant}
    (hl : restaurants.lookup db id = some (i, restaurant))
    (hvalid : failed db request.input (updateRules request i) = [])
    (hfile : request.fileUrl .image = none)
    (hclean : restaurants.dirty (request.except .image) restaurant restaurants.fillable
      = some (fun r => r)) :
    Uneventful db ((update id request).serve db) := by
  rw [update_eq, Prog.serve, Model.exec_find_idle, hl]
  dsimp only
  unfold updateBody updateImage Model.updateImage
  rw [exec_validated, hvalid]
  simp only [hfile, Prog.pure_eq, Prog.ret_bind, Model.update_clean hclean]
  exact ⟨rfl, rfl, rfl⟩

end Second

/-! ### Validation the second time -/

/-- A rule about the other rows sees none of what an update wrote. -/
theorem unique_modify {ρ : Type} {T : TableOf Database ρ} {column : ρ → String}
    {scope : Nat → ρ → Bool} {db : Database} {i : Nat} {f : ρ → ρ}
    (hscope : ∀ r, scope i r = false) (v : Value) :
    (Rule.unique T column scope).passes (T.set db ((T.get db).modify i f)) v
      = (Rule.unique T column scope).passes db v := by
  rw [Bool.eq_iff_iff, unique_passes, unique_passes, T.get_set]
  have hother : ∀ j r, scope j r = true → j ≠ i := by
    rintro j r hj rfl
    rw [hscope] at hj
    cases hj
  constructor
  · intro h j r hrow hj
    exact h j r (by rw [Table.modify_row, if_neg (hother j r hj)]; exact hrow) hj
  · intro h j r hrow hj
    rw [Table.modify_row, if_neg (hother j r hj)] at hrow
    exact h j r hrow hj

/-- The rules of a restaurant. -/
theorem RestaurantController.valid_again {db : Database} {request : Request} {i : Nat}
    {f : Restaurant → Restaurant}
    (h : failed db request.input (updateRules request i) = []) :
    failed { db with restaurants := db.restaurants.modify i f } request.input
      (updateRules request i) = [] := by
  have hunique : ∀ column v, (uniqueBut i column).passes
      { db with restaurants := db.restaurants.modify i f } v
        = (uniqueBut i column).passes db v := by
    intro column v
    exact unique_modify (T := restaurants.table) (by simp) v
  have hend : ∀ r ∈ sometimesEnd request, ∀ v,
      r.passes { db with restaurants := db.restaurants.modify i f } v = r.passes db v := by
    unfold sometimesEnd
    split
    · simp only [List.forall_mem_cons]
      exact ⟨fun _ => rfl, fun _ => rfl, by simp⟩
    · simp
  refine (failed_congr ?_).trans h
  simp only [updateRules, List.forall_mem_cons, List.forall_mem_append, List.not_mem_nil,
    false_implies, implies_true, and_true]
  -- field by field, rules that read no table and rules about the other rows
  exact ⟨⟨fun _ => rfl, hunique Restaurant.name⟩, fun _ => rfl, fun _ => rfl, fun _ => rfl,
    fun _ => rfl, ⟨fun _ => rfl, hend⟩, hunique Restaurant.link,
    ⟨fun _ => rfl, hunique Restaurant.address⟩, ⟨fun _ => rfl, fun _ => rfl⟩,
    fun _ => rfl, hunique Restaurant.phone⟩

/-- The rules of a user, when the account is not among the fields. -/
theorem UserController.valid_again {L : Laravel} {db db' : Database} {request : Request}
    (haccount : request.input .account = none)
    (h : failed db request.input (updateRules L) = []) :
    failed db' request.input (updateRules L) = [] := by
  rw [failed_eq_nil] at h ⊢
  simp only [updateRules, List.forall_mem_cons, List.not_mem_nil, false_implies, implies_true,
    and_true] at h ⊢
  obtain ⟨-, hemail, hpassword⟩ := h
  refine ⟨?_, hemail, hpassword⟩
  rintro (himplicit | hblank)
  · cases himplicit
  · rw [haccount] at hblank
    cases hblank

/-- A food of the same name at the restaurant the food is at then. -/
def FoodController.Namesake (db : Database) (request : Request) (i : Nat) (food : Food) : Prop :=
  ∃ v j other, request.input .name = some v ∧ db.foods.row j = some other ∧ j ≠ i ∧
    other.restaurantId = movedTo request food ∧ v.text = some other.name

section Food

open FoodController

variable {db : Database} {request : Request} {i : Nat} {food : Food} {f : Food → Food}

/-- The second time a food's name is looked for where the food is now. -/
theorem FoodController.name_again (hf : foods.changes request food = some f) {v : Value}
    (hv : request.input .name = some v) :
    (Rule.unique foods.table Food.name fun j r => j != i &&
        r.restaurantId == (f food).restaurantId).passes
      { db with foods := db.foods.modify i f } v = true ↔ ¬ Namesake db request i food := by
  rw [unique_passes, movedTo_eq hf]
  have hrow : ∀ j, j ≠ i → (db.foods.modify i f).row j = db.foods.row j := by
    intro j hj
    rw [Table.modify_row, if_neg hj]
  constructor
  · rintro h ⟨w, j, other, hw, hother, hj, hplace, hname⟩
    cases hv.symm.trans hw
    exact h j other ((hrow j hj).trans hother) (by simp [hj, hplace]) hname
  · intro h j other hother hscope hname
    simp only [Bool.and_eq_true, bne_iff_ne, beq_iff_eq] at hscope
    exact h ⟨v, j, other, hv, (hrow j hscope.1).symm.trans hother, hscope.1, hscope.2, hname⟩

/-- The rules of a food, when it has no namesake where it is then. -/
theorem FoodController.valid_again (hf : foods.changes request food = some f)
    (hnames : ¬ Namesake db request i food)
    (h : failed db request.input (updateRules i food) = []) :
    failed { db with foods := db.foods.modify i f } request.input
      (updateRules i (f food)) = [] := by
  rw [failed_eq_nil] at h ⊢
  simp only [updateRules, List.forall_mem_cons, List.not_mem_nil, false_implies, implies_true,
    and_true] at h ⊢
  -- the other rules read the request and the restaurants only
  obtain ⟨-, hremaining, hprice, hdiscount, himage, hrestaurant⟩ := h
  refine ⟨?_, hremaining, hprice, hdiscount, himage, hrestaurant⟩
  rintro (himplicit | hblank)
  · cases himplicit
  · cases hv : request.input .name with
    | none =>
        rw [hv] at hblank
        cases hblank
    | some v => exact (name_again hf hv).mpr hnames

/-- The stock is not above what it was set to. -/
theorem FoodController.not_raised_again
    (h : failed db request.input (updateRules i food) = [])
    (hf : foods.changes request food = some f) :
    raised request (f food).remaining = false := by
  unfold raised
  rcases remaining_column.changes (by decide) hf with ⟨hnone, -⟩ | ⟨v, n, hv, hn, hset⟩
  · rw [hnone]
  · have hrule : (Attr.remaining, [Rule.integer]) ∈ updateRules i food := by simp [updateRules]
    have hinteger : Rule.integer.passes db v = true :=
      passes_of_input h hrule (by simp) (by decide) hv
    rw [hv, hset]
    exact gtInt_of_intColumn hinteger hn

end Food

/-! ### Both requests -/

/-- The request carries an image file. -/
def Call.hasFile : Call → Bool
  | userUpdate _ request => (request.fileUrl .image).isSome
  | foodUpdate _ request => (request.fileUrl .image).isSome
  | restaurantUpdate _ request => (request.fileUrl .image).isSome
  | _ => false

/-- A user's update does not name the account; a food's does not give it the name of another
food of the restaurant it is at afterwards. -/
def Call.Repeatable (db : Database) : Call → Prop
  | userUpdate _ request => request.input .account = none
  | foodUpdate id request => ∀ i food, foods.lookup db id = some (i, food) →
      ¬ FoodController.Namesake db request i food
  | _ => True

section Retry

variable {L : Laravel} {db : Database} {env' : Env} {id : Value} {request : Request} {i : Nat}

theorem UserController.retry_iff {user : User} {f : User → User}
    (hl : users.lookup db id = some (i, user))
    (hvalid : failed db request.input (updateRules L) = [])
    (hf : users.dirty request.input user users.fillable = some f) :
    Uneventful { db with users := db.users.modify i f }
        (respond L { db with users := db.users.modify i f } ⟨env', .userUpdate id request⟩) ↔
      request.input .account = none := by
  constructor
  · intro h
    have hupdates := Updates.ofUser h.accepted
    generalize serve L { db with users := db.users.modify i f } _ = db' at hupdates
    cases hupdates with
    | user hl' hvalid' hf' =>
        rcases account_column.dirty hf with ⟨hnone, -⟩ | ⟨v, account, hv, haccount, hset⟩
        · exact hnone
        · -- the account is the one the user has by now
          have hrule : (Attr.account, [Rule.unique users.table User.account fun _ _ => true])
              ∈ updateRules L := by
            simp [updateRules]
          have hpass := unique_passes.mp
            (passes_of_input hvalid' hrule (List.mem_singleton_self _) (by decide) hv)
          have hthere := (Model.lookup_some.mp (Model.lookup_modify (f := f) hl)).2
          refine absurd (Value.text_of_textColumn haccount) ?_
          rw [← hset]
          exact hpass i (f user) hthere rfl
  · intro haccount
    exact UserController.update_uneventful (Model.lookup_modify hl)
      (UserController.valid_again haccount hvalid) (Model.dirty_again users_settles hf)

theorem FoodController.retry_iff {food : Food} {f : Food → Food}
    (hl : foods.lookup db id = some (i, food))
    (hvalid : failed db request.input (updateRules i food) = [])
    (hf : foods.changes request food = some f) (hfile : request.fileUrl .image = none) :
    Uneventful { db with foods := db.foods.modify i f }
        (respond L { db with foods := db.foods.modify i f } ⟨env', .foodUpdate id request⟩) ↔
      ¬ Namesake db request i food := by
  have hl' := Model.lookup_modify (f := f) hl
  constructor
  · rintro h ⟨v, j, other, hv, hother⟩
    have hupdates := Updates.ofFood h.accepted
    generalize serve L { db with foods := db.foods.modify i f } _ = db' at hupdates
    cases hupdates with
    | food hl'' hvalid' hf' =>
        cases hl'.symm.trans hl''
        have hrule : (Attr.name, [Rule.unique foods.table Food.name
            fun j r => j != i && r.restaurantId == (f food).restaurantId])
              ∈ updateRules i (f food) := by
          simp [updateRules]
        exact (name_again hf hv).mp
          (passes_of_input hvalid' hrule (List.mem_singleton_self _) (by decide) hv)
          ⟨v, j, other, hv, hother⟩
  · intro hnames
    exact FoodController.update_uneventful hl' (FoodController.valid_again hf hnames hvalid) hfile
      (Model.changes_again foods_settles hfile hf) (FoodController.not_raised_again hvalid hf)

theorem RestaurantController.retry {restaurant : Restaurant} {f : Restaurant → Restaurant}
    (hl : restaurants.lookup db id = some (i, restaurant))
    (hvalid : failed db request.input (updateRules request i) = [])
    (hf : restaurants.changes request restaurant = some f)
    (hfile : request.fileUrl .image = none) :
    Uneventful { db with restaurants := db.restaurants.modify i f }
      (respond L { db with restaurants := db.restaurants.modify i f }
        ⟨env', .restaurantUpdate id request⟩) :=
  RestaurantController.update_uneventful (Model.lookup_modify hl)
    (RestaurantController.valid_again hvalid) hfile
    (Model.changes_again restaurants_settles hfile hf)

end Retry

/-- **An accepted update without a file is accepted again, changes nothing and announces
nothing, if and only if it does not name a user's account and gives no food the name of another
one where it then is.** -/
theorem retries_iff (L : Laravel) (db : Database) (env env' : Env) (call : Call)
    (hcall : call.isUpdate = true) (hfile : call.hasFile = false)
    (haccept : isError (answer L db ⟨env, call⟩) = false) :
    Uneventful (serve L db ⟨env, call⟩) (respond L (serve L db ⟨env, call⟩) ⟨env', call⟩) ↔
      call.Repeatable db := by
  have hupdates := updates hcall haccept
  generalize serve L db ⟨env, call⟩ = db' at hupdates ⊢
  cases hupdates with
  | user hl hvalid hf => exact UserController.retry_iff hl hvalid hf
  | @food id request i food f hl hvalid hf =>
      have hnone : request.fileUrl .image = none := by simpa [Call.hasFile] using hfile
      rw [FoodController.retry_iff hl hvalid hf hnone]
      constructor
      · intro h j food' hl'
        cases hl.symm.trans hl'
        exact h
      · intro h
        exact h i food hl
  | @restaurant id request i restaurant f hl hvalid hf =>
      have hnone : request.fileUrl .image = none := by simpa [Call.hasFile] using hfile
      exact iff_of_true (RestaurantController.retry hl hvalid hf hnone) trivial

/-- A change of the number of portions may be sent twice. -/
theorem retries_stock :
    Uneventful (serve Sample.laravel Sample.town (Sample.editFood 1 [(.remaining, .int 9)]))
      (respond Sample.laravel
        (serve Sample.laravel Sample.town (Sample.editFood 1 [(.remaining, .int 9)]))
        (Sample.editFood 1 [(.remaining, .int 9)])) :=
  (retries_iff Sample.laravel Sample.town Sample.env Sample.env
    (Sample.editFood 1 [(.remaining, .int 9)]).call rfl (by decide +kernel)
    (by decide +kernel)).mpr (by
      rintro i food - ⟨v, j, other, hv, -⟩
      cases hv)

/-- The town after a food of the first restaurant has got a namesake at the second. -/
def Sample.breads : Database := serve Sample.laravel Sample.town (Sample.newFood "bread" 3 2)

/-- A new account may not, and nor may a move that names the food. -/
theorem retries_refused :
    (isError (answer Sample.laravel Sample.town
        ⟨Sample.env, .userUpdate (.int 1) (Sample.request [(.account, .str "anna")])⟩) = false ∧
      isError (answer Sample.laravel
        (serve Sample.laravel Sample.town
          ⟨Sample.env, .userUpdate (.int 1) (Sample.request [(.account, .str "anna")])⟩)
        ⟨Sample.env, .userUpdate (.int 1) (Sample.request [(.account, .str "anna")])⟩) = true) ∧
    isError (answer Sample.laravel Sample.breads
        (Sample.editFood 1 [(.name, .str "bread"), (.restaurantId, .int 2)])) = false ∧
      isError (answer Sample.laravel
        (serve Sample.laravel Sample.breads
          (Sample.editFood 1 [(.name, .str "bread"), (.restaurantId, .int 2)]))
        (Sample.editFood 1 [(.name, .str "bread"), (.restaurantId, .int 2)])) = true := by
  decide +kernel

end Spoiler
