/-
Requests in flight on the same rows.

From the statement that reads a row to the statement that writes it a request holds the
row: what it goes on to write was computed from what it read.  Stock, the other columns
of a food (its card) and the state of an order are held separately, because a handler
writes only the columns it changes.  `Apart` says that no two requests hold the same
thing at once, which is what a lock would see to; nothing in the handlers does.

The rest of the file says what the checks depend on: the verdict on an order is a matter
of one food's stock, and an update is a matter of the cards.
-/
import Spoiler.Proofs.Inside

namespace Spoiler

open Store Php

/-- The requests that read stock and write it back. -/
def Call.isContended : Call → Bool
  | orderStore _ _ => true
  | orderCancel _ => true
  | foodUpdate _ _ => true
  | _ => false

variable {ι : Type}

abbrev Flight := Process Database Event Exn Response

/-- The requests arrive together. -/
def inFlight (L : Laravel) (db : Database) (requests : ι → Step) :
    Pool ι Database Event Exn Response :=
  .start db fun a => (requests a).call.handler L (requests a).env

/-! ### Windows -/

/-- The food whose stock a request has read and not yet written.  `store` holds it from
its snapshot to its commit if the checks pass there, `cancel` from its write of the order
on, and an update that carries a stock from the moment the food is loaded. -/
def heldStock (r : Step) (p : Flight) (db : Database) : Option Nat :=
  if p.prog.ended then none
  else match r.call with
    | .orderStore user request => p.conn.snap.bind fun snap =>
        match OrderController.verdict snap user request,
          orders.make (OrderController.attributes r.env user request) with
        | .ok (i, _), some _ => some i
        | _, _ => none
    | .orderCancel id =>
        if 3 ≤ p.issued then (orders.lookup db id).bind fun x => (Value.int x.2.foodId).key?
        else none
    | .foodUpdate id request =>
        if 1 ≤ p.issued ∧ (request.input .remaining).isSome = true then id.key? else none
    | _ => none

/-- The food an update has loaded and not yet written. -/
def heldCard (r : Step) (p : Flight) : Option Nat :=
  if p.prog.ended then none
  else match r.call with
    | .foodUpdate id _ => if 1 ≤ p.issued then id.key? else none
    | _ => none

/-- The order a cancellation has loaded and not yet written. -/
def heldOrder (r : Step) (p : Flight) : Option Nat :=
  if p.prog.ended then none
  else match r.call with
    | .orderCancel id => if p.issued = 2 then id.key? else none
    | _ => none

/-- Both hold the same row. -/
def sameRow (x y : Option Nat) : Bool := x.isSome && x == y

/-- No two requests hold the same stock, the same card or the same order. -/
def Apart (requests : ι → Step) (pool : Pool ι Database Event Exn Response) : Prop :=
  ∀ a b, a ≠ b →
    sameRow (heldStock (requests a) (pool.procs a) pool.state)
        (heldStock (requests b) (pool.procs b) pool.state) = false ∧
      sameRow (heldCard (requests a) (pool.procs a))
        (heldCard (requests b) (pool.procs b)) = false ∧
      sameRow (heldOrder (requests a) (pool.procs a))
        (heldOrder (requests b) (pool.procs b)) = false

/-- An update that is about to commit would still pass its validation. -/
def stillValid (r : Step) (p : Flight) (db : Database) : Bool :=
  match r.call, p.prog with
  | .foodUpdate id request, .commit _ =>
      match foods.lookup db id with
      | some (i, food) =>
          (failed db request.input (FoodController.updateRules i food)).isEmpty
      | none => true
  | _, _ => true

theorem ne_of_sameRow {x y : Option Nat} {i : Nat} (h : sameRow x y = false) (hx : x = some i) :
    y ≠ some i := by
  rintro rfl
  subst hx
  simp [sameRow] at h

/-! ### What an order depends on -/

section Verdict

open OrderController

variable {db db' : Database} {user : Nat} {request : Request} {i : Nat} {food row : Food}

theorem admission_congr (h : db'.deprivateLists = db.deprivateLists) :
    admission db' user request = admission db user request := by
  unfold admission records
  rw [h]

theorem rules_congr (h : row.remaining = food.remaining) :
    rules request row = rules request food := by
  unfold rules
  rw [h]

theorem failed_rules_congr (hkey : (request.get .foodId).key? = some i)
    (hrow : db'.foods.row i = some row) (h : failed db request.input (rules request food) = []) :
    failed db' request.input (rules request food) = [] := by
  rw [failed_eq_nil] at h ⊢
  intro f hf r hr himplicit
  have hpass := h f hf r hr himplicit
  simp only [rules, List.mem_cons, List.not_mem_nil, or_false] at hf
  rcases hf with rfl | rfl | rfl
  · -- only the rule on `food_id` looks at the tables
    simp only [List.mem_cons, List.not_mem_nil, or_false] at hr
    rcases hr with rfl | rfl
    · exact hpass
    · exact exists_passes_of_row (T := foods.table) hkey hrow
  · simp only [List.mem_cons, List.not_mem_nil, or_false] at hr
    rcases hr with rfl | rfl <;> exact hpass
  · simp only [List.mem_cons, List.not_mem_nil, or_false] at hr
    rcases hr with rfl | rfl <;> exact hpass

/-- An order that passes the checks passes them wherever the stock is the same. -/
theorem verdict_congr (hlists : db'.deprivateLists = db.deprivateLists)
    (hv : verdict db user request = .ok (i, food)) (hrow : db'.foods.row i = some row)
    (hrem : row.remaining = food.remaining) : verdict db' user request = .ok (i, row) := by
  obtain ⟨hl, hvalid, hallowed⟩ := verdict_ok.mp hv
  obtain ⟨hkey, -⟩ := lookup_food hl
  refine verdict_ok.mpr ⟨Model.lookup_some.mpr ⟨hkey, hrow⟩, ?_, ?_⟩
  · rw [rules_congr hrem]
    exact failed_rules_congr hkey hrow hvalid
  · rw [admission_congr hlists]
    exact hallowed

theorem deducted_congr (env : Env) (v : Value) (hrem : row.remaining = food.remaining) :
    deducted env row v = deducted env food v := by
  unfold deducted
  rw [hrem]

/-- The commit of an order writes its row and the stock. -/
theorem applyAll_placed {s : Database} {order : Order} {k : Nat} {n : Int}
    (hrow : s.foods.row i = some row) (hrem : row.remaining = food.remaining) :
    applyAll (foods.buffered [putOrder order k] i food (Food.stocked n)) s
      = { s with
          orders := s.orders.put k order
          foods := s.foods.modify i (Food.stocked n) } := by
  refine Model.applyAll_buffered_of (M := foods) hrow fun hclean => ?_
  rw [stocked_eq_self] at hclean ⊢
  rw [hclean, hrem]

end Verdict

/-! ### What an update depends on -/

section Update

variable {db db' : Database} {request : Request} {attributes : Attributes} {i : Nat}
  {food row : Food} {f g : Food → Food}

/-- Two rows with the same card. -/
def SameCard (row food : Food) : Prop := row.stocked 0 = food.stocked 0

theorem SameCard.stocked (n : Int) (food : Food) : SameCard (food.stocked n) food := rfl

theorem SameCard.restaurantId (h : SameCard row food) :
    row.restaurantId = food.restaurantId := by
  have hcard : (row.stocked 0).restaurantId = (food.stocked 0).restaurantId := by rw [h]
  exact hcard

theorem SameCard.name (h : SameCard row food) : row.name = food.name := by
  have hcard : (row.stocked 0).name = (food.stocked 0).name := by rw [h]
  exact hcard

theorem SameCard.eq (h : SameCard row food) (hrem : row.remaining = food.remaining) :
    row = food := by
  have hback : ∀ r : Food, (r.stocked 0).stocked r.remaining = r := fun _ => rfl
  calc row = (row.stocked 0).stocked row.remaining := (hback row).symm
    _ = (food.stocked 0).stocked food.remaining := by rw [h, hrem]
    _ = food := hback food

/-- Assigning a column of the card does not touch the stock, nor look at it. -/
theorem assign_stocked {a : Attr} {v : Value} (ha : a ≠ .remaining)
    (hg : foods.assign a v = some g) (r : Food) (n : Int) : g (r.stocked n) = (g r).stocked n := by
  cases a <;> first
    | exact absurd rfl ha
    | (obtain ⟨x, -, rfl⟩ := Option.map_eq_some_iff.mp hg; rfl)
    | cases hg

theorem assign_clean {a : Attr} {v : Value} (ha : a ≠ .remaining) (hg : foods.assign a v = some g)
    (h : SameCard row food) : g row = row ↔ g food = food := by
  have hone : ∀ {r q : Food}, SameCard r q → g r = r → g q = q := by
    intro r q hrq hr
    have hcard : SameCard (g q) q := by
      show (g q).stocked 0 = q.stocked 0
      rw [← assign_stocked ha hg, ← hrq, assign_stocked ha hg, hr]
    exact hcard.eq (remaining_column.keeps a ha v g hg q)
  exact ⟨hone h, hone h.symm⟩

/-- Which columns change, and how, is the same for rows with the same card. -/
theorem dirty_card (hrem : attributes .remaining = none) (h : SameCard row food) (l : List Attr) :
    foods.dirty attributes row l = foods.dirty attributes food l := by
  induction l with
  | nil => rfl
  | cons a rest ih =>
      simp only [Model.dirty]
      cases hv : attributes a with
      | none => exact ih
      | some v =>
          have ha : a ≠ .remaining := by
            rintro rfl
            rw [hrem] at hv
            cases hv
          dsimp only
          cases hg : foods.assign a v with
          | none => rfl
          | some g =>
              rw [ih]
              simp only [Option.bind_eq_bind, Option.bind_some, assign_clean ha hg h]

/-- Changes of the card and of the stock can be made in either order. -/
theorem dirty_stocked (hrem : attributes .remaining = none) {l : List Attr}
    (hg : foods.dirty attributes food l = some g) (r : Food) (n : Int) :
    g (r.stocked n) = (g r).stocked n := by
  induction l generalizing g r with
  | nil =>
      cases hg
      rfl
  | cons a rest ih =>
      simp only [Model.dirty] at hg
      cases hv : attributes a with
      | none =>
          rw [hv] at hg
          exact ih hg r
      | some v =>
          have ha : a ≠ .remaining := by
            rintro rfl
            rw [hrem] at hv
            cases hv
          rw [hv] at hg
          simp only [Option.bind_eq_bind, Option.bind_eq_some_iff, Option.some.injEq] at hg
          obtain ⟨f, hf, g', hg', rfl⟩ := hg
          split
          · exact ih hg' r
          · rw [Function.comp_apply, Function.comp_apply, assign_stocked ha hf, ih hg']

/-- A row in the state an update may find instead of the one it loaded: with the same
card, and with the same stock if the update carries one. -/
def Matches (request : Request) (row food : Food) : Prop :=
  SameCard row food ∧
    ((request.input .remaining).isSome = true → row.remaining = food.remaining)

theorem Matches.refl (request : Request) (food : Food) : Matches request food food :=
  ⟨rfl, fun _ => rfl⟩

theorem Matches.trans {row' : Food} (h : Matches request row' row) (h' : Matches request row food) :
    Matches request row' food :=
  ⟨h.1.trans h'.1, fun hc => (h.2 hc).trans (h'.2 hc)⟩

theorem Matches.symm (h : Matches request row food) : Matches request food row :=
  ⟨h.1.symm, fun hc => (h.2 hc).symm⟩

/-- An update either found its own row again or does not carry a stock. -/
theorem Matches.cases (h : Matches request row food) :
    row = food ∨ request.input .remaining = none := by
  cases hin : request.input .remaining with
  | none => exact .inr rfl
  | some v => exact .inl (h.1.eq (h.2 (by rw [hin]; rfl)))

theorem image_stocked (hf : foods.imageChange request = some f) (r : Food) (n : Int) :
    f (r.stocked n) = (f r).stocked n := by
  unfold Model.imageChange at hf
  split at hf
  · cases hf
    rfl
  · exact assign_stocked (by decide) hf r n

theorem except_remaining (h : request.input .remaining = none) :
    request.except .image .remaining = none := by
  simp [Request.except, h]

theorem image_sameCard (hf : foods.imageChange request = some f) (h : SameCard row food) :
    SameCard (f row) (f food) := by
  show (f row).stocked 0 = (f food).stocked 0
  rw [← image_stocked hf, ← image_stocked hf, h]

/-- An update changes any such row as it would change its own. -/
theorem changes_matches (h : Matches request row food) :
    foods.changes request row = foods.changes request food := by
  rcases h.cases with rfl | hrem
  · rfl
  · unfold Model.changes
    cases hf : foods.imageChange request with
    | none => rfl
    | some f =>
        simp only [Option.bind_eq_bind, Option.bind_some]
        rw [dirty_card (except_remaining hrem) (image_sameCard hf h.1)]

/-- Such a change and a change of stock can be made in either order. -/
theorem changes_stocked (hrem : request.input .remaining = none)
    (hf : foods.changes request food = some f) (r : Food) (n : Int) :
    f (r.stocked n) = (f r).stocked n := by
  simp only [Model.changes, Option.bind_eq_bind, Option.bind_eq_some_iff, Option.some.injEq] at hf
  obtain ⟨g, hg, h, hh, rfl⟩ := hf
  rw [Function.comp_apply, Function.comp_apply, image_stocked hg,
    dirty_stocked (except_remaining hrem) hh]

theorem changes_of (hf : foods.imageChange request = some f)
    (hg : foods.dirty (request.except .image) (f food) foods.fillable = some g) :
    foods.changes request food = some (g ∘ f) := by
  rw [Model.changes, hf, Option.bind_eq_bind, Option.bind_some, hg]
  rfl

/-- An update of the loaded `food` is turned down in `db`: the validation fails, a value
does not fit its column, or the new stock cannot be announced. -/
def TurnsDown (env : Env) (request : Request) (i : Nat) (food : Food) (db : Database) : Prop :=
  ∀ f, failed db request.input (FoodController.updateRules i food) = [] →
    foods.changes request food = some f →
    FoodController.raised request food.remaining = true ∧
      announce env db (f food).restaurantId ≠ .ok ()

/-- An update either is turned down in its snapshot or is going to commit. -/
theorem update_outcomes (env : Env) (request : Request) (i : Nat) (food : Food) :
    ∃ k, FoodController.updateBody env request i food = .beginTransaction (.select k) ∧ ∀ snap,
      ((k snap).inner snap [] = .stops ∧ TurnsDown env request i food snap) ∨
        ∃ f g tail, foods.imageChange request = some f ∧
          foods.dirty (request.except .image) (f food) foods.fillable = some g ∧
          (FoodController.raised request food.remaining = true →
            announce env snap (g (f food)).restaurantId = .ok ()) ∧
          (k snap).inner snap [] = .commits (FoodController.updateWrites i food f g) tail ∧
          tail.Quiet := by
  obtain ⟨k, hk, hinner⟩ := FoodController.updateBody_inner env request i food
  refine ⟨k, hk, fun snap => ?_⟩
  rw [hinner snap]
  unfold TurnsDown
  cases hvalid : failed snap request.input (FoodController.updateRules i food) with
  | cons e es => exact .inl ⟨rfl, fun f hnil => absurd hnil (List.cons_ne_nil e es)⟩
  | nil =>
      dsimp only
      cases hf : foods.imageChange request with
      | none =>
          refine .inl ⟨rfl, fun f _ hchanges => ?_⟩
          rw [Model.changes, hf] at hchanges
          cases hchanges
      | some f =>
          dsimp only
          cases hg : foods.dirty (request.except .image) (f food) foods.fillable with
          | none =>
              refine .inl ⟨rfl, fun f' _ hchanges => ?_⟩
              rw [Model.changes, hf, Option.bind_eq_bind, Option.bind_some, hg] at hchanges
              cases hchanges
          | some g =>
              dsimp only
              by_cases hraised : FoodController.raised request food.remaining = true
              · rw [if_pos hraised]
                cases ha : announce env snap (g (f food)).restaurantId with
                | error e =>
                    refine .inl ⟨rfl, fun f' _ hchanges => ⟨hraised, ?_⟩⟩
                    rw [changes_of hf hg] at hchanges
                    cases hchanges
                    rw [Function.comp_apply, ha]
                    simp
                | ok u => exact .inr ⟨f, g, _, rfl, hg, fun _ => ha, rfl, trivial⟩
              · rw [if_neg hraised]
                exact .inr ⟨f, g, _, rfl, hg, fun h => absurd h hraised, rfl, trivial⟩

/-- An update that does not carry a stock leaves it alone. -/
theorem changes_remaining (hrem : request.input .remaining = none)
    (hf : foods.changes request food = some f) (r : Food) : (f r).remaining = r.remaining := by
  have hback : f r = (f r).stocked r.remaining := changes_stocked hrem hf r r.remaining
  rw [hback]
  rfl

/-- The changed rows still have the same card. -/
theorem changes_card (h : Matches request row food)
    (hf : foods.changes request food = some f) : SameCard (f row) (f food) := by
  rcases h.cases with rfl | hrem
  · rfl
  · show (f row).stocked 0 = (f food).stocked 0
    rw [← changes_stocked hrem hf, ← changes_stocked hrem hf, h.1]

theorem raised_congr (h : Matches request row food) :
    FoodController.raised request row.remaining
      = FoodController.raised request food.remaining := by
  rcases h.cases with rfl | hrem
  · rfl
  · unfold FoodController.raised
    rw [hrem]

/-- The commit of an update makes the change of the request. -/
theorem applyAll_updated {s : Database} (hrow : s.foods.row i = some row)
    (hmatch : Matches request row food) (hf : foods.imageChange request = some f)
    (hg : foods.dirty (request.except .image) (f food) foods.fillable = some g) :
    applyAll (FoodController.updateWrites i food f g) s
      = { s with foods := s.foods.modify i (g ∘ f) } := by
  -- what the request leaves alone in the row it loaded, it leaves alone in the other
  have hsame : ∀ {h : Food → Food} {r q : Food}, (∀ n, h (r.stocked n) = (h r).stocked n) →
      (∀ n, h (q.stocked n) = (h q).stocked n) → (h q).remaining = q.remaining →
      SameCard q r → h r = r → h q = q := by
    intro h r q hr hq hkeep hcard hclean
    have hcard' : SameCard (h q) q := by
      show (h q).stocked 0 = q.stocked 0
      rw [← hq, hcard, hr, hclean]
    exact hcard'.eq hkeep
  have hfirst : applyAll (foods.buffered [] i food f) s
      = { s with foods := s.foods.modify i f } := by
    refine Model.applyAll_buffered_of (M := foods) hrow fun hclean => ?_
    exact hsame (image_stocked hf food) (image_stocked hf row)
      (FoodController.imageChange_remaining hf row) hmatch.1 hclean
  have hthere : (foods.table.get (applyAll (foods.buffered [] i food f) s)).row i
      = some (f row) := by
    rw [hfirst, foods_get, Table.modify_row, if_pos rfl, hrow]
    rfl
  have hsecond : g (f food) = f food → g (f row) = f row := by
    rcases hmatch.cases with rfl | hrem
    · exact id
    · have hstock := dirty_stocked (except_remaining hrem) hg
      have hcard := image_sameCard hf hmatch.1
      have hg' := hg
      rw [← dirty_card (except_remaining hrem) hcard] at hg'
      refine hsame (hstock (f food)) (hstock (f row)) ?_ hcard
      rcases remaining_column.dirty hg' with ⟨-, h⟩ | ⟨v, x, hv, -, -⟩
      · exact h
      · rw [except_remaining hrem] at hv
        cases hv
  unfold FoodController.updateWrites
  rw [Model.applyAll_buffered_of (M := foods) hthere hsecond, hfirst, ← Table.modify_modify]
  rfl

/-- The same cards in both states. -/
def SameCards (db' db : Database) : Prop :=
  ∀ j, (db'.foods.row j).map (Food.stocked 0) = (db.foods.row j).map (Food.stocked 0)

theorem SameCards.symm (h : SameCards db' db) : SameCards db db' := fun j => (h j).symm

theorem SameCards.found (h : SameCards db' db) {j : Nat} (hrow : db'.foods.row j = some row) :
    ∃ food, db.foods.row j = some food ∧ SameCard row food := by
  have hj := h j
  rw [hrow] at hj
  obtain ⟨food, hfood, heq⟩ := Option.map_eq_some_iff.mp hj.symm
  exact ⟨food, hfood, heq.symm⟩

theorem unique_of_cards {scope : Nat → Food → Bool} {v : Value} (h : SameCards db' db)
    (hscope : ∀ j r q, SameCard r q → scope j r = scope j q)
    (hpass : (Rule.unique foods.table Food.name scope).passes db v = true) :
    (Rule.unique foods.table Food.name scope).passes db' v = true := by
  rw [unique_passes] at hpass ⊢
  intro j r hr hin
  obtain ⟨q, hq, hcard⟩ := h.found hr
  rw [hcard.name]
  exact hpass j q hq (by rw [← hscope j r q hcard]; exact hin)

/-- The validation of an update is a matter of the cards and of the restaurants. -/
theorem failed_update_congr (h : SameCards db' db) (hrest : db'.restaurants = db.restaurants)
    (hcard : SameCard row food) (input : Attributes) :
    failed db' input (FoodController.updateRules i row)
      = failed db input (FoodController.updateRules i food) := by
  have hrules : FoodController.updateRules i row = FoodController.updateRules i food := by
    unfold FoodController.updateRules
    rw [hcard.restaurantId]
  rw [hrules]
  have hscope : ∀ (j : Nat) (r q : Food), SameCard r q →
      (j != i && r.restaurantId == food.restaurantId)
        = (j != i && q.restaurantId == food.restaurantId) := by
    intro j r q hrq
    rw [hrq.restaurantId]
  refine failed_congr fun f hf r hr v => ?_
  simp only [FoodController.updateRules, List.mem_cons, List.not_mem_nil, or_false] at hf
  rcases hf with rfl | rfl | rfl | rfl | rfl | rfl <;>
    simp only [List.mem_cons, List.not_mem_nil, or_false] at hr
  · subst hr
    exact Bool.eq_iff_iff.mpr ⟨unique_of_cards h.symm hscope, unique_of_cards h hscope⟩
  · subst hr
    rfl
  · subst hr
    rfl
  · subst hr
    rfl
  · rcases hr with rfl | rfl <;> rfl
  · subst hr
    exact exists_passes_congr (T := restaurants.table) hrest v

theorem announce_congr {env : Env} {n : Int} (hrest : db'.restaurants = db.restaurants) :
    announce env db' n = announce env db n := by
  unfold announce Model.lookup
  rw [show restaurants.table.get db' = restaurants.table.get db from hrest]

end Update

end Spoiler
