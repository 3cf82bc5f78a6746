/-
Restaurants are told apart by their name, link, address and phone.

No index of the database sees to it; the rules do.  `store` requires each of the four
and looks for it in the whole table, `update` looks for the ones it is given in the rest
of the table, and a column only ever takes the text that was looked for.  So each of the
four is checked on every way into its column, which is all the argument uses.
-/
import Spoiler.App.Sample
import Spoiler.Proofs.Restaurants
import Spoiler.Store.Run

namespace Spoiler

open Store Php

/-- A column that both routes check before they write it. -/
structure Checked (a : Attr) (π : Restaurant → String) : Prop where
  column : restaurants.Column a π Value.textColumn
  plain : a ∉ untrimmed ∧ a ≠ .image
  drawn : ∀ {owner request restaurant}, RestaurantController.Drawn owner request restaurant →
    (request.get a).textColumn = some (π restaurant)
  store : ∀ request, ∃ rules, (a, rules) ∈ RestaurantController.storeRules request ∧
    RestaurantController.unique π ∈ rules
  update : ∀ request i, ∃ rules, (a, rules) ∈ RestaurantController.updateRules request i ∧
    RestaurantController.uniqueBut i π ∈ rules

namespace Checked

variable {a : Attr} {π : Restaurant → String} {db : Database} {request : Request}

/-- A new restaurant has a value no restaurant has. -/
theorem opened (h : Checked a π) {owner : Nat} {restaurant : Restaurant}
    (hvalid : failed db request.input (RestaurantController.storeRules request) = [])
    (hm : restaurants.make (RestaurantController.attributes owner request) = some restaurant)
    {j : Nat} {other : Restaurant} (hrow : db.restaurants.row j = some other) :
    π other ≠ π restaurant := by
  obtain ⟨rules, hrules, hunique⟩ := h.store request
  have hcolumn := h.drawn (RestaurantController.drawn_of_make hm)
  have hpass := passes_of_input hvalid hrules hunique h.plain.1 (input_of_textColumn hcolumn)
  intro heq
  refine unique_passes.mp hpass j other hrow rfl ?_
  rw [heq]
  exact Value.text_of_textColumn hcolumn

/-- A restaurant that gets a new value gets one no other restaurant has. -/
theorem remodelled (h : Checked a π) {i : Nat} {restaurant : Restaurant}
    {f : Restaurant → Restaurant}
    (hvalid : failed db request.input (RestaurantController.updateRules request i) = [])
    (hf : restaurants.changes request restaurant = some f)
    (hown : ∀ j other, db.restaurants.row j = some other → j ≠ i → π other ≠ π restaurant)
    {j : Nat} {other : Restaurant} (hrow : db.restaurants.row j = some other) (hj : j ≠ i) :
    π other ≠ π (f restaurant) := by
  rcases h.column.changes h.plain.2 hf with ⟨-, hsame⟩ | ⟨v, s, hv, hs, hset⟩
  · rw [hsame]
    exact hown j other hrow hj
  · obtain ⟨rules, hrules, hunique⟩ := h.update request i
    have hpass := passes_of_input hvalid hrules hunique h.plain.1 hv
    rw [hset]
    intro heq
    refine unique_passes.mp hpass j other hrow (by simpa using hj) ?_
    rw [heq]
    exact Value.text_of_textColumn hs

theorem step (h : Checked a π) {L : Laravel} {step : Step}
    (hcall : step.call.isRestaurant = true) (hdistinct : db.restaurants.Distinct π) :
    (serve L db step).restaurants.Distinct π := by
  have hedits := edits L db step (Call.isEdit_of_isRestaurant hcall)
  obtain ⟨env, call⟩ := step
  dsimp only at hedits hcall
  generalize serve L db ⟨env, call⟩ = db' at hedits ⊢
  cases hedits with
  | still => exact hdistinct
  | @opened owner request restaurant hvalid hm =>
      exact hdistinct.sets (db.restaurants.insert_sets restaurant)
        fun j other hrow _ => h.opened hvalid hm hrow
  | remodelled hl hvalid hf =>
      obtain ⟨-, hrow⟩ := lookup_restaurant hl
      exact hdistinct.sets (Table.modify_sets hrow)
        fun j other => h.remodelled hvalid hf (hdistinct.own hrow)
  | _ => cases hcall

end Checked

theorem checked_name : Checked .name Restaurant.name where
  column := restaurantName_column
  plain := by decide
  drawn h := h.name
  store _ := ⟨_, List.mem_cons_self .., by simp⟩
  update _ _ := ⟨_, List.mem_cons_self .., by simp⟩

theorem checked_link : Checked .link Restaurant.link where
  column := link_column
  plain := by decide
  drawn h := h.link
  store request := ⟨[.required, RestaurantController.unique Restaurant.link],
    by simp [RestaurantController.storeRules], by simp⟩
  update request i := ⟨[RestaurantController.uniqueBut i Restaurant.link],
    by simp [RestaurantController.updateRules], by simp⟩

theorem checked_address : Checked .address Restaurant.address where
  column := address_column
  plain := by decide
  drawn h := h.address
  store request := ⟨[.required, RestaurantController.unique Restaurant.address],
    by simp [RestaurantController.storeRules], by simp⟩
  update request i := ⟨[.string, RestaurantController.uniqueBut i Restaurant.address],
    by simp [RestaurantController.updateRules], by simp⟩

theorem checked_phone : Checked .phone Restaurant.phone where
  column := phone_column
  plain := by decide
  drawn h := h.phone
  store request := ⟨[.required, .digits 9, RestaurantController.unique Restaurant.phone],
    by simp [RestaurantController.storeRules], by simp⟩
  update request i := ⟨[.digits 9, RestaurantController.uniqueBut i Restaurant.phone],
    by simp [RestaurantController.updateRules], by simp⟩

theorem Checked.after {a : Attr} {π : Restaurant → String} (h : Checked a π) {L : Laravel}
    {db : Database} {run : List Step} (hempty : ∀ i, db.restaurants.row i = none)
    (hcalls : ∀ step ∈ run, step.call.isRestaurant = true) :
    (Store.after (serve L) db run).restaurants.Distinct π := by
  have hrun : Along (serve L) (fun _ step => step.call.isRestaurant = true) db run :=
    Along.of_forall fun step hmem _ => hcalls step hmem
  have hstep : ∀ (s : Database) (r : Step), s.restaurants.Distinct π →
      r.call.isRestaurant = true → (serve L s r).restaurants.Distinct π :=
    fun s r hs hc => h.step hc hs
  exact after_invariant hstep (.of_empty hempty) hrun

/-- **Any two restaurants of a reachable state differ in name, link, address and phone.** -/
theorem restaurants_distinct (L : Laravel) (db : Database) (run : List Step)
    (hempty : ∀ i, db.restaurants.row i = none)
    (hcalls : ∀ step ∈ run, step.call.isRestaurant = true) (i j : Nat) (r q : Restaurant)
    (hi : (after (serve L) db run).restaurants.row i = some r)
    (hj : (after (serve L) db run).restaurants.row j = some q) (hne : i ≠ j) :
    r.name ≠ q.name ∧ r.link ≠ q.link ∧ r.address ≠ q.address ∧ r.phone ≠ q.phone :=
  ⟨fun h => hne (checked_name.after hempty hcalls i j r q hi hj h),
    fun h => hne (checked_link.after hempty hcalls i j r q hi hj h),
    fun h => hne (checked_address.after hempty hcalls i j r q hi hj h),
    fun h => hne (checked_phone.after hempty hcalls i j r q hi hj h)⟩

/-- Two restaurants, the second of which asks for the first one's name in vain and is
given another. -/
theorem restaurants_distinct_run :
    let run := [Sample.newRestaurant "north" "021234567" "080000" "200000",
      Sample.newRestaurant "south" "027654321" "080000" "200000",
      Sample.editRestaurant 2 [(.name, .str "north")],
      Sample.editRestaurant 2 [(.name, .str "east"), (.link, .str "east")]]
    let t := (Store.after (serve Sample.laravel) Database.empty run).restaurants
    ∃ r q, t.row 1 = some r ∧ t.row 2 = some q ∧ q.name = "east" ∧
      r.name ≠ q.name ∧ r.link ≠ q.link ∧ r.address ≠ q.address ∧ r.phone ≠ q.phone := by
  intro run t
  have hrows : (t.row 1).isSome = true ∧ (t.row 2).any (fun q => q.name == "east") = true := by
    decide +kernel
  obtain ⟨hfirst, hsecond⟩ := hrows
  obtain ⟨r, hr⟩ := Option.isSome_iff_exists.mp hfirst
  obtain ⟨q, hq, hname⟩ := (Option.any_eq_true _ _).mp hsecond
  exact ⟨r, q, hr, hq, by simpa using hname,
    restaurants_distinct Sample.laravel Database.empty run (fun _ => rfl) (by decide)
      1 2 r q hr hq (by decide)⟩

end Spoiler
