/-
The names on a menu.

A restaurant should not have two foods of one name, and no index of the database sees
to it.  `store` checks the name against the restaurant the food goes to, and `update`
against the restaurant the food is in, when the request carries a name at all.  A
request that also moves the food, or moves it without renaming it, is checked against
the wrong menu, and that is the only way two foods come to share a name.
-/
import Spoiler.App.Sample
import Spoiler.Proofs.Updates
import Spoiler.Store.Run

namespace Spoiler

open Store Php

/-- No two foods of one restaurant share a name. -/
def UniqueNames (db : Database) : Prop :=
  ∀ i j food other, db.foods.row i = some food → db.foods.row j = some other →
    food.restaurantId = other.restaurantId → food.name = other.name → i = j

/-- An update that passes its rules, fits its columns and can be announced, and that moves a
food to a restaurant where another food has the name it will carry there. -/
def collides (db : Database) (step : Step) : Bool :=
  match step.call with
  | .foodUpdate id request =>
      match foods.lookup db id with
      | none => false
      | some (i, food) =>
          (failed db request.input (FoodController.updateRules i food)).isEmpty &&
          (foods.changes request food).isSome &&
          FoodController.announces step.env db request food &&
          FoodController.movedTo request food != food.restaurantId &&
          !(db.foods.filter fun j other => j != i &&
            other.restaurantId == FoodController.movedTo request food &&
            other.name == FoodController.renamedTo request food).isEmpty
  | _ => false

/-- An update collides exactly if it is accepted and meets another food of its name elsewhere. -/
theorem collides_iff {L : Laravel} {db : Database} {env : Env} {id : Value} {request : Request}
    {i : Nat} {food : Food} (hl : foods.lookup db id = some (i, food)) :
    collides db ⟨env, .foodUpdate id request⟩ = true ↔
      isError (answer L db ⟨env, .foodUpdate id request⟩) = false ∧
        FoodController.movedTo request food ≠ food.restaurantId ∧
        ∃ j other, db.foods.row j = some other ∧ j ≠ i ∧
          other.restaurantId = FoodController.movedTo request food ∧
          other.name = FoodController.renamedTo request food := by
  rw [FoodController.accepted_iff hl]
  simp only [collides, hl, Bool.and_eq_true, List.isEmpty_iff, Bool.not_eq_true', bne_iff_ne,
    List.isEmpty_eq_false_iff_exists_mem]
  constructor
  · rintro ⟨⟨⟨⟨hvalid, hfits⟩, hannounced⟩, hmoved⟩, ⟨j, other⟩, hmem⟩
    obtain ⟨hrow, hother⟩ := Table.mem_filter.mp hmem
    simp only [Bool.and_eq_true, bne_iff_ne, ne_eq, beq_iff_eq] at hother
    exact ⟨⟨hvalid, hfits, hannounced⟩, hmoved, j, other, hrow, hother.1.1, hother.1.2, hother.2⟩
  · rintro ⟨⟨hvalid, hfits, hannounced⟩, hmoved, j, other, hrow, hji, hrest, hname⟩
    refine ⟨⟨⟨⟨hvalid, hfits⟩, hannounced⟩, hmoved⟩, (j, other), Table.mem_filter.mpr ⟨hrow, ?_⟩⟩
    simp [hji, hrest, hname]

/-! ### One step -/

/-- A food that is added has a name its restaurant does not have. -/
theorem added_name {db : Database} {request : Request} {food : Food}
    (hvalid : failed db request.input (FoodController.storeRules request) = [])
    (hm : foods.make (FoodController.attributes request) = some food) {j : Nat} {other : Food}
    (hrow : db.foods.row j = some other) (hrest : other.restaurantId = food.restaurantId) :
    other.name ≠ food.name := by
  have hdrawn := FoodController.drawn_of_make hm
  have hplace : (Attr.restaurantId, [Rule.required, Rule.exists_ restaurants.table])
      ∈ FoodController.storeRules request := by
    simp [FoodController.storeRules]
  obtain ⟨r, -, hkey, -⟩ := exists_passes
    (passes_of_required hvalid hplace (by simp) (r := Rule.exists_ restaurants.table) (by simp))
  have hid : food.restaurantId = r := Value.intColumn_of_key hkey hdrawn.restaurantId
  have hunique := unique_passes.mp (passes_of_input hvalid (List.mem_cons_self ..)
    (List.mem_cons_self ..) (by decide) (input_of_textColumn hdrawn.name)) j other hrow
  intro hname
  refine hunique ?_ (by rw [hname]; exact Value.text_of_textColumn hdrawn.name)
  rw [hrest, hid]
  exact Value.equalsInt_of_key hkey

/-- A food that is renamed where it is gets a name no other food there has. -/
theorem renamed {db : Database} {request : Request} {i : Nat} {food : Food}
    (hvalid : failed db request.input (FoodController.updateRules i food) = []) {v : Value}
    {s : String} (hv : request.input .name = some v) (hs : v.textColumn = some s) {j : Nat}
    {other : Food} (hrow : db.foods.row j = some other) (hji : j ≠ i)
    (hrest : other.restaurantId = food.restaurantId) : other.name ≠ s := by
  have hunique := unique_passes.mp (passes_of_input hvalid (List.mem_cons_self ..)
    (List.mem_cons_self ..) (by decide) hv) j other hrow
  intro hname
  refine hunique ?_ (by rw [hname]; exact Value.text_of_textColumn hs)
  simp [hji, hrest]

/-- After an update that does not collide, no other food of the restaurant has the
name of the updated one. -/
theorem updated_name {L : Laravel} {db : Database} {env : Env} {id : Value} {request : Request}
    {i : Nat} {food : Food} {f : Food → Food} (hl : foods.lookup db id = some (i, food))
    (hf : foods.changes request food = some f)
    (haccept : isError (answer L db ⟨env, .foodUpdate id request⟩) = false)
    (hcollide : collides db ⟨env, .foodUpdate id request⟩ = false) (h : UniqueNames db)
    {j : Nat} {other : Food} (hrow : db.foods.row j = some other) (hji : j ≠ i)
    (hrest : other.restaurantId = (f food).restaurantId) : other.name ≠ (f food).name := by
  intro hname
  obtain ⟨hvalid, -, -⟩ := (FoodController.accepted_iff hl).mp haccept
  by_cases hmoved : FoodController.movedTo request food = food.restaurantId
  · rw [FoodController.movedTo_eq hf, hmoved] at hrest
    rcases name_column.changes (by decide) hf with
      ⟨-, hsame⟩ | ⟨v, s, hv, hs, hset⟩
    · rw [hsame] at hname
      exact hji (h j i other food hrow (lookup_food hl).2 hrest hname)
    · rw [hset] at hname
      exact renamed hvalid hv hs hrow hji hrest hname
  · rw [FoodController.movedTo_eq hf] at hrest
    rw [FoodController.renamedTo_eq hf] at hname
    have hcollides := (collides_iff hl).mpr ⟨haccept, hmoved, j, other, hrow, hji, hrest, hname⟩
    rw [hcollide] at hcollides
    cases hcollides

theorem uniqueNames_step {L : Laravel} {db : Database} {step : Step}
    (hfood : step.call.isFood = true) (hcollide : collides db step = false)
    (h : UniqueNames db) : UniqueNames (serve L db step) := by
  have hmoves := moves L db step (.inr hfood)
  generalize serve L db step = db' at hmoves ⊢
  generalize ha : answer L db step = a at hmoves
  intro i j food other hi hj hrest hname
  cases hmoves with
  | still horders hfoods herror =>
      rw [hfoods] at hi hj
      exact h i j food other hi hj hrest hname
  | @added env request new hvalid hm =>
      rcases Table.insert_row_some.mp hi with ⟨rfl, rfl⟩ | hi'
      · rcases Table.insert_row_some.mp hj with ⟨rfl, rfl⟩ | hj'
        · rfl
        · exact absurd hname.symm (added_name hvalid hm hj' hrest.symm)
      · rcases Table.insert_row_some.mp hj with ⟨rfl, rfl⟩ | hj'
        · exact absurd hname (added_name hvalid hm hi' hrest)
        · exact h i j food other hi' hj' hrest hname
  | @changed env id request k old f hl hvalid hf =>
      have haccept : isError (answer L db ⟨env, .foodUpdate id request⟩) = false := by
        rw [ha]
        rfl
      have hchanged : ∀ r, db.foods.row k = some r → f r = f old := by
        intro r hr
        rw [(lookup_food hl).2] at hr
        cases hr
        rfl
      rcases Table.modify_row_some.mp hi with ⟨hik, hi'⟩ | ⟨rfl, r, hr, rfl⟩
      · rcases Table.modify_row_some.mp hj with ⟨-, hj'⟩ | ⟨rfl, r, hr, rfl⟩
        · exact h i j food other hi' hj' hrest hname
        · rw [hchanged r hr] at hrest hname
          exact absurd hname (updated_name hl hf haccept hcollide h hi' hik hrest)
      · rcases Table.modify_row_some.mp hj with ⟨hjk, hj'⟩ | ⟨rfl, -⟩
        · rw [hchanged r hr] at hrest hname
          exact absurd hname.symm
            (updated_name hl hf haccept hcollide h hj' hjk hrest.symm)
        · rfl
  | placed hv hm hn => cases hfood
  | completed hl hsend => cases hfood
  | stranded hl hsend hfail => cases hfood
  | returned hl hsend hf hn => cases hfood

/-- An accepted update writes its changes. -/
theorem foods_of_accepted {L : Laravel} {db : Database} {env : Env} {id : Value}
    {request : Request} {i : Nat} {food : Food} {f : Food → Food}
    (hl : foods.lookup db id = some (i, food)) (hf : foods.changes request food = some f)
    (haccept : isError (answer L db ⟨env, .foodUpdate id request⟩) = false) :
    (serve L db ⟨env, .foodUpdate id request⟩).foods = db.foods.modify i f := by
  have hupdates := Updates.ofFood haccept
  generalize serve L db ⟨env, .foodUpdate id request⟩ = db' at hupdates ⊢
  cases hupdates with
  | food hl' hvalid hf' =>
      cases hl.symm.trans hl'
      cases hf.symm.trans hf'
      rfl

/-- An update that collides leaves two foods of one name. -/
theorem not_uniqueNames_of_collides {L : Laravel} {db : Database} {step : Step}
    (h : collides db step = true) : ¬ UniqueNames (serve L db step) := by
  intro hunique
  obtain ⟨env, call⟩ := step
  cases call with
  | foodUpdate id request =>
      cases hl : foods.lookup db id with
      | none => simp [collides, hl] at h
      | some x =>
          obtain ⟨i, food⟩ := x
          obtain ⟨haccept, -, j, other, hrow, hji, hrest, hname⟩ := (collides_iff (L := L) hl).mp h
          obtain ⟨-, hfits, -⟩ := (FoodController.accepted_iff hl).mp haccept
          obtain ⟨f, hf⟩ := Option.isSome_iff_exists.mp hfits
          have hfoods := foods_of_accepted hl hf haccept
          rw [← FoodController.movedTo_eq hf] at hrest
          rw [← FoodController.renamedTo_eq hf] at hname
          refine hji (hunique j i other (f food) ?_ ?_ hrest hname)
          · rw [hfoods]
            exact Table.modify_row_some.mpr (.inl ⟨hji, hrow⟩)
          · rw [hfoods]
            exact Table.modify_row_some.mpr (.inr ⟨rfl, food, (lookup_food hl).2, rfl⟩)
  | _ => simp [collides] at h

/-! ### Runs -/

/-- **Names stay unique at every point of a run exactly when no update of it moves a
food onto a menu that has its name already.** -/
theorem uniqueNames_iff (L : Laravel) (db : Database) (run : List Step)
    (hfoods : ∀ i, db.foods.row i = none) (hcalls : ∀ step ∈ run, step.call.isFood = true) :
    (∀ pre post, run = pre ++ post → UniqueNames (after (serve L) db pre)) ↔
      Along (serve L) (fun db step => collides db step = false) db run := by
  have hstart : UniqueNames db := by
    intro i j food other hi
    rw [hfoods i] at hi
    cases hi
  have hrun : Along (serve L) (fun _ step => step.call.isFood = true) db run :=
    Along.of_forall fun step hmem _ => hcalls step hmem
  refine points_iff (fun s step hs hc => ⟨fun hnext => ?_, fun hcollides => ?_⟩) hstart hrun
  · exact Bool.eq_false_iff.mpr fun hcollides => not_uniqueNames_of_collides hcollides hnext
  · exact uniqueNames_step hc hcollides hs

theorem uniqueNames_run :
    UniqueNames (after (serve Sample.laravel) Sample.database
      [Sample.newFood "bread" 5 1, Sample.newFood "bread" 5 2, Sample.newFood "cake" 5 1,
        Sample.editFood 3 [(.name, .str "bread")], Sample.editFood 3 [(.restaurantId, .int 2)]]) :=
  (uniqueNames_iff Sample.laravel Sample.database
      [Sample.newFood "bread" 5 1, Sample.newFood "bread" 5 2, Sample.newFood "cake" 5 1,
        Sample.editFood 3 [(.name, .str "bread")], Sample.editFood 3 [(.restaurantId, .int 2)]]
      (fun _ => rfl) (by decide)).mpr (by decide +kernel) _ [] (by simp)

/-- Two restaurants sell bread, and the second one's is moved to the first. -/
theorem moved_onto_namesake :
    let run := [Sample.newFood "bread" 5 1, Sample.newFood "bread" 5 2,
      Sample.editFood 2 [(.restaurantId, .int 1)]]
    let foods := (after (serve Sample.laravel) Sample.database run).foods
    (foods.row 1).map (fun food => (food.restaurantId, food.name)) = some (1, "bread") ∧
      (foods.row 2).map (fun food => (food.restaurantId, food.name)) = some (1, "bread") := by
  decide +kernel

end Spoiler
