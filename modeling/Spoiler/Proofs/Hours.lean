/-
Opening hours.

A restaurant should open before it closes.  `store` takes both times from the request and
compares them.  `update` compares them only when the request carries both; a request with
one of them is not checked against the other one in the row, and that is the only way the
hours come to be out of order.

The rule compares numbers and the row holds times, so the file starts with the six digits
both are made of.
-/
import Spoiler.App.Sample
import Spoiler.Php.Digits
import Spoiler.Proofs.Restaurants
import Spoiler.Store.Run

namespace Spoiler

open Store Php

/-! ### Six digits -/

/-- The number `HHMMSS`. -/
def Time.number (t : Time) : Nat := 10000 * t.hour + 100 * t.minute + t.second

theorem Time.lt_iff_number {s t : Time} : s < t ↔ s.number < t.number := by
  obtain ⟨h, m, c, hs⟩ := s
  obtain ⟨h', m', c', ht⟩ := t
  show 3600 * h + 60 * m + c < 3600 * h' + 60 * m' + c' ↔
    10000 * h + 100 * m + c < 10000 * h' + 100 * m' + c'
  omega

/-- What a `TIME` column stores is spelled by six digits. -/
theorem timeColumn_digits {v : Value} {t : Time} (h : timeColumn v = some t) :
    ∃ cs, Digits v cs ∧ cs.length = 6 ∧ natOf (cs.take 2) = t.hour ∧
      natOf ((cs.drop 2).take 2) = t.minute ∧ natOf (cs.drop 4) = t.second := by
  unfold timeColumn at h
  obtain ⟨s, hs, h⟩ := Option.bind_eq_some_iff.mp h
  dsimp only at h
  split at h
  · rename_i hvalid
    cases h
    refine ⟨s.toList, ⟨by simpa using hs, ?_, ?_⟩, hvalid.1, rfl, rfl, rfl⟩
    · simpa using hvalid.2.1
    · rw [hvalid.1]
      decide
  · cases h

/-- As a number, such a value is the time's. -/
theorem timeColumn_num {v : Value} {t : Time} (h : timeColumn v = some t) :
    v.num? = some ⟨t.number, 0⟩ ∧ v.truthy = true := by
  obtain ⟨cs, hdigits, hlen, hhour, hminute, hsecond⟩ := timeColumn_digits h
  have hnat : natOf cs = t.number := by
    have hdrop : cs.drop 4 = (cs.drop 2).drop 2 := by rw [List.drop_drop]
    have hsplit : cs = cs.take 2 ++ ((cs.drop 2).take 2 ++ cs.drop 4) := by
      rw [hdrop, List.take_append_drop, List.take_append_drop]
    have hrest : ((cs.drop 2).take 2 ++ cs.drop 4).length = 4 := by simp [hlen]
    have hlast : (cs.drop 4).length = 2 := by simp [hlen]
    rw [hsplit, natOf_append, natOf_append, hrest, hlast, hhour, hminute, hsecond]
    unfold Time.number
    omega
  rw [← hnat]
  exact hdigits.num_eq

/-- On two such values the rule `gt` compares the times. -/
theorem lt_of_gt_passes {db : Database} {v w : Value} {s t : Time} (hs : timeColumn v = some s)
    (ht : timeColumn w = some t) (h : (Rule.gt v).passes db w = true) : s < t := by
  rw [Time.lt_iff_number]
  simp only [Rule.gt, (timeColumn_num hs).1, (timeColumn_num ht).1, decide_eq_true_eq] at h
  omega

/-! ### One step -/

/-- Every restaurant opens before it closes. -/
def HoursOrdered (db : Database) : Prop :=
  ∀ i restaurant, db.restaurants.row i = some restaurant →
    restaurant.startTime < restaurant.endTime

/-- An update that passes its rules and fits its columns, and that carries one of the two
times, on the wrong side of the other one in the row. -/
def crosses (db : Database) (step : Step) : Bool :=
  match step.call with
  | .restaurantUpdate id request =>
      match restaurants.lookup db id with
      | none => false
      | some (i, restaurant) =>
          (failed db request.input (RestaurantController.updateRules request i)).isEmpty &&
          (restaurants.changes request restaurant).isSome &&
            match request.input .startTime, request.input .endTime with
            | some v, none => (timeColumn v).any fun start => !decide (start < restaurant.endTime)
            | none, some v => (timeColumn v).any fun stop => !decide (restaurant.startTime < stop)
            | _, _ => false
  | _ => false

/-- A new restaurant has its hours in order. -/
theorem opened_hours {db : Database} {owner : Nat} {request : Request} {restaurant : Restaurant}
    (hvalid : failed db request.input (RestaurantController.storeRules request) = [])
    (hm : restaurants.make (RestaurantController.attributes owner request) = some restaurant) :
    restaurant.startTime < restaurant.endTime := by
  have hdrawn := RestaurantController.drawn_of_make hm
  have hrule : (Attr.endTime, [.required, .digits 6, .gt (request.get .startTime)])
      ∈ RestaurantController.storeRules request := by
    simp [RestaurantController.storeRules]
  exact lt_of_gt_passes hdrawn.startTime hdrawn.endTime
    (passes_of_required hvalid hrule (by simp) (by simp))

/-- A request that carries both times has them in order. -/
theorem both_ordered {db : Database} {request : Request} {i : Nat} {v w : Value} {s t : Time}
    (hvalid : failed db request.input (RestaurantController.updateRules request i) = [])
    (hv : request.input .startTime = some v) (hs : timeColumn v = some s)
    (hw : request.input .endTime = some w) (ht : timeColumn w = some t) : s < t := by
  have hget : request.get .startTime = v := by simp [Request.get, hv]
  have hrule : (Attr.endTime, [Rule.digits 6] ++ RestaurantController.sometimesEnd request)
      ∈ RestaurantController.updateRules request i := by
    simp [RestaurantController.updateRules]
  have hgt : Rule.gt v ∈ [Rule.digits 6] ++ RestaurantController.sometimesEnd request := by
    simp [RestaurantController.sometimesEnd, hget, (timeColumn_num hs).2]
  exact lt_of_gt_passes hs ht (passes_of_input hvalid hrule hgt (by decide) hw)

section Update

variable {L : Laravel} {db : Database} {env : Env} {id : Value} {request : Request} {i : Nat}
  {restaurant : Restaurant} {f : Restaurant → Restaurant}

/-- An update leaves hours that were in order in order exactly if it crosses nothing. -/
theorem remodelled_hours_iff (hl : restaurants.lookup db id = some (i, restaurant))
    (hvalid : failed db request.input (RestaurantController.updateRules request i) = [])
    (hf : restaurants.changes request restaurant = some f)
    (h : restaurant.startTime < restaurant.endTime) :
    (f restaurant).startTime < (f restaurant).endTime ↔
      crosses db ⟨env, .restaurantUpdate id request⟩ = false := by
  simp only [crosses, hl, hvalid, hf, List.isEmpty_nil, Option.isSome_some, Bool.true_and]
  rcases startTime_column.changes (by decide) hf with ⟨hnos, hstart⟩ | ⟨v, s, hv, hs, hstart⟩
  · rcases endTime_column.changes (by decide) hf with ⟨hnoe, hend⟩ | ⟨w, t, hw, ht, hend⟩
    · rw [hstart, hend]
      simp [hnos, hnoe, h]
    · rw [hstart, hend]
      simp [hnos, hw, ht]
  · rcases endTime_column.changes (by decide) hf with ⟨hnoe, hend⟩ | ⟨w, t, hw, ht, hend⟩
    · rw [hstart, hend]
      simp [hv, hs, hnoe]
    · rw [hstart, hend]
      simp [hv, hw, both_ordered hvalid hv hs hw ht]

/-- One that crosses leaves them out of order. -/
theorem not_hours_of_crosses {step : Step} (hbefore : HoursOrdered db)
    (h : crosses db step = true) : ¬ HoursOrdered (serve L db step) := by
  intro hordered
  obtain ⟨env, call⟩ := step
  cases call with
  | restaurantUpdate id request =>
      cases hl : restaurants.lookup db id with
      | none => simp [crosses, hl] at h
      | some x =>
          obtain ⟨i, restaurant⟩ := x
          obtain ⟨-, hrow⟩ := lookup_restaurant hl
          have hpasses := h
          simp only [crosses, hl, Bool.and_eq_true, List.isEmpty_iff,
            Option.isSome_iff_exists] at hpasses
          obtain ⟨⟨hvalid, f, hf⟩, -⟩ := hpasses
          have hlt : (f restaurant).startTime < (f restaurant).endTime := by
            refine hordered i (f restaurant) ?_
            rw [RestaurantController.update_of_valid L env hl hvalid hf]
            exact Table.modify_row_some.mpr (.inr ⟨rfl, restaurant, hrow, rfl⟩)
          rw [(remodelled_hours_iff hl hvalid hf (hbefore i restaurant hrow)).mp hlt] at h
          cases h
  | _ => cases h

end Update

theorem hours_step {L : Laravel} {db : Database} {step : Step}
    (hcall : step.call.isRestaurant = true) (hcross : crosses db step = false)
    (h : HoursOrdered db) : HoursOrdered (serve L db step) := by
  have hedits := edits L db step (Call.isEdit_of_isRestaurant hcall)
  obtain ⟨env, call⟩ := step
  dsimp only at hedits hcall
  generalize serve L db ⟨env, call⟩ = db' at hedits ⊢
  intro j restaurant hj
  cases hedits with
  | still => exact h j restaurant hj
  | opened hvalid hm =>
      rcases Table.insert_row_some.mp hj with ⟨-, rfl⟩ | hj'
      · exact opened_hours hvalid hm
      · exact h j restaurant hj'
  | remodelled hl hvalid hf =>
      rcases Table.modify_row_some.mp hj with ⟨-, hj'⟩ | ⟨rfl, old, hold, rfl⟩
      · exact h j restaurant hj'
      · obtain ⟨-, hrow⟩ := lookup_restaurant hl
        rw [hrow] at hold
        cases hold
        exact (remodelled_hours_iff hl hvalid hf (h j _ hrow)).mpr hcross
  | _ => cases hcall

/-! ### Runs -/

/-- **The hours are in order at every point of a run exactly when no update of it moves
one end of a restaurant's hours past the other.** -/
theorem hoursOrdered_iff (L : Laravel) (db : Database) (run : List Step)
    (hempty : ∀ i, db.restaurants.row i = none)
    (hcalls : ∀ step ∈ run, step.call.isRestaurant = true) :
    (∀ pre post, run = pre ++ post → HoursOrdered (after (serve L) db pre)) ↔
      Along (serve L) (fun db step => crosses db step = false) db run := by
  have hstart : HoursOrdered db := by
    intro i restaurant hi
    rw [hempty i] at hi
    cases hi
  have hrun : Along (serve L) (fun _ step => step.call.isRestaurant = true) db run :=
    Along.of_forall fun step hmem _ => hcalls step hmem
  refine points_iff (fun s step hs hc => ⟨fun hnext => ?_, fun hcross => ?_⟩) hstart hrun
  · exact Bool.eq_false_iff.mpr fun hcross => not_hours_of_crosses hs hcross hnext
  · exact hours_step hc hcross hs

/-- A restaurant moves its hours into the night, both ends at a time or one after the
other. -/
theorem hoursOrdered_run :
    HoursOrdered (after (serve Sample.laravel) Database.empty
      [Sample.newRestaurant "north" "021234567" "080000" "200000",
        Sample.editRestaurant 1 [(.startTime, .str "210000"), (.endTime, .str "230000")],
        Sample.editRestaurant 1 [(.startTime, .str "200000")],
        Sample.editRestaurant 1 [(.endTime, .str "220000")]]) :=
  (hoursOrdered_iff Sample.laravel Database.empty
      [Sample.newRestaurant "north" "021234567" "080000" "200000",
        Sample.editRestaurant 1 [(.startTime, .str "210000"), (.endTime, .str "230000")],
        Sample.editRestaurant 1 [(.startTime, .str "200000")],
        Sample.editRestaurant 1 [(.endTime, .str "220000")]]
      (fun _ => rfl) (by decide)).mpr (by decide +kernel) _ [] (by simp)

theorem HoursOrdered.all {db : Database} (h : HoursOrdered db) (i : Nat) :
    ((db.restaurants.row i).all fun r => decide (r.startTime < r.endTime)) = true := by
  cases hrow : db.restaurants.row i with
  | none => rfl
  | some restaurant => exact decide_eq_true (h i restaurant hrow)

/-- A restaurant that opens at eight is made to close at seven. -/
theorem closes_before_it_opens :
    ¬ HoursOrdered (after (serve Sample.laravel) Database.empty
      [Sample.newRestaurant "north" "021234567" "080000" "200000",
        Sample.editRestaurant 1 [(.endTime, .str "070000")]]) :=
  fun h => absurd (h.all 1) (by decide +kernel)

end Spoiler
