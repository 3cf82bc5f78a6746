/-
Subscriptions as a set of pairs.

The table of subscriptions is a bag: nothing keeps a pair from being stored twice, and
`cancel` deletes one row by its own id.  Both pages read it through a join that has an
entry for each row, so what they show is a set exactly as long as no pair is stored
while it has a row.
-/
import Spoiler.App.Catalogue
import Spoiler.Proofs.References

namespace Spoiler

open Store Php

/-! ### The log -/

/-- A pair an accepted request is about, and whether the request stores it. -/
structure Change where
  user : Nat
  restaurant : Nat
  stored : Bool
  deriving DecidableEq, Repr

def Call.isSubscript : Call → Bool
  | subscriptStore _ => true
  | subscriptCancel _ => true
  | _ => false

/-- The call stores a subscription. -/
def Call.stores : Call → Bool
  | subscriptStore _ => true
  | _ => false

/-- What a request adds to the log: the pair of the row it stores or deletes. -/
def changes (L : Laravel) (db : Database) (step : Step) : List Change :=
  match answer L db step with
  | .ok ⟨200, .subscription _ row⟩ =>
      match (Value.int row.userId).key?, (Value.int row.restaurantId).key? with
      | some u, some r => [⟨u, r, step.call.stores⟩]
      | _, _ => []
  | _ => []

/-- The log of a run. -/
def changeLog (L : Laravel) (db : Database) (run : List Step) : List Change :=
  trace (serve L) (changes L) db run

/-- The latest request about the pair was a store. -/
def subscribed (log : List Change) (u r : Nat) : Bool :=
  (latest Change.user (log.filter fun e => e.restaurant == r) u).any Change.stored

/-- The page lists `k` once if it should and not at all otherwise. -/
def Lists {ρ : Type} (page : List (Nat × ρ)) (k : Nat) (should : Bool) : Prop :=
  (page.map Prod.fst).count k ≤ 1 ∧ (k ∈ page.map Prod.fst ↔ should = true)

/-- Both pages show the set of the pairs stored last. -/
def AsSet (db : Database) (log : List Change) : Prop := ∀ u r,
  Lists (User.subscriptRestaurant db u) r (subscribed log u r) ∧
    Lists (Restaurant.subscriptUser db r) u (subscribed log u r)

/-- The request is valid and stores a pair that has a row already. -/
def storesAgain (db : Database) (step : Step) : Bool :=
  match step.call with
  | .subscriptStore request =>
      (failed db request.input SubscriptController.rules).isEmpty &&
        (subscriptions.make (SubscriptController.attributes request)).any fun row =>
          decide (db.subscriptions.copies row ≠ 0)
  | _ => false

theorem subscribed_self {log : List Change} {u r : Nat} {b : Bool} :
    subscribed (log ++ [⟨u, r, b⟩]) u r = b := by
  simp [subscribed, List.filter_append, latest_self]

theorem subscribed_other {log : List Change} {e : Change} {u r : Nat}
    (h : ¬ (e.user = u ∧ e.restaurant = r)) :
    subscribed (log ++ [e]) u r = subscribed log u r := by
  unfold subscribed
  rw [List.filter_append]
  by_cases hr : e.restaurant = r
  · have hu : e.user ≠ u := fun hu => h ⟨hu, hr⟩
    rw [List.filter_cons_of_pos (by simpa using hr), List.filter_nil, latest_other hu]
  · rw [List.filter_cons_of_neg (by simpa using hr), List.filter_nil, List.append_nil]

/-! ### The pages -/

/-- A pair as a row. -/
abbrev pair (u r : Nat) : Subscription := ⟨u, r⟩

section Pages

variable {db : Database} {u r : Nat}

theorem count_subscriptRestaurant (h : db.subscriptions.All (Subscription.Refers db)) :
    ((User.subscriptRestaurant db u).map Prod.fst).count r = db.subscriptions.copies (pair u r) := by
  unfold User.subscriptRestaurant Table.copies Table.filter
  rw [List.map_filterMap, List.count, List.countP_filterMap, List.countP_filter]
  refine List.countP_congr fun ⟨i, s⟩ hmem => ?_
  obtain ⟨-, k, hk, hrow⟩ := h i s (Table.mem_rows.mp hmem)
  obtain ⟨restaurant, hrow⟩ := Option.isSome_iff_exists.mp hrow
  obtain ⟨n, m⟩ := s
  dsimp only at hk
  subst hk
  simp [hrow, and_comm]

theorem count_subscriptUser (h : db.subscriptions.All (Subscription.Refers db)) :
    ((Restaurant.subscriptUser db r).map Prod.fst).count u = db.subscriptions.copies (pair u r) := by
  unfold Restaurant.subscriptUser Table.copies Table.filter
  rw [List.map_filterMap, List.count, List.countP_filterMap, List.countP_filter]
  refine List.countP_congr fun ⟨i, s⟩ hmem => ?_
  obtain ⟨⟨k, hk, hrow⟩, -⟩ := h i s (Table.mem_rows.mp hmem)
  obtain ⟨user, hrow⟩ := Option.isSome_iff_exists.mp hrow
  obtain ⟨n, m⟩ := s
  dsimp only at hk
  subst hk
  simp [hrow]

end Pages

/-- How often a page lists `k` says all there is to say. -/
theorem lists_iff {ρ : Type} {page : List (Nat × ρ)} {k n : Nat} {should : Bool}
    (hn : (page.map Prod.fst).count k = n) :
    Lists page k should ↔ n = if should = true then 1 else 0 := by
  unfold Lists
  rw [← List.count_pos_iff, hn]
  cases should with
  | true =>
      simp only [iff_true, if_true]
      omega
  | false =>
      simp only [Bool.false_eq_true, iff_false, if_false]
      omega

theorem asSet_iff {db : Database} {log : List Change}
    (h : db.subscriptions.All (Subscription.Refers db)) :
    AsSet db log ↔ ∀ u r, db.subscriptions.copies (pair u r)
      = if subscribed log u r = true then 1 else 0 := by
  unfold AsSet
  refine forall_congr' fun u => forall_congr' fun r => ?_
  rw [lists_iff (count_subscriptRestaurant h), lists_iff (count_subscriptUser h), and_self]

/-! ### One request -/

/-- What a subscription request leaves of `db` and answers. -/
inductive Subscribes (db : Database) : Call → Database × Except Exn Response → Prop
  | invalid {request : Request} {a : Except Exn Response} (herror : isError a = true)
      (hinvalid : failed db request.input SubscriptController.rules ≠ []) :
      Subscribes db (.subscriptStore request) (db, a)
  | misfit {request : Request} {a : Except Exn Response} (herror : isError a = true)
      (hm : subscriptions.make (SubscriptController.attributes request) = none) :
      Subscribes db (.subscriptStore request) (db, a)
  | missing {id : Value} {a : Except Exn Response} (herror : isError a = true) :
      Subscribes db (.subscriptCancel id) (db, a)
  | stored {request : Request} {row : Subscription}
      (hvalid : failed db request.input SubscriptController.rules = [])
      (hm : subscriptions.make (SubscriptController.attributes request) = some row) :
      Subscribes db (.subscriptStore request)
        ({ db with subscriptions := db.subscriptions.insert row },
          .ok (json (.subscription db.subscriptions.next row) 200))
  | cancelled {id : Value} {i : Nat} {row : Subscription}
      (hrow : db.subscriptions.row i = some row) :
      Subscribes db (.subscriptCancel id)
        ({ db with subscriptions := db.subscriptions.erase i },
          .ok (json (.subscription i row) 200))

theorem subscribes (L : Laravel) (db : Database) (step : Step)
    (h : step.call.isSubscript = true) :
    Subscribes db step.call (serve L db step, answer L db step) := by
  obtain ⟨env, call⟩ := step
  cases call with
  | subscriptStore request =>
      show Subscribes db _ ((SubscriptController.store request).serve db).result
      rw [SubscriptController.store_result]
      cases hvalid : failed db request.input SubscriptController.rules with
      | cons e es => exact .invalid rfl (by simp [hvalid])
      | nil =>
          dsimp only
          cases hm : subscriptions.make (SubscriptController.attributes request) with
          | none => exact .misfit rfl hm
          | some row => exact .stored hvalid hm
  | subscriptCancel id =>
      show Subscribes db _ ((SubscriptController.cancel id).serve db).result
      rw [SubscriptController.cancel_result]
      cases hl : subscriptions.lookup db id with
      | none => exact .missing rfl
      | some x => exact .cancelled (Model.lookup_some.mp hl).2
  | _ => cases h

theorem pair_inj {u r u' r' : Nat} : pair u r = pair u' r' ↔ u = u' ∧ r = r' := by
  simp [pair]

/-- After a request about one pair the pages are right when they are right about it. -/
theorem copies_iff {t t' : Table Subscription} {log : List Change} {u r : Nat} {b : Bool}
    (h : ∀ u' r', t.copies (pair u' r') = if subscribed log u' r' = true then 1 else 0)
    (hother : ∀ u' r', ¬ (u = u' ∧ r = r') → t'.copies (pair u' r') = t.copies (pair u' r')) :
    (∀ u' r', t'.copies (pair u' r')
        = if subscribed (log ++ [⟨u, r, b⟩]) u' r' = true then 1 else 0) ↔
      t'.copies (pair u r) = if b = true then 1 else 0 := by
  constructor
  · intro hall
    have hthis := hall u r
    rwa [subscribed_self] at hthis
  · intro hthis u' r'
    by_cases hsame : u = u' ∧ r = r'
    · obtain ⟨rfl, rfl⟩ := hsame
      rw [subscribed_self]
      exact hthis
    · rw [subscribed_other hsame, hother u' r' hsame]
      exact h u' r'

/-- A row that refers is a pair. -/
theorem Subscription.Refers.pair {db : Database} {row : Subscription} (h : row.Refers db) :
    ∃ u r, row = Spoiler.pair u r := by
  obtain ⟨⟨u, hu, -⟩, ⟨r, hr, -⟩⟩ := h
  obtain ⟨n, m⟩ := row
  dsimp only at hu hr
  exact ⟨u, r, by rw [hu, hr]⟩

section Steps

variable {L : Laravel} {db : Database} {log : List Change} {step : Step}

theorem refers_step (hcall : step.call.isSubscript = true)
    (h : db.subscriptions.All (Subscription.Refers db)) :
    (serve L db step).subscriptions.All (Subscription.Refers (serve L db step)) := by
  have hsub := subscribes L db step hcall
  generalize serve L db step = db' at hsub ⊢
  generalize answer L db step = a at hsub
  generalize step.call = call at hsub
  cases hsub with
  | stored hvalid hm =>
      exact h.sets (db.subscriptions.insert_sets _) (subscribed_refers hvalid hm)
  | @cancelled id i row hrow => exact h.erase i
  | _ => exact h

theorem changes_of_error (h : isError (answer L db step) = true) : changes L db step = [] := by
  unfold changes
  split
  · rename_i heq
    rw [heq] at h
    simp [isError] at h
  · rfl

/-- A refused request changes nothing, and stores nothing again. -/
theorem asSet_refused (hset : AsSet db log) (herror : isError (answer L db step) = true)
    (hagain : storesAgain db step = false) :
    AsSet db (log ++ changes L db step) ↔ storesAgain db step = false := by
  rw [changes_of_error herror, List.append_nil]
  exact iff_of_true hset hagain

theorem asSet_step (hcall : step.call.isSubscript = true)
    (h : db.subscriptions.All (Subscription.Refers db)) (hset : AsSet db log) :
    AsSet (serve L db step) (log ++ changes L db step) ↔ storesAgain db step = false := by
  have hcopies := (asSet_iff h).mp hset
  have hrefers := refers_step (L := L) hcall h
  have hsub := subscribes L db step hcall
  obtain ⟨env, call⟩ := step
  generalize serve L db ⟨env, call⟩ = db' at hsub hrefers ⊢
  generalize ha : answer L db ⟨env, call⟩ = a at hsub
  dsimp only at hsub
  cases hsub with
  | invalid herror hinvalid =>
      exact asSet_refused hset (by rw [ha]; exact herror) (by simp [storesAgain, hinvalid])
  | misfit herror hm =>
      exact asSet_refused hset (by rw [ha]; exact herror) (by simp [storesAgain, hm])
  | missing herror => exact asSet_refused hset (by rw [ha]; exact herror) rfl
  | @stored request row hvalid hm =>
      obtain ⟨u, r, rfl⟩ := (subscribed_refers hvalid hm).pair
      have hchanges : changes L db ⟨env, .subscriptStore request⟩ = [⟨u, r, true⟩] := by
        simp [changes, ha, json, Call.stores]
      have hagain : storesAgain db ⟨env, .subscriptStore request⟩ = false ↔
          db.subscriptions.copies (pair u r) = 0 := by
        simp [storesAgain, hvalid, hm]
      rw [asSet_iff hrefers, hchanges, hagain, copies_iff hcopies]
      · simp [Table.copies_insert]
      · intro u' r' hne
        rw [Table.copies_insert, if_neg (mt pair_inj.mp hne), Nat.add_zero]
  | @cancelled id i row hrow =>
      obtain ⟨u, r, rfl⟩ := (h i row hrow).pair
      have hchanges : changes L db ⟨env, .subscriptCancel id⟩ = [⟨u, r, false⟩] := by
        simp [changes, ha, json, Call.stores]
      rw [asSet_iff hrefers, hchanges, copies_iff hcopies]
      · -- the row deleted was the only one of its pair
        refine iff_of_true ?_ rfl
        have herase := Table.copies_erase hrow (pair u r)
        rw [hcopies u r, if_pos rfl] at herase
        show (db.subscriptions.erase i).copies (pair u r) = 0
        split at herase <;> omega
      · intro u' r' hne
        rw [Table.copies_erase hrow (pair u' r'), if_neg (mt pair_inj.mp hne), Nat.add_zero]

end Steps

/-! ### Runs -/

/-- **The pages show the set of the pairs stored last, at every point of a run, exactly
when no request of it stores a pair that has a row.** -/
theorem subscriptions_set_iff (L : Laravel) (db : Database) (run : List Step)
    (hempty : ∀ i, db.subscriptions.row i = none)
    (hcalls : ∀ step ∈ run, step.call.isSubscript = true) :
    (∀ pre post, run = pre ++ post → AsSet (after (serve L) db pre) (changeLog L db pre)) ↔
      Along (serve L) (fun db step => storesAgain db step = false) db run := by
  have hrefers : db.subscriptions.All (Subscription.Refers db) := .of_empty hempty
  have hstart : AsSet db [] :=
    (asSet_iff hrefers).mpr fun u r => Table.copies_of_empty hempty (pair u r)
  have hrun : Along (serve L) (fun _ step => step.call.isSubscript = true) db run :=
    Along.of_forall fun step hmem _ => hcalls step hmem
  have hkeep : ∀ (s : Database) (l : List Change) (step : Step),
      s.subscriptions.All (Subscription.Refers s) → step.call.isSubscript = true →
      (serve L s step).subscriptions.All (Subscription.Refers (serve L s step)) :=
    fun s _ step hs hc => refers_step hc hs
  have hiff : (∀ pre post, run = pre ++ post → AsSet (after (serve L) db pre)
        ([] ++ trace (serve L) (changes L) db pre)) ↔
      Along (serve L) (fun db step => storesAgain db step = false) db run :=
    trace_points_iff hkeep (fun s l step hs hl hc => asSet_step hc hs hl) hrefers hstart hrun
  exact hiff

/-- Two users subscribe, one cancels and subscribes again. -/
theorem subscriptions_set_run :
    AsSet (after (serve Sample.laravel) { Sample.town with subscriptions := .empty }
        [Sample.subscribe 1 1, Sample.subscribe 2 1, Sample.unsubscribe 1, Sample.subscribe 1 1])
      (changeLog Sample.laravel { Sample.town with subscriptions := .empty }
        [Sample.subscribe 1 1, Sample.subscribe 2 1, Sample.unsubscribe 1, Sample.subscribe 1 1]) :=
  (subscriptions_set_iff Sample.laravel { Sample.town with subscriptions := .empty }
    [Sample.subscribe 1 1, Sample.subscribe 2 1, Sample.unsubscribe 1, Sample.subscribe 1 1]
    (fun _ => rfl) (by decide)).mpr (by decide +kernel) _ [] (by simp)

/-- A user subscribes twice and is listed twice, and cancels once and is listed still. -/
theorem subscribed_twice :
    let db := { Sample.town with subscriptions := .empty }
    let twice := [Sample.subscribe 1 1, Sample.subscribe 1 1]
    let cancelled := twice ++ [Sample.unsubscribe 1]
    ((User.subscriptRestaurant (after (serve Sample.laravel) db twice) 1).map Prod.fst) = [1, 1] ∧
      ((Restaurant.subscriptUser (after (serve Sample.laravel) db twice) 1).map Prod.fst)
        = [1, 1] ∧
      ((User.subscriptRestaurant (after (serve Sample.laravel) db cancelled) 1).map Prod.fst)
        = [1] ∧
      subscribed (changeLog Sample.laravel db cancelled) 1 1 = false := by
  decide +kernel

end Spoiler
