/-
The life of an order.

The abstract machine has three states: an order is opened, and from there it is
either completed or cancelled for good.  The table spreads the state over two
columns, so the abstraction is partial: a row that is complete and no longer sent
stands for nothing.  `cancel` asks whether an order is still sent but not whether it
is complete, and that is the one transition of the code the machine does not have.
-/
import Spoiler.App.Sample
import Spoiler.Proofs.Stock
import Spoiler.Store.Run

namespace Spoiler

open Store Php

/-! ### The abstract machine -/

inductive Status
  | opened | completed | cancelled
  deriving DecidableEq, Repr

/-- The transitions: out of `opened` only. -/
def Status.Leads (s s' : Status) : Prop := s = s' ∨ s = .opened

theorem Status.Leads.refl (s : Status) : s.Leads s := .inl rfl

theorem Status.Leads.trans {s t u : Status} (hst : s.Leads t) (htu : t.Leads u) : s.Leads u := by
  rcases hst with rfl | rfl
  · exact htu
  · exact .inr rfl

/-- The state two columns stand for. -/
def Order.status (order : Order) : Option Status :=
  match order.complete, order.send with
  | false, true => some .opened
  | true, true => some .completed
  | false, false => some .cancelled
  | true, false => none

/-! ### One step -/

/-- The request cancels an order that is complete. -/
def cancelsComplete (db : Database) (step : Step) : Bool :=
  match step.call with
  | .orderCancel id => ((orders.lookup db id).map fun x => x.2.complete).getD false
  | _ => false

/-- How the order in a row of the table comes out of a request. -/
inductive Evolves (db : Database) (step : Step) (i : Nat) : Order → Order → Prop
  | same {order : Order} : Evolves db step i order order
  | completed {order : Order} (hsend : order.send = true) :
      Evolves db step i order order.completed
  | cancelled {order : Order} {id : Value} (hcall : step.call = .orderCancel id)
      (hl : orders.lookup db id = some (i, order)) (hsend : order.send = true) :
      Evolves db step i order order.cancelled

/-- Writing one order makes that order evolve and no other. -/
theorem evolves_modify {db : Database} {step : Step} {id : Value} {i j : Nat} {order old : Order}
    {g : Order → Order} (hl : orders.lookup db id = some (j, old))
    (hev : Evolves db step j old (g old)) (hrow : db.orders.row i = some order) :
    ∃ order', (db.orders.modify j g).row i = some order' ∧ Evolves db step i order order' := by
  by_cases hij : i = j
  · subst hij
    have hold : some order = some old := by rw [← hrow, (lookup_order hl).2]
    cases hold
    exact ⟨g order, Table.modify_row_some.mpr (.inr ⟨rfl, order, hrow, rfl⟩), hev⟩
  · exact ⟨order, Table.modify_row_some.mpr (.inl ⟨hij, hrow⟩), .same⟩

/-- An order stays in the table and evolves. -/
theorem evolves_of_moves {db db' : Database} {step : Step} {a : Except Exn Response}
    (hmoves : Moves db step (db', a)) {i : Nat} {order : Order}
    (hrow : db.orders.row i = some order) :
    ∃ order', db'.orders.row i = some order' ∧ Evolves db step i order order' := by
  cases hmoves with
  | still horders hfoods herror => exact ⟨order, by rw [horders, hrow], .same⟩
  | placed hv hm hn => exact ⟨order, Table.insert_row_some.mpr (.inr hrow), .same⟩
  | completed hl hsend => exact evolves_modify hl (.completed hsend) hrow
  | stranded hl hsend hfail => exact evolves_modify hl (.cancelled rfl hl hsend) hrow
  | returned hl hsend hf hn => exact evolves_modify hl (.cancelled rfl hl hsend) hrow
  | added hvalid hm => exact ⟨order, hrow, .same⟩
  | changed hl hvalid hf => exact ⟨order, hrow, .same⟩

/-- An order that was not there is opened. -/
theorem opened_of_moves {db db' : Database} {step : Step} {a : Except Exn Response}
    (hmoves : Moves db step (db', a)) {i : Nat} {order : Order}
    (hnone : db.orders.row i = none) (hrow : db'.orders.row i = some order) :
    order.status = some .opened := by
  have hold : db.orders.row i ≠ some order := by
    intro h
    rw [hnone] at h
    cases h
  have hmodify : ∀ j g, (db.orders.modify j g).row i ≠ some order := by
    intro j g h
    rw [Table.modify_row_none hnone] at h
    cases h
  cases hmoves with
  | still horders hfoods herror => exact absurd (by rwa [horders] at hrow) hold
  | placed hv hm hn =>
      rcases Table.insert_row_some.mp hrow with ⟨-, rfl⟩ | hrow'
      · have hdrawn := OrderController.drawn_of_make hm
        simp [Order.status, hdrawn.complete, hdrawn.send]
      · exact absurd hrow' hold
  | completed hl hsend => exact absurd hrow (hmodify _ _)
  | stranded hl hsend hfail => exact absurd hrow (hmodify _ _)
  | returned hl hsend hf hn => exact absurd hrow (hmodify _ _)
  | added hvalid hm => exact absurd hrow hold
  | changed hl hvalid hf => exact absurd hrow hold

/-- Evolving follows the machine unless a complete order is cancelled. -/
theorem leads_of_evolves {db : Database} {step : Step} {i : Nat} {order order' : Order} {s : Status}
    (hev : Evolves db step i order order') (hs : order.status = some s)
    (hcancel : cancelsComplete db step = false) :
    ∃ s', order'.status = some s' ∧ s.Leads s' := by
  cases hev with
  | same => exact ⟨s, hs, .refl s⟩
  | completed hsend =>
      refine ⟨.completed, by simp [Order.status, Order.completed, hsend], ?_⟩
      cases hc : order.complete with
      | false =>
          simp only [Order.status, hc, hsend, Option.some.injEq] at hs
          exact .inr hs.symm
      | true =>
          simp only [Order.status, hc, hsend, Option.some.injEq] at hs
          exact .inl hs.symm
  | cancelled hcall hl hsend =>
      have hc : order.complete = false := by simpa [cancelsComplete, hcall, hl] using hcancel
      refine ⟨.cancelled, by simp [Order.status, Order.cancelled, hc], ?_⟩
      simp only [Order.status, hc, hsend, Option.some.injEq] at hs
      exact .inr hs.symm

/-! ### Runs -/

/-- Every order of the second database is where it was in the first, or was opened there. -/
def Progresses (db db' : Database) : Prop :=
  ∀ i order s, db.orders.row i = some order → order.status = some s →
    ∃ order' s', db'.orders.row i = some order' ∧ order'.status = some s' ∧ s.Leads s'

/-- Every order is in one of the three states. -/
def Classified (db : Database) : Prop :=
  ∀ i order, db.orders.row i = some order → ∃ s, order.status = some s

theorem Progresses.refl (db : Database) : Progresses db db :=
  fun _ order s hrow hs => ⟨order, s, hrow, hs, .refl s⟩

theorem Progresses.trans {a b c : Database} (hab : Progresses a b) (hbc : Progresses b c) :
    Progresses a c := by
  intro i order s hrow hs
  obtain ⟨order', s', hrow', hs', hlead⟩ := hab i order s hrow hs
  obtain ⟨order'', s'', hrow'', hs'', hlead'⟩ := hbc i order' s' hrow' hs'
  exact ⟨order'', s'', hrow'', hs'', hlead.trans hlead'⟩

theorem progresses_of_moves {db db' : Database} {step : Step} {a : Except Exn Response}
    (hmoves : Moves db step (db', a)) (hcancel : cancelsComplete db step = false) :
    Progresses db db' := by
  intro i order s hrow hs
  obtain ⟨order', hrow', hev⟩ := evolves_of_moves hmoves hrow
  obtain ⟨s', hs', hlead⟩ := leads_of_evolves hev hs hcancel
  exact ⟨order', s', hrow', hs', hlead⟩

theorem classified_of_moves {db db' : Database} {step : Step} {a : Except Exn Response}
    (hmoves : Moves db step (db', a)) (hcancel : cancelsComplete db step = false)
    (h : Classified db) : Classified db' := by
  intro i order' hrow'
  cases hrow : db.orders.row i with
  | none => exact ⟨.opened, opened_of_moves hmoves hrow hrow'⟩
  | some order =>
      obtain ⟨s, hs⟩ := h i order hrow
      obtain ⟨order'', s', hrow'', hs', -⟩ := progresses_of_moves hmoves hcancel i order s hrow hs
      rw [hrow'] at hrow''
      cases hrow''
      exact ⟨s', hs'⟩

/-- The life of every order of a run. -/
structure LifeCycle (L : Laravel) (db : Database) (run : List Step) : Prop where
  /-- An order is created opened. -/
  created : ∀ pre step post, run = pre ++ step :: post → ∀ i order,
    (after (serve L) db pre).orders.row i = none →
    (after (serve L) db (pre ++ [step])).orders.row i = some order → order.status = some .opened
  /-- It is in one of the three states, and leaves none but the first. -/
  progress : ∀ pre mid post, run = pre ++ (mid ++ post) → ∀ i order,
    (after (serve L) db pre).orders.row i = some order →
    ∃ s, order.status = some s ∧ ∃ order' s',
      (after (serve L) db (pre ++ mid)).orders.row i = some order' ∧
      order'.status = some s' ∧ s.Leads s'
  /-- A cancellation that moves stock cancels an order that was opened. -/
  returned : ∀ pre step post, run = pre ++ step :: post → ∀ id, step.call = .orderCancel id →
    (after (serve L) db (pre ++ [step])).foods.row ≠ (after (serve L) db pre).foods.row →
    ∃ i order, orders.lookup (after (serve L) db pre) id = some (i, order) ∧
      order.status = some .opened

theorem after_snoc (L : Laravel) (db : Database) (pre : List Step) (step : Step) :
    after (serve L) db (pre ++ [step]) = serve L (after (serve L) db pre) step :=
  after_append _ _ _ _

/-- A cancellation that moves stock found its order sent. -/
theorem sent_of_returned {db db' : Database} {step : Step} {a : Except Exn Response}
    (hmoves : Moves db step (db', a)) {id : Value} (hcall : step.call = .orderCancel id)
    (hmoved : db'.foods.row ≠ db.foods.row) :
    ∃ i order, orders.lookup db id = some (i, order) ∧ order.send = true := by
  cases hmoves with
  | still horders hfoods herror => exact absurd hfoods hmoved
  | stranded hl hsend hfail => exact absurd rfl hmoved
  | returned hl hsend hf hn =>
      cases hcall
      exact ⟨_, _, hl, hsend⟩
  | placed hv hm hn => cases hcall
  | completed hl hsend => cases hcall
  | added hvalid hm => cases hcall
  | changed hl hvalid hf => cases hcall

/-- A sent order that is cancelled is written, whatever becomes of the stock. -/
theorem orders_of_cancel {L : Laravel} {db : Database} {env : Env} {id : Value} {i : Nat}
    {order : Order} (hl : orders.lookup db id = some (i, order)) (hsend : order.send = true) :
    (serve L db ⟨env, .orderCancel id⟩).orders = db.orders.modify i Order.cancelled := by
  have hresult := OrderController.cancel_result id db
  rw [hl] at hresult
  simp only [hsend, if_true] at hresult
  show ((OrderController.cancel id).serve db).result.1.orders = _
  rw [hresult]
  split
  · rfl
  · split <;> rfl

/-- A complete order that is cancelled ends in none of the states. -/
theorem unclassified_of_cancelsComplete {L : Laravel} {db : Database} {step : Step}
    (h : cancelsComplete db step = true) (hclass : Classified db) :
    ¬ Classified (serve L db step) := by
  intro hafter
  obtain ⟨env, call⟩ := step
  cases call with
  | orderCancel id =>
      cases hl : orders.lookup db id with
      | none => simp [cancelsComplete, hl] at h
      | some x =>
          obtain ⟨i, order⟩ := x
          have hc : order.complete = true := by simpa [cancelsComplete, hl] using h
          obtain ⟨s, hs⟩ := hclass i order (lookup_order hl).2
          have hsend : order.send = true := by
            cases hsend : order.send with
            | true => rfl
            | false => simp [Order.status, hc, hsend] at hs
          have hrow : (serve L db ⟨env, .orderCancel id⟩).orders.row i = some order.cancelled := by
            rw [orders_of_cancel hl hsend]
            exact Table.modify_row_some.mpr (.inr ⟨rfl, order, (lookup_order hl).2, rfl⟩)
          obtain ⟨s', hs'⟩ := hafter i order.cancelled hrow
          simp [Order.status, Order.cancelled, hc] at hs'
  | _ => simp [cancelsComplete] at h

section Lawful

variable {L : Laravel} {db : Database} {run : List Step}

/-- The steps the machine has a transition for. -/
def Lawful (db : Database) (step : Step) : Prop :=
  step.call.isOrder = true ∧ cancelsComplete db step = false

theorem classified_after (hrun : Along (serve L) Lawful db run) (h : Classified db) :
    Classified (after (serve L) db run) :=
  after_invariant
    (fun s r hs hc => classified_of_moves (moves L s r (.inl hc.1)) hc.2 hs) h hrun

theorem progresses_after (hrun : Along (serve L) Lawful db run) :
    Progresses db (after (serve L) db run) :=
  after_related Progresses.refl Progresses.trans (fun _ _ (_ : True) _ => trivial)
    (fun s r _ hc => progresses_of_moves (moves L s r (.inl hc.1)) hc.2) trivial hrun

theorem lifeCycle_of_lawful (hclass : Classified db) (hrun : Along (serve L) Lawful db run) :
    LifeCycle L db run where
  created pre step post heq i order hnone hrow := by
    have hstep := along_iff.mp hrun pre step post heq
    rw [after_snoc] at hrow
    exact opened_of_moves (moves L _ step (.inl hstep.1)) hnone hrow
  progress pre mid post heq i order hrow := by
    rw [heq, along_append, along_append] at hrun
    obtain ⟨hpre, hmid, -⟩ := hrun
    obtain ⟨s, hs⟩ := classified_after hpre hclass i order hrow
    have hprog := progresses_after hmid i order s hrow hs
    rw [← after_append] at hprog
    exact ⟨s, hs, hprog⟩
  returned pre step post heq id hcall hmoved := by
    have hstep := along_iff.mp hrun pre step post heq
    rw [after_snoc] at hmoved
    obtain ⟨i, order, hl, hsend⟩ := sent_of_returned (moves L _ step (.inl hstep.1)) hcall hmoved
    have hc : order.complete = false := by
      simpa [cancelsComplete, hcall, hl] using hstep.2
    exact ⟨i, order, hl, by simp [Order.status, hc, hsend]⟩

end Lawful

/-- **The life cycle holds on a run exactly when no request of it cancels an order
that is complete.** -/
theorem lifeCycle_iff (L : Laravel) (db : Database) (run : List Step)
    (horders : ∀ i, db.orders.row i = none) (hcalls : ∀ step ∈ run, step.call.isOrder = true) :
    LifeCycle L db run ↔
      Along (serve L) (fun db step => cancelsComplete db step = false) db run := by
  constructor
  · intro hlife
    refine along_iff.mpr fun pre step post heq => ?_
    by_contra hne
    have hclass : ∀ front back, run = front ++ back → Classified (after (serve L) db front) := by
      intro front back hsplit i order hrow
      obtain ⟨s, hs, -⟩ := hlife.progress front [] back (by simpa using hsplit) i order hrow
      exact ⟨s, hs⟩
    have hnow := hclass pre (step :: post) heq
    have hnext := hclass (pre ++ [step]) post (by simpa using heq)
    rw [after_snoc] at hnext
    exact unclassified_of_cancelsComplete (by simpa using hne) hnow hnext
  · intro hcancel
    have hclass : Classified db := by
      intro i order hrow
      rw [horders i] at hrow
      cases hrow
    exact lifeCycle_of_lawful hclass
      ((Along.of_forall fun step hmem _ => hcalls step hmem).and hcancel)

theorem lifeCycle_run :
    LifeCycle Sample.laravel Sample.shelf
      [Sample.newOrder 1 1 2, Sample.newOrder 2 1 1, Sample.complete 1, Sample.cancel 2] :=
  (lifeCycle_iff Sample.laravel Sample.shelf _ (fun _ => rfl) (by decide)).mpr (by decide +kernel)

/-- An order of two portions is completed and then cancelled: it is both, and the two
portions are back on the shelf. -/
theorem completed_then_cancelled :
    let run := [Sample.newOrder 1 1 2, Sample.complete 1]
    let done := after (serve Sample.laravel) Sample.shelf run
    let gone := serve Sample.laravel done (Sample.cancel 1)
    ((done.orders.row 1).bind Order.status = some .completed ∧
      (done.foods.row 1).map Food.remaining = some 3) ∧
      (gone.orders.row 1).map (fun order => (order.complete, order.send)) = some (true, false) ∧
      (gone.foods.row 1).map Food.remaining = some 5 := by
  decide +kernel

end Spoiler
