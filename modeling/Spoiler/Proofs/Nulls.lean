/-
Where null is taken for an object.

The controllers count the rows a clause keeps and then read the first of them, or load a row
twice, and go on as if the second read could not fail.  Rows are never deleted, except for
subscriptions, so for most of them it cannot, however requests interleave.  What can go away
between two statements is a user's account: a login that has counted it may find it renamed.

One request at a time, that does not happen either.  From empty tables the only request that
calls a method on null is one to cancel a subscription that is not there.
-/
import Spoiler.Proofs.Interleaved

namespace Spoiler

open Store Php

/-! ### Interleavings -/

section Pool

variable {ι : Type} [DecidableEq ι] {L : Laravel} {db : Database} {visits : ι → Visit}

/-- **However requests interleave, none but the read pages takes null for an object, except a
user's login, the cancelling of a subscription, and an order of somebody who is banned.** -/
theorem interleaved_no_null (h : Referential db) {a : ι} {schedule : List ι} {e : Exn}
    (hraised : ((interleaved L db visits schedule).procs a).prog.exception? = some e)
    (hnull : e.isNull = true) : (visits a).nulls db :=
  (interleaved_kept h schedule).raised hraised hnull

/-- A login, while the account is renamed. -/
def Sample.renaming : Bool → Visit
  | true => ⟨env, "", .userLogin (request [(.account, .str "ann"), (.password, .str "secret")])⟩
  | false => ⟨env, "", .userUpdate (.int 1) (request [(.account, .str "anna")])⟩

/-- The login has counted one account when the update renames it. -/
theorem interleaved_no_null_renaming :
    ((interleaved Sample.laravel Sample.town Sample.renaming
        (true :: List.replicate 5 false ++ [true])).procs true).prog.exception?
          = some .nullProperty ∧ (Sample.renaming true).nulls Sample.town := by
  have hraised : ((interleaved Sample.laravel Sample.town Sample.renaming
      (true :: List.replicate 5 false ++ [true])).procs true).prog.exception?
        = some .nullProperty := by decide +kernel
  exact ⟨hraised, interleaved_no_null Sample.town_referential hraised rfl⟩

end Pool

/-! ### One request at a time -/

namespace Visit

variable {L : Laravel} {db : Database} {visit : Visit}

/-- The answer of a request as it runs alone. -/
theorem nulls_of_serve (h : Referential db) {e : Exn}
    (hanswer : visit.answer L db = .error e) (hnull : e.isNull = true) :
    visit.nulls db := by
  have hright : (contract .nothing).Right db (.outside db) .idle := ⟨rfl, .refl db⟩
  have hwp := visit.handler_wp L db visit.route.allows_nothing
  exact Prog.raises_of_wp _ hright h hwp hanswer hnull

end Visit

theorem UserController.login_ne_error (L : Laravel) (env : Env) (request : Request) (db : Database)
    (e : Exn) : ((UserController.login L env request).serve db).answer ≠ .error e := by
  rw [show ((UserController.login L env request).serve db).answer = _
    from congrArg Prod.snd (UserController.login_result L env request db)]
  split
  · exact fun h => by cases h
  · split <;> exact fun h => by cases h

theorem FBController.login_null (env : Env) (resource : FBController.GraphUser) (db : Database)
    {e : Exn} (h : ((FBController.login env resource).serve db).answer = .error e) :
    e = .query := by
  rw [show ((FBController.login env resource).serve db).answer = _
    from congrArg Prod.snd (FBController.login_result env resource db)] at h
  split at h
  · split at h
    · cases h
      rfl
    · split at h
      · cases h
        rfl
      · cases h
  · split at h
    · cases h
      rfl
    · split at h
      · cases h
        rfl
      · cases h

theorem SubscriptController.cancel_null_iff (id : Value) (db : Database) :
    (∃ e, ((SubscriptController.cancel id).serve db).answer = .error e ∧ e.isNull = true) ↔
      subscriptions.lookup db id = none := by
  rw [show ((SubscriptController.cancel id).serve db).answer = _
    from congrArg Prod.snd (SubscriptController.cancel_result id db)]
  cases subscriptions.lookup db id with
  | none => exact iff_of_true ⟨.nullCall, rfl, rfl⟩ rfl
  | some x =>
      refine iff_of_false ?_ (Option.some_ne_none x)
      rintro ⟨e, herror, -⟩
      cases herror

/-- **From empty tables, one request at a time, what takes null for an object is exactly the
cancelling of a subscription that is not there.** -/
theorem null_iff (L : Laravel) (run : List Visit) {visit : Visit}
    (hpage : ∀ body, visit.route ≠ .read body) :
    (∃ e, visit.answer L (after (Visit.serve L) Database.empty run) = .error e ∧
        e.isNull = true) ↔
      ∃ id, visit.route = .subscriptCancel id ∧
        subscriptions.lookup (after (Visit.serve L) Database.empty run) id = none := by
  have hsound := sound_after L run
  generalize after (Visit.serve L) Database.empty run = db at hsound ⊢
  obtain ⟨env, token, route⟩ := visit
  constructor
  · rintro ⟨e, hanswer, hnull⟩
    have hnulls := Visit.nulls_of_serve hsound.referential hanswer hnull
    cases route with
    | userLogin request =>
        exact absurd hanswer (UserController.login_ne_error L env request db e)
    | userFacebook resource =>
        rw [FBController.login_null env resource db hanswer] at hnull
        cases hnull
    | subscriptCancel id =>
        exact ⟨id, rfl, (SubscriptController.cancel_null_iff id db).mp ⟨e, hanswer, hnull⟩⟩
    | orderStore request =>
        obtain ⟨user, hmany⟩ := hnulls
        refine absurd ?_ hmany
        rw [OrderController.records, Table.filter_eq_nil.mpr fun i r hrow => ?_]
        · simp
        · rw [hsound.unlisted i] at hrow
          cases hrow
    | read body => exact absurd rfl (hpage body)
    | _ => exact hnulls.elim
  · rintro ⟨id, hroute, hnone⟩
    dsimp only at hroute
    subst hroute
    exact (SubscriptController.cancel_null_iff id db).mpr hnone

theorem null_iff_unsubscribe :
    ∃ e, Visit.answer Sample.laravel (after (Visit.serve Sample.laravel) Database.empty [])
        ⟨Sample.env, "", .subscriptCancel (.int 1)⟩ = .error e ∧ e.isNull = true :=
  (null_iff Sample.laravel [] fun _ h => Route.noConfusion h).mpr ⟨.int 1, rfl, rfl⟩

end Spoiler
