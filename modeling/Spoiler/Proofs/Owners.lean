/-
The owners' sessions.

An owner registers and logs in, and nothing else writes the table: there is no way to log out
or to change a password.  So the guard takes a token for an owner from the request that issues
it until that owner's next login and at no other time, and the password of the registration is
the one that logs in for ever.

The log has an entry for each registration and each login.  Every request does one of the four
things `Enrols` lists, and the invariant of the log is proved by cases on them.
-/
import Spoiler.Proofs.Ownership
import Spoiler.Proofs.Passwords
import Spoiler.Proofs.Tokens

namespace Spoiler

open Store Php

/-! ### What a request does to the owners -/

/-- The routes that write the table of the owners. -/
def Route.enrols : Route → Bool
  | ownerRegister _ => true
  | ownerLogin _ => true
  | _ => false

/-- What a request leaves of the owners, and what it answers. -/
inductive Enrols (L : Laravel) (db : Database) : Visit → Database × Except Exn Response → Prop
  | elsewhere {visit : Visit} {db' : Database} {a : Except Exn Response}
      (hroute : visit.route.enrols = false) (howners : db'.owners = db.owners) :
      Enrols L db visit (db', a)
  | refused {visit : Visit} {a : Except Exn Response} (herror : isError a = true) :
      Enrols L db visit (db, a)
  | registered {env : Env} {token : String} {request : Request} {owner : Owner}
      (hvalid : failed db request.input OwnerController.storeRules = [])
      (hm : owners.make (OwnerController.attributes L env request) = some owner)
      (htaken : owners.taken db db.owners.next owner = false) :
      Enrols L db ⟨env, token, .ownerRegister request⟩
        ({ db with owners := db.owners.insert owner },
          .ok (json (.owner db.owners.next owner) 200))
  | loggedIn {env : Env} {token : String} {request : Request} {i : Nat} {owner : Owner}
      (hby : OwnerController.byAccount db (request.get .account) = some (i, owner))
      (hcheck : L.hashCheck ((request.get .password).text.getD "") owner.password = true) :
      Enrols L db ⟨env, token, .ownerLogin request⟩
        ({ db with owners := db.owners.modify i (Owner.withToken env.random) },
          .ok (json (.owner i (owner.withToken env.random)) 200))

/-- The other actions leave the owners alone. -/
theorem call_owners {L : Laravel} {db : Database} {step : Step}
    (hstore : ∀ request, step.call ≠ .ownerStore request)
    (hlogin : ∀ request, step.call ≠ .ownerLogin request) :
    (serve L db step).owners = db.owners := by
  rcases step.call.group with hstock | huser | hedit
  · rw [stock_frame hstock]
  · rw [account_frame huser]
  · have hedits := edits L db step hedit
    generalize serve L db step = db' at hedits ⊢
    generalize step.call = call at hedits hstore hlogin
    cases hedits with
    | ownerRegistered => exact absurd rfl (hstore _)
    | ownerLoggedIn hby => exact absurd rfl (hlogin _)
    | _ => rfl

namespace Enrols

variable {L : Laravel} {db : Database} {env : Env} {token : String} {request : Request}

theorem ofStore : Enrols L db ⟨env, token, .ownerRegister request⟩
    ((OwnerController.store L env request).serve db).result := by
  rw [OwnerController.store_result]
  cases hvalid : failed db request.input OwnerController.storeRules with
  | cons e es => exact .refused rfl
  | nil =>
      dsimp only
      cases hm : owners.make (OwnerController.attributes L env request) with
      | none => exact .refused rfl
      | some owner =>
          dsimp only
          by_cases htaken : owners.taken db db.owners.next owner = true
          · rw [if_pos htaken]
            exact .refused rfl
          · rw [if_neg htaken]
            exact .registered hvalid hm (Bool.eq_false_iff.mpr htaken)

theorem ofLogin : Enrols L db ⟨env, token, .ownerLogin request⟩
    ((OwnerController.login L env request).serve db).result := by
  rw [OwnerController.login_result]
  cases hby : OwnerController.byAccount db (request.get .account) with
  | none => exact .refused rfl
  | some x =>
      obtain ⟨i, owner⟩ := x
      dsimp only
      by_cases hcheck : L.hashCheck ((request.get .password).text.getD "") owner.password = true
      · rw [if_pos hcheck]
        exact .loggedIn hby hcheck
      · rw [if_neg hcheck]
        exact .refused rfl

end Enrols

/-- The table of the owners is reached by its two routes only. -/
theorem Visit.owners_of_route {L : Laravel} {db : Database} {visit : Visit}
    (h : visit.route.enrols = false) : (visit.serve L db).owners = db.owners := by
  cases hcall : visit.call? db with
  | none => rw [serve_of_none hcall]
  | some call =>
      have hnot : (∀ request, call ≠ .ownerStore request) ∧
          ∀ request, call ≠ .ownerLogin request := by
        obtain ⟨env, token, route⟩ := visit
        cases route with
        | ownerRegister request => cases h
        | ownerLogin request => cases h
        | _ =>
            simp only [call?, Route.access, Option.map_eq_some_iff] at hcall
            grind
      rw [Visit.serve, serve_of_call hcall]
      exact call_owners hnot.1 hnot.2

theorem Visit.enrols (L : Laravel) (db : Database) (visit : Visit) :
    Enrols L db visit (visit.serve L db, visit.answer L db) := by
  by_cases hroute : visit.route.enrols = false
  · exact .elsewhere hroute (owners_of_route hroute)
  · obtain ⟨env, token, route⟩ := visit
    cases route with
    | ownerRegister request => exact Enrols.ofStore
    | ownerLogin request => exact Enrols.ofLogin
    | _ => exact absurd rfl hroute

/-! ### The log -/

/-- An owner is issued a token, at registration with the password. -/
structure Enrolment where
  owner : Nat
  token : String
  password : Option Value
  deriving DecidableEq, Repr

/-- What a request adds to the log. -/
def Visit.enrolments (L : Laravel) (db : Database) (visit : Visit) : List Enrolment :=
  match visit.answer L db with
  | .ok ⟨200, .owner i _⟩ =>
      match visit.route with
      | .ownerRegister request => [⟨i, visit.env.random, some (request.get .password)⟩]
      | .ownerLogin _ => [⟨i, visit.env.random, none⟩]
      | _ => []
  | _ => []

/-- The log of a run. -/
def enrolmentLog (L : Laravel) (db : Database) (run : List Visit) : List Enrolment :=
  trace (Visit.serve L) (Visit.enrolments L) db run

/-- The passwords an owner has registered with. -/
def registeredPasswords (log : List Enrolment) (i : Nat) : List Value :=
  log.filterMap fun e => if e.owner = i then e.password else none

theorem Visit.enrolments_of_error {L : Laravel} {db : Database} {visit : Visit}
    (h : isError (visit.answer L db) = true) : visit.enrolments L db = [] := by
  unfold enrolments
  split
  · rename_i heq
    rw [heq] at h
    simp [isError] at h
  · rfl

theorem Visit.enrolments_of_route {L : Laravel} {db : Database} {visit : Visit}
    (h : visit.route.enrols = false) : visit.enrolments L db = [] := by
  unfold enrolments
  split
  · split
    · rename_i heq
      rw [heq] at h
      cases h
    · rename_i heq
      rw [heq] at h
      cases h
    · rfl
  · rfl

/-- A request issues no token but the one it draws. -/
theorem Visit.enrolments_token (L : Laravel) (db : Database) (visit : Visit) :
    ((visit.enrolments L db).map Enrolment.token).Sublist [visit.env.random] := by
  unfold enrolments
  split
  · split
    · exact .refl _
    · exact .refl _
    · exact List.nil_sublist _
  · exact List.nil_sublist _

/-! ### The invariant -/

/-- The owners and the log agree. -/
structure Enrolled (L : Laravel) (db : Database) (log : List Enrolment) : Prop where
  accounts : db.owners.Distinct Owner.account
  /-- An owner has the token issued last. -/
  token : ∀ i owner, db.owners.row i = some owner →
    (latest Enrolment.owner log i).map Enrolment.token = some owner.apiToken
  /-- And is an owner of the table. -/
  known : ∀ e ∈ log, (db.owners.row e.owner).isSome = true
  /-- An owner has registered once, with the password the hash is of. -/
  password : ∀ i owner, db.owners.row i = some owner →
    ∃ v p salt, registeredPasswords log i = [v] ∧ v.text = some p ∧ p.length ≤ 12 ∧
      owner.password = L.hashMake p salt

/-- The columns of a registered owner. -/
structure OwnerController.Drawn (L : Laravel) (env : Env) (request : Request) (owner : Owner) :
    Prop where
  password : owner.password = L.hashMake ((request.get .password).text.getD "") env.salt
  apiToken : owner.apiToken = env.random

theorem OwnerController.drawn_of_make {L : Laravel} {env : Env} {request : Request} {owner : Owner}
    (h : owners.make (attributes L env request) = some owner) : Drawn L env request owner := by
  simp only [owners, Owner.make, attributes, Option.bind_eq_bind, Option.bind_eq_some_iff,
    Option.some.injEq] at h
  obtain ⟨n, -, acc, -, p, hp, t, ht, ph, -, rfl⟩ := h
  refine ⟨?_, ?_⟩
  · exact (Option.some.inj (Value.text_of_textColumn hp)).symm
  · exact (Option.some.inj (Value.text_of_textColumn ht)).symm

theorem registeredPasswords_append (log : List Enrolment) (e : Enrolment) (i : Nat) :
    registeredPasswords (log ++ [e]) i
      = registeredPasswords log i ++ (if e.owner = i then e.password else none).toList := by
  unfold registeredPasswords
  rw [List.filterMap_append, List.filterMap_cons, List.filterMap_nil]
  cases (if e.owner = i then e.password else none) <;> rfl

namespace Enrolled

variable {L : Laravel} {db : Database} {log : List Enrolment}

theorem of_owners {db' : Database} (h : Enrolled L db log) (howners : db'.owners = db.owners) :
    Enrolled L db' log := by
  refine ⟨?_, ?_, ?_, ?_⟩
  · rw [howners]
    exact h.accounts
  · rw [howners]
    exact h.token
  · rw [howners]
    exact h.known
  · rw [howners]
    exact h.password

/-- A new owner. -/
theorem insert (h : Enrolled L db log) {env : Env} {request : Request} {owner : Owner}
    (hvalid : failed db request.input OwnerController.storeRules = [])
    (hm : owners.make (OwnerController.attributes L env request) = some owner)
    (htaken : owners.taken db db.owners.next owner = false) :
    Enrolled L { db with owners := db.owners.insert owner }
      (log ++ [⟨db.owners.next, env.random, some (request.get .password)⟩]) := by
  have hdrawn := OwnerController.drawn_of_make hm
  have hunknown : ∀ e ∈ log, e.owner ≠ db.owners.next := by
    intro e he heq
    have hsome := h.known e he
    rw [heq, Table.row_next] at hsome
    cases hsome
  refine ⟨?_, fun i row hrow => ?_, fun e he => ?_, fun i row hrow => ?_⟩
  · refine Table.Distinct.sets h.accounts (db.owners.insert_sets owner) fun j other hother hj => ?_
    have hnone : (db.owners.filter fun j q => j != db.owners.next &&
        q.account == owner.account).isEmpty = true := by
      simpa [Model.taken, owners] using htaken
    have hfree := Table.filter_eq_nil.mp (List.isEmpty_iff.mp hnone) j other hother
    simpa [hj] using hfree
  · rcases Table.insert_row_some.mp hrow with ⟨rfl, rfl⟩ | hold
    · rw [latest_self rfl, Option.map_some, hdrawn.apiToken]
    · have hne : (⟨db.owners.next, env.random, some (request.get .password)⟩ : Enrolment).owner
          ≠ i := Nat.ne_of_gt (Table.lt_next hold)
      rw [latest_other hne]
      exact h.token i row hold
  · rcases List.mem_append.mp he with hold | hnew
    · exact (Table.Grows.sets (db.owners.insert_sets owner)) _ (h.known e hold)
    · rw [List.mem_singleton.mp hnew]
      simp
  · rw [registeredPasswords_append]
    rcases Table.insert_row_some.mp hrow with ⟨rfl, rfl⟩ | hold
    · obtain ⟨⟨p, htext, hshort⟩, -⟩ :=
        registered_password hvalid (by simp [OwnerController.storeRules])
      refine ⟨request.get .password, p, env.salt, ?_, htext, hshort,
        by rw [hdrawn.password, htext, Option.getD_some]⟩
      have hnone : registeredPasswords log db.owners.next = [] :=
        List.filterMap_eq_nil_iff.mpr fun e he => if_neg (hunknown e he)
      rw [hnone, if_pos rfl]
      rfl
    · have hne : db.owners.next ≠ i := Nat.ne_of_gt (Table.lt_next hold)
      rw [if_neg hne, Option.toList_none, List.append_nil]
      exact h.password i row hold

/-- An owner gets another token. -/
theorem modify (h : Enrolled L db log) {i : Nat} {owner : Owner}
    (hrow : db.owners.row i = some owner) (token : String) :
    Enrolled L { db with owners := db.owners.modify i (Owner.withToken token) }
      (log ++ [⟨i, token, none⟩]) := by
  refine ⟨?_, fun j row hj => ?_, fun e he => ?_, fun j row hj => ?_⟩
  · exact h.accounts.modify (f := Owner.withToken token) (fun _ => rfl) i
  · rcases Table.modify_row_some.mp hj with ⟨hne, hold⟩ | ⟨rfl, old, hold, rfl⟩
    · rw [latest_other (Ne.symm hne)]
      exact h.token j row hold
    · rw [latest_self rfl]
      rfl
  · refine Table.Grows.modify _ _ _ _ ?_
    rcases List.mem_append.mp he with hold | hnew
    · exact h.known e hold
    · rw [List.mem_singleton.mp hnew]
      exact Option.isSome_of_eq_some hrow
  · have hsame : registeredPasswords (log ++ [⟨i, token, none⟩]) j = registeredPasswords log j := by
      rw [registeredPasswords_append]
      split <;> exact List.append_nil _
    rw [hsame]
    rcases Table.modify_row_some.mp hj with ⟨-, hold⟩ | ⟨rfl, old, hold, rfl⟩
    · exact h.password j row hold
    · exact h.password j old hold

end Enrolled

theorem enrolled_step {L : Laravel} {db : Database} {log : List Enrolment} (visit : Visit)
    (h : Enrolled L db log) : Enrolled L (visit.serve L db) (log ++ visit.enrolments L db) := by
  have henrols := visit.enrols L db
  generalize visit.serve L db = db' at henrols ⊢
  generalize ha : visit.answer L db = a at henrols
  cases henrols with
  | elsewhere hroute howners =>
      rw [Visit.enrolments_of_route hroute, List.append_nil]
      exact h.of_owners howners
  | refused herror =>
      rw [Visit.enrolments_of_error (by rw [ha]; exact herror), List.append_nil]
      exact h
  | @registered env token request owner hvalid hm htaken =>
      have hentry : Visit.enrolments L db ⟨env, token, .ownerRegister request⟩
          = [⟨db.owners.next, env.random, some (request.get .password)⟩] := by
        simp [Visit.enrolments, ha, json]
      rw [hentry]
      exact h.insert hvalid hm htaken
  | @loggedIn env token request i owner hby hcheck =>
      have hentry : Visit.enrolments L db ⟨env, token, .ownerLogin request⟩
          = [⟨i, env.random, none⟩] := by
        simp [Visit.enrolments, ha, json]
      rw [hentry]
      exact h.modify (Table.first_some hby).1 env.random

theorem enrolled_after (L : Laravel) (run : List Visit) :
    Enrolled L (after (Visit.serve L) Database.empty run) (enrolmentLog L Database.empty run) := by
  have hstart : Enrolled L Database.empty [] := by
    refine ⟨.of_empty fun _ => rfl, fun i owner hrow => ?_, fun e he => ?_, fun i owner hrow => ?_⟩
    · cases hrow
    · cases he
    · cases hrow
  have hrun : Along (Visit.serve L) (fun _ _ => True) Database.empty run :=
    Along.of_forall fun _ _ _ => trivial
  have hend : Enrolled L (after (Visit.serve L) Database.empty run)
      ([] ++ trace (Visit.serve L) (Visit.enrolments L) Database.empty run) :=
    after_trace_invariant (fun _ _ visit hs _ => enrolled_step visit hs) hstart hrun
  exact hend

/-! ### The guard -/

/-- **If no token is drawn twice, the guard takes a token for an owner exactly while it is the
one issued to that owner last.** -/
theorem ownerGuard_iff (L : Laravel) (run : List Visit)
    (hfresh : (run.map fun visit => visit.env.random).Nodup) (t : String) (o : Nat) :
    ownerGuard (after (Visit.serve L) Database.empty run) t = some o ↔
      (latest Enrolment.owner (enrolmentLog L Database.empty run) o).map Enrolment.token
        = some t := by
  have henrolled := enrolled_after L run
  have htokens : ((enrolmentLog L Database.empty run).map Enrolment.token).Sublist
      (run.map fun visit => visit.env.random) :=
    trace_sublist fun db visit => visit.enrolments_token L db
  generalize after (Visit.serve L) Database.empty run = db at henrolled ⊢
  generalize enrolmentLog L Database.empty run = log at henrolled htokens ⊢
  constructor
  · intro h
    obtain ⟨owner, hrow, rfl⟩ := tokenGuard_some h
    exact henrolled.token o owner hrow
  · intro h
    obtain ⟨e, hlatest, rfl⟩ := Option.map_eq_some_iff.mp h
    obtain ⟨hmem, rfl⟩ := latest_some hlatest
    obtain ⟨owner, hrow⟩ := Option.isSome_iff_exists.mp (henrolled.known e hmem)
    have htoken : owner.apiToken = e.token := by
      have hown := henrolled.token e.owner owner hrow
      rw [hlatest] at hown
      exact (Option.some.inj hown).symm
    have hlength : e.token.length = 20 := by
      obtain ⟨visit, -, hvisit⟩ := List.mem_map.mp (htokens.subset (List.mem_map_of_mem hmem))
      rw [← hvisit]
      exact visit.env.random_length
    -- and one so long is not what the guard takes for no token
    have hfilled : ¬ (e.token = "" ∨ e.token = "0") := by
      rintro (hempty | hzero)
      · rw [hempty] at hlength
        exact absurd hlength (by decide)
      · rw [hzero] at hlength
        exact absurd hlength (by decide)
    obtain ⟨o', hguard⟩ : ∃ o', ownerGuard db e.token = some o' :=
      tokenGuard_of_row hrow htoken hfilled
    -- whoever the guard finds was issued the same token, by the same request
    obtain ⟨other, hother, hsame⟩ := tokenGuard_some hguard
    obtain ⟨e', hlatest', htoken'⟩ := Option.map_eq_some_iff.mp (henrolled.token o' other hother)
    obtain ⟨hmem', rfl⟩ := latest_some hlatest'
    have heq : e' = e := List.inj_on_of_nodup_map (htokens.nodup hfresh) hmem' hmem
      (htoken'.trans hsame)
    rw [hguard, heq]

/-- An owner registers and logs in again: the second token works and the first does not. -/
def Sample.sessions : List Visit :=
  [⟨draws 'c', "", .ownerRegister (request [(.name, .str "cleo"), (.account, .str "cleo"),
      (.password, .str "secret"), (.phone, .str "0912345678")])⟩,
    ⟨draws 'd', "", .ownerLogin (request [(.account, .str "cleo"), (.password, .str "secret")])⟩]

theorem ownerGuard_sessions :
    ownerGuard (after (Visit.serve Sample.laravel) Database.empty Sample.sessions)
        (Sample.token 'd') = some 1 ∧
      ownerGuard (after (Visit.serve Sample.laravel) Database.empty Sample.sessions)
        (Sample.token 'c') ≠ some 1 := by
  have hfresh : (Sample.sessions.map fun visit => visit.env.random).Nodup := by decide +kernel
  constructor
  · exact (ownerGuard_iff Sample.laravel Sample.sessions hfresh _ 1).mpr (by decide +kernel)
  · rw [Ne, ownerGuard_iff Sample.laravel Sample.sessions hfresh]
    decide +kernel

/-! ### The password -/

/-- **An owner has registered once, and at any time afterwards logs in with exactly the
password of the registration.** -/
theorem ownerPassword_iff (L : Laravel) (hL : L.Telling) (run : List Visit) {o : Nat}
    {owner : Owner}
    (hrow : (after (Visit.serve L) Database.empty run).owners.row o = some owner) :
    ∃ v, registeredPasswords (enrolmentLog L Database.empty run) o = [v] ∧
      ∀ env token request, (request.get .account).text = some owner.account →
        (isError (Visit.answer L (after (Visit.serve L) Database.empty run)
            ⟨env, token, .ownerLogin request⟩) = false ↔
          (request.get .password).text.getD "" = v.text.getD "") := by
  have henrolled := enrolled_after L run
  generalize after (Visit.serve L) Database.empty run = db at henrolled hrow ⊢
  obtain ⟨v, p, salt, hv, htext, hshort, hpassword⟩ := henrolled.password o owner hrow
  refine ⟨v, hv, fun env token request haccount => ?_⟩
  have hanswer : Visit.answer L db ⟨env, token, .ownerLogin request⟩
      = ((OwnerController.login L env request).serve db).result.2 := rfl
  rw [hanswer, OwnerController.login_result, OwnerController.byAccount,
    first_equalsText henrolled.accounts hrow haccount, htext, Option.getD_some,
    ← hL.check_make hshort _ salt, ← hpassword]
  dsimp only
  by_cases hcheck : L.hashCheck ((request.get .password).text.getD "") owner.password = true
  · rw [if_pos hcheck]
    exact iff_of_true rfl hcheck
  · rw [if_neg hcheck]
    exact iff_of_false (by simp [isError, sendError, json]) hcheck

theorem ownerPassword_sessions :
    ∃ owner v, (after (Visit.serve Sample.laravel) Database.empty Sample.sessions).owners.row 1
        = some owner ∧
      registeredPasswords (enrolmentLog Sample.laravel Database.empty Sample.sessions) 1 = [v] ∧
      ∀ env token request, (request.get .account).text = some owner.account →
        (isError (Visit.answer Sample.laravel
            (after (Visit.serve Sample.laravel) Database.empty Sample.sessions)
            ⟨env, token, .ownerLogin request⟩) = false ↔
          (request.get .password).text.getD "" = v.text.getD "") := by
  have hsome : ((after (Visit.serve Sample.laravel) Database.empty
      Sample.sessions).owners.row 1).isSome = true := by decide +kernel
  obtain ⟨owner, hrow⟩ := Option.isSome_iff_exists.mp hsome
  obtain ⟨v, hv, hlaw⟩ :=
    ownerPassword_iff Sample.laravel Sample.telling Sample.sessions hrow
  exact ⟨owner, v, hrow, hv, hlaw⟩

end Spoiler
