/-
Facebook users and passwords.

A user who comes from Facebook gets a row whose account is the Facebook id and whose
password column holds the word "facebook", which is no hash, so that no password logs
in there.  But accounts are free text, and a row found under the id is taken as it is.
Whoever has registered the id as an account, with a password, before the Facebook user
first comes keeps the password to a row that then belongs to both.
-/
import Spoiler.Proofs.Passwords

namespace Spoiler

open Store Php

/-! ### The log -/

/-- The row a Facebook login returns. -/
def facebookRows (L : Laravel) (db : Database) (step : Step) : List Nat :=
  match step.call, answer L db step with
  | .fbLogin _, .ok ⟨200, .user i _⟩ => [i]
  | _, _ => []

/-- The rows that Facebook logins of a run have returned. -/
def facebookLog (L : Laravel) (db : Database) (run : List Step) : List Nat :=
  trace (serve L) (facebookRows L) db run

/-- Some request to `UserController::login` succeeds on row `i`. -/
def LogsIn (L : Laravel) (db : Database) (i : Nat) : Prop :=
  ∃ env request user, answer L db ⟨env, .userLogin request⟩ = .ok (json (.user i user) 200)

/-- No password logs in where a Facebook login has been. -/
def Separate (L : Laravel) (db : Database) (log : List Nat) : Prop :=
  ∀ i ∈ log, ¬ LogsIn L db i

/-- The request is a Facebook login that finds a row with a hashed password, and what it
refreshes fits the columns. -/
def TakesOver (L : Laravel) (db : Database) (step : Step) : Prop :=
  ∃ resource i user, step.call = .fbLogin resource ∧
    FBController.byAccount db resource.id = some (i, user) ∧
    (∃ p salt, user.password = L.hashMake p salt) ∧
    (users.dirty (FBController.refreshed step.env resource) user users.fillable).isSome = true

/-! ### The invariant -/

/-- The password column holds no hash. -/
def Locked (user : User) : Prop := user.password.length ≤ 12 ∨ trim user.password = ""

instance : DecidablePred Locked := fun _ => inferInstanceAs (Decidable (_ ∨ _))

/-- There is an account and a password to send that log in. -/
def Opens (L : Laravel) (user : User) : Prop :=
  ∃ v w p salt, cleaned .account v = v ∧ v.text = some user.account ∧
    cleaned .password w = w ∧ w.text = some p ∧ user.password = L.hashMake p salt

theorem Opens.not_locked {L : Laravel} (hL : L.Hashing) {user : User} (h : Opens L user) :
    ¬ Locked user := by
  obtain ⟨-, -, p, salt, -, -, -, -, hpassword⟩ := h
  intro hlocked
  unfold Locked at hlocked
  rw [hpassword] at hlocked
  have hno := hL.check_plain hlocked p
  rw [hL.check_self p salt] at hno
  cases hno

/-- What the account requests keep of the users, those from Facebook among them. -/
structure SignedUp (L : Laravel) (db : Database) (log : List Nat) : Prop where
  accounts : db.users.Distinct User.account
  rows : db.users.All fun user => Locked user ∨ Opens L user
  known : ∀ i ∈ log, (db.users.row i).isSome = true

section Login

variable {L : Laravel} {db : Database} {log : List Nat} {i : Nat} {user : User}

/-- A password logs in on a row exactly when the row opens. -/
theorem SignedUp.logsIn_iff (hL : L.Hashing) (h : SignedUp L db log)
    (hrow : db.users.row i = some user) : LogsIn L db i ↔ Opens L user := by
  constructor
  · rintro ⟨env, request, row, hanswer⟩
    have hsigns := signs L db ⟨env, .userLogin request⟩ rfl
    rw [hanswer] at hsigns
    generalize serve L db ⟨env, .userLogin request⟩ = db' at hsigns
    cases hsigns with
    | still herror => cases herror
    | loggedIn hby hcheck =>
        obtain ⟨hrow', -⟩ := Table.first_some hby
        rw [hrow] at hrow'
        cases hrow'
        refine (h.rows i user hrow).resolve_left fun hlocked => ?_
        rw [hL.check_plain hlocked] at hcheck
        cases hcheck
  · rintro ⟨v, w, p, salt, hv, hvtext, hw, hwtext, hpassword⟩
    let request := signIn v w hv hw
    have hby : UserController.byAccount db (request.get .account) = some (i, user) :=
      first_equalsText h.accounts hrow hvtext
    have hcheck : L.hashCheck ((request.get .password).text.getD "") user.password = true := by
      have hget : (request.get .password).text = some p := hwtext
      rw [hget, hpassword]
      exact hL.check_self p salt
    obtain ⟨env⟩ : Nonempty Env := inferInstance
    refine ⟨env, request, user.withToken env.random, ?_⟩
    show ((UserController.login L env request).serve db).result.2 = _
    rw [UserController.login_result, hby]
    simp only [hcheck, if_true]

/-- The Facebook rows are out of reach exactly when they are locked. -/
theorem SignedUp.separate_iff (hL : L.Hashing) (h : SignedUp L db log) :
    Separate L db log ↔ ∀ i ∈ log, ∀ user, db.users.row i = some user → Locked user := by
  constructor
  · intro hsep i hi user hrow
    refine (h.rows i user hrow).resolve_right fun hopens => ?_
    exact hsep i hi ((h.logsIn_iff hL hrow).mpr hopens)
  · intro hlocked i hi hin
    obtain ⟨user, hrow⟩ := Option.isSome_iff_exists.mp (h.known i hi)
    have hopens := (h.logsIn_iff hL hrow).mp hin
    exact hopens.not_locked hL (hlocked i hi user hrow)

end Login

/-! ### One request -/

theorem facebookRows_of_error {L : Laravel} {db : Database} {step : Step}
    (h : isError (answer L db step) = true) : facebookRows L db step = [] := by
  unfold facebookRows
  split
  · rename_i heq
    rw [heq] at h
    simp [isError] at h
  · rfl

/-- What a returning Facebook user has refreshed is neither account nor password. -/
theorem refreshed_keeps {env : Env} {resource : FBController.GraphUser} {user : User}
    {f : User → User}
    (hf : users.dirty (FBController.refreshed env resource) user users.fillable = some f) :
    (f user).account = user.account ∧ (f user).password = user.password := by
  constructor
  · rcases account_column.dirty hf with ⟨-, hsame⟩ | ⟨v, x, hv, -, -⟩
    · exact hsame
    · cases hv
  · rcases password_column.dirty hf with ⟨-, hsame⟩ | ⟨v, x, hv, -, -⟩
    · exact hsame
    · cases hv

/-- The request that registers a row logs in to it. -/
theorem registered_opens {L : Laravel} {db : Database} {env : Env} {request : Request}
    {user : User} (hvalid : failed db request.input (UserController.storeRules L) = [])
    (hm : users.make (UserController.attributes L env request) = some user) : Opens L user := by
  obtain ⟨haccount, hpassword, -⟩ := UserController.drawn_of_make hm
  obtain ⟨⟨p, htext, -⟩, hclean⟩ :=
    registered_password hvalid (by simp [UserController.storeRules])
  rw [htext, Option.getD_some] at hpassword
  exact ⟨_, _, p, _, request.clean _ _ (input_of_textColumn haccount),
    Value.text_of_textColumn haccount, hclean, htext, hpassword⟩

/-- An updated row is locked once its password is sent, and stays as open as it was
otherwise. -/
theorem updated_opens {L : Laravel} {db : Database} {request : Request} {user : User}
    {f : User → User} (hvalid : failed db request.input (UserController.updateRules L) = [])
    (hf : users.dirty request.input user users.fillable = some f)
    (h : Locked user ∨ Opens L user) :
    Locked (f user) ∨ (Opens L (f user) ∧ Opens L user) := by
  rcases password_column.dirty hf with ⟨-, hsame⟩ | ⟨v, p, hv, hp, hpassword⟩
  · rcases h with hlocked | ⟨v, w, p, salt, hv, hvtext, hw, hwtext, hpassword⟩
    · left
      unfold Locked at hlocked ⊢
      rw [hsame]
      exact hlocked
    · right
      refine ⟨?_, v, w, p, salt, hv, hvtext, hw, hwtext, hpassword⟩
      rw [← hsame] at hpassword
      rcases account_column.dirty hf with ⟨-, haccount⟩ | ⟨v', x, hv', hx, haccount⟩
      · rw [← haccount] at hvtext
        exact ⟨v, w, p, salt, hv, hvtext, hw, hwtext, hpassword⟩
      · refine ⟨v', w, p, salt, request.clean _ v' hv', ?_, hw, hwtext, hpassword⟩
        rw [haccount]
        exact Value.text_of_textColumn hx
  · left
    unfold Locked
    rw [hpassword]
    exact updated_password hvalid hv (Value.text_of_textColumn hp)

/-- What an accepted account request writes into row `i`. -/
structure Wrote (L : Laravel) (db : Database) (step : Step) (db' : Database) (i : Nat)
    (user : User) : Prop where
  sets : db.users.Sets db'.users i user
  free : ∀ j other, db.users.row j = some other → j ≠ i → other.account ≠ user.account
  password : Locked user ∨ Opens L user
  /-- A row that was locked is locked still. -/
  locked : ∀ old, db.users.row i = some old → Locked old → Locked user
  /-- A Facebook login returns a locked row, unless it takes one over. -/
  facebook : (facebookRows L db step = [] ∧ ¬ TakesOver L db step) ∨
    (facebookRows L db step = [i] ∧ (Locked user ↔ ¬ TakesOver L db step))

section Writes

variable {L : Laravel} {db db' : Database} {log : List Nat} {step : Step} {i : Nat}
  {user user' : User}

/-- Writing a row that keeps its account and its password. -/
theorem SignedUp.wrote_same (h : SignedUp L db log) (hrow : db.users.row i = some user)
    (hsets : db.users.Sets db'.users i user') (haccount : user'.account = user.account)
    (hpassword : user'.password = user.password)
    (hfacebook : (facebookRows L db step = [] ∧ ¬ TakesOver L db step) ∨
      (facebookRows L db step = [i] ∧ (Locked user' ↔ ¬ TakesOver L db step))) :
    Wrote L db step db' i user' where
  sets := hsets
  free := by
    rw [haccount]
    exact h.accounts.own hrow
  password := by
    have hold := h.rows i user hrow
    unfold Locked Opens at hold ⊢
    rw [haccount, hpassword]
    exact hold
  locked old hold hlocked := by
    rw [hrow] at hold
    cases hold
    unfold Locked at hlocked ⊢
    rw [hpassword]
    exact hlocked
  facebook := hfacebook

theorem Wrote.signedUp (hw : Wrote L db step db' i user) (h : SignedUp L db log) :
    SignedUp L db' (log ++ facebookRows L db step) where
  accounts := h.accounts.sets hw.sets hw.free
  rows := h.rows.sets hw.sets hw.password
  known j hj := by
    have hgrows := Table.Grows.sets hw.sets
    rcases List.mem_append.mp hj with hj | hj
    · exact hgrows j (h.known j hj)
    · rcases hw.facebook with ⟨hrows, -⟩ | ⟨hrows, -⟩
      · rw [hrows] at hj
        cases hj
      · rw [hrows] at hj
        rw [List.mem_singleton.mp hj, hw.sets.here]
        rfl

theorem Wrote.separate_iff (hw : Wrote L db step db' i user) (hL : L.Hashing)
    (h : SignedUp L db log) (hsep : Separate L db log) :
    Separate L db' (log ++ facebookRows L db step) ↔ ¬ TakesOver L db step := by
  have hlocked := (h.separate_iff hL).mp hsep
  -- the rows returned before are locked whatever the request writes
  have hbefore : ∀ j ∈ log, ∀ row, db'.users.row j = some row → Locked row := by
    intro j hj row hrow
    by_cases hji : j = i
    · subst hji
      obtain ⟨old, hold⟩ := Option.isSome_iff_exists.mp (h.known j hj)
      rw [hw.sets.here] at hrow
      cases hrow
      exact hw.locked old hold (hlocked j hj old hold)
    · rw [hw.sets.elsewhere j hji] at hrow
      exact hlocked j hj row hrow
  rw [(hw.signedUp h).separate_iff hL]
  rcases hw.facebook with ⟨hrows, hnot⟩ | ⟨hrows, hiff⟩
  · rw [hrows, List.append_nil]
    exact iff_of_true hbefore hnot
  · rw [hrows, ← hiff]
    constructor
    · intro hall
      exact hall i (by simp) user hw.sets.here
    · intro huser j hj row hrow
      rcases List.mem_append.mp hj with hj | hj
      · exact hbefore j hj row hrow
      · rw [List.mem_singleton.mp hj, hw.sets.here] at hrow
        cases hrow
        exact huser

end Writes

/-- A Facebook login that takes a row over succeeds. -/
theorem TakesOver.accepted {L : Laravel} {db : Database} {step : Step} (h : TakesOver L db step) :
    isError (answer L db step) = false := by
  obtain ⟨resource, i, user, hcall, hby, -, hsome⟩ := h
  obtain ⟨env, call⟩ := step
  dsimp only at hcall hsome
  subst hcall
  obtain ⟨f, hf⟩ := Option.isSome_iff_exists.mp hsome
  have hclash : users.clash db i user (f user) = false := by
    simp [Model.clash, users, (refreshed_keeps hf).1]
  show isError ((FBController.login env resource).serve db).result.2 = false
  rw [FBController.login_result, hby]
  simp only [hf, hclash]
  rfl

/-- Only a Facebook login takes a row over. -/
theorem not_takesOver {L : Laravel} {db : Database} {step : Step}
    (h : ∀ resource, step.call ≠ .fbLogin resource) : ¬ TakesOver L db step :=
  fun ⟨resource, _, _, hcall, _⟩ => h resource hcall

theorem not_takesOver_of_locked {L : Laravel} (hL : L.Hashing) {db : Database} {env : Env}
    {resource : FBController.GraphUser}
    (h : ∀ x ∈ FBController.byAccount db resource.id, Locked x.2) :
    ¬ TakesOver L db ⟨env, .fbLogin resource⟩ := by
  rintro ⟨resource', i, user, heq, hby, ⟨p, salt, hhash⟩, -⟩
  cases heq
  have hno := hL.check_plain (h (i, user) hby) p
  rw [hhash, hL.check_self p salt] at hno
  cases hno

/-- The row a Facebook login finds is locked exactly when the login does not take it over. -/
theorem SignedUp.locked_iff {L : Laravel} {db : Database} {log : List Nat} {env : Env}
    {resource : FBController.GraphUser} {i : Nat} {user : User} {f : User → User}
    (h : SignedUp L db log) (hL : L.Hashing)
    (hby : FBController.byAccount db resource.id = some (i, user))
    (hf : users.dirty (FBController.refreshed env resource) user users.fillable = some f) :
    Locked user ↔ ¬ TakesOver L db ⟨env, .fbLogin resource⟩ := by
  constructor
  · intro hlocked
    exact not_takesOver_of_locked hL (by simpa [hby] using hlocked)
  · intro hnot
    refine (h.rows i user (Table.first_some hby).1).resolve_right ?_
    rintro ⟨-, -, p, salt, -, -, -, -, hhash⟩
    exact hnot ⟨resource, i, user, rfl, hby, ⟨p, salt, hhash⟩, by rw [hf]; rfl⟩

/-- **An account request is refused and changes nothing, or writes one row like this.** -/
theorem wrote {L : Laravel} {db : Database} {log : List Nat} {step : Step} (hL : L.Hashing)
    (hcall : step.call.isUser = true) (h : SignedUp L db log) :
    (serve L db step = db ∧ facebookRows L db step = [] ∧ ¬ TakesOver L db step) ∨
      ∃ i user, Wrote L db step (serve L db step) i user := by
  have hsigns := signs L db step hcall
  generalize serve L db step = db' at hsigns ⊢
  generalize ha : answer L db step = a at hsigns
  cases hsigns with
  | still herror =>
      rw [← ha] at herror
      refine .inl ⟨rfl, facebookRows_of_error herror, fun htakes => ?_⟩
      rw [htakes.accepted] at herror
      cases herror
  | @registered env request user hvalid hm htaken =>
      refine .inr ⟨db.users.next, user, db.users.insert_sets user,
        fun j other => free_of_taken htaken, .inr (registered_opens hvalid hm), fun old hold => ?_,
        .inl ⟨by simp [facebookRows], not_takesOver (by simp)⟩⟩
      rw [db.users.row_next] at hold
      cases hold
  | @loggedIn env request i user hby hcheck =>
      obtain ⟨hrow, -⟩ := Table.first_some hby
      exact .inr ⟨i, _, h.wrote_same hrow (Table.modify_sets hrow) rfl rfl
        (.inl ⟨by simp [facebookRows], not_takesOver (by simp)⟩)⟩
  | @loggedOut env id i user hl =>
      obtain ⟨-, hrow⟩ := Model.lookup_some.mp hl
      exact .inr ⟨i, _, h.wrote_same hrow (Table.modify_sets hrow) rfl rfl
        (.inl ⟨by simp [facebookRows], not_takesOver (by simp)⟩)⟩
  | @updated env id request i user f hl hvalid hf hclash =>
      obtain ⟨-, hrow⟩ := Model.lookup_some.mp hl
      have hopens := updated_opens hvalid hf (h.rows _ _ hrow)
      refine .inr ⟨i, f user, Table.modify_sets hrow,
        fun j other => free_of_clash hclash (h.accounts.own hrow), hopens.imp_right And.left,
        fun old hold hlocked => ?_, .inl ⟨by simp [facebookRows], not_takesOver (by simp)⟩⟩
      cases hrow.symm.trans hold
      exact hopens.resolve_right fun ho => ho.2.not_locked hL hlocked
  | @arrived env resource user hnone hm =>
      obtain ⟨haccount, hpassword, -⟩ := FBController.drawn_of_make hm
      have hlocked : Locked user := by
        left
        rw [hpassword]
        decide
      refine .inr ⟨db.users.next, user, db.users.insert_sets user, fun j other hother _ => ?_,
        .inl hlocked, fun _ _ _ => hlocked,
        .inr ⟨by simp [facebookRows, ha, json],
          iff_of_true hlocked (not_takesOver_of_locked hL (by simp [hnone]))⟩⟩
      have hno := Table.first_none.mp hnone j other hother
      rw [haccount]
      simpa using hno
  | @returned env resource i user f hby hf =>
      obtain ⟨hrow, -⟩ := Table.first_some hby
      obtain ⟨haccount, hpassword⟩ := refreshed_keeps hf
      refine .inr ⟨i, f user, h.wrote_same hrow (Table.modify_sets hrow) haccount hpassword
        (.inr ⟨by simp [facebookRows, ha, json], ?_⟩)⟩
      have hsame : Locked (f user) ↔ Locked user := by
        unfold Locked
        rw [hpassword]
      rw [hsame]
      exact h.locked_iff hL hby hf

/-! ### Runs -/

theorem signedUp_step {L : Laravel} {db : Database} {log : List Nat} {step : Step} (hL : L.Hashing)
    (hcall : step.call.isUser = true) (h : SignedUp L db log) :
    SignedUp L (serve L db step) (log ++ facebookRows L db step) := by
  rcases wrote hL hcall h with ⟨hserve, hrows, -⟩ | ⟨i, user, hw⟩
  · rw [hserve, hrows, List.append_nil]
    exact h
  · exact hw.signedUp h

theorem separate_step {L : Laravel} {db : Database} {log : List Nat} {step : Step}
    (hL : L.Hashing) (hcall : step.call.isUser = true) (h : SignedUp L db log)
    (hsep : Separate L db log) :
    Separate L (serve L db step) (log ++ facebookRows L db step) ↔ ¬ TakesOver L db step := by
  rcases wrote hL hcall h with ⟨hserve, hrows, hnot⟩ | ⟨i, user, hw⟩
  · rw [hserve, hrows, List.append_nil]
    exact iff_of_true hsep hnot
  · exact hw.separate_iff hL h hsep

/-- **No password ever logs in where a Facebook login has been, at every point of a run,
exactly when no Facebook login of it finds a row with a hashed password.** -/
theorem facebook_separate_iff (L : Laravel) (hL : L.Hashing) (db : Database) (run : List Step)
    (hempty : ∀ i, db.users.row i = none) (hcalls : ∀ step ∈ run, step.call.isUser = true) :
    (∀ pre post, run = pre ++ post →
        Separate L (after (serve L) db pre) (facebookLog L db pre)) ↔
      Along (serve L) (fun db step => ¬ TakesOver L db step) db run := by
  have hstart : SignedUp L db [] := ⟨.of_empty hempty, .of_empty hempty, by simp⟩
  have hrun : Along (serve L) (fun _ step => step.call.isUser = true) db run :=
    Along.of_forall fun step hmem _ => hcalls step hmem
  have hiff : (∀ pre post, run = pre ++ post → Separate L (after (serve L) db pre)
        ([] ++ trace (serve L) (facebookRows L) db pre)) ↔
      Along (serve L) (fun db step => ¬ TakesOver L db step) db run :=
    trace_points_iff (fun s l r hs hc => signedUp_step hL hc hs)
      (fun s l r hs hl hc => separate_step hL hc hs hl) hstart (by simp [Separate]) hrun
  exact hiff

/-- A registered user and one from Facebook come and go. -/
theorem facebook_separate_run :
    let run := [Sample.register 'a' "ann" "secret1", Sample.facebook 'b' "77",
      Sample.facebook 'c' "77", Sample.login 'd' "ann" "secret1"]
    facebookLog Sample.laravel Sample.database run = [2, 2] ∧
      ¬ LogsIn Sample.laravel (after (serve Sample.laravel) Sample.database run) 2 := by
  intro run
  have hlog : facebookLog Sample.laravel Sample.database run = [2, 2] := by decide +kernel
  have hsep := (facebook_separate_iff Sample.laravel Sample.telling.toHashing Sample.database run
    (fun _ => rfl) (by decide)).mpr
    ⟨not_takesOver (by simp [Sample.register]),
      not_takesOver_of_locked Sample.telling.toHashing (by decide +kernel),
      not_takesOver_of_locked Sample.telling.toHashing (by decide +kernel),
      not_takesOver (by simp [Sample.login]), trivial⟩
    run [] (by simp)
  exact ⟨hlog, hsep 2 (by rw [hlog]; simp)⟩

/-- Somebody registers the id of a Facebook user before that user first comes, and logs in
to what is then a row of both. -/
theorem facebook_taken_over :
    let run := [Sample.register 'a' "77" "secret1", Sample.facebook 'b' "77"]
    ¬ Separate Sample.laravel (after (serve Sample.laravel) Sample.database run)
      (facebookLog Sample.laravel Sample.database run) := by
  intro run hsep
  refine hsep 1 (by decide +kernel) ⟨Sample.draws 'c', Sample.request
    [(.account, .str "77"), (.password, .str "secret1")], _, rfl⟩

end Spoiler
