/-
Which password logs a user in.

The log of a run has an entry for each password a user sets, at registration or by an
accepted update.  Registration stores the hash of the password and login compares with
a hash, but an update assigns the request as it came and stores the password itself.
That string is no hash, so no password matches it: after such an update the user cannot
log in at all.

What is assumed of the framework's hash is collected in `Hashing` and `Telling`.
-/
import Spoiler.App.Sample
import Spoiler.Proofs.Users

namespace Spoiler

open Store Php

/-- `Hash::check` recognises exactly what `Hash::make` made of the password, and a hash
is longer than any password the rules admit, and not blank. -/
structure Laravel.Hashing (L : Laravel) : Prop where
  check : ∀ q h, L.hashCheck q h = true ↔ ∃ salt, h = L.hashMake q salt
  long : ∀ p salt, 12 < (L.hashMake p salt).length
  marked : ∀ p salt, trim (L.hashMake p salt) ≠ ""

/-- And the hash of a password the rules admit is the hash of no other.  Twelve characters are
within the bytes that bcrypt reads; of longer passwords this is not asked. -/
structure Laravel.Telling (L : Laravel) : Prop extends L.Hashing where
  inj : ∀ p q salt salt', p.length ≤ 12 → L.hashMake p salt = L.hashMake q salt' → p = q

/-! ### The log -/

/-- A password a user has set, and whether it was at registration. -/
structure Setting where
  user : Nat
  password : Value
  registered : Bool
  deriving DecidableEq, Repr

/-- What a request adds to the log. -/
def settings (L : Laravel) (db : Database) (step : Step) : List Setting :=
  match answer L db step with
  | .ok ⟨200, .user i _⟩ =>
      match step.call with
      | .userStore request => [⟨i, request.get .password, true⟩]
      | .userUpdate _ request =>
          match request.input .password with
          | some v => [⟨i, v, false⟩]
          | none => []
      | _ => []
  | _ => []

/-- The log of a run. -/
def settingLog (L : Laravel) (db : Database) (run : List Step) : List Setting :=
  trace (serve L) (settings L) db run

theorem settings_of_error {L : Laravel} {db : Database} {step : Step}
    (h : isError (answer L db step) = true) : settings L db step = [] := by
  unfold settings
  split
  · rename_i heq
    rw [heq] at h
    simp [isError] at h
  · rfl

/-- The calls of `UserController`. -/
def Call.isProfile : Call → Bool
  | userStore _ => true
  | userLogin _ => true
  | userUpdate _ _ => true
  | userLogout _ => true
  | _ => false

theorem Call.isUser_of_isProfile {call : Call} (h : call.isProfile = true) :
    call.isUser = true := by
  cases call <;> first | rfl | cases h

/-! ### The invariant -/

/-- What the password column holds after a setting: the hash, or the password itself. -/
inductive Stored (L : Laravel) (s : Setting) : String → Prop
  | hashed {p salt : String} (hreg : s.registered = true) (htext : s.password.text = some p)
      (hshort : p.length ≤ 12) : Stored L s (L.hashMake p salt)
  | plain {p : String} (hreg : s.registered = false) (htext : s.password.text = some p)
      (hshort : p.length ≤ 12 ∨ trim p = "") : Stored L s p

/-- What the account requests keep of the users. -/
structure Kept (L : Laravel) (db : Database) (log : List Setting) : Prop where
  /-- Accounts are unique. -/
  accounts : ∀ i j user other, db.users.row i = some user → db.users.row j = some other →
    user.account = other.account → i = j
  /-- An account can be sent again. -/
  sendable : ∀ i user, db.users.row i = some user →
    ∃ v, cleaned .account v = v ∧ v.text = some user.account
  /-- The password column goes with the latest setting, which can be sent again too. -/
  stored : ∀ i user, db.users.row i = some user →
    ∃ s, latest Setting.user log i = some s ∧ cleaned .password s.password = s.password ∧
      Stored L s user.password

/-- A row the unique index lets in has an account of its own. -/
theorem free_of_taken {db : Database} {i : Nat} {user : User} (h : users.taken db i user = false)
    {j : Nat} {other : User} (hrow : db.users.row j = some other) (hj : j ≠ i) :
    other.account ≠ user.account := by
  have hnone : (db.users.filter fun j q => j != i && q.account == user.account).isEmpty = true := by
    simpa [Model.taken, users] using h
  have := Table.filter_eq_nil.mp (List.isEmpty_iff.mp hnone) j other hrow
  simpa [hj] using this

/-- A row the unique index does not clash with keeps its account or has one of its own. -/
theorem free_of_clash {db : Database} {i : Nat} {user user' : User}
    (h : users.clash db i user user' = false) {j : Nat} {other : User}
    (hown : ∀ j other, db.users.row j = some other → j ≠ i → other.account ≠ user.account)
    (hrow : db.users.row j = some other) (hj : j ≠ i) : other.account ≠ user'.account := by
  by_cases hsame : user'.account = user.account
  · rw [hsame]
    exact hown j other hrow hj
  · have htaken : users.taken db i user' = false := by
      simpa [Model.clash, users, hsame] using h
    exact free_of_taken htaken hrow hj

section Writes

variable {L : Laravel} {db db' : Database} {log log' : List Setting} {i : Nat} {user user' : User}

/-- Writing one row, with what the log says about it then. -/
theorem Kept.sets (h : Kept L db log) (hsets : db.users.Sets db'.users i user)
    (hfree : ∀ j other, db.users.row j = some other → j ≠ i → other.account ≠ user.account)
    (hsend : ∃ v, cleaned .account v = v ∧ v.text = some user.account)
    (hlog : ∀ j, j ≠ i → latest Setting.user log' j = latest Setting.user log j)
    (hstored : ∃ s, latest Setting.user log' i = some s ∧
      cleaned .password s.password = s.password ∧ Stored L s user.password) : Kept L db' log' where
  accounts := Table.Distinct.sets h.accounts hsets hfree
  sendable j row hrow := by
    by_cases hj : j = i
    · subst hj
      rw [hsets.here] at hrow
      cases hrow
      exact hsend
    · rw [hsets.elsewhere j hj] at hrow
      exact h.sendable j row hrow
  stored j row hrow := by
    by_cases hj : j = i
    · subst hj
      rw [hsets.here] at hrow
      cases hrow
      exact hstored
    · rw [hsets.elsewhere j hj] at hrow
      rw [hlog j hj]
      exact h.stored j row hrow

/-- No other row has the account of this one. -/
theorem Kept.own (h : Kept L db log) (hrow : db.users.row i = some user) :
    ∀ j other, db.users.row j = some other → j ≠ i → other.account ≠ user.account :=
  Table.Distinct.own h.accounts hrow

/-- Writing a row that keeps its account and its password. -/
theorem Kept.same (h : Kept L db log) (hrow : db.users.row i = some user)
    (hsets : db.users.Sets db'.users i user') (haccount : user'.account = user.account)
    (hpassword : user'.password = user.password) : Kept L db' log := by
  refine h.sets hsets ?_ ?_ (fun _ _ => rfl) ?_
  · rw [haccount]
    exact h.own hrow
  · rw [haccount]
    exact h.sendable i user hrow
  · rw [hpassword]
    exact h.stored i user hrow

end Writes

/-! ### One request -/

/-- The password of a registration, of a user or of an owner, has a short text, and it can be
sent again. -/
theorem registered_password {db : Database} {request : Request}
    {rules : List (Attr × List Rule)} (h : failed db request.input rules = [])
    (hrules : (Attr.password, [Rule.required, .between 6 12]) ∈ rules) :
    (∃ p, (request.get .password).text = some p ∧ p.length ≤ 12) ∧
      cleaned .password (request.get .password) = request.get .password := by
  have hfilled : Rule.required.passes db (request.get .password) = true :=
    passes_of_required h hrules (by simp) (by simp)
  have hlength : (Rule.between 6 12).passes db (request.get .password) = true :=
    passes_of_required h hrules (by simp) (by simp)
  constructor
  · cases htext : (request.get .password).text with
    | none => simp [Rule.between, htext] at hlength
    | some p =>
        simp only [Rule.between, htext] at hlength
        exact ⟨p, rfl, (of_decide_eq_true hlength).2⟩
  · cases hv : request.input .password with
    | none =>
        simp only [Request.get, hv] at hfilled
        cases hfilled
    | some v =>
        simp only [Request.get, hv, Option.getD_some]
        exact request.clean .password v hv

/-- A password the update takes is short, unless it is blank. -/
theorem updated_password {L : Laravel} {db : Database} {request : Request} {v : Value} {p : String}
    (h : failed db request.input (UserController.updateRules L) = [])
    (hv : request.input .password = some v) (htext : v.text = some p) :
    p.length ≤ 12 ∨ trim p = "" := by
  by_cases hblank : blank (some v) = true
  · right
    cases v with
    | str s =>
        cases htext
        simpa [blank] using hblank
    | _ => cases hblank
  · left
    have hpass := failed_eq_nil.mp h (.password, [.between 6 12])
      (by simp [UserController.updateRules]) (.between 6 12) (by simp)
      (.inr (by simpa [hv] using hblank))
    simp only [hv, Option.getD_some, Rule.between, htext] at hpass
    exact (of_decide_eq_true hpass).2

theorem kept_step {L : Laravel} {db : Database} {log : List Setting} {step : Step}
    (hcall : step.call.isProfile = true) (h : Kept L db log) :
    Kept L (serve L db step) (log ++ settings L db step) := by
  have hsigns := signs L db step (Call.isUser_of_isProfile hcall)
  generalize serve L db step = db' at hsigns ⊢
  generalize ha : answer L db step = a at hsigns
  cases hsigns with
  | still herror =>
      rw [settings_of_error (by rw [ha]; exact herror), List.append_nil]
      exact h
  | @registered env request user hvalid hm htaken =>
      have hset : settings L db ⟨env, .userStore request⟩
          = [⟨db.users.next, request.get .password, true⟩] := by simp [settings, ha, json]
      obtain ⟨haccount, hpassword, -⟩ := UserController.drawn_of_make hm
      obtain ⟨⟨p, htext, hshort⟩, hclean⟩ :=
        registered_password hvalid (by simp [UserController.storeRules])
      rw [hset]
      refine h.sets (db.users.insert_sets user) (fun j other => free_of_taken htaken) ?_
        (fun j hj => latest_other (Ne.symm hj)) ⟨_, latest_self rfl, hclean, ?_⟩
      · exact ⟨_, request.clean _ _ (input_of_textColumn haccount),
          Value.text_of_textColumn haccount⟩
      · rw [hpassword, htext]
        exact .hashed rfl htext hshort
  | @loggedIn env request i user hby hcheck =>
      have hset : settings L db ⟨env, .userLogin request⟩ = [] := by simp [settings, ha, json]
      obtain ⟨hrow, -⟩ := Table.first_some hby
      rw [hset, List.append_nil]
      exact h.same hrow (Table.modify_sets hrow) rfl rfl
  | @loggedOut env id i user hl =>
      have hset : settings L db ⟨env, .userLogout id⟩ = [] := by simp [settings, ha, json]
      obtain ⟨-, hrow⟩ := Model.lookup_some.mp hl
      rw [hset, List.append_nil]
      exact h.same hrow (Table.modify_sets hrow) rfl rfl
  | @updated env id request i user f hl hvalid hf hclash =>
      obtain ⟨-, hrow⟩ := Model.lookup_some.mp hl
      have hsend : ∃ v, cleaned .account v = v ∧ v.text = some (f user).account := by
        rcases account_column.dirty hf with ⟨-, hsame⟩ | ⟨v, x, hv, hx, hacc⟩
        · rw [hsame]
          exact h.sendable i user hrow
        · rw [hacc]
          exact ⟨v, request.clean _ v hv, Value.text_of_textColumn hx⟩
      have hfree : ∀ j other, db.users.row j = some other → j ≠ i →
          other.account ≠ (f user).account :=
        fun j other => free_of_clash hclash (h.own hrow)
      rcases password_column.dirty hf with ⟨hnone, hsame⟩ | ⟨v, p, hv, hp, hpassword⟩
      · have hset : settings L db ⟨env, .userUpdate id request⟩ = [] := by
          simp [settings, ha, json, hnone]
        rw [hset, List.append_nil]
        refine h.sets (Table.modify_sets hrow) hfree hsend (fun _ _ => rfl) ?_
        rw [hsame]
        exact h.stored i user hrow
      · have hset : settings L db ⟨env, .userUpdate id request⟩ = [⟨i, v, false⟩] := by
          simp [settings, ha, json, hv]
        have htext := Value.text_of_textColumn hp
        rw [hset]
        refine h.sets (Table.modify_sets hrow) hfree hsend
          (fun j hj => latest_other (Ne.symm hj)) ⟨_, latest_self rfl, request.clean _ v hv, ?_⟩
        rw [hpassword]
        exact .plain rfl htext (updated_password hvalid hv htext)
  | arrived hnone hm => cases hcall
  | returned hby hf => cases hcall

theorem kept_after {L : Laravel} {db : Database} {run : List Step}
    (husers : ∀ i, db.users.row i = none) (hcalls : ∀ step ∈ run, step.call.isProfile = true) :
    Kept L (after (serve L) db run) (settingLog L db run) := by
  have hstart : Kept L db [] := by
    refine ⟨fun i j user other hi => ?_, fun i user hi => ?_, fun i user hi => ?_⟩ <;>
    · rw [husers i] at hi
      cases hi
  have hrun : Along (serve L) (fun _ step => step.call.isProfile = true) db run :=
    Along.of_forall fun step hmem _ => hcalls step hmem
  have hend : Kept L (after (serve L) db run) ([] ++ trace (serve L) (settings L) db run) :=
    after_trace_invariant (fun s l r hs hc => kept_step hc hs) hstart hrun
  exact hend

/-! ### Login -/

/-- A lookup by the text of a column that tells the rows apart finds the row. -/
theorem first_equalsText {ρ : Type} {t : Table ρ} {column : ρ → String} (h : t.Distinct column)
    {i : Nat} {row : ρ} (hrow : t.row i = some row) {v : Value}
    (hv : v.text = some (column row)) :
    t.first (fun _ r => v.equalsText (column r)) = some (i, row) := by
  cases hfirst : t.first fun _ r => v.equalsText (column r) with
  | none =>
      have hno := Table.first_none.mp hfirst i row hrow
      simp [Value.equalsText, hv] at hno
  | some x =>
      obtain ⟨j, other⟩ := x
      obtain ⟨hother, heq⟩ := Table.first_some hfirst
      have hsome : some (column row) = some (column other) := by
        simpa [Value.equalsText, hv] using heq
      obtain rfl := h j i other row hother hrow (Option.some.inj hsome).symm
      cases hrow.symm.trans hother
      rfl

section Login

variable {L : Laravel} {db : Database} {i : Nat} {user : User}

/-- Login succeeds exactly when the password checks against the column. -/
theorem login_of_row (h : db.users.Distinct User.account) (hrow : db.users.row i = some user)
    (env : Env) {request : Request} (haccount : (request.get .account).text = some user.account) :
    isError (answer L db ⟨env, .userLogin request⟩) = false ↔
      L.hashCheck ((request.get .password).text.getD "") user.password = true := by
  have hanswer : answer L db ⟨env, .userLogin request⟩
      = ((UserController.login L env request).serve db).result.2 := rfl
  rw [hanswer, UserController.login_result, UserController.byAccount,
    first_equalsText h hrow haccount]
  dsimp only
  by_cases hcheck : L.hashCheck ((request.get .password).text.getD "") user.password = true
  · rw [if_pos hcheck]
    exact iff_of_true rfl hcheck
  · rw [if_neg hcheck]
    exact iff_of_false (by simp [isError, sendError, json]) hcheck

end Login

/-- No password matches a string that is short or blank. -/
theorem Laravel.Hashing.check_plain {L : Laravel} (hL : L.Hashing) {p : String}
    (hp : p.length ≤ 12 ∨ trim p = "") (q : String) : L.hashCheck q p = false := by
  refine Bool.eq_false_iff.mpr fun hcheck => ?_
  obtain ⟨salt, rfl⟩ := (hL.check q p).mp hcheck
  rcases hp with hshort | hblank
  · exact absurd (hL.long q salt) (Nat.not_lt.mpr hshort)
  · exact hL.marked q salt hblank

/-- A hash matches the password it was made of. -/
theorem Laravel.Hashing.check_self {L : Laravel} (hL : L.Hashing) (p salt : String) :
    L.hashCheck p (L.hashMake p salt) = true :=
  (hL.check p _).mpr ⟨salt, rfl⟩

/-- And no other. -/
theorem Laravel.Telling.check_make {L : Laravel} (hL : L.Telling) {p : String}
    (hp : p.length ≤ 12) (q salt : String) :
    L.hashCheck q (L.hashMake p salt) = true ↔ q = p := by
  constructor
  · intro hcheck
    obtain ⟨salt', heq⟩ := (hL.check q _).mp hcheck
    exact (hL.inj p q salt salt' hp heq).symm
  · rintro rfl
    exact hL.check_self q salt

/-- A login request with these two fields. -/
def signIn (account password : Value) (haccount : cleaned .account account = account)
    (hpassword : cleaned .password password = password) : Request where
  input a := if a = .account then some account else if a = .password then some password else none
  clean a v h := by
    by_cases ha : a = .account
    · subst ha
      rw [if_pos rfl] at h
      cases h
      exact haccount
    · by_cases hp : a = .password
      · subst hp
        rw [if_neg ha, if_pos rfl] at h
        cases h
        exact hpassword
      · rw [if_neg ha, if_neg hp] at h
        cases h

/-- **A user logs in with exactly the password set last, if and only if it was set at
registration: a password set by an update never works.** -/
theorem password_iff (L : Laravel) (hL : L.Telling) (db : Database) (run : List Step)
    (husers : ∀ i, db.users.row i = none) (hcalls : ∀ step ∈ run, step.call.isProfile = true)
    (u : Nat) (user : User) (hrow : (after (serve L) db run).users.row u = some user) :
    ∃ s, latest Setting.user (settingLog L db run) u = some s ∧
      ((∀ env request, (request.get .account).text = some user.account →
          (isError (answer L (after (serve L) db run) ⟨env, .userLogin request⟩) = false ↔
            (request.get .password).text.getD "" = s.password.text.getD "")) ↔
        s.registered = true) := by
  have hkept := kept_after (L := L) husers hcalls
  obtain ⟨s, hlatest, hclean, hstored⟩ := hkept.stored u user hrow
  refine ⟨s, hlatest, ?_⟩
  generalize hpassword : user.password = stored at hstored
  cases hstored with
  | @hashed p salt hreg htext hshort =>
      refine iff_of_true (fun env request haccount => ?_) hreg
      rw [login_of_row hkept.accounts hrow env haccount, hpassword, hL.check_make hshort, htext,
        Option.getD_some]
  | plain hreg htext hshort =>
      refine iff_of_false (fun hlaw => ?_) (by simp [hreg])
      -- the password itself, sent back with the account, is refused
      obtain ⟨v, hv, hvtext⟩ := hkept.sendable u user hrow
      let request := signIn v s.password hv hclean
      have haccount : (request.get .account).text = some user.account := hvtext
      obtain ⟨env⟩ : Nonempty Env := inferInstance
      have hin := (hlaw env request haccount).mpr rfl
      rw [login_of_row hkept.accounts hrow env haccount, hpassword, hL.check_plain hshort] at hin
      cases hin

/-- The sample hash is one. -/
theorem Sample.telling : Sample.laravel.Telling where
  check q h := by simp [laravel]
  inj p q salt salt' _ h := by
    have hlist := congrArg String.toList h
    simp only [laravel, String.toList_append, List.append_cancel_left_eq] at hlist
    exact String.toList_inj.mp hlist
  long p salt := by
    have htag : tag.length = 14 := by decide
    simp only [laravel, String.length_append, htag]
    omega
  marked p salt := by
    refine trim_ne_empty (c := '$') ?_ (by decide)
    simp [laravel, tag]

theorem password_run :
    let run := [Sample.register 'a' "ann" "secret1", Sample.logout 1]
    ∃ user s, (after (serve Sample.laravel) Sample.database run).users.row 1 = some user ∧
      latest Setting.user (settingLog Sample.laravel Sample.database run) 1 = some s ∧
      s.registered = true ∧ ∀ env request, (request.get .account).text = some user.account →
        (isError (answer Sample.laravel (after (serve Sample.laravel) Sample.database run)
            ⟨env, .userLogin request⟩) = false ↔
          (request.get .password).text.getD "" = s.password.text.getD "") := by
  intro run
  have hsome : ((after (serve Sample.laravel) Sample.database run).users.row 1).isSome = true := by
    decide +kernel
  obtain ⟨user, hrow⟩ := Option.isSome_iff_exists.mp hsome
  obtain ⟨s, hlatest, hiff⟩ := password_iff Sample.laravel Sample.telling Sample.database run
    (fun _ => rfl) (by decide) 1 user hrow
  have hset : latest Setting.user (settingLog Sample.laravel Sample.database run) 1
      = some ⟨1, .str "secret1", true⟩ := by decide +kernel
  rw [hset] at hlatest
  cases hlatest
  exact ⟨user, _, hrow, hset, rfl, hiff.mpr rfl⟩

/-- A user changes the password: neither the new one nor the old one logs in. -/
theorem locked_out :
    let run := [Sample.register 'a' "ann" "secret1",
      Sample.editUser 1 [(.password, .str "secret2")]]
    let db := after (serve Sample.laravel) Sample.database run
    latest Setting.user (settingLog Sample.laravel Sample.database run) 1
        = some ⟨1, .str "secret2", false⟩ ∧
      isError (answer Sample.laravel db (Sample.login 'b' "ann" "secret2")) = true ∧
      isError (answer Sample.laravel db (Sample.login 'b' "ann" "secret1")) = true := by
  decide +kernel

end Spoiler
