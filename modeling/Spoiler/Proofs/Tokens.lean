/-
Who a token belongs to.

The requests of a run leave a log: a token issued to a user at registration or login,
or a user's token revoked at logout.  The invariant says that a user's row and the
latest entry about that user agree.  A row after a logout carries the string
`logout`, though, and that string is a token like any other: whoever sends it is the
first user in the table who has logged out.
-/
import Spoiler.App.Routes
import Spoiler.App.Sample
import Spoiler.Proofs.Users

namespace Spoiler

open Store Php

/-! ### The log -/

inductive Grant
  | issued (user : Nat) (token : String)
  | revoked (user : Nat)
  deriving DecidableEq, Repr

def Grant.user : Grant → Nat
  | issued user _ => user
  | revoked user => user

/-- What a request adds to the log. -/
def grants (L : Laravel) (db : Database) (step : Step) : List Grant :=
  match answer L db step with
  | .ok ⟨200, .user i _⟩ =>
      match step.call with
      | .userStore _ => [.issued i step.env.random]
      | .userLogin _ => [.issued i step.env.random]
      | .fbLogin _ => [.issued i step.env.random]
      | .userLogout _ => [.revoked i]
      | _ => []
  | _ => []

/-- The log of a run. -/
def grantLog (L : Laravel) (db : Database) (run : List Step) : List Grant :=
  trace (serve L) (grants L) db run

theorem grants_of_error {L : Laravel} {db : Database} {step : Step}
    (h : isError (answer L db step) = true) : grants L db step = [] := by
  unfold grants
  split
  · rename_i heq
    rw [heq] at h
    simp [isError] at h
  · rfl

/-- The calls that write tokens. -/
def Call.isToken : Call → Bool
  | userStore _ => true
  | userLogin _ => true
  | userLogout _ => true
  | fbLogin _ => true
  | _ => false

theorem Call.isUser_of_isToken {call : Call} (h : call.isToken = true) : call.isUser = true := by
  cases call <;> first | rfl | cases h

/-! ### The invariant -/

/-- A user's row as the latest entry about the user has it. -/
def Agrees (i : Nat) (token : String) (entry : Option Grant) : Prop :=
  (entry = some (.issued i token) ∧ token ≠ "logout") ∨
    (entry = some (.revoked i) ∧ token = "logout")

structure Logged (db : Database) (log : List Grant) : Prop where
  rows : ∀ i user, db.users.row i = some user →
    Agrees i user.apiToken (latest Grant.user log i)
  known : ∀ i, latest Grant.user log i ≠ none → ∃ user, db.users.row i = some user

theorem random_ne_logout (env : Env) : env.random ≠ "logout" := by
  intro h
  have hlen := env.random_length
  rw [h] at hlen
  exact absurd hlen (by decide)

/-- Writing one row and one entry about it. -/
theorem Logged.sets {db db' : Database} {log : List Grant} {i : Nat} {user : User} {g : Grant}
    (h : Logged db log) (hsets : db.users.Sets db'.users i user) (hg : g.user = i)
    (hagree : Agrees i user.apiToken (some g)) : Logged db' (log ++ [g]) where
  rows j row hrow := by
    by_cases hj : j = i
    · subst hj
      rw [hsets.here] at hrow
      cases hrow
      rw [latest_self hg]
      exact hagree
    · rw [hsets.elsewhere j hj] at hrow
      rw [latest_other fun heq => hj (heq.symm.trans hg)]
      exact h.rows j row hrow
  known j hj := by
    by_cases hji : j = i
    · exact ⟨user, hji ▸ hsets.here⟩
    · rw [latest_other fun heq => hji (heq.symm.trans hg)] at hj
      obtain ⟨row, hrow⟩ := h.known j hj
      exact ⟨row, by rw [hsets.elsewhere j hji, hrow]⟩

theorem agrees_issued (env : Env) (i : Nat) :
    Agrees i env.random (some (.issued i env.random)) :=
  .inl ⟨rfl, random_ne_logout env⟩

theorem logged_step {L : Laravel} {db : Database} {log : List Grant} {step : Step}
    (hcall : step.call.isToken = true) (h : Logged db log) :
    Logged (serve L db step) (log ++ grants L db step) := by
  have hsigns := signs L db step (Call.isUser_of_isToken hcall)
  generalize serve L db step = db' at hsigns ⊢
  generalize ha : answer L db step = a at hsigns
  cases hsigns with
  | still herror =>
      rw [grants_of_error (by rw [ha]; exact herror), List.append_nil]
      exact h
  | @registered env request user hvalid hm htaken =>
      have hgrant : grants L db ⟨env, .userStore request⟩ = [.issued db.users.next env.random] := by
        simp [grants, ha, json]
      have htoken := (UserController.drawn_of_make hm).apiToken
      rw [hgrant]
      exact h.sets (db.users.insert_sets user) rfl (by rw [htoken]; exact agrees_issued env _)
  | @loggedIn env request i user hby hcheck =>
      have hgrant : grants L db ⟨env, .userLogin request⟩ = [.issued i env.random] := by
        simp [grants, ha, json]
      rw [hgrant]
      exact h.sets (Table.modify_sets (Table.first_some hby).1) rfl (agrees_issued env i)
  | @loggedOut env id i user hl =>
      have hgrant : grants L db ⟨env, .userLogout id⟩ = [.revoked i] := by
        simp [grants, ha, json]
      rw [hgrant]
      exact h.sets (Table.modify_sets (Model.lookup_some.mp hl).2) rfl (.inr ⟨rfl, rfl⟩)
  | @arrived env resource user hnone hm =>
      have hgrant : grants L db ⟨env, .fbLogin resource⟩ = [.issued db.users.next env.random] := by
        simp [grants, ha, json]
      have htoken := (FBController.drawn_of_make hm).apiToken
      rw [hgrant]
      exact h.sets (db.users.insert_sets user) rfl (by rw [htoken]; exact agrees_issued env _)
  | @returned env resource i user f hby hf =>
      have hgrant : grants L db ⟨env, .fbLogin resource⟩ = [.issued i env.random] := by
        simp [grants, ha, json]
      have htoken : (f user).apiToken = env.random := by
        rcases token_column.dirty hf with ⟨hnone, -⟩ | ⟨v, s, hv, hs, hset⟩
        · cases hnone
        · cases hv
          rw [textColumn_random] at hs
          cases hs
          exact hset
      rw [hgrant]
      exact h.sets (Table.modify_sets (Table.first_some hby).1) rfl
        (by rw [htoken]; exact agrees_issued env i)
  | updated hl hvalid hf hclash => cases hcall

theorem logged_after {L : Laravel} {db : Database} {run : List Step}
    (husers : ∀ i, db.users.row i = none) (hcalls : ∀ step ∈ run, step.call.isToken = true) :
    Logged (after (serve L) db run) (grantLog L db run) := by
  have hstart : Logged db [] := by
    refine ⟨fun i user hrow => ?_, fun i hne => absurd rfl hne⟩
    rw [husers i] at hrow
    cases hrow
  have hrun : Along (serve L) (fun _ step => step.call.isToken = true) db run :=
    Along.of_forall fun step hmem _ => hcalls step hmem
  have hend : Logged (after (serve L) db run) ([] ++ trace (serve L) (grants L) db run) :=
    after_trace_invariant (fun s l r hs hc => logged_step hc hs) hstart hrun
  exact hend

/-! ### The guard -/

section Guard

variable {ρ : Type} {t : Table ρ} {column : ρ → String} {token : String} {i : Nat}

/-- A guard takes a token for a row that has it. -/
theorem tokenGuard_some (h : tokenGuard t column token = some i) :
    ∃ row, t.row i = some row ∧ column row = token := by
  unfold tokenGuard at h
  split at h
  · cases h
  · obtain ⟨⟨i, row⟩, hfirst, rfl⟩ := Option.map_eq_some_iff.mp h
    obtain ⟨hrow, htoken⟩ := Table.first_some hfirst
    exact ⟨row, hrow, by simpa using htoken⟩

/-- Some row has the token, so the guard takes it for some row. -/
theorem tokenGuard_of_row {row : ρ} (hrow : t.row i = some row) (htoken : column row = token)
    (hfilled : ¬ (token = "" ∨ token = "0")) : ∃ j, tokenGuard t column token = some j := by
  unfold tokenGuard
  rw [if_neg hfilled]
  cases hfirst : t.first fun _ r => column r == token with
  | none =>
      have hno := Table.first_none.mp hfirst i row hrow
      simp [htoken] at hno
  | some x => exact ⟨x.1, rfl⟩

end Guard

/-- **The guard resolves a token to the user it was last issued to, for every token but
`logout`, and for that one exactly while nobody is logged out.** -/
theorem guard_iff (L : Laravel) (db : Database) (run : List Step)
    (husers : ∀ i, db.users.row i = none) (hcalls : ∀ step ∈ run, step.call.isToken = true)
    (t : String) :
    (∀ u, guard (after (serve L) db run) t = some u →
        latest Grant.user (grantLog L db run) u = some (.issued u t)) ↔
      (t = "logout" → ∀ u, latest Grant.user (grantLog L db run) u ≠ some (.revoked u)) := by
  have hlogged := logged_after (L := L) husers hcalls
  constructor
  · rintro hguard rfl u hrevoked
    obtain ⟨user, hrow⟩ := hlogged.known u (by rw [hrevoked]; exact Option.some_ne_none _)
    have htoken : user.apiToken = "logout" := by
      rcases hlogged.rows u user hrow with ⟨hissued, -⟩ | ⟨-, htoken⟩
      · rw [hrevoked] at hissued
        cases hissued
      · exact htoken
    obtain ⟨v, hv⟩ : ∃ v, guard _ "logout" = some v := tokenGuard_of_row hrow htoken (by decide)
    obtain ⟨other, hother, hsame⟩ := tokenGuard_some hv
    rcases hlogged.rows v other hother with ⟨-, hne⟩ | ⟨hlatest, -⟩
    · exact hne hsame
    · rw [hguard v hv] at hlatest
      cases hlatest
  · intro hnone u hu
    obtain ⟨user, hrow, rfl⟩ := tokenGuard_some hu
    rcases hlogged.rows u user hrow with ⟨hissued, -⟩ | ⟨hrevoked, htoken⟩
    · exact hissued
    · exact absurd hrevoked (hnone htoken u)

theorem guard_run :
    let run := [Sample.register 'a' "ann" "secret1", Sample.logout 1,
      Sample.login 'b' "ann" "secret1"]
    guard (after (serve Sample.laravel) Sample.database run) (Sample.token 'b') = some 1 ∧
      latest Grant.user (grantLog Sample.laravel Sample.database run) 1
        = some (.issued 1 (Sample.token 'b')) :=
  ⟨by decide +kernel,
    (guard_iff Sample.laravel Sample.database
      [Sample.register 'a' "ann" "secret1", Sample.logout 1, Sample.login 'b' "ann" "secret1"]
      (fun _ => rfl) (by decide) (Sample.token 'b')).mpr (fun h => absurd h (by decide +kernel)) 1
      (by decide +kernel)⟩

/-- Two users register and the first one logs out: the token `logout` is that user's. -/
theorem guard_after_logout :
    let run := [Sample.register 'a' "ann" "secret1", Sample.register 'b' "bob" "secret2",
      Sample.logout 1]
    guard (after (serve Sample.laravel) Sample.database run) "logout" = some 1 ∧
      latest Grant.user (grantLog Sample.laravel Sample.database run) 1 = some (.revoked 1) := by
  decide +kernel

end Spoiler
