/-
What an account request can do to the users.

`Signs` lists the cases the way `Moves` does for stock: a request either changes no
user and says so, or writes exactly one row, and the answer carries its id.
-/
import Spoiler.Proofs.Accounts
import Spoiler.Store.Run

namespace Spoiler

open Store Php

/-- The calls that write users. -/
def Call.isUser : Call → Bool
  | userStore _ => true
  | userLogin _ => true
  | userUpdate _ _ => true
  | userLogout _ => true
  | fbLogin _ => true
  | _ => false

/-! ### Columns -/

/-- The columns of a user an assignment to `b` leaves alone. -/
structure User.Beside (b : Attr) (r q : User) : Prop where
  name : b ≠ .name → q.name = r.name
  account : b ≠ .account → q.account = r.account
  email : b ≠ .email → q.email = r.email
  password : b ≠ .password → q.password = r.password
  point : b ≠ .point → q.point = r.point
  apiToken : b ≠ .apiToken → q.apiToken = r.apiToken
  image : b ≠ .image → q.image = r.image
  badRecord : b ≠ .badRecord → q.badRecord = r.badRecord
  accessToken : b ≠ .accessToken → q.accessToken = r.accessToken

theorem users_keeps {b : Attr} {v : Value} {f : User → User} (hf : users.assign b v = some f)
    (r : User) : r.Beside b (f r) := by
  cases b <;> first
    | (obtain ⟨x, -, rfl⟩ := Option.map_eq_some_iff.mp hf
       constructor <;> intro hb <;> first | rfl | exact absurd rfl hb)
    | cases hf

theorem userName_column : users.Column .name User.name Value.textColumn :=
  .of_beside users_keeps users_nodup (by decide) (fun _ => rfl) (fun _ _ => rfl)
    fun _ _ _ h => h.name

theorem account_column : users.Column .account User.account Value.textColumn :=
  .of_beside users_keeps users_nodup (by decide) (fun _ => rfl) (fun _ _ => rfl)
    fun _ _ _ h => h.account

theorem email_column : users.Column .email User.email Value.nullableText :=
  .of_beside users_keeps users_nodup (by decide) (fun _ => rfl) (fun _ _ => rfl)
    fun _ _ _ h => h.email

theorem password_column : users.Column .password User.password Value.textColumn :=
  .of_beside users_keeps users_nodup (by decide) (fun _ => rfl) (fun _ _ => rfl)
    fun _ _ _ h => h.password

theorem point_column : users.Column .point User.point Value.intColumn :=
  .of_beside users_keeps users_nodup (by decide) (fun _ => rfl) (fun _ _ => rfl)
    fun _ _ _ h => h.point

theorem token_column : users.Column .apiToken User.apiToken Value.textColumn :=
  .of_beside users_keeps users_nodup (by decide) (fun _ => rfl) (fun _ _ => rfl)
    fun _ _ _ h => h.apiToken

theorem userImage_column : users.Column .image User.image Value.nullableText :=
  .of_beside users_keeps users_nodup (by decide) (fun _ => rfl) (fun _ _ => rfl)
    fun _ _ _ h => h.image

theorem badRecord_column : users.Column .badRecord User.badRecord Value.intColumn :=
  .of_beside users_keeps users_nodup (by decide) (fun _ => rfl) (fun _ _ => rfl)
    fun _ _ _ h => h.badRecord

theorem accessToken_column : users.Column .accessToken User.accessToken Value.nullableText :=
  .of_beside users_keeps users_nodup (by decide) (fun _ => rfl) (fun _ _ => rfl)
    fun _ _ _ h => h.accessToken

theorem users_settles : users.Settles := by
  intro a v f hf
  cases a with
  | name => exact userName_column.settled (fun _ => rfl) (fun _ => rfl) hf
  | account => exact account_column.settled (fun _ => rfl) (fun _ => rfl) hf
  | email => exact email_column.settled (fun _ => rfl) (fun _ => rfl) hf
  | password => exact password_column.settled (fun _ => rfl) (fun _ => rfl) hf
  | point => exact point_column.settled (fun _ => rfl) (fun _ => rfl) hf
  | apiToken => exact token_column.settled (fun _ => rfl) (fun _ => rfl) hf
  | image => exact userImage_column.settled (fun _ => rfl) (fun _ => rfl) hf
  | badRecord => exact badRecord_column.settled (fun _ => rfl) (fun _ => rfl) hf
  | accessToken => exact accessToken_column.settled (fun _ => rfl) (fun _ => rfl) hf
  | _ => cases hf

/-- The columns of a registered user that later requests look at. -/
structure UserController.Drawn (L : Laravel) (env : Env) (request : Request) (user : User) :
    Prop where
  account : (request.get .account).textColumn = some user.account
  password : user.password = L.hashMake ((request.get .password).text.getD "") env.salt
  apiToken : user.apiToken = env.random

theorem UserController.drawn_of_make {L : Laravel} {env : Env} {request : Request} {user : User}
    (h : users.make (attributes L env request) = some user) : Drawn L env request user := by
  simp only [users, User.make, attributes, Option.bind_eq_bind, Option.bind_eq_some_iff,
    Option.some.injEq] at h
  obtain ⟨i, -, n, -, a, -, acc, hacc, e, -, p, hp, q, -, b, -, t, ht, rfl⟩ := h
  refine ⟨hacc, ?_, ?_⟩
  · exact (Option.some.inj (Value.text_of_textColumn hp)).symm
  · exact (Option.some.inj (Value.text_of_textColumn ht)).symm

/-- The same of a user who comes from Facebook. -/
structure FBController.Drawn (env : Env) (resource : GraphUser) (user : User) : Prop where
  account : user.account = resource.id
  password : user.password = "facebook"
  apiToken : user.apiToken = env.random

theorem FBController.drawn_of_make {env : Env} {resource : GraphUser} {user : User}
    (h : users.make (attributes env resource) = some user) : Drawn env resource user := by
  simp only [users, User.make, attributes, Option.bind_eq_bind, Option.bind_eq_some_iff,
    Option.some.injEq] at h
  obtain ⟨i, -, n, -, a, -, acc, hacc, e, -, p, hp, q, -, b, -, t, ht, rfl⟩ := h
  refine ⟨?_, ?_, ?_⟩
  · exact (Option.some.inj (Value.text_of_textColumn hacc)).symm
  · exact (Option.some.inj (Value.text_of_textColumn hp)).symm
  · exact (Option.some.inj (Value.text_of_textColumn ht)).symm

/-! ### Moves -/

/-- What an account request leaves of `db` and answers. -/
inductive Signs (L : Laravel) (db : Database) : Step → Database × Except Exn Response → Prop
  /-- Refused or rejected. -/
  | still {step : Step} {a : Except Exn Response} (herror : isError a = true) :
      Signs L db step (db, a)
  | registered {env : Env} {request : Request} {user : User}
      (hvalid : failed db request.input (UserController.storeRules L) = [])
      (hm : users.make (UserController.attributes L env request) = some user)
      (htaken : users.taken db db.users.next user = false) :
      Signs L db ⟨env, .userStore request⟩
        ({ db with users := db.users.insert user }, .ok (json (.user db.users.next user) 200))
  | loggedIn {env : Env} {request : Request} {i : Nat} {user : User}
      (hby : UserController.byAccount db (request.get .account) = some (i, user))
      (hcheck : L.hashCheck ((request.get .password).text.getD "") user.password = true) :
      Signs L db ⟨env, .userLogin request⟩
        ({ db with users := db.users.modify i (User.withToken env.random) },
          .ok (json (.user i (user.withToken env.random)) 200))
  | updated {env : Env} {id : Value} {request : Request} {i : Nat} {user : User} {f : User → User}
      (hl : users.lookup db id = some (i, user))
      (hvalid : failed db request.input (UserController.updateRules L) = [])
      (hf : users.dirty request.input user users.fillable = some f)
      (hclash : users.clash db i user (f user) = false) :
      Signs L db ⟨env, .userUpdate id request⟩
        ({ db with users := db.users.modify i f }, .ok (json (.user i (f user)) 200))
  | loggedOut {env : Env} {id : Value} {i : Nat} {user : User}
      (hl : users.lookup db id = some (i, user)) :
      Signs L db ⟨env, .userLogout id⟩
        ({ db with users := db.users.modify i (User.withToken "logout") },
          .ok (json (.user i (user.withToken "logout")) 200))
  | arrived {env : Env} {resource : FBController.GraphUser} {user : User}
      (hnone : FBController.byAccount db resource.id = none)
      (hm : users.make (FBController.attributes env resource) = some user) :
      Signs L db ⟨env, .fbLogin resource⟩
        ({ db with users := db.users.insert user }, .ok (json (.user db.users.next user) 200))
  | returned {env : Env} {resource : FBController.GraphUser} {i : Nat} {user : User}
      {f : User → User} (hby : FBController.byAccount db resource.id = some (i, user))
      (hf : users.dirty (FBController.refreshed env resource) user users.fillable = some f) :
      Signs L db ⟨env, .fbLogin resource⟩
        ({ db with users := db.users.modify i f }, .ok (json (.user i (f user)) 200))

namespace Signs

variable {L : Laravel} {db : Database} {env : Env}

theorem ofStore (request : Request) : Signs L db ⟨env, .userStore request⟩
    ((UserController.store L env request).serve db).result := by
  rw [UserController.store_result]
  cases hvalid : failed db request.input (UserController.storeRules L) with
  | cons e es => exact .still rfl
  | nil =>
      dsimp only
      cases hm : users.make (UserController.attributes L env request) with
      | none => exact .still rfl
      | some user =>
          dsimp only
          by_cases htaken : users.taken db db.users.next user = true
          · rw [if_pos htaken]
            exact .still rfl
          · rw [if_neg htaken]
            exact .registered hvalid hm (by simpa using htaken)

theorem ofLogin (request : Request) : Signs L db ⟨env, .userLogin request⟩
    ((UserController.login L env request).serve db).result := by
  rw [UserController.login_result]
  cases hby : UserController.byAccount db (request.get .account) with
  | none => exact .still rfl
  | some x =>
      obtain ⟨i, user⟩ := x
      dsimp only
      by_cases hcheck : L.hashCheck ((request.get .password).text.getD "") user.password = true
      · rw [if_pos hcheck]
        exact .loggedIn hby hcheck
      · rw [if_neg hcheck]
        exact .still rfl

theorem ofUpdate (id : Value) (request : Request) : Signs L db ⟨env, .userUpdate id request⟩
    ((UserController.update L id request).serve db).result := by
  rw [UserController.update_result]
  cases hl : users.lookup db id with
  | none => exact .still rfl
  | some x =>
      obtain ⟨i, user⟩ := x
      dsimp only
      cases hvalid : failed db request.input (UserController.updateRules L) with
      | cons e es => exact .still rfl
      | nil =>
          dsimp only
          cases hf : users.dirty request.input user users.fillable with
          | none => exact .still rfl
          | some f =>
              dsimp only
              by_cases hclash : users.clash db i user (f user) = true
              · rw [if_pos hclash]
                exact .still rfl
              · rw [if_neg hclash]
                exact .updated hl hvalid hf (by simpa using hclash)

theorem ofLogout (id : Value) : Signs L db ⟨env, .userLogout id⟩
    ((UserController.logout id).serve db).result := by
  rw [UserController.logout_result]
  cases hl : users.lookup db id with
  | none => exact .still rfl
  | some x => exact .loggedOut hl

theorem ofFacebook (resource : FBController.GraphUser) : Signs L db ⟨env, .fbLogin resource⟩
    ((FBController.login env resource).serve db).result := by
  rw [FBController.login_result]
  cases hby : FBController.byAccount db resource.id with
  | none =>
      dsimp only
      cases hm : users.make (FBController.attributes env resource) with
      | none => exact .still rfl
      | some user =>
          dsimp only
          by_cases htaken : users.taken db db.users.next user = true
          · rw [if_pos htaken]
            exact .still rfl
          · rw [if_neg htaken]
            exact .arrived hby hm
  | some x =>
      obtain ⟨i, user⟩ := x
      dsimp only
      cases hf : users.dirty (FBController.refreshed env resource) user users.fillable with
      | none => exact .still rfl
      | some f =>
          dsimp only
          by_cases hclash : users.clash db i user (f user) = true
          · rw [if_pos hclash]
            exact .still rfl
          · rw [if_neg hclash]
            exact .returned hby hf

end Signs

/-- **Every account request makes one of these moves.** -/
theorem signs (L : Laravel) (db : Database) (step : Step) (h : step.call.isUser = true) :
    Signs L db step (serve L db step, answer L db step) := by
  obtain ⟨env, call⟩ := step
  cases call with
  | userStore request => exact Signs.ofStore request
  | userLogin request => exact Signs.ofLogin request
  | userUpdate id request => exact Signs.ofUpdate id request
  | userLogout id => exact Signs.ofLogout id
  | fbLogin resource => exact Signs.ofFacebook resource
  | _ => cases h

/-- An account request writes users only. -/
theorem account_frame {L : Laravel} {db : Database} {step : Step} (h : step.call.isUser = true) :
    serve L db step = { db with users := (serve L db step).users } := by
  have hsigns := signs L db step h
  generalize serve L db step = db' at hsigns ⊢
  generalize answer L db step = a at hsigns
  cases hsigns <;> rfl

end Spoiler
