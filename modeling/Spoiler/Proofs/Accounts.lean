/-
What the account handlers do, one request at a time.

The handlers run outside a transaction and each of them writes one row of one table
at most, so each equation is a `match` over what the request finds.  Tokens always fit
their column: they are twenty characters, and the literal of `logout` is six.
-/
import Spoiler.Proofs.Eloquent

namespace Spoiler

open Store Php

/-! ### Rows after a write -/

def User.withToken (token : String) (user : User) : User := { user with apiToken := token }

def Owner.withToken (token : String) (owner : Owner) : Owner := { owner with apiToken := token }

theorem textColumn_str {s : String} (h : s.length ≤ 255) : (Value.str s).textColumn = some s := by
  simp [Value.textColumn, Value.text, h]

theorem textColumn_random (env : Env) : (Value.str env.random).textColumn = some env.random :=
  textColumn_str (by rw [env.random_length]; decide)

theorem users_nodup : users.fillable.Nodup := by decide

theorem owners_nodup : owners.fillable.Nodup := by decide

theorem assign_userToken {s : String} (h : (Value.str s).textColumn = some s) :
    users.assign .apiToken (.str s) = some (User.withToken s) := by
  show (Value.str s).textColumn.map _ = _
  rw [h]
  rfl

theorem assign_ownerToken {s : String} (h : (Value.str s).textColumn = some s) :
    owners.assign .apiToken (.str s) = some (Owner.withToken s) := by
  show (Value.str s).textColumn.map _ = _
  rw [h]
  rfl

/-- A row that keeps its account is not looked at by the unique index. -/
theorem clash_account {db : Database} {i : Nat} {user user' : User}
    (h : user'.account = user.account) : users.clash db i user user' = false := by
  simp [Model.clash, users, h]

theorem clash_ownerAccount {db : Database} {i : Nat} {owner owner' : Owner}
    (h : owner'.account = owner.account) : owners.clash db i owner owner' = false := by
  simp [Model.clash, owners, h]

/-! ### UserController -/

namespace UserController

theorem store_result (L : Laravel) (env : Env) (request : Request) (db : Database) :
    ((store L env request).serve db).result =
      match failed db request.input (storeRules L) with
      | [] =>
          match users.make (attributes L env request) with
          | none => (db, .error .query)
          | some user =>
              if users.taken db db.users.next user then (db, .error .query)
              else ({ db with users := db.users.insert user },
                .ok (json (.user db.users.next user) 200))
      | errors => (db, .error (.validation errors)) := by
  unfold store Prog.serve
  simp only [Request.validate, Prog.select_bind, Prog.exec_select, Conn.view_idle,
    Conn.looked_idle]
  cases failed db request.input (storeRules L) with
  | cons e es => rfl
  | nil =>
      simp only [Prog.ret_bind]
      refine (Model.result_create (attributes L env request) fun x =>
        json (.user x.1 x.2) 200).trans ?_
      cases users.make (attributes L env request) <;> rfl

/-- The user a login is for. -/
def byAccount (db : Database) (account : Value) : Option (Nat × User) :=
  db.users.first fun _ r => account.equalsText r.account

theorem login_result (L : Laravel) (env : Env) (request : Request) (db : Database) :
    ((login L env request).serve db).result =
      match byAccount db (request.get .account) with
      | none => (db, .ok (sendError "account not found" 400))
      | some (i, user) =>
          if L.hashCheck ((request.get .password).text.getD "") user.password then
            ({ db with users := db.users.modify i (User.withToken env.random) },
              .ok (json (.user i (user.withToken env.random)) 200))
          else (db, .ok (sendError "wrong password" 400)) := by
  unfold login Prog.serve
  simp only [Model.whereGet, Model.whereFirst, Prog.select_bind, Prog.ret_bind, Prog.exec_select,
    Conn.view_idle, Conn.looked_idle, gt_iff_lt, Table.filter_length_pos]
  have hfirst : ((users.table.get db).first fun _ r => (request.get .account).equalsText r.account)
      = byAccount db (request.get .account) := rfl
  rw [hfirst]
  cases hby : byAccount db (request.get .account) with
  | none => rfl
  | some x =>
      obtain ⟨i, user⟩ := x
      obtain ⟨hrow, -⟩ := Table.first_some hby
      simp only [Option.isSome_some, if_true, Prog.exec_select, Conn.view_idle, Conn.looked_idle,
        hfirst, hby]
      by_cases hcheck : L.hashCheck ((request.get .password).text.getD "") user.password = true
      · rw [if_pos hcheck, if_pos hcheck, Model.exec_update_only_idle hrow users_nodup (by decide)
          (assign_userToken (textColumn_random env)) (clash_account rfl)]
        rfl
      · rw [if_neg hcheck, if_neg hcheck]
        rfl

theorem logout_result (id : Value) (db : Database) :
    ((logout id).serve db).result =
      match users.lookup db id with
      | none => (db, .ok (sendError "user id not found" 400))
      | some (i, user) =>
          ({ db with users := db.users.modify i (User.withToken "logout") },
            .ok (json (.user i (user.withToken "logout")) 200)) := by
  unfold logout Prog.serve
  rw [Model.exec_counted_idle]
  cases hl : users.lookup db id with
  | none => rfl
  | some x =>
      obtain ⟨i, user⟩ := x
      obtain ⟨-, hrow⟩ := Model.lookup_some.mp hl
      rw [Option.isSome_some, if_pos rfl, Model.exec_find_idle, hl]
      have htoken : users.assign .apiToken (.str "logout") = some (User.withToken "logout") :=
        assign_userToken (textColumn_str (by decide))
      dsimp only
      rw [Model.exec_update_only_idle hrow users_nodup (by decide) htoken (clash_account rfl)]
      rfl

theorem update_result (L : Laravel) (id : Value) (request : Request) (db : Database) :
    ((update L id request).serve db).result =
      match users.lookup db id with
      | none => (db, .ok (sendError "user id not found" 400))
      | some (i, user) =>
          match failed db request.input (updateRules L) with
          | [] =>
              match users.dirty request.input user users.fillable with
              | none => (db, .error .query)
              | some f =>
                  if users.clash db i user (f user) then (db, .error .query)
                  else ({ db with users := db.users.modify i f },
                    .ok (json (.user i (f user)) 200))
          | errors => (db, .error (.validation errors)) := by
  unfold update Prog.serve
  rw [Model.exec_counted_idle]
  cases hl : users.lookup db id with
  | none => rfl
  | some x =>
      obtain ⟨i, user⟩ := x
      obtain ⟨-, hrow⟩ := Model.lookup_some.mp hl
      rw [Option.isSome_some, if_pos rfl]
      simp only [Request.validate, Prog.select_bind, Prog.exec_select, Conn.view_idle,
        Conn.looked_idle]
      cases failed db request.input (updateRules L) with
      | cons e es => rfl
      | nil =>
          dsimp only
          rw [Prog.ret_bind, Model.exec_find_idle, hl]
          refine (Model.result_update hrow request.input fun r => json (.user i r) 200).trans ?_
          cases users.dirty request.input user users.fillable <;> rfl

end UserController

/-! ### OwnerController -/

namespace OwnerController

theorem store_result (L : Laravel) (env : Env) (request : Request) (db : Database) :
    ((store L env request).serve db).result =
      match failed db request.input storeRules with
      | [] =>
          match owners.make (attributes L env request) with
          | none => (db, .error .query)
          | some owner =>
              if owners.taken db db.owners.next owner then (db, .error .query)
              else ({ db with owners := db.owners.insert owner },
                .ok (json (.owner db.owners.next owner) 200))
      | errors => (db, .error (.validation errors)) := by
  unfold store Prog.serve
  simp only [Request.validate, Prog.select_bind, Prog.exec_select, Conn.view_idle,
    Conn.looked_idle]
  cases failed db request.input storeRules with
  | cons e es => rfl
  | nil =>
      simp only [Prog.ret_bind]
      refine (Model.result_create (attributes L env request) fun x =>
        json (.owner x.1 x.2) 200).trans ?_
      cases owners.make (attributes L env request) <;> rfl

/-- The owner a login is for. -/
def byAccount (db : Database) (account : Value) : Option (Nat × Owner) :=
  db.owners.first fun _ r => account.equalsText r.account

theorem login_result (L : Laravel) (env : Env) (request : Request) (db : Database) :
    ((login L env request).serve db).result =
      match byAccount db (request.get .account) with
      | none => (db, .ok (sendError "account not found" 400))
      | some (i, owner) =>
          if L.hashCheck ((request.get .password).text.getD "") owner.password then
            ({ db with owners := db.owners.modify i (Owner.withToken env.random) },
              .ok (json (.owner i (owner.withToken env.random)) 200))
          else (db, .ok (sendError "wrong password" 400)) := by
  unfold login Prog.serve
  simp only [Model.whereGet, Model.whereFirst, Prog.select_bind, Prog.ret_bind, Prog.exec_select,
    Conn.view_idle, Conn.looked_idle, gt_iff_lt, Table.filter_length_pos]
  have hfirst : ((owners.table.get db).first fun _ r => (request.get .account).equalsText r.account)
      = byAccount db (request.get .account) := rfl
  rw [hfirst]
  cases hby : byAccount db (request.get .account) with
  | none => rfl
  | some x =>
      obtain ⟨i, owner⟩ := x
      obtain ⟨hrow, -⟩ := Table.first_some hby
      simp only [Option.isSome_some, if_true, Prog.exec_select, Conn.view_idle, Conn.looked_idle,
        hfirst, hby]
      by_cases hcheck : L.hashCheck ((request.get .password).text.getD "") owner.password = true
      · rw [if_pos hcheck, if_pos hcheck, Model.exec_update_only_idle hrow owners_nodup (by decide)
          (assign_ownerToken (textColumn_random env)) (clash_ownerAccount rfl)]
        rfl
      · rw [if_neg hcheck, if_neg hcheck]
        rfl

end OwnerController

/-! ### FBController -/

namespace FBController

/-- The user a Facebook account belongs to. -/
def byAccount (db : Database) (id : String) : Option (Nat × User) :=
  db.users.first fun _ r => r.account == id

theorem login_result (env : Env) (resource : GraphUser) (db : Database) :
    ((login env resource).serve db).result =
      match byAccount db resource.id with
      | none =>
          match users.make (attributes env resource) with
          | none => (db, .error .query)
          | some user =>
              if users.taken db db.users.next user then (db, .error .query)
              else ({ db with users := db.users.insert user },
                .ok (json (.user db.users.next user) 200))
      | some (i, user) =>
          match users.dirty (refreshed env resource) user users.fillable with
          | none => (db, .error .query)
          | some f =>
              if users.clash db i user (f user) then (db, .error .query)
              else ({ db with users := db.users.modify i f },
                .ok (json (.user i (f user)) 200)) := by
  unfold login Prog.serve
  simp only [Model.whereGet, Model.whereFirst, Prog.select_bind, Prog.ret_bind, Prog.exec_select,
    Conn.view_idle, Conn.looked_idle]
  have hfirst : ((users.table.get db).first fun _ r => r.account == resource.id)
      = byAccount db resource.id := rfl
  have hcount : ((users.table.get db).filter fun _ r => r.account == resource.id).length = 0
      ↔ byAccount db resource.id = none := by
    rw [← hfirst, List.length_eq_zero_iff, Table.filter_eq_nil, Table.first_none]
  simp only [hcount]
  cases hby : byAccount db resource.id with
  | none =>
      simp only [if_true]
      refine (Model.result_create (attributes env resource) fun x =>
        json (.user x.1 x.2) 200).trans ?_
      cases users.make (attributes env resource) <;> rfl
  | some x =>
      obtain ⟨i, user⟩ := x
      obtain ⟨hrow, -⟩ := Table.first_some hby
      simp only [reduceCtorEq, if_false, Prog.exec_select, Conn.view_idle, Conn.looked_idle,
        hfirst, hby]
      refine (Model.result_update hrow (refreshed env resource) fun r =>
        json (.user i r) 200).trans ?_
      cases users.dirty (refreshed env resource) user users.fillable <;> rfl

end FBController

end Spoiler
