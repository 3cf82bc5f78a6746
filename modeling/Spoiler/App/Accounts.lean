/-
`UserController`, `OwnerController` and `FBController`: accounts and tokens.

Registering and logging in write a fresh random string into `api_token`; logging
out writes the literal `'logout'`.  A password is hashed when it is registered.
`UserController::update` assigns the whole request body, so whatever of it is
fillable goes into the row as it came.
-/
import Spoiler.App.Eloquent

namespace Spoiler

open Store Php

/-! ### UserController -/

namespace UserController

def storeRules (L : Laravel) : List (Attr × List Rule) :=
  [(.name, [.required]),
   (.account, [.required, .unique users.table User.account fun _ _ => true]),
   (.email, [.sometimes, .email L]),
   (.password, [.required, .between 6 12])]

/-- The attributes of a registered user. -/
def attributes (L : Laravel) (env : Env) (request : Request) : Attr → Value
  | .name => request.get .name
  | .account => request.get .account
  | .email => request.get .email
  | .password => .str (L.hashMake ((request.get .password).text.getD "") env.salt)
  | .apiToken => .str env.random
  | .point => .int 0
  | .badRecord => .int 0
  | .accessToken => .int 0
  | _ => .null

def store (L : Laravel) (env : Env) (request : Request) : Handler := do
  request.validate (storeRules L)
  let (id, create) ← users.create (attributes L env request)
  return json (.user id create) 200

def login (L : Laravel) (env : Env) (request : Request) : Handler := do
  let account := request.get .account
  if (← users.whereGet fun _ r => account.equalsText r.account).length > 0 then
    match ← users.whereFirst fun _ r => account.equalsText r.account with
    | none => raise .nullProperty
    | some (i, user) =>
        if L.hashCheck ((request.get .password).text.getD "") user.password then
          let user ← users.update i user (.only .apiToken (.str env.random))
          return json (.user i user) 200
        else return sendError "wrong password" 400
  else return sendError "account not found" 400

def updateRules (L : Laravel) : List (Attr × List Rule) :=
  [(.account, [.unique users.table User.account fun _ _ => true]),
   (.email, [.email L]),
   (.password, [.between 6 12])]

def update (L : Laravel) (id : Value) (request : Request) : Handler := do
  if (← users.whereGet (Model.hasKey id)).length > 0 then
    request.validate (updateRules L)
    match ← users.find id with
    | none => raise .nullCall
    | some (i, user) =>
        let user ← users.update i user request.input
        return json (.user i user) 200
  else return sendError "user id not found" 400

def logout (id : Value) : Handler := do
  if (← users.whereGet (Model.hasKey id)).length > 0 then
    match ← users.find id with
    | none => raise .nullCall
    | some (i, user) =>
        let user ← users.update i user (.only .apiToken (.str "logout"))
        return json (.user i user) 200
  else return sendError "user id not found" 400

end UserController

/-! ### OwnerController -/

namespace OwnerController

def storeRules : List (Attr × List Rule) :=
  [(.name, [.required]),
   (.account, [.required, .unique owners.table Owner.account fun _ _ => true]),
   (.password, [.required, .between 6 12]),
   (.phone, [.required, .digits 10])]

/-- The attributes of a registered owner. -/
def attributes (L : Laravel) (env : Env) (request : Request) : Attr → Value
  | .name => request.get .name
  | .account => request.get .account
  | .password => .str (L.hashMake ((request.get .password).text.getD "") env.salt)
  | .apiToken => .str env.random
  | .phone => request.get .phone
  | _ => .null

def store (L : Laravel) (env : Env) (request : Request) : Handler := do
  request.validate storeRules
  let (id, create) ← owners.create (attributes L env request)
  return json (.owner id create) 200

def login (L : Laravel) (env : Env) (request : Request) : Handler := do
  let account := request.get .account
  if (← owners.whereGet fun _ r => account.equalsText r.account).length > 0 then
    match ← owners.whereFirst fun _ r => account.equalsText r.account with
    | none => raise .nullProperty
    | some (i, owner) =>
        if L.hashCheck ((request.get .password).text.getD "") owner.password then
          let owner ← owners.update i owner (.only .apiToken (.str env.random))
          return json (.owner i owner) 200
        else return sendError "wrong password" 400
  else return sendError "account not found" 400

end OwnerController

/-! ### FBController -/

namespace FBController

/-- What the Graph API answers for an access token. -/
structure GraphUser where
  id : String
  name : String
  picture : String
  token : String

/-- The attributes of a user who comes from Facebook for the first time. -/
def attributes (env : Env) (resource : GraphUser) : Attr → Value
  | .name => .str resource.name
  | .accessToken => .str resource.token
  | .account => .str resource.id
  | .password => .str "facebook"
  | .apiToken => .str env.random
  | .image => .str resource.picture
  | .point => .int 0
  | .badRecord => .int 0
  | _ => .null

/-- What a later login refreshes. -/
def refreshed (env : Env) (resource : GraphUser) : Attributes
  | .name => some (.str resource.name)
  | .apiToken => some (.str env.random)
  | .accessToken => some (.str resource.token)
  | .image => some (.str resource.picture)
  | _ => none

/-- `FBController::login`, once the Graph API has answered.  `fbCallback` shows the
row it returns on a page. -/
def login (env : Env) (resource : GraphUser) : Handler := do
  if (← users.whereGet fun _ r => r.account == resource.id).length = 0 then
    let (id, create) ← users.create (attributes env resource)
    return json (.user id create) 200
  else
    match ← users.whereFirst fun _ r => r.account == resource.id with
    | none => raise .nullCall
    | some (i, user) =>
        let user ← users.update i user (refreshed env resource)
        return json (.user i user) 200

end FBController

end Spoiler
