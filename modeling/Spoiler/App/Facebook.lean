/-
`FBController::fbCallback`: the way back from Facebook.

What the SDK answers is a parameter: the helper gives an access token, none, or throws, and
the Graph API gives the user the token is for, or throws.  The body has three `catch` clauses,
and what they catch depends on what the names in them mean in this file.
`FacebookResponseException` is not imported, so the first clause names a class of the
controllers' own namespace; `Exception` is imported from `http`, where there is no such class.

`Exceptions\Handler::render` answers what is left of Facebook's exceptions.
-/
import Spoiler.App.Accounts

namespace Spoiler

open Store Php

namespace FBController

/-- The names `FBController.php` imports; `Exception` is the one of `http`. -/
def uses : List String := ["User", "FacebookSDKException", "Facebook", "Exception", "Str", "View"]

/-- What the SDK throws; either has a message. -/
inductive SdkError
  /-- A `FacebookResponseException`, which is a `FacebookSDKException`. -/
  | response (message : String)
  | sdk (message : String)

/-- `$e->getMessage()`. -/
def SdkError.message : SdkError → String
  | response message => message
  | sdk message => message

/-- What can be thrown on the way. -/
inductive Failure
  | app (e : Exn)
  | facebook (e : SdkError)

/-- The classes an exception is an instance of, as far as this file has names for them. -/
def Failure.classes : Failure → List PhpClass
  | app e => e.classes
  | facebook _ => [.used "FacebookSDKException", .exception, .throwable]

def Failure.isA (cls : PhpClass) (e : Failure) : Bool := e.classes.contains cls

/-- What the browser gets. -/
inductive Page
  /-- A JSON string. -/
  | text (text : String) (status : Nat)
  /-- A JSON object with a message. -/
  | message (message : String) (status : Nat)
  /-- The view `layout.loginSuccess`, with the row the login returned. -/
  | loginSuccess (user : Payload)
  | loginFailed

/-- The helper of the SDK: the access token, and the fields of an error in the address. -/
structure Helper where
  accessToken : Except SdkError (Option String)
  error : Option String
  errorCode : Option String
  errorReason : Option String
  errorDescription : Option String

/-- `if ($helper->getError())`. -/
def Helper.hasError (helper : Helper) : Bool :=
  match helper.error with
  | none => false
  | some s => s != "" && s != "0"

def Helper.report (helper : Helper) : String :=
  "Error: " ++ helper.error.getD "" ++ "\n" ++
  "Error Code: " ++ helper.errorCode.getD "" ++ "\n" ++
  "Error Reason: " ++ helper.errorReason.getD "" ++ "\n" ++
  "Error Description: " ++ helper.errorDescription.getD "" ++ "\n"

/-- The clauses of a `try`, in order: the first whose class the exception has answers. -/
def caught (clauses : List (String × (SdkError → Page))) (e : SdkError) : Option Page :=
  (clauses.find? fun clause => (Failure.facebook e).isA (resolveClass uses clause.1)).map
    fun clause => clause.2 e

/-- The clauses around `getAccessToken`. -/
def tokenClauses : List (String × (SdkError → Page)) :=
  [("FacebookResponseException", fun e => .text ("Graph returned an error: " ++ e.message) 400),
   ("FacebookSDKException", fun e => .text ("Facebook SDK returned an error: " ++ e.message) 400)]

/-- `$fb->get($endpoint, $token)` and then the rest of `login`, which stores the token. -/
def graphLogin (env : Env) (graph : String → Except SdkError GraphUser) (token : String) :
    Prog Database Event Failure Response :=
  match graph token with
  | .error e => .raise (.facebook e)
  | .ok resource => (login env { resource with token := token }).mapError .app

/-- `graph` is what the Graph API answers for an access token. -/
def fbCallback (env : Env) (helper : Helper) (graph : String → Except SdkError GraphUser) :
    Prog Database Event Failure Page :=
  match helper.accessToken with
  | .error e =>
      match caught tokenClauses e with
      | some page => .ret page
      | none => .raise (.facebook e)
  | .ok none =>
      if helper.hasError then .ret (.text helper.report 401)
      else .ret (.message "Bad request" 400)
  | .ok (some token) =>
      (graphLogin env graph token >>= fun user => .ret (.loginSuccess user.body)).tryCatch
        (Failure.isA (resolveClass uses "Exception")) fun _ => .ret .loginFailed

/-- `Exceptions\Handler::render`: an exception of the SDK is answered with its message, the
rest is left to the framework. -/
def render : Except Failure Page → Except Exn Page
  | .ok page => .ok page
  | .error (.app e) => .error e
  | .error (.facebook e) => .ok (.message e.message 400)

end FBController

end Spoiler
