/-
Requests, exceptions, responses and validation.

A handler is a program over the application's database that answers with a
response or raises one of the exceptions below.  Each exception lists the classes
it is an instance of, because a `catch` clause goes by class, and a class name in
a controller file means an imported class of that name or else the class of that
name in `App\Http\Controllers`.

The body of a request has been through the global middleware, which trims its
strings and turns empty ones into null; `Request` carries that as a field.

Validation follows Laravel's `Validator`: a rule is applied when its field is
present and not blank, or when the rule is implicit (`required`), and a request
with any failed rule raises a `ValidationException` that lists them.
-/
import Spoiler.App.Database
import Spoiler.Php.Minus

namespace Spoiler

open Store Php

/-! ### Requests -/

/-- The fields `TrimStrings` leaves alone. -/
def untrimmed : List Attr := [.password, .other "password_confirmation"]

/-- What the global middleware `TrimStrings` and `ConvertEmptyStringsToNull` make of
a field before any controller sees it. -/
def cleaned (a : Attr) : Value → Value
  | .str s =>
      let t := if a ∈ untrimmed then s else trim s
      if t = "" then .null else .str t
  | v => v

theorem cleaned_cleaned (a : Attr) (v : Value) : cleaned a (cleaned a v) = cleaned a v := by
  cases v with
  | str s =>
      by_cases ha : a ∈ untrimmed
      · by_cases hs : s = ""
        · simp [cleaned, ha, hs]
        · simp [cleaned, ha, hs]
      · by_cases hs : trim s = ""
        · simp [cleaned, ha, hs]
        · simp [cleaned, ha, hs, trim_trim]
  | null => rfl
  | bool b => rfl
  | int n => rfl
  | dec x => rfl
  | file ext url => rfl

/-- The fields of a request body, as the middleware passes them on. -/
structure Request where
  input : Attributes
  clean : ∀ a v, input a = some v → cleaned a v = v

namespace Request

/-- The request a client's body becomes. -/
def ofBody (body : Attributes) : Request where
  input a := (body a).map (cleaned a)
  clean a v h := by
    obtain ⟨w, -, rfl⟩ := Option.map_eq_some_iff.mp h
    exact cleaned_cleaned a w

/-- `$request->field`: null when the field is absent. -/
def get (request : Request) (a : Attr) : Value := (request.input a).getD .null

/-- The field a rule's bound is the name of, if it has a value. -/
def bound (request : Request) (n : Int) : Option Value :=
  (request.input (.other (toString n))).filter (· != .null)

/-- `$request->except([field])`. -/
def except (request : Request) (a : Attr) : Attributes :=
  fun b => if b = a then none else request.input b

/-- `$request->hasFile(field)`, with the URL of the stored file. -/
def fileUrl (request : Request) (a : Attr) : Option String :=
  match request.input a with
  | some (.file _ url) => some url
  | _ => none

end Request

/-- What a request finds outside the database: `Str::random(20)`, `rand(...)`, the
salt of `Hash::make`, whether the broadcaster takes the event, and how PHP subtracts. -/
structure Env where
  random : String
  random_length : random.length = 20
  rand : Nat
  salt : String
  broadcasts : Bool
  minus : Minus

instance : Nonempty Env :=
  ⟨⟨"aaaaaaaaaaaaaaaaaaaa", by decide, 0, "", true, .double⟩⟩

/-- Framework code the handlers call: the password hash and the `email` rule. -/
structure Laravel where
  hashMake : (password salt : String) → String
  hashCheck : (password hash : String) → Bool
  isEmail : String → Bool

/-! ### Exceptions -/

inductive RuleName
  | required | sometimes | integer | numeric | string | boolean | email | digits | between | min
  | lte | gt | mimes | «exists» | unique | array | requiredWith
  deriving DecidableEq, Repr

inductive PhpClass
  | throwable | error | exception | errorException | runtimeException | logicException
  | pdoException | queryException | validationException | modelNotFoundException
  | authenticationException | broadcastException | badMethodCallException
  /-- A class imported by a `use` line. -/
  | used (name : String)
  /-- A class of the namespace `App\Http\Controllers`. -/
  | controllers (name : String)
  deriving DecidableEq, Repr

/-- The class a bare name means in a controller file with these imports. -/
def resolveClass (uses : List String) (name : String) : PhpClass :=
  if name ∈ uses then .used name else .controllers name

inductive Exn
  /-- Failed rules, by field. -/
  | validation (failed : List (Attr × RuleName))
  /-- A statement the database rejects. -/
  | query
  /-- Reading a property of null. -/
  | nullProperty
  /-- Calling a method on null. -/
  | nullCall
  | modelNotFound
  | authentication
  | broadcast
  | badMethodCall
  deriving DecidableEq, Repr

/-- The classes an exception is an instance of. -/
def Exn.classes : Exn → List PhpClass
  | validation _ => [.validationException, .exception, .throwable]
  | query => [.queryException, .pdoException, .runtimeException, .exception, .throwable]
  | nullProperty => [.errorException, .exception, .throwable]
  | nullCall => [.error, .throwable]
  | modelNotFound => [.modelNotFoundException, .runtimeException, .exception, .throwable]
  | authentication => [.authenticationException, .exception, .throwable]
  | broadcast => [.broadcastException, .runtimeException, .exception, .throwable]
  | badMethodCall => [.badMethodCallException, .logicException, .exception, .throwable]

def Exn.isA (cls : PhpClass) (e : Exn) : Bool := e.classes.contains cls

/-- No exception is an instance of a class of the controllers' own namespace. -/
theorem Exn.not_isA_controllers (name : String) (e : Exn) :
    e.isA (.controllers name) = false := by
  cases e <;> simp [isA, classes]

/-! ### Responses -/

/-- A restaurant on the pages that list them: with its foods, with how many foods and
likes it has, and with its distance from the user, where the page says so. -/
structure Listing where
  id : Nat
  row : Restaurant
  foods : List (Nat × Food)
  foodsCount : Option Nat
  likesCount : Nat
  distance : Option Php.Num

/-- What is encoded as JSON. -/
inductive Payload
  | message (text : String)
  | text (text : String)
  | user (id : Nat) (row : User)
  | owner (id : Nat) (row : Owner)
  | restaurant (id : Nat) (row : Restaurant)
  | food (id : Nat) (row : Food)
  | order (id : Nat) (row : Order)
  | like (id : Nat) (row : Like)
  | subscription (id : Nat) (row : Subscription)
  | report (id : Nat) (row : Report)
  | listings (entries : List Listing)
  /-- An order with the food and the user it belongs to. -/
  | orderDetails (id : Nat) (row : Order) (food : Option (Nat × Food)) (user : Option (Nat × User))
  /-- A restaurant with its foods. -/
  | restaurantDetails (id : Nat) (row : Restaurant) (foods : List (Nat × Food))
  /-- The restaurants and foods a search finds. -/
  | found (restaurants : List (Nat × Restaurant)) (foods : List (Nat × Food))
  | null
  /-- A controller method that falls off its end. -/
  | empty

structure Response where
  status : Nat
  body : Payload

/-- `response()->json($body, $status)`. -/
def json (body : Payload) (status : Nat) : Response := ⟨status, body⟩

/-- `BaseController::sendError`. -/
def sendError (errorMessage : String) (code : Nat) : Response := json (.message errorMessage) code

/-- The client sees an error: a status of 400 or more, or an uncaught exception. -/
def isError : Except Exn Response → Bool
  | .ok r => decide (400 ≤ r.status)
  | .error _ => true

/-- The database rejected a write. -/
def isRejected : Except Exn Response → Bool
  | .error .query => true
  | _ => false

/-- Events broadcast to the restaurant's channel. -/
inductive Event
  | newOrder (order restaurant : Nat)
  | foodAdded (food restaurant : Nat)
  deriving DecidableEq, Repr

abbrev Action := Prog Database Event Exn

abbrev Handler := Action Response

/-! ### Validation -/

/-- A rule: whether it runs on an absent field, and what it accepts. -/
structure Rule where
  name : RuleName
  implicit : Bool
  passes : Database → Value → Bool

namespace Rule

def required : Rule := ⟨.required, true, fun _ v => v.filled⟩

def sometimes : Rule := ⟨.sometimes, false, fun _ _ => true⟩

def integer : Rule := ⟨.integer, false, fun _ v => v.isInteger⟩

def numeric : Rule := ⟨.numeric, false, fun _ v => v.num?.isSome⟩

def string : Rule := ⟨.string, false, fun _ v => match v with | .str _ => true | _ => false⟩

def boolean : Rule :=
  ⟨.boolean, false, fun _ v => v ∈ [.bool true, .bool false, .int 0, .int 1, .str "0", .str "1"]⟩

def email (L : Laravel) : Rule := ⟨.email, false, fun _ v => (v.text.map L.isEmail).getD false⟩

/-- Digits only, and exactly `n` of them. -/
def digits (n : Nat) : Rule :=
  ⟨.digits, false, fun _ v => match v.text with
    | some s => s.toList.all Char.isDigit && s.toList.length == n
    | none => false⟩

/-- The number of characters lies between `lo` and `hi`. -/
def between (lo hi : Nat) : Rule :=
  ⟨.between, false, fun _ v => decide (lo ≤ (v.text.getD "").length ∧ (v.text.getD "").length ≤ hi)⟩

/-- At least `n` characters. -/
def min (n : Nat) : Rule := ⟨.min, false, fun _ v => decide (n ≤ (v.text.getD "").length)⟩

/-- `isSameType`; uploaded files are not told apart by their sizes here. -/
def isSameType : Value → Value → Bool
  | .bool _, .bool _ => true
  | .int _, .int _ => true
  | .dec _, .dec _ => true
  | .str _, .str _ => true
  | _, _ => false

/-- `getSize`: the number, where the field is numeric, and else the number of characters. -/
def getSize (numeric : Bool) (v : Value) : Php.Num :=
  match numeric, v.num?, v with
  | true, some x, _ => x
  | _, _, .bool b => Num.ofInt (if b then 1 else 0)
  | _, _, v => Num.ofInt (v.text.getD "").length

/-- `lte:n`, which is the name of a field first: a number that is at most `n`, or, if the
request has such a field, a value that is at most the one in it. -/
def lte (field : Option Value) (n : Int) : Rule :=
  ⟨.lte, false, fun _ v => match field with
    | none => (v.num?.map fun x => x.le n).getD false
    | some w => isSameType v w && (getSize v.num?.isSome v).cmp (getSize v.num?.isSome w) != .gt⟩

/-- A number greater than the one in another field of the request, which is taken not to be
the name of a third. -/
def gt (bound : Value) : Rule :=
  ⟨.gt, false, fun _ v => match v.num?, bound.num? with
    | some x, some y => decide (y.mant * 10 ^ x.scale < x.mant * 10 ^ y.scale)
    | _, _ => false⟩

def mimes (exts : List String) : Rule :=
  ⟨.mimes, false, fun _ v => match v with | .file ext _ => exts.contains ext | _ => false⟩

/-- `exists:table,id`. -/
def exists_ {ρ : Type} (T : TableOf Database ρ) : Rule :=
  ⟨.exists, false, fun db v => match v.key? with
    | some i => ((T.get db).row i).isSome
    | none => false⟩

/-- `unique:table`, over the rows `scope` keeps. -/
def unique {ρ : Type} (T : TableOf Database ρ) (column : ρ → String) (scope : Nat → ρ → Bool) :
    Rule :=
  ⟨.unique, false, fun db v =>
    ((T.get db).filter fun i r => scope i r && v.equalsText (column r)).isEmpty⟩

/-- An array; the arrays of a request are not among its scalar fields. -/
def array : Rule := ⟨.array, false, fun _ _ => false⟩

/-- Required when another field is filled. -/
def requiredWith (other : Value) : Rule :=
  ⟨.requiredWith, true, fun _ v => !other.filled || v.filled⟩

end Rule

/-- A value that only an implicit rule looks at. -/
def blank : Option Value → Bool
  | none => true
  | some (.str s) => trim s == ""
  | some _ => false

/-- After the middleware a field that is present and trimmed is not blank. -/
theorem Request.not_blank (request : Request) {a : Attr} {v : Value} (ha : a ∉ untrimmed)
    (hv : request.input a = some v) : blank (some v) = false := by
  have hclean := request.clean a v hv
  cases v with
  | str s =>
      simp only [cleaned, if_neg ha] at hclean
      by_cases hs : trim s = ""
      · rw [if_pos hs] at hclean
        cases hclean
      · simp [blank, hs]
  | null => rfl
  | bool b => rfl
  | int n => rfl
  | dec x => rfl
  | file ext url => rfl

/-- The rules of one field that the input fails. -/
def failures (db : Database) (input : Attributes) (a : Attr) (rules : List Rule) :
    List (Attr × RuleName) :=
  (rules.filter fun r => (r.implicit || !blank (input a)) && !r.passes db ((input a).getD .null)).map
    fun r => (a, r.name)

/-- All failed rules of a request. -/
def failed (db : Database) (input : Attributes) (fields : List (Attr × List Rule)) :
    List (Attr × RuleName) :=
  fields.flatMap fun f => failures db input f.1 f.2

/-- `$request->validate([...])`. -/
def Request.validate (request : Request) (fields : List (Attr × List Rule)) : Action Unit :=
  .select fun db => match failed db request.input fields with
    | [] => .ret ()
    | errors => .raise (.validation errors)

end Spoiler
