/-
What comes of the way back from Facebook.

None of the clauses that name a class which is not there catches anything.  So an error of the
Graph API is answered like any other error of the SDK, an exception in the login is not turned
into the page `loginFailed`, and that page is never shown.  For the routes this leaves two
cases: Facebook vouches for somebody, and the request is the login of that user; or it does
not, and the request reads nothing and writes nothing.
-/
import Spoiler.App.Facebook
import Spoiler.App.Routes

namespace Spoiler

open Store Php

namespace FBController

variable (env : Env) (helper : Helper) (graph : String → Except SdkError GraphUser)

/-- The user Facebook vouches for, with the token to store, or else the page for the visitor. -/
def vouched : Except Page GraphUser :=
  match helper.accessToken with
  | .error e => .error (.text ("Facebook SDK returned an error: " ++ e.message) 400)
  | .ok none =>
      .error (if helper.hasError then .text helper.report 401 else .message "Bad request" 400)
  | .ok (some token) =>
      match graph token with
      | .error e => .error (.message e.message 400)
      | .ok resource => .ok { resource with token := token }

/-- Nothing is an instance of the class `http` does not have. -/
theorem not_isA_httpException (e : Failure) :
    e.isA (resolveClass uses "Exception") = false := by
  cases e with
  | app e => cases e <;> rfl
  | facebook e => rfl

/-- The clause for errors of the Graph API catches nothing, and the next one everything. -/
theorem caught_tokenClauses (e : SdkError) :
    caught tokenClauses e = some (.text ("Facebook SDK returned an error: " ++ e.message) 400) :=
  rfl

/-- Once there is a token, the login alone decides: the clause around it catches nothing. -/
theorem fbCallback_of_token {token : String} (h : helper.accessToken = .ok (some token)) :
    fbCallback env helper graph
      = (graphLogin env graph token >>= fun user => .ret (.loginSuccess user.body)) := by
  unfold fbCallback
  rw [h]
  exact Prog.tryCatch_of_never not_isA_httpException _

/-- **The way back from Facebook is the login of the user Facebook vouches for, shown on the
page of a successful login; if it vouches for nobody, nothing is written and the answer is an
error.**  The page of a failed login is never shown, and no error of the Graph API is told
from another error of the SDK. -/
theorem fbCallback_refines (L : Laravel) (token : String) (db : Database) :
    let o := (fbCallback env helper graph).serve db
    match vouched helper graph with
    | .ok resource =>
        let visit : Visit := ⟨env, token, .userFacebook resource⟩
        o.state = visit.serve L db ∧ o.events = visit.events L db ∧
          render o.answer = (visit.answer L db).map fun response => .loginSuccess response.body
    | .error page => o.state = db ∧ o.events = [] ∧ render o.answer = .ok page := by
  intro o
  have ho : o = (fbCallback env helper graph).serve db := rfl
  unfold vouched
  cases htoken : helper.accessToken with
  | error e =>
      unfold fbCallback at ho
      rw [htoken] at ho
      dsimp only at ho
      rw [caught_tokenClauses] at ho
      rw [ho]
      exact ⟨rfl, rfl, rfl⟩
  | ok given =>
      cases given with
      | none =>
          unfold fbCallback at ho
          rw [htoken] at ho
          dsimp only at ho
          rw [ho]
          cases helper.hasError <;> exact ⟨rfl, rfl, rfl⟩
      | some value =>
          rw [fbCallback_of_token env helper graph htoken, Prog.serve, Prog.exec_bind_ret] at ho
          unfold graphLogin at ho
          dsimp only
          cases hgraph : graph value with
          | error e =>
              rw [hgraph] at ho
              rw [ho]
              exact ⟨rfl, rfl, rfl⟩
          | ok resource =>
              rw [hgraph] at ho
              dsimp only at ho
              rw [Prog.exec_mapError] at ho
              rw [ho]
              refine ⟨rfl, rfl, ?_⟩
              show render _ = Except.map _ ((login env _).serve db).answer
              unfold Prog.serve
              cases ((login env { resource with token := value }).exec db .idle).answer <;> rfl

end FBController

end Spoiler
