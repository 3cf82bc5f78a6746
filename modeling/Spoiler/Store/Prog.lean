/-
Request handlers as programs over a database connection.

A handler is seen the way the database sees it: a sequence of statements, each
followed by whatever the handler does with the answer.  `Prog` is that sequence,
a tree whose branches are the possible answers, and `step` runs one statement of
it against the shared state and the handler's own connection.

What a connection adds to the shared state is the transaction.  Outside one,
every statement reads the committed state and commits on its own.  Inside one, a
`SELECT` takes no lock: the first of them fixes a snapshot and later ones read
that snapshot under the connection's own writes, which stay in a buffer until the
outermost `COMMIT` applies them.  An `UPDATE` locks its row until then, so placing
its effect at the commit is where every other connection sees it anyway.  Keys
are different: `INSERT` takes its key from the shared counter at once, and a
rollback does not give it back.
-/
import Mathlib.Tactic.Common

namespace Store

/-- Statements over a state `S`, raising exceptions `E`, dispatching events `V`
and answering `A`. -/
inductive Prog (S V E A : Type) : Type
  | ret (a : A)
  | raise (e : E)
  | select (k : S → Prog S V E A)
  | insert (reserve : S → Nat × S) (put : Nat → S → S) (k : Nat → Prog S V E A)
  | update (put : S → S) (k : Prog S V E A)
  | beginTransaction (k : Prog S V E A)
  | commit (k : Prog S V E A)
  | rollBack (k : Prog S V E A)
  | emit (ev : V) (k : Prog S V E A)

namespace Prog

variable {S V E A B : Type}

/-- Run `p`, then `f` on its answer.  An exception skips `f`. -/
protected def bind : Prog S V E A → (A → Prog S V E B) → Prog S V E B
  | ret a, f => f a
  | raise e, _ => raise e
  | select k, f => select fun s => (k s).bind f
  | insert reserve put k, f => insert reserve put fun i => (k i).bind f
  | update put k, f => update put (k.bind f)
  | beginTransaction k, f => beginTransaction (k.bind f)
  | commit k, f => commit (k.bind f)
  | rollBack k, f => rollBack (k.bind f)
  | emit ev k, f => emit ev (k.bind f)

instance : Monad (Prog S V E) where
  pure := ret
  bind := Prog.bind

protected theorem bind_assoc {C : Type} (p : Prog S V E A) (f : A → Prog S V E B)
    (g : B → Prog S V E C) : (p.bind f).bind g = p.bind fun a => (f a).bind g := by
  induction p with
  | ret a => rfl
  | raise e => rfl
  | select k ih => exact congrArg select (funext ih)
  | insert reserve put k ih => exact congrArg (insert reserve put) (funext ih)
  | update put k ih => exact congrArg (update put) ih
  | beginTransaction k ih => exact congrArg beginTransaction ih
  | commit k ih => exact congrArg commit ih
  | rollBack k ih => exact congrArg rollBack ih
  | emit ev k ih => exact congrArg (emit ev) ih

protected theorem bind_ret (p : Prog S V E A) : p.bind ret = p := by
  induction p with
  | ret a => rfl
  | raise e => rfl
  | select k ih => exact congrArg select (funext ih)
  | insert reserve put k ih => exact congrArg (insert reserve put) (funext ih)
  | update put k ih => exact congrArg (update put) ih
  | beginTransaction k ih => exact congrArg beginTransaction ih
  | commit k ih => exact congrArg commit ih
  | rollBack k ih => exact congrArg rollBack ih
  | emit ev k ih => exact congrArg (emit ev) ih

instance : LawfulMonad (Prog S V E) :=
  LawfulMonad.mk' _ (fun p => Prog.bind_ret p) (fun _ _ => rfl) Prog.bind_assoc

/-- `try p catch (C $e) h`, where `catches` says which exceptions are a `C`. -/
def tryCatch (catches : E → Bool) (h : E → Prog S V E A) : Prog S V E A → Prog S V E A
  | ret a => ret a
  | raise e => if catches e then h e else raise e
  | select k => select fun s => (k s).tryCatch catches h
  | insert reserve put k => insert reserve put fun i => (k i).tryCatch catches h
  | update put k => update put (k.tryCatch catches h)
  | beginTransaction k => beginTransaction (k.tryCatch catches h)
  | commit k => commit (k.tryCatch catches h)
  | rollBack k => rollBack (k.tryCatch catches h)
  | emit ev k => emit ev (k.tryCatch catches h)

/-- A clause for a class nothing belongs to catches nothing. -/
theorem tryCatch_of_never {catches : E → Bool} {h : E → Prog S V E A}
    (hnever : ∀ e, catches e = false) (p : Prog S V E A) : p.tryCatch catches h = p := by
  induction p with
  | ret a => rfl
  | raise e => simp [tryCatch, hnever e]
  | select k ih => simp only [tryCatch, ih]
  | insert reserve put k ih => simp only [tryCatch, ih]
  | update put k ih => simp only [tryCatch, ih]
  | beginTransaction k ih => simp only [tryCatch, ih]
  | commit k ih => simp only [tryCatch, ih]
  | rollBack k ih => simp only [tryCatch, ih]
  | emit ev k ih => simp only [tryCatch, ih]

/-- The same statements, with the exceptions under other names. -/
def mapError {F : Type} (g : E → F) : Prog S V E A → Prog S V F A
  | ret a => ret a
  | raise e => raise (g e)
  | select k => select fun s => (k s).mapError g
  | insert reserve put k => insert reserve put fun i => (k i).mapError g
  | update put k => update put (k.mapError g)
  | beginTransaction k => beginTransaction (k.mapError g)
  | commit k => commit (k.mapError g)
  | rollBack k => rollBack (k.mapError g)
  | emit ev k => emit ev (k.mapError g)

section Bind

variable (f : A → Prog S V E B)

@[simp] theorem pure_eq (a : A) : (pure a : Prog S V E A) = ret a := rfl
@[simp] theorem ret_bind (a : A) : (ret a : Prog S V E A) >>= f = f a := rfl
@[simp] theorem raise_bind (e : E) : (raise e : Prog S V E A) >>= f = raise e := rfl
@[simp] theorem select_bind (k : S → Prog S V E A) :
    select k >>= f = select fun s => k s >>= f := rfl
@[simp] theorem insert_bind (reserve : S → Nat × S) (put : Nat → S → S)
    (k : Nat → Prog S V E A) :
    insert reserve put k >>= f = insert reserve put fun i => k i >>= f := rfl
@[simp] theorem update_bind (put : S → S) (k : Prog S V E A) :
    update put k >>= f = update put (k >>= f) := rfl
@[simp] theorem beginTransaction_bind (k : Prog S V E A) :
    beginTransaction k >>= f = beginTransaction (k >>= f) := rfl
@[simp] theorem commit_bind (k : Prog S V E A) : commit k >>= f = commit (k >>= f) := rfl
@[simp] theorem rollBack_bind (k : Prog S V E A) : rollBack k >>= f = rollBack (k >>= f) := rfl
@[simp] theorem emit_bind (ev : V) (k : Prog S V E A) : emit ev k >>= f = emit ev (k >>= f) := rfl

end Bind

end Prog

/-! ### Connections -/

/-- Writes in the order they were made. -/
def applyAll {S : Type} (ws : List (S → S)) (s : S) : S := ws.foldl (fun s w => w s) s

@[simp] theorem applyAll_nil {S : Type} (s : S) : applyAll [] s = s := rfl

@[simp] theorem applyAll_cons {S : Type} (w : S → S) (ws : List (S → S)) (s : S) :
    applyAll (w :: ws) s = applyAll ws (w s) := rfl

theorem applyAll_append {S : Type} (ws vs : List (S → S)) (s : S) :
    applyAll (ws ++ vs) s = applyAll vs (applyAll ws s) := by
  simp [applyAll, List.foldl_append]

/-- What a connection holds: the snapshot of its transaction, once a `SELECT` has
taken one, and one buffer of writes for each open level, innermost first. -/
structure Conn (S : Type) where
  snap : Option S
  levels : List (List (S → S))

namespace Conn

variable {S : Type}

/-- No transaction is open. -/
def idle : Conn S := ⟨none, []⟩

/-- What a `SELECT` sees when the committed state is `s`. -/
def view (c : Conn S) (s : S) : S :=
  match c.levels with
  | [] => s
  | _ :: _ => applyAll c.levels.reverse.flatten (c.snap.getD s)

/-- The connection after that `SELECT`. -/
def looked (c : Conn S) (s : S) : Conn S :=
  match c.levels with
  | [] => c
  | _ :: _ => { c with snap := some (c.snap.getD s) }

/-- A write: applied at once outside a transaction, buffered inside one. -/
def write (c : Conn S) (w : S → S) (s : S) : S × Conn S :=
  match c.levels with
  | [] => (w s, c)
  | ws :: rest => (s, { c with levels := (ws ++ [w]) :: rest })

/-- `BEGIN`, or a savepoint when a transaction is open already. -/
def opened (c : Conn S) : Conn S := { c with levels := [] :: c.levels }

/-- `COMMIT` of the innermost level; only the outermost one reaches the state. -/
def committed (c : Conn S) (s : S) : S × Conn S :=
  match c.levels with
  | [] => (s, c)
  | [ws] => (applyAll ws s, idle)
  | ws :: outer :: rest => (s, { c with levels := (outer ++ ws) :: rest })

/-- `ROLLBACK` of the innermost level. -/
def rolledBack (c : Conn S) : Conn S :=
  match c.levels with
  | [] => c
  | [_] => idle
  | _ :: rest => { c with levels := rest }

section Lemmas

variable (s t : S) (w : S → S) (snap : Option S) (ws : List (S → S))

@[simp] theorem view_idle : (idle : Conn S).view s = s := (rfl)
@[simp] theorem looked_idle : (idle : Conn S).looked s = idle := (rfl)
@[simp] theorem write_idle : (idle : Conn S).write w s = (w s, idle) := (rfl)
@[simp] theorem opened_idle : (idle : Conn S).opened = ⟨none, [[]]⟩ := (rfl)

@[simp] theorem view_first : (⟨none, [[]]⟩ : Conn S).view s = s := (rfl)
@[simp] theorem view_snap : (⟨some t, [ws]⟩ : Conn S).view s = applyAll ws t := by
  simp [view]
@[simp] theorem looked_inside :
    (⟨snap, [ws]⟩ : Conn S).looked s = ⟨some (snap.getD s), [ws]⟩ := (rfl)
@[simp] theorem write_inside :
    (⟨snap, [ws]⟩ : Conn S).write w s = (s, ⟨snap, [ws ++ [w]]⟩) := (rfl)
@[simp] theorem committed_inside :
    (⟨snap, [ws]⟩ : Conn S).committed s = (applyAll ws s, idle) := (rfl)

end Lemmas

end Conn

/-! ### Running -/

/-- The state, the connection, the events and the answer a program ends with. -/
structure Outcome (S V E A : Type) where
  state : S
  conn : Conn S
  events : List V
  answer : Except E A

/-- What others see of it: the state it leaves and its answer. -/
def Outcome.result {S V E A : Type} (o : Outcome S V E A) : S × Except E A := (o.state, o.answer)

@[simp] theorem Outcome.result_mk {S V E A : Type} (s : S) (c : Conn S) (evs : List V)
    (a : Except E A) : (⟨s, c, evs, a⟩ : Outcome S V E A).result = (s, a) := rfl

namespace Prog

variable {S V E A B : Type}

/-- Run to the end with no other connection in between. -/
def exec : Prog S V E A → S → Conn S → Outcome S V E A
  | ret a, s, c => ⟨s, c, [], .ok a⟩
  | raise e, s, c => ⟨s, c, [], .error e⟩
  | select k, s, c => (k (c.view s)).exec s (c.looked s)
  | insert reserve put k, s, c =>
      let w := c.write (put (reserve s).1) (reserve s).2
      (k (reserve s).1).exec w.1 w.2
  | update put k, s, c => k.exec (c.write put s).1 (c.write put s).2
  | beginTransaction k, s, c => k.exec s c.opened
  | commit k, s, c => k.exec (c.committed s).1 (c.committed s).2
  | rollBack k, s, c => k.exec s c.rolledBack
  | emit ev k, s, c =>
      let o := k.exec s c
      { o with events := ev :: o.events }

/-- One statement of a program, if it has one left. -/
def step : Prog S V E A → S → Conn S → Option (Prog S V E A × S × Conn S)
  | ret _, _, _ => none
  | raise _, _, _ => none
  | select k, s, c => some (k (c.view s), s, c.looked s)
  | insert reserve put k, s, c =>
      let w := c.write (put (reserve s).1) (reserve s).2
      some (k (reserve s).1, w.1, w.2)
  | update put k, s, c => some (k, (c.write put s).1, (c.write put s).2)
  | beginTransaction k, s, c => some (k, s, c.opened)
  | commit k, s, c => some (k, (c.committed s).1, (c.committed s).2)
  | rollBack k, s, c => some (k, s, c.rolledBack)
  | emit _ k, s, c => some (k, s, c)

/-- A request on a connection of its own, which closes when the request is over:
what was not committed by then is gone. -/
def serve (p : Prog S V E A) (s : S) : Outcome S V E A := p.exec s .idle

/-- What a program leaves in the shared state. -/
def final (p : Prog S V E A) (s : S) (c : Conn S) : S := (p.exec s c).state

/-- Running on from any statement ends where running from the start does. -/
theorem final_step {p p' : Prog S V E A} {s s' : S} {c c' : Conn S}
    (h : p.step s c = some (p', s', c')) : p.final s c = p'.final s' c' := by
  cases p <;> simp only [step, Option.some.injEq, Prod.mk.injEq, reduceCtorEq] at h <;>
    obtain ⟨rfl, rfl, rfl⟩ := h <;> rfl

/-- A program with no statement left has answered. -/
theorem final_of_step_none {p : Prog S V E A} {s : S} {c : Conn S}
    (h : p.step s c = none) : p.final s c = s := by
  cases p <;> first | rfl | (simp [step] at h)

/-! ### The statements, one by one -/

section Exec

variable {s : S} {c : Conn S}

@[simp] theorem exec_ret (a : A) : (ret a : Prog S V E A).exec s c = ⟨s, c, [], .ok a⟩ := rfl
@[simp] theorem exec_raise (e : E) :
    (raise e : Prog S V E A).exec s c = ⟨s, c, [], .error e⟩ := rfl

@[simp] theorem exec_select (k : S → Prog S V E A) :
    (select k).exec s c = (k (c.view s)).exec s (c.looked s) := rfl

@[simp] theorem exec_insert (reserve : S → Nat × S) (put : Nat → S → S)
    (k : Nat → Prog S V E A) :
    (insert reserve put k).exec s c = (k (reserve s).1).exec
      (c.write (put (reserve s).1) (reserve s).2).1
      (c.write (put (reserve s).1) (reserve s).2).2 := rfl

@[simp] theorem exec_update (put : S → S) (k : Prog S V E A) :
    (update put k).exec s c = k.exec (c.write put s).1 (c.write put s).2 := rfl

@[simp] theorem exec_beginTransaction (k : Prog S V E A) :
    (beginTransaction k).exec s c = k.exec s c.opened := rfl

@[simp] theorem exec_commit (k : Prog S V E A) :
    (commit k).exec s c = k.exec (c.committed s).1 (c.committed s).2 := rfl

@[simp] theorem exec_rollBack (k : Prog S V E A) :
    (rollBack k).exec s c = k.exec s c.rolledBack := rfl

@[simp] theorem exec_emit (ev : V) (k : Prog S V E A) :
    (emit ev k).exec s c = { k.exec s c with events := ev :: (k.exec s c).events } := rfl

end Exec

/-- What follows a program sees its answer and nothing of how it came about. -/
theorem exec_bind_ret (p : Prog S V E A) (f : A → B) (s : S) (c : Conn S) :
    (p >>= fun a => ret (f a)).exec s c
      = ⟨(p.exec s c).state, (p.exec s c).conn, (p.exec s c).events,
          (p.exec s c).answer.map f⟩ := by
  induction p generalizing s c with
  | ret a => rfl
  | raise e => rfl
  | select k ih => exact ih _ _ _
  | insert reserve put k ih => exact ih _ _ _
  | update put k ih => exact ih _ _
  | beginTransaction k ih => exact ih _ _
  | commit k ih => exact ih _ _
  | rollBack k ih => exact ih _ _
  | emit ev k ih =>
      rw [emit_bind, exec_emit, ih, exec_emit]

theorem exec_mapError {F : Type} (g : E → F) (p : Prog S V E A) (s : S) (c : Conn S) :
    (p.mapError g).exec s c
      = ⟨(p.exec s c).state, (p.exec s c).conn, (p.exec s c).events,
          (p.exec s c).answer.mapError g⟩ := by
  induction p generalizing s c with
  | ret a => rfl
  | raise e => rfl
  | select k ih => exact ih _ _ _
  | insert reserve put k ih => exact ih _ _ _
  | update put k ih => exact ih _ _
  | beginTransaction k ih => exact ih _ _
  | commit k ih => exact ih _ _
  | rollBack k ih => exact ih _ _
  | emit ev k ih =>
      rw [mapError, exec_emit, ih, exec_emit]

end Prog

end Store
