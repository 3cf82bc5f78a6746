/-
Requests in flight together.

A pool is a shared state with one process for each request: the program it has left,
its connection, and how many statements it has issued.  A schedule names the process
that issues the next statement, so a schedule is an interleaving and `after Pool.step`
runs it.

What other processes see of a process is little.  A program with no write left on any
path is `Quiet`.  Inside a transaction that has taken its snapshot a program reads
nothing of the shared state any more, so what becomes of it is a function of the
snapshot: `inner` runs it on to its commit, to its next `INSERT`, which takes a key from
the shared counter, or to its end.
-/
import Mathlib.Data.Fintype.Basic
import Spoiler.Store.Prog
import Spoiler.Store.Run

namespace Store

variable {S V E A ι : Type}

/-- A request under way. -/
structure Process (S V E A : Type) where
  prog : Prog S V E A
  conn : Conn S
  issued : Nat

/-- A request that has not issued a statement yet. -/
def Process.start (p : Prog S V E A) : Process S V E A := ⟨p, .idle, 0⟩

/-- The program has answered. -/
def Prog.ended : Prog S V E A → Bool
  | ret _ => true
  | raise _ => true
  | _ => false

/-- A shared state and the requests under way. -/
structure Pool (ι S V E A : Type) where
  state : S
  procs : ι → Process S V E A

namespace Pool

/-- All requests arrive. -/
def start (s : S) (progs : ι → Prog S V E A) : Pool ι S V E A :=
  ⟨s, fun a => .start (progs a)⟩

/-- Process `a` issues its next statement, if it has one. -/
def step [DecidableEq ι] (pool : Pool ι S V E A) (a : ι) : Pool ι S V E A :=
  match (pool.procs a).prog.step pool.state (pool.procs a).conn with
  | none => pool
  | some (p, s, c) =>
      ⟨s, fun b => if b = a then ⟨p, c, (pool.procs a).issued + 1⟩ else pool.procs b⟩

/-- Every request has been answered. -/
def Ended (pool : Pool ι S V E A) : Prop := ∀ a, (pool.procs a).prog.ended = true

variable [DecidableEq ι] {pool : Pool ι S V E A} {a : ι}

theorem step_ended (h : (pool.procs a).prog.step pool.state (pool.procs a).conn = none) :
    pool.step a = pool := by
  unfold step
  rw [h]

theorem step_other {b : ι} (hb : b ≠ a) : (pool.step a).procs b = pool.procs b := by
  unfold step
  split
  · rfl
  · exact if_neg hb

section Some

variable {p : Prog S V E A} {s : S} {c : Conn S}
  (h : (pool.procs a).prog.step pool.state (pool.procs a).conn = some (p, s, c))
include h

theorem step_state : (pool.step a).state = s := by
  unfold step
  rw [h]

theorem step_self : (pool.step a).procs a = ⟨p, c, (pool.procs a).issued + 1⟩ := by
  unfold step
  rw [h]
  exact if_pos rfl

end Some

end Pool

namespace Prog

/-- Outside a transaction a `SELECT` reads the shared state. -/
theorem step_select_idle (s : S) (k : S → Prog S V E A) :
    (select k).step s .idle = some (k s, s, .idle) := rfl

/-! ### Programs without writes -/

/-- No path of the program writes. -/
def Quiet : Prog S V E A → Prop
  | ret _ => True
  | raise _ => True
  | select k => ∀ s, (k s).Quiet
  | emit _ k => k.Quiet
  | _ => False

/-- A statement of such a program leaves the state alone. -/
theorem Quiet.step {p p' : Prog S V E A} {s s' : S} {c c' : Conn S} (hq : p.Quiet)
    (h : p.step s c = some (p', s', c')) : s' = s ∧ p'.Quiet := by
  cases p with
  | select k =>
      cases h
      exact ⟨rfl, hq _⟩
  | emit ev k =>
      cases h
      exact ⟨rfl, hq⟩
  | ret a => cases h
  | raise e => cases h
  | insert reserve put k => exact hq.elim
  | update put k => exact hq.elim
  | beginTransaction k => exact hq.elim
  | commit k => exact hq.elim
  | rollBack k => exact hq.elim

/-! ### Programs inside a transaction -/

/-- What becomes of a program inside a transaction. -/
inductive Inner (S V E A : Type)
  /-- It commits these writes and goes on. -/
  | commits (ws : List (S → S)) (tail : Prog S V E A)
  /-- It inserts a row, with these writes made before. -/
  | inserts (ws : List (S → S)) (reserve : S → Nat × S) (put : Nat → S → S)
      (k : Nat → Prog S V E A)
  /-- It answers without a commit. -/
  | stops
  /-- It opens or rolls back a level. -/
  | leaves

/-- Run on with the snapshot `snap` and the writes `ws`. -/
def inner (snap : S) : Prog S V E A → List (S → S) → Inner S V E A
  | ret _, _ => .stops
  | raise _, _ => .stops
  | select k, ws => (k (applyAll ws snap)).inner snap ws
  | insert reserve put k, ws => .inserts ws reserve put k
  | update put k, ws => k.inner snap (ws ++ [put])
  | beginTransaction _, _ => .leaves
  | commit k, ws => .commits ws k
  | rollBack _, _ => .leaves
  | emit _ k, ws => k.inner snap ws

section InnerLemmas

variable (snap : S) (ws : List (S → S))

@[simp] theorem inner_ret (a : A) : (ret a : Prog S V E A).inner snap ws = .stops := rfl
@[simp] theorem inner_raise (e : E) : (raise e : Prog S V E A).inner snap ws = .stops := rfl
@[simp] theorem inner_select (k : S → Prog S V E A) :
    (select k).inner snap ws = (k (applyAll ws snap)).inner snap ws := rfl
theorem inner_select_nil (k : S → Prog S V E A) :
    (select k).inner snap [] = (k snap).inner snap [] := rfl
@[simp] theorem inner_insert (reserve : S → Nat × S) (put : Nat → S → S)
    (k : Nat → Prog S V E A) :
    (insert reserve put k).inner snap ws = .inserts ws reserve put k := rfl
@[simp] theorem inner_update (put : S → S) (k : Prog S V E A) :
    (update put k).inner snap ws = k.inner snap (ws ++ [put]) := rfl
@[simp] theorem inner_commit (k : Prog S V E A) : (commit k).inner snap ws = .commits ws k := rfl
@[simp] theorem inner_emit (ev : V) (k : Prog S V E A) :
    (emit ev k).inner snap ws = k.inner snap ws := rfl

end InnerLemmas

/-- What a statement inside a transaction does, seen from outside: nothing, unless it is
the commit or an `INSERT`. -/
inductive InnerStep (snap s : S) (ws : List (S → S)) :
    Prog S V E A → Prog S V E A × S × Conn S → Prop
  | within {p p' : Prog S V E A} {ws' : List (S → S)}
      (hinner : p'.inner snap ws' = p.inner snap ws) :
      InnerStep snap s ws p (p', s, ⟨some snap, [ws']⟩)
  | commits {p' : Prog S V E A} : InnerStep snap s ws (commit p') (p', applyAll ws s, .idle)
  | inserts {reserve : S → Nat × S} {put : Nat → S → S} {k : Nat → Prog S V E A} :
      InnerStep snap s ws (insert reserve put k)
        (k (reserve s).1, (reserve s).2, ⟨some snap, [ws ++ [put (reserve s).1]]⟩)
  | leaves {p : Prog S V E A} {x : Prog S V E A × S × Conn S} (h : p.inner snap ws = .leaves) :
      InnerStep snap s ws p x

theorem inner_step {p : Prog S V E A} {snap s : S} {ws : List (S → S)}
    {x : Prog S V E A × S × Conn S} (h : p.step s ⟨some snap, [ws]⟩ = some x) :
    InnerStep snap s ws p x := by
  cases p with
  | ret a => cases h
  | raise e => cases h
  | select k =>
      cases h
      refine .within ?_
      rw [Conn.view_snap]
      rfl
  | insert reserve put k =>
      cases h
      exact .inserts
  | update put k =>
      cases h
      exact .within rfl
  | beginTransaction k => exact .leaves rfl
  | commit k =>
      cases h
      exact .commits
  | rollBack k => exact .leaves rfl
  | emit ev k =>
      cases h
      exact .within rfl

section Outcomes

variable {p : Prog S V E A} {snap s : S} {ws ws₁ : List (S → S)} {x : Prog S V E A × S × Conn S}

/-- A transaction that is not going to be committed shows nothing. -/
theorem step_of_stops (hinner : p.inner snap ws = .stops)
    (h : p.step s ⟨some snap, [ws]⟩ = some x) :
    ∃ p' ws', x = (p', s, ⟨some snap, [ws']⟩) ∧ p'.inner snap ws' = .stops := by
  cases inner_step h with
  | within hsame => exact ⟨_, _, rfl, hsame.trans hinner⟩
  | commits => cases hinner
  | inserts => cases hinner
  | leaves hleaves =>
      rw [hinner] at hleaves
      cases hleaves

/-- A transaction shows nothing before its commit. -/
theorem step_of_commits {tail : Prog S V E A} (hinner : p.inner snap ws = .commits ws₁ tail)
    (h : p.step s ⟨some snap, [ws]⟩ = some x) :
    (∃ p' ws', x = (p', s, ⟨some snap, [ws']⟩) ∧ p'.inner snap ws' = .commits ws₁ tail) ∨
      (p = .commit tail ∧ x = (tail, applyAll ws₁ s, .idle)) := by
  cases inner_step h with
  | within hsame => exact .inl ⟨_, _, rfl, hsame.trans hinner⟩
  | commits =>
      cases hinner
      exact .inr ⟨rfl, rfl⟩
  | inserts => cases hinner
  | leaves hleaves =>
      rw [hinner] at hleaves
      cases hleaves

/-- A transaction that inserts shows nothing before it takes the key. -/
theorem step_of_inserts {reserve : S → Nat × S} {put : Nat → S → S} {k : Nat → Prog S V E A}
    (hinner : p.inner snap ws = .inserts ws₁ reserve put k)
    (h : p.step s ⟨some snap, [ws]⟩ = some x) :
    (∃ p' ws', x = (p', s, ⟨some snap, [ws']⟩) ∧ p'.inner snap ws' = .inserts ws₁ reserve put k) ∨
      x = (k (reserve s).1, (reserve s).2, ⟨some snap, [ws₁ ++ [put (reserve s).1]]⟩) := by
  cases inner_step h with
  | within hsame => exact .inl ⟨_, _, rfl, hsame.trans hinner⟩
  | commits => cases hinner
  | inserts =>
      cases hinner
      exact .inr rfl
  | leaves hleaves =>
      rw [hinner] at hleaves
      cases hleaves

end Outcomes

/-- A program that has answered stops. -/
theorem inner_of_step_none {p : Prog S V E A} {snap s : S} {ws : List (S → S)} {c : Conn S}
    (h : p.step s c = none) : p.inner snap ws = .stops := by
  cases p <;> first | rfl | cases h

theorem ended_iff_step {p : Prog S V E A} {s : S} {c : Conn S} :
    p.ended = true ↔ p.step s c = none := by
  cases p <;> simp [ended, step]

/-- Induction on the statements a program has left. -/
theorem step_induction {P : Prog S V E A → Prop}
    (h : ∀ p, (∀ s c p' s' c', p.step s c = some (p', s', c') → P p') → P p) :
    ∀ p, P p := by
  intro p
  induction p with
  | ret a => exact h _ fun _ _ _ _ _ hstep => nomatch hstep
  | raise e => exact h _ fun _ _ _ _ _ hstep => nomatch hstep
  | select k ih => exact h _ fun _ _ _ _ _ hstep => by cases hstep; exact ih _
  | insert reserve put k ih => exact h _ fun _ _ _ _ _ hstep => by cases hstep; exact ih _
  | update put k ih => exact h _ fun _ _ _ _ _ hstep => by cases hstep; exact ih
  | beginTransaction k ih => exact h _ fun _ _ _ _ _ hstep => by cases hstep; exact ih
  | commit k ih => exact h _ fun _ _ _ _ _ hstep => by cases hstep; exact ih
  | rollBack k ih => exact h _ fun _ _ _ _ _ hstep => by cases hstep; exact ih
  | emit ev k ih => exact h _ fun _ _ _ _ _ hstep => by cases hstep; exact ih

end Prog

/-! ### Left alone

A request nobody interrupts ends where `Prog.serve` ends, so serial runs are among the
interleavings. -/

namespace Pool

variable [DecidableEq ι] {pool pool' : Pool ι S V E A} {a : ι}

/-- From `pool` to `pool'` request `a` has run to its end and nobody else has moved. -/
structure RunsOut (pool pool' : Pool ι S V E A) (a : ι) : Prop where
  ended : (pool'.procs a).prog.ended = true
  state : pool'.state = (pool.procs a).prog.final pool.state (pool.procs a).conn
  others : ∀ b, b ≠ a → pool'.procs b = pool.procs b

theorem RunsOut.cons {p : Prog S V E A} {s : S} {c : Conn S}
    (hstep : (pool.procs a).prog.step pool.state (pool.procs a).conn = some (p, s, c))
    (h : RunsOut (pool.step a) pool' a) : RunsOut pool pool' a := by
  refine ⟨h.ended, ?_, fun b hb => ?_⟩
  · rw [Prog.final_step hstep, h.state, step_self hstep, step_state hstep]
  · rw [h.others b hb, step_other hb]

/-- **A request that is left alone ends where `serve` ends.** -/
theorem exists_runsOut (pool : Pool ι S V E A) (a : ι) :
    ∃ n, RunsOut pool (after step pool (List.replicate n a)) a := by
  generalize hp : (pool.procs a).prog = p
  induction p using Prog.step_induction generalizing pool with
  | h p ih =>
      cases hstep : p.step pool.state (pool.procs a).conn with
      | none =>
          have hended : (pool.procs a).prog.ended = true := by
            rw [hp]
            exact Prog.ended_iff_step.mpr hstep
          refine ⟨0, hended, ?_, fun _ _ => rfl⟩
          rw [hp, Prog.final_of_step_none hstep]
          rfl
      | some x =>
          obtain ⟨p', s', c'⟩ := x
          rw [← hp] at hstep
          have hnext : ((pool.step a).procs a).prog = p' := by rw [step_self hstep]
          obtain ⟨n, hn⟩ := ih _ _ p' s' c' (by rw [← hp]; exact hstep) (pool.step a) hnext
          exact ⟨n + 1, RunsOut.cons hstep hn⟩

/-- **Every serial run is an interleaving.** -/
theorem exists_schedule (s : S) (progs : ι → Prog S V E A) {order : List ι} (hnodup : order.Nodup) :
    ∃ schedule, (after step (start s progs) schedule).state
        = after (fun s a => ((progs a).serve s).state) s order ∧
      (∀ a ∈ order, ((after step (start s progs) schedule).procs a).prog.ended = true) ∧
      ∀ a, a ∉ order → (after step (start s progs) schedule).procs a = .start (progs a) := by
  induction order using List.reverseRecOn with
  | nil => exact ⟨[], rfl, by simp, fun _ _ => rfl⟩
  | append_singleton order a ih =>
      obtain ⟨hbefore, -, hdisjoint⟩ := List.nodup_append.mp hnodup
      have hout : a ∉ order := fun hmem => hdisjoint a hmem a (by simp) rfl
      obtain ⟨schedule, hstate, hended, hwaiting⟩ := ih hbefore
      obtain ⟨n, hrun⟩ := exists_runsOut (after step (start s progs) schedule) a
      rw [← after_append] at hrun
      refine ⟨schedule ++ List.replicate n a, ?_, fun b hb => ?_, fun b hb => ?_⟩
      · rw [hrun.state, hwaiting a hout, hstate, after_append]
        rfl
      · by_cases hba : b = a
        · rw [hba]
          exact hrun.ended
        · rw [hrun.others b hba]
          exact hended b (by simpa [hba] using hb)
      · simp only [List.mem_append, List.mem_singleton, not_or] at hb
        rw [hrun.others b hb.2]
        exact hwaiting b hb.1

end Pool

end Store
