/-
Transactions that are left.

A handler opens a transaction and runs to its commit, unless it answers or raises on the
way.  `Ends` says which: inside the transaction what it reads is the snapshot under its
own writes, so this is a function of the snapshot, whatever keys its inserts are given.

Two things follow.  On a connection of its own, a request that is cut off after any
number of statements has changed nothing that can be seen, or has committed all of it:
`cut_of_ends`.  And on whatever connection it was given, the level it leaves is the level
it found if it commits, and one more if it does not: `level_of_ends`.
-/
import Spoiler.Store.Pool

namespace Store

variable {S V E A : Type}

namespace Conn

/-- How many transactions are open, one inside the other. -/
def level (c : Conn S) : Nat := c.levels.length

/-- A snapshot belongs to an open transaction. -/
def Sane (c : Conn S) : Prop := c.levels = [] → c.snap = none

theorem sane_idle : (idle : Conn S).Sane := fun _ => rfl

theorem level_looked (c : Conn S) (s : S) : (c.looked s).level = c.level := by
  unfold looked
  cases h : c.levels with
  | nil => rfl
  | cons ws rest =>
      unfold level
      rw [h]

theorem Sane.looked {c : Conn S} (h : c.Sane) (s : S) : (c.looked s).Sane := by
  unfold Conn.looked
  cases hl : c.levels with
  | nil => exact h
  | cons ws rest =>
      intro hnil
      cases hnil

theorem Sane.write {c : Conn S} (h : c.Sane) (w : S → S) (s : S) : (c.write w s).2.Sane := by
  unfold Conn.write
  cases hl : c.levels with
  | nil => exact h
  | cons ws rest =>
      intro hnil
      cases hnil

theorem Sane.opened {c : Conn S} (_ : c.Sane) : c.opened.Sane := by
  intro hnil
  cases hnil

theorem Sane.committed {c : Conn S} (h : c.Sane) (s : S) : (c.committed s).2.Sane := by
  unfold Conn.committed
  split
  · exact h
  · exact sane_idle
  · intro hnil
    cases hnil

theorem Sane.rolledBack {c : Conn S} (h : c.Sane) : c.rolledBack.Sane := by
  unfold Conn.rolledBack
  split
  · exact h
  · exact sane_idle
  · rename_i hne hl
    intro hnil
    exact absurd hnil hne

/-- A transaction sees what its connection saw when it opened it. -/
theorem Sane.view_opened {c : Conn S} (h : c.Sane) (s : S) :
    applyAll c.levels.reverse.flatten (c.snap.getD s) = c.view s := by
  unfold view
  cases hl : c.levels with
  | nil =>
      rw [h hl]
      rfl
  | cons ws rest => rfl

/-- Looking twice shows the same. -/
theorem view_looked (c : Conn S) (s : S) : (c.looked s).view s = c.view s := by
  unfold Conn.looked
  cases hl : c.levels with
  | nil => rfl
  | cons ws rest =>
      unfold view
      rw [hl]
      rfl

end Conn

namespace Prog

/-- No program leaves a snapshot behind without its transaction. -/
theorem sane_exec (p : Prog S V E A) : ∀ {s : S} {c : Conn S}, c.Sane → (p.exec s c).conn.Sane := by
  induction p with
  | ret a => intro s c hc; exact hc
  | raise e => intro s c hc; exact hc
  | select k ih => intro s c hc; exact ih _ (hc.looked s)
  | insert reserve put k ih => intro s c hc; exact ih _ (hc.write _ _)
  | update put k ih => intro s c hc; exact ih (hc.write put s)
  | beginTransaction k ih => intro s c hc; exact ih hc.opened
  | commit k ih => intro s c hc; exact ih (hc.committed s)
  | rollBack k ih => intro s c hc; exact ih hc.rolledBack
  | emit ev k ih => intro s c hc; exact ih hc

/-! ### A request that is cut off -/

/-- The state after `n` statements. -/
def cut : Nat → Prog S V E A → S → Conn S → S
  | 0, _, s, _ => s
  | n + 1, p, s, c =>
      match p.step s c with
      | none => s
      | some (p', s', c') => cut n p' s' c'

theorem cut_of_quiet {n : Nat} : ∀ {p : Prog S V E A} {s : S} {c : Conn S}, p.Quiet →
    cut n p s c = s := by
  induction n with
  | zero => intro p s c _; rfl
  | succ n ih =>
      intro p s c hq
      unfold cut
      cases hstep : p.step s c with
      | none => rfl
      | some x =>
          obtain ⟨p', s', c'⟩ := x
          obtain ⟨rfl, hq'⟩ := hq.step hstep
          exact ih hq'

theorem final_of_quiet {p : Prog S V E A} : ∀ {s : S} {c : Conn S}, p.Quiet → p.final s c = s := by
  induction p with
  | ret a => intro s c _; rfl
  | raise e => intro s c _; rfl
  | select k ih => intro s c hq; exact ih _ (hq _)
  | emit ev k ih => intro s c hq; exact ih hq
  | insert reserve put k ih => intro s c hq; exact hq.elim
  | update put k ih => intro s c hq; exact hq.elim
  | beginTransaction k ih => intro s c hq; exact hq.elim
  | commit k ih => intro s c hq; exact hq.elim
  | rollBack k ih => intro s c hq; exact hq.elim

/-- A program without writes leaves its connection at the level it found. -/
theorem level_of_quiet {p : Prog S V E A} : ∀ {s : S} {c : Conn S}, p.Quiet →
    (p.exec s c).conn.level = c.level := by
  induction p with
  | ret a => intro s c _; rfl
  | raise e => intro s c _; rfl
  | select k ih =>
      intro s c hq
      rw [exec_select, ih _ (hq _), Conn.level_looked]
  | emit ev k ih => intro s c hq; exact ih hq
  | insert reserve put k ih => intro s c hq; exact hq.elim
  | update put k ih => intro s c hq; exact hq.elim
  | beginTransaction k ih => intro s c hq; exact hq.elim
  | commit k ih => intro s c hq; exact hq.elim
  | rollBack k ih => intro s c hq; exact hq.elim

/-! ### How a transaction ends -/

/-- Inside a transaction that sees `v` the program comes to its commit, or it does not.
After the commit it only reads, and what an `INSERT` does at once is not seen by `same`. -/
inductive Ends (same : S → S → Prop) (v : S) : Prog S V E A → List (S → S) → Bool → Prop
  | stops {p : Prog S V E A} {ws : List (S → S)} (hinner : p.inner v ws = .stops) :
      Ends same v p ws false
  | commits {p tail : Prog S V E A} {ws ws₁ : List (S → S)}
      (hinner : p.inner v ws = .commits ws₁ tail) (htail : tail.Quiet) : Ends same v p ws true
  | inserts {p : Prog S V E A} {ws ws₁ : List (S → S)} {reserve : S → Nat × S}
      {put : Nat → S → S} {k : Nat → Prog S V E A} {b : Bool}
      (hinner : p.inner v ws = .inserts ws₁ reserve put k) (hsame : ∀ s, same s (reserve s).2)
      (hrest : ∀ i, Ends same v (k i) (ws₁ ++ [put i]) b) : Ends same v p ws b

section Ends

variable {same : S → S → Prop} {v s : S} {b : Bool}

theorem Ends.of_stops {p : Prog S V E A} {ws : List (S → S)} (hinner : p.inner v ws = .stops)
    (hb : b = false) : Ends same v p ws b := by
  rw [hb]
  exact .stops hinner

theorem Ends.of_commits {p tail : Prog S V E A} {ws ws₁ : List (S → S)}
    (hinner : p.inner v ws = .commits ws₁ tail) (htail : tail.Quiet) (hb : b = true) :
    Ends same v p ws b := by
  rw [hb]
  exact .commits hinner htail

theorem Ends.congr {p p' : Prog S V E A} {ws ws' : List (S → S)} (h : Ends same v p ws b)
    (hinner : p'.inner v ws' = p.inner v ws) : Ends same v p' ws' b := by
  cases h with
  | stops hi => exact .stops (hinner.trans hi)
  | commits hi htail => exact .commits (hinner.trans hi) htail
  | inserts hi hsame hrest => exact .inserts (hinner.trans hi) hsame hrest

/-! What is said of the end can be read off where the program has come to. -/

theorem Ends.of_inner_stops {p : Prog S V E A} {ws : List (S → S)} (h : Ends same v p ws b)
    (hinner : p.inner v ws = .stops) : b = false := by
  cases h with
  | stops hi => rfl
  | commits hi htail => cases hinner.symm.trans hi
  | inserts hi hsame hrest => cases hinner.symm.trans hi

theorem Ends.of_inner_commits {p tail : Prog S V E A} {ws ws₁ : List (S → S)}
    (h : Ends same v p ws b) (hinner : p.inner v ws = .commits ws₁ tail) :
    b = true ∧ tail.Quiet := by
  cases h with
  | stops hi => cases hinner.symm.trans hi
  | commits hi htail =>
      cases hinner.symm.trans hi
      exact ⟨rfl, htail⟩
  | inserts hi hsame hrest => cases hinner.symm.trans hi

theorem Ends.of_inner_inserts {p : Prog S V E A} {ws ws₁ : List (S → S)} {reserve : S → Nat × S}
    {put : Nat → S → S} {k : Nat → Prog S V E A} (h : Ends same v p ws b)
    (hinner : p.inner v ws = .inserts ws₁ reserve put k) :
    (∀ s, same s (reserve s).2) ∧ ∀ i, Ends same v (k i) (ws₁ ++ [put i]) b := by
  cases h with
  | stops hi => cases hinner.symm.trans hi
  | commits hi htail => cases hinner.symm.trans hi
  | inserts hi hsame hrest =>
      cases hinner.symm.trans hi
      exact ⟨hsame, hrest⟩

theorem Ends.inner_ne_leaves {p : Prog S V E A} {ws : List (S → S)} (h : Ends same v p ws b) :
    p.inner v ws ≠ .leaves := by
  intro hinner
  cases h with
  | stops hi => cases hinner.symm.trans hi
  | commits hi htail => cases hinner.symm.trans hi
  | inserts hi hsame hrest => cases hinner.symm.trans hi

/-- **A request cut off inside its transaction has changed nothing that is seen, or has
committed and left what it leaves in the end.** -/
theorem cut_of_ends (hrefl : ∀ s, same s s) (htrans : ∀ {a b c}, same a b → same b c → same a c)
    {n : Nat} : ∀ {p : Prog S V E A} {ws : List (S → S)} {s : S}, Ends same v p ws b →
      same s (cut n p s ⟨some v, [ws]⟩) ∨
        (b = true ∧ cut n p s ⟨some v, [ws]⟩ = p.final s ⟨some v, [ws]⟩) := by
  induction n with
  | zero => intro p ws s _; exact .inl (hrefl s)
  | succ n ih =>
      intro p ws s h
      unfold cut
      cases hstep : p.step s ⟨some v, [ws]⟩ with
      | none => exact .inl (hrefl s)
      | some x =>
          obtain ⟨p', s', c'⟩ := x
          rw [final_step hstep]
          dsimp only
          cases inner_step hstep with
          | within hinner => exact ih (h.congr hinner)
          | commits =>
              obtain ⟨hb, htail⟩ := h.of_inner_commits rfl
              exact .inr ⟨hb, by rw [cut_of_quiet htail, final_of_quiet htail]⟩
          | inserts =>
              obtain ⟨hsame, hrest⟩ := h.of_inner_inserts rfl
              exact (ih (hrest _)).imp_left fun hcut => htrans (hsame s) hcut
          | leaves hleaves => exact absurd hleaves h.inner_ne_leaves

/-- **A transaction that does not come to its commit is left open.** -/
theorem level_of_ends {t : S} {rest : List (List (S → S))} {p : Prog S V E A} :
    ∀ {ws : List (S → S)} {s : S}, Ends same (applyAll rest.reverse.flatten t) p ws b →
      (p.exec s ⟨some t, ws :: rest⟩).conn.level = rest.length + if b = true then 0 else 1 := by
  induction p with
  | ret a =>
      intro ws s h
      rw [h.of_inner_stops rfl]
      rfl
  | raise e =>
      intro ws s h
      rw [h.of_inner_stops rfl]
      rfl
  | select k ih =>
      intro ws s h
      have hview : (⟨some t, ws :: rest⟩ : Conn S).view s
          = applyAll ws (applyAll rest.reverse.flatten t) := by
        simp [Conn.view, applyAll_append]
      rw [exec_select, hview]
      exact ih _ (h.congr rfl)
  | insert reserve put k ih =>
      intro ws s h
      obtain ⟨-, hrest⟩ := h.of_inner_inserts rfl
      exact ih _ (hrest _)
  | update put k ih =>
      intro ws s h
      exact ih (h.congr rfl)
  | beginTransaction k ih =>
      intro ws s h
      exact absurd rfl h.inner_ne_leaves
  | commit k ih =>
      intro ws s h
      obtain ⟨hb, htail⟩ := h.of_inner_commits rfl
      rw [exec_commit, level_of_quiet htail, hb]
      cases rest with
      | nil => rfl
      | cons outer rest => rfl
  | rollBack k ih =>
      intro ws s h
      exact absurd rfl h.inner_ne_leaves
  | emit ev k ih =>
      intro ws s h
      exact ih (h.congr rfl)

end Ends

/-! ### From the beginning -/

/-- The program opens a transaction and reads, and ends as `b` says of what it reads. -/
def Opens (same : S → S → Prop) (p : Prog S V E A) (b : S → Bool) : Prop :=
  ∃ k, p = .beginTransaction (.select k) ∧ ∀ v, Ends same v (k v) [] (b v)

section Opens

variable {same : S → S → Prop} {p : Prog S V E A} {b : S → Bool}

theorem Opens.cut (h : p.Opens same b) (hrefl : ∀ s, same s s)
    (htrans : ∀ {a b c}, same a b → same b c → same a c) (n : Nat) (s : S) :
    same s (p.cut n s .idle) ∨ (b s = true ∧ p.cut n s .idle = p.final s .idle) := by
  obtain ⟨k, rfl, hends⟩ := h
  cases n with
  | zero => exact .inl (hrefl s)
  | succ n =>
      cases n with
      | zero => exact .inl (hrefl s)
      | succ n => exact cut_of_ends hrefl htrans (hends s)

theorem Opens.level (h : p.Opens same b) {c : Conn S} (hc : c.Sane) (s : S) :
    (p.exec s c).conn.level = c.level + if b (c.view s) = true then 0 else 1 := by
  obtain ⟨k, rfl, hends⟩ := h
  have hview : c.opened.view s = c.view s := by
    rw [← hc.view_opened s]
    simp [Conn.view, Conn.opened]
  rw [exec_beginTransaction, exec_select, hview]
  have h := hends (c.view s)
  rw [← hc.view_opened s] at h ⊢
  exact level_of_ends h

end Opens

/-- The program looks something up and opens its transaction only if it finds it. -/
def OpensIf (same : S → S → Prop) (p : Prog S V E A) (found : S → Bool) (b : S → S → Bool) :
    Prop :=
  ∃ k, p = .select k ∧ ∀ v, (found v = true ∧ (k v).Opens same (b v)) ∨
    (found v = false ∧ (k v).Quiet)

section OpensIf

variable {same : S → S → Prop} {p : Prog S V E A} {found : S → Bool} {b : S → S → Bool}

theorem OpensIf.cut (h : p.OpensIf same found b) (hrefl : ∀ s, same s s)
    (htrans : ∀ {a b c}, same a b → same b c → same a c) (n : Nat) (s : S) :
    same s (p.cut n s .idle) ∨
      (found s = true ∧ b s s = true ∧ p.cut n s .idle = p.final s .idle) := by
  obtain ⟨k, rfl, hk⟩ := h
  cases n with
  | zero => exact .inl (hrefl s)
  | succ n =>
      rcases hk s with ⟨hfound, hopens⟩ | ⟨-, hquiet⟩
      · exact (hopens.cut hrefl htrans n s).imp_right fun hcut => ⟨hfound, hcut⟩
      · left
        show same s ((k s).cut n s .idle)
        rw [cut_of_quiet hquiet]
        exact hrefl s

theorem OpensIf.level (h : p.OpensIf same found b) {c : Conn S} (hc : c.Sane) (s : S) :
    (p.exec s c).conn.level = c.level +
      if found (c.view s) = true ∧ b (c.view s) (c.view s) = false then 1 else 0 := by
  obtain ⟨k, rfl, hk⟩ := h
  rw [exec_select]
  rcases hk (c.view s) with ⟨hfound, hopens⟩ | ⟨hnone, hquiet⟩
  · rw [hopens.level (hc.looked s), Conn.level_looked, Conn.view_looked]
    cases b (c.view s) (c.view s) <;> simp [hfound]
  · rw [level_of_quiet hquiet, Conn.level_looked]
    simp [hnone]

end OpensIf

end Prog

end Store
