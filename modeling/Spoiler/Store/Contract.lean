/-
Rules of pre- and postconditions for programs that run among others.

A contract says what the programs of a pool keep together: an invariant of the shared
state, an order of what is never lost, and which keys have been handed out.  A program is
judged on its own, by its weakest precondition `wp`, over what it knows.  It knows a state
nothing of which is lost, since whatever it read before is still there, and inside a
transaction it knows the same of what it sees, and the keys it has taken, which nobody else
can see or take.

Every write has to keep the invariant and lose nothing in every state that may be there by
the time it is made.  For a write inside a transaction that is the time of the commit, and
what the program knows has to reach that far: this is why a write has to respect the order.

`Pool.Kept.run` is the result.  If every program meets its precondition, then in every
interleaving the invariant holds, nothing is lost, and each program that is about to
dispatch an event or has answered knows of the shared state what its rules say; one that has
ended in an exception has ended in one its rules allow.

No program here rolls back or opens a second level, and neither has a rule.
-/
import Spoiler.Store.Pool

namespace Store

variable {S V E A B K ι : Type}

/-! ### Contracts -/

structure Contract (S K : Type) where
  /-- Nothing of the first state is lost in the second. -/
  le : S → S → Prop
  inv : S → Prop
  /-- The key has been handed out. -/
  spent : S → K → Prop
  /-- There is a row at the key. -/
  present : S → K → Prop
  refl : ∀ s, le s s
  trans : ∀ {s t u}, le s t → le t u → le s u
  spent_le : ∀ {s t k}, le s t → spent s k → spent t k
  spent_of_present : ∀ {s k}, present s k → spent s k

namespace Contract

variable (C : Contract S K)

/-- A write that may be made in every state that has not lost anything of `v`, as long as
nothing is at the keys `new` yet. -/
structure Permits (v : S) (new : List K) (w : S → S) : Prop where
  keeps : ∀ t, C.le v t → C.inv t → (∀ k ∈ new, ¬C.present t k) → C.le t (w t) ∧ C.inv (w t)
  mono : ∀ s t, C.le s t → C.le (w s) (w t)
  creates : ∀ t k, C.present (w t) k → C.present t k ∨ k ∈ new

/-- Handing out a key that has not been handed out before. -/
structure Reserves (reserve : S → Nat × S) (key : Nat → K) : Prop where
  le : ∀ s, C.le s (reserve s).2
  inv : ∀ s, C.inv s → C.inv (reserve s).2
  unspent : ∀ s, ¬C.spent s (key (reserve s).1)
  spent : ∀ s, C.spent (reserve s).2 (key (reserve s).1)
  creates : ∀ s k, C.present (reserve s).2 k → C.present s k

/-- The writes of a transaction so far, as one write on any state that has not lost
anything of `base`: it keeps what a write has to keep, and what it leaves has all of `v`. -/
structure Buffers (base v : S) (keys : List K) (w : S → S) : Prop where
  keeps : ∀ t, C.le base t → C.inv t → (∀ k ∈ keys, ¬C.present t k) →
    C.le t (w t) ∧ C.inv (w t) ∧ C.le v (w t)
  mono : ∀ s t, C.le s t → C.le (w s) (w t)
  creates : ∀ t k, C.present (w t) k → C.present t k ∨ k ∈ keys

variable {C}

theorem Buffers.nil {base v : S} (h : C.le v base) : C.Buffers base v [] (applyAll []) where
  keeps t hbase hinv _ := ⟨C.refl t, hinv, C.trans h hbase⟩
  mono _ _ h := h
  creates _ _ h := .inl h

/-- One more write. -/
theorem Buffers.write {base v : S} {keys new : List K} {ws : List (S → S)} {w : S → S}
    (h : C.Buffers base v keys (applyAll ws)) (hw : C.Permits v new w)
    (hnew : ∀ k ∈ new, k ∉ keys) :
    C.Buffers base (w v) (new ++ keys) (applyAll (ws ++ [w])) := by
  have happly : ∀ t, applyAll (ws ++ [w]) t = w (applyAll ws t) := fun t => by
    rw [applyAll_append]
    rfl
  refine ⟨fun t hbase hinv habsent => ?_, fun s t hst => ?_, fun t k hk => ?_⟩
  · obtain ⟨hle, hinv', hv⟩ := h.keeps t hbase hinv fun k hk => habsent k (by simp [hk])
    have hfree : ∀ k ∈ new, ¬C.present (applyAll ws t) k := fun k hk hpresent =>
      (h.creates t k hpresent).elim (habsent k (by simp [hk])) (hnew k hk)
    obtain ⟨hle', hinv''⟩ := hw.keeps _ hv hinv' hfree
    rw [happly]
    exact ⟨C.trans hle hle', hinv'', hw.mono _ _ hv⟩
  · rw [happly, happly]
    exact hw.mono _ _ (h.mono _ _ hst)
  · rw [happly] at hk
    rcases hw.creates _ _ hk with hbefore | hk
    · rcases h.creates _ _ hbefore with hbefore | hk
      · exact .inl hbefore
      · exact .inr (by simp [hk])
    · exact .inr (by simp [hk])

/-- What the transaction sees, and will go on to see, has all it knows. -/
theorem Buffers.saw {base v : S} {keys : List K} {ws : List (S → S)}
    (h : C.Buffers base v keys (applyAll ws)) (hinv : C.inv base)
    (habsent : ∀ k ∈ keys, ¬C.present base k) :
    C.le v (applyAll ws base) ∧ C.inv (applyAll ws base) ∧
      C.Buffers base (applyAll ws base) keys (applyAll ws) := by
  obtain ⟨-, hinv', hv⟩ := h.keeps base (C.refl base) hinv habsent
  refine ⟨hv, hinv', fun t hbase hinv habsent => ?_, h.mono, h.creates⟩
  obtain ⟨hle, hinv', -⟩ := h.keeps t hbase hinv habsent
  exact ⟨hle, hinv', h.mono _ _ hbase⟩

/-- The snapshot may be taken later than the transaction is opened. -/
theorem Buffers.rebase {base base' v : S} {keys : List K} {w : S → S}
    (h : C.Buffers base v keys w) (hle : C.le base base') : C.Buffers base' v keys w where
  keeps t hbase := h.keeps t (C.trans hle hbase)
  mono := h.mono
  creates := h.creates

end Contract

/-! ### What a program knows -/

/-- Outside a transaction a program knows a state nothing of which is lost.  Inside one it
also knows such a state of what it sees, and the keys it has taken. -/
inductive Known (S K : Type)
  | outside (view : S)
  | inside (shared view : S) (keys : List K)

namespace Known

/-- What is not lost of what the program sees. -/
def view : Known S K → S
  | outside v => v
  | inside _ v _ => v

/-- What is not lost of the shared state. -/
def shared : Known S K → S
  | outside v => v
  | inside s _ _ => s

/-- The keys taken by a transaction that has not been committed. -/
def keys : Known S K → List K
  | outside _ => []
  | inside _ _ ks => ks

/-- The program has seen `u`, and has taken the keys `new`. -/
def next (new : List K) (u : S) : Known S K → Known S K
  | outside _ => outside u
  | inside s _ ks => inside s u (new ++ ks)

@[simp] theorem view_next (new : List K) (u : S) (g : Known S K) : (g.next new u).view = u := by
  cases g <;> rfl

end Known

/-! ### Preconditions -/

namespace Prog

variable (C : Contract S K) (tells : Known S K → V → Prop) (raises : E → Prop)

/-- The weakest precondition of a program: every write is permitted, `tells` holds where an
event is dispatched, `raises` of the exception it ends in and `post` where it answers. -/
def wp (post : Known S K → A → Prop) : Prog S V E A → Known S K → Prop
  | ret a, g => post g a
  | raise e, _ => raises e
  | select k, g => ∀ u, C.le g.view u → C.inv u → (k u).wp post (g.next [] u)
  | insert reserve put k, g => ∃ key : Nat → K, C.Reserves reserve key ∧
      ∀ i, C.Permits g.view [key i] (put i) ∧ (k i).wp post (g.next [key i] (put i g.view))
  | update put k, g => C.Permits g.view [] put ∧ k.wp post (g.next [] (put g.view))
  | beginTransaction k, .outside v => k.wp post (.inside v v [])
  | beginTransaction _, .inside _ _ _ => False
  | commit k, .inside _ v _ => k.wp post (.outside v)
  | commit _, .outside _ => False
  | rollBack _, _ => False
  | emit ev k, g => tells g ev ∧ k.wp post g

variable {C tells raises}

/-- **The rule for sequences.** -/
theorem wp_bind {post : Known S K → B → Prop} {f : A → Prog S V E B} :
    ∀ {p : Prog S V E A} {g : Known S K},
      p.wp C tells raises (fun g a => (f a).wp C tells raises post g) g →
        (p >>= f).wp C tells raises post g := by
  intro p
  induction p with
  | ret a => exact id
  | raise e => exact id
  | select k ih => exact fun h u hle hinv => ih u (h u hle hinv)
  | insert reserve put k ih =>
      rintro g ⟨key, hreserves, h⟩
      exact ⟨key, hreserves, fun i => ⟨(h i).1, ih i (h i).2⟩⟩
  | update put k ih => exact fun h => ⟨h.1, ih h.2⟩
  | beginTransaction k ih =>
      intro g h
      cases g with
      | outside v => exact ih h
      | inside s v ks => exact h
  | commit k ih =>
      intro g h
      cases g with
      | outside v => exact h
      | inside s v ks => exact ih h
  | rollBack k ih => exact id
  | emit ev k ih => exact fun h => ⟨h.1, ih h.2⟩

/-- **The rule of consequence.** -/
theorem wp_mono {tells' : Known S K → V → Prop} {post post' : Known S K → A → Prop}
    (htells : ∀ g ev, tells g ev → tells' g ev) (hpost : ∀ g a, post g a → post' g a) :
    ∀ {p : Prog S V E A} {g : Known S K},
      p.wp C tells raises post g → p.wp C tells' raises post' g := by
  intro p
  induction p with
  | ret a => exact fun h => hpost _ _ h
  | raise e => exact id
  | select k ih => exact fun h u hle hinv => ih u (h u hle hinv)
  | insert reserve put k ih =>
      rintro g ⟨key, hreserves, h⟩
      exact ⟨key, hreserves, fun i => ⟨(h i).1, ih i (h i).2⟩⟩
  | update put k ih => exact fun h => ⟨h.1, ih h.2⟩
  | beginTransaction k ih =>
      intro g h
      cases g with
      | outside v => exact ih h
      | inside s v ks => exact h
  | commit k ih =>
      intro g h
      cases g with
      | outside v => exact h
      | inside s v ks => exact ih h
  | rollBack k ih => exact id
  | emit ev k ih => exact fun h => ⟨htells _ _ h.1, ih h.2⟩

end Prog

/-! ### One statement -/

namespace Contract

variable {C : Contract S K}

variable (C) in
/-- What a program inside a transaction knows is right when the shared state is `s` and its
connection is `c`. -/
structure Inside (s shared v : S) (keys : List K) (snap : Option S) (ws : List (S → S))
    (base : S) : Prop where
  le_shared : C.le shared s
  spent : ∀ k ∈ keys, C.spent s k
  absent : ∀ k ∈ keys, ¬C.present s k
  taken : snap = none ∨ snap = some base
  le_base : C.le base s
  inv : C.inv base
  unseen : ∀ k ∈ keys, ¬C.present base k
  buffers : C.Buffers base v keys (applyAll ws)

variable (C) in
/-- What a program knows is right when the shared state is `s` and its connection is `c`. -/
def Right (s : S) : Known S K → Conn S → Prop
  | .outside v, c => c = .idle ∧ C.le v s
  | .inside shared v keys, c => ∃ snap ws base, c = ⟨snap, [ws]⟩ ∧
      C.Inside s shared v keys snap ws base

variable {s s' : S} {g g' : Known S K} {c c' : Conn S}

theorem Right.le_shared (h : C.Right s g c) : C.le g.shared s := by
  cases g with
  | outside v => exact h.2
  | inside shared v keys =>
      obtain ⟨snap, ws, base, -, hin⟩ := h
      exact hin.le_shared

theorem Right.spent (h : C.Right s g c) : ∀ k ∈ g.keys, C.spent s k := by
  cases g with
  | outside v => exact fun k hk => absurd hk (by simp [Known.keys])
  | inside shared v keys =>
      obtain ⟨snap, ws, base, -, hin⟩ := h
      exact hin.spent

theorem Right.absent (h : C.Right s g c) : ∀ k ∈ g.keys, ¬C.present s k := by
  cases g with
  | outside v => exact fun k hk => absurd hk (by simp [Known.keys])
  | inside shared v keys =>
      obtain ⟨snap, ws, base, -, hin⟩ := h
      exact hin.absent

/-- What a program knows stays right while others write, if they write nothing at its keys. -/
theorem Right.mono (h : C.Right s g c) (hle : C.le s s')
    (habsent : ∀ k ∈ g.keys, ¬C.present s' k) : C.Right s' g c := by
  cases g with
  | outside v => exact ⟨h.1, C.trans h.2 hle⟩
  | inside shared v keys =>
      obtain ⟨snap, ws, base, hc, hin⟩ := h
      exact ⟨snap, ws, base, hc,
        { hin with
          le_shared := C.trans hin.le_shared hle
          spent := fun k hk => C.spent_le hle (hin.spent k hk)
          absent := habsent
          le_base := C.trans hin.le_base hle }⟩

variable (C) in
/-- What a statement of a program may do to the shared state, and which keys it may take. -/
structure Advances (s s' : S) (g g' : Known S K) : Prop where
  le : C.le s s'
  inv : C.inv s'
  creates : ∀ k, C.present s' k → C.present s k ∨ k ∈ g.keys ∨ ¬C.spent s k
  takes : ∀ k ∈ g'.keys, k ∈ g.keys ∨ ¬C.spent s k

theorem Advances.still (hinv : C.inv s) (hkeys : ∀ k ∈ g'.keys, k ∈ g.keys) :
    C.Advances s s g g' :=
  ⟨C.refl s, hinv, fun _ h => .inl h, fun k hk => .inl (hkeys k hk)⟩

/-- A `SELECT`. -/
theorem Right.select (h : C.Right s g c) (hinv : C.inv s) :
    C.le g.view (c.view s) ∧ C.inv (c.view s) ∧ C.Right s (g.next [] (c.view s)) (c.looked s) := by
  cases g with
  | outside v =>
      obtain ⟨rfl, hle⟩ := h
      exact ⟨hle, hinv, rfl, C.refl s⟩
  | inside shared v keys =>
      obtain ⟨snap, ws, base, rfl, hin⟩ := h
      rcases hin.taken with rfl | rfl
      · -- the snapshot is taken now
        have hbuffers := hin.buffers.rebase hin.le_base
        obtain ⟨hv, hinv', hsaw⟩ := hbuffers.saw hinv hin.absent
        have hview : (⟨none, [ws]⟩ : Conn S).view s = applyAll ws s := by simp [Conn.view]
        rw [hview]
        refine ⟨hv, hinv', some s, ws, s, rfl, ?_⟩
        exact { hin with
          taken := .inr rfl, le_base := C.refl s, inv := hinv, unseen := hin.absent, buffers := hsaw }
      · obtain ⟨hv, hinv', hsaw⟩ := hin.buffers.saw hin.inv hin.unseen
        rw [Conn.view_snap]
        exact ⟨hv, hinv', some base, ws, base, rfl, { hin with taken := .inr rfl, buffers := hsaw }⟩

/-- A write, in a state in which the keys `new` have been handed out to it since `s`. -/
theorem Right.write {new : List K} {w : S → S} (h : C.Right s g c) (hle : C.le s s')
    (hinv : C.inv s') (hkeys : ∀ k ∈ g.keys, ¬C.present s' k) (hw : C.Permits g.view new w)
    (hunspent : ∀ k ∈ new, ¬C.spent s k) (hspent : ∀ k ∈ new, C.spent s' k)
    (habsent : ∀ k ∈ new, ¬C.present s' k) :
    C.le s' (c.write w s').1 ∧ C.inv (c.write w s').1 ∧
      (∀ k, C.present (c.write w s').1 k → C.present s' k ∨ k ∈ new) ∧
      C.Right (c.write w s').1 (g.next new (w g.view)) (c.write w s').2 := by
  have hright := h.mono hle hkeys
  cases g with
  | outside v =>
      obtain ⟨rfl, hv⟩ := hright
      obtain ⟨hle', hinv'⟩ := hw.keeps s' hv hinv habsent
      exact ⟨hle', hinv', hw.creates s', rfl, hw.mono _ _ hv⟩
  | inside shared v keys =>
      obtain ⟨snap, ws, base, rfl, hin⟩ := h
      have hfree : ∀ k ∈ new, k ∉ keys := fun k hk hmem => hunspent k hk (hin.spent k hmem)
      have hunseen : ∀ k ∈ new, ¬C.present base k := fun k hk hpresent =>
        hunspent k hk (C.spent_le hin.le_base (C.spent_of_present hpresent))
      refine ⟨C.refl s', hinv, fun k hk => .inl hk, snap, ws ++ [w], base, rfl, ?_⟩
      exact {
        le_shared := C.trans hin.le_shared hle
        spent := fun k hk => (List.mem_append.mp hk).elim (hspent k) fun hk =>
          C.spent_le hle (hin.spent k hk)
        absent := fun k hk => (List.mem_append.mp hk).elim (habsent k) (hkeys k)
        taken := hin.taken
        le_base := C.trans hin.le_base hle
        inv := hin.inv
        unseen := fun k hk => (List.mem_append.mp hk).elim (hunseen k) (hin.unseen k)
        buffers := hin.buffers.write hw hfree }

/-- The commit. -/
theorem Inside.commit {shared v base : S} {keys : List K} {snap : Option S} {ws : List (S → S)}
    (h : C.Inside s shared v keys snap ws base) (hinv : C.inv s) :
    C.le s (applyAll ws s) ∧ C.inv (applyAll ws s) ∧ C.le v (applyAll ws s) ∧
      ∀ k, C.present (applyAll ws s) k → C.present s k ∨ k ∈ keys := by
  obtain ⟨hle, hinv', hv⟩ := h.buffers.keeps s h.le_base hinv h.absent
  exact ⟨hle, hinv', hv, h.buffers.creates s⟩

/-- **What one statement of a program that meets its precondition does.** -/
theorem Right.step {tells : Known S K → V → Prop} {raises : E → Prop}
    {post : Known S K → A → Prop} {p p' : Prog S V E A} (h : C.Right s g c) (hinv : C.inv s)
    (hwp : p.wp C tells raises post g)
    (hstep : p.step s c = some (p', s', c')) :
    ∃ g', p'.wp C tells raises post g' ∧ C.Right s' g' c' ∧ C.Advances s s' g g' := by
  cases p with
  | ret a => cases hstep
  | raise e => cases hstep
  | select k =>
      cases hstep
      obtain ⟨hle, hinv', hright⟩ := h.select hinv
      refine ⟨_, hwp _ hle hinv', hright, .still hinv ?_⟩
      cases g <;> exact fun k hk => hk
  | insert reserve put k =>
      cases hstep
      obtain ⟨key, hreserves, hk⟩ := hwp
      obtain ⟨hpermits, hwp⟩ := hk (reserve s).1
      have hunspent : ∀ k ∈ [key (reserve s).1], ¬C.spent s k := by
        simpa using hreserves.unspent s
      have habsent : ∀ k ∈ [key (reserve s).1], ¬C.present (reserve s).2 k := fun k hk hpresent =>
        hunspent k hk (C.spent_of_present (hreserves.creates s k hpresent))
      obtain ⟨hle, hinv', hcreates, hright⟩ := h.write (hreserves.le s) (hreserves.inv s hinv)
        (fun k hk hpresent => h.absent k hk (hreserves.creates s k hpresent)) hpermits hunspent
        (by simpa using hreserves.spent s) habsent
      refine ⟨_, hwp, hright, C.trans (hreserves.le s) hle, hinv', fun k hk => ?_, fun k hk => ?_⟩
      · rcases hcreates k hk with hbefore | hnew
        · exact .inl (hreserves.creates s k hbefore)
        · exact .inr (.inr (hunspent k hnew))
      · cases g with
        | outside v => exact absurd hk (by simp [Known.next, Known.keys])
        | inside shared v keys =>
            rcases List.mem_append.mp hk with hnew | hk
            · exact .inr (hunspent k hnew)
            · exact .inl hk
  | update put k =>
      cases hstep
      obtain ⟨hpermits, hwp⟩ := hwp
      obtain ⟨hle, hinv', hcreates, hright⟩ := h.write (C.refl s) hinv h.absent hpermits
        (by simp) (by simp) (by simp)
      refine ⟨_, hwp, hright, hle, hinv', fun k hk => ?_, fun k hk => ?_⟩
      · exact .inl ((hcreates k hk).elim id fun hnew => absurd hnew (by simp))
      · cases g <;> exact .inl hk
  | beginTransaction k =>
      cases hstep
      cases g with
      | inside shared v keys => exact hwp.elim
      | outside v =>
          obtain ⟨rfl, hle⟩ := h
          refine ⟨_, hwp, ⟨none, [], s, rfl, ?_⟩, .still hinv fun _ hk => hk⟩
          exact ⟨hle, by simp, by simp, .inl rfl, C.refl s, hinv, by simp, .nil hle⟩
  | commit k =>
      cases hstep
      cases g with
      | outside v => exact hwp.elim
      | inside shared v keys =>
          obtain ⟨snap, ws, base, rfl, hin⟩ := h
          obtain ⟨hle, hinv', hv, hcreates⟩ := hin.commit hinv
          refine ⟨_, hwp, ⟨rfl, hv⟩, hle, hinv', fun k hk => ?_,
            fun k hk => absurd hk (by simp [Known.keys])⟩
          rcases hcreates k hk with hbefore | hnew
          · exact .inl hbefore
          · exact .inr (.inl hnew)
  | rollBack k => exact hwp.elim
  | emit ev k =>
      cases hstep
      exact ⟨g, hwp.2, h, .still hinv fun _ hk => hk⟩

end Contract

namespace Prog

/-- The event a program is about to dispatch. -/
def event? : Prog S V E A → Option V
  | emit ev _ => some ev
  | _ => none

theorem event?_some {p : Prog S V E A} {ev : V} (h : p.event? = some ev) :
    ∃ k, p = .emit ev k := by
  cases p with
  | emit ev' k =>
      cases h
      exact ⟨k, rfl⟩
  | _ => cases h

/-- The events of a program, statement by statement. -/
theorem events_step {p p' : Prog S V E A} {s s' : S} {c c' : Conn S}
    (h : p.step s c = some (p', s', c')) :
    (p.exec s c).events = p.event?.toList ++ (p'.exec s' c').events := by
  cases p <;> cases h <;> rfl

theorem events_of_step_none {p : Prog S V E A} {s : S} {c : Conn S} (h : p.step s c = none) :
    (p.exec s c).events = [] := by
  cases p <;> first | rfl | cases h

/-- A program that runs alone dispatches what its rules allow. -/
theorem events_of_wp {C : Contract S K} {tells : Known S K → V → Prop} {raises : E → Prop}
    {post : Known S K → A → Prop} (p : Prog S V E A) :
    ∀ {s : S} {c : Conn S} {g : Known S K}, C.Right s g c → C.inv s → p.wp C tells raises post g →
      ∀ ev ∈ (p.exec s c).events, ∃ g, tells g ev := by
  induction p using step_induction with
  | h p ih =>
      intro s c g hright hinv hwp ev hev
      cases hstep : p.step s c with
      | none =>
          rw [events_of_step_none hstep] at hev
          cases hev
      | some x =>
          obtain ⟨p', s', c'⟩ := x
          obtain ⟨g', hwp', hright', hadvances⟩ := hright.step hinv hwp hstep
          rw [events_step hstep, List.mem_append, Option.mem_toList] at hev
          rcases hev with hnow | hlater
          · obtain ⟨k, rfl⟩ := event?_some hnow
            exact ⟨g, hwp.1⟩
          · exact ih s c p' s' c' hstep hright' hadvances.inv hwp' ev hlater

/-- The exception a program has ended in. -/
def exception? : Prog S V E A → Option E
  | raise e => some e
  | _ => none

theorem exception?_some {p : Prog S V E A} {e : E} (h : p.exception? = some e) : p = .raise e := by
  cases p with
  | raise e' =>
      cases h
      rfl
  | _ => cases h

theorem answer_step {p p' : Prog S V E A} {s s' : S} {c c' : Conn S}
    (h : p.step s c = some (p', s', c')) : (p.exec s c).answer = (p'.exec s' c').answer := by
  cases p <;> cases h <;> rfl

/-- A program that runs alone ends in an exception its rules allow, if in any. -/
theorem raises_of_wp {C : Contract S K} {tells : Known S K → V → Prop} {raises : E → Prop}
    {post : Known S K → A → Prop} {e : E} (p : Prog S V E A) :
    ∀ {s : S} {c : Conn S} {g : Known S K}, C.Right s g c → C.inv s → p.wp C tells raises post g →
      (p.exec s c).answer = .error e → raises e := by
  induction p using step_induction with
  | h p ih =>
      intro s c g hright hinv hwp hanswer
      cases hstep : p.step s c with
      | none =>
          cases p with
          | raise e' =>
              cases hanswer
              exact hwp
          | ret a => cases hanswer
          | _ => cases hstep
      | some x =>
          obtain ⟨p', s', c'⟩ := x
          obtain ⟨g', hwp', hright', hadvances⟩ := hright.step hinv hwp hstep
          rw [answer_step hstep] at hanswer
          exact ih s c p' s' c' hstep hright' hadvances.inv hwp' hanswer

end Prog

/-! ### Interleavings -/

namespace Prog

/-- What a program has answered, unless it has ended in an exception. -/
def answer? : Prog S V E A → Option A
  | ret a => some a
  | _ => none

theorem answer?_some {p : Prog S V E A} {a : A} (h : p.answer? = some a) : p = .ret a := by
  cases p with
  | ret a' =>
      cases h
      rfl
  | _ => cases h

end Prog

namespace Pool

/-- Every program of the pool knows what is right and meets its precondition, no two of them
have taken the same key, and nothing of `start` is lost. -/
structure Kept (C : Contract S K) (tells : ι → Known S K → V → Prop) (raises : ι → E → Prop)
    (post : ι → Known S K → A → Prop) (start : S) (pool : Pool ι S V E A) : Prop where
  inv : C.inv pool.state
  le : C.le start pool.state
  procs : ∃ known : ι → Known S K,
    (∀ a, C.Right pool.state (known a) (pool.procs a).conn) ∧
    (∀ a, (pool.procs a).prog.wp C (tells a) (raises a) (post a) (known a)) ∧
    ∀ a b, a ≠ b → ∀ k ∈ (known a).keys, k ∉ (known b).keys

variable {C : Contract S K} {tells : ι → Known S K → V → Prop} {raises : ι → E → Prop}
  {post : ι → Known S K → A → Prop} {s : S} {pool : Pool ι S V E A}

theorem Kept.step [DecidableEq ι] (h : pool.Kept C tells raises post s) (a : ι) :
    (pool.step a).Kept C tells raises post s := by
  cases hstep : (pool.procs a).prog.step pool.state (pool.procs a).conn with
  | none =>
      rw [step_ended hstep]
      exact h
  | some x =>
      obtain ⟨p, s', c⟩ := x
      obtain ⟨known, hright, hwp, happart⟩ := h.procs
      obtain ⟨g, hwp', hright', hadvances⟩ := (hright a).step h.inv (hwp a) hstep
      have hself := step_self hstep
      have hstate := step_state hstep
      -- a key of another program was handed out before, and not to `a`
      have hothers : ∀ b, b ≠ a → ∀ k ∈ (known b).keys, k ∉ (known a).keys ∧ C.spent pool.state k :=
        fun b hb k hk => ⟨happart b a hb k hk, (hright b).spent k hk⟩
      refine ⟨by rw [hstate]; exact hadvances.inv,
        by rw [hstate]; exact C.trans h.le hadvances.le,
        Function.update known a g, fun b => ?_, fun b => ?_, fun b b' hbb' k hk => ?_⟩
      · by_cases hb : b = a
        · subst hb
          rw [hself, hstate, Function.update_self]
          exact hright'
        · rw [step_other hb, hstate, Function.update_of_ne hb]
          refine (hright b).mono hadvances.le fun k hk hpresent => ?_
          obtain ⟨hnot, hspent⟩ := hothers b hb k hk
          rcases hadvances.creates k hpresent with hbefore | hown | hunspent
          · exact (hright b).absent k hk hbefore
          · exact hnot hown
          · exact hunspent hspent
      · by_cases hb : b = a
        · subst hb
          rw [hself, Function.update_self]
          exact hwp'
        · rw [step_other hb, Function.update_of_ne hb]
          exact hwp b
      · by_cases hb : b = a
        · have hb' : b' ≠ a := fun heq => hbb' (hb.trans heq.symm)
          rw [hb, Function.update_self] at hk
          rw [Function.update_of_ne hb']
          intro hk'
          obtain ⟨hnot, hspent⟩ := hothers b' hb' k hk'
          exact (hadvances.takes k hk).elim hnot fun hunspent => hunspent hspent
        · rw [Function.update_of_ne hb] at hk
          by_cases hb' : b' = a
          · rw [hb', Function.update_self]
            intro hk'
            obtain ⟨hnot, hspent⟩ := hothers b hb k hk
            exact (hadvances.takes k hk').elim hnot fun hunspent => hunspent hspent
          · rw [Function.update_of_ne hb']
            exact happart b b' hbb' k hk

/-- From any point of an interleaving on nothing is lost any more. -/
theorem Kept.run_on [DecidableEq ι] (h : pool.Kept C tells raises post s) (schedule : List ι) :
    (after Pool.step pool schedule).Kept C tells raises post pool.state := by
  have hself : pool.Kept C tells raises post pool.state := { h with le := C.refl _ }
  have halong : Along Pool.step (fun _ _ => True) pool schedule :=
    Along.of_forall fun _ _ _ => trivial
  have hkeep : ∀ (q : Pool ι S V E A) a, q.Kept C tells raises post pool.state → True →
      (q.step a).Kept C tells raises post pool.state := fun _ a h _ => h.step a
  exact after_invariant hkeep hself halong

/-- **Programs that meet their preconditions keep the contract in every interleaving.** -/
theorem Kept.run [DecidableEq ι] {progs : ι → Prog S V E A} (hinv : C.inv s)
    (hwp : ∀ a, (progs a).wp C (tells a) (raises a) (post a) (.outside s)) (schedule : List ι) :
    (after Pool.step (Pool.start s progs) schedule).Kept C tells raises post s := by
  have hstart : (Pool.start s progs).Kept C tells raises post s :=
    ⟨hinv, C.refl s, fun _ => .outside s, fun _ => ⟨rfl, C.refl s⟩, hwp,
      fun _ _ _ _ hk => absurd hk (by simp [Known.keys])⟩
  exact hstart.run_on schedule

/-- A program that has answered. -/
theorem Kept.answers {a : ι} {x : A} (h : pool.Kept C tells raises post s)
    (hprog : (pool.procs a).prog.answer? = some x) :
    ∃ g, post a g x ∧ C.le g.shared pool.state := by
  obtain ⟨known, hright, hwp, -⟩ := h.procs
  have hself := hwp a
  rw [Prog.answer?_some hprog] at hself
  exact ⟨known a, hself, (hright a).le_shared⟩

/-- A program that has ended in an exception. -/
theorem Kept.raised {a : ι} {e : E} (h : pool.Kept C tells raises post s)
    (hprog : (pool.procs a).prog.exception? = some e) : raises a e := by
  obtain ⟨known, -, hwp, -⟩ := h.procs
  have hself := hwp a
  rw [Prog.exception?_some hprog] at hself
  exact hself

end Pool

end Store
