/-
Programs that do not see a part of the state.

Two states are alike when they differ only in what is hidden, which a relation `R` says.  A
program is blind to it when what a `SELECT` finds does not depend on it and each write keeps
alike states alike.  Run from alike states such a program goes the same way, statement for
statement: it dispatches the same events, answers the same and leaves alike states.
-/
import Mathlib.Data.Option.Basic
import Spoiler.Store.Query

namespace Store

variable {S V E A B : Type} {R : S → S → Prop}

/-- A write that keeps alike states alike. -/
def Respects (R : S → S → Prop) (w : S → S) : Prop := ∀ s s', R s s' → R (w s) (w s')

theorem respects_applyAll {ws : List (S → S)} (h : ∀ w ∈ ws, Respects R w) :
    Respects R (applyAll ws) := by
  induction ws with
  | nil =>
      intro s s' hs
      exact hs
  | cons w ws ih =>
      intro s s' hs
      rw [applyAll_cons, applyAll_cons]
      refine ih (fun w' hw' => h w' (List.mem_cons_of_mem _ hw')) _ _ ?_
      exact h w (List.mem_cons_self ..) s s' hs

/-! ### Connections -/

namespace Conn

/-- The same open writes, over snapshots that are alike. -/
structure Alike (R : S → S → Prop) (c c' : Conn S) : Prop where
  snap : Option.Rel R c.snap c'.snap
  levels : c.levels = c'.levels
  writes : ∀ ws ∈ c.levels, ∀ w ∈ ws, Respects R w

namespace Alike

variable {c c' : Conn S} {s s' : S}

theorem idle : Alike R (idle : Conn S) idle := by
  refine ⟨.none, rfl, ?_⟩
  intro ws hws
  cases hws

/-- What a `SELECT` starts from: the snapshot, or the state if there is none. -/
theorem getD (h : Alike R c c') (hs : R s s') : R (c.snap.getD s) (c'.snap.getD s') := by
  obtain ⟨hsnap, -, -⟩ := h
  generalize c.snap = x at hsnap ⊢
  generalize c'.snap = x' at hsnap ⊢
  cases hsnap with
  | none => exact hs
  | some hr => exact hr

theorem view (h : Alike R c c') (hs : R s s') : R (c.view s) (c'.view s') := by
  unfold Conn.view
  rw [← h.levels]
  split
  · exact hs
  · refine respects_applyAll ?_ _ _ (h.getD hs)
    intro w hw
    obtain ⟨ws, hws, hmem⟩ := List.mem_flatten.mp hw
    exact h.writes ws (List.mem_reverse.mp hws) w hmem

theorem looked (h : Alike R c c') (hs : R s s') : Alike R (c.looked s) (c'.looked s') := by
  unfold Conn.looked
  rw [← h.levels]
  split
  · exact h
  · exact ⟨.some (h.getD hs), rfl, h.writes⟩

theorem write (h : Alike R c c') (hs : R s s') {w : S → S} (hw : Respects R w) :
    R (c.write w s).1 (c'.write w s').1 ∧ Alike R (c.write w s).2 (c'.write w s').2 := by
  unfold Conn.write
  rw [← h.levels]
  split
  · exact ⟨hw s s' hs, h⟩
  · rename_i ws rest hlevels
    refine ⟨hs, h.snap, rfl, ?_⟩
    intro vs hvs v hv
    rcases List.mem_cons.mp hvs with rfl | hvs
    · rcases List.mem_append.mp hv with hv | hv
      · exact h.writes ws (by simp [hlevels]) v hv
      · exact (List.mem_singleton.mp hv) ▸ hw
    · exact h.writes vs (by simp [hlevels, hvs]) v hv

theorem opened (h : Alike R c c') : Alike R c.opened c'.opened := by
  refine ⟨h.snap, congrArg ([] :: ·) h.levels, ?_⟩
  intro ws hws w hw
  rcases List.mem_cons.mp hws with rfl | hws
  · cases hw
  · exact h.writes ws hws w hw

theorem committed (h : Alike R c c') (hs : R s s') :
    R (c.committed s).1 (c'.committed s').1 ∧ Alike R (c.committed s).2 (c'.committed s').2 := by
  unfold Conn.committed
  rw [← h.levels]
  split
  · exact ⟨hs, h⟩
  · rename_i ws hlevels
    exact ⟨respects_applyAll (h.writes ws (by simp [hlevels])) s s' hs, idle⟩
  · rename_i ws outer rest hlevels
    refine ⟨hs, h.snap, rfl, ?_⟩
    intro vs hvs v hv
    rcases List.mem_cons.mp hvs with rfl | hvs
    · rcases List.mem_append.mp hv with hv | hv
      · exact h.writes outer (by simp [hlevels]) v hv
      · exact h.writes ws (by simp [hlevels]) v hv
    · exact h.writes vs (by simp [hlevels, hvs]) v hv

theorem rolledBack (h : Alike R c c') : Alike R c.rolledBack c'.rolledBack := by
  unfold Conn.rolledBack
  rw [← h.levels]
  split
  · exact h
  · exact idle
  · rename_i ws rest hlevels hrest
    refine ⟨h.snap, rfl, ?_⟩
    intro vs hvs v hv
    exact h.writes vs (by simp [hrest, hvs]) v hv

end Alike

end Conn

/-! ### Programs -/

/-- Runs that nobody can tell apart: alike states, the same events and the same answer. -/
structure Outcome.Alike (R : S → S → Prop) (o o' : Outcome S V E A) : Prop where
  state : R o.state o'.state
  events : o.events = o'.events
  answer : o.answer = o'.answer

namespace Prog

/-- The program is blind to what `R` hides. -/
def Blind (R : S → S → Prop) : Prog S V E A → Prop
  | ret _ => True
  | raise _ => True
  | select k => (∀ s s', R s s' → k s = k s') ∧ ∀ s, (k s).Blind R
  | insert reserve put k =>
      (∀ s s', R s s' → (reserve s).1 = (reserve s').1 ∧ R (reserve s).2 (reserve s').2) ∧
        (∀ i, Respects R (put i)) ∧ ∀ i, (k i).Blind R
  | update put k => Respects R put ∧ k.Blind R
  | beginTransaction k => k.Blind R
  | commit k => k.Blind R
  | rollBack k => k.Blind R
  | emit _ k => k.Blind R

theorem Blind.bind {p : Prog S V E A} {f : A → Prog S V E B} (hp : p.Blind R)
    (hf : ∀ a, (f a).Blind R) : (p >>= f).Blind R := by
  induction p with
  | ret a => exact hf a
  | raise e => trivial
  | select k ih =>
      refine ⟨fun s s' hs => ?_, fun s => ih s (hp.2 s)⟩
      exact congrArg (Prog.bind · f) (hp.1 s s' hs)
  | insert reserve put k ih => exact ⟨hp.1, hp.2.1, fun i => ih i (hp.2.2 i)⟩
  | update put k ih => exact ⟨hp.1, ih hp.2⟩
  | beginTransaction k ih => exact ih hp
  | commit k ih => exact ih hp
  | rollBack k ih => exact ih hp
  | emit ev k ih => exact ih hp

/-- Reading what does not depend on the hidden part. -/
theorem Blind.select {f : S → B} {k : B → Prog S V E A} (hf : ∀ s s', R s s' → f s = f s')
    (hk : ∀ b, (k b).Blind R) : (Prog.select fun s => k (f s)).Blind R := by
  refine ⟨fun s s' hs => ?_, fun s => hk _⟩
  exact congrArg k (hf s s' hs)

/-- **A blind program cannot tell alike states apart.** -/
theorem Blind.exec {p : Prog S V E A} (hp : p.Blind R) {s s' : S} (hs : R s s') {c c' : Conn S}
    (hc : Conn.Alike R c c') : (p.exec s c).Alike R (p.exec s' c') := by
  induction p generalizing s s' c c' with
  | ret a => exact ⟨hs, rfl, rfl⟩
  | raise e => exact ⟨hs, rfl, rfl⟩
  | select k ih =>
      rw [exec_select, exec_select, hp.1 _ _ (hc.view hs)]
      exact ih _ (hp.2 _) hs (hc.looked hs)
  | insert reserve put k ih =>
      obtain ⟨hreserve, hput, hk⟩ := hp
      obtain ⟨hkey, hs'⟩ := hreserve s s' hs
      rw [exec_insert, exec_insert, ← hkey]
      obtain ⟨hstate, hconn⟩ := hc.write hs' (hput (reserve s).1)
      exact ih _ (hk _) hstate hconn
  | update put k ih =>
      obtain ⟨hstate, hconn⟩ := hc.write hs hp.1
      exact ih hp.2 hstate hconn
  | beginTransaction k ih => exact ih hp hs hc.opened
  | commit k ih =>
      obtain ⟨hstate, hconn⟩ := hc.committed hs
      exact ih hp hstate hconn
  | rollBack k ih => exact ih hp hs hc.rolledBack
  | emit ev k ih =>
      obtain ⟨hstate, hevents, hanswer⟩ := ih hp hs hc
      exact ⟨hstate, congrArg (ev :: ·) hevents, hanswer⟩

theorem Blind.serve {p : Prog S V E A} (hp : p.Blind R) {s s' : S} (hs : R s s') :
    (p.serve s).Alike R (p.serve s') :=
  hp.exec hs .idle

end Prog

/-! ### Tables -/

namespace Table

variable {ρ β : Type} {t u : Table ρ} {f : ρ → β} {i : Nat} {r : ρ}

/-- The same keys, and rows of which `f` shows the same. -/
structure Same (f : ρ → β) (t u : Table ρ) : Prop where
  next : t.next = u.next
  row : ∀ i, (t.row i).map f = (u.row i).map f

namespace Same

/-- Two rows found, or none. -/
theorem paired {x y : Option (Nat × ρ)}
    (h : x.map (fun x => (x.1, f x.2)) = y.map fun x => (x.1, f x.2)) :
    (x = none ∧ y = none) ∨ ∃ i r q, x = some (i, r) ∧ y = some (i, q) ∧ f r = f q := by
  cases x with
  | none => exact .inl ⟨rfl, Option.map_eq_none_iff.mp h.symm⟩
  | some x =>
      obtain ⟨i, r⟩ := x
      obtain ⟨⟨j, q⟩, hy, heq⟩ := Option.map_eq_some_iff.mp h.symm
      obtain ⟨rfl, hf⟩ := Prod.mk.inj heq
      exact .inr ⟨j, r, q, rfl, hy, hf.symm⟩

theorem isSome (h : Same f t u) (i : Nat) : (t.row i).isSome = (u.row i).isSome := by
  have hi := congrArg Option.isSome (h.row i)
  rwa [Option.isSome_map, Option.isSome_map] at hi

/-- A full scan shows the same. -/
theorem rows (h : Same f t u) :
    t.rows.map (fun x => (x.1, f x.2)) = u.rows.map fun x => (x.1, f x.2) := by
  unfold Table.rows
  rw [List.map_filterMap, List.map_filterMap, h.next]
  refine List.filterMap_congr fun i _ => ?_
  have hi := congrArg (Option.map fun b => (i, b)) (h.row i)
  simpa only [Option.map_map, Function.comp_def] using hi

/-- So does a clause that looks at nothing else. -/
theorem filter (h : Same f t u) {p : Nat → ρ → Bool} {q : Nat → β → Bool}
    (hp : ∀ i r, p i r = q i (f r)) :
    (t.filter p).map (fun x => (x.1, f x.2)) = (u.filter p).map fun x => (x.1, f x.2) := by
  have hmap (v : Table ρ) : (v.filter p).map (fun x => (x.1, f x.2))
      = (v.rows.map fun x => (x.1, f x.2)).filter fun y => q y.1 y.2 := by
    unfold Table.filter
    rw [List.filter_map]
    simp only [Function.comp_def, hp]
  rw [hmap, hmap, h.rows]

theorem length_filter (h : Same f t u) {p : Nat → ρ → Bool} {q : Nat → β → Bool}
    (hp : ∀ i r, p i r = q i (f r)) : (t.filter p).length = (u.filter p).length := by
  simpa using congrArg List.length (h.filter hp)

theorem isEmpty_filter (h : Same f t u) {p : Nat → ρ → Bool} {q : Nat → β → Bool}
    (hp : ∀ i r, p i r = q i (f r)) : (t.filter p).isEmpty = (u.filter p).isEmpty := by
  simpa using congrArg List.isEmpty (h.filter hp)

theorem first (h : Same f t u) {p : Nat → ρ → Bool} {q : Nat → β → Bool}
    (hp : ∀ i r, p i r = q i (f r)) :
    (t.first p).map (fun x => (x.1, f x.2)) = (u.first p).map fun x => (x.1, f x.2) := by
  have hmap (v : Table ρ) : (v.first p).map (fun x => (x.1, f x.2))
      = (v.rows.map fun x => (x.1, f x.2)).find? fun y => q y.1 y.2 := by
    unfold Table.first
    rw [List.find?_map]
    simp only [Function.comp_def, hp]
  rw [hmap, hmap, h.rows]

theorem reserve (h : Same f t u) : Same f t.reserve.2 u.reserve.2 := by
  refine ⟨?_, h.row⟩
  rw [reserve_next, reserve_next, h.next]

theorem put (h : Same f t u) (i : Nat) (r : ρ) : Same f (t.put i r) (u.put i r) := by
  refine ⟨?_, fun j => ?_⟩
  · rw [put_next, put_next, h.next]
  · rw [put_row, put_row]
    split
    · rfl
    · exact h.row j

/-- An update of what is not shown. -/
theorem of_hidden (t : Table ρ) (i : Nat) {g : ρ → ρ} (hg : ∀ r, f (g r) = f r) :
    Same f t (t.modify i g) := by
  refine ⟨rfl, fun j => ?_⟩
  rw [modify_row]
  split
  · simp only [Option.map_map, Function.comp_def, hg]
  · rfl

/-- Two updates that show the same. -/
theorem modify (h : Same f t u) {g g' : ρ → ρ} (hg : ∀ r q, f r = f q → f (g r) = f (g' q)) :
    Same f (t.modify i g) (u.modify i g') := by
  refine ⟨h.next, fun j => ?_⟩
  rw [modify_row, modify_row]
  split
  · have hj := h.row j
    cases ht : t.row j with
    | none =>
        rw [ht] at hj
        rw [Option.map_eq_none_iff.mp hj.symm]
        rfl
    | some r =>
        rw [ht] at hj
        obtain ⟨q, hq, hfq⟩ := Option.map_eq_some_iff.mp hj.symm
        rw [hq]
        exact congrArg some (hg r q hfq.symm)
  · exact h.row j

end Same

end Table

/-- A table that is not hidden at all. -/
structure TableOf.Open {ρ : Type} (R : S → S → Prop) (T : TableOf S ρ) : Prop where
  get : ∀ s s', R s s' → T.get s = T.get s'
  set : ∀ s s' t, R s s' → R (T.set s t) (T.set s' t)

namespace TableOf.Open

variable {ρ : Type} {T : TableOf S ρ}

theorem same (h : T.Open R) {s s' : S} (hs : R s s') : Table.Same id (T.get s) (T.get s') := by
  rw [h.get s s' hs]
  exact ⟨rfl, fun _ => rfl⟩

theorem respects (h : T.Open R) (g : Table ρ → Table ρ) :
    Respects R fun s => T.set s (g (T.get s)) := by
  intro s s' hs
  dsimp only
  rw [h.get s s' hs]
  exact h.set s s' _ hs

theorem insert (h : T.Open R) (r : ρ) : (T.insert r : Prog S V E Nat).Blind R := by
  refine ⟨fun s s' hs => ?_, fun i => h.respects fun t => t.put i r, fun _ => trivial⟩
  refine ⟨congrArg (fun t => t.reserve.1) (h.get s s' hs), ?_⟩
  exact h.respects (fun t => t.reserve.2) s s' hs

theorem change (h : T.Open R) (i : Nat) (f : ρ → ρ) : (T.change i f : Prog S V E Unit).Blind R :=
  ⟨h.respects fun t => t.modify i f, trivial⟩

theorem delete (h : T.Open R) (i : Nat) : (T.delete i : Prog S V E Unit).Blind R :=
  ⟨h.respects fun t => t.erase i, trivial⟩

end TableOf.Open

end Store
