/-
Tables with an auto-increment primary key.

A table is the partial map from primary keys to rows together with the value the
database hands out next.  Keeping the counter apart from the rows matters twice:
a rolled back `INSERT` gives its row back but not its key, and two inserts that
are in flight together hold different keys before either row can be seen.

The field `fresh` is the whole invariant: no row sits at a key that has not been
handed out.  Every operation below carries it along, so nothing above this file
ever proves that a new row overwrites nothing.
-/
import Mathlib.Algebra.BigOperators.Group.Finset.Basic

namespace Store

/-- Rows by primary key, and the next key. -/
structure Table (ρ : Type) where
  next : Nat
  row : Nat → Option ρ
  fresh : ∀ i, next ≤ i → row i = none

namespace Table

variable {ρ : Type} {t : Table ρ} {i j : Nat} {r : ρ}

@[ext] theorem ext {t u : Table ρ} (hnext : t.next = u.next) (hrow : t.row = u.row) : t = u := by
  cases t; cases u
  subst hnext hrow
  rfl

/-- A table nothing was ever inserted into; keys start at one. -/
def empty : Table ρ := ⟨1, fun _ => none, fun _ _ => rfl⟩

@[simp] theorem empty_row (i : Nat) : (empty : Table ρ).row i = none := rfl

theorem lt_next (h : t.row i = some r) : i < t.next := by
  by_contra hge
  rw [t.fresh i (Nat.le_of_not_lt hge)] at h
  cases h

/-! ### Reading -/

/-- The rows in primary key order, as a full scan returns them. -/
def rows (t : Table ρ) : List (Nat × ρ) :=
  (List.range t.next).filterMap fun i => (t.row i).map fun r => (i, r)

/-- The rows a `WHERE` clause keeps. -/
def filter (t : Table ρ) (p : Nat → ρ → Bool) : List (Nat × ρ) :=
  t.rows.filter fun x => p x.1 x.2

/-- The first row a `WHERE` clause keeps. -/
def first (t : Table ρ) (p : Nat → ρ → Bool) : Option (Nat × ρ) :=
  t.rows.find? fun x => p x.1 x.2

theorem mem_rows {x : Nat × ρ} : x ∈ t.rows ↔ t.row x.1 = some x.2 := by
  obtain ⟨i, r⟩ := x
  simp only [rows, List.mem_filterMap, List.mem_range, Option.map_eq_some_iff, Prod.mk.injEq]
  constructor
  · rintro ⟨j, -, r', hr, rfl, rfl⟩
    exact hr
  · intro h
    exact ⟨i, lt_next h, r, h, rfl, rfl⟩

theorem mem_filter {p : Nat → ρ → Bool} {x : Nat × ρ} :
    x ∈ t.filter p ↔ t.row x.1 = some x.2 ∧ p x.1 x.2 = true := by
  simp only [filter, List.mem_filter, mem_rows]

theorem filter_eq_nil {p : Nat → ρ → Bool} :
    t.filter p = [] ↔ ∀ i r, t.row i = some r → p i r = false := by
  simp only [filter, List.filter_eq_nil_iff, Prod.forall, mem_rows, Bool.not_eq_true]

theorem first_some {p : Nat → ρ → Bool} (h : t.first p = some (i, r)) :
    t.row i = some r ∧ p i r = true :=
  ⟨mem_rows.mp (List.mem_of_find?_eq_some h), by simpa using List.find?_some h⟩

theorem first_none {p : Nat → ρ → Bool} :
    t.first p = none ↔ ∀ i r, t.row i = some r → p i r = false := by
  simp only [first, List.find?_eq_none, Prod.forall, mem_rows, Bool.not_eq_true]

/-- A full scan meets the rows by their keys. -/
theorem rows_sorted (t : Table ρ) : t.rows.Pairwise fun x y => x.1 < y.1 := by
  unfold rows
  rw [List.pairwise_filterMap]
  refine List.pairwise_lt_range.imp fun {i j} hij x hx y hy => ?_
  obtain ⟨r, -, rfl⟩ := Option.map_eq_some_iff.mp hx
  obtain ⟨q, -, rfl⟩ := Option.map_eq_some_iff.mp hy
  exact hij

/-- And every row once. -/
theorem rows_nodup (t : Table ρ) : t.rows.Nodup :=
  t.rows_sorted.imp fun hlt heq => Nat.ne_of_lt hlt (congrArg Prod.fst heq)

/-- The first row a clause keeps is the one with the least key. -/
theorem first_eq_some {p : Nat → ρ → Bool} :
    t.first p = some (i, r) ↔
      t.row i = some r ∧ p i r = true ∧ ∀ j q, t.row j = some q → j < i → p j q = false := by
  constructor
  · intro h
    obtain ⟨hp, before, later, hrows, hnot⟩ := List.find?_eq_some_iff_append.mp h
    refine ⟨(first_some h).1, hp, fun j q hj hji => ?_⟩
    have hsorted := t.rows_sorted
    have hmem := mem_rows.mpr (show t.row (j, q).1 = some (j, q).2 from hj)
    rw [hrows] at hsorted hmem
    rcases List.mem_append.mp hmem with hbefore | hrest
    · simpa using hnot _ hbefore
    · -- from the row found on the keys are not below its own
      exfalso
      rcases List.mem_cons.mp hrest with heq | hlater
      · cases heq
        exact Nat.lt_irrefl _ hji
      · have hlt := List.rel_of_pairwise_cons (List.pairwise_append.mp hsorted).2.1 hlater
        exact Nat.lt_asymm hlt hji
  · rintro ⟨hrow, hp, hleast⟩
    obtain ⟨before, later, hrows⟩ := List.append_of_mem (mem_rows.mpr
      (show t.row (i, r).1 = some (i, r).2 from hrow))
    refine List.find?_eq_some_iff_append.mpr ⟨hp, before, later, hrows, fun x hx => ?_⟩
    have hsorted := t.rows_sorted
    have hmem : x ∈ t.rows := by
      rw [hrows]
      exact List.mem_append_left _ hx
    rw [hrows] at hsorted
    have hlt := (List.pairwise_append.mp hsorted).2.2 x hx (i, r) List.mem_cons_self
    simpa using hleast x.1 x.2 (mem_rows.mp hmem) hlt

theorem filter_nodup (t : Table ρ) (p : Nat → ρ → Bool) : (t.filter p).Nodup :=
  t.rows_nodup.filter _

/-- Counting the rows a clause keeps asks whether there is a first one. -/
theorem filter_length_pos {p : Nat → ρ → Bool} :
    0 < (t.filter p).length ↔ (t.first p).isSome = true := by
  rw [List.length_pos_iff, Ne, filter_eq_nil, ← first_none]
  cases t.first p <;> simp

/-! ### Writing -/

/-- The next key is handed out; nothing is stored at it yet. -/
def reserve (t : Table ρ) : Nat × Table ρ :=
  (t.next, ⟨t.next + 1, t.row, fun i h => t.fresh i (Nat.le_of_succ_le h)⟩)

/-- Store `r` at a key that was handed out before. -/
def put (t : Table ρ) (i : Nat) (r : ρ) : Table ρ where
  next := max t.next (i + 1)
  row j := if j = i then some r else t.row j
  fresh j h := by
    have hj : j ≠ i := by omega
    rw [if_neg hj]
    exact t.fresh j (by omega)

/-- `INSERT` with nobody else in between: the next key and its row. -/
def insert (t : Table ρ) (r : ρ) : Table ρ := t.reserve.2.put t.next r

/-- Change the row at `i`, if there is one. -/
def modify (t : Table ρ) (i : Nat) (f : ρ → ρ) : Table ρ where
  next := t.next
  row j := if j = i then (t.row j).map f else t.row j
  fresh j h := by simp [t.fresh j h]

/-- Drop the row at `i`. -/
def erase (t : Table ρ) (i : Nat) : Table ρ where
  next := t.next
  row j := if j = i then none else t.row j
  fresh j h := by simp [t.fresh j h]

@[simp] theorem reserve_fst (t : Table ρ) : t.reserve.1 = t.next := rfl
@[simp] theorem reserve_row (t : Table ρ) : t.reserve.2.row = t.row := rfl
@[simp] theorem reserve_next (t : Table ρ) : t.reserve.2.next = t.next + 1 := rfl

@[simp] theorem put_row (t : Table ρ) (i j : Nat) (r : ρ) :
    (t.put i r).row j = if j = i then some r else t.row j := rfl

@[simp] theorem put_next (t : Table ρ) (i : Nat) (r : ρ) :
    (t.put i r).next = max t.next (i + 1) := rfl

@[simp] theorem insert_row (t : Table ρ) (j : Nat) (r : ρ) :
    (t.insert r).row j = if j = t.next then some r else t.row j := rfl

@[simp] theorem insert_next (t : Table ρ) (r : ρ) : (t.insert r).next = t.next + 1 := by
  simp [insert]

@[simp] theorem modify_row (t : Table ρ) (i j : Nat) (f : ρ → ρ) :
    (t.modify i f).row j = if j = i then (t.row j).map f else t.row j := rfl

@[simp] theorem modify_next (t : Table ρ) (i : Nat) (f : ρ → ρ) :
    (t.modify i f).next = t.next := rfl

@[simp] theorem erase_row (t : Table ρ) (i j : Nat) :
    (t.erase i).row j = if j = i then none else t.row j := rfl

@[simp] theorem row_next (t : Table ρ) : t.row t.next = none := t.fresh _ (Nat.le_refl _)

/-- A full scan finds the new row last. -/
theorem rows_insert (t : Table ρ) (r : ρ) : (t.insert r).rows = t.rows ++ [(t.next, r)] := by
  unfold rows
  rw [insert_next, List.range_succ, List.filterMap_append]
  congr 1
  · refine List.filterMap_congr fun j hj => ?_
    have hne : j ≠ t.next := Nat.ne_of_lt (List.mem_range.mp hj)
    rw [insert_row, if_neg hne]
  · simp

/-- A row the clause does not keep makes no difference. -/
theorem filter_insert {p : Nat → ρ → Bool} (h : p t.next r = false) :
    (t.insert r).filter p = t.filter p := by
  unfold filter
  rw [rows_insert, List.filter_append]
  simp [h]

/-- The rows after an `INSERT`: the new one and the old ones. -/
theorem insert_row_some {q : ρ} :
    (t.insert r).row j = some q ↔ (j = t.next ∧ q = r) ∨ t.row j = some q := by
  rw [insert_row]
  by_cases hj : j = t.next
  · subst hj
    simp [eq_comm]
  · simp [hj]

/-- The rows after an `UPDATE`: the changed one and the others. -/
theorem modify_row_some {f : ρ → ρ} {q : ρ} :
    (t.modify i f).row j = some q ↔
      (j ≠ i ∧ t.row j = some q) ∨ (j = i ∧ ∃ r, t.row i = some r ∧ f r = q) := by
  rw [modify_row]
  by_cases hj : j = i
  · subst hj
    simp
  · simp [hj]

theorem modify_row_none {f : ρ → ρ} (h : t.row j = none) : (t.modify i f).row j = none := by
  simp [h]

/-- No row goes away. -/
theorem exists_modify {f : ρ → ρ} (h : t.row j = some r) :
    ∃ q, (t.modify i f).row j = some q := by
  rw [modify_row]
  by_cases hj : j = i
  · exact ⟨f r, by rw [if_pos hj, h]; rfl⟩
  · exact ⟨r, by rw [if_neg hj, h]⟩

/-- `u` is `t` with `r` at `i`. -/
structure Sets (t u : Table ρ) (i : Nat) (r : ρ) : Prop where
  here : u.row i = some r
  elsewhere : ∀ j, j ≠ i → u.row j = t.row j

theorem insert_sets (t : Table ρ) (r : ρ) : t.Sets (t.insert r) t.next r :=
  ⟨by simp, fun j hj => by simp [hj]⟩

theorem modify_sets {f : ρ → ρ} (h : t.row i = some r) : t.Sets (t.modify i f) i (f r) :=
  ⟨by simp [h], fun j hj => by simp [hj]⟩

section All

variable {u : Table ρ} {P Q : ρ → Prop}

/-- Every row has the property. -/
def All (t : Table ρ) (P : ρ → Prop) : Prop := ∀ i r, t.row i = some r → P r

theorem All.of_empty (h : ∀ i, t.row i = none) : t.All P := by
  intro i r hi
  rw [h i] at hi
  cases hi

theorem All.mono (h : t.All P) (himp : ∀ r, P r → Q r) : t.All Q :=
  fun i r hi => himp r (h i r hi)

theorem All.of_row (h : t.All P) (hrow : u.row = t.row) : u.All P := by
  intro i r hi
  rw [hrow] at hi
  exact h i r hi

theorem All.sets (h : t.All P) (hsets : t.Sets u i r) (hr : P r) : u.All P := by
  intro j q hq
  by_cases hj : j = i
  · subst hj
    rw [hsets.here] at hq
    cases hq
    exact hr
  · rw [hsets.elsewhere j hj] at hq
    exact h j q hq

theorem All.erase (h : t.All P) (i : Nat) : (t.erase i).All P := by
  intro j q hq
  rw [erase_row] at hq
  split at hq
  · cases hq
  · exact h j q hq

/-- Every key that has a row keeps having one. -/
def Grows (t u : Table ρ) : Prop := ∀ i, (t.row i).isSome = true → (u.row i).isSome = true

theorem Grows.refl (t : Table ρ) : t.Grows t := fun _ => id

theorem Grows.of_row (hrow : u.row = t.row) : t.Grows u := by
  intro i hi
  rw [hrow]
  exact hi

theorem Grows.sets (h : t.Sets u i r) : t.Grows u := by
  intro j hj
  by_cases hji : j = i
  · rw [hji, h.here]
    rfl
  · rw [h.elsewhere j hji]
    exact hj

theorem Grows.modify (t : Table ρ) (i : Nat) (f : ρ → ρ) : t.Grows (t.modify i f) := by
  intro j hj
  obtain ⟨r, hr⟩ := Option.isSome_iff_exists.mp hj
  obtain ⟨q, hq⟩ := exists_modify (i := i) (f := f) hr
  rw [hq]
  rfl

theorem put_sets (t : Table ρ) (i : Nat) (r : ρ) : t.Sets (t.put i r) i r :=
  ⟨by simp, fun j hj => by simp [hj]⟩

theorem All.modify {f : ρ → ρ} (h : t.All P) (hf : ∀ r, P r → P (f r)) (i : Nat) :
    (t.modify i f).All P := by
  intro j q hq
  rcases modify_row_some.mp hq with ⟨-, hq⟩ | ⟨rfl, r, hr, rfl⟩
  · exact h j q hq
  · exact hf r (h j r hr)

end All

/-! ### Tables that nothing is lost from -/

section Evolves

variable {u w : Table ρ} {Q : Nat → ρ → ρ → Prop}

/-- Every row is still there, changed only as `Q` allows, and no key is free again. -/
structure Evolves (Q : Nat → ρ → ρ → Prop) (t u : Table ρ) : Prop where
  next : t.next ≤ u.next
  row : ∀ i r, t.row i = some r → ∃ q, u.row i = some q ∧ Q i r q

namespace Evolves

theorem refl (hQ : ∀ i r, Q i r r) (t : Table ρ) : t.Evolves Q t :=
  ⟨Nat.le_refl _, fun i r hr => ⟨r, hr, hQ i r⟩⟩

theorem trans (hQ : ∀ {i a b c}, Q i a b → Q i b c → Q i a c) (h : t.Evolves Q u) (h' : u.Evolves Q w) :
    t.Evolves Q w := by
  refine ⟨Nat.le_trans h.next h'.next, fun i r hr => ?_⟩
  obtain ⟨q, hq, hrq⟩ := h.row i r hr
  obtain ⟨p, hp, hqp⟩ := h'.row i q hq
  exact ⟨p, hp, hQ hrq hqp⟩

theorem grows (h : t.Evolves Q u) : t.Grows u := by
  intro i hi
  obtain ⟨r, hr⟩ := Option.isSome_iff_exists.mp hi
  obtain ⟨q, hq, -⟩ := h.row i r hr
  rw [hq]
  rfl

/-- A clause that looks at nothing that changes still finds a row. -/
theorem first (h : t.Evolves Q u) {p : Nat → ρ → Bool} (hfound : 0 < (t.filter p).length)
    (hp : ∀ i r q, Q i r q → p i r = true → p i q = true) : u.first p ≠ none := by
  obtain ⟨⟨i, r⟩, hfirst⟩ := Option.isSome_iff_exists.mp (filter_length_pos.mp hfound)
  obtain ⟨hrow, hr⟩ := first_some hfirst
  obtain ⟨q, hq, hrq⟩ := h.row i r hrow
  intro hnone
  have hfalse := first_none.mp hnone i q hq
  rw [hp i r q hrq hr] at hfalse
  cases hfalse

theorem reserve (hQ : ∀ i r, Q i r r) (t : Table ρ) : t.Evolves Q t.reserve.2 :=
  ⟨Nat.le_succ _, fun i r hr => ⟨r, hr, hQ i r⟩⟩

/-- A row at a key that had none. -/
theorem put (hQ : ∀ i r, Q i r r) (h : t.row i = none) (r : ρ) : t.Evolves Q (t.put i r) := by
  refine ⟨Nat.le_max_left _ _, fun j q hq => ⟨q, ?_, hQ j q⟩⟩
  have hj : j ≠ i := by
    rintro rfl
    rw [h] at hq
    cases hq
  rw [put_row, if_neg hj]
  exact hq

theorem modify {f : ρ → ρ} (hQ : ∀ i r, Q i r r) (i : Nat) (hf : ∀ r, Q i r (f r))
    (t : Table ρ) : t.Evolves Q (t.modify i f) := by
  refine ⟨Nat.le_refl _, fun j r hr => ?_⟩
  rw [modify_row, hr]
  by_cases hj : j = i
  · subst hj
    exact ⟨f r, by rw [if_pos rfl]; rfl, hf r⟩
  · exact ⟨r, by rw [if_neg hj], hQ j r⟩

/-- The same row put into both. -/
theorem put_both (hQ : ∀ i r, Q i r r) (h : t.Evolves Q u) (i : Nat) (r : ρ) :
    (t.put i r).Evolves Q (u.put i r) := by
  refine ⟨?_, fun j q hq => ?_⟩
  · have hnext := h.next
    simp only [put_next]
    omega
  · rw [put_row] at hq ⊢
    by_cases hj : j = i
    · rw [if_pos hj] at hq ⊢
      cases hq
      exact ⟨r, rfl, hQ j r⟩
    · rw [if_neg hj] at hq ⊢
      exact h.row j q hq

/-- The same change made to both. -/
theorem modify_both {f : ρ → ρ} (i : Nat) (hf : ∀ r q, Q i r q → Q i (f r) (f q))
    (h : t.Evolves Q u) : (t.modify i f).Evolves Q (u.modify i f) := by
  refine ⟨h.next, fun j q hq => ?_⟩
  rcases modify_row_some.mp hq with ⟨hj, hq⟩ | ⟨rfl, r, hr, rfl⟩
  · obtain ⟨p, hp, hqp⟩ := h.row j q hq
    exact ⟨p, by rw [modify_row, if_neg hj]; exact hp, hqp⟩
  · obtain ⟨p, hp, hrp⟩ := h.row j r hr
    exact ⟨f p, by rw [modify_row, if_pos rfl, hp]; rfl, hf r p hrp⟩

end Evolves

end Evolves

section Distinct

variable {β : Type} {π : ρ → β} {u : Table ρ}

/-- No two rows agree in the column `π`. -/
def Distinct (t : Table ρ) (π : ρ → β) : Prop :=
  ∀ i j r q, t.row i = some r → t.row j = some q → π r = π q → i = j

theorem Distinct.of_empty (h : ∀ i, t.row i = none) : t.Distinct π := by
  intro i j r q hi
  rw [h i] at hi
  cases hi

/-- No other row agrees with this one. -/
theorem Distinct.own (h : t.Distinct π) (hrow : t.row i = some r) :
    ∀ j q, t.row j = some q → j ≠ i → π q ≠ π r := by
  intro j q hq hj heq
  exact hj (h j i q r hq hrow heq)

/-- Writing a row that agrees with no other. -/
theorem Distinct.sets (h : t.Distinct π) (hsets : t.Sets u i r)
    (hfree : ∀ j q, t.row j = some q → j ≠ i → π q ≠ π r) : u.Distinct π := by
  intro j k row other hj hk heq
  by_cases hji : j = i
  · subst hji
    rw [hsets.here] at hj
    cases hj
    by_contra hkj
    rw [hsets.elsewhere k (Ne.symm hkj)] at hk
    exact hfree k other hk (Ne.symm hkj) heq.symm
  · rw [hsets.elsewhere j hji] at hj
    by_cases hki : k = i
    · subst hki
      rw [hsets.here] at hk
      cases hk
      exact absurd heq (hfree j row hj hji)
    · rw [hsets.elsewhere k hki] at hk
      exact h j k row other hj hk heq

/-- An update that leaves a column alone leaves every row's value in it. -/
theorem row_of_modify {f : ρ → ρ} {q : ρ} (hf : ∀ r, π (f r) = π r)
    (h : (t.modify i f).row j = some q) : ∃ r, t.row j = some r ∧ π q = π r := by
  rcases modify_row_some.mp h with ⟨-, hq⟩ | ⟨rfl, r, hr, rfl⟩
  · exact ⟨q, hq, rfl⟩
  · exact ⟨r, hr, hf r⟩

theorem Distinct.modify (h : t.Distinct π) {f : ρ → ρ} (hf : ∀ r, π (f r) = π r) (i : Nat) :
    (t.modify i f).Distinct π := by
  intro j k r q hr hq heq
  obtain ⟨r', hr', hsame⟩ := row_of_modify hf hr
  obtain ⟨q', hq', hsame'⟩ := row_of_modify hf hq
  exact h j k r' q' hr' hq' (by rw [← hsame, ← hsame', heq])

/-- Rows that agree in no column are as many as their values in it. -/
theorem Distinct.nodup_map {p : Nat → ρ → Bool} (h : t.Distinct π) {γ : Type} (f : ρ → γ)
    (hf : ∀ x ∈ t.filter p, ∀ y ∈ t.filter p, f x.2 = f y.2 → π x.2 = π y.2) :
    ((t.filter p).map fun x => f x.2).Nodup := by
  refine List.Nodup.map_on ?_ (t.filter_nodup p)
  rintro ⟨i, r⟩ hr ⟨j, q⟩ hq heq
  obtain ⟨hi, -⟩ := mem_filter.mp hr
  obtain ⟨hj, -⟩ := mem_filter.mp hq
  obtain rfl := h i j r q hi hj (hf _ hr _ hq heq)
  rw [hi] at hj
  cases hj
  rfl

end Distinct

/-! ### Keys -/

/-- The keys that have a row, in order. -/
def keys (t : Table ρ) : List Nat := t.rows.map Prod.fst

theorem keys_eq_filter {n : Nat} (h : t.next ≤ n) :
    t.keys = (List.range n).filter fun i => (t.row i).isSome := by
  obtain ⟨m, rfl⟩ := Nat.exists_eq_add_of_le h
  have hbeyond : ((List.range m).map (t.next + ·)).filter (fun i => (t.row i).isSome) = [] := by
    simp only [List.filter_eq_nil_iff, List.mem_map, forall_exists_index, and_imp]
    rintro i j - rfl
    simp [t.fresh (t.next + j) (Nat.le_add_right _ _)]
  rw [List.range_add, List.filter_append, hbeyond, List.append_nil]
  unfold keys rows
  rw [List.map_filterMap, ← List.filterMap_eq_filter]
  refine List.filterMap_congr fun i _ => ?_
  cases hrow : t.row i <;> simp [Option.guard, hrow]

/-- Tables with rows at the same keys. -/
theorem keys_congr {σ : Type} {u : Table σ} (h : ∀ i, (u.row i).isSome = (t.row i).isSome) :
    u.keys = t.keys := by
  rw [keys_eq_filter (Nat.le_max_left u.next t.next), keys_eq_filter (Nat.le_max_right u.next t.next)]
  exact List.filter_congr fun i _ => h i

theorem keys_insert (t : Table ρ) (r : ρ) : (t.insert r).keys = t.keys ++ [t.next] := by
  simp [keys, rows_insert]

theorem keys_modify (t : Table ρ) (i : Nat) (f : ρ → ρ) : (t.modify i f).keys = t.keys := by
  refine keys_congr fun j => ?_
  rw [modify_row]
  split <;> simp

/-! ### Copies of one row -/

/-- The rows an erased one leaves are the others. -/
theorem rows_perm_erase (h : t.row i = some r) : t.rows.Perm ((i, r) :: (t.erase i).rows) := by
  have hnodup : ((i, r) :: (t.erase i).rows).Nodup := by
    refine List.nodup_cons.mpr ⟨fun hmem => ?_, (t.erase i).rows_nodup⟩
    simp [mem_rows] at hmem
  refine (List.perm_ext_iff_of_nodup t.rows_nodup hnodup).mpr fun ⟨j, q⟩ => ?_
  rw [List.mem_cons, mem_rows, mem_rows, Prod.mk.injEq, erase_row]
  by_cases hj : j = i
  · subst hj
    simp [h, eq_comm]
  · simp [hj]

section Copies

variable [DecidableEq ρ]

/-- How many rows have exactly these columns. -/
def copies (t : Table ρ) (r : ρ) : Nat := t.rows.countP fun x => x.2 == r

theorem copies_eq_zero : t.copies r = 0 ↔ ∀ i, t.row i ≠ some r := by
  simp only [copies, List.countP_eq_zero, Prod.forall, mem_rows, beq_iff_eq]
  constructor
  · intro h i hi
    exact h i r hi rfl
  · rintro h i q hi rfl
    exact h i hi

theorem copies_of_empty (h : ∀ i, t.row i = none) (r : ρ) : t.copies r = 0 := by
  refine copies_eq_zero.mpr fun i => ?_
  simp [h i]

theorem copies_insert (t : Table ρ) (q r : ρ) :
    (t.insert q).copies r = t.copies r + if q = r then 1 else 0 := by
  simp [copies, rows_insert, List.countP_append, List.countP_cons]

theorem copies_erase {q : ρ} (h : t.row i = some q) (r : ρ) :
    t.copies r = (t.erase i).copies r + if q = r then 1 else 0 := by
  unfold copies
  rw [(rows_perm_erase h).countP_eq, List.countP_cons]
  simp

end Copies

theorem modify_eq_self {f : ρ → ρ} (hrow : t.row i = some r) (hf : f r = r) :
    t.modify i f = t := by
  refine Table.ext rfl (funext fun j => ?_)
  by_cases hj : j = i
  · subst hj
    simp [hrow, hf]
  · simp [hj]

theorem modify_modify (t : Table ρ) (i : Nat) (f g : ρ → ρ) :
    (t.modify i f).modify i g = t.modify i (g ∘ f) := by
  refine Table.ext rfl (funext fun j => ?_)
  by_cases hj : j = i
  · subst hj
    simp
  · simp [hj]

/-! ### Sums over the rows -/

/-- The sum of `w` over the rows. -/
def sum (t : Table ρ) (w : Nat → ρ → Int) : Int :=
  ∑ i ∈ Finset.range t.next, ((t.row i).map (w i)).getD 0

/-- Keys past the counter hold no row, so the range may be widened. -/
theorem sum_range {w : Nat → ρ → Int} {n : Nat} (h : t.next ≤ n) :
    t.sum w = ∑ i ∈ Finset.range n, ((t.row i).map (w i)).getD 0 := by
  refine Finset.sum_subset (by simpa using h) fun i _ hi => ?_
  rw [t.fresh i (by simpa using hi)]
  rfl

@[simp] theorem sum_empty (w : Nat → ρ → Int) : (empty : Table ρ).sum w = 0 := by
  simp [sum]

/-- Two tables that differ at one key differ by what sits there. -/
theorem sum_eq_of_agree {u : Table ρ} {w : Nat → ρ → Int} (i : Nat)
    (h : ∀ j, j ≠ i → t.row j = u.row j) :
    t.sum w + ((u.row i).map (w i)).getD 0 = u.sum w + ((t.row i).map (w i)).getD 0 := by
  set n := max (max t.next u.next) (i + 1) with hn
  have hi : i ∈ Finset.range n := by simp only [Finset.mem_range]; omega
  rw [sum_range (t := t) (n := n) (by omega), sum_range (t := u) (n := n) (by omega),
    ← Finset.add_sum_erase _ (fun j => ((t.row j).map (w j)).getD 0) hi,
    ← Finset.add_sum_erase _ (fun j => ((u.row j).map (w j)).getD 0) hi]
  have hrest : ∑ j ∈ (Finset.range n).erase i, ((t.row j).map (w j)).getD 0
      = ∑ j ∈ (Finset.range n).erase i, ((u.row j).map (w j)).getD 0 :=
    Finset.sum_congr rfl fun j hj => by rw [h j (Finset.ne_of_mem_erase hj)]
  rw [hrest]
  omega

theorem sum_congr_row {u : Table ρ} {w : Nat → ρ → Int} (h : t.row = u.row) :
    t.sum w = u.sum w := by
  have := sum_eq_of_agree (t := t) (u := u) (w := w) 0 (fun j _ => by rw [h])
  rw [h] at this
  omega

theorem sum_put {w : Nat → ρ → Int} (h : t.row i = none) :
    (t.put i r).sum w = t.sum w + w i r := by
  have := sum_eq_of_agree (t := t.put i r) (u := t) (w := w) i (fun j hj => by simp [hj])
  simp only [h, put_row, if_true, Option.map_none, Option.getD_none, Option.map_some,
    Option.getD_some] at this
  omega

theorem sum_insert (w : Nat → ρ → Int) : (t.insert r).sum w = t.sum w + w t.next r := by
  unfold insert
  rw [sum_put (by simp)]
  rw [sum_congr_row (reserve_row t)]

theorem sum_modify {w : Nat → ρ → Int} {f : ρ → ρ} (h : t.row i = some r) :
    (t.modify i f).sum w = t.sum w + w i (f r) - w i r := by
  have := sum_eq_of_agree (t := t.modify i f) (u := t) (w := w) i (fun j hj => by simp [hj])
  simp only [h, modify_row, if_true, Option.map_some, Option.getD_some] at this
  omega

end Table

end Store
