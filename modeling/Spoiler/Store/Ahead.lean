/-
A table and one that is ahead of it.

Requests in flight have made some of their writes and owe the others.  The table `t` is
what they have written so far and `u` is what it will be once every debt is paid.  A
debt is a key with a datum, and `R` says how the rows of the two tables at that key are
related while it is open.  At most one request owes a write at a key, and at every other
key the tables agree.

A write at a key that nobody else owes may open a debt, pay one or do neither; a write
that both tables take has to respect `R`.
-/
import Spoiler.Store.Table

namespace Store

variable {ρ δ ι : Type}

structure Ahead (R : δ → Option ρ → Option ρ → Prop) (owed : ι → Option (Nat × δ))
    (t u : Table ρ) : Prop where
  next : u.next = t.next
  free : ∀ k, u.row k = t.row k ∨ ∃ a d, owed a = some (k, d)
  due : ∀ a k d, owed a = some (k, d) → R d (t.row k) (u.row k)
  once : ∀ a b k d e, owed a = some (k, d) → owed b = some (k, e) → a = b

namespace Ahead

variable {R : δ → Option ρ → Option ρ → Prop} {owed owed' : ι → Option (Nat × δ)}
  {t u t' u' : Table ρ}

/-- Nobody owes anything yet. -/
theorem refl (hnone : ∀ a, owed a = none) (t : Table ρ) : Ahead R owed t t where
  next := rfl
  free _ := .inl rfl
  due a k d h := by
    rw [hnone a] at h
    cases h
  once a b k d e h := by
    rw [hnone a] at h
    cases h

/-- Where nobody owes a write the tables agree. -/
theorem row_eq (h : Ahead R owed t u) {k : Nat} (hfree : ∀ a d, owed a ≠ some (k, d)) :
    u.row k = t.row k := by
  rcases h.free k with heq | ⟨a, d, howed⟩
  · exact heq
  · exact absurd howed (hfree a d)

/-- When every debt is paid the tables are the same. -/
theorem eq_of_paid (h : Ahead R owed t u) (hnone : ∀ a, owed a = none) : u = t := by
  refine Table.ext h.next (funext fun k => h.row_eq fun a d => ?_)
  rw [hnone a]
  exact fun h => nomatch h

/-- **One request writes at a key that no other owes**, and then owes this key or nothing. -/
theorem write (h : Ahead R owed t u) {a : ι} {k : Nat} (hnext : u'.next = t'.next)
    (ht : ∀ j, j ≠ k → t'.row j = t.row j) (hu : ∀ j, j ≠ k → u'.row j = u.row j)
    (hothers : ∀ b, b ≠ a → owed' b = owed b) (hfree : ∀ b, b ≠ a → ∀ d, owed b ≠ some (k, d))
    (hold : ∀ j d, owed a = some (j, d) → j = k)
    (hnew : (owed' a = none ∧ u'.row k = t'.row k) ∨
      ∃ d, owed' a = some (k, d) ∧ R d (t'.row k) (u'.row k)) : Ahead R owed' t' u' := by
  -- whoever owes a key now is `a` with `k`, or owed it before
  have hcases : ∀ b j d, owed' b = some (j, d) →
      (b = a ∧ j = k ∧ R d (t'.row k) (u'.row k)) ∨ (b ≠ a ∧ j ≠ k ∧ owed b = some (j, d)) := by
    intro b j d hb
    by_cases hba : b = a
    · subst hba
      rcases hnew with ⟨hnone, -⟩ | ⟨e, howed, hR⟩
      · rw [hnone] at hb
        cases hb
      · rw [howed] at hb
        cases hb
        exact .inl ⟨rfl, rfl, hR⟩
    · rw [hothers b hba] at hb
      refine .inr ⟨hba, ?_, hb⟩
      rintro rfl
      exact hfree b hba d hb
  refine ⟨hnext, fun j => ?_, fun b j d hb => ?_, fun b c j d e hb hc => ?_⟩
  · by_cases hj : j = k
    · subst hj
      rcases hnew with ⟨-, heq⟩ | ⟨d, howed, -⟩
      · exact .inl heq
      · exact .inr ⟨a, d, howed⟩
    · rw [ht j hj, hu j hj]
      rcases h.free j with heq | ⟨b, d, hb⟩
      · exact .inl heq
      · have hba : b ≠ a := by
          rintro rfl
          exact hj (hold j d hb)
        exact .inr ⟨b, d, by rw [hothers b hba]; exact hb⟩
  · rcases hcases b j d hb with ⟨-, rfl, hR⟩ | ⟨-, hj, hb'⟩
    · exact hR
    · rw [ht j hj, hu j hj]
      exact h.due b j d hb'
  · rcases hcases b j d hb with ⟨hba, hj, -⟩ | ⟨-, hj, hb'⟩
    · rcases hcases c j e hc with ⟨hca, -, -⟩ | ⟨-, hj', -⟩
      · rw [hba, hca]
      · exact absurd hj hj'
    · rcases hcases c j e hc with ⟨-, hj', -⟩ | ⟨-, -, hc'⟩
      · exact absurd hj' hj
      · exact h.once b c j d e hb' hc'

/-- **A write that both tables take.** -/
theorem both (h : Ahead R owed t u) {k : Nat} (hnext : u'.next = t'.next)
    (ht : ∀ j, j ≠ k → t'.row j = t.row j) (hu : ∀ j, j ≠ k → u'.row j = u.row j)
    (hsame : u.row k = t.row k → u'.row k = t'.row k)
    (hdue : ∀ d, (∃ a, owed a = some (k, d)) → R d (t.row k) (u.row k) →
      R d (t'.row k) (u'.row k)) : Ahead R owed t' u' := by
  refine ⟨hnext, fun j => ?_, fun a j d ha => ?_, h.once⟩
  · by_cases hj : j = k
    · subst hj
      exact (h.free j).imp_left hsame
    · rw [ht j hj, hu j hj]
      exact h.free j
  · by_cases hj : j = k
    · subst hj
      exact hdue d ⟨a, ha⟩ (h.due a j d ha)
    · rw [ht j hj, hu j hj]
      exact h.due a j d ha

end Ahead

end Store
