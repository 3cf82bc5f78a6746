/-
A table of routes, read from the top.

A pattern is a list of segments, each a fixed text or a parameter, which stands for any
segment that is not empty.  The first entry of the table that takes the method and whose
pattern matches the address answers.

Two patterns *meet* when some address matches both.  An entry that no earlier one of its
method meets is reached by each of its addresses; one that an earlier entry covers is
reached by none.
-/
import Mathlib.Data.List.Basic
import Mathlib.Tactic.Common

namespace Php

/-! ### Patterns -/

inductive Segment
  | text (s : String)
  | parameter
  deriving DecidableEq, Repr

namespace Segment

def admits : Segment → String → Bool
  | text s, x => x == s
  | parameter, x => x != ""

/-- What a parameter takes from the address. -/
def captures : Segment → String → List String
  | text _, _ => []
  | parameter, x => [x]

/-- Some text is admitted by both. -/
def meets : Segment → Segment → Bool
  | text s, t => t.admits s
  | parameter, text t => t != ""
  | parameter, parameter => true

/-- Every text the second admits is admitted by the first. -/
def covers : Segment → Segment → Bool
  | s, text t => s.admits t
  | s, parameter => s == parameter

theorem meets_of_admits {s t : Segment} {x : String} (hs : s.admits x = true)
    (ht : t.admits x = true) : s.meets t = true := by
  cases s <;> cases t <;> simp_all [admits, meets]

theorem admits_of_covers {s t : Segment} (h : s.covers t = true) {x : String}
    (ht : t.admits x = true) : s.admits x = true := by
  cases t <;> simp_all [admits, covers]

end Segment

abbrev Pattern := List Segment

namespace Pattern

/-- The values of the parameters, when the address matches. -/
def params : Pattern → List String → Option (List String)
  | [], [] => some []
  | s :: p, x :: xs => if s.admits x then (params p xs).map (s.captures x ++ ·) else none
  | _, _ => none

/-- Values for the parameters of a pattern: one for each, and none of them empty. -/
def Fits : Pattern → List String → Prop
  | [], vs => vs = []
  | .text _ :: p, vs => Fits p vs
  | .parameter :: p, vs => ∃ v ws, vs = v :: ws ∧ v ≠ "" ∧ Fits p ws

/-- The address with the values in the places of the parameters. -/
def address : Pattern → List String → List String
  | [], _ => []
  | .text s :: p, vs => s :: address p vs
  | .parameter :: p, vs => vs.headD "" :: address p vs.tail

/-- Some address matches both patterns. -/
def meets : Pattern → Pattern → Bool
  | [], [] => true
  | s :: p, t :: q => s.meets t && meets p q
  | _, _ => false

/-- Every address of the second pattern matches the first. -/
def covers : Pattern → Pattern → Bool
  | [], [] => true
  | s :: p, t :: q => s.covers t && covers p q
  | _, _ => false

theorem params_cons_eq_some {s : Segment} {p : Pattern} {x : String} {xs vs : List String} :
    params (s :: p) (x :: xs) = some vs ↔
      s.admits x = true ∧ ∃ ws, params p xs = some ws ∧ s.captures x ++ ws = vs := by
  simp only [params, Option.ite_none_right_eq_some, Option.map_eq_some_iff]

/-- **An address and the values of its parameters determine each other.** -/
theorem params_eq_some {p : Pattern} {xs vs : List String} :
    p.params xs = some vs ↔ p.Fits vs ∧ p.address vs = xs := by
  induction p generalizing xs vs with
  | nil => cases xs <;> simp [params, Fits, address, eq_comm]
  | cons s p ih =>
      cases xs with
      | nil => cases s <;> simp [params, address]
      | cons x xs =>
          rw [params_cons_eq_some]
          cases s with
          | text s =>
              simp only [Segment.admits, Segment.captures, beq_iff_eq, List.nil_append,
                exists_eq_right, ih, Fits, address, List.cons.injEq]
              tauto
          | parameter =>
              simp only [Segment.admits, Segment.captures, bne_iff_ne, List.singleton_append, ih,
                Fits, address, List.cons.injEq]
              constructor
              · rintro ⟨hx, ws, ⟨hfits, haddress⟩, rfl⟩
                exact ⟨⟨x, ws, rfl, hx, hfits⟩, rfl, haddress⟩
              · rintro ⟨⟨v, ws, rfl, hv, hfits⟩, rfl, haddress⟩
                exact ⟨hv, ws, ⟨hfits, haddress⟩, rfl⟩

/-- Patterns with a common address meet. -/
theorem meets_of_params {p q : Pattern} {xs vs ws : List String} (hp : p.params xs = some vs)
    (hq : q.params xs = some ws) : p.meets q = true := by
  induction p generalizing q xs vs ws with
  | nil => cases q <;> cases xs <;> simp_all [params, meets]
  | cons s p ih =>
      cases xs with
      | nil => simp [params] at hp
      | cons x xs =>
          cases q with
          | nil => simp [params] at hq
          | cons t q =>
              obtain ⟨hs, vs', hvs, -⟩ := params_cons_eq_some.mp hp
              obtain ⟨ht, ws', hws, -⟩ := params_cons_eq_some.mp hq
              rw [meets, Segment.meets_of_admits hs ht, ih hvs hws, Bool.and_self]

/-- A pattern that covers another has all of its addresses. -/
theorem isSome_params_of_covers {p q : Pattern} (h : p.covers q = true) {xs vs : List String}
    (hq : q.params xs = some vs) : (p.params xs).isSome := by
  induction p generalizing q xs vs with
  | nil => cases q <;> cases xs <;> simp_all [params, covers]
  | cons s p ih =>
      cases q with
      | nil => simp [covers] at h
      | cons t q =>
          cases xs with
          | nil => simp [params] at hq
          | cons x xs =>
              obtain ⟨ht, ws, hws, -⟩ := params_cons_eq_some.mp hq
              rw [covers, Bool.and_eq_true] at h
              rw [params, if_pos (Segment.admits_of_covers h.1 ht), Option.isSome_map]
              exact ih h.2 hws

end Pattern

/-! ### Tables -/

/-- A line of the table: for which methods, at which addresses, and what answers. -/
structure Entry (μ α : Type) where
  methods : List μ
  pattern : Pattern
  action : α
  deriving DecidableEq, Repr

variable {μ α : Type} [DecidableEq μ]

namespace Entry

/-- What the entry makes of a request: its action and the parameters. -/
def accept (method : μ) (address : List String) (e : Entry μ α) : Option (α × List String) :=
  if method ∈ e.methods then (e.pattern.params address).map fun vs => (e.action, vs) else none

/-- Some request is for both entries. -/
def clashes (d e : Entry μ α) : Bool :=
  d.methods.any (· ∈ e.methods) && d.pattern.meets e.pattern

/-- Every request for the second entry is one for the first. -/
def shadows (d e : Entry μ α) : Bool :=
  e.methods.all (· ∈ d.methods) && d.pattern.covers e.pattern

theorem accept_eq_some {method : μ} {address : List String} {e : Entry μ α} {a : α}
    {vs : List String} : e.accept method address = some (a, vs) ↔
      method ∈ e.methods ∧ e.pattern.params address = some vs ∧ e.action = a := by
  simp only [accept, Option.ite_none_right_eq_some, Option.map_eq_some_iff, Prod.mk.injEq]
  grind

theorem accept_eq_none_of_not_clashes {d e : Entry μ α} (h : d.clashes e = false) {method : μ}
    {address : List String} {x : α × List String} (he : e.accept method address = some x) :
    d.accept method address = none := by
  by_contra hd
  obtain ⟨y, hy⟩ := Option.ne_none_iff_exists'.mp hd
  obtain ⟨hmethod, hparams, -⟩ := accept_eq_some.mp he
  obtain ⟨hmethod', hparams', -⟩ := accept_eq_some.mp hy
  have hany : d.methods.any (· ∈ e.methods) = true :=
    List.any_eq_true.mpr ⟨method, hmethod', by simpa using hmethod⟩
  rw [clashes, hany, Pattern.meets_of_params hparams' hparams] at h
  cases h

theorem isSome_accept_of_shadows {d e : Entry μ α} (h : d.shadows e = true) {method : μ}
    {address : List String} {x : α × List String} (he : e.accept method address = some x) :
    (d.accept method address).isSome := by
  obtain ⟨hmethod, hparams, -⟩ := accept_eq_some.mp he
  simp only [shadows, Bool.and_eq_true, List.all_eq_true, decide_eq_true_eq] at h
  have hsome := Pattern.isSome_params_of_covers h.2 hparams
  simpa [accept, h.1 method hmethod] using hsome

end Entry

/-- The first entry for the request answers. -/
def resolve (table : List (Entry μ α)) (method : μ) (address : List String) :
    Option (α × List String) :=
  table.findSome? (Entry.accept method address)

section Resolve

variable {table pre post : List (Entry μ α)} {e : Entry μ α} {method : μ}
  {address vs : List String} {a : α}

theorem resolve_mem (h : resolve table method address = some (a, vs)) :
    ∃ e ∈ table, e.accept method address = some (a, vs) :=
  List.exists_of_findSome?_eq_some h

/-- An entry that no earlier one clashes with is reached. -/
theorem resolve_of_not_clashes (htable : table = pre ++ e :: post)
    (hpre : ∀ d ∈ pre, d.clashes e = false) (he : e.accept method address = some (a, vs)) :
    resolve table method address = some (a, vs) := by
  subst htable
  have hnone : pre.findSome? (Entry.accept method address) = none :=
    List.findSome?_eq_none_iff.mpr fun d hd =>
      Entry.accept_eq_none_of_not_clashes (hpre d hd) he
  rw [resolve, List.findSome?_append, hnone, Option.none_or, List.findSome?_cons, he]

/-- An entry that an earlier one shadows is not: another action answers. -/
theorem resolve_ne_of_shadows (htable : table = pre ++ e :: post)
    (hnodup : (table.map Entry.action).Nodup) {d : Entry μ α} (hd : d ∈ pre)
    (hshadows : d.shadows e = true) :
    resolve table method address ≠ some (e.action, vs) := by
  subst htable
  intro h
  rw [List.map_append, List.map_cons, List.nodup_append] at hnodup
  obtain ⟨c, hc, haccept⟩ := resolve_mem h
  obtain ⟨-, hparams, haction⟩ := Entry.accept_eq_some.mp haccept
  -- the action answers in its own line only
  have hce : c = e := by
    rcases List.mem_append.mp hc with hc | hc
    · exact absurd haction (hnodup.2.2 _ (List.mem_map_of_mem hc) _ (List.mem_cons_self ..))
    · rcases List.mem_cons.mp hc with rfl | hc
      · rfl
      · rw [List.nodup_cons] at hnodup
        exact absurd (haction ▸ List.mem_map_of_mem hc) hnodup.2.1.1
  subst hce
  -- and the earlier entries already answer
  have hsome : (pre.findSome? (Entry.accept method address)).isSome := by
    rw [List.findSome?_isSome_iff]
    exact ⟨d, hd, Entry.isSome_accept_of_shadows hshadows haccept⟩
  obtain ⟨x, hx⟩ := Option.isSome_iff_exists.mp hsome
  rw [resolve, List.findSome?_append, hx, Option.some_or, Option.some.injEq] at h
  obtain ⟨b, hb, hbaccept⟩ := List.exists_of_findSome?_eq_some hx
  rw [h] at hbaccept
  obtain ⟨-, -, hbaction⟩ := Entry.accept_eq_some.mp hbaccept
  exact hnodup.2.2 _ (List.mem_map_of_mem hb) _ (List.mem_cons_self ..) hbaction

end Resolve

end Php
