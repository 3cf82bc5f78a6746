/-
The comparison `$v <=> $w` of PHP 7.

Two strings compare as numbers when both are numeric and byte by byte otherwise.  A
number and a string compare as numbers, the string by its leading number, so `8` and
`'08:00:00'` are equal.  A boolean or null makes both sides truth values, except that
null meets a string as the empty string.
-/
import Spoiler.Php.Digits

namespace Php

namespace Num

/-- `x <=> y`. -/
def cmp (x y : Num) : Ordering := compare (x.mant * 10 ^ y.scale) (y.mant * 10 ^ x.scale)

/-- Whole numbers compare as integers. -/
theorem cmp_whole (m n : Int) : cmp ⟨m, 0⟩ ⟨n, 0⟩ = compare m n := by
  simp [cmp]

end Num

/-- Byte order, which for UTF-8 is the order of the characters. -/
def cmpText (cs ds : List Char) : Ordering :=
  if cs < ds then .lt else if cs = ds then .eq else .gt

namespace Value

/-- `$v <=> $w`. -/
def cmp : Value → Value → Ordering
  | str s, str t =>
      match (str s).num?, (str t).num? with
      | some x, some y => x.cmp y
      | _, _ => cmpText s.toList t.toList
  | null, str t => cmpText [] t.toList
  | str s, null => cmpText s.toList []
  | null, w => compare false w.truthy
  | v, null => compare v.truthy false
  | bool b, w => compare b w.truthy
  | v, bool b => compare v.truthy b
  | v, w =>
      match v.lead, w.lead with
      | some x, some y => x.cmp y
      -- an uploaded file is an object, which no number equals
      | _, _ => .gt

/-- `$v < $w`; `$w > $v` is the same. -/
def less (v w : Value) : Bool := v.cmp w == .lt

/-- `$v <= $w`. -/
def lessEq (v w : Value) : Bool := v.cmp w != .gt

/-- Strings of which one is not numeric compare by their characters. -/
theorem less_text {s t : String} (h : (str s).num? = none ∨ (str t).num? = none) :
    (str s).less (str t) = true ↔ s.toList < t.toList := by
  have hcmp : (str s).cmp (str t) = cmpText s.toList t.toList := by
    unfold cmp
    dsimp only
    rcases h with h | h
    · rw [h]
    · rw [h]
      cases (str s).num? <;> rfl
  unfold less
  rw [hcmp]
  unfold cmpText
  by_cases hlt : s.toList < t.toList
  · rw [if_pos hlt]
    exact iff_of_true rfl hlt
  · rw [if_neg hlt]
    refine iff_of_false ?_ hlt
    split <;> decide

/-- A number meets a string as a number, which is the one the string begins with. -/
theorem cmp_number {v : Value} {x y : Num} {s : String} (hv : ∀ t, v ≠ str t)
    (hx : v.num? = some x) (hy : (str s).lead = some y) :
    v.cmp (str s) = x.cmp y ∧ (str s).cmp v = y.cmp x := by
  simp only [lead, Option.some.injEq] at hy
  cases v with
  | null => cases hx
  | bool b => cases hx
  | file ext url => cases hx
  | str t => exact absurd rfl (hv t)
  | int n =>
      cases hx
      simp [cmp, lead, hy]
  | dec z =>
      cases hx
      simp [cmp, lead, hy]

end Value

end Php
