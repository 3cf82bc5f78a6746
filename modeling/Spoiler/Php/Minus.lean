/-
Subtraction with fractions.

PHP subtracts two integers as such.  With a fraction on one side both are doubles: the number
is read as the nearest double, the difference is rounded to one, and what goes to the database
is its text, with as many digits as the setting `precision` asks for.  So what arrives is not
always the difference.  `Minus` says what can be relied on: whole numbers are subtracted
exactly, taking away no more than there is leaves nothing below zero, and no rounding carries a
difference of the size of a column across a whole number or a half, since these are doubles
with few digits.

`Minus.double` is the subtraction of IEEE 754 binary64, to the nearest double and to the even
one of two, without a bound on the exponent.
-/
import Mathlib.Data.Int.Log
import Mathlib.Data.Rat.Floor
import Mathlib.Tactic.FieldSimp
import Mathlib.Tactic.Linarith
import Mathlib.Tactic.NormNum
import Spoiler.Php.Compare

namespace Php

namespace Num

/-! ### Values -/

/-- The number as a fraction. -/
def val (x : Num) : ℚ := x.mant / 10 ^ x.scale

theorem le_iff {x : Num} {n : Int} : x.le n = true ↔ x.val ≤ n := by
  have hd : (0 : ℚ) < 10 ^ x.scale := by positivity
  unfold val le
  rw [decide_eq_true_eq, div_le_iff₀ hd]
  exact_mod_cast Iff.rfl

theorem mant_nonneg_iff {x : Num} : 0 ≤ x.mant ↔ 0 ≤ x.val := by
  have hd : (0 : ℚ) < 10 ^ x.scale := by positivity
  unfold val
  rw [le_div_iff₀ hd, zero_mul]
  exact_mod_cast Iff.rfl

@[simp] theorem val_subFrom (n : Int) (x : Num) : (subFrom n x).val = n - x.val := by
  have hd : (10 : ℚ) ^ x.scale ≠ 0 := by positivity
  unfold val subFrom
  push_cast
  rw [sub_div, mul_div_cancel_right₀ _ hd]

theorem cmp_eq_compare (x y : Num) : x.cmp y = compare x.val y.val := by
  have hx : (0 : ℚ) < 10 ^ x.scale := by positivity
  have hy : (0 : ℚ) < 10 ^ y.scale := by positivity
  have hlt : ∀ a b : Num, a.mant * 10 ^ b.scale < b.mant * 10 ^ a.scale ↔ a.val < b.val := by
    intro a b
    have ha : (0 : ℚ) < 10 ^ a.scale := by positivity
    have hb : (0 : ℚ) < 10 ^ b.scale := by positivity
    unfold val
    rw [div_lt_div_iff₀ ha hb]
    exact_mod_cast Iff.rfl
  unfold cmp
  rcases lt_trichotomy (x.mant * 10 ^ y.scale) (y.mant * 10 ^ x.scale) with h | h | h
  · rw [compare_lt_iff_lt.mpr h, compare_lt_iff_lt.mpr ((hlt x y).mp h)]
  · have hval : x.val = y.val := by
      refine le_antisymm (not_lt.mp fun hyx => ?_) (not_lt.mp fun hxy => ?_)
      · exact absurd ((hlt y x).mpr hyx) (by omega)
      · exact absurd ((hlt x y).mpr hxy) (by omega)
    rw [compare_eq_iff_eq.mpr h, compare_eq_iff_eq.mpr hval]
  · rw [compare_gt_iff_gt.mpr h, compare_gt_iff_gt.mpr ((hlt y x).mp h)]

/-! ### Rounding to an integer -/

theorem round_eq_of_nonneg {x : Num} {k : Int} (h : 0 ≤ x.val) (hlo : (k : ℚ) - 1 / 2 ≤ x.val)
    (hhi : x.val < k + 1 / 2) : x.round = k := by
  have hd : (0 : ℚ) < 10 ^ x.scale := by positivity
  have hp := pow_pos x.scale
  have hlo' : k * (2 * 10 ^ x.scale) ≤ 2 * x.mant + 10 ^ x.scale := by
    unfold val at hlo
    rw [le_div_iff₀ hd] at hlo
    have : (k : ℚ) * (2 * 10 ^ x.scale) ≤ 2 * x.mant + 10 ^ x.scale := by linarith
    exact_mod_cast this
  have hhi' : 2 * x.mant + 10 ^ x.scale < (k + 1) * (2 * 10 ^ x.scale) := by
    unfold val at hhi
    rw [div_lt_iff₀ hd] at hhi
    have : 2 * (x.mant : ℚ) + 10 ^ x.scale < (k + 1) * (2 * 10 ^ x.scale) := by linarith
    exact_mod_cast this
  rw [round_of_nonneg (mant_nonneg_iff.mpr h)]
  have hge := (Int.le_ediv_iff_mul_le (show (0 : Int) < 2 * 10 ^ x.scale by omega)).mpr hlo'
  have hlt := (Int.ediv_lt_iff_lt_mul (show (0 : Int) < 2 * 10 ^ x.scale by omega)).mpr hhi'
  omega

theorem round_eq_of_neg {x : Num} {k : Int} (h : x.val < 0) (hlo : (k : ℚ) - 1 / 2 < x.val)
    (hhi : x.val ≤ k + 1 / 2) : x.round = k := by
  have hd : (0 : ℚ) < 10 ^ x.scale := by positivity
  have hp := pow_pos x.scale
  have hlo' : 2 * -x.mant + 10 ^ x.scale < (-k + 1) * (2 * 10 ^ x.scale) := by
    unfold val at hlo
    rw [lt_div_iff₀ hd] at hlo
    have : 2 * -(x.mant : ℚ) + 10 ^ x.scale < (-k + 1) * (2 * 10 ^ x.scale) := by linarith
    exact_mod_cast this
  have hhi' : -k * (2 * 10 ^ x.scale) ≤ 2 * -x.mant + 10 ^ x.scale := by
    unfold val at hhi
    rw [div_le_iff₀ hd] at hhi
    have : -(k : ℚ) * (2 * 10 ^ x.scale) ≤ 2 * -x.mant + 10 ^ x.scale := by linarith
    exact_mod_cast this
  have hneg : ¬ 0 ≤ x.mant := fun hm => absurd (mant_nonneg_iff.mp hm) (not_le.mpr h)
  rw [round_of_neg hneg]
  have hge := (Int.le_ediv_iff_mul_le (show (0 : Int) < 2 * 10 ^ x.scale by omega)).mpr hhi'
  have hlt := (Int.ediv_lt_iff_lt_mul (show (0 : Int) < 2 * 10 ^ x.scale by omega)).mpr hlo'
  omega

theorem isHalf_iff {x : Num} : x.isHalf = true ↔ ∃ k : Int, x.val = k + 1 / 2 := by
  have hd : (0 : ℚ) < 10 ^ x.scale := by positivity
  have hp := pow_pos x.scale
  have hval : ∀ k : Int, x.val = k + 1 / 2 ↔ 2 * x.mant = 10 ^ x.scale + 2 * 10 ^ x.scale * k := by
    intro k
    unfold val
    rw [div_eq_iff hd.ne']
    constructor
    · intro h
      have : 2 * (x.mant : ℚ) = 10 ^ x.scale + 2 * 10 ^ x.scale * k := by linarith
      exact_mod_cast this
    · intro h
      have : 2 * (x.mant : ℚ) = 10 ^ x.scale + 2 * 10 ^ x.scale * k := by exact_mod_cast h
      linarith
  unfold isHalf
  rw [decide_eq_true_eq]
  constructor
  · intro h
    refine ⟨2 * x.mant / (2 * 10 ^ x.scale), (hval _).mpr ?_⟩
    have hdiv := Int.emod_add_mul_ediv (2 * x.mant) (2 * 10 ^ x.scale)
    rw [h] at hdiv
    exact hdiv.symm
  · rintro ⟨k, hk⟩
    rw [(hval k).mp hk, Int.add_mul_emod_self_left]
    exact Int.emod_eq_of_lt (by omega) (by omega)

/-- Below a half, at a half and above it. -/
theorem round_below {x : Num} {a : Int} (hlo : (a : ℚ) ≤ x.val) (hhi : x.val < a + 1 / 2) :
    x.round = a := by
  by_cases hneg : x.val < 0
  · exact round_eq_of_neg hneg (by linarith) (by linarith)
  · exact round_eq_of_nonneg (not_lt.mp hneg) (by linarith) (by linarith)

theorem round_half {x : Num} {a : Int} (h : x.val = a + 1 / 2) :
    x.round = if 0 ≤ x.val then a + 1 else a := by
  split
  · rename_i hpos
    exact round_eq_of_nonneg hpos (by push_cast; linarith) (by push_cast; linarith)
  · rename_i hneg
    exact round_eq_of_neg (not_le.mp hneg) (by linarith) (by linarith)

theorem round_above {x : Num} {a : Int} (hlo : a + 1 / 2 < x.val) (hhi : x.val ≤ a + 1) :
    x.round = a + 1 := by
  by_cases hneg : x.val < 0
  · exact round_eq_of_neg hneg (by push_cast; linarith) (by push_cast; linarith)
  · exact round_eq_of_nonneg (not_lt.mp hneg) (by push_cast; linarith) (by push_cast; linarith)

theorem abs_val_sub_round (x : Num) : |x.val - x.round| ≤ 1 / 2 := by
  have hfloor := Int.floor_le x.val
  have hceil := Int.lt_floor_add_one x.val
  rcases lt_trichotomy x.val (⌊x.val⌋ + 1 / 2) with hlt | heq | hgt
  · rw [round_below hfloor hlt]
    exact abs_le.mpr ⟨by linarith, by linarith⟩
  · rw [round_half heq]
    split
    · push_cast
      exact abs_le.mpr ⟨by linarith, by linarith⟩
    · exact abs_le.mpr ⟨by linarith, by linarith⟩
  · rw [round_above hgt hceil.le]
    push_cast
    exact abs_le.mpr ⟨by linarith, by linarith⟩

/-- There is one half between a whole number and the next. -/
theorem val_of_isHalf {x : Num} {a : Int} (h : x.isHalf = true) (hlo : (a : ℚ) ≤ x.val)
    (hhi : x.val ≤ a + 1) : x.val = a + 1 / 2 := by
  obtain ⟨k, hk⟩ := isHalf_iff.mp h
  have hklo : (a : ℚ) < k + 1 := by linarith
  have hkhi : (k : ℚ) < a + 1 := by linarith
  have hklo' : a < k + 1 := by exact_mod_cast hklo
  have hkhi' : k < a + 1 := by exact_mod_cast hkhi
  have heq : k = a := by omega
  rw [hk, heq]

end Num

/-! ### Subtraction -/

/-- What PHP makes of `$n - $x` and hands to the database. -/
structure Minus where
  sub : Int → Num → Num
  whole : ∀ n x, x.isInt = true → sub n x = Num.subFrom n x
  nonneg : ∀ (n : Int) x, x.val ≤ (n : ℚ) → 0 ≤ (sub n x).val
  /-- No rounding carries a difference across a half. -/
  ge_half : ∀ (n k : Int) x, |n| ≤ 2 ^ 32 → |k| ≤ 2 ^ 34 → x.val ≤ (k : ℚ) / 2 →
    n - (k : ℚ) / 2 ≤ (sub n x).val
  le_half : ∀ (n k : Int) x, |n| ≤ 2 ^ 32 → |k| ≤ 2 ^ 34 → (k : ℚ) / 2 ≤ x.val →
    (sub n x).val ≤ n - (k : ℚ) / 2

/-- The difference `d` of `n` and `x` is half a portion, and `n - d` is below `x`, or is `x`
and positive: then `x` and `d` are both rounded up. -/
def tips (n : Int) (x d : Num) : Bool :=
  d.isHalf && match (Num.subFrom n d).cmp x with
    | .lt => true
    | .eq => decide (0 ≤ x.mant)
    | .gt => false

theorem tips_iff {n : Int} {x d : Num} :
    tips n x d = true ↔ d.isHalf = true ∧ (n - d.val < x.val ∨ n - d.val = x.val ∧ 0 ≤ x.val) := by
  unfold tips
  rw [Num.cmp_eq_compare, Num.val_subFrom, Bool.and_eq_true]
  refine and_congr_right fun _ => ?_
  rcases lt_trichotomy ((n : ℚ) - d.val) x.val with h | h | h
  · rw [compare_lt_iff_lt.mpr h]
    exact iff_of_true rfl (.inl h)
  · rw [compare_eq_iff_eq.mpr h, decide_eq_true_eq, Num.mant_nonneg_iff]
    constructor
    · exact fun hx => .inr ⟨h, hx⟩
    · rintro (hlt | ⟨-, hx⟩)
      · exact absurd h hlt.ne
      · exact hx
  · rw [compare_gt_iff_gt.mpr h]
    refine iff_of_false (by simp) ?_
    rintro (hlt | ⟨heq, -⟩)
    · exact absurd hlt h.not_gt
    · exact absurd heq h.ne'

/-- Where the difference is exact it is half a portion when `x` is. -/
theorem tips_of_exact {n : Int} {x d : Num} (h : d.val = n - x.val) :
    tips n x d = true ↔ 0 ≤ x.mant ∧ x.isHalf = true := by
  have hhalf : d.isHalf = true ↔ x.isHalf = true := by
    rw [Num.isHalf_iff, Num.isHalf_iff, h]
    constructor
    · rintro ⟨k, hk⟩
      exact ⟨n - k - 1, by push_cast; linarith⟩
    · rintro ⟨k, hk⟩
      exact ⟨n - k - 1, by push_cast; linarith⟩
  rw [tips_iff, hhalf, h, Num.mant_nonneg_iff, sub_sub_cancel]
  simp [and_comm]

section Rounding

variable {n : Int} {x d : Num}

/-- The difference lies between the halves next to it. -/
theorem Minus.between (M : Minus) (hn : |n| ≤ 2 ^ 32) (hx : |x.val| ≤ 2 ^ 32) {k : Int}
    (hlo : (k : ℚ) ≤ 2 * x.val) (hhi : 2 * x.val ≤ k + 1) :
    n - (k + 1 : ℚ) / 2 ≤ (M.sub n x).val ∧ (M.sub n x).val ≤ n - (k : ℚ) / 2 := by
  obtain ⟨hxlo, hxhi⟩ := abs_le.mp hx
  have hkhi : (k : ℚ) ≤ 2 ^ 33 := by linarith
  have hklo : -(2 : ℚ) ^ 33 - 1 ≤ k := by linarith
  have hkhi' : k ≤ 2 ^ 33 := by exact_mod_cast hkhi
  have hklo' : -(2 : Int) ^ 33 - 1 ≤ k := by exact_mod_cast hklo
  have hk : |k| ≤ 2 ^ 34 := abs_le.mpr ⟨by omega, by omega⟩
  have hk' : |k + 1| ≤ 2 ^ 34 := abs_le.mpr ⟨by omega, by omega⟩
  refine ⟨?_, M.le_half n k x hn hk (by linarith)⟩
  have hge := M.ge_half n (k + 1) x hn hk' (by push_cast; linarith)
  push_cast at hge
  exact hge

/-- **What is taken away and what is left, each rounded, add up to the whole unless the
difference tips.** -/
theorem Minus.round_add_round_iff (M : Minus) (hn : |n| ≤ 2 ^ 32) (hx : |x.val| ≤ 2 ^ 32)
    (hle : x.le n = true) :
    x.round + (M.sub n x).round = n ↔ tips n x (M.sub n x) = false := by
  have hd : 0 ≤ (M.sub n x).val := M.nonneg n x (Num.le_iff.mp hle)
  rw [← Bool.not_eq_true, tips_iff]
  generalize ha : ⌊x.val⌋ = a
  have hfloor : (a : ℚ) ≤ x.val := ha ▸ Int.floor_le x.val
  have hceil : x.val < a + 1 := ha ▸ Int.lt_floor_add_one x.val
  -- the rest lies between `b` and `b + 1`, on the other side of the half or at it
  obtain ⟨b, hb⟩ : ∃ b, b = n - a - 1 := ⟨_, rfl⟩
  have hbq : (b : ℚ) = n - a - 1 := by rw [hb]; push_cast; ring
  rcases lt_trichotomy x.val (a + 1 / 2) with hlt | heq | hgt
  · obtain ⟨hlo, hhi⟩ := M.between hn hx (k := 2 * a) (by push_cast; linarith)
      (by push_cast; linarith)
    push_cast at hlo hhi
    have hround : (M.sub n x).round = b + 1 := by
      rcases eq_or_lt_of_le (show b + 1 / 2 ≤ (M.sub n x).val by linarith) with h | h
      · rw [Num.round_half h.symm, if_pos hd]
      · exact Num.round_above h (by linarith)
    rw [Num.round_below hfloor hlt, hround]
    refine iff_of_true (by omega) ?_
    rintro ⟨hhalf, htips⟩
    have hval := Num.val_of_isHalf (a := b) hhalf (by linarith) (by linarith)
    rcases htips with h | ⟨h, -⟩ <;> linarith
  · obtain ⟨hlo, -⟩ := M.between hn hx (k := 2 * a) (by push_cast; linarith)
      (by push_cast; linarith)
    obtain ⟨-, hhi⟩ := M.between hn hx (k := 2 * a + 1) (by push_cast; linarith)
      (by push_cast; linarith)
    push_cast at hlo hhi
    have hval : (M.sub n x).val = b + 1 / 2 := by linarith
    have hhalf : (M.sub n x).isHalf = true := Num.isHalf_iff.mpr ⟨b, hval⟩
    rw [Num.round_half heq, Num.round_half hval, if_pos hd]
    by_cases hpos : 0 ≤ x.val
    · rw [if_pos hpos]
      exact iff_of_false (by omega) (not_not.mpr ⟨hhalf, .inr ⟨by linarith, hpos⟩⟩)
    · rw [if_neg hpos]
      refine iff_of_true (by omega) ?_
      rintro ⟨-, h | ⟨-, h⟩⟩
      · linarith
      · exact hpos h
  · obtain ⟨hlo, hhi⟩ := M.between hn hx (k := 2 * a + 1) (by push_cast; linarith)
      (by push_cast; linarith)
    push_cast at hlo hhi
    rw [Num.round_above hgt hceil.le]
    rcases eq_or_lt_of_le (show (M.sub n x).val ≤ b + 1 / 2 by linarith) with hval | hlt
    · have hhalf : (M.sub n x).isHalf = true := Num.isHalf_iff.mpr ⟨b, hval⟩
      rw [Num.round_half hval, if_pos hd]
      exact iff_of_false (by omega) (not_not.mpr ⟨hhalf, .inl (by linarith)⟩)
    · rw [Num.round_below (show (b : ℚ) ≤ (M.sub n x).val by linarith) hlt]
      refine iff_of_true (by omega) ?_
      rintro ⟨hhalf, -⟩
      exact hlt.ne (Num.val_of_isHalf hhalf (by linarith) (by linarith))

end Rounding

/-! ### Doubles -/

/-- The nearest integer, and the even one of two. -/
def nearest (q : ℚ) : Int :=
  if q < ⌊q⌋ + 1 / 2 then ⌊q⌋
  else if ⌊q⌋ + 1 / 2 < q then ⌊q⌋ + 1
  else if ⌊q⌋ % 2 = 0 then ⌊q⌋ else ⌊q⌋ + 1

/-- The exponent that leaves 53 bits before the point. -/
def binade (q : ℚ) : Int := Int.log 2 |q| - 52

/-- The number `m * 2 ^ e`. -/
def dyadic (m e : Int) : Num :=
  if 0 ≤ e then ⟨m * 2 ^ e.toNat, 0⟩ else ⟨m * 5 ^ (-e).toNat, (-e).toNat⟩

/-- The nearest double. -/
def toDouble (q : ℚ) : Num := dyadic (nearest (q / 2 ^ binade q)) (binade q)

@[simp] theorem nearest_intCast (k : Int) : nearest k = k := by
  simp [nearest]

theorem nearest_mono {p q : ℚ} (h : p ≤ q) : nearest p ≤ nearest q := by
  have hfloor : ⌊p⌋ ≤ ⌊q⌋ := Int.floor_mono h
  have hp : nearest p ≤ ⌊p⌋ + 1 := by
    unfold nearest
    split_ifs <;> omega
  have hq : ⌊q⌋ ≤ nearest q := by
    unfold nearest
    split_ifs <;> omega
  rcases hfloor.lt_or_eq with hlt | heq
  · omega
  · unfold nearest
    rw [heq]
    split_ifs <;> first | omega | (exfalso; linarith)

theorem nearest_le {q : ℚ} {k : Int} (h : q ≤ k) : nearest q ≤ k := by
  rw [← nearest_intCast k]
  exact nearest_mono h

theorem le_nearest {q : ℚ} {k : Int} (h : (k : ℚ) ≤ q) : k ≤ nearest q := by
  rw [← nearest_intCast k]
  exact nearest_mono h

theorem val_dyadic (m e : Int) : (dyadic m e).val = m * 2 ^ e := by
  unfold dyadic Num.val
  split
  · rename_i he
    obtain ⟨k, rfl⟩ := Int.eq_ofNat_of_zero_le he
    simp
  · rename_i he
    obtain ⟨k, hk⟩ : ∃ k : Nat, e = -k := ⟨(-e).toNat, by omega⟩
    subst hk
    have h10 : (10 : ℚ) ^ k = 2 ^ k * 5 ^ k := by
      rw [← mul_pow]
      norm_num
    simp only [neg_neg, Int.toNat_natCast, zpow_neg, zpow_natCast]
    push_cast
    rw [h10]
    field_simp

theorem val_toDouble (q : ℚ) :
    (toDouble q).val = nearest (q / 2 ^ binade q) * 2 ^ binade q := val_dyadic _ _

theorem two_zpow_pos (e : Int) : (0 : ℚ) < 2 ^ e := zpow_pos two_pos e

theorem two_zpow_binade (q : ℚ) : (2 : ℚ) ^ 52 * 2 ^ binade q = 2 ^ Int.log 2 |q| := by
  have h := zpow_add₀ (show (2 : ℚ) ≠ 0 by norm_num) 52 (binade q)
  rw [show (52 : Int) + binade q = Int.log 2 |q| by unfold binade; omega] at h
  exact h.symm

/-- A double is of the size of the number. -/
theorem toDouble_bounds {q : ℚ} (hq : q ≠ 0) :
    (2 : ℚ) ^ 52 * 2 ^ binade q ≤ |q| ∧ |q| < 2 ^ 53 * 2 ^ binade q := by
  have hpos : 0 < |q| := abs_pos.mpr hq
  have hlo := Int.zpow_log_le_self (b := 2) (by norm_num) hpos
  have hhi := Int.lt_zpow_succ_log_self (b := 2) (by norm_num) |q|
  have hbinade := two_zpow_binade q
  push_cast at hlo hhi
  rw [zpow_add_one₀ (by norm_num)] at hhi
  constructor
  · rw [hbinade]
    exact hlo
  · linarith

theorem toDouble_nonneg {q : ℚ} (h : 0 ≤ q) : 0 ≤ (toDouble q).val := by
  have he := two_zpow_pos (binade q)
  have hnear : (0 : Int) ≤ nearest (q / 2 ^ binade q) := by
    refine le_nearest ?_
    rw [Int.cast_zero]
    exact div_nonneg h he.le
  rw [val_toDouble]
  have hcast : (0 : ℚ) ≤ nearest (q / 2 ^ binade q) := by exact_mod_cast hnear
  exact mul_nonneg hcast he.le

theorem toDouble_nonpos {q : ℚ} (h : q ≤ 0) : (toDouble q).val ≤ 0 := by
  have he := two_zpow_pos (binade q)
  have hnear : nearest (q / 2 ^ binade q) ≤ 0 := by
    refine nearest_le ?_
    rw [Int.cast_zero]
    exact div_nonpos_of_nonpos_of_nonneg h he.le
  rw [val_toDouble]
  have hcast : (nearest (q / 2 ^ binade q) : ℚ) ≤ 0 := by exact_mod_cast hnear
  exact mul_nonpos_of_nonpos_of_nonneg hcast he.le

/-- A positive number is rounded within the powers of two around it. -/
theorem toDouble_of_pos {q : ℚ} (h : 0 < q) :
    (2 : ℚ) ^ Int.log 2 |q| ≤ (toDouble q).val ∧
      (toDouble q).val ≤ 2 ^ (Int.log 2 |q| + 1) := by
  have he := two_zpow_pos (binade q)
  obtain ⟨hlo, hhi⟩ := toDouble_bounds h.ne'
  rw [abs_of_pos h] at hlo hhi
  have hge : (2 ^ 52 : Int) ≤ nearest (q / 2 ^ binade q) := by
    refine le_nearest ?_
    push_cast
    rw [le_div_iff₀ he]
    exact hlo
  have hle : nearest (q / 2 ^ binade q) ≤ (2 ^ 53 : Int) := by
    refine nearest_le ?_
    push_cast
    rw [div_le_iff₀ he]
    exact hhi.le
  have hge' : (2 : ℚ) ^ 52 ≤ nearest (q / 2 ^ binade q) := by exact_mod_cast hge
  have hle' : (nearest (q / 2 ^ binade q) : ℚ) ≤ 2 ^ 53 := by exact_mod_cast hle
  have hbinade := two_zpow_binade q
  rw [val_toDouble, zpow_add_one₀ (by norm_num), ← hbinade]
  constructor
  · exact mul_le_mul_of_nonneg_right hge' he.le
  · calc (nearest (q / 2 ^ binade q) : ℚ) * 2 ^ binade q
        ≤ 2 ^ 53 * 2 ^ binade q := mul_le_mul_of_nonneg_right hle' he.le
      _ = 2 ^ 52 * 2 ^ binade q * 2 := by ring

theorem toDouble_of_neg {q : ℚ} (h : q < 0) :
    -(2 : ℚ) ^ (Int.log 2 |q| + 1) ≤ (toDouble q).val ∧
      (toDouble q).val ≤ -2 ^ Int.log 2 |q| := by
  have he := two_zpow_pos (binade q)
  obtain ⟨hlo, hhi⟩ := toDouble_bounds h.ne
  rw [abs_of_neg h] at hlo hhi
  have hge : (-2 ^ 53 : Int) ≤ nearest (q / 2 ^ binade q) := by
    refine le_nearest ?_
    push_cast
    rw [le_div_iff₀ he]
    linarith
  have hle : nearest (q / 2 ^ binade q) ≤ (-2 ^ 52 : Int) := by
    refine nearest_le ?_
    push_cast
    rw [div_le_iff₀ he]
    linarith
  have hge' : -(2 : ℚ) ^ 53 ≤ nearest (q / 2 ^ binade q) := by exact_mod_cast hge
  have hle' : (nearest (q / 2 ^ binade q) : ℚ) ≤ -2 ^ 52 := by exact_mod_cast hle
  have hbinade := two_zpow_binade q
  rw [val_toDouble, zpow_add_one₀ (by norm_num), ← hbinade]
  constructor
  · calc -((2 : ℚ) ^ 52 * 2 ^ binade q * 2) = -(2 : ℚ) ^ 53 * 2 ^ binade q := by ring
      _ ≤ (nearest (q / 2 ^ binade q) : ℚ) * 2 ^ binade q :=
        mul_le_mul_of_nonneg_right hge' he.le
  · calc (nearest (q / 2 ^ binade q) : ℚ) * 2 ^ binade q
        ≤ -2 ^ 52 * 2 ^ binade q := mul_le_mul_of_nonneg_right hle' he.le
      _ = -(2 ^ 52 * 2 ^ binade q) := by ring

theorem toDouble_mono {p q : ℚ} (h : p ≤ q) : (toDouble p).val ≤ (toDouble q).val := by
  by_cases hsame : Int.log 2 |p| = Int.log 2 |q|
  · have hbinade : binade p = binade q := by
      unfold binade
      rw [hsame]
    have he := two_zpow_pos (binade q)
    have hnear : nearest (p / 2 ^ binade q) ≤ nearest (q / 2 ^ binade q) :=
      nearest_mono (div_le_div_of_nonneg_right h he.le)
    have hcast : (nearest (p / 2 ^ binade q) : ℚ) ≤ nearest (q / 2 ^ binade q) := by
      exact_mod_cast hnear
    rw [val_toDouble, val_toDouble, hbinade]
    exact mul_le_mul_of_nonneg_right hcast he.le
  · -- a power of two lies between the two
    by_cases hp : 0 < p
    · have hq : 0 < q := lt_of_lt_of_le hp h
      have hlog : Int.log 2 |p| ≤ Int.log 2 |q| := by
        rw [abs_of_pos hp, abs_of_pos hq]
        exact Int.log_mono_right hp h
      have hpow : (2 : ℚ) ^ (Int.log 2 |p| + 1) ≤ 2 ^ Int.log 2 |q| :=
        zpow_le_zpow_right₀ (by norm_num) (by omega)
      exact ((toDouble_of_pos hp).2.trans hpow).trans (toDouble_of_pos hq).1
    · by_cases hq : q < 0
      · have hp' : p < 0 := lt_of_le_of_lt h hq
        have hlog : Int.log 2 |q| ≤ Int.log 2 |p| := by
          rw [abs_of_neg hp', abs_of_neg hq]
          exact Int.log_mono_right (by linarith) (by linarith)
        have hpow : (2 : ℚ) ^ (Int.log 2 |q| + 1) ≤ 2 ^ Int.log 2 |p| :=
          zpow_le_zpow_right₀ (by norm_num) (by omega)
        exact ((toDouble_of_neg hp').2.trans (neg_le_neg hpow)).trans (toDouble_of_neg hq).1
      · exact (toDouble_nonpos (not_lt.mp hp)).trans (toDouble_nonneg (not_lt.mp hq))

/-- Whole numbers and halves are doubles, up to `2 ^ 51`. -/
theorem toDouble_half {k : Int} (hk : |k| ≤ 2 ^ 52) : (toDouble ((k : ℚ) / 2)).val = k / 2 := by
  by_cases hzero : k = 0
  · subst hzero
    refine le_antisymm ?_ ?_
    · simpa using toDouble_nonpos (q := 0) le_rfl
    · simpa using toDouble_nonneg (q := 0) le_rfl
  · have hq : (k : ℚ) / 2 ≠ 0 := by
      have hk' : (k : ℚ) ≠ 0 := by exact_mod_cast hzero
      positivity
    obtain ⟨hlo, -⟩ := toDouble_bounds hq
    have habs : |(k : ℚ) / 2| ≤ 2 ^ 51 := by
      have hcast : |(k : ℚ)| ≤ 2 ^ 52 := by exact_mod_cast hk
      rw [abs_div, abs_of_pos (show (0 : ℚ) < 2 by norm_num)]
      linarith
    -- the last bit before the point is worth at most a half
    have he : binade ((k : ℚ) / 2) ≤ -1 := by
      by_contra hlarge
      have hpow : (2 : ℚ) ^ (0 : Int) ≤ 2 ^ binade ((k : ℚ) / 2) :=
        zpow_le_zpow_right₀ (by norm_num) (by omega)
      rw [zpow_zero] at hpow
      linarith
    obtain ⟨j, hj⟩ : ∃ j : Nat, binade ((k : ℚ) / 2) = -1 - j :=
      ⟨(-1 - binade ((k : ℚ) / 2)).toNat, by omega⟩
    have hpow : (2 : ℚ) ^ binade ((k : ℚ) / 2) = 1 / (2 * 2 ^ j) := by
      rw [hj, zpow_sub₀ (by norm_num), zpow_natCast, zpow_neg_one]
      field_simp
    have hwhole : (k : ℚ) / 2 / (1 / (2 * 2 ^ j)) = ((k * 2 ^ j : Int) : ℚ) := by
      push_cast
      field_simp
    rw [val_toDouble, hpow, hwhole, nearest_intCast]
    push_cast
    field_simp

theorem toDouble_intCast {n : Int} (hn : |n| ≤ 2 ^ 51) : (toDouble n).val = n := by
  obtain ⟨hlo, hhi⟩ := abs_le.mp hn
  have h := toDouble_half (k := 2 * n) (abs_le.mpr ⟨by omega, by omega⟩)
  push_cast at h
  rwa [mul_div_cancel_left₀ _ (by norm_num)] at h

/-- A half is taken from an integer exactly. -/
theorem toDouble_sub_half {n k : Int} (hn : |n| ≤ 2 ^ 32) (hk : |k| ≤ 2 ^ 34) :
    (toDouble ((toDouble n).val - (toDouble ((k : ℚ) / 2)).val)).val = n - (k : ℚ) / 2 := by
  obtain ⟨hnlo, hnhi⟩ := abs_le.mp hn
  obtain ⟨hklo, hkhi⟩ := abs_le.mp hk
  have hdiff := toDouble_half (k := 2 * n - k) (abs_le.mpr ⟨by omega, by omega⟩)
  push_cast at hdiff
  rw [toDouble_intCast (abs_le.mpr ⟨by omega, by omega⟩),
    toDouble_half (abs_le.mpr ⟨by omega, by omega⟩),
    show (n : ℚ) - k / 2 = (2 * n - k) / 2 by ring, hdiff]

/-- Subtraction in doubles. -/
def Minus.double : Minus where
  sub n x :=
    if x.isInt then Num.subFrom n x else toDouble ((toDouble n).val - (toDouble x.val).val)
  whole n x h := if_pos h
  nonneg n x h := by
    split
    · rw [Num.val_subFrom]
      linarith
    · exact toDouble_nonneg (sub_nonneg.mpr (toDouble_mono h))
  ge_half n k x hn hk h := by
    split
    · rw [Num.val_subFrom]
      linarith
    · rw [← toDouble_sub_half hn hk]
      exact toDouble_mono (sub_le_sub_left (toDouble_mono h) _)
  le_half n k x hn hk h := by
    split
    · rw [Num.val_subFrom]
      linarith
    · rw [← toDouble_sub_half hn hk]
      exact toDouble_mono (sub_le_sub_left (toDouble_mono h) _)

/-- A number just above a half, and what is left is a half. -/
example : (Minus.double.sub 2147483647 ⟨5000001, 7⟩).cmp ⟨21474836465, 1⟩ = .eq := by decide +kernel

example : (Minus.double.sub 5 ⟨5000000000000004, 16⟩).cmp ⟨45, 1⟩ = .eq := by decide +kernel

end Php
