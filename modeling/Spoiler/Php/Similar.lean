/-
`similar_text` of PHP.

The score of two strings is the length of their first longest common substring, plus the
score of what stands to its left in both, plus the score of what stands to its right.
`similarStr` is the search for the substring, two loops that keep the first best;
`similarText` is the recursion, on fuel, and the length of the first string is enough.

Two facts carry what is proved with it.  The score is the length of a common subsequence,
since the three parts stand one after another in both strings.  And it only depends on
which positions of the two strings hold the same character.
-/
import Mathlib.Data.List.Forall2
import Mathlib.Tactic.Common

namespace Php

variable {α : Type}

/-! ### Strings side by side -/

/-- The string up to a common substring, the substring, and what follows. -/
theorem take_append_drop_append (xs : List α) (p n : Nat) :
    xs.take p ++ ((xs.drop p).take n ++ xs.drop (p + n)) = xs := by
  rw [← List.drop_drop, List.take_append_drop, List.take_append_drop]

/-- Two strings whose characters at each position are the same to `xs`. -/
def SameTo (xs ys ys' : List α) : Prop := List.Forall₂ (fun y y' => ∀ x ∈ xs, x = y ↔ x = y') ys ys'

namespace SameTo

variable {xs ys ys' : List α}

theorem mono {zs : List α} (h : SameTo xs ys ys') (hsub : zs ⊆ xs) : SameTo zs ys ys' :=
  List.Forall₂.imp (fun _ _ hxy x hx => hxy x (hsub hx)) h

theorem take (h : SameTo xs ys ys') (n : Nat) : SameTo xs (ys.take n) (ys'.take n) :=
  List.forall₂_take n h

theorem drop (h : SameTo xs ys ys') (n : Nat) : SameTo xs (ys.drop n) (ys'.drop n) :=
  List.forall₂_drop n h

end SameTo

variable [DecidableEq α]

/-! ### The first longest common substring -/

/-- How far two strings agree from their beginning. -/
def agree : List α → List α → Nat
  | x :: xs, y :: ys => if x = y then agree xs ys + 1 else 0
  | _, _ => 0

/-- A common substring: where it begins in either string, and its length. -/
structure Common where
  pos1 : Nat
  pos2 : Nat
  max : Nat
  deriving DecidableEq, Repr

/-- The common substrings in the order the two loops come upon them. -/
def commons (xs ys : List α) : List Common :=
  (List.range xs.length).flatMap fun p =>
    (List.range ys.length).map fun q => ⟨p, q, agree (xs.drop p) (ys.drop q)⟩

/-- A longer one replaces the best so far. -/
def Common.better (best c : Common) : Common := if best.max < c.max then c else best

/-- `php_similar_str`. -/
def similarStr (xs ys : List α) : Common := (commons xs ys).foldl Common.better ⟨0, 0, 0⟩

/-! ### The score -/

/-- `php_similar_char`, on fuel. -/
def similarChar : Nat → List α → List α → Nat
  | 0, _, _ => 0
  | fuel + 1, xs, ys =>
      let m := similarStr xs ys
      if m.max = 0 then 0
      else m.max + similarChar fuel (xs.take m.pos1) (ys.take m.pos2)
        + similarChar fuel (xs.drop (m.pos1 + m.max)) (ys.drop (m.pos2 + m.max))

/-- `similar_text($xs, $ys)`. -/
def similarText (xs ys : List α) : Nat := similarChar xs.length xs ys

/-! ### What the search finds -/

theorem agree_nil_left (ys : List α) : agree [] ys = 0 := by
  simp [agree]

theorem agree_nil_right (xs : List α) : agree xs [] = 0 := by
  cases xs <;> rfl

theorem agree_le_length (xs ys : List α) :
    agree xs ys ≤ xs.length ∧ agree xs ys ≤ ys.length := by
  induction xs generalizing ys with
  | nil => simp [agree]
  | cons x xs ih =>
      cases ys with
      | nil => simp [agree]
      | cons y ys =>
          have h := ih ys
          unfold agree
          split
          · simp only [List.length_cons]
            omega
          · simp

/-- The two strings are the same that far. -/
theorem take_agree (xs ys : List α) : xs.take (agree xs ys) = ys.take (agree xs ys) := by
  induction xs generalizing ys with
  | nil => simp [agree]
  | cons x xs ih =>
      cases ys with
      | nil => simp [agree]
      | cons y ys =>
          unfold agree
          split
          · rename_i hxy
            rw [List.take_succ_cons, List.take_succ_cons, hxy, ih ys]
          · rfl

theorem agree_append (xs ys : List α) : agree (xs ++ ys) xs = xs.length := by
  induction xs with
  | nil => exact agree_nil_right _
  | cons x xs ih => simp [agree, ih]

theorem le_foldl_better (cs : List Common) (best : Common) :
    best.max ≤ (cs.foldl Common.better best).max ∧
      ∀ c ∈ cs, c.max ≤ (cs.foldl Common.better best).max := by
  induction cs generalizing best with
  | nil => simp
  | cons c cs ih =>
      obtain ⟨hbest, hmem⟩ := ih (best.better c)
      have hstep : best.max ≤ (best.better c).max ∧ c.max ≤ (best.better c).max := by
        unfold Common.better
        split <;> omega
      refine ⟨Nat.le_trans hstep.1 hbest, fun d hd => ?_⟩
      rcases List.mem_cons.mp hd with rfl | hd
      · exact Nat.le_trans hstep.2 hbest
      · exact hmem d hd

theorem foldl_better_mem (cs : List Common) (best : Common) :
    cs.foldl Common.better best = best ∨ cs.foldl Common.better best ∈ cs := by
  induction cs generalizing best with
  | nil => exact .inl rfl
  | cons c cs ih =>
      rcases ih (best.better c) with h | h
      · rw [List.foldl_cons, h]
        unfold Common.better
        split
        · exact .inr List.mem_cons_self
        · exact .inl rfl
      · exact .inr (List.mem_cons_of_mem _ h)

theorem mem_commons {xs ys : List α} {c : Common} :
    c ∈ commons xs ys ↔ c.pos1 < xs.length ∧ c.pos2 < ys.length ∧
      c.max = agree (xs.drop c.pos1) (ys.drop c.pos2) := by
  simp only [commons, List.mem_flatMap, List.mem_map, List.mem_range]
  constructor
  · rintro ⟨p, hp, q, hq, rfl⟩
    exact ⟨hp, hq, rfl⟩
  · rintro ⟨hp, hq, hmax⟩
    exact ⟨c.pos1, hp, c.pos2, hq, by rw [← hmax]⟩

/-- No common substring is longer than the one found. -/
theorem agree_le_similarStr (xs ys : List α) (p q : Nat) :
    agree (xs.drop p) (ys.drop q) ≤ (similarStr xs ys).max := by
  by_cases hp : p < xs.length
  · by_cases hq : q < ys.length
    · exact (le_foldl_better _ _).2 ⟨p, q, _⟩ (mem_commons.mpr ⟨hp, hq, rfl⟩)
    · rw [List.drop_eq_nil_of_le (Nat.le_of_not_lt hq), agree_nil_right]
      exact Nat.zero_le _
  · rw [List.drop_eq_nil_of_le (Nat.le_of_not_lt hp), agree_nil_left]
    exact Nat.zero_le _

/-- The one found is one. -/
theorem similarStr_max (xs ys : List α) :
    (similarStr xs ys).max
      = agree (xs.drop (similarStr xs ys).pos1) (ys.drop (similarStr xs ys).pos2) := by
  rcases foldl_better_mem (commons xs ys) ⟨0, 0, 0⟩ with h | h
  · have hle := agree_le_similarStr xs ys 0 0
    unfold similarStr at hle ⊢
    rw [h] at hle ⊢
    exact (Nat.le_zero.mp hle).symm
  · exact (mem_commons.mp h).2.2

/-- Both strings go on to the end of the substring found. -/
theorem similarStr_le (xs ys : List α) :
    (similarStr xs ys).max ≤ xs.length - (similarStr xs ys).pos1 ∧
      (similarStr xs ys).max ≤ ys.length - (similarStr xs ys).pos2 := by
  have h := agree_le_length (xs.drop (similarStr xs ys).pos1) (ys.drop (similarStr xs ys).pos2)
  rw [← similarStr_max, List.length_drop, List.length_drop] at h
  exact h

/-! ### Fuel -/

/-- Fuel beyond the length of the first string changes nothing. -/
theorem similarChar_fuel (fuel fuel' : Nat) {xs ys : List α} (h : xs.length ≤ fuel)
    (h' : xs.length ≤ fuel') : similarChar fuel xs ys = similarChar fuel' xs ys := by
  induction fuel generalizing fuel' xs ys with
  | zero =>
      have hnil : xs = [] := List.eq_nil_of_length_eq_zero (Nat.le_zero.mp h)
      cases fuel' with
      | zero => rfl
      | succ fuel' =>
          have hmax := (similarStr_le xs ys).1
          have hzero : (similarStr xs ys).max = 0 := by
            rw [hnil, List.length_nil] at hmax
            rw [hnil]
            omega
          simp [similarChar, hzero]
  | succ fuel ih =>
      cases fuel' with
      | zero =>
          have hmax := (similarStr_le xs ys).1
          have hzero : (similarStr xs ys).max = 0 := by omega
          simp [similarChar, hzero]
      | succ fuel' =>
          have hmax := (similarStr_le xs ys).1
          simp only [similarChar]
          split
          · rfl
          · -- either part is shorter than the string by the substring taken out
            have hleft : (xs.take (similarStr xs ys).pos1).length ≤ xs.length - 1 := by
              rw [List.length_take]
              omega
            have hright :
                (xs.drop ((similarStr xs ys).pos1 + (similarStr xs ys).max)).length
                  ≤ xs.length - 1 := by
              rw [List.length_drop]
              omega
            rw [ih fuel' (by omega) (by omega), ih fuel' (by omega) (by omega)]

/-- The recursion as it is meant. -/
theorem similarText_eq (xs ys : List α) : similarText xs ys =
    if (similarStr xs ys).max = 0 then 0
    else (similarStr xs ys).max
      + similarText (xs.take (similarStr xs ys).pos1) (ys.take (similarStr xs ys).pos2)
      + similarText (xs.drop ((similarStr xs ys).pos1 + (similarStr xs ys).max))
          (ys.drop ((similarStr xs ys).pos2 + (similarStr xs ys).max)) := by
  unfold similarText
  rw [similarChar_fuel _ (xs.length + 1) (Nat.le_refl _) (Nat.le_succ _)]
  simp only [similarChar]
  split
  · rfl
  · rw [similarChar_fuel xs.length _ _ (Nat.le_refl _),
      similarChar_fuel xs.length _ _ (Nat.le_refl _)]
    · rw [List.length_drop]
      omega
    · rw [List.length_take]
      omega

/-! ### What the score says -/

/-- A string that occurs in another scores its whole length. -/
theorem length_le_similarText {xs ys : List α} (h : ys <:+: xs) :
    ys.length ≤ similarText xs ys := by
  obtain ⟨left, right, rfl⟩ := h
  have hlong := agree_le_similarStr (left ++ ys ++ right) ys left.length 0
  rw [List.append_assoc, List.drop_left, List.drop_zero, agree_append] at hlong
  rw [similarText_eq, List.append_assoc]
  split <;> omega

/-- The score is the length of a common subsequence. -/
theorem similarChar_sublist (fuel : Nat) (xs ys : List α) :
    ∃ zs : List α, zs.Sublist xs ∧ zs.Sublist ys ∧ zs.length = similarChar fuel xs ys := by
  induction fuel generalizing xs ys with
  | zero => exact ⟨[], List.nil_sublist _, List.nil_sublist _, rfl⟩
  | succ fuel ih =>
      simp only [similarChar]
      split
      · exact ⟨[], List.nil_sublist _, List.nil_sublist _, rfl⟩
      · generalize hm : similarStr xs ys = m
        have hmax := similarStr_max xs ys
        have hle := similarStr_le xs ys
        rw [hm] at hmax hle
        obtain ⟨left, hleft1, hleft2, hleft⟩ := ih (xs.take m.pos1) (ys.take m.pos2)
        obtain ⟨right, hright1, hright2, hright⟩ :=
          ih (xs.drop (m.pos1 + m.max)) (ys.drop (m.pos2 + m.max))
        have hmid : (xs.drop m.pos1).take m.max = (ys.drop m.pos2).take m.max := by
          rw [hmax]
          exact take_agree _ _
        refine ⟨left ++ ((xs.drop m.pos1).take m.max ++ right), ?_, ?_, ?_⟩
        · have h := hleft1.append ((List.Sublist.refl ((xs.drop m.pos1).take m.max)).append hright1)
          rwa [take_append_drop_append] at h
        · rw [hmid]
          have h := hleft2.append ((List.Sublist.refl ((ys.drop m.pos2).take m.max)).append hright2)
          rwa [take_append_drop_append] at h
        · rw [List.length_append, List.length_append, List.length_take, List.length_drop, hleft,
            hright]
          omega

theorem similarText_sublist (xs ys : List α) :
    ∃ zs : List α, zs.Sublist xs ∧ zs.Sublist ys ∧ zs.length = similarText xs ys :=
  similarChar_sublist xs.length xs ys

/-! ### What the score depends on -/

namespace SameTo

variable {xs ys ys' : List α}

theorem agree (h : SameTo xs ys ys') : agree xs ys = agree xs ys' := by
  induction xs generalizing ys ys' with
  | nil => rw [agree_nil_left, agree_nil_left]
  | cons x xs ih =>
      cases h with
      | nil => rfl
      | @cons y y' ys ys' hy hys =>
          have hall : SameTo (x :: xs) ys ys' := hys
          simp only [Php.agree, hy x List.mem_cons_self,
            ih (hall.mono (List.subset_cons_self x xs))]

theorem similarStr (h : SameTo xs ys ys') : similarStr xs ys = similarStr xs ys' := by
  have hcommons : commons xs ys = commons xs ys' := by
    unfold commons
    rw [List.Forall₂.length_eq h]
    refine congrArg (List.flatMap · _) (funext fun p => ?_)
    refine congrArg (List.map · _) (funext fun q => ?_)
    rw [SameTo.agree ((h.drop q).mono (List.drop_subset p xs))]
  unfold Php.similarStr
  rw [hcommons]

theorem similarChar (fuel : Nat) (h : SameTo xs ys ys') :
    similarChar fuel xs ys = similarChar fuel xs ys' := by
  induction fuel generalizing xs ys ys' with
  | zero => rfl
  | succ fuel ih =>
      simp only [Php.similarChar]
      rw [← h.similarStr, ih ((h.take _).mono (List.take_subset _ _)),
        ih ((h.drop _).mono (List.drop_subset _ _))]

theorem similarText (h : SameTo xs ys ys') : similarText xs ys = similarText xs ys' :=
  h.similarChar xs.length

end SameTo

end Php
