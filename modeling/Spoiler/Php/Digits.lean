/-
Values that are written as digits.

A rule such as `digits:6` looks at the text of a value, a comparison at its number.
For a text of digits the two agree: the number is what the digits spell, whether the
value came as a string or as a number.
-/
import Spoiler.Php.Value

namespace Php

/-! ### What digits spell -/

theorem natOf_append (xs ys : List Char) :
    natOf (xs ++ ys) = 10 ^ ys.length * natOf xs + natOf ys := by
  show Nat.ofDigitChars 10 (xs ++ ys) 0 = _
  rw [Nat.ofDigitChars_append, Nat.ofDigitChars_eq_ofDigitChars_zero]
  rfl

theorem toNat_of_isDigit {c : Char} (h : c.isDigit = true) : 48 ≤ c.toNat ∧ c.toNat ≤ 57 := by
  simp only [Char.isDigit, Bool.and_eq_true, decide_eq_true_eq, ge_iff_le,
    UInt32.le_iff_toNat_le] at h
  exact h

/-- Digits spell less than the next power of ten. -/
theorem natOf_lt {cs : List Char} (h : ∀ c ∈ cs, c.isDigit = true) : natOf cs < 10 ^ cs.length := by
  induction cs using List.reverseRecOn with
  | nil => decide
  | append_singleton xs c ih =>
      have hc := toNat_of_isDigit (h c (by simp))
      have hxs := ih fun d hd => h d (by simp [hd])
      have hone : natOf [c] = c.toNat - 48 := by
        show 10 * 0 + (c.toNat - 48) = _
        omega
      rw [natOf_append, hone, List.length_append, List.length_singleton, Nat.pow_succ]
      omega

theorem natOf_toString (n : Nat) : natOf (toString n).toList = n := by
  rw [Nat.toString_eq_repr, Nat.toList_repr]
  exact Nat.ofDigitChars_toDigits (by decide) (by decide)

/-- A digit is no blank and no sign. -/
theorem not_isWhitespace_of_isDigit {c : Char} (h : c.isDigit = true) : c.isWhitespace = false := by
  by_contra hw
  simp only [Bool.not_eq_false, Char.isWhitespace, Bool.or_eq_true,
    decide_eq_true_eq] at hw
  rcases hw with ((rfl | rfl) | rfl) | rfl <;> exact absurd h (by decide)

theorem sign_of_isDigit {c : Char} (h : c.isDigit = true) (cs : List Char) :
    sign (c :: cs) = (false, c :: cs) := by
  unfold sign
  split
  · rename_i heq
    cases heq
    exact absurd h (by decide)
  · rename_i heq
    cases heq
    exact absurd h (by decide)
  · rfl

/-- A number goes on with none of these. -/
def stops : List Char → Bool
  | [] => true
  | c :: _ => !c.isDigit && c != '.' && c != 'e' && c != 'E'

/-- The number a string starts with is the digits it starts with. -/
theorem leading_append {cs rest : List Char} (hne : cs ≠ []) (h : ∀ c ∈ cs, c.isDigit = true)
    (hstops : stops rest = true) : leading (cs ++ rest) = some (⟨natOf cs, 0⟩, rest) := by
  cases cs with
  | nil => exact absurd rfl hne
  | cons c cs =>
      have hc := h c (by simp)
      have hrest : rest.takeWhile Char.isDigit = [] ∧ rest.dropWhile Char.isDigit = rest ∧
          fraction rest = ([], rest) ∧ exponent rest = none := by
        cases rest with
        | nil => exact ⟨rfl, rfl, rfl, rfl⟩
        | cons d rest =>
            simp only [stops, Bool.and_eq_true, Bool.not_eq_true', bne_iff_ne, ne_eq] at hstops
            obtain ⟨⟨⟨hd, hpoint⟩, he⟩, hE⟩ := hstops
            refine ⟨by simp [hd], by simp [hd], ?_, by simp [exponent, he, hE]⟩
            unfold fraction
            split
            · rename_i heq
              cases heq
              exact absurd rfl hpoint
            · rfl
      obtain ⟨htake, hdrop, hfraction, hexponent⟩ := hrest
      unfold leading
      rw [List.cons_append,
        List.dropWhile_cons_of_neg (by simp [not_isWhitespace_of_isDigit hc]), sign_of_isDigit hc,
        ← List.cons_append]
      simp only [List.takeWhile_append_of_pos h, List.dropWhile_append_of_pos h, htake, hdrop,
        hfraction, hexponent]
      simp

/-- A string of digits is numeric to its end. -/
theorem leading_digits {cs : List Char} (hne : cs ≠ []) (h : ∀ c ∈ cs, c.isDigit = true) :
    leading cs = some (⟨natOf cs, 0⟩, []) := by
  have happend : leading (cs ++ []) = _ := leading_append hne h rfl
  rwa [List.append_nil] at happend

/-- So is one with a sign. -/
theorem leading_signed {cs ds : List Char} {neg : Bool} (hsign : sign cs = (neg, ds))
    (hne : ds ≠ []) (h : ∀ c ∈ ds, c.isDigit = true) :
    leading cs = some (⟨if neg then -(natOf ds : Int) else natOf ds, 0⟩, []) := by
  have hstart : cs.dropWhile Char.isWhitespace = cs := by
    unfold sign at hsign
    split at hsign
    · rfl
    · rfl
    · cases hsign
      cases cs with
      | nil => rfl
      | cons c cs =>
          exact List.dropWhile_cons_of_neg (by simp [not_isWhitespace_of_isDigit (h c (by simp))])
  have htake : ds.takeWhile Char.isDigit = ds := List.takeWhile_eq_self_iff.mpr h
  have hdrop : ds.dropWhile Char.isDigit = [] := List.dropWhile_eq_nil_iff.mpr h
  unfold leading
  rw [hstart, hsign]
  simp [htake, hdrop, hne, fraction, exponent]

/-- Digits that something else follows are not numeric. -/
theorem num_eq_none {cs rest : List Char} (hne : cs ≠ []) (h : ∀ c ∈ cs, c.isDigit = true)
    (hstops : stops rest = true) (hrest : rest ≠ []) :
    (Value.str (String.ofList (cs ++ rest))).num? = none := by
  unfold Value.num?
  dsimp only
  rw [String.toList_ofList, leading_append hne h hstops]
  split
  · rename_i heq
    cases heq
    exact absurd rfl hrest
  · rfl

/-! ### The order of digits -/

theorem char_lt_iff {c d : Char} : c < d ↔ c.toNat < d.toNat := by
  rw [Char.lt_def, UInt32.lt_iff_toNat_lt]
  rfl

/-- Two digits come before two others when the number they spell does. -/
theorem pair_lt {a b c d : Char} {xs ys : List Char} (ha : a.isDigit = true)
    (hb : b.isDigit = true) (hc : c.isDigit = true) (hd : d.isDigit = true) :
    a :: b :: xs < c :: d :: ys ↔
      natOf [a, b] < natOf [c, d] ∨ (natOf [a, b] = natOf [c, d] ∧ xs < ys) := by
  have ha' := toNat_of_isDigit ha
  have hb' := toNat_of_isDigit hb
  have hc' := toNat_of_isDigit hc
  have hd' := toNat_of_isDigit hd
  have hnat : ∀ x y : Char, natOf [x, y] = 10 * (x.toNat - 48) + (y.toNat - 48) := by
    intro x y
    show 10 * (10 * 0 + (x.toNat - 48)) + (y.toNat - 48) = _
    omega
  rw [List.cons_lt_cons_iff, List.cons_lt_cons_iff, char_lt_iff, char_lt_iff, hnat, hnat,
    ← Char.toNat_inj, ← Char.toNat_inj]
  by_cases hxs : xs < ys
  · simp only [hxs, and_true]
    omega
  · simp only [hxs, and_false, or_false]
    omega

/-! ### Integers -/

/-- What the rule `integer` accepts is a whole number. -/
theorem isInt_of_isInteger {v : Value} {x : Num} (h : v.isInteger = true) (hx : v.num? = some x) :
    x.isInt = true := by
  cases v with
  | null => cases h
  | bool b => cases hx
  | file ext url => cases h
  | int n =>
      cases hx
      simp [Num.isInt, Num.ofInt]
  | dec y =>
      cases hx
      exact h
  | str s =>
      simp only [Value.isInteger, Bool.and_eq_true, Bool.not_eq_true', List.isEmpty_eq_false_iff,
        List.all_eq_true] at h
      obtain ⟨⟨⟨hne, hdigit⟩, -⟩, -⟩ := h
      have hlead : leading s.toList = _ := leading_signed rfl hne hdigit
      simp only [Value.num?, hlead, Option.some.injEq] at hx
      rw [← hx]
      simp [Num.isInt]

/-- An integer is not above what its column stores of it. -/
theorem gtInt_of_intColumn {v : Value} {n : Int} (h : v.isInteger = true)
    (hn : v.intColumn = some n) : v.gtInt n = false := by
  have hnum : ∀ x, v.num? = some x → x.gt n = false := by
    intro x hx
    obtain ⟨m, hm⟩ := Num.exists_of_isInt (isInt_of_isInteger h hx)
    rw [Value.intColumn_some hx hn, Num.round_eq hm]
    simp [Num.gt, Num.le, hm]
  cases v with
  | null => rfl
  | file ext url => rfl
  | bool b =>
      cases hn
      cases b <;> rfl
  | int m => exact hnum _ rfl
  | dec y => exact hnum _ rfl
  | str s =>
      show (Option.map _ (Value.str s).num?).getD false = false
      cases hx : (Value.str s).num? with
      | none => rfl
      | some x => exact hnum x hx

/-- An integer is above another exactly if what its column stores of it is.  Only `true` is
compared as a truth value, and is not above a negative number. -/
theorem gtInt_iff {v : Value} {n m : Int} (h : v.isInteger = true) (hn : v.intColumn = some n) :
    v.gtInt m = true ↔ m < n ∧ (v = .bool true → 0 ≤ m) := by
  have hnum : ∀ x, v.num? = some x → (x.gt m = true ↔ m < n) := by
    intro x hx
    obtain ⟨k, hk⟩ := Num.exists_of_isInt (isInt_of_isInteger h hx)
    have hpow : (0 : Int) < 10 ^ x.scale := by positivity
    rw [Value.intColumn_some hx hn, Num.round_eq hk]
    simp only [Num.gt, Num.le, hk, Bool.not_eq_true', decide_eq_false_iff_not, not_le]
    exact mul_lt_mul_iff_left₀ hpow
  cases v with
  | null => cases hn
  | file ext url => cases hn
  | bool b =>
      cases b with
      | false => cases h
      | true =>
          obtain rfl : 1 = n := Option.some.inj hn
          simp only [Value.gtInt, Bool.true_and, beq_iff_eq, true_implies]
          omega
  | int k =>
      show (Num.ofInt k).gt m = true ↔ _
      simpa using hnum _ rfl
  | dec y =>
      show y.gt m = true ↔ _
      simpa using hnum _ rfl
  | str s =>
      show (Option.map _ (Value.str s).num?).getD false = true ↔ _
      cases hx : (Value.str s).num? with
      | none => simp [Value.intColumn, hx] at hn
      | some x => simpa using hnum x hx

/-! ### Values of two digits or more -/

/-- The text of a value, when it is made of digits and has two of them at least. -/
structure Digits (v : Value) (cs : List Char) : Prop where
  text : v.text = some (String.ofList cs)
  digit : ∀ c ∈ cs, c.isDigit = true
  length : 2 ≤ cs.length

/-- A number written without a sign and without a point is a natural number. -/
theorem Num.mant_of_text {x : Num} (h : ∀ c ∈ x.text.toList, c.isDigit = true) :
    x.scale = 0 ∧ 0 ≤ x.mant ∧ x.text.toList = (toString x.mant.natAbs).toList := by
  set digits := (toString x.mant.natAbs).toList with hdigits
  have hpos : 0 < digits.length := by
    rw [hdigits, Nat.toString_eq_repr, Nat.toList_repr]
    exact Nat.length_toDigits_pos
  set padded := List.replicate (x.scale + 1 - digits.length) '0' ++ digits with hpadded
  have hlen : x.scale < padded.length := by
    rw [hpadded, List.length_append, List.length_replicate]
    omega
  have htext : x.text.toList = (if x.mant < 0 then ['-'] else [])
      ++ padded.take (padded.length - x.scale)
      ++ if (padded.drop (padded.length - x.scale)).isEmpty then []
        else '.' :: padded.drop (padded.length - x.scale) := by
    simp only [Num.text, String.toList_ofList, ← hdigits, ← hpadded]
  rw [htext] at h
  have hmant : 0 ≤ x.mant := by
    by_contra hneg
    exact absurd (h '-' (by simp [Int.lt_of_not_ge hneg])) (by decide)
  have hscale : x.scale = 0 := by
    by_contra hne
    have hdrop : padded.drop (padded.length - x.scale) ≠ [] := by
      rw [Ne, List.drop_eq_nil_iff]
      omega
    exact absurd (h '.' (by simp [hdrop])) (by decide)
  have hwhole : padded = digits := by
    rw [hpadded, hscale, show 0 + 1 - digits.length = 0 by omega]
    rfl
  refine ⟨hscale, hmant, ?_⟩
  rw [htext, hscale, hwhole, if_neg (Int.not_lt.mpr hmant)]
  simp

theorem toString_toList_of_nonneg {n : Int} (hn : 0 ≤ n) :
    (toString n).toList = (toString n.natAbs).toList := by
  obtain ⟨m, rfl⟩ := Int.eq_ofNat_of_zero_le hn
  rfl

theorem nonneg_of_toString {n : Int} (h : ∀ c ∈ (toString n).toList, c.isDigit = true) :
    0 ≤ n := by
  cases n with
  | ofNat m => exact Int.natCast_nonneg m
  | negSucc m =>
      have hminus : '-' ∈ (toString (Int.negSucc m)).toList := by
        show '-' ∈ ("-" ++ (m + 1).repr).toList
        simp
      exact absurd (h '-' hminus) (by decide)

namespace Digits

variable {v : Value} {cs : List Char}

/-- Of the two readings of a natural number, its text and itself. -/
theorem natOf_eq {n : Nat} (h : (toString n).toList = cs) (hlen : 2 ≤ cs.length) :
    natOf cs = n ∧ n ≠ 0 := by
  subst h
  refine ⟨natOf_toString n, ?_⟩
  rintro rfl
  exact absurd hlen (by decide)

/-- Such a value is a string, or a natural number whose decimal digits these are. -/
theorem str_or_nat (h : Digits v cs) : v = .str (String.ofList cs) ∨
    ∃ n : Nat, (toString n).toList = cs ∧ v.num? = some ⟨n, 0⟩ ∧ (n ≠ 0 → v.truthy = true) := by
  obtain ⟨htext, hdigit, hlen⟩ := h
  cases v with
  | null => cases htext
  | file ext url => cases htext
  | bool b =>
      have hcs : cs = [if b then '1' else '0'] := by
        have := congrArg String.toList (Option.some.inj htext)
        cases b <;> simpa using this.symm
      rw [hcs] at hlen
      exact absurd hlen (by simp)
  | str s => exact .inl (congrArg Value.str (Option.some.inj htext))
  | int n =>
      have hs : (toString n).toList = cs := by
        have := congrArg String.toList (Option.some.inj htext)
        simpa using this
      have hn : 0 ≤ n := nonneg_of_toString (by rw [hs]; exact hdigit)
      refine .inr ⟨n.natAbs, (toString_toList_of_nonneg hn).symm.trans hs, ?_, ?_⟩
      · simp only [Value.num?, Num.ofInt]
        rw [Int.natAbs_of_nonneg hn]
      · simp [Value.truthy]
  | dec x =>
      have hs : x.text.toList = cs := by
        have := congrArg String.toList (Option.some.inj htext)
        simpa using this
      obtain ⟨hscale, hmant, hwhole⟩ := Num.mant_of_text (by rw [hs]; exact hdigit)
      refine .inr ⟨x.mant.natAbs, hwhole.symm.trans hs, ?_, ?_⟩
      · simp only [Value.num?]
        rw [Int.natAbs_of_nonneg hmant, ← hscale]
      · simp [Value.truthy]

/-- **The number of such a value is what its digits spell, and PHP takes it as true.** -/
theorem num_eq (h : Digits v cs) : v.num? = some ⟨natOf cs, 0⟩ ∧ v.truthy = true := by
  rcases h.str_or_nat with hstr | ⟨n, hn, hnum, htruthy⟩
  · subst hstr
    have hne : cs ≠ [] := by
      rintro rfl
      exact absurd h.length (by decide)
    constructor
    · simp only [Value.num?, String.toList_ofList, leading_digits hne h.digit]
    · have hzero : String.ofList cs ≠ "0" := by
        intro h0
        have hcs : cs = ['0'] := by simpa using congrArg String.toList h0
        exact absurd h.length (by rw [hcs]; decide)
      simp [Value.truthy, hne, hzero]
  · obtain ⟨hnat, hne⟩ := natOf_eq hn h.length
    rw [hnat]
    exact ⟨hnum, htruthy hne⟩

/-- A number has no leading zero. -/
theorem str_or_le (h : Digits v cs) :
    v = .str (String.ofList cs) ∨ 10 ^ (cs.length - 1) ≤ natOf cs := by
  rcases h.str_or_nat with hstr | ⟨n, hn, -, -⟩
  · exact .inl hstr
  · right
    have hlen := h.length
    rw [(natOf_eq hn hlen).1]
    rw [Nat.toString_eq_repr, Nat.toList_repr] at hn
    by_contra hlt
    have hshort := (Nat.length_toDigits_le_iff (b := 10) (n := n) (by decide)
      (show 0 < cs.length - 1 by omega)).mpr (by omega)
    rw [hn] at hshort
    omega

end Digits

end Php
