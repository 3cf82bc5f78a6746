/-
Values as they travel from a request through PHP into MySQL columns.

Three readings of one value matter.  `num?` is PHP's `is_numeric` together with
the number it finds, which is what validation and arithmetic use.  `lead` is the
number MySQL compares with when a value meets an integer column: a string counts
by its leading number, so `'12abc'` selects the row with key 12.  `intColumn` and
`textColumn` are what strict mode stores, or `none` when it rejects the write.

Numbers are decimals `mant / 10 ^ scale`, so every comparison and every rounding
is integer arithmetic and can be evaluated.  Text is compared as MySQL stores it,
up to the collation's own identification of characters; a JSON number or boolean
in a text column is taken by its decimal digits.
-/
import Mathlib.Data.List.DropRight
import Mathlib.Tactic.Common
import Mathlib.Tactic.Ring
import Mathlib.Tactic.Positivity

namespace Php

/-! ### Decimal numbers -/

/-- The number `mant / 10 ^ scale`. -/
structure Num where
  mant : Int
  scale : Nat
  deriving DecidableEq, Repr

namespace Num

def ofInt (n : Int) : Num := ⟨n, 0⟩

/-- `x <= n`. -/
def le (x : Num) (n : Int) : Bool := decide (x.mant ≤ n * 10 ^ x.scale)

/-- `x > n`. -/
def gt (x : Num) (n : Int) : Bool := !x.le n

/-- `x` is a whole number. -/
def isInt (x : Num) : Bool := decide (x.mant % 10 ^ x.scale = 0)

/-- `n - x`. -/
def subFrom (n : Int) (x : Num) : Num := ⟨n * 10 ^ x.scale - x.mant, x.scale⟩

/-- The nearest integer, halves away from zero. -/
def round (x : Num) : Int :=
  if 0 ≤ x.mant then (2 * x.mant + 10 ^ x.scale) / (2 * 10 ^ x.scale)
  else -((2 * -x.mant + 10 ^ x.scale) / (2 * 10 ^ x.scale))

/-- What is left of `x` above a whole number is one half. -/
def isHalf (x : Num) : Bool := decide (2 * x.mant % (2 * 10 ^ x.scale) = 10 ^ x.scale)

/-- `x * 10 ^ e`. -/
def shift (x : Num) (neg : Bool) (e : Nat) : Num :=
  if neg then ⟨x.mant, x.scale + e⟩ else ⟨x.mant * 10 ^ e, x.scale⟩

/-- The natural number `x` is, if it is one. -/
def toNat? (x : Num) : Option Nat :=
  if x.isInt ∧ 0 ≤ x.mant then some (x.mant / 10 ^ x.scale).toNat else none

/-- The decimal digits of `x`. -/
def text (x : Num) : String :=
  let digits := (toString x.mant.natAbs).toList
  let padded := List.replicate (x.scale + 1 - digits.length) '0' ++ digits
  let whole := padded.take (padded.length - x.scale)
  let frac := padded.drop (padded.length - x.scale)
  String.ofList ((if x.mant < 0 then ['-'] else []) ++ whole
    ++ if frac.isEmpty then [] else '.' :: frac)

theorem pow_pos (k : Nat) : (0 : Int) < 10 ^ k := by positivity

theorem round_eq {x : Num} {n : Int} (h : x.mant = n * 10 ^ x.scale) : x.round = n := by
  have hd := pow_pos x.scale
  have key : ∀ m : Int, (2 * (m * 10 ^ x.scale) + 10 ^ x.scale) / (2 * 10 ^ x.scale) = m := by
    intro m
    rw [show 2 * (m * 10 ^ x.scale) + 10 ^ x.scale
        = (10 : Int) ^ x.scale + (2 * 10 ^ x.scale) * m by ring,
      Int.add_mul_ediv_left _ _ (by omega), Int.ediv_eq_zero_of_lt (by omega) (by omega)]
    omega
  unfold round
  rw [h]
  split
  · exact key n
  · rw [show -(n * 10 ^ x.scale) = -n * (10 : Int) ^ x.scale by ring, key (-n)]
    omega

@[simp] theorem round_ofInt (n : Int) : (ofInt n).round = n := round_eq (by simp [ofInt])

theorem exists_of_isInt {x : Num} (h : x.isInt = true) : ∃ n, x.mant = n * 10 ^ x.scale := by
  simp only [isInt, decide_eq_true_eq] at h
  exact ⟨x.mant / 10 ^ x.scale, (Int.ediv_mul_cancel (Int.dvd_of_emod_eq_zero h)).symm⟩

theorem mant_of_toNat {x : Num} {i : Nat} (h : x.toNat? = some i) : x.mant = i * 10 ^ x.scale := by
  simp only [toNat?, Option.ite_none_right_eq_some, Option.some.injEq] at h
  obtain ⟨⟨hint, hpos⟩, rfl⟩ := h
  obtain ⟨m, hm⟩ := exists_of_isInt hint
  have hd := pow_pos x.scale
  have hm0 : 0 ≤ m := by
    by_contra hneg
    have := Int.mul_neg_of_neg_of_pos (Int.lt_of_not_ge hneg) hd
    omega
  have hdiv : x.mant / 10 ^ x.scale = m := by
    rw [hm, Int.mul_ediv_cancel _ (by omega)]
  rw [hdiv, Int.toNat_of_nonneg hm0]
  exact hm

/-- Taking a whole number away and rounding is rounding and taking away. -/
theorem round_subFrom {x : Num} (h : x.isInt = true) (n : Int) :
    (subFrom n x).round = n - x.round := by
  obtain ⟨m, hm⟩ := exists_of_isInt h
  rw [round_eq hm]
  exact round_eq (by simp only [subFrom, hm]; ring)

theorem round_of_nonneg {x : Num} (h : 0 ≤ x.mant) :
    x.round = (2 * x.mant + 10 ^ x.scale) / (2 * 10 ^ x.scale) := if_pos h

theorem round_of_neg {x : Num} (h : ¬ 0 ≤ x.mant) :
    x.round = -((2 * -x.mant + 10 ^ x.scale) / (2 * 10 ^ x.scale)) := if_neg h

theorem round_nonneg {x : Num} (h : 0 ≤ x.mant) : 0 ≤ x.round := by
  have hd := pow_pos x.scale
  rw [round_of_nonneg h]
  exact Int.ediv_nonneg (by omega) (by omega)

end Num

/-! ### Numeric strings -/

/-- The value of a run of digits. -/
def natOf (ds : List Char) : Nat := ds.foldl (fun n c => 10 * n + (c.toNat - '0'.toNat)) 0

/-- An optional sign; `true` for a minus. -/
def sign : List Char → Bool × List Char
  | '-' :: cs => (true, cs)
  | '+' :: cs => (false, cs)
  | cs => (false, cs)

/-- The digits after a decimal point, and what follows them. -/
def fraction : List Char → List Char × List Char
  | '.' :: cs => (cs.takeWhile Char.isDigit, cs.dropWhile Char.isDigit)
  | cs => ([], cs)

/-- An exponent part, if there is one. -/
def exponent : List Char → Option (Bool × Nat × List Char)
  | [] => none
  | e :: cs =>
      let ds := (sign cs).2.takeWhile Char.isDigit
      if (e = 'e' ∨ e = 'E') ∧ ds ≠ [] then
        some ((sign cs).1, natOf ds, (sign cs).2.dropWhile Char.isDigit)
      else none

/-- The number a string starts with, and the rest of the string. -/
def leading (cs : List Char) : Option (Num × List Char) :=
  let (neg, cs) := sign (cs.dropWhile Char.isWhitespace)
  let whole := cs.takeWhile Char.isDigit
  let (frac, rest) := fraction (cs.dropWhile Char.isDigit)
  if whole.isEmpty && frac.isEmpty then none
  else
    let m : Int := natOf (whole ++ frac)
    let x : Num := ⟨if neg then -m else m, frac.length⟩
    match exponent rest with
    | some (down, e, rest) => some (x.shift down e, rest)
    | none => some (x, rest)

/-! ### Trimming -/

/-- The characters `trim` strips. -/
def isTrimmed (c : Char) : Bool := c ∈ [' ', '\t', '\n', '\r', '\x00', '\x0b']

/-- `trim($s)`. -/
def trim (s : String) : String :=
  String.ofList ((s.toList.dropWhile isTrimmed).rdropWhile isTrimmed)

theorem dropWhile_trim (cs : List Char) :
    ((cs.dropWhile isTrimmed).rdropWhile isTrimmed).dropWhile isTrimmed
      = (cs.dropWhile isTrimmed).rdropWhile isTrimmed := by
  have hpre := List.rdropWhile_prefix (p := isTrimmed) (l := cs.dropWhile isTrimmed)
  cases ht : (cs.dropWhile isTrimmed).rdropWhile isTrimmed with
  | nil => rfl
  | cons c rest =>
      -- the first character left is the first one `dropWhile` stopped at
      rw [ht] at hpre
      obtain ⟨more, hmore⟩ := hpre
      have hc : isTrimmed c = false := by
        have hhead := List.head?_dropWhile_not isTrimmed cs
        rw [← hmore] at hhead
        simpa using hhead
      rw [List.dropWhile_cons_of_neg (by simp [hc])]

theorem trim_trim (s : String) : trim (trim s) = trim s := by
  unfold trim
  rw [String.toList_ofList, dropWhile_trim, List.rdropWhile_idempotent]

/-- A string with any other character is not blank. -/
theorem trim_ne_empty {s : String} {c : Char} (hc : c ∈ s.toList) (h : isTrimmed c = false) :
    trim s ≠ "" := by
  intro hs
  have hnil : (s.toList.dropWhile isTrimmed).rdropWhile isTrimmed = [] := by
    simpa [trim] using congrArg String.toList hs
  rw [← List.takeWhile_append_dropWhile (p := isTrimmed) (l := s.toList), List.mem_append] at hc
  rcases hc with htake | hdrop
  · rw [List.mem_takeWhile_imp htake] at h
    cases h
  · rw [List.rdropWhile_eq_nil_iff.mp hnil c hdrop] at h
    cases h

/-! ### Values -/

/-- A field of a request body: a JSON scalar or form string, or an uploaded file
with its extension and the URL it is stored under. -/
inductive Value
  | null
  | bool (b : Bool)
  | int (n : Int)
  | dec (x : Num)
  | str (s : String)
  | file (ext url : String)
  deriving DecidableEq, Repr

namespace Value

/-- `is_numeric`, with the number. -/
def num? : Value → Option Num
  | int n => some (Num.ofInt n)
  | dec x => some x
  | str s =>
      match leading s.toList with
      | some (x, []) => some x
      | _ => none
  | _ => none

/-- The number an integer column is compared with. -/
def lead : Value → Option Num
  | null => none
  | bool b => some (Num.ofInt (if b then 1 else 0))
  | int n => some (Num.ofInt n)
  | dec x => some x
  | str s => some (((leading s.toList).map (·.1)).getD (Num.ofInt 0))
  | file _ _ => none

/-- The primary key a value selects. -/
def key? (v : Value) : Option Nat := v.lead.bind Num.toNat?

/-- `column = v` on an integer column. -/
def equalsInt (v : Value) (n : Int) : Bool :=
  match v.lead with
  | some x => decide (x.mant = n * 10 ^ x.scale)
  | none => false

/-- The text a value is bound as. -/
def text : Value → Option String
  | null => none
  | bool b => some (if b then "1" else "0")
  | int n => some (toString n)
  | dec x => some x.text
  | str s => some s
  | file _ _ => none

/-- `column = v` on a text column. -/
def equalsText (v : Value) (s : String) : Bool := v.text == some s

/-- A value `required` accepts. -/
def filled : Value → Bool
  | null => false
  | str s => trim s != ""
  | _ => true

/-- `v > n` in PHP, which compares a boolean as a boolean. -/
def gtInt (v : Value) (n : Int) : Bool :=
  match v with
  | bool b => b && n == 0
  | v => (v.num?.map fun x => x.gt n).getD false

/-- What PHP takes as true in a condition. -/
def truthy : Value → Bool
  | null => false
  | bool b => b
  | int n => n != 0
  | dec x => x.mant != 0
  | str s => s != "" && s != "0"
  | file _ _ => true

/-- `FILTER_VALIDATE_INT`: a sign and digits without a leading zero. -/
def isInteger : Value → Bool
  | bool b => b
  | int _ => true
  | dec x => x.isInt
  | str s =>
      let ds := (sign s.toList).2
      !ds.isEmpty && ds.all Char.isDigit && (ds.length == 1 || ds.head? != some '0')
        && decide (natOf ds < 2 ^ 63)
  | _ => false

/-! ### Columns in strict mode -/

/-- The signed 32-bit numbers, the two halves of equal size. -/
def isInt32 : Int → Bool
  | .ofNat n => decide (n < 2 ^ 31)
  | .negSucc n => decide (n < 2 ^ 31)

/-- An `INTEGER NOT NULL` column: rounded, and rejected outside 32 bits. -/
def intColumn (v : Value) : Option Int :=
  match v with
  | bool b => some (if b then 1 else 0)
  | v => v.num?.bind fun x => if isInt32 x.round then some x.round else none

/-- A `VARCHAR(255) NOT NULL` column. -/
def textColumn (v : Value) : Option String :=
  v.text.bind fun s => if s.length ≤ 255 then some s else none

/-- A nullable `VARCHAR(255)` column. -/
def nullableText : Value → Option (Option String)
  | null => some none
  | v => v.textColumn.map some

/-- A `TEXT NOT NULL` column. -/
def longText (v : Value) : Option String :=
  v.text.bind fun s => if s.utf8ByteSize < 2 ^ 16 then some s else none

theorem abs_le_of_isInt32 {n : Int} (h : isInt32 n = true) : |n| ≤ 2 ^ 31 := by
  cases n with
  | ofNat n =>
      have hn : n < 2 ^ 31 := by simpa [isInt32] using h
      rw [Int.ofNat_eq_natCast]
      exact abs_le.mpr ⟨by omega, by omega⟩
  | negSucc n =>
      have hn : n < 2 ^ 31 := by simpa [isInt32] using h
      exact abs_le.mpr ⟨by omega, by omega⟩

@[simp] theorem intColumn_null : null.intColumn = none := rfl
@[simp] theorem textColumn_null : null.textColumn = none := rfl

/-- What an integer column stores of a number. -/
theorem intColumn_num {v : Value} {x : Num} (h : v.num? = some x) :
    v.intColumn = if isInt32 x.round then some x.round else none := by
  cases v <;> simp_all [intColumn, num?]

theorem intColumn_some {v : Value} {x : Num} {n : Int} (h : v.num? = some x)
    (hn : v.intColumn = some n) : n = x.round := by
  rw [intColumn_num h] at hn
  split at hn
  · cases hn; rfl
  · cases hn

theorem isInt32_of_intColumn {v : Value} {n : Int} (h : v.intColumn = some n) :
    isInt32 n = true := by
  cases hx : v.num? with
  | some x =>
      rw [intColumn_num hx] at h
      split at h
      · rename_i hfits
        cases h
        exact hfits
      · cases h
  | none =>
      cases v with
      | bool b =>
          cases h
          cases b <;> rfl
      | _ => simp [intColumn, hx] at h

/-- The key a value selects is what an integer column stores of it. -/
theorem intColumn_of_key {v : Value} {i : Nat} {n : Int} (hk : v.key? = some i)
    (hn : v.intColumn = some n) : n = i := by
  have key : ∀ x : Num, x.toNat? = some i → x.round = i :=
    fun x hx => Num.round_eq (Num.mant_of_toNat hx)
  unfold key? at hk
  cases v with
  | null => cases hn
  | file ext url => cases hk
  | bool b =>
      cases b <;> simp only [intColumn, Option.some.injEq] at hn <;> subst hn <;>
        simp only [lead, Option.bind_some] at hk <;> simpa using key _ hk
  | int m => rw [intColumn_some rfl hn]; exact key _ hk
  | dec x => rw [intColumn_some rfl hn]; exact key _ hk
  | str s =>
      -- a string an integer column accepts is numeric to its end
      cases hnum : (str s).num? with
      | none => simp [intColumn, hnum] at hn
      | some x =>
          rw [intColumn_some hnum hn]
          refine key x ?_
          simp only [num?] at hnum
          split at hnum
          · rename_i y hl
            cases hnum
            simpa [lead, hl] using hk
          · cases hnum

/-- A column that holds the key a value selects is equal to it. -/
theorem equalsInt_of_key {v : Value} {i : Nat} (h : v.key? = some i) : v.equalsInt i = true := by
  unfold key? at h
  unfold equalsInt
  cases hx : v.lead with
  | none =>
      rw [hx] at h
      cases h
  | some x =>
      rw [hx] at h
      simpa using Num.mant_of_toNat h

/-- No other number is. -/
theorem eq_of_equalsInt {v : Value} {i : Nat} {n : Int} (hk : v.key? = some i)
    (h : v.equalsInt n = true) : n = i := by
  unfold key? at hk
  unfold equalsInt at h
  cases hx : v.lead with
  | none =>
      rw [hx] at hk
      cases hk
  | some x =>
      rw [hx] at hk h
      have hmant : x.mant = i * 10 ^ x.scale := Num.mant_of_toNat hk
      have heq : x.mant = n * 10 ^ x.scale := by simpa using h
      rw [hmant] at heq
      exact (Int.eq_of_mul_eq_mul_right (Int.ne_of_gt (Num.pow_pos x.scale)) heq).symm

theorem text_of_textColumn {v : Value} {s : String} (h : v.textColumn = some s) :
    v.text = some s := by
  unfold textColumn at h
  obtain ⟨t, ht, h⟩ := Option.bind_eq_some_iff.mp h
  split at h
  · rw [ht, h]
  · cases h

end Value

end Php
