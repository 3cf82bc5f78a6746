/-
Strings as bytes.

`strlen`, `strtolower` and `similar_text` know nothing of characters: they see the bytes of
the UTF-8 encoding.  A character up to 0x7F is one byte, and every byte of any other
character is above.  So the bytes up to 0x7F of a text are its ASCII characters, one for
one, which is all that is used here.
-/
import Mathlib.Tactic.Common

namespace Php

/-- The bytes of a string. -/
def bytes (s : String) : List UInt8 := s.toList.flatMap String.utf8EncodeChar

def isUpper (b : UInt8) : Bool := decide (0x41 ≤ b.toNat ∧ b.toNat ≤ 0x5A)

def lowerByte (b : UInt8) : UInt8 := if isUpper b then b + 0x20 else b

/-- `strtolower($s)`. -/
def strtolower (s : List UInt8) : List UInt8 := s.map lowerByte

/-- A byte that is a character of its own. -/
def isAscii (b : UInt8) : Bool := decide (b.toNat ≤ 0x7f)

/-! ### Letters -/

theorem lowerByte_of_not_upper {b : UInt8} (h : isUpper b = false) : lowerByte b = b := by
  simp [lowerByte, h]

theorem toNat_lowerByte {b : UInt8} (h : isUpper b = true) :
    (lowerByte b).toNat = b.toNat + 32 := by
  have hb : 0x41 ≤ b.toNat ∧ b.toNat ≤ 0x5A := by simpa [isUpper] using h
  unfold lowerByte
  rw [if_pos h, UInt8.toNat_add]
  show (b.toNat + 32) % 256 = b.toNat + 32
  omega

/-- Nothing in lower case is an upper-case letter. -/
theorem not_upper_lowerByte (b : UInt8) : isUpper (lowerByte b) = false := by
  cases h : isUpper b with
  | false => rw [lowerByte_of_not_upper h, h]
  | true =>
      have hb : 0x41 ≤ b.toNat ∧ b.toNat ≤ 0x5A := by simpa [isUpper] using h
      simp only [isUpper, toNat_lowerByte h]
      simp
      omega

/-! ### Characters -/

theorem utf8_of_ascii {c : Char} (h : c.toNat ≤ 0x7f) :
    String.utf8EncodeChar c = [UInt8.ofNat c.toNat] := by
  have h' : c.val.toNat ≤ 0x7f := h
  simp only [String.utf8EncodeChar, if_pos h']
  rfl

theorem toNat_of_ascii {c : Char} (h : c.toNat ≤ 0x7f) : (UInt8.ofNat c.toNat).toNat = c.toNat := by
  rw [UInt8.toNat_ofNat']
  omega

/-- Every byte of a longer character is above 0x7F. -/
theorem utf8_high {c : Char} (h : ¬ c.toNat ≤ 0x7f) {b : UInt8}
    (hb : b ∈ String.utf8EncodeChar c) : isAscii b = false := by
  have h' : ¬ c.val.toNat ≤ 0x7f := h
  have hhigh : 0x80 ≤ b.toNat := by
    simp only [String.utf8EncodeChar, if_neg h'] at hb
    split at hb
    · simp only [List.mem_cons, List.not_mem_nil, or_false] at hb
      rcases hb with rfl | rfl <;> simp only [UInt8.toNat_ofNat'] <;> omega
    · split at hb
      · simp only [List.mem_cons, List.not_mem_nil, or_false] at hb
        rcases hb with rfl | rfl | rfl <;> simp only [UInt8.toNat_ofNat'] <;> omega
      · simp only [List.mem_cons, List.not_mem_nil, or_false] at hb
        rcases hb with rfl | rfl | rfl | rfl <;> simp only [UInt8.toNat_ofNat'] <;> omega
  simp only [isAscii]
  simp
  omega

/-- A character with the byte of an ASCII character is that character. -/
theorem eq_of_utf8 {c d : Char} (hd : d.toNat ≤ 0x7f)
    (h : String.utf8EncodeChar c = String.utf8EncodeChar d) : c = d := by
  rw [utf8_of_ascii hd] at h
  by_cases hc : c.toNat ≤ 0x7f
  · rw [utf8_of_ascii hc, List.cons.injEq] at h
    have hnat := congrArg UInt8.toNat h.1
    rw [toNat_of_ascii hc, toNat_of_ascii hd] at hnat
    exact Char.toNat_inj.mp hnat
  · have hhigh := utf8_high hc (b := UInt8.ofNat d.toNat)
      (by rw [h]; exact List.mem_singleton_self _)
    simp only [isAscii, toNat_of_ascii hd, decide_eq_false_iff_not] at hhigh
    exact absurd hd hhigh

theorem length_le_bytes (cs : List Char) :
    cs.length ≤ (cs.flatMap String.utf8EncodeChar).length := by
  induction cs with
  | nil => simp
  | cons c cs ih =>
      have hsize : 0 < c.utf8Size := c.utf8Size_pos
      rw [List.flatMap_cons, List.length_append, String.length_utf8EncodeChar, List.length_cons]
      omega

theorem isUpperLetter_iff {c : Char} :
    (c.val ≥ 'A'.val ∧ c.val ≤ 'Z'.val) ↔ 0x41 ≤ c.toNat ∧ c.toNat ≤ 0x5A := by
  rw [ge_iff_le, UInt32.le_iff_toNat_le, UInt32.le_iff_toNat_le]
  exact Iff.rfl

theorem toLower_of_not_upper {c : Char} (h : ¬ (0x41 ≤ c.toNat ∧ c.toNat ≤ 0x5A)) :
    c.toLower = c := by
  unfold Char.toLower
  rw [dif_neg fun hupper => h (isUpperLetter_iff.mp hupper)]

theorem toNat_toLower {c : Char} (h : 0x41 ≤ c.toNat ∧ c.toNat ≤ 0x5A) :
    c.toLower.toNat = c.toNat + 32 := by
  unfold Char.toLower
  rw [dif_pos (isUpperLetter_iff.mpr h)]
  show (c.val + ('a'.val - 'A'.val)).toNat = c.val.toNat + 32
  have hc : c.val.toNat ≤ 0x5A := h.2
  rw [UInt32.toNat_add]
  show (c.val.toNat + 32) % 2 ^ 32 = c.val.toNat + 32
  omega

/-- Lower case, byte by byte and character by character. -/
theorem strtolower_utf8 (c : Char) :
    strtolower (String.utf8EncodeChar c) = String.utf8EncodeChar c.toLower := by
  by_cases hupper : 0x41 ≤ c.toNat ∧ c.toNat ≤ 0x5A
  · have hbyte := toNat_of_ascii (show c.toNat ≤ 0x7f by omega)
    have hisUpper : isUpper (UInt8.ofNat c.toNat) = true := by
      simp only [isUpper, hbyte]
      simpa using hupper
    have hlower := toNat_toLower hupper
    rw [utf8_of_ascii (by omega), utf8_of_ascii (by omega)]
    refine congrArg (fun b => [b]) (UInt8.toNat_inj.mp ?_)
    rw [toNat_lowerByte hisUpper, hbyte, ← hlower, toNat_of_ascii (by omega)]
  · rw [toLower_of_not_upper hupper]
    refine (List.map_congr_left fun b hb => lowerByte_of_not_upper ?_).trans (List.map_id _)
    by_cases hc : c.toNat ≤ 0x7f
    · rw [utf8_of_ascii hc, List.mem_singleton] at hb
      simp only [hb, isUpper, toNat_of_ascii hc]
      simpa using hupper
    · have hhigh := utf8_high hc hb
      simp only [isAscii, isUpper, decide_eq_false_iff_not] at hhigh ⊢
      omega

theorem strtolower_bytes (s : String) :
    strtolower (bytes s) = (s.toList.map Char.toLower).flatMap String.utf8EncodeChar := by
  unfold strtolower bytes
  rw [List.map_flatMap, List.flatMap_map]
  exact congrArg (List.flatMap · _) (funext strtolower_utf8)

/-- The ASCII bytes of a text are its ASCII characters. -/
theorem filter_isAscii (cs : List Char) :
    (cs.flatMap String.utf8EncodeChar).filter isAscii
      = (cs.filter fun c => decide (c.toNat ≤ 0x7f)).map fun c => UInt8.ofNat c.toNat := by
  induction cs with
  | nil => rfl
  | cons c cs ih =>
      rw [List.flatMap_cons, List.filter_append, ih, List.filter_cons]
      by_cases hc : c.toNat ≤ 0x7f
      · have hbyte : isAscii (UInt8.ofNat c.toNat) = true := by
          simp only [isAscii, toNat_of_ascii hc]
          simpa using hc
        rw [utf8_of_ascii hc, if_pos (by simpa using hc)]
        simp [hbyte]
      · have hnone : (String.utf8EncodeChar c).filter isAscii = [] := by
          rw [List.filter_eq_nil_iff]
          intro b hb
          rw [utf8_high hc hb]
          decide
        rw [hnone, if_neg (by simpa using hc), List.nil_append]

/-- ASCII bytes that stand in a text in this order are characters that do. -/
theorem sublist_of_ascii {zs : List UInt8} {cs : List Char}
    (h : zs.Sublist (cs.flatMap String.utf8EncodeChar)) (hascii : ∀ b ∈ zs, isAscii b = true) :
    (zs.map fun b => Char.ofNat b.toNat).Sublist cs := by
  have hfilter := h.filter isAscii
  rw [List.filter_eq_self.mpr hascii, filter_isAscii] at hfilter
  obtain ⟨t, ht, rfl⟩ := List.sublist_map_iff.mp hfilter
  have hback : (t.map fun c => UInt8.ofNat c.toNat).map (fun b => Char.ofNat b.toNat) = t := by
    rw [List.map_map]
    refine (List.map_congr_left fun c hc => ?_).trans (List.map_id t)
    have hc' : c.toNat ≤ 0x7f := by simpa using (List.mem_filter.mp (ht.subset hc)).2
    show Char.ofNat (UInt8.ofNat c.toNat).toNat = c
    rw [toNat_of_ascii hc', Char.ofNat_toNat]
  rw [hback]
  exact ht.trans List.filter_sublist

end Php
