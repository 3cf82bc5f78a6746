/-
The time filter.

`filter` should keep the restaurants whose opening hours overlap the ones asked for.  It
compares the request's `HHMMSS` with the row's `HH:MM:SS` as strings, and a digit comes
before a colon, so what it compares are hours: `HHMMSS` is below `HH:MM:SS` when its hour
is the same or earlier.  The answer is right except where the end of one interval falls
in the hour in which the other begins.
-/
import Spoiler.App.Catalogue
import Spoiler.App.Sample
import Spoiler.Proofs.Hours

namespace Spoiler

open Store Php

/-! ### Hours as digits -/

/-- What a digit is, and what it spells. -/
theorem digitChar_digit {d : Nat} (h : d < 10) :
    (Nat.digitChar d).isDigit = true ∧ (Nat.digitChar d).toNat - '0'.toNat = d := by
  have hall : ∀ e : Fin 10, (Nat.digitChar e).isDigit = true ∧
      (Nat.digitChar e).toNat - '0'.toNat = e := by decide
  exact hall ⟨d, h⟩

theorem twoDigits_isDigit {n : Nat} (h : n < 100) : ∀ c ∈ twoDigits n, c.isDigit = true := by
  intro c hc
  rcases List.mem_pair.mp hc with rfl | rfl
  · exact (digitChar_digit (by omega)).1
  · exact (digitChar_digit (Nat.mod_lt n (by decide))).1

theorem natOf_twoDigits {n : Nat} (h : n < 100) : natOf (twoDigits n) = n := by
  have htens := (digitChar_digit (show n / 10 < 10 by omega)).2
  have hones := (digitChar_digit (Nat.mod_lt n (show 0 < 10 by decide))).2
  simp only [natOf, twoDigits, List.foldl_cons, List.foldl_nil, htens, hones]
  omega

/-- A stored time is no number to PHP. -/
theorem Time.num_text (t : Time) : (Value.str t.text).num? = none :=
  num_eq_none (by simp [twoDigits]) (twoDigits_isDigit t.valid.1) rfl (by simp)

/-- Six digits begin with two, and one follows. -/
theorem three_digits {v : Value} {cs : List Char} (h : Digits v cs) (hlen : cs.length = 6) :
    ∃ a b c rest, cs = a :: b :: c :: rest ∧ a.isDigit = true ∧ b.isDigit = true ∧
      c.isDigit = true := by
  obtain ⟨a, ds, rfl⟩ := List.exists_cons_of_length_eq_add_one hlen
  obtain ⟨b, es, rfl⟩ := List.exists_cons_of_length_eq_add_one (Nat.succ.inj hlen)
  obtain ⟨c, rest, rfl⟩ :=
    List.exists_cons_of_length_eq_add_one (Nat.succ.inj (Nat.succ.inj hlen))
  exact ⟨a, b, c, rest, rfl, h.digit a (by simp), h.digit b (by simp), h.digit c (by simp)⟩

/-- The hour of six digits, and a digit after it. -/
theorem six_digits {s : String} {q : Time} (h : timeColumn (.str s) = some q) :
    ∃ a b c rest, s.toList = a :: b :: c :: rest ∧ a.isDigit = true ∧ b.isDigit = true ∧
      c.isDigit = true ∧ natOf [a, b] = q.hour := by
  obtain ⟨cs, hdigits, hlen, hhour, -, -⟩ := timeColumn_digits h
  have hs : s.toList = cs := by
    have := congrArg String.toList (Option.some.inj hdigits.text)
    simpa using this
  obtain ⟨a, b, c, rest, rfl, ha, hb, hc⟩ := three_digits hdigits hlen
  exact ⟨a, b, c, rest, hs, ha, hb, hc, hhour⟩

section Compare

variable {s : String} {q t : Time} {a b c : Char} {rest : List Char}

/-- Three digits or more are below a stored time when the first two are not above its hour. -/
theorem less_text_of_digits (hs : s.toList = a :: b :: c :: rest) (ha : a.isDigit = true)
    (hb : b.isDigit = true) (hc : c.isDigit = true) :
    (Value.str s).less (.str t.text) = true ↔ natOf [a, b] ≤ t.hour := by
  have hcolon : c :: rest < ':' :: (twoDigits t.minute ++ ':' :: twoDigits t.second) := by
    rw [List.cons_lt_cons_iff, char_lt_iff]
    exact .inl (Nat.lt_of_le_of_lt (toNat_of_isDigit hc).2 (by decide))
  have hdigits := twoDigits_isDigit t.valid.1
  have hnat := natOf_twoDigits t.valid.1
  rw [Value.less_text (.inr t.num_text), hs, Time.text, String.toList_ofList]
  unfold twoDigits at hdigits hnat ⊢
  rw [List.cons_append, List.cons_append, List.nil_append,
    pair_lt ha hb (hdigits _ (by simp)) (hdigits _ (by simp)), hnat]
  simp only [twoDigits] at hcolon
  simp only [hcolon, and_true]
  omega

/-- A stored time is below them when the first two are above its hour. -/
theorem text_less_of_digits (hs : s.toList = a :: b :: c :: rest) (ha : a.isDigit = true)
    (hb : b.isDigit = true) (hc : c.isDigit = true) :
    (Value.str t.text).less (.str s) = true ↔ t.hour < natOf [a, b] := by
  have hcolon : ¬ ':' :: (twoDigits t.minute ++ ':' :: twoDigits t.second) < c :: rest := by
    have hlt : c.toNat < (':' : Char).toNat :=
      Nat.lt_of_le_of_lt (toNat_of_isDigit hc).2 (by decide)
    rw [List.cons_lt_cons_iff, char_lt_iff]
    rintro (hgt | ⟨rfl, -⟩) <;> omega
  have hdigits := twoDigits_isDigit t.valid.1
  have hnat := natOf_twoDigits t.valid.1
  rw [Value.less_text (.inl t.num_text), hs, Time.text, String.toList_ofList]
  unfold twoDigits at hdigits hnat ⊢
  rw [List.cons_append, List.cons_append, List.nil_append,
    pair_lt (hdigits _ (by simp)) (hdigits _ (by simp)) ha hb, hnat]
  simp only [twoDigits] at hcolon
  simp only [hcolon, and_false, or_false]

/-- Six digits are below a stored time when their hour is not later. -/
theorem less_text_iff (h : timeColumn (.str s) = some q) :
    (Value.str s).less (.str t.text) = true ↔ q.hour ≤ t.hour := by
  obtain ⟨a, b, c, rest, hs, ha, hb, hc, hhour⟩ := six_digits h
  rw [less_text_of_digits hs ha hb hc, hhour]

/-- A stored time is below six digits when their hour is later. -/
theorem text_less_iff (h : timeColumn (.str s) = some q) :
    (Value.str t.text).less (.str s) = true ↔ t.hour < q.hour := by
  obtain ⟨a, b, c, rest, hs, ha, hb, hc, hhour⟩ := six_digits h
  rw [text_less_of_digits hs ha hb hc, hhour]

end Compare

/-! ### The predicate -/

/-- With both times given, the predicate looks at hours only. -/
theorem openDuring_eq {c : RestaurantController.Conditions} {r : Restaurant} {s e : String}
    {qs qe : Time} (hs : c.startTime = .str s) (he : c.endTime = .str e)
    (hqs : timeColumn (.str s) = some qs) (hqe : timeColumn (.str e) = some qe) :
    RestaurantController.openDuring c r = true ↔
      if qs.hour ≤ r.startTime.hour then r.startTime.hour < qe.hour
      else qs.hour ≤ r.endTime.hour := by
  unfold RestaurantController.openDuring
  rw [hs, he]
  by_cases hbefore : qs.hour ≤ r.startTime.hour
  · rw [if_pos ((less_text_iff hqs).mpr hbefore), if_pos hbefore]
    exact text_less_iff hqe
  · rw [if_neg (fun h => hbefore ((less_text_iff hqs).mp h)), if_neg hbefore]
    exact less_text_iff hqs

/-- Neither interval ends in the hour in which the other begins, or if it does, then the
way the comparison of hours takes it to. -/
def HoursTell (qs qe rs re : Time) : Prop :=
  if qe.hour = rs.hour then ¬ (qs < re ∧ rs < qe) else qs.hour = re.hour → qs < re

instance (qs qe rs re : Time) : Decidable (HoursTell qs qe rs re) := by
  unfold HoursTell
  infer_instance

/-- Comparing hours tells whether two intervals overlap, except at their ends. -/
theorem hours_tell {qs qe rs re : Time} (hq : qs < qe) (hr : rs < re) :
    ((if qs.hour ≤ rs.hour then rs.hour < qe.hour else qs.hour ≤ re.hour) ↔
      (qs < re ∧ rs < qe)) ↔ HoursTell qs qe rs re := by
  obtain ⟨h₁, m₁, c₁, hv₁⟩ := qs
  obtain ⟨h₂, m₂, c₂, hv₂⟩ := qe
  obtain ⟨h₃, m₃, c₃, hv₃⟩ := rs
  obtain ⟨h₄, m₄, c₄, hv₄⟩ := re
  unfold HoursTell
  simp only [show ∀ s t : Time, s < t ↔ s.seconds < t.seconds from fun _ _ => Iff.rfl,
    Time.seconds] at hq hr ⊢
  split <;> split <;> omega

/-- **The time filter keeps exactly the restaurants whose hours overlap the hours asked
for, if and only if comparing the hours alone tells.** -/
theorem openDuring_iff (query : RestaurantController.Query) (r : Restaurant) (s e : String)
    (qs qe : Time) (hs : query.request.input .startTime = some (.str s))
    (he : query.request.input .endTime = some (.str e)) (hqs : timeColumn (.str s) = some qs)
    (hqe : timeColumn (.str e) = some qe) (hq : qs < qe) (hr : r.startTime < r.endTime) :
    (RestaurantController.openDuring (RestaurantController.conditions query) r = true ↔
        (qs < r.endTime ∧ r.startTime < qe)) ↔
      HoursTell qs qe r.startTime r.endTime := by
  have hstart : (RestaurantController.conditions query).startTime = .str s := by
    show (Option.filter _ (query.request.input .startTime)).getD _ = _
    rw [hs]
    rfl
  have hend : (RestaurantController.conditions query).endTime = .str e := by
    show (Option.filter _ (query.request.input .endTime)).getD _ = _
    rw [he]
    rfl
  rw [openDuring_eq hstart hend hqs hqe]
  exact hours_tell hq hr

/-- A query for the restaurants open between two times. -/
def Sample.during (start stop : String) : RestaurantController.Query where
  request := request [(.startTime, .str start), (.endTime, .str stop)]
  classes := none
  array h := absurd rfl h

theorem openDuring_morning :
    (RestaurantController.openDuring
        (RestaurantController.conditions (Sample.during "090000" "113000"))
        (Sample.restaurant "north") = true ↔
      (⟨9, 0, 0, by decide⟩ : Time) < ⟨20, 0, 0, by decide⟩ ∧
        (⟨8, 0, 0, by decide⟩ : Time) < ⟨11, 30, 0, by decide⟩) :=
  (openDuring_iff (Sample.during "090000" "113000") (Sample.restaurant "north") "090000" "113000"
    ⟨9, 0, 0, by decide⟩ ⟨11, 30, 0, by decide⟩ rfl rfl rfl rfl (by decide) (by decide)).mpr
    (by decide)

/-- A restaurant is open from eight to eight.  Asked for half past eight to ten to nine, the
filter drops it; asked for half past eight to nine in the evening, it keeps it. -/
theorem openDuring_wrong :
    (RestaurantController.openDuring
        (RestaurantController.conditions (Sample.during "083000" "085000"))
        (Sample.restaurant "north") = false ∧
      (⟨8, 30, 0, by decide⟩ : Time) < (Sample.restaurant "north").endTime ∧
      (Sample.restaurant "north").startTime < ⟨8, 50, 0, by decide⟩) ∧
    RestaurantController.openDuring
        (RestaurantController.conditions (Sample.during "203000" "210000"))
        (Sample.restaurant "north") = true ∧
      ¬ (⟨20, 30, 0, by decide⟩ : Time) < (Sample.restaurant "north").endTime := by
  decide +kernel

end Spoiler
