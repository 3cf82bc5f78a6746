/-
What the search finds.

An item is kept when `similar_text` of its name in lower case and the keyword is more than
half of the keyword's length.  Both are counted in bytes, and the keyword is taken as it is
typed.  From the first it follows that a name with the keyword in it is always found, and
that a keyword without multi-byte characters finds nothing that does not resemble it.  A
multi-byte character may match in some of its bytes only, and then what is found may have no
character of the keyword in it.  And since no name has an upper-case letter left, one in the
keyword matches nothing: a keyword finds the same in either case as long as no name has a letter
whose case is changed.
-/
import Spoiler.App.Pages
import Spoiler.App.Sample
import Spoiler.Proofs.Orders

namespace Spoiler

open Store Php

namespace FoodController

/-- The rows of a table a keyword finds. -/
def results {ρ : Type} (s : List UInt8) (name : ρ → String) (t : Table ρ) : List (Nat × ρ) :=
  t.filter fun _ r => !searches s || similar s (name r)

theorem search_answer (db : Database) (s : List UInt8) :
    ((search s).serve db).answer = .ok (json (.found (results s Restaurant.name db.restaurants)
      (results s Food.name db.foods)) 200) := by
  have hall : ∀ {ρ : Type} (t : Table ρ), t.filter (fun _ _ => true) = t.rows :=
    fun t => List.filter_eq_self.mpr fun _ _ => rfl
  unfold search results Prog.serve
  simp only [Model.whereGet, Prog.select_bind, Prog.ret_bind, Prog.exec_select, Conn.view_idle,
    Conn.looked_idle, hall]
  cases hs : searches s with
  | true =>
      simp only [Bool.not_true, Bool.false_or]
      rfl
  | false =>
      simp only [Bool.not_false, Bool.true_or, hall]
      rfl

end FoodController

/-! ### Literal matches -/

section Literal

variable {ρ : Type}

/-- Every row whose name in lower case has the keyword in it, in table order and once. -/
structure Finds (t : Table ρ) (name : ρ → String) (s : List UInt8) (found : List (Nat × ρ)) :
    Prop where
  all : ∀ i r, t.row i = some r → s <:+: strtolower (bytes (name r)) → (i, r) ∈ found
  order : found.Sublist t.rows
  once : found.Nodup

theorem similar_of_literal {s : List UInt8} {name : String} (hs : s ≠ [])
    (h : s <:+: strtolower (bytes name)) : FoodController.similar s name = true := by
  have hlong := length_le_similarText h
  have hpos := List.length_pos_iff.mpr hs
  simp only [FoodController.similar, decide_eq_true_eq]
  omega

theorem finds_results (t : Table ρ) (name : ρ → String) (s : List UInt8) :
    Finds t name s (FoodController.results s name t) where
  all i r hrow h := by
    refine Table.mem_filter.mpr ⟨hrow, ?_⟩
    by_cases hs : s = []
    · simp [FoodController.searches, hs]
    · simp [similar_of_literal hs h]
  order := List.filter_sublist
  once := t.filter_nodup _

/-- **The search finds every literal match.** -/
theorem search_finds (db : Database) (s : List UInt8) :
    ∃ restaurants foods, ((FoodController.search s).serve db).answer
        = .ok (json (.found restaurants foods) 200) ∧
      Finds db.restaurants Restaurant.name s restaurants ∧ Finds db.foods Food.name s foods :=
  ⟨_, _, FoodController.search_answer db s, finds_results _ _ s, finds_results _ _ s⟩

end Literal

/-! ### Letter case -/

/-- The name of a restaurant or a food. -/
def Named (db : Database) (name : String) : Prop :=
  (∃ i r, db.restaurants.row i = some r ∧ r.name = name) ∨
    ∃ i r, db.foods.row i = some r ∧ r.name = name

/-- The name has, in lower case, a letter in whose case the keywords differ. -/
def Touched (s s' : List UInt8) (name : String) : Prop :=
  ∃ x ∈ s.zip s', x.1 ≠ x.2 ∧ lowerByte x.1 ∈ strtolower (bytes name)

instance (s s' : List UInt8) (name : String) : Decidable (Touched s s' name) :=
  inferInstanceAs (Decidable (∃ x ∈ s.zip s', x.1 ≠ x.2 ∧ lowerByte x.1 ∈ strtolower (bytes name)))

/-- To a name without such a letter the two keywords are the same. -/
theorem sameTo_of_not_touched {s s' : List UInt8} {name : String}
    (hcase : strtolower s = strtolower s') (h : ¬ Touched s s' name) :
    SameTo (strtolower (bytes name)) s s' := by
  have hpairs : List.Forall₂ (· = ·) (s.map lowerByte) (s'.map lowerByte) := by
    rw [List.forall₂_eq_eq_eq]
    exact hcase
  rw [List.forall₂_map_left_iff, List.forall₂_map_right_iff] at hpairs
  obtain ⟨hlen, hlower⟩ := List.forall₂_iff_zip.mp hpairs
  refine List.forall₂_iff_zip.mpr ⟨hlen, fun {y y'} hmem b hb => ?_⟩
  by_cases heq : y = y'
  · rw [heq]
  · -- one of the two is the upper-case letter and the other is not in the name
    have hnot : lowerByte y ∉ strtolower (bytes name) := fun hy => h ⟨(y, y'), hmem, heq, hy⟩
    have hb' : lowerByte b = b := by
      obtain ⟨c, -, rfl⟩ := List.mem_map.mp hb
      exact lowerByte_of_not_upper (not_upper_lowerByte c)
    refine iff_of_false ?_ ?_
    · rintro rfl
      rw [hb'] at hnot
      exact hnot hb
    · rintro rfl
      rw [hlower hmem, hb'] at hnot
      exact hnot hb

theorem similar_of_not_touched {s s' : List UInt8} {name : String}
    (hcase : strtolower s = strtolower s') (h : ¬ Touched s s' name) :
    FoodController.similar s name = FoodController.similar s' name := by
  have hsame := sameTo_of_not_touched hcase h
  unfold FoodController.similar
  rw [hsame.similarText, List.Forall₂.length_eq hsame]

/-- A keyword that does not count as one has no letters. -/
theorem eq_of_not_searches {s s' : List UInt8} (hcase : strtolower s = strtolower s')
    (h : FoodController.searches s = false) : s' = s := by
  have hs : s = [] ∨ s = [0x30] := by
    simpa [FoodController.searches, bytes, String.utf8EncodeChar, imp_iff_not_or] using h
  rcases hs with rfl | rfl
  · simpa [strtolower] using hcase.symm
  · obtain ⟨b, rfl, hb⟩ : ∃ b, s' = [b] ∧ lowerByte b = 0x30 := by
      cases s' with
      | nil => cases hcase
      | cons b rest =>
          simp only [strtolower, List.map_cons, List.map_nil, List.cons.injEq] at hcase
          exact ⟨b, by rw [List.map_eq_nil_iff.mp hcase.2.symm], hcase.1.symm⟩
    cases hupper : isUpper b with
    | false => rw [← hb, lowerByte_of_not_upper hupper]
    | true =>
        have hnat := toNat_lowerByte hupper
        rw [hb] at hnat
        simp only [isUpper, decide_eq_true_eq] at hupper
        have h30 : (0x30 : UInt8).toNat = 48 := rfl
        omega

theorem results_congr {ρ : Type} {s s' : List UInt8} {name : ρ → String} {t : Table ρ}
    (hcase : strtolower s = strtolower s')
    (h : ∀ i r, t.row i = some r → ¬ Touched s s' (name r)) :
    FoodController.results s name t = FoodController.results s' name t := by
  cases hs : FoodController.searches s with
  | false => rw [eq_of_not_searches hcase hs]
  | true =>
      have hs' : FoodController.searches s' = true := by
        cases hs' : FoodController.searches s' with
        | true => rfl
        | false =>
            rw [eq_of_not_searches hcase.symm hs', hs'] at hs
            exact hs
      unfold FoodController.results
      rw [hs, hs']
      refine List.filter_congr fun x hx => ?_
      dsimp only
      rw [similar_of_not_touched hcase (h x.1 x.2 (Table.mem_rows.mp hx))]

/-- **Two keywords that differ in the case of letters find the same, if no name has one of
these letters.** -/
theorem search_case_same (db : Database) (s s' : List UInt8)
    (hcase : strtolower s = strtolower s')
    (hletters : ∀ name, Named db name → ¬ Touched s s' name) :
    ((FoodController.search s).serve db).answer = ((FoodController.search s').serve db).answer := by
  have hrestaurants : FoodController.results s Restaurant.name db.restaurants
      = FoodController.results s' Restaurant.name db.restaurants :=
    results_congr hcase fun i r hrow => hletters r.name (.inl ⟨i, r, hrow, rfl⟩)
  have hfoods : FoodController.results s Food.name db.foods
      = FoodController.results s' Food.name db.foods :=
    results_congr hcase fun i r hrow => hletters r.name (.inr ⟨i, r, hrow, rfl⟩)
  rw [FoodController.search_answer, FoodController.search_answer, hrestaurants, hfoods]

theorem Sample.named_shelf {name : String} (h : Named Sample.shelf name) :
    name = "north" ∨ name = "south" ∨ name = "bread" := by
  rcases h with ⟨i, r, hrow, rfl⟩ | ⟨i, r, hrow, rfl⟩
  · have hmem : (i, r) ∈ Sample.shelf.restaurants.rows := Table.mem_rows.mpr hrow
    have hrows : Sample.shelf.restaurants.rows
        = [(1, Sample.restaurant "north"), (2, Sample.restaurant "south")] := by decide +kernel
    rw [hrows] at hmem
    simp only [List.mem_cons, List.not_mem_nil, or_false, Prod.mk.injEq] at hmem
    rcases hmem with ⟨-, rfl⟩ | ⟨-, rfl⟩
    · exact .inl rfl
    · exact .inr (.inl rfl)
  · have hmem : (i, r) ∈ Sample.shelf.foods.rows := Table.mem_rows.mpr hrow
    have hrows : Sample.shelf.foods.rows = [(1, ⟨"bread", 5, 100, 50, none, 1⟩)] := by
      decide +kernel
    rw [hrows] at hmem
    simp only [List.mem_cons, List.not_mem_nil, or_false, Prod.mk.injEq] at hmem
    rw [hmem.2]
    exact .inr (.inr rfl)

/-- A letter that no name has may be typed in either case. -/
theorem search_case_unused :
    ((FoodController.search (bytes "breadZ")).serve Sample.shelf).answer
      = ((FoodController.search (bytes "breadz")).serve Sample.shelf).answer :=
  search_case_same Sample.shelf (bytes "breadZ") (bytes "breadz") (by decide +kernel) (by
    intro name hnamed
    have hname : name = "north" ∨ name = "south" ∨ name = "bread" := Sample.named_shelf hnamed
    rcases hname with rfl | rfl | rfl
    all_goals decide +kernel)

/-- In capitals the name of the bread does not find it. -/
theorem search_case_differs :
    strtolower (bytes "BREAD") = strtolower (bytes "bread") ∧
      ((FoodController.search (bytes "BREAD")).serve Sample.shelf).answer
        ≠ ((FoodController.search (bytes "bread")).serve Sample.shelf).answer := by
  refine ⟨by decide +kernel, fun h => ?_⟩
  rw [FoodController.search_answer, FoodController.search_answer] at h
  simp only [json, Except.ok.injEq, Response.mk.injEq, Payload.found.injEq, true_and] at h
  have hlen := congrArg List.length h.2
  exact absurd hlen (by decide +kernel)

/-! ### Resemblance -/

/-- More than half of the keyword's characters stand in the name, in lower case, in the order
of the keyword. -/
def Resembles (s name : String) : Prop :=
  ∃ t : List Char, t.Sublist (name.toList.map Char.toLower) ∧ t.Sublist s.toList ∧
    s.toList.length < 2 * t.length

/-- The name shares a byte of a multi-byte character with the keyword. -/
def SharesHigh (s name : String) : Prop :=
  ∃ b ∈ bytes s, isAscii b = false ∧ b ∈ strtolower (bytes name)

/-- Where only ASCII bytes can match, a byte is a character, and the score counts common
characters. -/
theorem resembles_of_similar {s name : String} (hshare : ¬ SharesHigh s name)
    (h : FoodController.similar (bytes s) name = true) : Resembles s name := by
  obtain ⟨zs, hname, hkeyword, hlen⟩ := similarText_sublist (strtolower (bytes name)) (bytes s)
  have hascii : ∀ b ∈ zs, isAscii b = true := by
    intro b hb
    by_contra hhigh
    exact hshare ⟨b, hkeyword.subset hb, by simpa using hhigh, hname.subset hb⟩
  rw [strtolower_bytes] at hname
  refine ⟨_, sublist_of_ascii hname hascii, sublist_of_ascii hkeyword hascii, ?_⟩
  have hbytes := length_le_bytes s.toList
  simp only [FoodController.similar, decide_eq_true_eq] at h
  rw [List.length_map, hlen]
  exact Nat.lt_of_le_of_lt hbytes h

/-- Only the empty keyword and the digit zero do not count as one. -/
theorem searches_bytes {s : String} (hne : s ≠ "") (hzero : s ≠ "0") :
    FoodController.searches (bytes s) = true := by
  have hlen : s.toList.length ≤ (bytes s).length := length_le_bytes s.toList
  have hcons : s.toList ≠ [] := fun hnil => hne (String.toList_inj.mp hnil)
  have hnil : bytes s ≠ [] := by
    intro hbytes
    rw [hbytes, List.length_nil, Nat.le_zero] at hlen
    exact hcons (List.eq_nil_of_length_eq_zero hlen)
  have hdigit : bytes s ≠ bytes "0" := by
    intro hbytes
    rw [hbytes] at hlen
    obtain ⟨c, hs⟩ : ∃ c, s.toList = [c] :=
      List.length_eq_one_iff.mp (Nat.le_antisymm hlen (List.length_pos_iff.mpr hcons))
    have hc : String.utf8EncodeChar c = String.utf8EncodeChar '0' := by
      simpa [bytes, hs] using hbytes
    rw [eq_of_utf8 (by decide) hc] at hs
    exact hzero (String.toList_inj.mp hs)
  simp [FoodController.searches, hnil, hdigit]

theorem toLower_eq_zero {c : Char} : c.toLower = '0' ↔ c = '0' := by
  by_cases hupper : 0x41 ≤ c.toNat ∧ c.toNat ≤ 0x5A
  · refine iff_of_false ?_ ?_
    · intro h
      have hnat := toNat_toLower hupper
      rw [h] at hnat
      have h30 : '0'.toNat = 48 := rfl
      omega
    · rintro rfl
      have h30 : '0'.toNat = 48 := rfl
      omega
  · rw [toLower_of_not_upper hupper]

theorem resembles_zero {name : String} : Resembles "0" name ↔ '0' ∈ name.toList := by
  have hlower : '0' ∈ name.toList.map Char.toLower ↔ '0' ∈ name.toList := by
    simp [List.mem_map, toLower_eq_zero]
  rw [← hlower]
  constructor
  · rintro ⟨t, hname, hkeyword, hlen⟩
    obtain ⟨c, hc⟩ := List.exists_mem_of_length_pos (show 0 < t.length by omega)
    have hzero : c = '0' := by simpa using hkeyword.subset hc
    rw [← hzero]
    exact hname.subset hc
  · intro h
    exact ⟨['0'], List.singleton_sublist.mpr h, List.Sublist.refl _, by decide⟩

/-- What is found resembles the keyword. -/
def FindsResembling (db : Database) (s : String) : Prop :=
  ∀ restaurants foods, ((FoodController.search (bytes s)).serve db).answer
      = .ok (json (.found restaurants foods) 200) →
    (∀ x ∈ restaurants, Resembles s x.2.name) ∧ ∀ x ∈ foods, Resembles s x.2.name

theorem findsResembling_iff {db : Database} {s : String} :
    FindsResembling db s ↔ ∀ name, Named db name →
      (FoodController.searches (bytes s) = true → FoodController.similar (bytes s) name = true) →
        Resembles s name := by
  have hkept : ∀ name, (!FoodController.searches (bytes s) ||
      FoodController.similar (bytes s) name) = true ↔
      (FoodController.searches (bytes s) = true →
        FoodController.similar (bytes s) name = true) := by
    intro name
    cases FoodController.searches (bytes s) <;> simp
  unfold FindsResembling
  rw [FoodController.search_answer]
  constructor
  · intro h name hnamed hfound
    obtain ⟨hrestaurants, hfoods⟩ := h _ _ rfl
    rcases hnamed with ⟨i, r, hrow, rfl⟩ | ⟨i, r, hrow, rfl⟩
    · exact hrestaurants (i, r) (Table.mem_filter.mpr ⟨hrow, (hkept _).mpr hfound⟩)
    · exact hfoods (i, r) (Table.mem_filter.mpr ⟨hrow, (hkept _).mpr hfound⟩)
  · intro h restaurants foods hanswer
    cases hanswer
    refine ⟨fun x hx => ?_, fun x hx => ?_⟩
    · obtain ⟨hrow, hfound⟩ := Table.mem_filter.mp hx
      exact h _ (.inl ⟨x.1, x.2, hrow, rfl⟩) ((hkept _).mp hfound)
    · obtain ⟨hrow, hfound⟩ := Table.mem_filter.mp hx
      exact h _ (.inr ⟨x.1, x.2, hrow, rfl⟩) ((hkept _).mp hfound)

/-- **What a keyword finds resembles it, if no name shares a byte of a multi-byte character
with it.  The digit zero finds everything, which resembles it if and only if every name has
one.** -/
theorem search_resembles (db : Database) (s : String) (hne : s ≠ "") :
    (s = "0" → (FindsResembling db s ↔ ∀ name, Named db name → '0' ∈ name.toList)) ∧
      (s ≠ "0" → (∀ name, Named db name → ¬ SharesHigh s name) → FindsResembling db s) := by
  rw [findsResembling_iff]
  constructor
  · rintro rfl
    have hall : FoodController.searches (bytes "0") = false := by decide
    simp only [hall, Bool.false_eq_true, false_implies, true_implies, resembles_zero]
  · intro hzero hbytes name hnamed hsimilar
    exact resembles_of_similar (hbytes name hnamed) (hsimilar (searches_bytes hne hzero))

/-- The bread is found by a keyword close to its name. -/
theorem search_resembles_breads : FindsResembling Sample.shelf "breads" :=
  (search_resembles Sample.shelf "breads" (by decide)).2 (by decide) (by
    rintro name - ⟨b, hb, hhigh, -⟩
    have hascii : ∀ b ∈ bytes "breads", isAscii b = true := by decide +kernel
    rw [hascii b hb] at hhigh
    cases hhigh)

/-- A food under another name. -/
def Sample.food (name : String) : Database :=
  { Sample.database with foods := Table.empty.insert ⟨name, 5, 100, 50, none, 1⟩ }

/-- Rice finds a drink: of the three bytes of `飯` the first two are those of `飲`. -/
theorem search_resembles_nothing : ¬ FindsResembling (Sample.food "飲料") "飯" := by
  intro h
  obtain ⟨-, hfoods⟩ := h _ _ (FoodController.search_answer _ _)
  obtain ⟨t, hname, hkeyword, hlen⟩ := hfoods (1, ⟨"飲料", 5, 100, 50, none, 1⟩) (by decide +kernel)
  obtain ⟨c, hc⟩ := List.exists_mem_of_length_pos (show 0 < t.length by omega)
  have hrice : c = '飯' := by simpa using hkeyword.subset hc
  have hdrink := hname.subset hc
  rw [hrice] at hdrink
  exact absurd hdrink (by decide +kernel)

end Spoiler
