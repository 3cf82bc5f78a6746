/-
Leaving conditions out of the filter.

A condition the request does not set is filled with a default that should let everything
through.  Those for the end time, the stock, the distance and the classes do.  The start
time defaults to the number 0, which PHP compares with the hour of `HH:MM:SS` as a number,
and 0 is not below the hour 0: to leave the start time out is to ask from one o'clock on.

Both a stored time and a start or end time only come in by their hour, so the file first
says what hour each of the values stands for.
-/
import Spoiler.App.Sample
import Spoiler.Proofs.Likes
import Spoiler.Proofs.Overlap

namespace Spoiler

open Store Php

/-! ### What the times compare as -/

/-- The hour six digits are compared with a stored hour by.  A number of six digits is above
every hour. -/
def clockHour : Value → Nat
  | .str s => natOf (s.toList.take 2)
  | _ => 100

theorem digits_of_passes (db : Database) {v : Value} (h : (Rule.digits 6).passes db v = true) :
    ∃ cs, Digits v cs ∧ cs.length = 6 := by
  cases hv : v.text with
  | none => simp [Rule.digits, hv] at h
  | some s =>
      simp only [Rule.digits, hv, Bool.and_eq_true, List.all_eq_true, beq_iff_eq] at h
      refine ⟨s.toList, ⟨by rw [hv, String.ofList_toList], h.1, ?_⟩, h.2⟩
      rw [h.2]
      decide

theorem Time.lead_text (t : Time) : (Value.str t.text).lead = some ⟨t.hour, 0⟩ := by
  have h : leading (twoDigits t.hour ++ ':' :: (twoDigits t.minute ++ ':' :: twoDigits t.second))
      = some (⟨natOf (twoDigits t.hour), 0⟩, _) :=
    leading_append (by simp [twoDigits]) (twoDigits_isDigit t.valid.1) rfl
  simp only [Value.lead, Time.text, String.toList_ofList, h, natOf_twoDigits t.valid.1,
    Option.map_some, Option.getD_some]

section Given

variable {v : Value} {cs : List Char} {t : Time}

theorem clockHour_str (hv : v = .str (String.ofList cs)) : clockHour v = natOf (cs.take 2) := by
  rw [hv]
  simp [clockHour]

/-- A number of six digits is not a string. -/
theorem number_of_not_str (h : Digits v cs) (hlen : cs.length = 6)
    (hv : v ≠ .str (String.ofList cs)) :
    (∀ s, v ≠ .str s) ∧ clockHour v = 100 ∧ 100 ≤ natOf cs := by
  have hstr : ∀ s, v ≠ .str s := by
    rintro s rfl
    exact hv (congrArg Value.str (Option.some.inj h.text))
  refine ⟨hstr, ?_, ?_⟩
  · cases v with
    | str s => exact absurd rfl (hstr s)
    | null => rfl
    | bool b => rfl
    | int n => rfl
    | dec x => rfl
    | file ext url => rfl
  · rcases h.str_or_le with hv' | hle
    · exact absurd hv' hv
    · rw [hlen] at hle
      exact Nat.le_trans (by decide) hle

theorem less_text_clockHour (h : Digits v cs) (hlen : cs.length = 6) :
    v.less (.str t.text) = true ↔ clockHour v ≤ t.hour := by
  by_cases hv : v = .str (String.ofList cs)
  · rw [clockHour_str hv, hv]
    obtain ⟨a, b, c, rest, rfl, ha, hb, hc⟩ := three_digits h hlen
    exact less_text_of_digits (String.toList_ofList ..) ha hb hc
  · obtain ⟨hstr, hhour, hle⟩ := number_of_not_str h hlen hv
    have hcmp := (Value.cmp_number hstr h.num_eq.1 t.lead_text).1
    have hvalid := t.valid.1
    unfold Value.less
    rw [hhour, hcmp, Num.cmp_whole]
    simp only [beq_iff_eq, compare_lt_iff_lt]
    omega

theorem text_less_clockHour (h : Digits v cs) (hlen : cs.length = 6) :
    (Value.str t.text).less v = true ↔ t.hour < clockHour v := by
  by_cases hv : v = .str (String.ofList cs)
  · rw [clockHour_str hv, hv]
    obtain ⟨a, b, c, rest, rfl, ha, hb, hc⟩ := three_digits h hlen
    exact text_less_of_digits (String.toList_ofList ..) ha hb hc
  · obtain ⟨hstr, hhour, hle⟩ := number_of_not_str h hlen hv
    have hcmp := (Value.cmp_number hstr h.num_eq.1 t.lead_text).2
    have hvalid := t.valid.1
    unfold Value.less
    rw [hhour, hcmp, Num.cmp_whole]
    simp only [beq_iff_eq, compare_lt_iff_lt]
    omega

/-- Of two values in the order of `gt` the hours are in order. -/
theorem clockHour_le {db : Database} {w : Value} {ds : List Char} (h : Digits v cs)
    (hlen : cs.length = 6) (h' : Digits w ds) (hlen' : ds.length = 6)
    (hgt : (Rule.gt v).passes db w = true) : clockHour v < 100 → clockHour v ≤ clockHour w := by
  intro hv
  have hsplit : ∀ {cs : List Char}, cs.length = 6 → natOf cs = 10 ^ 4 * natOf (cs.take 2)
      + natOf (cs.drop 2) := by
    intro cs hlen
    have := natOf_append (cs.take 2) (cs.drop 2)
    rwa [List.take_append_drop, List.length_drop, hlen] at this
  simp only [Rule.gt, h.num_eq.1, h'.num_eq.1, decide_eq_true_eq, pow_zero, mul_one] at hgt
  have hrest : natOf (ds.drop 2) < 10 ^ (ds.drop 2).length :=
    natOf_lt fun c hc => h'.digit c (List.mem_of_mem_drop hc)
  rw [List.length_drop, hlen'] at hrest
  by_cases hstr : v = .str (String.ofList cs)
  · by_cases hstr' : w = .str (String.ofList ds)
    · rw [clockHour_str hstr, clockHour_str hstr']
      have := hsplit hlen
      have := hsplit hlen'
      omega
    · rw [(number_of_not_str h' hlen' hstr').2.1]
      exact Nat.le_of_lt hv
  · rw [(number_of_not_str h hlen hstr).2.1] at hv
    exact absurd hv (by decide)

end Given

/-! ### The hours a query asks for -/

namespace RestaurantController

variable {metres : Value → Value → String → String → Nat} {db : Database} {query : Query}

/-- The request passes validation. -/
def Query.Accepted (db : Database) (query : Query) : Prop :=
  failed db query.request.input (filterRules query.request) ++
    blankClasses (query.classes.getD []) = []

/-- The hour the query starts at.  The default start time is below the hour 1 and not below
the hour 0. -/
def startHour (query : Query) : Nat := ((isset query.request .startTime).map clockHour).getD 1

/-- The hour the query ends at.  The default end time is above every hour. -/
def endHour (query : Query) : Nat := ((isset query.request .endTime).map clockHour).getD 100

theorem input_of_isset {request : Request} {a : Attr} {v : Value}
    (h : isset request a = some v) : request.input a = some v :=
  (Option.filter_eq_some_iff.mp h).1

theorem digits_of_accepted (h : query.Accepted db) {a : Attr} (rules : List Rule) {v : Value}
    (hrule : (a, rules) ∈ filterRules query.request) (hdigits : .digits 6 ∈ rules)
    (ha : a ∉ untrimmed) (hv : isset query.request a = some v) :
    ∃ cs, Digits v cs ∧ cs.length = 6 :=
  digits_of_passes db (passes_of_input (List.append_eq_nil_iff.mp h).1 hrule hdigits ha
    (input_of_isset hv))

theorem start_digits (h : query.Accepted db) {v : Value}
    (hv : isset query.request .startTime = some v) : ∃ cs, Digits v cs ∧ cs.length = 6 :=
  digits_of_accepted h [.digits 6] (by simp [filterRules]) (by simp) (by decide) hv

theorem end_digits (h : query.Accepted db) {v : Value}
    (hv : isset query.request .endTime = some v) : ∃ cs, Digits v cs ∧ cs.length = 6 :=
  digits_of_accepted h ([.digits 6] ++ sometimesIsset query.request) (by simp [filterRules])
    (by simp) (by decide) hv

theorem start_less (h : query.Accepted db) (t : Time) :
    (conditions query).startTime.less (.str t.text) = true ↔ startHour query ≤ t.hour := by
  unfold startHour conditions
  dsimp only
  cases hv : isset query.request .startTime with
  | none =>
      have hcmp : (Value.int 0).cmp (.str t.text) = compare 0 (t.hour : Int) :=
        (Value.cmp_number (by simp) rfl t.lead_text).1.trans (Num.cmp_whole _ _)
      unfold Value.less
      rw [Option.getD_none, Option.map_none, Option.getD_none, hcmp]
      simp only [beq_iff_eq, compare_lt_iff_lt]
      omega
  | some v =>
      obtain ⟨cs, hdigits, hlen⟩ := start_digits h hv
      exact less_text_clockHour hdigits hlen

theorem less_end (h : query.Accepted db) (t : Time) :
    (Value.str t.text).less (conditions query).endTime = true ↔ t.hour < endHour query := by
  unfold endHour conditions
  dsimp only
  cases hv : isset query.request .endTime with
  | none =>
      have hcmp : (Value.str t.text).cmp (.int 2400) = compare (t.hour : Int) 2400 :=
        (Value.cmp_number (by simp) rfl t.lead_text).2.trans (Num.cmp_whole _ _)
      have hvalid := t.valid.1
      unfold Value.less
      rw [Option.getD_none, Option.map_none, Option.getD_none, hcmp]
      simp only [beq_iff_eq, compare_lt_iff_lt]
      omega
  | some v =>
      obtain ⟨cs, hdigits, hlen⟩ := end_digits h hv
      exact text_less_clockHour hdigits hlen

/-- **An accepted query is compared with a row hour by hour.** -/
theorem openDuring_hours (h : query.Accepted db) (r : Restaurant) :
    openDuring (conditions query) r = true ↔
      if startHour query ≤ r.startTime.hour then r.startTime.hour < endHour query
      else startHour query ≤ r.endTime.hour := by
  unfold openDuring
  by_cases hbefore : startHour query ≤ r.startTime.hour
  · rw [if_pos ((start_less h _).mpr hbefore), if_pos hbefore]
    exact less_end h _
  · rw [if_neg (fun hless => hbefore ((start_less h _).mp hless)), if_neg hbefore]
    exact start_less h _

/-- A start time that is given, and below some hour at all, is not after the end time. -/
theorem startHour_le (h : query.Accepted db) {v : Value}
    (hv : isset query.request .startTime = some v) (hlt : clockHour v < 100) :
    clockHour v ≤ endHour query := by
  unfold endHour
  cases hw : isset query.request .endTime with
  | none => exact Nat.le_of_lt hlt
  | some w =>
      obtain ⟨cs, hdigits, hlen⟩ := start_digits h hv
      obtain ⟨ds, hdigits', hlen'⟩ := end_digits h hw
      have hget : query.request.get .startTime = v := by simp [Request.get, input_of_isset hv]
      have hrule : (Attr.endTime, [Rule.digits 6] ++ sometimesIsset query.request)
          ∈ filterRules query.request := by
        simp [filterRules]
      have hgt : (Rule.gt v).passes db w = true :=
        passes_of_input (List.append_eq_nil_iff.mp h).1 hrule
          (by simp [sometimesIsset, hv, hget]) (by decide) (input_of_isset hw)
      exact clockHour_le hdigits hlen hdigits' hlen' hgt hlt

/-! ### What a query returns -/

/-- The restaurants an answer of the filter lists. -/
def returned : Except Exn Response → List Nat
  | .ok ⟨_, .listings entries⟩ => entries.map Listing.id
  | _ => []

/-- The restaurant is as near as the query asks for. -/
def inRange (metres : Value → Value → String → String → Nat) (c : Conditions) (r : Restaurant) :
    Bool :=
  (Value.dec (distance metres c r)).lessEq c.searchRange

theorem mem_returned (h : query.Accepted db) {i : Nat} :
    i ∈ returned ((filter metres query).serve db).answer ↔
      ∃ r, db.restaurants.row i = some r ∧ clause (conditions query) db i r = true ∧
        inRange metres (conditions query) r = true ∧ openDuring (conditions query) r = true := by
  have hmem : i ∈ (kept metres (conditions query)
      (entries db (clause (conditions query)) false)).map Listing.id ↔
      ∃ r, db.restaurants.row i = some r ∧ clause (conditions query) db i r = true ∧
        inRange metres (conditions query) r = true ∧
        openDuring (conditions query) r = true := by
    simp only [kept, entries, List.mem_map, List.mem_filter]
    constructor
    · rintro ⟨e, ⟨⟨⟨x, ⟨y, hy, rfl⟩, rfl⟩, hrange⟩, hopen⟩, rfl⟩
      obtain ⟨hrow, hclause⟩ := Table.mem_filter.mp hy
      exact ⟨y.2, hrow, hclause, hrange, hopen⟩
    · rintro ⟨r, hrow, hclause, hrange, hopen⟩
      exact ⟨_, ⟨⟨⟨_, ⟨(i, r), Table.mem_filter.mpr ⟨hrow, hclause⟩, rfl⟩, rfl⟩, hrange⟩,
        hopen⟩, rfl⟩
  rw [← hmem, filter_answer]
  unfold Query.Accepted at h
  rw [h]
  dsimp only
  split
  · rename_i hempty
    rw [List.isEmpty_iff.mp hempty]
    rfl
  · rfl

/-! ### Conditions left out -/

/-- The conditions that may be left out. -/
def optional : List Attr := [.startTime, .endTime, .onlyRemaining, .searchRange, .«class»]

/-- The query without some of its conditions. -/
def Query.without (query : Query) (drop : List Attr) : Query where
  request :=
    { input := fun a => if a ∈ drop then none else query.request.input a
      clean := by
        intro a v h
        split at h
        · cases h
        · exact query.request.clean a v h }
  classes := if .«class» ∈ drop then none else query.classes
  array := by
    intro h
    by_cases hclass : Attr.«class» ∈ drop
    · exact absurd (if_pos hclass) h
    · rw [if_neg hclass] at h
      show (if Attr.«class» ∈ drop then none else query.request.input .«class») = none
      rw [if_neg hclass]
      exact query.array h

section Without

variable {drop : List Attr}

theorem isset_without (a : Attr) :
    isset (query.without drop).request a = if a ∈ drop then none else isset query.request a := by
  unfold isset Query.without
  dsimp only
  split <;> rfl

/-- The coordinates stay, and so does the distance. -/
theorem distance_without (hdrop : drop ⊆ optional) (r : Restaurant) :
    distance metres (conditions (query.without drop)) r = distance metres (conditions query) r := by
  have hnorth : Attr.userNorthLatitude ∉ drop := fun h => absurd (hdrop h) (by decide)
  have heast : Attr.userEastLongitude ∉ drop := fun h => absurd (hdrop h) (by decide)
  unfold distance conditions
  simp only [isset_without, if_neg hnorth, if_neg heast]

/-- The default range takes in every distance there is. -/
theorem inRange_without (hmetres : ∀ a b c d, metres a b c d ≤ 100000000)
    (hdrop : drop ⊆ optional) {r : Restaurant}
    (h : inRange metres (conditions query) r = true) :
    inRange metres (conditions (query.without drop)) r = true := by
  unfold inRange at h ⊢
  rw [distance_without hdrop]
  by_cases hrange : Attr.searchRange ∈ drop
  · have hdefault : (conditions (query.without drop)).searchRange = .int 100000 := by
      simp only [conditions, isset_without, if_pos hrange, Option.getD_none]
    rw [hdefault]
    have hle := hmetres (conditions query).userNorthLatitude (conditions query).userEastLongitude
      r.northLatitude r.eastLongitude
    simp only [Value.lessEq, Value.cmp, Value.lead, Php.Num.cmp, Php.Num.ofInt, distance,
      getDistance, bne_iff_ne, ne_eq, compare_gt_iff_gt]
    omega
  · have hsame : (conditions (query.without drop)).searchRange
        = (conditions query).searchRange := by
      simp only [conditions, isset_without, if_neg hrange]
    rw [hsame]
    exact h

/-- Without a condition on the stock or the classes the database is asked for more. -/
theorem clause_without {i : Nat} {r : Restaurant}
    (h : clause (conditions query) db i r = true) :
    clause (conditions (query.without drop)) db i r = true := by
  unfold clause at h ⊢
  simp only [Bool.and_eq_true] at h ⊢
  constructor
  · by_cases hstock : Attr.onlyRemaining ∈ drop
    · have hdefault : (conditions (query.without drop)).onlyRemaining = .bool false := by
        simp only [conditions, isset_without, if_pos hstock, Option.getD_none]
      rw [hdefault]
      rfl
    · have hsame : (conditions (query.without drop)).onlyRemaining
          = (conditions query).onlyRemaining := by
        simp only [conditions, isset_without, if_neg hstock]
      rw [hsame]
      exact h.1
  · by_cases hclass : Attr.«class» ∈ drop
    · have hdefault : (conditions (query.without drop)).classes = [] := by
        simp [conditions, Query.without, hclass]
      simp [inClass, hdefault]
    · have hsame : (conditions (query.without drop)).classes = (conditions query).classes := by
        simp only [conditions, Query.without, if_neg hclass]
      unfold inClass
      rw [hsame]
      exact h.2

theorem startHour_without :
    startHour (query.without drop) = if .startTime ∈ drop then 1 else startHour query := by
  unfold startHour
  rw [isset_without]
  split <;> rfl

theorem endHour_without :
    endHour (query.without drop) = if .endTime ∈ drop then 100 else endHour query := by
  unfold endHour
  rw [isset_without]
  split <;> rfl

/-- The hours alone: with a start at one, a row goes missing only when it opens and closes in
the hour 0 and that was the hour to start at. -/
theorem hours_from_one {start stop stop' opens closes : Nat}
    (hopen : if start ≤ opens then opens < stop else start ≤ closes)
    (horder : start ≤ closes → start ≤ 1 ∨ start ≤ stop) (hstop : opens < stop → opens < stop') :
    (if 1 ≤ opens then opens < stop' else 1 ≤ closes) ↔
      ¬ (start = 0 ∧ opens = 0 ∧ closes = 0) := by
  split at hopen <;> split <;> omega

theorem openDuring_without (h : query.Accepted db) (h' : (query.without drop).Accepted db)
    {r : Restaurant} (hopen : openDuring (conditions query) r = true) :
    openDuring (conditions (query.without drop)) r = true ↔
      ¬ (.startTime ∈ drop ∧ startHour query = 0 ∧ r.startTime.hour = 0 ∧ r.endTime.hour = 0) := by
  have hstop : r.startTime.hour < endHour query →
      r.startTime.hour < endHour (query.without drop) := by
    intro hlt
    rw [endHour_without]
    split
    · exact r.startTime.valid.1
    · exact hlt
  rw [openDuring_hours h] at hopen
  rw [openDuring_hours h', startHour_without]
  by_cases hs : Attr.startTime ∈ drop
  · rw [if_pos hs]
    simp only [hs, true_and]
    refine hours_from_one hopen ?_ hstop
    intro hcloses
    unfold startHour at hcloses ⊢
    cases hv : isset query.request .startTime with
    | none => exact .inl (Nat.le_refl 1)
    | some v =>
        rw [hv] at hcloses
        exact .inr (startHour_le h hv (Nat.lt_of_le_of_lt hcloses r.endTime.valid.1))
  · rw [if_neg hs]
    simp only [hs, false_and, not_false_eq_true, iff_true]
    by_cases hbefore : startHour query ≤ r.startTime.hour
    · rw [if_pos hbefore] at hopen ⊢
      exact hstop hopen
    · rw [if_neg hbefore] at hopen ⊢
      exact hopen

/-- The query asks from the hour 0 to a later one, and there is a restaurant that opens and
closes in the hour 0 and meets its other conditions. -/
def AsksAtMidnight (metres : Value → Value → String → String → Nat) (db : Database)
    (query : Query) : Prop :=
  startHour query = 0 ∧ 0 < endHour query ∧
    ∃ i r, db.restaurants.row i = some r ∧ r.startTime.hour = 0 ∧ r.endTime.hour = 0 ∧
      clause (conditions query) db i r = true ∧ inRange metres (conditions query) r = true

/-- **Leaving conditions out hides no restaurant, if and only if the start time is not among
them or the query does not ask at midnight for a restaurant that closes within the hour.** -/
theorem filter_without_iff (metres : Value → Value → String → String → Nat)
    (hmetres : ∀ a b c d, metres a b c d ≤ 100000000) (db : Database) (query : Query)
    (drop : List Attr) (hdrop : drop ⊆ optional) (h : query.Accepted db)
    (h' : (query.without drop).Accepted db) :
    returned ((filter metres query).serve db).answer
        ⊆ returned ((filter metres (query.without drop)).serve db).answer ↔
      ¬ (.startTime ∈ drop ∧ AsksAtMidnight metres db query) := by
  constructor
  · rintro hsub ⟨hs, hstart, hend, i, r, hrow, hopens, hcloses, hclause, hrange⟩
    have hopen : openDuring (conditions query) r = true := by
      rw [openDuring_hours h, hopens, hstart, if_pos (Nat.le_refl 0)]
      exact hend
    obtain ⟨r', hrow', -, -, hopen'⟩ := (mem_returned h').mp
      (hsub ((mem_returned h).mpr ⟨r, hrow, hclause, hrange, hopen⟩))
    cases hrow.symm.trans hrow'
    exact (openDuring_without h h' hopen).mp hopen' ⟨hs, hstart, hopens, hcloses⟩
  · intro hnot i hi
    obtain ⟨r, hrow, hclause, hrange, hopen⟩ := (mem_returned h).mp hi
    refine (mem_returned h').mpr ⟨r, hrow, clause_without hclause,
      inRange_without hmetres hdrop hrange, (openDuring_without h h' hopen).mpr ?_⟩
    rintro ⟨hs, hstart, hopens, hcloses⟩
    rw [openDuring_hours h, hopens, hstart, if_pos (Nat.le_refl 0)] at hopen
    exact hnot ⟨hs, hstart, hopen, i, r, hrow, hopens, hcloses, hclause, hrange⟩

end Without

end RestaurantController

/-- A restaurant that is open from ten past midnight to ten to one, and the two others. -/
def Sample.late : Database :=
  { Sample.database with
    restaurants := Sample.database.restaurants.insert
      { Sample.restaurant "late" with
        startTime := ⟨0, 10, 0, by decide⟩
        endTime := ⟨0, 50, 0, by decide⟩ } }

/-- Without an end time the query finds what it found with it. -/
theorem filter_without_end :
    RestaurantController.returned ((RestaurantController.filter (fun _ _ _ _ => 0)
        (Sample.during "000000" "010000")).serve Sample.late).answer
      ⊆ RestaurantController.returned ((RestaurantController.filter (fun _ _ _ _ => 0)
        ((Sample.during "000000" "010000").without [.endTime])).serve Sample.late).answer :=
  (RestaurantController.filter_without_iff (fun _ _ _ _ => 0) (by simp) Sample.late
    (Sample.during "000000" "010000") [.endTime] (by decide)
    (by unfold RestaurantController.Query.Accepted; decide +kernel)
    (by unfold RestaurantController.Query.Accepted; decide +kernel)).mpr
    (fun h => absurd h.1 (by decide))

/-- From midnight to one the restaurant is found.  Up to one, it is not. -/
theorem filter_without_start :
    (Sample.during "000000" "010000").Accepted Sample.late ∧
      ((Sample.during "000000" "010000").without [.startTime]).Accepted Sample.late ∧
      ¬ RestaurantController.returned ((RestaurantController.filter (fun _ _ _ _ => 0)
          (Sample.during "000000" "010000")).serve Sample.late).answer
        ⊆ RestaurantController.returned ((RestaurantController.filter (fun _ _ _ _ => 0)
          ((Sample.during "000000" "010000").without [.startTime])).serve Sample.late).answer := by
  unfold RestaurantController.Query.Accepted
  decide +kernel

end Spoiler
