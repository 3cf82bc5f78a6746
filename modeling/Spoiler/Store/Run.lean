/-
Serial runs: requests served one after another.

`next s r` is the state request `r` leaves when it is served in `s`.  A run is the
list of its requests, and since every initial part of a run is a run, a statement
about the state after any run is a statement about every state reached.

Three things are carried along runs.  `Along` says that a condition on the state
before a step holds at every step, `trace` collects what each step reports, and
`tally` adds up a number each step contributes.  The rules turn a fact about one
step into a fact about all runs.
-/
import Mathlib.Tactic.Common

namespace Store

variable {S R L : Type} (next : S → R → S)

/-- The state after a run. -/
def after (s : S) (run : List R) : S := run.foldl next s

@[simp] theorem after_nil (s : S) : after next s [] = s := rfl

@[simp] theorem after_cons (s : S) (r : R) (rest : List R) :
    after next s (r :: rest) = after next (next s r) rest := rfl

theorem after_append (s : S) (run rest : List R) :
    after next s (run ++ rest) = after next (after next s run) rest :=
  List.foldl_append

/-- `C` holds of every step and the state it is taken in. -/
def Along (C : S → R → Prop) : S → List R → Prop
  | _, [] => True
  | s, r :: rest => C s r ∧ Along C (next s r) rest

instance Along.decidable (C : S → R → Prop) [∀ s r, Decidable (C s r)] :
    ∀ (s : S) (run : List R), Decidable (Along next C s run)
  | _, [] => isTrue trivial
  | s, r :: rest =>
      have := Along.decidable C (next s r) rest
      inferInstanceAs (Decidable (C s r ∧ Along next C (next s r) rest))

/-- What the steps of a run report, in order. -/
def trace (report : S → R → List L) : S → List R → List L
  | _, [] => []
  | s, r :: rest => report s r ++ trace report (next s r) rest

/-- The sum of what the steps of a run contribute. -/
def tally (w : S → R → Int) : S → List R → Int
  | _, [] => 0
  | s, r :: rest => w s r + tally w (next s r) rest

variable {next}

theorem Along.and {C D : S → R → Prop} : ∀ {run : List R} {s : S},
    Along next C s run → Along next D s run → Along next (fun s r => C s r ∧ D s r) s run := by
  intro run
  induction run with
  | nil => intro s _ _; trivial
  | cons r rest ih => intro s hC hD; exact ⟨⟨hC.1, hD.1⟩, ih hC.2 hD.2⟩

/-- A condition on the requests alone. -/
theorem Along.of_forall {C : S → R → Prop} :
    ∀ {run : List R} {s : S}, (∀ r ∈ run, ∀ s, C s r) → Along next C s run := by
  intro run
  induction run with
  | nil => intro s _; trivial
  | cons r rest ih =>
      intro s h
      exact ⟨h r (by simp) s, ih fun q hq => h q (by simp [hq])⟩

theorem along_append {C : S → R → Prop} {rest : List R} :
    ∀ {run : List R} {s : S},
      Along next C s (run ++ rest) ↔ Along next C s run ∧ Along next C (after next s run) rest := by
  intro run
  induction run with
  | nil => intro s; simp [Along]
  | cons r tail ih => intro s; simp [Along, ih, and_assoc]

/-- A condition along a run is one at each of its points. -/
theorem along_iff {C : S → R → Prop} : ∀ {run : List R} {s : S},
    Along next C s run ↔ ∀ pre r post, run = pre ++ r :: post → C (after next s pre) r := by
  intro run
  induction run with
  | nil => intro s; simp [Along]
  | cons q rest ih =>
      intro s
      rw [Along, ih]
      constructor
      · rintro ⟨hq, hrest⟩ pre r post heq
        cases pre with
        | nil => cases heq; exact hq
        | cons p pre => cases heq; exact hrest pre r post rfl
      · intro h
        exact ⟨h [] q rest rfl, fun pre r post heq => h (q :: pre) r post (by rw [heq]; rfl)⟩

/-- **What one step keeps, every run keeps.** -/
theorem after_invariant {Inv : S → Prop} {C : S → R → Prop}
    (hstep : ∀ s r, Inv s → C s r → Inv (next s r)) :
    ∀ {run : List R} {s : S}, Inv s → Along next C s run → Inv (after next s run) := by
  intro run
  induction run with
  | nil => intro s hs _; exact hs
  | cons r rest ih => intro s hs hC; exact ih (hstep s r hs hC.1) hC.2

theorem trace_append {report : S → R → List L} {rest : List R} : ∀ {run : List R} {s : S},
    trace next report s (run ++ rest)
      = trace next report s run ++ trace next report (after next s run) rest := by
  intro run
  induction run with
  | nil => intro s; rfl
  | cons r tail ih =>
      intro s
      simp only [List.cons_append, trace, after_cons, ih, List.append_assoc]

/-- A run in which no request reports more than one thing reports no more than its requests. -/
theorem trace_sublist {M : Type} {report : S → R → List L} {f : L → M} {g : R → M}
    (h : ∀ s r, ((report s r).map f).Sublist [g r]) : ∀ {run : List R} {s : S},
      ((trace next report s run).map f).Sublist (run.map g) := by
  intro run
  induction run with
  | nil => intro s; exact .slnil
  | cons r rest ih =>
      intro s
      rw [trace, List.map_append, List.map_cons]
      exact (h s r).append ih

/-- The same with what has been reported so far in hand. -/
theorem after_trace_invariant {Inv : S → List L → Prop} {C : S → R → Prop}
    {report : S → R → List L}
    (hstep : ∀ s l r, Inv s l → C s r → Inv (next s r) (l ++ report s r)) :
    ∀ {run : List R} {s : S} {l : List L}, Inv s l → Along next C s run →
      Inv (after next s run) (l ++ trace next report s run) := by
  intro run
  induction run with
  | nil => intro s l hs _; simpa [trace] using hs
  | cons r rest ih =>
      intro s l hs hC
      have := ih (hstep s l r hs hC.1) hC.2
      simpa [trace, List.append_assoc] using this

/-- Two runs of the same steps report the same, up to a step that tells them apart. -/
theorem trace_together {Rel : S → S → Prop} {Tells : S → S → R → Prop} {A : R → Prop}
    {report : S → R → List L}
    (hstep : ∀ s s' r, Rel s s' → A r → ¬ Tells s s' r →
      report s r = report s' r ∧ Rel (next s r) (next s' r)) :
    ∀ {run : List R} {s s' : S}, Rel s s' → (∀ r ∈ run, A r) →
      (trace next report s run = trace next report s' run ∧
        Rel (after next s run) (after next s' run)) ∨
      ∃ before r later, run = before ++ r :: later ∧
        trace next report s before = trace next report s' before ∧
        Tells (after next s before) (after next s' before) r := by
  intro run
  induction run with
  | nil =>
      intro s s' hs _
      exact .inl ⟨rfl, hs⟩
  | cons r rest ih =>
      intro s s' hs hA
      by_cases htells : Tells s s' r
      · exact .inr ⟨[], r, rest, rfl, rfl, htells⟩
      · obtain ⟨hreport, hnext⟩ := hstep s s' r hs (hA r (List.mem_cons_self ..)) htells
        rcases ih hnext fun q hq => hA q (List.mem_cons_of_mem _ hq) with
          ⟨htrace, hafter⟩ | ⟨before, q, later, rfl, htrace, hq⟩
        · exact .inl ⟨congrArg₂ (· ++ ·) hreport htrace, hafter⟩
        · exact .inr ⟨r :: before, q, later, rfl, congrArg₂ (· ++ ·) hreport htrace, hq⟩

/-- **A law that a step keeps exactly under a condition holds at every point of a run
exactly when the condition holds along it.**  Here the law may look at what has been
reported so far, and use what steps keep in any case. -/
theorem trace_points_iff {Inv Law : S → List L → Prop} {A C : S → R → Prop} {report : S → R → List L}
    (hkeep : ∀ s l r, Inv s l → A s r → Inv (next s r) (l ++ report s r))
    (hlaw : ∀ s l r, Inv s l → Law s l → A s r → (Law (next s r) (l ++ report s r) ↔ C s r)) :
    ∀ {run : List R} {s : S} {l : List L}, Inv s l → Law s l → Along next A s run →
      ((∀ pre post, run = pre ++ post →
          Law (after next s pre) (l ++ trace next report s pre)) ↔ Along next C s run) := by
  intro run
  induction run with
  | nil =>
      intro s l _ hs _
      refine iff_of_true (fun pre post heq => ?_) trivial
      obtain ⟨rfl, -⟩ := List.append_eq_nil_iff.mp heq.symm
      simpa [trace] using hs
  | cons r rest ih =>
      intro s l hinv hs hA
      have hiff := hlaw s l r hinv hs hA.1
      constructor
      · intro h
        have hr : Law (next s r) (l ++ report s r) := by simpa [trace] using h [r] rest rfl
        refine ⟨hiff.mp hr, (ih (hkeep s l r hinv hA.1) hr hA.2).mp fun pre post heq => ?_⟩
        have hpre := h (r :: pre) post (by rw [heq]; rfl)
        simpa [trace, List.append_assoc] using hpre
      · rintro ⟨hC, hrest⟩ pre post heq
        cases pre with
        | nil => simpa [trace] using hs
        | cons q pre =>
            cases heq
            have hpre := (ih (hkeep s l r hinv hA.1) (hiff.mpr hC) hA.2).mpr hrest pre post rfl
            simpa [trace, List.append_assoc] using hpre

/-- The same for a law about the state alone. -/
theorem points_iff {Law : S → Prop} {A C : S → R → Prop}
    (hlaw : ∀ s r, Law s → A s r → (Law (next s r) ↔ C s r)) {run : List R} {s : S} (hs : Law s)
    (hA : Along next A s run) :
    (∀ pre post, run = pre ++ post → Law (after next s pre)) ↔ Along next C s run :=
  @trace_points_iff S R Unit next (fun _ _ => True) (fun s _ => Law s) A C (fun _ _ => [])
    (fun _ _ _ _ _ => trivial) (fun s _ r _ hs hr => hlaw s r hs hr) run s [] trivial hs hA

/-- A measure each step moves by what the step contributes has moved by the tally. -/
theorem after_tally {Inv : S → Prop} {C : S → R → Prop} {m : S → Int} {w : S → R → Int}
    (hkeep : ∀ s r, Inv s → C s r → Inv (next s r))
    (hmove : ∀ s r, Inv s → C s r → m (next s r) = m s + w s r) :
    ∀ {run : List R} {s : S}, Inv s → Along next C s run →
      m (after next s run) = m s + tally next w s run := by
  intro run
  induction run with
  | nil => intro s _ _; simp [tally]
  | cons r rest ih =>
      intro s hs hC
      rw [after_cons, ih (hkeep s r hs hC.1) hC.2, hmove s r hs hC.1, tally]
      omega

theorem tally_add {v w : S → R → Int} : ∀ {run : List R} {s : S},
    tally next (fun s r => v s r + w s r) s run = tally next v s run + tally next w s run := by
  intro run
  induction run with
  | nil => intro s; rfl
  | cons r rest ih => intro s; simp only [tally, ih]; omega

/-- A relation each step respects relates the two ends of a run. -/
theorem after_related {Inv : S → Prop} {C : S → R → Prop} {Rel : S → S → Prop}
    (hrefl : ∀ s, Rel s s) (htrans : ∀ {a b c}, Rel a b → Rel b c → Rel a c)
    (hkeep : ∀ s r, Inv s → C s r → Inv (next s r))
    (hstep : ∀ s r, Inv s → C s r → Rel s (next s r)) :
    ∀ {run : List R} {s : S}, Inv s → Along next C s run → Rel s (after next s run) := by
  intro run
  induction run with
  | nil => intro s _ _; exact hrefl s
  | cons r rest ih =>
      intro s hs hC
      exact htrans (hstep s r hs hC.1) (ih (hkeep s r hs hC.1) hC.2)

/-! ### Requests that do nothing -/

section Idle

variable {s : S} {run : List R} {r q : R}

variable (next) in
/-- Somewhere in the run there is a place where `r` would change nothing. -/
def IdleIn (s : S) (run : List R) (r : R) : Prop :=
  ∃ pre post, run = pre ++ post ∧ next (after next s pre) r = after next s pre

theorem IdleIn.append (h : IdleIn next s run r) (rest : List R) : IdleIn next s (run ++ rest) r := by
  obtain ⟨pre, post, rfl, hidle⟩ := h
  exact ⟨pre, post ++ rest, by rw [List.append_assoc], hidle⟩

theorem idleIn_end (h : next (after next s run) r = after next s run) : IdleIn next s run r :=
  ⟨run, [], by rw [List.append_nil], h⟩

/-- A request put where it changes nothing changes no later state. -/
theorem after_insert {pre post : List R} (h : next (after next s pre) r = after next s pre) :
    after next s (pre ++ r :: post) = after next s (pre ++ post) := by
  rw [after_append, after_cons, h, ← after_append]

/-- Nor does it take away the places of others. -/
theorem IdleIn.insert {pre post : List R} (h : next (after next s pre) r = after next s pre)
    (hq : IdleIn next s (pre ++ post) q) : IdleIn next s (pre ++ r :: post) q := by
  obtain ⟨pre', post', heq, hidle⟩ := hq
  rcases List.append_eq_append_iff.mp heq with ⟨mid, rfl, rfl⟩ | ⟨mid, rfl, rfl⟩
  · refine ⟨pre ++ r :: mid, post', by simp, ?_⟩
    rw [after_insert h]
    exact hidle
  · exact ⟨pre', mid ++ r :: post, by simp, hidle⟩

/-- **Requests that are idle somewhere in a run can all be added to it.** -/
theorem exists_run_of_idle : ∀ {rest run : List R}, (∀ r ∈ rest, IdleIn next s run r) →
    ∃ full, full.Perm (run ++ rest) ∧ after next s full = after next s run := by
  intro rest
  induction rest with
  | nil =>
      intro run _
      exact ⟨run, by rw [List.append_nil], rfl⟩
  | cons r rest ih =>
      intro run hidle
      obtain ⟨pre, post, rfl, hr⟩ := hidle r (by simp)
      have hperm : ((pre ++ r :: post) ++ rest).Perm ((pre ++ post) ++ r :: rest) := by
        rw [List.append_assoc, List.append_assoc, List.cons_append]
        refine List.Perm.append_left pre ?_
        exact List.perm_middle.symm
      obtain ⟨full, hfull, hafter⟩ := ih fun q hq =>
        IdleIn.insert hr (hidle q (by simp [hq]))
      exact ⟨full, hfull.trans hperm, by rw [hafter, after_insert hr]⟩

end Idle

/-! ### The latest entry about a key -/

section Latest

variable (key : L → Nat)

/-- The last entry of a log about `k`. -/
def latest (log : List L) (k : Nat) : Option L := (log.filter fun e => key e == k).getLast?

variable {key} {log : List L} {e : L} {k : Nat}

theorem latest_self (h : key e = k) : latest key (log ++ [e]) k = some e := by
  simp [latest, h]

theorem latest_other (h : key e ≠ k) : latest key (log ++ [e]) k = latest key log k := by
  simp [latest, h]

theorem latest_some (h : latest key log k = some e) : e ∈ log ∧ key e = k := by
  have hmem := List.mem_of_getLast? h
  simpa using List.mem_filter.mp hmem

theorem exists_latest (he : e ∈ log) (hk : key e = k) : ∃ e, latest key log k = some e := by
  have hne : (log.filter fun e => key e == k) ≠ [] := by
    intro hnil
    have := List.filter_eq_nil_iff.mp hnil e he
    simp [hk] at this
  exact ⟨_, List.getLast?_eq_some_getLast hne⟩

end Latest

end Store
