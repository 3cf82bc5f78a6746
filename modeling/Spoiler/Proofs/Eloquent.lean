/-
What the Eloquent calls do when no other connection interferes.

Each call gets one equation or one inversion here, outside a transaction and
inside one, and the files above quote those and never unfold a call again.  An
update that changes nothing issues no statement; since changing a row to itself
leaves the table as it is, outside a transaction the equation need not mention it.
-/
import Spoiler.App.Calls

namespace Spoiler

open Store Php

variable {ρ : Type}

/-! ### Looking rows up -/

/-- The row a value selects. -/
def Model.lookup (M : Model ρ) (db : Database) (v : Value) : Option (Nat × ρ) :=
  v.key?.bind fun i => ((M.table.get db).row i).map fun r => (i, r)

theorem Model.lookup_some {M : Model ρ} {db : Database} {v : Value} {i : Nat} {r : ρ} :
    M.lookup db v = some (i, r) ↔ v.key? = some i ∧ (M.table.get db).row i = some r := by
  unfold lookup
  cases hk : v.key? with
  | none => simp
  | some j =>
      simp only [Option.bind_some, Option.map_eq_some_iff, Prod.mk.injEq, Option.some.injEq]
      constructor
      · rintro ⟨q, hq, rfl, rfl⟩
        exact ⟨rfl, hq⟩
      · rintro ⟨rfl, hq⟩
        exact ⟨r, hq, rfl, rfl⟩

theorem Model.lookup_none {M : Model ρ} {db : Database} {v : Value} :
    M.lookup db v = none ↔ ∀ i, v.key? = some i → (M.table.get db).row i = none := by
  unfold lookup
  cases hk : v.key? with
  | none => simp
  | some j => simp

theorem Model.find_eq (M : Model ρ) (v : Value) :
    M.find v = .select fun db => .ret (M.lookup db v) := rfl

/-- Counting the rows with a key asks whether there is one. -/
theorem length_hasKey {M : Model ρ} {db : Database} {v : Value} :
    0 < ((M.table.get db).filter (Model.hasKey v)).length ↔ (M.lookup db v).isSome := by
  rw [List.length_pos_iff, Ne, Table.filter_eq_nil]
  cases hl : M.lookup db v with
  | none =>
      refine iff_of_false (fun hne => hne fun i r hr => ?_) (by simp)
      by_contra hk
      have hkey : v.key? = some i := by simpa [Model.hasKey] using hk
      rw [Model.lookup_none.mp hl i hkey] at hr
      cases hr
  | some x =>
      obtain ⟨i, r⟩ := x
      obtain ⟨hk, hr⟩ := Model.lookup_some.mp hl
      refine iff_of_true (fun hall => ?_) (by simp)
      have := hall i r hr
      simp [Model.hasKey, hk] at this

@[simp] theorem key_int (n : Int) : (Value.int n).key? = if 0 ≤ n then some n.toNat else none := by
  simp [Value.key?, Value.lead, Num.toNat?, Num.isInt, Num.ofInt]

/-! ### Validation -/

/-- A request passes when every rule that looks at its field accepts it. -/
theorem failed_eq_nil {db : Database} {input : Attributes} {fields : List (Attr × List Rule)} :
    failed db input fields = [] ↔ ∀ f ∈ fields, ∀ r ∈ f.2,
      (r.implicit = true ∨ blank (input f.1) = false) →
        r.passes db ((input f.1).getD .null) = true := by
  simp only [failed, failures, List.flatMap_eq_nil_iff, List.map_eq_nil_iff,
    List.filter_eq_nil_iff]
  refine forall₂_congr fun f _ => forall₂_congr fun r _ => ?_
  cases r.implicit <;> cases blank (input f.1) <;> simp

/-- Validation is a matter of what the rules say. -/
theorem failed_congr {db db' : Database} {input : Attributes} {fields : List (Attr × List Rule)}
    (h : ∀ f ∈ fields, ∀ r ∈ f.2, ∀ v, r.passes db' v = r.passes db v) :
    failed db' input fields = failed db input fields := by
  unfold failed
  refine List.flatMap_congr fun f hf => ?_
  unfold failures
  refine congrArg _ (List.filter_congr fun r hr => ?_)
  rw [h f hf r hr]

/-- What `required` accepts, the other rules of the field look at. -/
theorem blank_of_filled {v : Option Value} (h : (v.getD .null).filled = true) :
    blank v = false := by
  rcases v with - | v
  · cases h
  · cases v with
    | null => cases h
    | str s => simpa [blank, Value.filled] using h
    | bool b => rfl
    | int n => rfl
    | dec x => rfl
    | file ext url => rfl

/-- A rule of a required field accepts the field. -/
theorem passes_of_required {db : Database} {request : Request} {fields : List (Attr × List Rule)}
    (h : failed db request.input fields = []) {a : Attr} {rules : List Rule}
    (hf : (a, rules) ∈ fields) (hreq : Rule.required ∈ rules) {r : Rule} (hr : r ∈ rules) :
    r.passes db (request.get a) = true := by
  have hall := failed_eq_nil.mp h (a, rules) hf
  have hfilled : (request.get a).filled = true := hall _ hreq (.inl rfl)
  exact hall r hr (.inr (blank_of_filled hfilled))

/-- A rule of a field the request carries accepts it. -/
theorem passes_of_input {db : Database} {request : Request} {fields : List (Attr × List Rule)}
    (h : failed db request.input fields = []) {a : Attr} {rules : List Rule}
    (hf : (a, rules) ∈ fields) {r : Rule} (hr : r ∈ rules) {v : Value} (ha : a ∉ untrimmed)
    (hv : request.input a = some v) : r.passes db v = true := by
  have hpass := failed_eq_nil.mp h (a, rules) hf r hr
    (.inr (by rw [hv]; exact request.not_blank ha hv))
  rwa [show request.input (a, rules).1 = some v from hv] at hpass

/-- A field that a column takes is in the request. -/
theorem input_of_textColumn {request : Request} {a : Attr} {s : String}
    (h : (request.get a).textColumn = some s) : request.input a = some (request.get a) := by
  unfold Request.get at h ⊢
  cases hv : request.input a with
  | none =>
      rw [hv] at h
      cases h
  | some v => rfl

/-- A value passes `unique` when no row in scope has its text. -/
theorem unique_passes {T : TableOf Database ρ} {column : ρ → String} {scope : Nat → ρ → Bool}
    {db : Database} {v : Value} :
    (Rule.unique T column scope).passes db v = true ↔
      ∀ i r, (T.get db).row i = some r → scope i r = true → v.text ≠ some (column r) := by
  simp only [Rule.unique, List.isEmpty_iff, Table.filter_eq_nil, Value.equalsText]
  refine forall₃_congr fun i r _ => ?_
  cases scope i r <;> simp

/-- A value passes `exists` when it selects a row. -/
theorem exists_passes {T : TableOf Database ρ} {db : Database} {v : Value}
    (h : (Rule.exists_ T).passes db v = true) :
    ∃ i r, v.key? = some i ∧ (T.get db).row i = some r := by
  cases hk : v.key? with
  | none => simp [Rule.exists_, hk] at h
  | some i =>
      simp only [Rule.exists_, hk, Option.isSome_iff_exists] at h
      obtain ⟨r, hr⟩ := h
      exact ⟨i, r, rfl, hr⟩

theorem exists_passes_of_row {T : TableOf Database ρ} {db : Database} {v : Value} {i : Nat} {r : ρ}
    (hkey : v.key? = some i) (hrow : (T.get db).row i = some r) :
    (Rule.exists_ T).passes db v = true := by
  simp [Rule.exists_, hkey, hrow]

/-- The rule looks at its own table only. -/
theorem exists_passes_congr {T : TableOf Database ρ} {db db' : Database}
    (h : T.get db' = T.get db) (v : Value) :
    (Rule.exists_ T).passes db' v = (Rule.exists_ T).passes db v := by
  simp only [Rule.exists_, h]

/-! ### The columns an update writes -/

section Dirty

variable [DecidableEq ρ] {M : Model ρ} {attributes : Attributes} {row : ρ} {β : Type} {π : ρ → β}

/-- A column none of the given attributes assigns is left alone. -/
theorem Model.dirty_keeps {l : List Attr} {g : ρ → ρ}
    (hkeep : ∀ a ∈ l, ∀ v, attributes a = some v → ∀ f, M.assign a v = some f →
      ∀ r, π (f r) = π r)
    (hg : M.dirty attributes row l = some g) : ∀ r, π (g r) = π r := by
  induction l generalizing g with
  | nil =>
      intro r
      cases hg
      rfl
  | cons a rest ih =>
      have hrest := fun {g} => ih (g := g) fun b hb => hkeep b (by simp [hb])
      simp only [dirty] at hg
      cases ha : attributes a with
      | none =>
          rw [ha] at hg
          exact hrest hg
      | some v =>
          rw [ha] at hg
          simp only [Option.bind_eq_bind, Option.bind_eq_some_iff, Option.some.injEq] at hg
          obtain ⟨f, hf, g', hg', rfl⟩ := hg
          intro r
          split
          · exact hrest hg' r
          · rw [Function.comp_apply, hrest hg', hkeep a (by simp) v ha f hf]

/-- A column one of the attributes assigns ends as that assignment leaves it. -/
theorem Model.dirty_sets {l : List Attr} {g : ρ → ρ} {a : Attr} {v : Value} (hnodup : l.Nodup)
    (ha : a ∈ l) (hv : attributes a = some v)
    (hkeep : ∀ b, b ≠ a → ∀ w f, M.assign b w = some f → ∀ r, π (f r) = π r)
    (hset : ∀ f, M.assign a v = some f → ∀ r r', π (f r) = π (f r'))
    (hg : M.dirty attributes row l = some g) :
    ∃ f, M.assign a v = some f ∧ ∀ r, π r = π row → π (g r) = π (f row) := by
  induction l generalizing g with
  | nil => cases ha
  | cons b rest ih =>
      obtain ⟨hb, hnodup'⟩ := List.nodup_cons.mp hnodup
      simp only [dirty] at hg
      by_cases hba : b = a
      · subst hba
        rw [hv] at hg
        simp only [Option.bind_eq_bind, Option.bind_eq_some_iff, Option.some.injEq] at hg
        obtain ⟨f, hf, g', hg', rfl⟩ := hg
        have hg'keep := dirty_keeps (π := π)
          (fun c hc w _ => hkeep c (fun h => hb (h ▸ hc)) w) hg'
        refine ⟨f, hf, fun r hr => ?_⟩
        split
        · rename_i hclean
          rw [hg'keep, hr, hclean]
        · rw [Function.comp_apply, hg'keep, hset f hf r row]
      · have hmem : a ∈ rest := by
          rcases List.mem_cons.mp ha with h | h
          · exact absurd h.symm hba
          · exact h
        cases hw : attributes b with
        | none =>
            rw [hw] at hg
            exact ih hnodup' hmem hg
        | some w =>
            rw [hw] at hg
            simp only [Option.bind_eq_bind, Option.bind_eq_some_iff, Option.some.injEq] at hg
            obtain ⟨fb, hfb, g', hg', rfl⟩ := hg
            obtain ⟨f, hf, hval⟩ := ih hnodup' hmem hg'
            refine ⟨f, hf, fun r hr => ?_⟩
            split
            · exact hval r hr
            · rw [Function.comp_apply]
              exact hval _ (by rw [hkeep b hba w fb hfb, hr])

/-- A column that one attribute writes, as `parse` reads the value, and no other does. -/
structure Model.Column (M : Model ρ) (a : Attr) (π : ρ → β) (parse : Value → Option β) : Prop where
  mem : a ∈ M.fillable
  nodup : M.fillable.Nodup
  sets : ∀ v f, M.assign a v = some f → ∃ x, parse v = some x ∧ ∀ r, π (f r) = x
  keeps : ∀ b, b ≠ a → ∀ v f, M.assign b v = some f → ∀ r, π (f r) = π r

omit [DecidableEq ρ] in
/-- A column that `assign` parses and sets. -/
theorem Model.Column.of_assign {a : Attr} {parse : Value → Option β} {set : β → ρ → ρ}
    (hmem : a ∈ M.fillable) (hnodup : M.fillable.Nodup)
    (hassign : ∀ v, M.assign a v = (parse v).map set) (hset : ∀ x r, π (set x r) = x)
    (hkeeps : ∀ b, b ≠ a → ∀ v f, M.assign b v = some f → ∀ r, π (f r) = π r) :
    M.Column a π parse := by
  refine ⟨hmem, hnodup, fun v f hf => ?_, hkeeps⟩
  rw [hassign] at hf
  obtain ⟨x, hx, rfl⟩ := Option.map_eq_some_iff.mp hf
  exact ⟨x, hx, hset x⟩

omit [DecidableEq ρ] in
/-- The same for a model that says once what an assignment leaves alone. -/
theorem Model.Column.of_beside {Beside : Attr → ρ → ρ → Prop} {a : Attr}
    {parse : Value → Option β} {set : β → ρ → ρ}
    (hbeside : ∀ {b v f}, M.assign b v = some f → ∀ r, Beside b r (f r))
    (hnodup : M.fillable.Nodup) (hmem : a ∈ M.fillable)
    (hassign : ∀ v, M.assign a v = (parse v).map set) (hset : ∀ x r, π (set x r) = x)
    (hkeeps : ∀ b r q, Beside b r q → b ≠ a → π q = π r) : M.Column a π parse :=
  .of_assign hmem hnodup hassign hset fun b hb _ _ hf r => hkeeps b r _ (hbeside hf r) hb

/-- **A column ends as the request says, and as it was when the request is silent.** -/
theorem Model.Column.dirty {a : Attr} {parse : Value → Option β} (hcol : M.Column a π parse)
    {g : ρ → ρ} (hg : M.dirty attributes row M.fillable = some g) :
    (attributes a = none ∧ π (g row) = π row) ∨
      ∃ v x, attributes a = some v ∧ parse v = some x ∧ π (g row) = x := by
  cases hv : attributes a with
  | none =>
      refine .inl ⟨rfl, dirty_keeps (fun b _ w hw f hf r => hcol.keeps b ?_ w f hf r) hg row⟩
      rintro rfl
      rw [hv] at hw
      cases hw
  | some v =>
      obtain ⟨f, hf, hval⟩ := dirty_sets (π := π) hcol.nodup hcol.mem hv hcol.keeps
        (fun f hf r r' => by
          obtain ⟨x, -, hx⟩ := hcol.sets v f hf
          rw [hx, hx]) hg
      obtain ⟨x, hx, hfx⟩ := hcol.sets v f hf
      exact .inr ⟨v, x, rfl, hx, by rw [hval row rfl, hfx]⟩

/-- What an update does to a row is what one assignment after another does. -/
theorem Model.dirty_induction {P : (ρ → ρ) → Prop} {l : List Attr} (hid : P id)
    (hcomp : ∀ a ∈ l, ∀ v, attributes a = some v → ∀ f, M.assign a v = some f →
      ∀ g, P g → P (g ∘ f)) : ∀ {g : ρ → ρ}, M.dirty attributes row l = some g → P g := by
  induction l with
  | nil =>
      intro g hg
      cases hg
      exact hid
  | cons a rest ih =>
      intro g hg
      have hrest := fun {g} => ih (fun b hb => hcomp b (by simp [hb])) (g := g)
      simp only [dirty] at hg
      cases ha : attributes a with
      | none =>
          rw [ha] at hg
          exact hrest hg
      | some v =>
          rw [ha] at hg
          simp only [Option.bind_eq_bind, Option.bind_eq_some_iff, Option.some.injEq] at hg
          obtain ⟨f, hf, g', hg', rfl⟩ := hg
          split
          · exact hrest hg'
          · exact hcomp a (by simp) v ha f hf g' (hrest hg')

/-- The same column in whatever row the update meets: it is left alone or set. -/
theorem Model.Column.dirty_all {a : Attr} {parse : Value → Option β} (hcol : M.Column a π parse)
    {g : ρ → ρ} (hg : M.dirty attributes row M.fillable = some g) :
    (∀ r, π (g r) = π r) ∨
      ∃ v x, attributes a = some v ∧ parse v = some x ∧ ∀ r, π (g r) = x := by
  refine dirty_induction (P := fun g => (∀ r, π (g r) = π r) ∨
    ∃ v x, attributes a = some v ∧ parse v = some x ∧ ∀ r, π (g r) = x)
    (.inl fun _ => rfl) (fun b _ v hv f hf g hP => ?_) hg
  by_cases hb : b = a
  · subst hb
    obtain ⟨x, hx, hset⟩ := hcol.sets v f hf
    rcases hP with hkeep | ⟨v', x', hv', hx', hset'⟩
    · exact .inr ⟨v, x, hv, hx, fun r => by rw [Function.comp_apply, hkeep, hset]⟩
    · exact .inr ⟨v', x', hv', hx', fun r => hset' (f r)⟩
  · rcases hP with hkeep | ⟨v', x', hv', hx', hset'⟩
    · exact .inl fun r => by rw [Function.comp_apply, hkeep, hcol.keeps b hb v f hf]
    · exact .inr ⟨v', x', hv', hx', fun r => hset' (f r)⟩

/-! A second update with the same attributes finds every column as it would write it. -/

/-- Each attribute goes into a column of its own, and the value a column has changes nothing. -/
def Model.Settles (M : Model ρ) : Prop :=
  ∀ a v f, M.assign a v = some f → ∃ (β : Type) (π : ρ → β) (parse : Value → Option β),
    M.Column a π parse ∧ ∀ r, parse v = some (π r) → f r = r

omit [DecidableEq ρ] in
theorem Model.Column.settled {a : Attr} {parse : Value → Option β} {set : β → ρ → ρ} {v : Value}
    {f : ρ → ρ} (hcol : M.Column a π parse) (hassign : ∀ v, M.assign a v = (parse v).map set)
    (hself : ∀ r, set (π r) r = r) (hf : M.assign a v = some f) :
    ∃ (β : Type) (π : ρ → β) (parse : Value → Option β),
      M.Column a π parse ∧ ∀ r, parse v = some (π r) → f r = r := by
  rw [hassign] at hf
  obtain ⟨x, hx, rfl⟩ := Option.map_eq_some_iff.mp hf
  refine ⟨_, _, _, hcol, fun r hr => ?_⟩
  cases hx.symm.trans hr
  exact hself r

/-- An update that goes through assigns every attribute it is given. -/
theorem Model.dirty_assigns {l : List Attr} {g : ρ → ρ} {a : Attr} {v : Value} (ha : a ∈ l)
    (hv : attributes a = some v) (hg : M.dirty attributes row l = some g) :
    ∃ f, M.assign a v = some f := by
  induction l generalizing g with
  | nil => cases ha
  | cons b rest ih =>
      simp only [dirty] at hg
      rcases List.mem_cons.mp ha with rfl | hmem
      · rw [hv] at hg
        simp only [Option.bind_eq_bind, Option.bind_eq_some_iff] at hg
        obtain ⟨f, hf, -⟩ := hg
        exact ⟨f, hf⟩
      · cases hw : attributes b with
        | none =>
            rw [hw] at hg
            exact ih hmem hg
        | some w =>
            rw [hw] at hg
            simp only [Option.bind_eq_bind, Option.bind_eq_some_iff] at hg
            obtain ⟨-, -, g', hg', -⟩ := hg
            exact ih hmem hg'

/-- Nothing to change, nothing to write. -/
theorem Model.dirty_clean {l : List Attr} (h : ∀ a ∈ l, ∀ v, attributes a = some v →
    ∃ f, M.assign a v = some f ∧ f row = row) : M.dirty attributes row l = some id := by
  induction l with
  | nil => rfl
  | cons a rest ih =>
      have hrest := ih fun b hb => h b (by simp [hb])
      simp only [dirty]
      cases hv : attributes a with
      | none => exact hrest
      | some v =>
          obtain ⟨f, hf, hclean⟩ := h a (by simp) v hv
          simp [hf, hrest, hclean]

/-- **The same attributes change a row only once.** -/
theorem Model.dirty_again (hM : M.Settles) {g : ρ → ρ}
    (hg : M.dirty attributes row M.fillable = some g) :
    M.dirty attributes (g row) M.fillable = some id := by
  refine dirty_clean fun a ha v hv => ?_
  obtain ⟨f, hf⟩ := dirty_assigns ha hv hg
  obtain ⟨β, π, parse, hcol, hsame⟩ := hM a v f hf
  refine ⟨f, hf, hsame _ ?_⟩
  rcases hcol.dirty hg with ⟨hnone, -⟩ | ⟨w, x, hw, hx, hval⟩
  · cases hv.symm.trans hnone
  · cases hv.symm.trans hw
    rw [hx, hval]

/-- Nothing assigned, nothing to write. -/
theorem Model.dirty_none {l : List Attr} (h : ∀ a ∈ l, attributes a = none) :
    M.dirty attributes row l = some id := by
  refine dirty_clean fun a ha v hv => ?_
  rw [h a ha] at hv
  cases hv

@[simp] theorem Attributes.only_self (a : Attr) (v : Value) : Attributes.only a v a = some v := by
  simp [only]

theorem Attributes.only_ne {a b : Attr} (v : Value) (h : b ≠ a) : Attributes.only a v b = none := by
  simp [only, h]

/-- An update of one attribute. -/
theorem Model.dirty_only {l : List Attr} {a : Attr} {v : Value} (hnodup : l.Nodup) (ha : a ∈ l) :
    M.dirty (.only a v) row l
      = (M.assign a v).map fun f => if f row = row then id else f := by
  induction l with
  | nil => cases ha
  | cons b rest ih =>
      obtain ⟨hb, hnodup'⟩ := List.nodup_cons.mp hnodup
      by_cases hba : b = a
      · subst hba
        have hrest : M.dirty (.only b v) row rest = some id :=
          dirty_none fun c hc => Attributes.only_ne v fun h => hb (h ▸ hc)
        simp only [dirty, Attributes.only_self, hrest]
        cases hf : M.assign b v with
        | none => rfl
        | some f => rfl
      · have hmem : a ∈ rest := by
          rcases List.mem_cons.mp ha with h | h
          · exact absurd h.symm hba
          · exact h
        simp only [dirty, Attributes.only_ne v hba]
        exact ih hnodup' hmem

/-- Such an update makes the assignment or does nothing. -/
theorem Model.dirty_only_cases {l : List Attr} {a : Attr} {v : Value} {f g : ρ → ρ}
    (hnodup : l.Nodup) (ha : a ∈ l) (hf : M.assign a v = some f)
    (hg : M.dirty (.only a v) row l = some g) : g = id ∨ g = f := by
  rw [dirty_only hnodup ha, hf, Option.map_some, Option.some.injEq] at hg
  rw [← hg]
  split
  · exact .inl rfl
  · exact .inr rfl

/-- A value its column does not take stops the update before any statement. -/
theorem Model.update_only_rejected {i : Nat} {a : Attr} {v : Value} (hnodup : M.fillable.Nodup)
    (ha : a ∈ M.fillable) (hf : M.assign a v = none) :
    M.update i row (.only a v) = .raise .query := by
  unfold update
  rw [dirty_only hnodup ha, hf]
  rfl

end Dirty

/-! ### Statements outside a transaction -/

section Idle

variable {A : Type} {M : Model ρ} {db : Database}

theorem Model.taken_of_unique_none (hu : M.unique = none) (i : Nat) (r : ρ) :
    M.taken db i r = false := by
  simp [taken, hu]

theorem Model.clash_of_unique_none (hu : M.unique = none) (i : Nat) (row r : ρ) :
    M.clash db i row r = false := by
  simp [clash, hu]

/-- A row that stays as it is clashes with nothing. -/
theorem Model.clash_self (i : Nat) (row : ρ) : M.clash db i row row = false := by
  unfold clash
  cases M.unique <;> simp

/-- A route parameter is looked up before the action. -/
theorem Model.exec_find_idle (v : Value) (k : Option (Nat × ρ) → Action A) :
    (M.find v >>= k).exec db .idle = (k (M.lookup db v)).exec db .idle := rfl

/-- An action that counts the rows with a key first asks whether there is one. -/
theorem Model.exec_counted_idle (v : Value) (p q : Action A) :
    (M.whereGet (Model.hasKey v) >>= fun rows => if rows.length > 0 then p else q).exec db .idle
      = if (M.lookup db v).isSome then p.exec db .idle else q.exec db .idle := by
  simp only [whereGet, Prog.select_bind, Prog.ret_bind, Prog.exec_select, Conn.view_idle,
    Conn.looked_idle, gt_iff_lt, length_hasKey]
  split
  · rfl
  · rfl

/-- `create` appends the row its attributes make. -/
theorem Model.exec_create_idle (attributes : Attr → Value) (k : Nat × ρ → Action A) :
    (M.create attributes >>= k).exec db .idle
      = match M.make attributes with
        | none => ⟨db, .idle, [], .error .query⟩
        | some r =>
            if M.taken db (M.table.get db).next r then ⟨db, .idle, [], .error .query⟩
            else (k ((M.table.get db).next, r)).exec
              (M.table.set db ((M.table.get db).insert r)) .idle := by
  unfold create
  cases hm : M.make attributes with
  | none => simp
  | some r =>
      have hinsert : ((M.table.insert r >>= fun i => pure (i, r)) >>= k).exec db .idle
          = (k ((M.table.get db).next, r)).exec
            (M.table.set db ((M.table.get db).insert r)) .idle := by
        simp only [TableOf.insert, Prog.insert_bind, Prog.ret_bind, Prog.pure_eq, Prog.exec_insert,
          Conn.write_idle, Table.reserve_fst, M.table.get_set, M.table.set_set, Table.insert]
      cases hu : M.unique with
      | none =>
          simp only [taken_of_unique_none hu, Bool.false_eq_true, if_false]
          exact hinsert
      | some column =>
          simp only [Prog.select_bind, Prog.exec_select, Conn.view_idle, Conn.looked_idle]
          split
          · rfl
          · exact hinsert

/-- `update` changes the addressed row and no other. -/
theorem Model.exec_update_idle [DecidableEq ρ] {i : Nat} {row : ρ}
    (hrow : (M.table.get db).row i = some row) (attributes : Attributes) (k : ρ → Action A) :
    (M.update i row attributes >>= k).exec db .idle
      = match M.dirty attributes row M.fillable with
        | none => ⟨db, .idle, [], .error .query⟩
        | some f =>
            if M.clash db i row (f row) then ⟨db, .idle, [], .error .query⟩
            else (k (f row)).exec (M.table.set db ((M.table.get db).modify i f)) .idle := by
  unfold update
  cases hd : M.dirty attributes row M.fillable with
  | none => simp
  | some f =>
      simp only
      by_cases hclean : f row = row
      · rw [if_pos hclean, hclean, clash_self, Table.modify_eq_self hrow hclean, M.table.set_get]
        rfl
      · rw [if_neg hclean]
        have hchange : ((M.table.change i f >>= fun _ => pure (f row)) >>= k).exec db .idle
            = (k (f row)).exec (M.table.set db ((M.table.get db).modify i f)) .idle := by
          simp only [TableOf.change, Prog.update_bind, Prog.ret_bind, Prog.pure_eq,
            Prog.exec_update, Conn.write_idle]
        cases hu : M.unique with
        | none =>
            simp only [clash_of_unique_none hu, Bool.false_eq_true, if_false]
            exact hchange
        | some column =>
            simp only [Prog.select_bind, Prog.exec_select, Conn.view_idle, Conn.looked_idle]
            split
            · rfl
            · exact hchange

/-- An update of one attribute that the unique index does not cover. -/
theorem Model.exec_update_only_idle [DecidableEq ρ] {i : Nat} {row : ρ} {a : Attr} {v : Value}
    {f : ρ → ρ} (hrow : (M.table.get db).row i = some row) (hnodup : M.fillable.Nodup)
    (ha : a ∈ M.fillable) (hf : M.assign a v = some f) (hclash : M.clash db i row (f row) = false)
    (k : ρ → Action A) :
    (M.update i row (.only a v) >>= k).exec db .idle
      = (k (f row)).exec (M.table.set db ((M.table.get db).modify i f)) .idle := by
  rw [exec_update_idle hrow, dirty_only hnodup ha, hf]
  simp only [Option.map_some]
  by_cases hclean : f row = row
  · rw [if_pos hclean, id_eq, clash_self, hclean, Table.modify_eq_self hrow (f := id) rfl,
      Table.modify_eq_self hrow hclean]
    rfl
  · rw [if_neg hclean, hclash]
    rfl

/-- A request that ends with one `create`. -/
theorem Model.result_create (attributes : Attr → Value) (response : Nat × ρ → Response) :
    ((M.create attributes >>= fun x => pure (response x)).exec db .idle).result
      = match M.make attributes with
        | none => (db, .error .query)
        | some r =>
            if M.taken db (M.table.get db).next r then (db, .error .query)
            else (M.table.set db ((M.table.get db).insert r),
              .ok (response ((M.table.get db).next, r))) := by
  rw [exec_create_idle]
  cases M.make attributes with
  | none => rfl
  | some r =>
      dsimp only
      by_cases htaken : M.taken db (M.table.get db).next r = true
      · rw [if_pos htaken, if_pos htaken]
        rfl
      · rw [if_neg htaken, if_neg htaken]
        rfl

/-- A request that ends with one `update`. -/
theorem Model.result_update [DecidableEq ρ] {i : Nat} {row : ρ}
    (hrow : (M.table.get db).row i = some row) (attributes : Attributes)
    (response : ρ → Response) :
    ((M.update i row attributes >>= fun r => pure (response r)).exec db .idle).result
      = match M.dirty attributes row M.fillable with
        | none => (db, .error .query)
        | some f =>
            if M.clash db i row (f row) then (db, .error .query)
            else (M.table.set db ((M.table.get db).modify i f), .ok (response (f row))) := by
  rw [exec_update_idle hrow]
  cases M.dirty attributes row M.fillable with
  | none => rfl
  | some f =>
      dsimp only
      by_cases hclash : M.clash db i row (f row) = true
      · rw [if_pos hclash, if_pos hclash]
        rfl
      · rw [if_neg hclash, if_neg hclash]
        rfl

end Idle

/-! ### Statements inside a transaction

The writes of a transaction are buffered, so what a call does is said of the buffer:
which state it makes of the committed one when it is applied. -/

section Inside

variable {A : Type} {M : Model ρ} {db : Database} {snap : Option Database}
  {ws : List (Database → Database)}

/-- An action that opens a transaction and validates first: what follows sees the database as
it is now. -/
theorem exec_validated (request : Request) (fields : List (Attr × List Rule))
    (k : Unit → Action A) :
    (beginTransaction >>= fun _ => request.validate fields >>= k).exec db .idle
      = match failed db request.input fields with
        | [] => (k ()).exec db ⟨some db, [[]]⟩
        | errors => ⟨db, ⟨some db, [[]]⟩, [], .error (.validation errors)⟩ := by
  simp only [beginTransaction, Prog.beginTransaction_bind, Prog.ret_bind,
    Prog.exec_beginTransaction, Conn.opened_idle, Request.validate, Prog.select_bind,
    Prog.exec_select, Conn.view_first, Conn.looked_inside, Option.getD_none]
  cases failed db request.input fields with
  | nil => rfl
  | cons e es => rfl

/-- `create` takes its key at once and buffers the row. -/
theorem Model.exec_create_inside (hu : M.unique = none) (attributes : Attr → Value)
    (k : Nat × ρ → Action A) :
    (M.create attributes >>= k).exec db ⟨snap, [ws]⟩
      = match M.make attributes with
        | none => ⟨db, ⟨snap, [ws]⟩, [], .error .query⟩
        | some r => (k ((M.table.get db).next, r)).exec
            (M.table.set db (M.table.get db).reserve.2)
            ⟨snap, [ws ++ [fun s => M.table.set s ((M.table.get s).put (M.table.get db).next r)]]⟩ := by
  unfold create
  cases hm : M.make attributes with
  | none => simp
  | some r =>
      simp only [hu, Prog.ret_bind, Prog.pure_eq, TableOf.insert, Prog.insert_bind,
        Prog.exec_insert, Conn.write_inside, Table.reserve_fst]

/-- The buffer after an update of the row loaded as `row`: an update that changes
nothing issues no statement. -/
def Model.buffered [DecidableEq ρ] (M : Model ρ) (ws : List (Database → Database)) (i : Nat)
    (row : ρ) (f : ρ → ρ) : List (Database → Database) :=
  if f row = row then ws else ws ++ [fun s => M.table.set s ((M.table.get s).modify i f)]

theorem Model.buffered_id [DecidableEq ρ] {i : Nat} {row : ρ} : M.buffered ws i row id = ws :=
  if_pos rfl

/-- Either way the buffer then makes the change, also to another row that the change
leaves alone whenever it leaves the loaded one alone. -/
theorem Model.applyAll_buffered_of [DecidableEq ρ] {i : Nat} {row row' : ρ} {f : ρ → ρ}
    {s : Database} (hrow : (M.table.get (applyAll ws s)).row i = some row')
    (hsame : f row = row → f row' = row') :
    applyAll (M.buffered ws i row f) s
      = M.table.set (applyAll ws s) ((M.table.get (applyAll ws s)).modify i f) := by
  unfold buffered
  by_cases hclean : f row = row
  · rw [if_pos hclean, Table.modify_eq_self hrow (hsame hclean), M.table.set_get]
  · rw [if_neg hclean, applyAll_append]
    rfl

theorem Model.applyAll_buffered [DecidableEq ρ] {i : Nat} {row : ρ} {f : ρ → ρ} {s : Database}
    (hrow : (M.table.get (applyAll ws s)).row i = some row) :
    applyAll (M.buffered ws i row f) s
      = M.table.set (applyAll ws s) ((M.table.get (applyAll ws s)).modify i f) :=
  applyAll_buffered_of hrow id

/-- `update` buffers the change of the addressed row. -/
theorem Model.exec_update_inside [DecidableEq ρ] (hu : M.unique = none) {i : Nat} {row : ρ}
    (attributes : Attributes) (k : ρ → Action A) :
    (M.update i row attributes >>= k).exec db ⟨snap, [ws]⟩
      = match M.dirty attributes row M.fillable with
        | none => ⟨db, ⟨snap, [ws]⟩, [], .error .query⟩
        | some f => (k (f row)).exec db ⟨snap, [M.buffered ws i row f]⟩ := by
  unfold update buffered
  cases hd : M.dirty attributes row M.fillable with
  | none => simp
  | some f =>
      simp only
      by_cases hclean : f row = row
      · rw [if_pos hclean, if_pos hclean, hclean]
        rfl
      · rw [if_neg hclean, if_neg hclean]
        simp only [hu, Prog.ret_bind, Prog.pure_eq, TableOf.change, Prog.update_bind,
          Prog.exec_update, Conn.write_inside]

/-- The same for one attribute. -/
theorem Model.exec_update_only_inside [DecidableEq ρ] (hu : M.unique = none)
    (hnodup : M.fillable.Nodup) {i : Nat} {row : ρ} {a : Attr} {v : Value} {f : ρ → ρ}
    (ha : a ∈ M.fillable) (hf : M.assign a v = some f) (k : ρ → Action A) :
    (M.update i row (.only a v) >>= k).exec db ⟨snap, [ws]⟩
      = (k (f row)).exec db ⟨snap, [M.buffered ws i row f]⟩ := by
  rw [exec_update_inside hu, dirty_only hnodup ha, hf]
  simp only [Option.map_some, buffered]
  by_cases hclean : f row = row
  · rw [if_pos hclean, if_pos hclean, id_eq, if_pos rfl, hclean]
  · rw [if_neg hclean]

/-! An update that stores a file first: two statements, one change of the row. -/

/-- What a request that carries a file does to the image. -/
def Model.imageChange (M : Model ρ) (request : Request) : Option (ρ → ρ) :=
  match request.fileUrl .image with
  | none => some id
  | some url => M.assign .image (.str url)

/-- What such an update does to the row it addresses, or `none` if a column rejects it. -/
def Model.changes [DecidableEq ρ] (M : Model ρ) (request : Request) (row : ρ) :
    Option (ρ → ρ) := do
  let f ← M.imageChange request
  let g ← M.dirty (request.except .image) (f row) M.fillable
  some (g ∘ f)

theorem Model.exec_updateImage [DecidableEq ρ] (hu : M.unique = none) (hnodup : M.fillable.Nodup)
    (himage : .image ∈ M.fillable) (request : Request) (i : Nat) (row : ρ) (k : ρ → Action A) :
    (M.updateImage request i row >>= k).exec db ⟨snap, [[]]⟩ =
      match M.imageChange request with
      | none => ⟨db, ⟨snap, [[]]⟩, [], .error .query⟩
      | some f => (k (f row)).exec db ⟨snap, [M.buffered [] i row f]⟩ := by
  unfold updateImage imageChange
  cases request.fileUrl .image with
  | none =>
      dsimp only
      rw [Model.buffered_id]
      rfl
  | some url =>
      dsimp only
      cases hf : M.assign .image (.str url) with
      | none =>
          rw [Model.update_only_rejected hnodup himage hf]
          rfl
      | some f => rw [Model.exec_update_only_inside hu hnodup himage hf]

section Changes

variable {β : Type} {a : Attr} {π : ρ → β} {parse : Value → Option β}

/-- A column other than the image is not the image's. -/
theorem Model.Column.imageChange (hcol : M.Column a π parse) (ha : a ≠ .image)
    {request : Request} {f : ρ → ρ} (hf : M.imageChange request = some f) (row : ρ) :
    π (f row) = π row := by
  unfold Model.imageChange at hf
  split at hf
  · cases hf
    rfl
  · exact hcol.keeps .image (Ne.symm ha) _ f hf row

variable [DecidableEq ρ]

/-- A column other than the image ends as the request says, and as it was when the
request is silent. -/
theorem Model.Column.changes (hcol : M.Column a π parse) (ha : a ≠ .image) {request : Request}
    {row : ρ} {f : ρ → ρ} (hf : M.changes request row = some f) :
    (request.input a = none ∧ π (f row) = π row) ∨
      ∃ v x, request.input a = some v ∧ parse v = some x ∧ π (f row) = x := by
  simp only [Model.changes, Option.bind_eq_bind, Option.bind_eq_some_iff, Option.some.injEq] at hf
  obtain ⟨g, hg, h, hh, rfl⟩ := hf
  have hinput : request.except .image a = request.input a := if_neg ha
  have hdirty := hcol.dirty hh
  rw [hinput, hcol.imageChange ha hg] at hdirty
  exact hdirty

/-- The same request without a file leaves the row it changed alone. -/
theorem Model.changes_again (hM : M.Settles) {request : Request} {row : ρ} {f : ρ → ρ}
    (hfile : request.fileUrl .image = none) (hf : M.changes request row = some f) :
    M.dirty (request.except .image) (f row) M.fillable = some id := by
  simp only [Model.changes, Model.imageChange, hfile, Option.bind_eq_bind, Option.bind_some,
    Option.bind_eq_some_iff, Option.some.injEq] at hf
  obtain ⟨g, hg, rfl⟩ := hf
  exact Model.dirty_again hM hg

/-- The two updates of one request make one change of the row. -/
theorem Model.applyAll_twice {i : Nat} {row : ρ} {f g : ρ → ρ}
    (hrow : (M.table.get db).row i = some row) :
    applyAll (M.buffered (M.buffered [] i row f) i (f row) g) db
      = M.table.set db ((M.table.get db).modify i (g ∘ f)) := by
  have hfirst : applyAll (M.buffered [] i row f) db
      = M.table.set db ((M.table.get db).modify i f) := Model.applyAll_buffered hrow
  have hthere : (M.table.get (applyAll (M.buffered [] i row f) db)).row i = some (f row) := by
    rw [hfirst, M.table.get_set, Table.modify_row, if_pos rfl, hrow]
    rfl
  rw [Model.applyAll_buffered hthere, hfirst, M.table.get_set, M.table.set_set,
    Table.modify_modify]

end Changes

end Inside

end Spoiler
