/-
One row of likes for a user and a restaurant, under concurrency.

`score` counts the rows of the pair and then inserts one or updates the first.  It runs
outside a transaction and the table has no unique index, so two scores of one pair that
both count before either inserts leave two rows.  That is the only way: the rows stay
unique in every interleaving in which no two requests of one pair are between counting
none and inserting at the same time.
-/
import Spoiler.App.Sample
import Spoiler.Proofs.Likes
import Spoiler.Store.Pool

namespace Spoiler

open Store Php

/-- The user and the restaurant of a like. -/
def Like.pair (like : Like) : Int × Int := (like.userId, like.restaurantId)

/-! ### The statements of a score -/

namespace RestaurantController

/-- `score` when it has counted a row. -/
def scoreAgain (user : Nat) (request : Request) : Handler := do
  match ← likes.whereFirst (ownLike user request) with
  | none => raise .nullCall
  | some (i, like) =>
      let like ← likes.update i like (.only .send (request.get .send))
      return json (.like i like) 200

/-- `score` when it has counted none. -/
def scoreFirst (user : Nat) (request : Request) : Handler := do
  let (id, create) ← likes.create (likeAttributes user request)
  return json (.like id create) 200

/-- `score` when the request is valid. -/
def scoreValid (user : Nat) (request : Request) : Handler := do
  if (← likes.whereGet (ownLike user request)).length ≠ 0 then scoreAgain user request
  else scoreFirst user request

theorem score_eq (user : Nat) (request : Request) :
    score user request = request.validate scoreRules >>= fun _ => scoreValid user request := rfl

/-- Where a score stands between two statements. -/
inductive ScorePhase (user : Nat) (request : Request) (db : Database) : Handler → Prop
  | arrived : ScorePhase user request db (score user request)
  | valid {r : Nat} (hkey : (request.get .restaurantId).key? = some r) :
      ScorePhase user request db (scoreValid user request)
  | found : ScorePhase user request db (scoreAgain user request)
  /-- None of the rows is the pair's, and the next statement inserts one. -/
  | free {r : Nat} {like : Like} {k : Nat → Handler}
      (hkey : (request.get .restaurantId).key? = some r)
      (hpair : like.pair = ((user : Int), (r : Int)))
      (hfree : ∀ i row, db.likes.row i = some row → row.pair ≠ like.pair)
      (hk : ∀ i, (k i).ended = true) :
      ScorePhase user request db (likes.table.insert like >>= k)
  /-- The next statement changes the send column of a row. -/
  | changing {i : Nat} {f : Like → Like} {k : Unit → Handler}
      (hf : ∀ row, (f row).pair = row.pair) (hk : (k ()).ended = true) :
      ScorePhase user request db (likes.table.change i f >>= k)
  | answered {p : Handler} (h : p.ended = true) : ScorePhase user request db p

variable {user : Nat} {request : Request} {db db' : Database} {p p' : Handler} {c : Conn Database}

/-- A column of the pair is not what an update of `send` changes. -/
theorem pair_of_dirty {v : Value} {like : Like} {f : Like → Like}
    (h : likes.dirty (.only .send v) like likes.fillable = some f) (row : Like) :
    (f row).pair = row.pair := by
  rw [Model.dirty_only (by decide) (by decide)] at h
  obtain ⟨g, hg, rfl⟩ := Option.map_eq_some_iff.mp h
  obtain ⟨n, -, rfl⟩ := Option.map_eq_some_iff.mp hg
  split <;> rfl

theorem scoreFirst_phase {r : Nat} (hkey : (request.get .restaurantId).key? = some r)
    (hnone : db.likes.filter (ownLike user request) = []) :
    ScorePhase user request db (scoreFirst user request) := by
  unfold scoreFirst Model.create
  cases hm : likes.make (likeAttributes user request) with
  | none => exact .answered rfl
  | some like =>
      obtain ⟨huser, hrestaurant, -⟩ := like_of_make hm
      have hpair : like.pair = ((user : Int), (r : Int)) := by
        rw [Like.pair, huser, Value.intColumn_of_key hkey hrestaurant]
      refine .free hkey hpair (fun i row hrow heq => ?_) fun _ => rfl
      rw [hpair] at heq
      obtain ⟨hown, hplace⟩ := Prod.mk.inj heq
      have htrue : ownLike user request i row = true := (ownLike_iff hkey).mpr ⟨hown, hplace⟩
      rw [Table.filter_eq_nil.mp hnone i row hrow] at htrue
      cases htrue

/-- What a statement of a score does. -/
inductive ScoreStep (user : Nat) (request : Request) (db : Database) :
    Handler → Handler → Database → Prop
  | reads {p p' : Handler} (h : ScorePhase user request db p') :
      ScoreStep user request db p p' db
  | inserts {r : Nat} {like : Like} {k : Nat → Handler} {p' : Handler}
      (hkey : (request.get .restaurantId).key? = some r)
      (hpair : like.pair = ((user : Int), (r : Int)))
      (hfree : ∀ i row, db.likes.row i = some row → row.pair ≠ like.pair)
      (hended : p'.ended = true) :
      ScoreStep user request db (likes.table.insert like >>= k) p'
        { db with likes := db.likes.insert like }
  | changes {p p' : Handler} {i : Nat} {f : Like → Like} (hf : ∀ row, (f row).pair = row.pair)
      (hended : p'.ended = true) :
      ScoreStep user request db p p' { db with likes := db.likes.modify i f }

theorem ScorePhase.step (h : ScorePhase user request db p)
    (hstep : p.step db .idle = some (p', db', c)) :
    c = .idle ∧ ScoreStep user request db p p' db' := by
  cases h with
  | arrived =>
      rw [score_eq] at hstep
      unfold Request.validate at hstep
      rw [Prog.select_bind, Prog.step_select_idle] at hstep
      cases hstep
      refine ⟨rfl, .reads ?_⟩
      cases hvalid : failed db request.input scoreRules with
      | cons e es => exact .answered rfl
      | nil =>
          obtain ⟨r, restaurant, hkey, -⟩ := scored_restaurant hvalid
          exact .valid hkey
  | valid hkey =>
      unfold scoreValid Model.whereGet at hstep
      rw [Prog.select_bind, Prog.step_select_idle] at hstep
      cases hstep
      refine ⟨rfl, .reads ?_⟩
      rw [Prog.ret_bind]
      by_cases hcount : ((likes.table.get db).filter (ownLike user request)).length ≠ 0
      · rw [if_pos hcount]
        exact .found
      · rw [if_neg hcount]
        exact scoreFirst_phase hkey (List.length_eq_zero_iff.mp (not_not.mp hcount))
  | found =>
      unfold scoreAgain Model.whereFirst at hstep
      rw [Prog.select_bind, Prog.step_select_idle] at hstep
      cases hstep
      refine ⟨rfl, .reads ?_⟩
      rw [Prog.ret_bind]
      cases (likes.table.get db).first (ownLike user request) with
      | none => exact .answered rfl
      | some x =>
          obtain ⟨i, like⟩ := x
          dsimp only
          unfold Model.update
          cases hf : likes.dirty (.only .send (request.get .send)) like likes.fillable with
          | none => exact .answered rfl
          | some f =>
              dsimp only
              by_cases hclean : f like = like
              · rw [if_pos hclean]
                exact .answered rfl
              · rw [if_neg hclean]
                exact .changing (k := fun _ => .ret (json (.like i (f like)) 200))
                  (pair_of_dirty hf) rfl
  | free hkey hpair hfree hk =>
      cases hstep
      exact ⟨rfl, .inserts hkey hpair hfree (hk _)⟩
  | changing hf hk =>
      cases hstep
      exact ⟨rfl, .changes hf hk⟩
  | answered hended =>
      rw [Prog.ended_iff_step.mp hended] at hstep
      cases hstep

end RestaurantController

/-! ### Scores in flight -/

section Pool

variable {ι : Type}

/-- The next statement is an `INSERT`. -/
def inserting : Handler → Bool
  | .insert _ _ _ => true
  | _ => false

/-- Scores by user, of the restaurant the request names. -/
abbrev ScoreRequests (ι : Type) := ι → Nat × Request

/-- All of them arrive. -/
def ScoreRequests.start (requests : ScoreRequests ι) (db : Database) :
    Pool ι Database Event Exn Response :=
  Pool.start db fun a => RestaurantController.score (requests a).1 (requests a).2

/-- Two scores of one user for one restaurant. -/
def SamePair (r q : Nat × Request) : Prop :=
  r.1 = q.1 ∧ (r.2.get .restaurantId).key? = (q.2.get .restaurantId).key?

instance (r q : Nat × Request) : Decidable (SamePair r q) :=
  inferInstanceAs (Decidable (_ ∧ _))

/-- No two scores of one pair are about to insert. -/
def Alone (requests : ScoreRequests ι) (pool : Pool ι Database Event Exn Response) : Prop :=
  ∀ a b, a ≠ b → inserting (pool.procs a).prog = true → inserting (pool.procs b).prog = true →
    ¬ SamePair (requests a) (requests b)

/-- The rows are unique, and every score stands where it can. -/
structure Racing (requests : ScoreRequests ι) (pool : Pool ι Database Event Exn Response) :
    Prop where
  distinct : pool.state.likes.Distinct Like.pair
  phase : ∀ a, (pool.procs a).conn = .idle ∧ RestaurantController.ScorePhase (requests a).1
    (requests a).2 pool.state (pool.procs a).prog

/-- A phase depends on the state only through the pair it is about to insert. -/
theorem RestaurantController.ScorePhase.congr {user : Nat} {request : Request}
    {db db' : Database} {p : Handler} (h : ScorePhase user request db p)
    (hfree : ∀ r : Nat, inserting p = true → (request.get .restaurantId).key? = some r →
      (∀ i row, db.likes.row i = some row → row.pair ≠ ((user : Int), (r : Int))) →
      ∀ i row, db'.likes.row i = some row → row.pair ≠ ((user : Int), (r : Int))) :
    ScorePhase user request db' p := by
  cases h with
  | arrived => exact .arrived
  | valid hkey => exact .valid hkey
  | found => exact .found
  | free hkey hpair hnone hk =>
      refine .free hkey hpair ?_ hk
      rw [hpair] at hnone ⊢
      exact hfree _ rfl hkey hnone
  | changing hf hk => exact .changing hf hk
  | answered hended => exact .answered hended

variable [DecidableEq ι] {requests : ScoreRequests ι}
  {pool : Pool ι Database Event Exn Response}

theorem racing_step (h : Racing requests pool) (halone : Alone requests pool) (a : ι) :
    Racing requests (pool.step a) := by
  cases hstep : (pool.procs a).prog.step pool.state (pool.procs a).conn with
  | none =>
      rw [Pool.step_ended hstep]
      exact h
  | some x =>
      obtain ⟨p', db', c'⟩ := x
      obtain ⟨hidle, hphase⟩ := h.phase a
      obtain ⟨rfl, hscore⟩ := hphase.step (by rw [← hidle]; exact hstep)
      have hstate := Pool.step_state hstep
      have hself := Pool.step_self hstep
      -- what is left to say of each case: the rows, this score and the others
      have hall : db'.likes.Distinct Like.pair →
          RestaurantController.ScorePhase (requests a).1 (requests a).2 db' p' →
          (∀ b, b ≠ a → RestaurantController.ScorePhase (requests b).1 (requests b).2 db'
            (pool.procs b).prog) → Racing requests (pool.step a) := by
        intro hdistinct hown hothers
        refine ⟨by rw [hstate]; exact hdistinct, fun b => ?_⟩
        by_cases hb : b = a
        · subst hb
          rw [hself, hstate]
          exact ⟨rfl, hown⟩
        · rw [Pool.step_other hb, hstate]
          exact ⟨(h.phase b).1, hothers b hb⟩
      generalize hp : (pool.procs a).prog = p at hscore
      cases hscore with
      | reads hnext => exact hall h.distinct hnext fun b _ => (h.phase b).2
      | @inserts r like k p' hkey hpair hfree hended =>
          have hsets := pool.state.likes.insert_sets like
          refine hall (h.distinct.sets hsets fun j row hrow _ => hfree j row hrow)
            (.answered hended) fun b hb => (h.phase b).2.congr fun q hins hq hnone i row hrow => ?_
          rcases Table.insert_row_some.mp hrow with ⟨-, rfl⟩ | hold
          · -- two scores of one pair were about to insert
            rw [hpair]
            intro heq
            obtain ⟨huser, hplace⟩ := Prod.mk.inj heq
            have huser' : (requests a).1 = (requests b).1 := by exact_mod_cast huser
            have hplace' : r = q := by exact_mod_cast hplace
            refine halone a b (Ne.symm hb) (by rw [hp]; rfl) hins ⟨huser', ?_⟩
            rw [hkey, hq, hplace']
          · exact hnone i row hold
      | @changes p p' i f hf hended =>
          refine hall (h.distinct.modify hf i) (.answered hended)
            fun b _ => (h.phase b).2.congr fun q _ _ hnone j row hrow => ?_
          obtain ⟨old, hold, hsame⟩ := Table.row_of_modify hf hrow
          rw [hsame]
          exact hnone j old hold

/-- **A user has one row of likes for a restaurant in every state of every interleaving
in which no two scores of one pair are about to insert at the same time.** -/
theorem likes_distinct_of_alone (requests : ScoreRequests ι) (db : Database) (schedule : List ι)
    (hempty : ∀ i, db.likes.row i = none)
    (halone : Along Pool.step (fun pool _ => Alone requests pool) (requests.start db) schedule) :
    (after Pool.step (requests.start db) schedule).state.likes.Distinct
      fun like => (like.userId, like.restaurantId) := by
  have hstart : Racing requests (requests.start db) :=
    ⟨.of_empty hempty, fun a => ⟨rfl, .arrived⟩⟩
  have hstep : ∀ pool a, Racing requests pool → Alone requests pool →
      Racing requests (pool.step a) := fun pool a h hc => racing_step h hc a
  exact (after_invariant hstep hstart halone).distinct

end Pool

/-- Two scores of restaurant 1, by two users. -/
def Sample.ratings (u v : Nat) : ScoreRequests Bool
  | true => (u, request [(.restaurantId, .int 1), (.send, .bool true)])
  | false => (v, request [(.restaurantId, .int 1), (.send, .bool true)])

instance {requests : ScoreRequests Bool} {pool : Pool Bool Database Event Exn Response} :
    Decidable (Alone requests pool) :=
  inferInstanceAs (Decidable (∀ _ _, _))

/-- Two users score together. -/
theorem likes_distinct_two_users :
    (after Pool.step ((Sample.ratings 1 2).start Sample.town)
        (Sample.overlapped 2 2)).state.likes.Distinct
      fun like => (like.userId, like.restaurantId) :=
  likes_distinct_of_alone (Sample.ratings 1 2) Sample.town (Sample.overlapped 2 2) (fun _ => rfl)
    (by decide +kernel)

/-- One user scores twice at once: both count no row, and both insert one. -/
theorem scored_twice :
    let likes := (after Pool.step ((Sample.ratings 1 1).start Sample.town)
      (Sample.overlapped 2 2)).state.likes
    likes.row 1 = some ⟨1, 1, 1⟩ ∧ likes.row 2 = some ⟨1, 1, 1⟩ := by
  decide +kernel

end Spoiler
