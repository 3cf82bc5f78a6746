/-
What the number of likes counts.

A user scores a restaurant with `send` true or false.  The first score of a pair inserts
a row and later ones write `send` into it, so the rows of a restaurant are the users who
have ever scored it.  `likes_count` counts the rows and never looks at `send`, and so it
is the number of users whose latest score was a like only as long as nobody takes a like
back.
-/
import Spoiler.App.Catalogue
import Spoiler.App.Sample
import Spoiler.Proofs.Restaurants
import Spoiler.Store.Run
import Mathlib.Data.Finset.Card

namespace Spoiler

open Store Php

/-! ### The pages -/

/-- The values of `likes_count` an answer shows for a restaurant. -/
def likesCounts (answer : Except Exn Response) (r : Nat) : List Nat :=
  match answer with
  | .ok ⟨_, .listings entries⟩ => (entries.filter fun e => e.id == r).map Listing.likesCount
  | _ => []

namespace RestaurantController

/-- The restaurants a clause keeps, as a page lists them. -/
def entries (db : Database) (p : Database → Nat → Restaurant → Bool) (foodsCount : Bool) :
    List Listing :=
  (db.restaurants.filter (p db)).map fun x =>
    ⟨x.1, x.2, Restaurant.foods db x.1,
      if foodsCount then some (Restaurant.foods db x.1).length else none,
      (Restaurant.likes db x.1).length, none⟩

theorem exec_listings {A : Type} (db : Database) (p : Database → Nat → Restaurant → Bool)
    (foodsCount : Bool) (k : List Listing → Action A) :
    (listings p foodsCount >>= k).exec db .idle = (k (entries db p foodsCount)).exec db .idle := by
  unfold listings entries
  simp only [Prog.select_bind, Prog.ret_bind, Prog.pure_eq, Prog.exec_select, Conn.view_idle,
    Conn.looked_idle, List.map_map, Function.comp_def]

theorem of_mem_entries {db : Database} {p : Database → Nat → Restaurant → Bool}
    {foodsCount : Bool} {e : Listing} (h : e ∈ entries db p foodsCount) :
    (db.restaurants.row e.id).isSome = true ∧
      e.likesCount = (Restaurant.likes db e.id).length := by
  obtain ⟨x, hx, rfl⟩ := List.mem_map.mp h
  refine ⟨?_, rfl⟩
  rw [(Table.mem_filter.mp hx).1]
  rfl

theorem all_answer (db : Database) :
    (all.serve db).answer = .ok (json (.listings (entries db (fun _ _ _ => true) true)) 200) := by
  unfold all Prog.serve
  rw [exec_listings]
  rfl

/-- `all` shows every restaurant, with the number of its rows in the table of likes. -/
theorem mem_all_counts {db : Database} {r n : Nat} :
    n ∈ likesCounts (all.serve db).answer r ↔
      (db.restaurants.row r).isSome = true ∧ n = (Restaurant.likes db r).length := by
  rw [all_answer]
  simp only [likesCounts, json, List.mem_map, List.mem_filter, beq_iff_eq]
  constructor
  · rintro ⟨e, ⟨he, rfl⟩, rfl⟩
    exact of_mem_entries he
  · rintro ⟨hr, rfl⟩
    obtain ⟨row, hrow⟩ := Option.isSome_iff_exists.mp hr
    have hmem : (r, row) ∈ db.restaurants.filter fun _ _ => true :=
      Table.mem_filter.mpr ⟨hrow, rfl⟩
    exact ⟨_, ⟨List.mem_map_of_mem hmem, rfl⟩, rfl⟩

/-- What `filter` asks the database for. -/
def clause (c : Conditions) (db : Database) (i : Nat) (r : Restaurant) : Bool :=
  (!c.onlyRemaining.truthy || hasFoods db 1 i) && inClass c r

/-- What it keeps of the answer. -/
def kept (metres : Value → Value → String → String → Nat) (c : Conditions)
    (result : List Listing) : List Listing :=
  ((result.map fun x => { x with distance := some (distance metres c x.row) }).filter fun x =>
    (Value.dec (distance metres c x.row)).lessEq c.searchRange).filter fun x => openDuring c x.row

/-- **What `filter` answers.** -/
theorem filter_answer (metres : Value → Value → String → String → Nat) (query : Query)
    (db : Database) :
    ((filter metres query).serve db).answer =
      match failed db query.request.input (filterRules query.request) ++
          blankClasses (query.classes.getD []) with
      | [] =>
          if (kept metres (conditions query)
              (entries db (clause (conditions query)) false)).isEmpty then
            .ok (sendError "no restaurant found within the specified conditions" 400)
          else
            .ok (json (.listings (kept metres (conditions query)
              (entries db (clause (conditions query)) false))) 200)
      | errors => .error (.validation errors) := by
  unfold filter Prog.serve
  simp only [validateQuery, Prog.select_bind, Prog.exec_select, Conn.view_idle, Conn.looked_idle]
  cases failed db query.request.input (filterRules query.request) ++
      blankClasses (query.classes.getD []) with
  | cons e es => rfl
  | nil =>
      simp only [Prog.ret_bind]
      generalize conditions query = c
      have hclause : ∀ p : Database → Nat → Restaurant → Bool, p = clause c →
          ∀ k : List Listing → Handler, (listings p false >>= k).exec db .idle
            = (k (entries db (clause c) false)).exec db .idle := by
        rintro p rfl k
        exact exec_listings db _ _ k
      by_cases htruthy : c.onlyRemaining.truthy = true
      · rw [if_pos htruthy, hclause _ (by funext db i r; simp [clause, htruthy])]
        show Outcome.answer (Prog.exec (if (!(kept metres c _).isEmpty) = true then _ else _) _ _) = _
        cases (kept metres c (entries db (clause c) false)).isEmpty <;> rfl
      · rw [if_neg htruthy, hclause _ (by funext db i r; simp [clause, htruthy])]
        show Outcome.answer (Prog.exec (if (!(kept metres c _).isEmpty) = true then _ else _) _ _) = _
        cases (kept metres c (entries db (clause c) false)).isEmpty <;> rfl

/-- `filter` shows the same number for the restaurants it keeps. -/
theorem mem_filter_counts {metres : Value → Value → String → String → Nat} {query : Query}
    {db : Database} {r n : Nat} (h : n ∈ likesCounts ((filter metres query).serve db).answer r) :
    (db.restaurants.row r).isSome = true ∧ n = (Restaurant.likes db r).length := by
  rw [filter_answer] at h
  split at h
  · split at h
    · simp [likesCounts, sendError, json] at h
    · simp only [likesCounts, json, kept, List.mem_map, List.mem_filter, beq_iff_eq] at h
      obtain ⟨e, ⟨⟨⟨⟨x, hx, rfl⟩, -⟩, -⟩, rfl⟩, rfl⟩ := h
      have hentry := of_mem_entries hx
      exact hentry
  · simp [likesCounts] at h

end RestaurantController

/-! ### The log -/

/-- An accepted score. -/
structure Score where
  user : Nat
  restaurant : Nat
  send : Bool
  deriving DecidableEq, Repr

/-- What a request adds to the log. -/
def scores (L : Laravel) (db : Database) (step : Step) : List Score :=
  match step.call with
  | .score user request =>
      match isError (answer L db step), (request.get .restaurantId).key? with
      | false, some r => [⟨user, r, (boolColumn (request.get .send)).getD false⟩]
      | _, _ => []
  | _ => []

/-- The log of a run. -/
def scoreLog (L : Laravel) (db : Database) (run : List Step) : List Score :=
  trace (serve L) (scores L) db run

/-- A request adds one score at most. -/
theorem scores_of_mem {L : Laravel} {db : Database} {step : Step} {e : Score}
    (he : e ∈ scores L db step) : scores L db step = [e] := by
  obtain ⟨env, call⟩ := step
  cases call with
  | score user request =>
      cases herror : isError (answer L db ⟨env, .score user request⟩) with
      | true => simp [scores, herror] at he
      | false =>
          cases hkey : (request.get .restaurantId).key? with
          | none => simp [scores, herror, hkey] at he
          | some r =>
              simp only [scores, herror, hkey, List.mem_singleton] at he ⊢
              rw [he]
  | _ => cases he

/-- The scores of one restaurant. -/
def scoresOf (log : List Score) (r : Nat) : List Score := log.filter fun e => e.restaurant == r

/-- The users who have scored a restaurant. -/
def raters (log : List Score) (r : Nat) : Finset Nat := ((scoresOf log r).map Score.user).toFinset

/-- The users whose latest score of it was a like. -/
def likers (log : List Score) (r : Nat) : Finset Nat :=
  (raters log r).filter fun u => (latest Score.user (scoresOf log r) u).any Score.send

/-- Both pages show the number of likers. -/
def CountsLikers (db : Database) (log : List Score) : Prop :=
  ∀ r n, (n ∈ likesCounts (RestaurantController.all.serve db).answer r ∨
      ∃ metres query,
        n ∈ likesCounts ((RestaurantController.filter metres query).serve db).answer r) →
    n = (likers log r).card

theorem mem_raters {log : List Score} {r u : Nat} :
    u ∈ raters log r ↔ ∃ e ∈ log, e.restaurant = r ∧ e.user = u := by
  simp [raters, scoresOf, and_assoc]

/-- There are as many likers as raters when every rater's latest score is a like. -/
theorem card_likers {log : List Score} {r : Nat} :
    (likers log r).card = (raters log r).card ↔
      ∀ u ∈ raters log r, (latest Score.user (scoresOf log r) u).any Score.send = true := by
  unfold likers
  rw [Finset.card_filter_eq_iff]

/-! ### One score -/

/-- The restaurant of a valid score exists. -/
theorem scored_restaurant {db : Database} {request : Request}
    (hvalid : failed db request.input RestaurantController.scoreRules = []) :
    ∃ r restaurant, (request.get .restaurantId).key? = some r ∧
      db.restaurants.row r = some restaurant := by
  have hrule : (Attr.restaurantId, [Rule.required, .exists_ restaurants.table])
      ∈ RestaurantController.scoreRules := by simp [RestaurantController.scoreRules]
  have hexists : (Rule.exists_ restaurants.table).passes db (request.get .restaurantId) = true :=
    passes_of_required hvalid hrule (by simp) (by simp)
  exact exists_passes hexists

/-- Whose row it is, and of which restaurant, is what the clause looks for. -/
theorem ownLike_iff {user r : Nat} {request : Request} {i : Nat} {like : Like}
    (hkey : (request.get .restaurantId).key? = some r) :
    RestaurantController.ownLike user request i like = true ↔
      like.userId = user ∧ like.restaurantId = r := by
  unfold RestaurantController.ownLike
  rw [Bool.and_eq_true, beq_iff_eq]
  refine and_congr_right fun _ => ⟨Value.eq_of_equalsInt hkey, ?_⟩
  rintro hr
  rw [hr]
  exact Value.equalsInt_of_key hkey

/-- The rows of the table of likes are the pairs of the log, each once. -/
structure Scored (db : Database) (log : List Score) : Prop where
  distinct : db.likes.Distinct fun like => (like.userId, like.restaurantId)
  logged : ∀ i like, db.likes.row i = some like →
    ∃ e ∈ log, like.userId = e.user ∧ like.restaurantId = e.restaurant
  rows : ∀ e ∈ log, ∃ i like, db.likes.row i = some like ∧
    like.userId = e.user ∧ like.restaurantId = e.restaurant

section Step

variable {L : Laravel} {db db' : Database} {log : List Score} {i : Nat} {like : Like} {e : Score}

/-- Writing the row of the pair that is logged. -/
theorem Scored.sets (h : Scored db log) (hsets : db.likes.Sets db'.likes i like)
    (huser : like.userId = e.user) (hrestaurant : like.restaurantId = e.restaurant)
    (hown : ∀ j other, db.likes.row j = some other → j ≠ i →
      (other.userId, other.restaurantId) ≠ (like.userId, like.restaurantId))
    (hold : ∀ other, db.likes.row i = some other →
      other.userId = like.userId ∧ other.restaurantId = like.restaurantId) :
    Scored db' (log ++ [e]) where
  distinct := h.distinct.sets hsets hown
  logged j other hother := by
    by_cases hj : j = i
    · subst hj
      rw [hsets.here] at hother
      cases hother
      exact ⟨e, by simp, huser, hrestaurant⟩
    · rw [hsets.elsewhere j hj] at hother
      obtain ⟨d, hd, hpair⟩ := h.logged j other hother
      exact ⟨d, by simp [hd], hpair⟩
  rows d hd := by
    rcases List.mem_append.mp hd with hd | hd
    · obtain ⟨j, other, hother, hpair⟩ := h.rows d hd
      by_cases hj : j = i
      · subst hj
        obtain ⟨hsame, hsame'⟩ := hold other hother
        exact ⟨j, like, hsets.here, hsame ▸ hpair.1, hsame' ▸ hpair.2⟩
      · exact ⟨j, other, by rw [hsets.elsewhere j hj]; exact hother, hpair⟩
    · obtain rfl : d = e := by simpa using hd
      exact ⟨i, like, hsets.here, huser, hrestaurant⟩

theorem scored_step {env : Env} {user : Nat} {request : Request} (h : Scored db log) :
    Scored (serve L db ⟨env, .score user request⟩)
      (log ++ scores L db ⟨env, .score user request⟩) := by
  have hrates := rates L db env user request
  generalize serve L db ⟨env, .score user request⟩ = db' at hrates ⊢
  generalize ha : answer L db ⟨env, .score user request⟩ = a at hrates
  cases hrates with
  | refused herror =>
      rw [show scores L db ⟨env, .score user request⟩ = [] by simp [scores, ha, herror],
        List.append_nil]
      exact h
  | @first like hvalid hnone hm =>
      obtain ⟨r, restaurant, hkey, -⟩ := scored_restaurant hvalid
      obtain ⟨huser, hrestaurant, -⟩ := RestaurantController.like_of_make hm
      have hr : like.restaurantId = r := Value.intColumn_of_key hkey hrestaurant
      rw [show scores L db ⟨env, .score user request⟩
          = [⟨user, r, (boolColumn (request.get .send)).getD false⟩] by
        simp [scores, ha, hkey, isError, json]]
      refine h.sets (db.likes.insert_sets like) huser hr ?_ (fun other hother => by simp at hother)
      intro j other hother _ heq
      rw [huser, hr, Prod.mk.injEq] at heq
      have hown : RestaurantController.ownLike user request j other = true :=
        (ownLike_iff hkey).mpr heq
      rw [Table.first_none.mp hnone j other hother] at hown
      cases hown
  | @again i like f hvalid hby hf =>
      obtain ⟨r, restaurant, hkey, -⟩ := scored_restaurant hvalid
      obtain ⟨hrow, hown⟩ := Table.first_some hby
      obtain ⟨huser, hr⟩ := (ownLike_iff hkey).mp hown
      obtain ⟨n, -, hsent⟩ := RestaurantController.like_of_dirty hf
      rw [show scores L db ⟨env, .score user request⟩
          = [⟨user, r, (boolColumn (request.get .send)).getD false⟩] by
        simp [scores, ha, hkey, isError, json]]
      have hsets := Table.modify_sets (f := f) hrow
      rw [hsent] at hsets
      have hother : ∀ j other, db.likes.row j = some other → j ≠ i →
          (other.userId, other.restaurantId) ≠ (like.userId, like.restaurantId) :=
        h.distinct.own hrow
      refine h.sets hsets huser hr hother fun other hother => ?_
      rw [hrow] at hother
      cases hother
      exact ⟨rfl, rfl⟩

end Step

/-- A restaurant has a row in the table of likes for each user who has scored it. -/
theorem Scored.count {db : Database} {log : List Score} (h : Scored db log) (r : Nat) :
    (Restaurant.likes db r).length = (raters log r).card := by
  have hnodup : ((Restaurant.likes db r).map fun x => x.2.userId.toNat).Nodup := by
    refine h.distinct.nodup_map (fun like => like.userId.toNat) ?_
    rintro ⟨i, like⟩ hlike ⟨j, other⟩ hother heq
    obtain ⟨hi, hr⟩ := Table.mem_filter.mp hlike
    obtain ⟨hj, hr'⟩ := Table.mem_filter.mp hother
    obtain ⟨d, -, hd, -⟩ := h.logged i like hi
    obtain ⟨e, -, he, -⟩ := h.logged j other hj
    simp only [beq_iff_eq] at hr hr'
    simp only [hd, he, Int.toNat_natCast] at heq
    simp only [hd, he, hr, hr', heq]
  have hset : ((Restaurant.likes db r).map fun x => x.2.userId.toNat).toFinset = raters log r := by
    ext u
    rw [List.mem_toFinset, List.mem_map, mem_raters]
    constructor
    · rintro ⟨⟨i, like⟩, hlike, rfl⟩
      obtain ⟨hi, hr⟩ := Table.mem_filter.mp hlike
      obtain ⟨e, he, huser, hrestaurant⟩ := h.logged i like hi
      refine ⟨e, he, ?_, by simp [huser]⟩
      have : (e.restaurant : Int) = r := by rw [← hrestaurant]; simpa using hr
      exact_mod_cast this
    · rintro ⟨e, he, rfl, rfl⟩
      obtain ⟨i, like, hi, huser, hrestaurant⟩ := h.rows e he
      exact ⟨(i, like), Table.mem_filter.mpr ⟨hi, by simp [hrestaurant]⟩, by simp [huser]⟩
  rw [← List.length_map (fun x : Nat × Like => x.2.userId.toNat),
    ← List.toFinset_card_of_nodup hnodup, hset]

/-! ### Runs -/

/-- The score passes its rules and fits the columns of its row. -/
def rated (db : Database) (user : Nat) (request : Request) : Bool :=
  (failed db request.input RestaurantController.scoreRules).isEmpty &&
    match db.likes.first (RestaurantController.ownLike user request) with
    | some (_, like) =>
        (likes.dirty (.only .send (request.get .send)) like likes.fillable).isSome
    | none => (likes.make (RestaurantController.likeAttributes user request)).isSome

/-- Such a score that takes a like back. -/
def unlikes (db : Database) (step : Step) : Bool :=
  match step.call with
  | .score user request =>
      rated db user request && !(boolColumn (request.get .send)).getD false
  | _ => false

theorem isError_score (L : Laravel) (db : Database) (env : Env) (user : Nat) (request : Request) :
    isError (answer L db ⟨env, .score user request⟩) = !rated db user request := by
  show isError ((RestaurantController.score user request).serve db).result.2 = _
  rw [RestaurantController.score_result]
  unfold rated
  cases failed db request.input RestaurantController.scoreRules with
  | cons e es => rfl
  | nil =>
      dsimp only
      cases db.likes.first (RestaurantController.ownLike user request) with
      | none =>
          dsimp only
          cases likes.make (RestaurantController.likeAttributes user request) <;> rfl
      | some x =>
          dsimp only
          cases likes.dirty (.only .send (request.get .send)) x.2 likes.fillable <;> rfl

theorem unlikes_eq (L : Laravel) (db : Database) (step : Step) :
    unlikes db step = (scores L db step).any fun e => !e.send := by
  obtain ⟨env, call⟩ := step
  cases call with
  | score user request =>
      unfold unlikes scores
      dsimp only
      rw [isError_score]
      cases hrated : rated db user request with
      | false => rfl
      | true =>
          simp only [rated, Bool.and_eq_true, List.isEmpty_iff] at hrated
          obtain ⟨r, -, hkey, -⟩ := scored_restaurant hrated.1
          simp [hkey]
  | _ => rfl

def Call.isScore : Call → Bool
  | score _ _ => true
  | _ => false

theorem scored_after {L : Laravel} {db : Database} {run : List Step}
    (hempty : ∀ i, db.likes.row i = none) (hcalls : ∀ step ∈ run, step.call.isScore = true) :
    Scored (after (serve L) db run) (scoreLog L db run) := by
  have hstart : Scored db [] := by
    refine ⟨.of_empty hempty, fun i like hi => ?_, fun e he => absurd he (by simp)⟩
    rw [hempty i] at hi
    cases hi
  have hstep : ∀ s l r, Scored s l → r.call.isScore = true →
      Scored (serve L s r) (l ++ scores L s r) := by
    rintro s l ⟨env, call⟩ hs hr
    cases call with
    | score user request => exact scored_step hs
    | _ => cases hr
  have hrun : Along (serve L) (fun _ step => step.call.isScore = true) db run :=
    Along.of_forall fun step hmem _ => hcalls step hmem
  have hend := after_trace_invariant hstep hstart hrun
  rwa [List.nil_append] at hend

/-- When no like is taken back, every logged score is one. -/
theorem sent_after {L : Laravel} {db : Database} {run : List Step}
    (hrun : Along (serve L) (fun db step => unlikes db step = false) db run) :
    ∀ e ∈ scoreLog L db run, e.send = true := by
  have hstep : ∀ s l r, (∀ e ∈ l, e.send = true) → unlikes s r = false →
      ∀ e ∈ l ++ scores L s r, Score.send e = true := by
    intro s l r hl hr e he
    rcases List.mem_append.mp he with he | he
    · exact hl e he
    · rw [unlikes_eq L] at hr
      simpa using List.any_eq_false.mp hr e he
  have hstart : ∀ e ∈ ([] : List Score), e.send = true := by simp
  have hend : ∀ e ∈ [] ++ trace (serve L) (scores L) db run, e.send = true :=
    after_trace_invariant hstep hstart hrun
  rwa [List.nil_append] at hend

/-- The pages show the number of raters, so they are right where every rater is a liker. -/
theorem countsLikers_iff {db : Database} {log : List Score} (h : Scored db log) :
    CountsLikers db log ↔
      ∀ r, (db.restaurants.row r).isSome = true →
        ∀ u ∈ raters log r, (latest Score.user (scoresOf log r) u).any Score.send = true := by
  constructor
  · intro hcounts r hr
    have hn := hcounts r _ (.inl (RestaurantController.mem_all_counts.mpr ⟨hr, rfl⟩))
    rw [h.count] at hn
    exact card_likers.mp hn.symm
  · intro hlikers r n hn
    have hshown : (db.restaurants.row r).isSome = true ∧ n = (Restaurant.likes db r).length := by
      rcases hn with hall | ⟨metres, query, hfilter⟩
      · exact RestaurantController.mem_all_counts.mp hall
      · exact RestaurantController.mem_filter_counts hfilter
    rw [hshown.2, h.count]
    exact (card_likers.mpr (hlikers r hshown.1)).symm

/-- The restaurant of a logged score is there afterwards. -/
theorem restaurant_of_scores {L : Laravel} {db : Database} {env : Env} {user : Nat}
    {request : Request} {e : Score} (he : e ∈ scores L db ⟨env, .score user request⟩) :
    ((serve L db ⟨env, .score user request⟩).restaurants.row e.restaurant).isSome = true := by
  have hrates := rates L db env user request
  generalize serve L db ⟨env, .score user request⟩ = db' at hrates ⊢
  generalize ha : answer L db ⟨env, .score user request⟩ = a at hrates
  have hlogged : ∀ r, (request.get .restaurantId).key? = some r → isError a = false →
      e.restaurant = r := by
    intro r hkey herror
    have hone : e = ⟨user, r, (boolColumn (request.get .send)).getD false⟩ := by
      simpa [scores, ha, hkey, herror] using he
    rw [hone]
  cases hrates with
  | refused herror => simp [scores, ha, herror] at he
  | first hvalid hnone hm =>
      obtain ⟨r, restaurant, hkey, hrow⟩ := scored_restaurant hvalid
      rw [hlogged r hkey rfl, hrow]
      rfl
  | again hvalid hby hf =>
      obtain ⟨r, restaurant, hkey, hrow⟩ := scored_restaurant hvalid
      rw [hlogged r hkey rfl, hrow]
      rfl

/-- Right after a like is taken back the pages count one too many. -/
theorem not_counts_of_unlikes {L : Laravel} {db : Database} {log : List Score} {step : Step}
    (h : Scored (serve L db step) (log ++ scores L db step)) (hun : unlikes db step = true) :
    ¬ CountsLikers (serve L db step) (log ++ scores L db step) := by
  intro hcounts
  rw [unlikes_eq L] at hun
  obtain ⟨e, he, hsend⟩ := List.any_eq_true.mp hun
  obtain ⟨env, call⟩ := step
  cases call with
  | score user request =>
      have hone := scores_of_mem he
      have hrow := restaurant_of_scores he
      rw [hone] at hcounts h
      have hlatest : latest Score.user (scoresOf (log ++ [e]) e.restaurant) e.user = some e := by
        have hsplit : scoresOf (log ++ [e]) e.restaurant
            = scoresOf log e.restaurant ++ [e] := by simp [scoresOf]
        rw [hsplit]
        exact latest_self rfl
      have hany := (countsLikers_iff h).mp hcounts e.restaurant hrow e.user
        (mem_raters.mpr ⟨e, by simp, rfl, rfl⟩)
      rw [hlatest] at hany
      simp_all
  | _ => cases he

/-- **The number of likes is the number of users whose latest score is a like, at every
point of a run, exactly when no accepted score of it takes a like back.** -/
theorem likesCount_iff (L : Laravel) (db : Database) (run : List Step)
    (hempty : ∀ i, db.likes.row i = none) (hcalls : ∀ step ∈ run, step.call.isScore = true) :
    (∀ pre post, run = pre ++ post →
        CountsLikers (after (serve L) db pre) (scoreLog L db pre)) ↔
      Along (serve L) (fun db step => unlikes db step = false) db run := by
  constructor
  · intro h
    refine along_iff.mpr fun pre step post heq => ?_
    by_contra hne
    have hrun : run = (pre ++ [step]) ++ post := by simpa using heq
    have hcalls' : ∀ q ∈ pre ++ [step], q.call.isScore = true := by
      intro q hq
      exact hcalls q (by rw [hrun]; exact List.mem_append_left post hq)
    have hcounts := h (pre ++ [step]) post hrun
    have hscored := scored_after (L := L) hempty hcalls'
    have hlog : scoreLog L db (pre ++ [step])
        = scoreLog L db pre ++ scores L (after (serve L) db pre) step := by
      unfold scoreLog
      rw [trace_append]
      simp [trace]
    rw [hlog, after_append] at hcounts hscored
    exact not_counts_of_unlikes hscored (by simpa using hne) hcounts
  · intro hrun pre post heq
    subst heq
    have hscored := scored_after (L := L) hempty
      fun step hmem => hcalls step (List.mem_append_left post hmem)
    have hsent := sent_after (along_append.mp hrun).1
    refine (countsLikers_iff hscored).mpr fun r _ u hu => ?_
    obtain ⟨e, he, hr, huser⟩ := mem_raters.mp hu
    have hof : e ∈ scoresOf (scoreLog L db pre) r := List.mem_filter.mpr ⟨he, by simpa using hr⟩
    obtain ⟨d, hd⟩ := exists_latest hof huser
    rw [hd]
    exact hsent d (List.mem_filter.mp (latest_some hd).1).1

theorem likesCount_run :
    CountsLikers (after (serve Sample.laravel) Sample.town
        [Sample.score 1 1 true, Sample.score 2 1 true, Sample.score 1 1 true])
      (scoreLog Sample.laravel Sample.town
        [Sample.score 1 1 true, Sample.score 2 1 true, Sample.score 1 1 true]) :=
  (likesCount_iff Sample.laravel Sample.town
    [Sample.score 1 1 true, Sample.score 2 1 true, Sample.score 1 1 true]
    (fun _ => rfl) (by decide)).mpr (by decide +kernel) _ [] (by simp)

/-- A user takes a like back and is counted still, on both pages. -/
theorem unliked_counted :
    let run := [Sample.score 1 1 true, Sample.score 1 1 false]
    let db := after (serve Sample.laravel) Sample.town run
    let query : RestaurantController.Query := ⟨Sample.request [], none, fun h => absurd rfl h⟩
    likesCounts (RestaurantController.all.serve db).answer 1 = [1] ∧
      likesCounts ((RestaurantController.filter (fun _ _ _ _ => 0) query).serve db).answer 1
        = [1] ∧
      likers (scoreLog Sample.laravel Sample.town run) 1 = ∅ := by
  decide +kernel

end Spoiler
