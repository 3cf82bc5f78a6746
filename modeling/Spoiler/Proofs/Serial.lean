/-
Requests that keep apart leave what a serial run leaves.

The invariant goes along an interleaving: every request is in one of its phases, the
shared state trails the state of a serial run of the requests that have their place, and
each request that has been refused would have changed nothing at some point of that run.
A statement either leaves the serial run as it is or appends the request to it.
-/
import Spoiler.App.Sample
import Spoiler.Proofs.Trails

namespace Spoiler

open Store Php OrderController

variable {ι : Type}

/-- The requests by name, served one after another. -/
def serveOf (L : Laravel) (requests : ι → Step) (s : Database) (a : ι) : Database :=
  serve L s (requests a)

theorem after_serveOf (L : Laravel) (requests : ι → Step) (db : Database) (run : List ι) :
    after (serveOf L requests) db run = after (serve L) db (run.map requests) := by
  unfold after
  rw [List.foldl_map]
  rfl

/-! ### The invariant -/

structure Serial (L : Laravel) (db : Database) (requests : ι → Step)
    (pool : Pool ι Database Event Exn Response) (stage : ι → Stage) (run : List ι) : Prop where
  phase : ∀ b, Phase pool.state (requests b) (pool.procs b) (stage b)
  trails : Trails stage pool.state (after (serveOf L requests) db run)
  placed : ∀ b, b ∈ run ↔ (stage b).placed = true
  nodup : run.Nodup
  idle : ∀ b, stage b = .refused → IdleIn (serveOf L requests) db run b
  /-- What can be seen of a stock is what it was at some point of the serial run. -/
  seen : ∀ i, ∃ pre post, run = pre ++ post ∧
    (after (serveOf L requests) db pre).deprivateLists = pool.state.deprivateLists ∧
    ((after (serveOf L requests) db pre).foods.row i).map Food.remaining
      = (pool.state.foods.row i).map Food.remaining
  /-- No order has gone away. -/
  kept : ∀ k, pool.state.orders.row k = none → db.orders.row k = none

namespace Serial

variable {L : Laravel} {db : Database} {requests : ι → Step}
  {pool : Pool ι Database Event Exn Response} {stage : ι → Stage} {run : List ι}

theorem start (hkind : ∀ a, (requests a).call.isContended = true) :
    Serial L db requests (inFlight L db requests) (fun _ => .waiting) [] where
  phase b := Phase.start L (hkind b)
  trails := ⟨rfl, Ahead.refl (fun _ => rfl) _, Ahead.refl (fun _ => rfl) _⟩
  placed _ := by simp [Stage.placed]
  nodup := List.nodup_nil
  idle _ h := by cases h
  seen _ := ⟨[], [], rfl, rfl, rfl⟩
  kept _ h := h

/-- Nobody else owes the stock a request holds. -/
theorem unowed (h : Serial L db requests pool stage run) (hapart : Apart requests pool) {a : ι}
    {i : Nat} (hdebt : (stage a).debt = none)
    (hheld : heldStock (requests a) (pool.procs a) pool.state = some i) (b : ι) (d : Debt)
    (hst : stage b = .owing d) : d.food ≠ i := by
  have hne : a ≠ b := by
    rintro rfl
    rw [hst] at hdebt
    cases hdebt
  have hb := h.phase b
  rw [hst] at hb
  rintro rfl
  exact ne_of_sameRow (hapart a b hne).1 hheld hb.owing_stock

/-- Nobody owes a stock that a loaded update is going to write. -/
theorem unowed_update (h : Serial L db requests pool stage run) (hapart : Apart requests pool)
    {a : ι} {env : Env} {id : Value} {request : Request} {prog : Handler} {conn : Conn Database}
    {n i : Nat} (hr : requests a = ⟨env, .foodUpdate id request⟩)
    (hp : pool.procs a = ⟨prog, conn, n⟩) (hst : stage a = .waiting) (hend : prog.ended = false)
    (hn : 1 ≤ n) (hkey : id.key? = some i)
    (hcarry : (request.input .remaining).isSome = true) (b : ι) (d : Debt)
    (hb : stage b = .owing d) : d.food ≠ i := by
  refine h.unowed hapart (a := a) (by rw [hst]; rfl) ?_ b d hb
  rw [hr, hp]
  exact heldStock_update hend hn hkey hcarry

/-- The others are where they were. -/
theorem others (h : Serial L db requests pool stage run) (hapart : Apart requests pool) {a b : ι}
    (hb : b ≠ a) {s : Database}
    (hframe : Frame (heldStock (requests a) (pool.procs a) pool.state)
      (heldCard (requests a) (pool.procs a)) (heldOrder (requests a) (pool.procs a)) pool.state s) :
    Phase s (requests b) (pool.procs b) (stage b) := by
  obtain ⟨hstock, hcard, horder⟩ := hapart b a hb
  exact (h.phase b).frame hframe (fun i => ne_of_sameRow hstock) (fun i => ne_of_sameRow hcard)
    (fun k => ne_of_sameRow horder)

/-! ### Refusals -/

/-- What `store` has seen and refused, it would refuse at some point of the serial run. -/
theorem idle_store (h : Serial L db requests pool stage run) {a : ι} {env : Env} {user : Nat}
    {request : Request} (hr : requests a = ⟨env, .orderStore user request⟩)
    (hv : ∀ i row, verdict pool.state user request ≠ .ok (i, row)) :
    IdleIn (serveOf L requests) db run a := by
  cases hkey : (request.get .foodId).key? with
  | none =>
      refine idleIn_end ?_
      rw [serveOf, hr]
      refine serve_store_refused L fun i row hok => ?_
      obtain ⟨hsome, -⟩ := lookup_food (verdict_ok.mp hok).1
      rw [hkey] at hsome
      cases hsome
  | some i =>
      obtain ⟨pre, post, hpre, hlists, hseen⟩ := h.seen i
      refine ⟨pre, post, hpre, ?_⟩
      rw [serveOf, hr]
      refine serve_store_refused L fun j row hok => ?_
      obtain ⟨hj, hrow⟩ := lookup_food (verdict_ok.mp hok).1
      rw [hkey] at hj
      cases hj
      rw [hrow] at hseen
      obtain ⟨row', hrow', hrem⟩ := Option.map_eq_some_iff.mp hseen.symm
      exact absurd (verdict_congr hlists.symm hok hrow' hrem) (hv i row')

/-- An order that was missing was missing at the start. -/
theorem idle_cancel_missing (h : Serial L db requests pool stage run) {a : ι} {env : Env}
    {id : Value} (hr : requests a = ⟨env, .orderCancel id⟩)
    (hl : orders.lookup pool.state id = none) : IdleIn (serveOf L requests) db run a := by
  refine ⟨[], run, rfl, ?_⟩
  rw [serveOf, hr, after_nil]
  refine serve_cancel_refused L fun k order hfound => ?_
  obtain ⟨hkey, hrow⟩ := lookup_order hfound
  cases hnow : pool.state.orders.row k with
  | none =>
      rw [h.kept k hnow] at hrow
      cases hrow
  | some order' =>
      rw [Model.lookup_some.mpr ⟨hkey, hnow⟩] at hl
      cases hl

/-- An order that is not to be sent can be cancelled again. -/
theorem idle_cancel (h : Serial L db requests pool stage run) {a : ι} {env : Env} {id : Value}
    {k : Nat} {order : Order} (hr : requests a = ⟨env, .orderCancel id⟩)
    (hl : orders.lookup pool.state id = some (k, order)) (hsend : order.send = false) :
    IdleIn (serveOf L requests) db run a := by
  refine idleIn_end ?_
  rw [serveOf, hr]
  refine serve_cancel_refused L fun j found hfound => ?_
  rw [h.trails.sees_order hl] at hfound
  cases hfound
  exact hsend

theorem idle_update_missing (h : Serial L db requests pool stage run) {a : ι} {env : Env}
    {id : Value} {request : Request} (hr : requests a = ⟨env, .foodUpdate id request⟩)
    (hl : foods.lookup pool.state id = none) : IdleIn (serveOf L requests) db run a := by
  refine idleIn_end ?_
  rw [serveOf, hr]
  refine serve_update_refused L fun i row hfound => ?_
  rw [h.trails.sees_no_food hl] at hfound
  cases hfound

/-- An update that is refused here would be refused in the serial run. -/
theorem idle_update (h : Serial L db requests pool stage run) {a : ι} {env : Env} {id : Value}
    {request : Request} {i : Nat} {row food : Food}
    (hr : requests a = ⟨env, .foodUpdate id request⟩) (hkey : id.key? = some i)
    (hrow : pool.state.foods.row i = some row) (hmatch : Matches request row food)
    (hfree : (request.input .remaining).isSome = true → ∀ b d, stage b = .owing d → d.food ≠ i)
    (hno : TurnsDown env request i food pool.state) :
    IdleIn (serveOf L requests) db run a := by
  refine idleIn_end ?_
  rw [serveOf, hr]
  refine serve_update_refused L fun j row' hl f hvalid hf => ?_
  obtain ⟨hj, hrow'⟩ := lookup_food hl
  rw [hkey] at hj
  cases hj
  obtain ⟨row'', hrow'', hmatch'⟩ := h.trails.matches_row hrow hmatch hfree
  rw [hrow'] at hrow''
  cases hrow''
  rw [failed_update_congr h.trails.cards h.trails.restaurants hmatch'.1] at hvalid
  rw [changes_matches hmatch'] at hf
  rw [raised_congr hmatch', announce_congr h.trails.restaurants,
    (changes_card hmatch' hf).restaurantId]
  exact hno f hvalid hf

/-! ### Statements -/

section Step

variable [DecidableEq ι] {a : ι} {r : Step} {p : Flight} {st : Stage}

/-- **One statement.**  The request that issues it leaves alone what the others hold. -/
theorem turn (h : Serial L db requests pool stage run) (hapart : Apart requests pool)
    (hr : requests a = r) (hp : pool.procs a = p) (hst : stage a = st)
    {prog : Handler} {s : Database} {conn : Conn Database} {st' : Stage} {run' : List ι}
    (hstep : p.prog.step pool.state p.conn = some (prog, s, conn))
    (hphase : Phase s r ⟨prog, conn, p.issued + 1⟩ st')
    (hframe : Frame (heldStock r p pool.state) (heldCard r p) (heldOrder r p) pool.state s)
    (htrails : Trails (Function.update stage a st') s (after (serveOf L requests) db run'))
    (hrun : (run' = run ∧ st'.placed = st.placed) ∨
      (run' = run ++ [a] ∧ st.placed = false ∧ st'.placed = true))
    (hidle : st' = .refused → IdleIn (serveOf L requests) db run' a)
    (hseen : ∀ i, (s.foods.row i).map Food.remaining
        = (pool.state.foods.row i).map Food.remaining ∨
      (after (serveOf L requests) db run').foods.row i = s.foods.row i) :
    Serial L db requests (pool.step a) (Function.update stage a st') run' := by
  subst hr hp hst
  have hstate : (pool.step a).state = s := Pool.step_state hstep
  have hgrow : ∃ rest, run' = run ++ rest := by
    rcases hrun with ⟨rfl, -⟩ | ⟨rfl, -⟩
    · exact ⟨[], (List.append_nil _).symm⟩
    · exact ⟨[a], rfl⟩
  obtain ⟨rest, hrest⟩ := hgrow
  refine ⟨fun b => ?_, by rw [hstate]; exact htrails, fun b => ?_, ?_, fun b hb => ?_,
    fun i => ?_, fun k hk => ?_⟩
  · by_cases hb : b = a
    · subst hb
      rw [hstate, Pool.step_self hstep, Function.update_self]
      exact hphase
    · rw [hstate, Pool.step_other hb, Function.update_of_ne hb]
      exact h.others hapart hb hframe
  · by_cases hb : b = a
    · subst hb
      rw [Function.update_self]
      rcases hrun with ⟨rfl, hsame⟩ | ⟨rfl, -, hnew⟩
      · rw [hsame]
        exact h.placed b
      · simp [hnew]
    · rw [Function.update_of_ne hb, ← h.placed b]
      rcases hrun with ⟨rfl, -⟩ | ⟨rfl, -⟩
      · exact Iff.rfl
      · simp [hb]
  · rcases hrun with ⟨rfl, -⟩ | ⟨rfl, hold, -⟩
    · exact h.nodup
    · have hout : a ∉ run := by
        rw [h.placed a, hold]
        exact Bool.false_ne_true
      exact List.nodup_append.mpr ⟨h.nodup, List.nodup_singleton a, by
        rintro b hb c hc rfl
        exact hout (List.mem_singleton.mp hc ▸ hb)⟩
  · by_cases hba : b = a
    · subst hba
      rw [Function.update_self] at hb
      exact hidle hb
    · rw [Function.update_of_ne hba] at hb
      rw [hrest]
      exact (h.idle b hb).append rest
  · rw [hstate]
    rcases hseen i with hsame | hnow
    · obtain ⟨pre, post, hpre, hlists, hrow⟩ := h.seen i
      refine ⟨pre, post ++ rest, by rw [hrest, hpre, List.append_assoc], ?_, hrow.trans hsame.symm⟩
      exact hlists.trans hframe.deprivateLists.symm
    · exact ⟨run', [], (List.append_nil _).symm, htrails.deprivateLists, by rw [hnow]⟩
  · rw [hstate] at hk
    refine h.kept k ?_
    cases hrow : pool.state.orders.row k with
    | none => rfl
    | some order =>
        obtain ⟨order', hrow', -⟩ := hframe.order k order hrow
        exact absurd (hk.symm.trans hrow') (fun h => nomatch h)

/-- A statement that shows nothing outside and leaves the stage as it is. -/
theorem stays (h : Serial L db requests pool stage run) (hapart : Apart requests pool)
    (hr : requests a = r) (hp : pool.procs a = p) (hst : stage a = st)
    {prog : Handler} {conn : Conn Database}
    (hstep : p.prog.step pool.state p.conn = some (prog, pool.state, conn))
    (hphase : Phase pool.state r ⟨prog, conn, p.issued + 1⟩ st) :
    Serial L db requests (pool.step a) stage run := by
  have hsame : Function.update stage a st = stage := by rw [← hst, Function.update_eq_self]
  have hturn := h.turn hapart hr hp hst hstep hphase .refl (by rw [hsame]; exact h.trails)
    (.inl ⟨rfl, rfl⟩) (fun heq => h.idle a (hst.trans heq)) (fun _ => .inl rfl)
  rwa [hsame] at hturn

/-- A request that is refused. -/
theorem refuses (h : Serial L db requests pool stage run) (hapart : Apart requests pool)
    (hr : requests a = r) (hp : pool.procs a = p) (hst : stage a = .waiting)
    {prog : Handler} {conn : Conn Database}
    (hstep : p.prog.step pool.state p.conn = some (prog, pool.state, conn))
    (hphase : Phase pool.state r ⟨prog, conn, p.issued + 1⟩ .refused)
    (hidle : IdleIn (serveOf L requests) db run a) :
    Serial L db requests (pool.step a) (Function.update stage a .refused) run := by
  refine h.turn hapart hr hp hst hstep hphase .refl ?_ (.inl ⟨rfl, rfl⟩) (fun _ => hidle)
    (fun _ => .inl rfl)
  exact h.trails.same (by rw [hst]; rfl) rfl

/-- A request that takes its place. -/
theorem places (h : Serial L db requests pool stage run) (hapart : Apart requests pool)
    (hr : requests a = r) (hp : pool.procs a = p) (hst : stage a = .waiting)
    {prog : Handler} {s : Database} {conn : Conn Database} {st' : Stage}
    (hstep : p.prog.step pool.state p.conn = some (prog, s, conn))
    (hphase : Phase s r ⟨prog, conn, p.issued + 1⟩ st')
    (hframe : Frame (heldStock r p pool.state) (heldCard r p) (heldOrder r p) pool.state s)
    (htrails : Trails (Function.update stage a st') s
      (serve L (after (serveOf L requests) db run) r))
    (hplaced : st'.placed = true)
    (hseen : ∀ i, (s.foods.row i).map Food.remaining
        = (pool.state.foods.row i).map Food.remaining ∨
      (serve L (after (serveOf L requests) db run) r).foods.row i = s.foods.row i) :
    Serial L db requests (pool.step a) (Function.update stage a st') (run ++ [a]) := by
  have hafter : after (serveOf L requests) db (run ++ [a])
      = serve L (after (serveOf L requests) db run) r := by
    rw [after_append, after_cons, after_nil, serveOf, hr]
  refine h.turn hapart hr hp hst hstep hphase hframe (by rw [hafter]; exact htrails)
    (.inr ⟨rfl, rfl, hplaced⟩) (fun heq => ?_) (by rw [hafter]; exact hseen)
  rw [heq] at hplaced
  cases hplaced

/-- A request that pays what it owes. -/
theorem pays (h : Serial L db requests pool stage run) (hapart : Apart requests pool)
    (hr : requests a = r) (hp : pool.procs a = p) {d : Debt} (hst : stage a = .owing d)
    {prog : Handler} {conn : Conn Database}
    (hstep : p.prog.step pool.state p.conn = some (prog, d.pay pool.state, conn))
    (hq : prog.Quiet) :
    Serial L db requests (pool.step a) (Function.update stage a .served) run := by
  have hheld : heldStock r p pool.state = some d.food := by
    have hphase := h.phase a
    rw [hr, hp, hst] at hphase
    exact hphase.owing_stock
  have hnew : ∀ k order, d.order = some (k, order) → pool.state.orders.row k = none := by
    intro k order hkey
    exact (h.trails.orders.due a k order (by rw [hst]; exact hkey)).1
  refine h.turn hapart hr hp hst hstep (.quiet hq (.inl rfl)) (.pay hheld hnew)
    (h.trails.pay hst) (.inl ⟨rfl, rfl⟩) (fun heq => nomatch heq) fun i => ?_
  by_cases hi : i = d.food
  · subst hi
    exact .inr (h.trails.paid_row hst)
  · refine .inl ?_
    show ((pool.state.foods.modify d.food _).row i).map _ = _
    rw [Table.modify_row, if_neg hi]

end Step

/-! ### The statements of each phase -/

section Phases

variable [DecidableEq ι] {a : ι} {env : Env} {user : Nat} {id : Value} {request : Request}
  {prog tail : Handler} {snap : Database} {ws : List (Database → Database)} {n i k f : Nat}
  {food row : Food} {order found : Order} {x : Int} {st : Stage}
  (h : Serial L db requests pool stage run) (hapart : Apart requests pool)
include h hapart

theorem quiet_step {r : Step} {p : Flight} (hr : requests a = r) (hp : pool.procs a = p)
    (hst : stage a = st) (hq : p.prog.Quiet) (hend : st = .served ∨ st = .refused) :
    Serial L db requests (pool.step a) stage run := by
  cases hstep : p.prog.step pool.state p.conn with
  | none =>
      rw [Pool.step_ended (by rw [hp]; exact hstep)]
      exact h
  | some y =>
      obtain ⟨prog, s, conn⟩ := y
      obtain ⟨rfl, hq'⟩ := hq.step hstep
      exact h.stays hapart hr hp hst hstep (.quiet hq' hend)

theorem stuck_step {r : Step} (hr : requests a = r)
    (hp : pool.procs a = ⟨prog, ⟨some snap, [ws]⟩, n⟩) (hst : stage a = st)
    (hinner : prog.inner snap ws = .stops) (hend : st = .served ∨ st = .refused) :
    Serial L db requests (pool.step a) stage run := by
  cases hstep : prog.step pool.state ⟨some snap, [ws]⟩ with
  | none =>
      rw [Pool.step_ended (by rw [hp]; exact hstep)]
      exact h
  | some y =>
      obtain ⟨prog', ws', rfl, hinner'⟩ := Prog.step_of_stops hinner hstep
      exact h.stays hapart hr hp hst hstep (.stuck hinner' hend)

/-! #### Orders -/

theorem storeStart_step (hr : requests a = ⟨env, .orderStore user request⟩)
    (hp : pool.procs a = .start (store env user request)) (hst : stage a = .waiting) :
    Serial L db requests (pool.step a) stage run := by
  obtain ⟨k, hk, hinner⟩ := store_inner env user request
  rw [hk] at hp
  exact h.stays hapart hr hp hst rfl (.storeBegun hinner)

theorem storeBegun_step {k : Database → Handler}
    (hr : requests a = ⟨env, .orderStore user request⟩)
    (hp : pool.procs a = ⟨.select k, ⟨none, [[]]⟩, 1⟩) (hst : stage a = .waiting)
    (hk : ∀ snap, (k snap).inner snap [] =
      match verdict snap user request with
      | .error _ => .stops
      | .ok (i, food) => (place env user request i food).inner snap []) :
    ∃ stage' run', Serial L db requests (pool.step a) stage' run' := by
  have hsnap := hk pool.state
  cases hv : verdict pool.state user request with
  | error answer =>
      rw [hv] at hsnap
      refine ⟨_, _, h.refuses hapart hr hp hst rfl (.stuck hsnap (.inr rfl)) ?_⟩
      exact h.idle_store hr fun i row hok => by rw [hv] at hok; cases hok
  | ok y =>
      obtain ⟨i, food⟩ := y
      rw [hv] at hsnap
      dsimp only at hsnap
      rw [place_inner] at hsnap
      cases hm : orders.make (attributes env user request) with
      | none =>
          rw [hm] at hsnap
          refine ⟨_, _, h.refuses hapart hr hp hst rfl (.stuck hsnap (.inr rfl)) ?_⟩
          refine idleIn_end ?_
          rw [serveOf, hr]
          exact serve_store_refused L fun _ _ _ => hm
      | some order =>
          rw [hm] at hsnap
          exact ⟨_, _, h.stays hapart hr hp hst rfl (.storeReading hsnap hm hv hv rfl)⟩

theorem storeReading_step (hr : requests a = ⟨env, .orderStore user request⟩)
    (hp : pool.procs a = ⟨prog, ⟨some snap, [ws]⟩, n⟩) (hst : stage a = .waiting)
    (hinner : prog.inner snap ws = .inserts [] reserveOrder (fun k => putOrder order k)
      (placeRest env request i food order))
    (hm : orders.make (attributes env user request) = some order)
    (hv : verdict snap user request = .ok (i, food))
    (hcur : verdict pool.state user request = .ok (i, row)) (hrem : row.remaining = food.remaining) :
    ∃ stage' run', Serial L db requests (pool.step a) stage' run' := by
  have hend : prog.ended = false := not_ended (by rw [hinner]; exact fun h => nomatch h)
  cases hstep : prog.step pool.state ⟨some snap, [ws]⟩ with
  | none =>
      rw [Prog.ended_iff_step.mpr hstep] at hend
      cases hend
  | some y =>
      rcases Prog.step_of_inserts hinner hstep with ⟨prog', ws', rfl, hinner'⟩ | rfl
      · exact ⟨_, _, h.stays hapart hr hp hst hstep (.storeReading hinner' hm hv hcur hrem)⟩
      · -- the `INSERT`: the order has its key and `store` its place
        have hheld : heldStock (requests a) (pool.procs a) pool.state = some i := by
          rw [hr, hp]
          exact heldStock_store hend hv hm
        have hdebt : (stage a).debt = none := by rw [hst]; rfl
        have hfree := h.unowed hapart hdebt hheld
        have hrest := placeRest_inner env request i food order pool.state.orders.next snap
          [putOrder order pool.state.orders.next]
        rw [← deducted_congr env (request.get .foodNumber) hrem] at hrest
        obtain ⟨hl, -⟩ := verdict_ok.mp hcur
        obtain ⟨-, hrow⟩ := lookup_food hl
        cases hn : (deducted env row (request.get .foodNumber)).intColumn with
        | none =>
            rw [hn] at hrest
            exact ⟨_, _, h.places hapart hr hp hst hstep (.stuck hrest (.inl rfl)) .reserve
              (h.trails.misfit L hdebt hfree hcur hm hn) rfl fun _ => .inl rfl⟩
        | some x =>
            rw [hn] at hrest
            exact ⟨_, _, h.places hapart hr hp hst hstep
              (.storePaying hrest (quiet_newOrder _ _ _ _) hm hv hrow hrem) .reserve
              (h.trails.store L hdebt hfree hcur hm hn) rfl fun _ => .inl rfl⟩

theorem storePaying_step (hr : requests a = ⟨env, .orderStore user request⟩)
    (hp : pool.procs a = ⟨prog, ⟨some snap, [ws]⟩, n⟩)
    (hst : stage a = .owing ⟨some (k, order), i, x⟩)
    (hinner : prog.inner snap ws
      = .commits (foods.buffered [putOrder order k] i food (Food.stocked x)) tail)
    (htail : tail.Quiet) (hm : orders.make (attributes env user request) = some order)
    (hv : verdict snap user request = .ok (i, food)) (hrow : pool.state.foods.row i = some row)
    (hrem : row.remaining = food.remaining) :
    ∃ stage' run', Serial L db requests (pool.step a) stage' run' := by
  cases hstep : prog.step pool.state ⟨some snap, [ws]⟩ with
  | none =>
      rw [Prog.inner_of_step_none hstep] at hinner
      cases hinner
  | some y =>
      rcases Prog.step_of_commits hinner hstep with ⟨prog', ws', rfl, hinner'⟩ | ⟨-, rfl⟩
      · exact ⟨_, _, h.stays hapart hr hp hst hstep
          (.storePaying hinner' htail hm hv hrow hrem)⟩
      · rw [applyAll_placed hrow hrem] at hstep
        exact ⟨_, _, h.pays hapart hr hp hst hstep htail⟩

/-! #### Cancellations -/

theorem cancelStart_step (hr : requests a = ⟨env, .orderCancel id⟩)
    (hp : pool.procs a = .start (cancel id)) (hst : stage a = .waiting) :
    ∃ stage' run', Serial L db requests (pool.step a) stage' run' := by
  rw [cancel_parts] at hp
  have hstep := Prog.step_select_idle (V := Event) (E := Exn) pool.state fun db =>
    if (orders.lookup db id).isSome then cancelFind id
    else .ret (json (.text "the given order id not found") 400)
  cases hl : orders.lookup pool.state id with
  | none =>
      rw [hl] at hstep
      exact ⟨_, _, h.refuses hapart hr hp hst hstep (.quiet trivial (.inr rfl))
        (h.idle_cancel_missing hr hl)⟩
  | some y =>
      rw [hl] at hstep
      exact ⟨_, _, h.stays hapart hr hp hst hstep (.cancelCounted hl)⟩

theorem cancelCounted_step (hr : requests a = ⟨env, .orderCancel id⟩)
    (hp : pool.procs a = ⟨cancelFind id, .idle, 1⟩) (hst : stage a = .waiting)
    (hl : orders.lookup pool.state id = some (k, order)) :
    ∃ stage' run', Serial L db requests (pool.step a) stage' run' := by
  have hstep : (cancelFind id).step pool.state .idle
      = some (if order.send then cancelWrite k order
          else .ret (json (.text "the order has been canceled") 400), pool.state, .idle) := by
    unfold cancelFind
    rw [Prog.step_select_idle, hl]
  cases hsend : order.send with
  | false =>
      rw [hsend] at hstep
      exact ⟨_, _, h.refuses hapart hr hp hst hstep (.quiet trivial (.inr rfl))
        (h.idle_cancel hr hl hsend)⟩
  | true =>
      rw [hsend] at hstep
      exact ⟨_, _, h.stays hapart hr hp hst hstep (.cancelFound hl hsend)⟩

/-- After `cancel` has written its order nobody else owes the stock it gives back. -/
theorem unowed_after (hafter : Apart requests (pool.step a))
    (hr : requests a = ⟨env, .orderCancel id⟩)
    (hp : pool.procs a = ⟨cancelWrite k order, .idle, 2⟩) (hst : stage a = .waiting)
    (hl : orders.lookup pool.state id = some (k, order))
    (hkey : (Value.int order.foodId).key? = some f) (b : ι) (d : Debt)
    (hb : stage b = .owing d) : d.food ≠ f := by
  have hne : a ≠ b := by
    rintro rfl
    rw [hst] at hb
    cases hb
  obtain ⟨hid, hrow⟩ := lookup_order hl
  have hframe : Frame (heldStock (requests a) (pool.procs a) pool.state)
      (heldCard (requests a) (pool.procs a)) (heldOrder (requests a) (pool.procs a)) pool.state
      { pool.state with orders := pool.state.orders.modify k Order.cancelled } := by
    rw [hr, hp]
    exact .cancelled (heldOrder_cancel rfl hid)
  have hphase := h.others hapart hne.symm hframe
  rw [hb] at hphase
  have hl' : orders.lookup { pool.state with
      orders := pool.state.orders.modify k Order.cancelled } id = some (k, order.cancelled) :=
    Model.lookup_some.mpr ⟨hid, (Table.modify_sets hrow).here⟩
  have hstep : (pool.procs a).prog.step pool.state (pool.procs a).conn = some (cancelRestock k order,
      { pool.state with orders := pool.state.orders.modify k Order.cancelled }, .idle) := by
    rw [hp]
    rfl
  have hheld := hafter a b hne
  rw [Pool.step_self hstep, Pool.step_state hstep, Pool.step_other hne.symm, hr, hp] at hheld
  rintro rfl
  exact ne_of_sameRow hheld.1 (heldStock_cancel rfl (Nat.le_refl 3) hl' rfl hkey)
    hphase.owing_stock

theorem cancelFound_step (hafter : Apart requests (pool.step a))
    (hr : requests a = ⟨env, .orderCancel id⟩)
    (hp : pool.procs a = ⟨cancelWrite k order, .idle, 2⟩) (hst : stage a = .waiting)
    (hl : orders.lookup pool.state id = some (k, order)) (hsend : order.send = true) :
    ∃ stage' run', Serial L db requests (pool.step a) stage' run' := by
  obtain ⟨hid, horder⟩ := lookup_order hl
  have hdebt : (stage a).debt = none := by rw [hst]; rfl
  have hfree : ∀ f, (Value.int order.foodId).key? = some f →
      ∀ b d, stage b = .owing d → d.food ≠ f :=
    fun f hkey => h.unowed_after hapart hafter hr hp hst hl hkey
  have hl' : orders.lookup { pool.state with
      orders := pool.state.orders.modify k Order.cancelled } id = some (k, order.cancelled) :=
    Model.lookup_some.mpr ⟨hid, (Table.modify_sets horder).here⟩
  by_cases hfail : ∀ f row, foods.lookup pool.state (.int order.foodId) = some (f, row) →
      (Value.int (row.remaining + order.foodNumber)).intColumn = none
  · exact ⟨_, _, h.places hapart hr hp hst rfl (.cancelStranded hl' rfl hfail)
      (.cancelled (heldOrder_cancel rfl hid)) (h.trails.strand L hdebt hfree hl hsend hfail) rfl
      fun _ => .inl rfl⟩
  · push Not at hfail
    obtain ⟨f, row, hf, hne⟩ := hfail
    obtain ⟨x, hx⟩ := Option.ne_none_iff_exists'.mp hne
    obtain ⟨hkey, hrow⟩ := lookup_food hf
    exact ⟨_, _, h.places hapart hr hp hst rfl (.cancelOwing hl' rfl hkey hrow hx)
      (.cancelled (heldOrder_cancel rfl hid)) (h.trails.cancel L hdebt (hfree f hkey) hl hsend hf hx)
      rfl fun _ => .inl rfl⟩

theorem cancelOwing_step (hr : requests a = ⟨env, .orderCancel id⟩)
    (hp : pool.procs a = ⟨cancelRestock k order, .idle, 3⟩) (hst : stage a = .owing ⟨none, f, x⟩)
    (hl : orders.lookup pool.state id = some (k, found)) (hfood : found.foodId = order.foodId)
    (hkey : (Value.int order.foodId).key? = some f) (hrow : pool.state.foods.row f = some row)
    (hx : (Value.int (row.remaining + order.foodNumber)).intColumn = some x) :
    ∃ stage' run', Serial L db requests (pool.step a) stage' run' := by
  have hstep : (cancelRestock k order).step pool.state .idle
      = some (if x = row.remaining then cancelDone k order else cancelPay k order f x,
          pool.state, .idle) := by
    unfold cancelRestock
    rw [Prog.step_select_idle, Model.lookup_some.mpr ⟨hkey, hrow⟩]
    dsimp only
    rw [hx]
  by_cases hclean : x = row.remaining
  · -- giving back nothing is paying
    rw [if_pos hclean] at hstep
    have hpay : Debt.pay ⟨none, f, x⟩ pool.state = pool.state := by
      show { pool.state with foods := pool.state.foods.modify f (Food.stocked x) } = pool.state
      rw [Table.modify_eq_self hrow (stocked_eq_self.mpr hclean)]
    have hdone : (cancelRestock k order).step pool.state .idle
        = some (cancelDone k order, Debt.pay ⟨none, f, x⟩ pool.state, .idle) := by
      rw [hpay]
      exact hstep
    exact ⟨_, _, h.pays hapart hr hp hst hdone trivial⟩
  · rw [if_neg hclean] at hstep
    exact ⟨_, _, h.stays hapart hr hp hst hstep (.cancelPaying hl hfood hkey hrow)⟩

theorem cancelStranded_step (hr : requests a = ⟨env, .orderCancel id⟩)
    (hp : pool.procs a = ⟨cancelRestock k order, .idle, 3⟩) (hst : stage a = .served)
    (hfail : ∀ f row, foods.lookup pool.state (.int order.foodId) = some (f, row) →
      (Value.int (row.remaining + order.foodNumber)).intColumn = none) :
    ∃ stage' run', Serial L db requests (pool.step a) stage' run' := by
  have hstep : ∃ e, (cancelRestock k order).step pool.state .idle
      = some (.raise e, pool.state, .idle) := by
    unfold cancelRestock
    rw [Prog.step_select_idle]
    cases hf : foods.lookup pool.state (.int order.foodId) with
    | none => exact ⟨_, rfl⟩
    | some y =>
        dsimp only
        rw [hfail y.1 y.2 hf]
        exact ⟨_, rfl⟩
  obtain ⟨e, hstep⟩ := hstep
  exact ⟨_, _, h.stays hapart hr hp hst hstep (.quiet trivial (.inl rfl))⟩

/-! #### Updates -/

theorem updateStart_step (hr : requests a = ⟨env, .foodUpdate id request⟩)
    (hp : pool.procs a = .start (FoodController.update env id request))
    (hst : stage a = .waiting) :
    ∃ stage' run', Serial L db requests (pool.step a) stage' run' := by
  have hstep := FoodController.update_step env id request pool.state
  cases hl : foods.lookup pool.state id with
  | none =>
      rw [hl] at hstep
      exact ⟨_, _, h.refuses hapart hr hp hst hstep (.quiet trivial (.inr rfl))
        (h.idle_update_missing hr hl)⟩
  | some y =>
      obtain ⟨i, food⟩ := y
      obtain ⟨hkey, hrow⟩ := lookup_food hl
      rw [hl] at hstep
      exact ⟨_, _, h.stays hapart hr hp hst hstep (.updateFound hkey hrow (Matches.refl _ _))⟩

theorem updateFound_step (hr : requests a = ⟨env, .foodUpdate id request⟩)
    (hp : pool.procs a = ⟨FoodController.updateBody env request i food, .idle, 1⟩)
    (hst : stage a = .waiting) (hkey : id.key? = some i)
    (hrow : pool.state.foods.row i = some row) (hmatch : Matches request row food) :
    ∃ stage' run', Serial L db requests (pool.step a) stage' run' := by
  obtain ⟨k, hk, -⟩ := FoodController.updateBody_inner env request i food
  rw [hk] at hp
  exact ⟨_, _, h.stays hapart hr hp hst rfl (.updateBegun hk hkey hrow hmatch)⟩

theorem updateBegun_step {k : Database → Handler}
    (hr : requests a = ⟨env, .foodUpdate id request⟩)
    (hp : pool.procs a = ⟨.select k, ⟨none, [[]]⟩, 2⟩) (hst : stage a = .waiting)
    (hbody : FoodController.updateBody env request i food = .beginTransaction (.select k))
    (hkey : id.key? = some i) (hrow : pool.state.foods.row i = some row)
    (hmatch : Matches request row food) :
    ∃ stage' run', Serial L db requests (pool.step a) stage' run' := by
  obtain ⟨k', hk, houtcomes⟩ := update_outcomes env request i food
  rw [hbody] at hk
  cases hk
  rcases houtcomes pool.state with ⟨hstops, hno⟩ | ⟨f, g, tail, hf, hg, hannounce, hinner, htail⟩
  · have hfree := h.unowed_update hapart hr hp hst rfl (by decide) hkey
    exact ⟨_, _, h.refuses hapart hr hp hst rfl (.stuck hstops (.inr rfl))
      (h.idle_update hr hkey hrow hmatch hfree hno)⟩
  · exact ⟨_, _, h.stays hapart hr hp hst rfl
      (.updateCommitting hinner htail hkey hrow hmatch hf hg hannounce (Nat.le_add_left 1 _))⟩

theorem updateCommitting_step {f g : Food → Food}
    (hvalid : stillValid (requests a) (pool.procs a) pool.state = true)
    (hr : requests a = ⟨env, .foodUpdate id request⟩)
    (hp : pool.procs a = ⟨prog, ⟨some snap, [ws]⟩, n⟩) (hst : stage a = .waiting)
    (hinner : prog.inner snap ws = .commits (FoodController.updateWrites i food f g) tail)
    (htail : tail.Quiet) (hkey : id.key? = some i) (hrow : pool.state.foods.row i = some row)
    (hmatch : Matches request row food) (hf : foods.imageChange request = some f)
    (hg : foods.dirty (request.except .image) (f food) foods.fillable = some g)
    (hannounce : FoodController.raised request food.remaining = true →
      announce env pool.state (g (f food)).restaurantId = .ok ()) (hn : 1 ≤ n) :
    ∃ stage' run', Serial L db requests (pool.step a) stage' run' := by
  have hend : prog.ended = false := not_ended (by rw [hinner]; exact fun h => nomatch h)
  have hchanges := changes_of hf hg
  cases hstep : prog.step pool.state ⟨some snap, [ws]⟩ with
  | none =>
      rw [Prog.inner_of_step_none hstep] at hinner
      cases hinner
  | some y =>
      rcases Prog.step_of_commits hinner hstep with ⟨prog', ws', rfl, hinner'⟩ | ⟨rfl, rfl⟩
      · exact ⟨_, _, h.stays hapart hr hp hst hstep
          (.updateCommitting hinner' htail hkey hrow hmatch hf hg hannounce (Nat.le_add_left 1 n))⟩
      · -- the commit: the update has its place and owes nothing
        rw [applyAll_updated hrow hmatch hf hg] at hstep
        have hpasses : failed pool.state request.input (FoodController.updateRules i row) = [] := by
          rw [hr, hp] at hvalid
          have hl : foods.lookup pool.state id = some (i, row) :=
            Model.lookup_some.mpr ⟨hkey, hrow⟩
          simp only [stillValid, hl] at hvalid
          exact List.isEmpty_iff.mp hvalid
        have hfree := h.unowed_update hapart hr hp hst hend hn hkey
        have htrails := h.trails.update (a := a) L (by rw [hst]; rfl) hkey hrow hmatch hfree hpasses
          hchanges hannounce
        refine ⟨_, _, h.places hapart hr hp hst hstep (.quiet htail (.inl rfl))
          (.updated ?_ (heldCard_update hend hn hkey)) htrails rfl fun j => ?_⟩
        · cases hin : request.input .remaining with
          | none => exact .inr (changes_remaining hin hchanges)
          | some v => exact .inl (heldStock_update hend hn hkey (by rw [hin]; rfl))
        · by_cases hj : j = i
          · subst hj
            cases hin : request.input .remaining with
            | none =>
                refine .inl ?_
                rw [Table.modify_row, if_pos rfl, hrow]
                exact congrArg some (changes_remaining hin hchanges row)
            | some v =>
                refine .inr (htrails.food_row fun b d hb => ?_)
                have hba : b ≠ a := by
                  rintro rfl
                  rw [Function.update_self] at hb
                  cases hb
                rw [Function.update_of_ne hba] at hb
                exact hfree (by rw [hin]; rfl) b d hb
          · refine .inl ?_
            rw [Table.modify_row, if_neg hj]

end Phases

/-- **Every statement keeps the invariant.** -/
theorem step [DecidableEq ι] {a : ι} (h : Serial L db requests pool stage run)
    (hapart : Apart requests pool)
    (hvalid : stillValid (requests a) (pool.procs a) pool.state = true)
    (hafter : Apart requests (pool.step a)) :
    ∃ stage' run', Serial L db requests (pool.step a) stage' run' := by
  have hphase := h.phase a
  generalize hr : requests a = r at hphase
  generalize hp : pool.procs a = p at hphase
  generalize hst : stage a = st at hphase
  cases hphase with
  | quiet hq hend => exact ⟨_, _, h.quiet_step hapart hr hp hst hq hend⟩
  | stuck hinner hend => exact ⟨_, _, h.stuck_step hapart hr hp hst hinner hend⟩
  | storeStart => exact ⟨_, _, h.storeStart_step hapart hr hp hst⟩
  | storeBegun hk => exact h.storeBegun_step hapart hr hp hst hk
  | storeReading hinner hm hv hcur hrem =>
      exact h.storeReading_step hapart hr hp hst hinner hm hv hcur hrem
  | storePaying hinner htail hm hv hrow hrem =>
      exact h.storePaying_step hapart hr hp hst hinner htail hm hv hrow hrem
  | updateStart => exact h.updateStart_step hapart hr hp hst
  | updateFound hkey hrow hmatch => exact h.updateFound_step hapart hr hp hst hkey hrow hmatch
  | updateBegun hbody hkey hrow hmatch =>
      exact h.updateBegun_step hapart hr hp hst hbody hkey hrow hmatch
  | updateCommitting hinner htail hkey hrow hmatch hf hg hannounce hn =>
      exact h.updateCommitting_step hapart hvalid hr hp hst hinner htail hkey hrow hmatch hf hg
        hannounce hn
  | cancelStart => exact h.cancelStart_step hapart hr hp hst
  | cancelCounted hl => exact h.cancelCounted_step hapart hr hp hst hl
  | cancelFound hl hsend => exact h.cancelFound_step hapart hafter hr hp hst hl hsend
  | cancelOwing hl hfood hkey hrow hx =>
      exact h.cancelOwing_step hapart hr hp hst hl hfood hkey hrow hx
  | cancelStranded hl hfood hfail => exact h.cancelStranded_step hapart hr hp hst hfail
  | cancelPaying hl hfood hkey hrow => exact ⟨_, _, h.pays hapart hr hp hst rfl trivial⟩

end Serial

/-! ### Whole interleavings -/

/-- Requests that have been answered hold nothing. -/
theorem apart_of_ended {requests : ι → Step} {pool : Pool ι Database Event Exn Response}
    (h : pool.Ended) : Apart requests pool := by
  intro a b _
  simp [heldStock, heldCard, heldOrder, sameRow, h a]

/-- What a lock would see to at each statement. -/
def Guarded (requests : ι → Step) (pool : Pool ι Database Event Exn Response) (a : ι) : Prop :=
  Apart requests pool ∧ stillValid (requests a) (pool.procs a) pool.state = true

instance Apart.decidable [Fintype ι] [DecidableEq ι] (requests : ι → Step)
    (pool : Pool ι Database Event Exn Response) : Decidable (Apart requests pool) :=
  inferInstanceAs (Decidable (∀ a b, a ≠ b → _ ∧ _ ∧ _))

instance Guarded.decidable [Fintype ι] [DecidableEq ι] (requests : ι → Step)
    (pool : Pool ι Database Event Exn Response) (a : ι) : Decidable (Guarded requests pool a) :=
  inferInstanceAs (Decidable (Apart requests pool ∧ _))

instance ended_decidable [Fintype ι] (pool : Pool ι Database Event Exn Response) :
    Decidable pool.Ended :=
  inferInstanceAs (Decidable (∀ a, (pool.procs a).prog.ended = true))

theorem serial_after [DecidableEq ι] {L : Laravel} {db : Database} {requests : ι → Step}
    {schedule : List ι} : ∀ {pool : Pool ι Database Event Exn Response} {stage : ι → Stage}
    {run : List ι}, Serial L db requests pool stage run →
    Along Pool.step (Guarded requests) pool schedule → (after Pool.step pool schedule).Ended →
    ∃ stage' run', Serial L db requests (after Pool.step pool schedule) stage' run' := by
  induction schedule with
  | nil =>
      intro pool stage run h _ _
      exact ⟨stage, run, h⟩
  | cons a rest ih =>
      intro pool stage run h hguarded hend
      obtain ⟨⟨hapart, hvalid⟩, hrest⟩ := hguarded
      -- the next statement is guarded as well, or there is none
      have hafter : Apart requests (pool.step a) := by
        cases rest with
        | nil => exact apart_of_ended hend
        | cons b rest => exact hrest.1.1
      obtain ⟨stage', run', h'⟩ := h.step hapart hvalid hafter
      exact ih h' hrest hend

/-- Serial runs are among the interleavings. -/
theorem exists_interleaving [DecidableEq ι] (L : Laravel) (db : Database) (requests : ι → Step)
    {order : List ι} (hnodup : order.Nodup) (hall : ∀ a, a ∈ order) :
    ∃ schedule, (after Pool.step (inFlight L db requests) schedule).Ended ∧
      (after Pool.step (inFlight L db requests) schedule).state
        = after (serve L) db (order.map requests) := by
  obtain ⟨schedule, hstate, hended, -⟩ := Pool.exists_schedule db
    (fun a => (requests a).call.handler L (requests a).env) hnodup
  refine ⟨schedule, fun a => hended a (hall a), hstate.trans ?_⟩
  rw [← after_serveOf]
  rfl

/-- The orders and the foods are those some serial run of all the requests leaves. -/
def SerialOutcome (L : Laravel) (db : Database) (requests : ι → Step) (s : Database) : Prop :=
  ∃ order : List ι, order.Nodup ∧ (∀ a, a ∈ order) ∧
    s.orders.row = (after (serve L) db (order.map requests)).orders.row ∧
    s.foods.row = (after (serve L) db (order.map requests)).foods.row

/-- At the end nothing is owed, and the refused requests can be put where they do nothing. -/
theorem Serial.outcome [Fintype ι] [DecidableEq ι] {L : Laravel} {db : Database}
    {requests : ι → Step} {pool : Pool ι Database Event Exn Response} {stage : ι → Stage}
    {run : List ι} (h : Serial L db requests pool stage run) (hend : pool.Ended) :
    SerialOutcome L db requests pool.state := by
  have hdone : ∀ a, stage a = .served ∨ stage a = .refused := fun a =>
    (h.phase a).of_ended (hend a)
  have hpaid : ∀ a, (stage a).debt = none := by
    intro a
    rcases hdone a with hst | hst <;> rw [hst] <;> rfl
  have hsame := h.trails.eq_of_paid hpaid
  have hidle : ∀ a ∈ (Finset.univ.filter fun a => a ∉ run).toList,
      IdleIn (serveOf L requests) db run a := by
    intro a ha
    have hout : a ∉ run := by simpa using ha
    rcases hdone a with hst | hst
    · exact absurd ((h.placed a).mpr (by rw [hst]; rfl)) hout
    · exact h.idle a hst
  have hnodup : (run ++ (Finset.univ.filter fun a => a ∉ run).toList).Nodup := by
    refine List.nodup_append.mpr ⟨h.nodup, Finset.nodup_toList _, ?_⟩
    rintro a ha b hb rfl
    have hout : a ∉ run := by simpa using hb
    exact hout ha
  obtain ⟨order, hperm, horder⟩ := exists_run_of_idle hidle
  refine ⟨order, hperm.nodup_iff.mpr hnodup, fun a => ?_, ?_⟩
  · rw [hperm.mem_iff, List.mem_append]
    by_cases ha : a ∈ run
    · exact .inl ha
    · exact .inr (by simpa using ha)
  · rw [← after_serveOf, horder, hsame]
    exact ⟨rfl, rfl⟩

/-- **Requests that keep apart leave what a serial run leaves.**  In an interleaving in which
no two requests hold the same stock, card or order at once, and no update commits that would
fail its validation by then, the orders and the foods end as in some serial run. -/
theorem serializable_of_guarded [Fintype ι] [DecidableEq ι] (L : Laravel) (db : Database)
    (requests : ι → Step) (hkind : ∀ a, (requests a).call.isContended = true)
    (schedule : List ι)
    (hguarded : Along Pool.step (Guarded requests) (inFlight L db requests) schedule)
    (hend : (after Pool.step (inFlight L db requests) schedule).Ended) :
    SerialOutcome L db requests (after Pool.step (inFlight L db requests) schedule).state := by
  obtain ⟨stage, run, h⟩ := serial_after (Serial.start hkind) hguarded hend
  exact h.outcome hend

/-- An order and a change of the name of its food may overlap: one takes from the stock and
the other leaves it alone. -/
theorem serializable_order_and_rename :
    SerialOutcome Sample.laravel Sample.shelf
      (Sample.pair (Sample.newOrder 1 1 2) (Sample.editFood 1 [(.name, .str "rye")]))
      (after Pool.step (inFlight Sample.laravel Sample.shelf
        (Sample.pair (Sample.newOrder 1 1 2) (Sample.editFood 1 [(.name, .str "rye")])))
        (Sample.overlapped 4 12)).state :=
  serializable_of_guarded Sample.laravel Sample.shelf
    (Sample.pair (Sample.newOrder 1 1 2) (Sample.editFood 1 [(.name, .str "rye")])) (by decide)
    (Sample.overlapped 4 12) (by decide +kernel) (by decide +kernel)

theorem order_of_pair {order : List Bool} (hnodup : order.Nodup) (hall : ∀ a, a ∈ order) :
    order = [true, false] ∨ order = [false, true] := by
  have hperm : order.Perm [true, false] :=
    (List.perm_ext_iff_of_nodup hnodup (by decide)).mpr fun a => by cases a <;> simp [hall]
  obtain ⟨x, y, rfl⟩ := List.length_eq_two.mp hperm.length_eq
  cases x <;> cases y
  · simp at hnodup
  · exact .inr rfl
  · exact .inl rfl
  · simp at hnodup

/-- Two orders of four go through on a stock of five, and two cancellations of one order of
one raise a stock of five to seven: no serial run does either. -/
theorem overlapping_not_serializable :
    let placed := after Pool.step (inFlight Sample.laravel Sample.shelf
      (Sample.pair (Sample.newOrder 1 1 4) (Sample.newOrder 2 1 4))) (Sample.overlapped 5 6)
    let cancelled := after Pool.step (inFlight Sample.laravel Sample.town
      (Sample.pair (Sample.cancel 1) (Sample.cancel 1))) (Sample.overlapped 2 4)
    (placed.Ended ∧ (placed.state.orders.row 1).map Order.foodNumber = some 4 ∧
      (placed.state.orders.row 2).map Order.foodNumber = some 4 ∧
      ¬ SerialOutcome Sample.laravel Sample.shelf
        (Sample.pair (Sample.newOrder 1 1 4) (Sample.newOrder 2 1 4)) placed.state) ∧
    (cancelled.Ended ∧ (cancelled.state.foods.row 1).map Food.remaining = some 7 ∧
      ¬ SerialOutcome Sample.laravel Sample.town
        (Sample.pair (Sample.cancel 1) (Sample.cancel 1)) cancelled.state) := by
  refine ⟨⟨by decide +kernel, by decide +kernel, by decide +kernel, ?_⟩,
    ⟨by decide +kernel, by decide +kernel, ?_⟩⟩
  · rintro ⟨order, hnodup, hall, horders, -⟩
    have hrow := congrArg Option.isSome (congrFun horders 2)
    rcases order_of_pair hnodup hall with rfl | rfl
    · exact absurd hrow (by decide +kernel)
    · exact absurd hrow (by decide +kernel)
  · rintro ⟨order, hnodup, hall, -, hfoods⟩
    have hrow := congrArg (Option.map Food.remaining) (congrFun hfoods 1)
    rcases order_of_pair hnodup hall with rfl | rfl
    · exact absurd hrow (by decide +kernel)
    · exact absurd hrow (by decide +kernel)

end Spoiler
