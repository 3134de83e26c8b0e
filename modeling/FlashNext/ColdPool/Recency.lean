import FlashNext.ColdPool.Turns
import FlashNext.ColdPool.Demotion
import FlashNext.Data.Recency

namespace FlashNext.ColdPool

open FlashNext.Data

/-- What a tick uses: the ids of its stash and the experts it stages. -/
structure Uses where
  selected : List Nat
  staged : List Nat

def lastStaged (log : List (Nat × Uses)) (gid : Nat) : Nat :=
  lastTime (fun uses => decide (gid ∈ uses.staged)) log

/-- The latest tick at which an expert was selected or staged. -/
def lastUse (log : List (Nat × Uses)) (gid : Nat) : Nat :=
  lastTime (fun uses => decide (gid ∈ uses.selected) || decide (gid ∈ uses.staged)) log

namespace Tick

def voted (sigmoid : ℚ → ℚ) (tick : Tick) : Ctx :=
  let votes := castVotes sigmoid tick.config tick.ctx.pool tick.ballot
  { tick.ctx with
    stats := { tick.ctx.stats with strong := tick.ctx.stats.strong + votes.2 }
    pool := { tick.ctx.pool with needCounts := some votes.1 } }

def candidates (sigmoid : ℚ → ℚ) (tick : Tick) : List Nat :=
  ColdPool.candidates tick.config (tick.voted sigmoid).pool

def turns (sigmoid : ℚ → ℚ) (tick : Tick) : List Turn :=
  if tick.Fits then ColdPool.turns tick.faults (tick.candidates sigmoid) [] (tick.voted sigmoid) else []

def uses (sigmoid : ℚ → ℚ) (tick : Tick) : Nat × Uses :=
  (tick.time, ⟨tick.ids,
    if tick.Fits then stagings tick.faults (tick.candidates sigmoid) [] (tick.voted sigmoid) else []⟩)

end Tick

def usesBefore (sigmoid : ℚ → ℚ) (before : List Tick) (tick : Tick) (turn : Turn) : List (Nat × Uses) :=
  (ownTicks tick.layer before).map (Tick.uses sigmoid) ++ [(tick.time, ⟨tick.ids, turn.staged⟩)]

def LeastRecent (log : List (Nat × Uses)) (pool : Pool) (victim : Nat) : Prop :=
  ∀ other ∈ pool.gidRow.keys, lastUse log victim ≤ lastUse log other

def Pool.age (pool : Pool) (row : Nat) : Int := (pool.rowTick.get? row).getD 0

/-- `min(cands, key=row_tick)` finds the row of one resident before that of another. -/
def Pool.Precedes (pool : Pool) (gid other : Nat) : Prop :=
  ∃ row ∈ pool.gidRow.get? gid, ∃ at_ ∈ pool.gidRow.get? other,
    pool.age row < pool.age at_ ∨ pool.age row = pool.age at_ ∧ [row, at_].Sublist pool.rowTick.keys

instance (pool : Pool) (gid other : Nat) : Decidable (pool.Precedes gid other) :=
  inferInstanceAs (Decidable (∃ row ∈ pool.gidRow.get? gid, ∃ at_ ∈ pool.gidRow.get? other, _))

/-- A tick whose stash selects a resident selects every resident behind it. -/
def Tick.KeepsOrder (tick : Tick) : Prop :=
  ∀ gid ∈ tick.ids, ∀ other ∈ tick.ctx.pool.gidRow.keys, tick.ctx.pool.Precedes gid other → other ∈ tick.ids

instance (tick : Tick) : Decidable tick.KeepsOrder :=
  inferInstanceAs (Decidable (∀ gid ∈ tick.ids, ∀ other ∈ tick.ctx.pool.gidRow.keys, _))

/-- The residents were used in the order in which they would be evicted. -/
def Ordered (log : List (Nat × Uses)) (pool : Pool) : Prop :=
  ∀ gid other, pool.Precedes gid other → lastUse log gid ≤ lastUse log other

/-- The ages of rows are the staging times of their residents. -/
structure Aged (log : List (Nat × Uses)) (pool : Pool) : Prop where
  times : ∀ entry ∈ log, entry.1 ≤ pool.tick
  aged : ∀ gid row, pool.gidRow.get? gid = some row → pool.rowTick.get? row = some (lastStaged log gid : Int)
  unprotected : pool.protectedRows = []

variable {original : Module} {ctx next : Ctx} {faults : Faults} {gid row victim : Nat} {log : List (Nat × Uses)}

theorem lastStaged_le_lastUse (log : List (Nat × Uses)) (gid : Nat) : lastStaged log gid ≤ lastUse log gid := by
  rw [lastUse, lastTime_or]
  exact Nat.le_max_right _ _

theorem evicted_precedes {turn : Turn} (inv : turn.ctx.Inv original) (aged : Aged log turn.ctx.pool)
    (evicted : turn.evicted = some victim) :
    ∀ other ∈ turn.ctx.pool.gidRow.keys, other ≠ victim → turn.ctx.pool.Precedes victim other := by
  unfold Turn.evicted at evicted
  split at evicted
  · contradiction
  · obtain ⟨row, oldest, owned⟩ := Option.bind_eq_some_iff.mp evicted
    intro other resident apart
    obtain ⟨at_, placed⟩ := Dict.mem_keys_iff.mp resident
    have all : evictable turn.ctx.pool = turn.ctx.pool.rowTick.keys := by
      rw [evictable, aged.unprotected]
      simp
    rw [oldestRow, all] at oldest
    have elsewhere : at_ ≠ row := by
      rintro rfl
      exact apart (Option.some.inj ((inv.resident other at_ placed).2.2.symm.trans owned))
    exact ⟨row, inv.owner row victim owned, at_, placed,
      firstBest_first oldest (Dict.mem_keys_of_get? (aged.aged other at_ placed)) elsewhere⟩

theorem leastRecent_of_ordered {turn : Turn} (inv : turn.ctx.Inv original) (aged : Aged log turn.ctx.pool)
    (ordered : Ordered log turn.ctx.pool) (evicted : turn.evicted = some victim) : LeastRecent log turn.ctx.pool victim := by
  intro other resident
  by_cases same : other = victim
  · rw [same]
  · exact ordered victim other (evicted_precedes inv aged evicted other resident same)

theorem lastStaged_snoc (log : List (Nat × Uses)) (time : Nat) (selected staged : List Nat) (gid : Nat) :
    lastStaged (log ++ [(time, ⟨selected, staged⟩)]) gid =
      max (lastStaged log gid) (if gid ∈ staged then time else 0) := by
  rw [lastStaged, lastTime_snoc]
  simp [lastStaged]

theorem lastUse_snoc (log : List (Nat × Uses)) (time : Nat) (selected staged : List Nat) (gid : Nat) :
    lastUse (log ++ [(time, ⟨selected, staged⟩)]) gid =
      max (lastUse log gid) (if gid ∈ selected ∨ gid ∈ staged then time else 0) := by
  rw [lastUse, lastTime_snoc]
  simp [lastUse]

/-- Ages as the loop keeps them: the entry of the running tick grows. -/
structure Aging (log : List (Nat × Uses)) (now : Nat) (ids staged : List Nat) (pool : Pool) : Prop where
  past : ∀ entry ∈ log, entry.1 ≤ now
  aged : ∀ gid row, pool.gidRow.get? gid = some row →
    pool.rowTick.get? row = some (lastStaged (log ++ [(now, ⟨ids, staged⟩)]) gid : Int)
  unprotected : pool.protectedRows = []
  tick : pool.tick = now

variable {now : Nat} {ids staged : List Nat} {pool after : Pool}

theorem Aging.begin (aged : Aged log pool) (ids : List Nat) : Aging log pool.tick ids [] pool := by
  refine ⟨aged.times, ?_, aged.unprotected, rfl⟩
  intro gid row placed
  rw [aged.aged gid row placed, lastStaged_snoc]
  simp

theorem Aging.done (aging : Aging log now ids staged pool) : Aged (log ++ [(now, ⟨ids, staged⟩)]) pool := by
  refine ⟨?_, aging.aged, aging.unprotected⟩
  intro entry member
  rw [aging.tick]
  rcases List.mem_append.mp member with before | last
  · exact aging.past entry before
  · rw [List.mem_singleton] at last
    rw [last]

theorem Aging.unstaged (aging : Aging log now ids staged pool)
    (ages : after.ages = pool.ages)
    (kept : ∀ gid row, after.gidRow.get? gid = some row → pool.gidRow.get? gid = some row) :
    Aging log now ids staged after := by
  simp only [Pool.ages, Prod.mk.injEq] at ages
  obtain ⟨rowTick, tick, protectedRows⟩ := ages
  refine ⟨aging.past, ?_, protectedRows.trans aging.unprotected, tick.trans aging.tick⟩
  intro gid row placed
  rw [rowTick]
  exact aging.aged gid row (kept gid row placed)

theorem Aging.install (aging : Aging log now ids staged pool)
    (away : ∀ gid at_, pool.gidRow.get? gid = some at_ → at_ ≠ row) (gid : Nat) :
    Aging log now ids (gid :: staged) (pool.install gid row) := by
  refine ⟨aging.past, ?_, aging.unprotected, aging.tick⟩
  intro other at_ placed
  simp only [Pool.install, Dict.get?_set] at placed ⊢
  rw [lastStaged_snoc]
  split at placed
  · next same =>
      cases placed
      have past : lastStaged log gid ≤ now := lastTime_le aging.past
      rw [if_pos rfl, same, if_pos List.mem_cons_self, aging.tick, max_eq_right past]
  · next different =>
      rw [if_neg (away other at_ placed), aging.aged other at_ placed, lastStaged_snoc]
      simp [different]

/-- What stays true of a pool, and of the experts that the tick has staged so far, when
rows are freed and filled. -/
structure Kept (holds : List Nat → Pool → Prop) : Prop where
  unstaged : ∀ {staged} {pool after : Pool}, holds staged pool → after.ages = pool.ages →
    (∀ gid row, after.gidRow.get? gid = some row → pool.gidRow.get? gid = some row) → holds staged after
  install : ∀ {staged} {pool : Pool} {row}, holds staged pool →
    (∀ gid at_, pool.gidRow.get? gid = some at_ → at_ ≠ row) → ∀ gid, holds (gid :: staged) (pool.install gid row)

variable {holds : List Nat → Pool → Prop}

theorem Kept.turn (keeps : Kept holds) (inv : ctx.Inv original) (start : holds staged ctx.pool)
    (reached : (stageOne faults gid ctx).2 = some next) : holds (stagedNow gid ctx next ++ staged) next.pool := by
  rcases stageOne_cases reached with ⟨resident, rfl⟩ | ⟨absent, picked, row, found, filled⟩
  · rw [stagedNow, if_neg fun now => now.2 resident]
    exact keeps.unstaged start rfl fun _ _ placed => placed
  · obtain ⟨ages, kept⟩ := pickRow_keeps_others (resetNeed_inv inv gid) found
    have before : holds staged picked.pool := keeps.unstaged start ages fun other at_ placed => (kept other at_ placed).1
    split at filled
    · have present : gid ∈ next.pool.gidRow.keys := by
        rw [filled]
        exact Dict.mem_keys_set.mpr (Or.inl rfl)
      rw [stagedNow, if_pos ⟨present, absent⟩, filled]
      exact keeps.install before (fun other at_ placed => (kept other at_ placed).2) gid
    · obtain ⟨sameAges, sameRows⟩ := returnRow_ages row picked
      have missing : gid ∉ next.pool.gidRow.keys := by
        rw [filled, sameRows]
        intro member
        obtain ⟨at_, placed⟩ := Dict.mem_keys_iff.mp member
        exact absent (Dict.mem_keys_of_get? (kept gid at_ placed).1)
      rw [stagedNow, if_neg fun now => missing now.1, filled]
      exact keeps.unstaged before sameAges fun other at_ placed => sameRows ▸ placed

theorem Kept.loop {candidates : List Nat} (keeps : Kept holds) (inv : ctx.Inv original)
    (cold : ∀ gid ∈ candidates, gid ∈ ctx.pool.cold) (start : holds staged ctx.pool) :
    (∀ turn ∈ turns faults candidates staged ctx, turn.ctx.Inv original ∧ holds turn.staged turn.ctx.pool) ∧
      holds (stagings faults candidates staged ctx) (stageAll faults candidates ctx).2.pool := by
  induction candidates generalizing ctx staged with
  | nil => exact ⟨by simp [turns], start⟩
  | cons gid rest ih =>
      simp only [turns, stagings, stageAll]
      cases staging : stageOne faults gid ctx with
      | mk visited next? =>
          cases next? with
          | none =>
              refine ⟨?_, keeps.unstaged start rfl fun _ _ placed => placed⟩
              intro turn member
              rw [List.mem_singleton] at member
              exact member ▸ ⟨inv, start⟩
          | some next =>
              have reached : (stageOne faults gid ctx).2 = some next := congrArg Prod.snd staging
              have restaged := ((stageOne_inv faults inv (cold gid (by simp))).2 next reached).1
              have stillCold : ∀ gid ∈ rest, gid ∈ next.pool.cold := fun gid member =>
                (congrArg Pool.cold restaged.frame.frozen) ▸ cold gid (by simp [member])
              obtain ⟨later, final⟩ := ih restaged.inv stillCold (keeps.turn inv start reached)
              refine ⟨?_, final⟩
              intro turn member
              rcases List.mem_cons.mp member with rfl | inside
              · exact ⟨inv, start⟩
              · exact later turn inside

theorem aging_kept (log : List (Nat × Uses)) (now : Nat) (ids : List Nat) : Kept (Aging log now ids) :=
  ⟨Aging.unstaged, Aging.install⟩

theorem Pool.Precedes.of_kept {other : Nat} (rowTick : after.rowTick = pool.rowTick)
    (kept : ∀ gid row, after.gidRow.get? gid = some row → pool.gidRow.get? gid = some row)
    (precedes : after.Precedes gid other) : pool.Precedes gid other := by
  obtain ⟨row, placed, at_, placed', before⟩ := precedes
  simp only [Pool.age, rowTick] at before
  exact ⟨row, kept gid row placed, at_, kept other at_ placed', before⟩

/-- Of two residents neither of which is staged, the order stays. -/
theorem Pool.Precedes.of_install {other new : Nat} (away : ∀ gid at_, pool.gidRow.get? gid = some at_ → at_ ≠ row)
    (apart : gid ≠ new) (apart' : other ≠ new) (precedes : (pool.install new row).Precedes gid other) :
    pool.Precedes gid other := by
  obtain ⟨at_, placed, at', placed', before⟩ := precedes
  simp only [Pool.install, Dict.get?_set, Option.mem_def] at placed placed' before
  rw [if_neg apart] at placed
  rw [if_neg apart'] at placed'
  have elsewhere := away gid at_ placed
  have elsewhere' := away other at' placed'
  refine ⟨at_, placed, at', placed', ?_⟩
  simp only [Pool.age, Dict.get?_set, if_neg elsewhere, if_neg elsewhere'] at before
  refine before.imp_right (And.imp_right fun listed => Dict.sublist_keys_of_set listed ?_)
  simp [elsewhere.symm, elsewhere'.symm]

theorem Ordered.unstaged (ordered : Ordered log pool) (rowTick : after.rowTick = pool.rowTick)
    (kept : ∀ gid row, after.gidRow.get? gid = some row → pool.gidRow.get? gid = some row) : Ordered log after :=
  fun gid other precedes => ordered gid other (precedes.of_kept rowTick kept)

/-- What a tick selects is used by it, and so is all that would be evicted later. -/
theorem Ordered.select {tick : Tick} (times : ∀ entry ∈ log, entry.1 ≤ tick.time) (ordered : Ordered log tick.ctx.pool)
    (keeps : tick.KeepsOrder) : Ordered (log ++ [(tick.time, ⟨tick.ids, []⟩)]) tick.ctx.pool := by
  intro gid other precedes
  rw [lastUse_snoc, lastUse_snoc]
  by_cases selected : gid ∈ tick.ids
  · obtain ⟨_, _, at_, placed, _⟩ := id precedes
    have also := keeps gid selected other (Dict.mem_keys_of_get? placed) precedes
    rw [if_pos (Or.inl selected), if_pos (Or.inl also), max_eq_right (show lastUse log gid ≤ _ from lastTime_le times)]
    exact Nat.le_max_right _ _
  · rw [if_neg (by simp [selected]), Nat.max_zero]
    exact (ordered gid other precedes).trans (Nat.le_max_left _ _)

theorem Aging.lastUse_le (aging : Aging log now ids staged pool) (gid : Nat) :
    lastUse (log ++ [(now, ⟨ids, staged⟩)]) gid ≤ now := by
  refine lastTime_le fun entry member => ?_
  rcases List.mem_append.mp member with before | last
  · exact aging.past entry before
  · rw [List.mem_singleton.mp last]

theorem Ordered.install (ordered : Ordered (log ++ [(now, ⟨ids, staged⟩)]) pool) (aging : Aging log now ids staged pool)
    (away : ∀ gid at_, pool.gidRow.get? gid = some at_ → at_ ≠ row) (new : Nat) :
    Ordered (log ++ [(now, ⟨ids, new :: staged⟩)]) (pool.install new row) := by
  intro gid other precedes
  have installed := aging.install away new
  have fresh : lastUse (log ++ [(now, ⟨ids, new :: staged⟩)]) new = now := by
    rw [lastUse_snoc, if_pos (Or.inr List.mem_cons_self), max_eq_right (show lastUse log new ≤ now from lastTime_le aging.past)]
  by_cases last : other = new
  · rw [last, fresh]
    exact installed.lastUse_le gid
  by_cases first : gid = new
  · -- a resident behind the new one was staged by this tick as well
    subst first
    obtain ⟨at_, placed, at', placed', before⟩ := precedes
    rw [fresh]
    have young : at_ = row := by
      simp only [Pool.install, Dict.get?_set, if_pos, Option.mem_def, Option.some.injEq] at placed
      exact placed.symm
    have age : (pool.install gid row).age at_ = now := by
      rw [young, Pool.age, Pool.install, Dict.get?_set, if_pos rfl, Option.getD_some, aging.tick]
    have age' : (pool.install gid row).age at' = lastStaged (log ++ [(now, ⟨ids, gid :: staged⟩)]) other := by
      rw [Pool.age, installed.aged other at' placed', Option.getD_some]
    have reached : (now : Int) ≤ lastStaged (log ++ [(now, ⟨ids, gid :: staged⟩)]) other := by
      rw [← age, ← age']
      exact before.elim le_of_lt fun same => le_of_eq same.1
    exact (Int.ofNat_le.mp reached).trans (lastStaged_le_lastUse _ other)
  · have old := ordered gid other (precedes.of_install away first last)
    rw [lastUse_snoc, lastUse_snoc] at old ⊢
    simpa only [List.mem_cons, first, last, false_or] using old

theorem ordered_kept (log : List (Nat × Uses)) (now : Nat) (ids : List Nat) :
    Kept fun staged pool => Aging log now ids staged pool ∧ Ordered (log ++ [(now, ⟨ids, staged⟩)]) pool where
  unstaged := fun held ages kept => ⟨held.1.unstaged ages kept, held.2.unstaged (congrArg Prod.fst ages) kept⟩
  install := fun held away new => ⟨held.1.install away new, held.2.install held.1 away new⟩

theorem voteAndStage_voted (sigmoid : ℚ → ℚ) (tick : Tick) :
    voteAndStage sigmoid tick.config tick.faults tick.ctx tick.ballot =
      stageAll tick.faults (tick.candidates sigmoid) (tick.voted sigmoid) := rfl

theorem candidates_cold {config : HookConfig} {pool : Pool} (gid : Nat) (member : gid ∈ candidates config pool) :
    gid ∈ pool.coldIdsGpu := by
  have ranked := config.argsort.mem_rank.mp (List.mem_of_mem_take member)
  exact List.mem_of_mem_filter ranked

/-- What is kept holds in all turns of a tick, and at its end. -/
theorem Kept.tick {sigmoid : ℚ → ℚ} {tick : Tick} (keeps : Kept holds) (inv : tick.ctx.Inv original)
    (start : holds [] tick.ctx.pool) :
    (∀ turn ∈ turns tick.faults (tick.candidates sigmoid) [] (tick.voted sigmoid),
      turn.ctx.Inv original ∧ holds turn.staged turn.ctx.pool) ∧
      holds (stagings tick.faults (tick.candidates sigmoid) [] (tick.voted sigmoid))
        (stageAll tick.faults (tick.candidates sigmoid) (tick.voted sigmoid)).2.pool := by
  have votedInv : (tick.voted sigmoid).Inv original := { inv with static := { inv.static with } }
  have cold : ∀ gid ∈ tick.candidates sigmoid, gid ∈ (tick.voted sigmoid).pool.cold := fun gid member =>
    votedInv.static.coldIds ▸ candidates_cold gid member
  exact keeps.loop votedInv cold (keeps.unstaged start rfl fun _ _ placed => placed)

theorem aged_final {sigmoid : ℚ → ℚ} {tick : Tick} (off : tick.config.degrade = false) (made : tick.Made)
    (inv : tick.ctx.Inv original) (aged : Aged log tick.ctx.pool) :
    Aged (log ++ [tick.uses sigmoid]) (tick.final sigmoid).pool := by
  have disabled : tick.degrade = false := by rw [made.enabled, off, Bool.and_false]
  rw [Tick.uses, Tick.final]
  split
  · rw [tickLayer, disabled, voteAndStage_voted]
    exact ((aging_kept log tick.time tick.ids).tick inv (Aging.begin aged tick.ids)).2.done
  · exact (Aging.begin aged tick.ids).done

theorem ordered_final {sigmoid : ℚ → ℚ} {tick : Tick} (off : tick.config.degrade = false) (made : tick.Made)
    (inv : tick.ctx.Inv original) (aged : Aged log tick.ctx.pool) (ordered : Ordered log tick.ctx.pool)
    (keeps : tick.KeepsOrder) : Ordered (log ++ [tick.uses sigmoid]) (tick.final sigmoid).pool := by
  have disabled : tick.degrade = false := by rw [made.enabled, off, Bool.and_false]
  have selected := ordered.select aged.times keeps
  rw [Tick.uses, Tick.final]
  split
  · rw [tickLayer, disabled, voteAndStage_voted]
    exact ((ordered_kept log tick.time tick.ids).tick inv ⟨Aging.begin aged tick.ids, selected⟩).2.2
  · exact selected

theorem aged_watch (sigmoid : ℚ → ℚ) (model : LoadedModel) :
    Watch sigmoid (fun config => config.degrade = false) (Routed model)
      fun log pool => Aged (log.map (Tick.uses sigmoid)) pool where
  quiet := by
    intro log pool aged
    exact ⟨fun entry member => Nat.le_succ_of_le (aged.times entry member), aged.aged, aged.unprotected⟩
  tick := by
    intro log tick off made routed aged
    obtain ⟨original, _, inv⟩ := routed
    rw [List.map_append, List.map_singleton]
    exact aged_final off made inv aged

theorem ordered_watch (sigmoid : ℚ → ℚ) (model : LoadedModel) :
    Watch sigmoid (fun config => config.degrade = false) (Routed model) fun log pool =>
      Aged (log.map (Tick.uses sigmoid)) pool ∧
        ((∀ tick ∈ log, tick.KeepsOrder) → Ordered (log.map (Tick.uses sigmoid)) pool) where
  quiet := fun log pool watched =>
    ⟨(aged_watch sigmoid model).quiet log pool watched.1, fun keeps => (watched.2 keeps).unstaged rfl fun _ _ placed => placed⟩
  tick := by
    intro log tick off made routed watched
    refine ⟨(aged_watch sigmoid model).tick log tick off made routed watched.1, fun keeps => ?_⟩
    obtain ⟨original, _, inv⟩ := routed
    rw [List.map_append, List.map_singleton]
    exact ordered_final off made inv watched.1 (watched.2 fun earlier member => keeps earlier (by simp [member]))
      (keeps tick (by simp))

theorem aged_of_loaded {model : LoadedModel} {state : State} {sigmoid : ℚ → ℚ} (loaded : Loaded model state) :
    Recorded (fun log pool => Aged (log.map (Tick.uses sigmoid)) pool) [] state := by
  intro layer pool found
  obtain ⟨ctx, view, rfl⟩ := loaded.wired.ctx?_isSome found
  obtain ⟨original, _, shrunk⟩ := loaded.layers layer ctx view
  obtain ⟨_, _, _, _, _, _, _, fresh⟩ := shrunk.fresh
  rw [fresh]
  refine ⟨by simp [ownTicks], ?_, rfl⟩
  intro gid row placed
  simp [shrunkPool, Pool.init] at placed

theorem Event.degradeOff_of_calls {event : Event} (calls : event.Calls fun config => config.degrade = false) :
    event.degradeOff := by
  cases event with
  | hook config faults capturing => exact calls
  | phaseB config layer flat => exact calls
  | forward | stash | stageLists => trivial

section Runs

variable {sigmoid : ℚ → ℚ} {model : LoadedModel} {env : ShrinkEnv} {state : State} {events : List Event}

theorem ordered_seen (completed : maybeShrinkAfterProcess env (State.fresh model.modules) = .done state)
    (calls : ∀ event ∈ events, event.Calls fun config => config.degrade = false) {before after : List Tick} {tick : Tick}
    (split : ticks sigmoid state events = before ++ tick :: after) :
    Seen (fun config => config.degrade = false) (Routed model) (fun log pool => Aged (log.map (Tick.uses sigmoid)) pool ∧
      ((∀ tick ∈ log, tick.KeepsOrder) → Ordered (log.map (Tick.uses sigmoid)) pool)) before tick := by
  have loaded := maybeShrink_loaded completed
  have start : Settled (Routed model) state :=
    loaded.settled fun ctx original source shrunk => ⟨original, source, shrunk.inv⟩
  have allows : (machine sigmoid).Meets (EventAllows Demotable sigmoid) state events :=
    Machine.meets_of_forall fun state event member =>
      eventAllows_of_degradeOff Demotable sigmoid (Event.degradeOff_of_calls (calls event member)) state
  have recorded : Recorded (fun log pool => Aged (log.map (Tick.uses sigmoid)) pool ∧
      ((∀ tick ∈ log, tick.KeepsOrder) → Ordered (log.map (Tick.uses sigmoid)) pool)) [] state := by
    intro layer pool found
    refine ⟨aged_of_loaded loaded layer pool found, fun _ gid other _ => ?_⟩
    exact le_of_eq rfl
  exact ((ordered_watch sigmoid model).run_recorded (routingRule model) start allows calls recorded).entry split

/-- Along a run with demotion off in which no tick selects a resident without those
behind it, every eviction follows the LRU rule. -/
theorem evictions_leastRecent (sigmoid : ℚ → ℚ) (model : LoadedModel) (env : ShrinkEnv) (state : State)
    (completed : maybeShrinkAfterProcess env (State.fresh model.modules) = .done state) (events : List Event)
    (calls : ∀ event ∈ events, event.Calls fun config => config.degrade = false)
    (keeps : ∀ tick ∈ ticks sigmoid state events, tick.KeepsOrder) :
    ∀ before tick after, ticks sigmoid state events = before ++ tick :: after →
      ∀ turn ∈ tick.turns sigmoid, ∀ victim, turn.evicted = some victim →
        LeastRecent (usesBefore sigmoid before tick turn) turn.ctx.pool victim := by
  intro before tick after split turn member victim evicted
  have here := ordered_seen completed calls split
  obtain ⟨original, _, inv⟩ := here.settled
  obtain ⟨aged, ordered⟩ := here.watched
  have earlier : ∀ other ∈ ownTicks tick.layer before, other.KeepsOrder := fun other member =>
    keeps other (split ▸ List.mem_append_left _ (List.mem_of_mem_filter member))
  have selected := (ordered earlier).select aged.times (keeps tick (split ▸ by simp))
  unfold Tick.turns at member
  split at member
  · obtain ⟨turnInv, aging, inOrder⟩ := ((ordered_kept _ tick.time tick.ids).tick inv
      ⟨Aging.begin aged tick.ids, selected⟩).1 turn member
    exact leastRecent_of_ordered turnInv aging.done inOrder evicted
  · contradiction

/-- The first tick of a run that does otherwise leaves a resident in front of one that
has gone unused for longer. -/
theorem order_lost_iff (completed : maybeShrinkAfterProcess env (State.fresh model.modules) = .done state)
    (calls : ∀ event ∈ events, event.Calls fun config => config.degrade = false) {before after : List Tick} {tick : Tick}
    (split : ticks sigmoid state events = before ++ tick :: after) (keeps : ∀ earlier ∈ before, earlier.KeepsOrder) :
    Ordered ((ownTicks tick.layer before).map (Tick.uses sigmoid) ++ [(tick.time, ⟨tick.ids, []⟩)]) tick.ctx.pool ↔
      tick.KeepsOrder := by
  have here := ordered_seen completed calls split
  obtain ⟨aged, ordered⟩ := here.watched
  constructor
  · intro inOrder gid selected other _ precedes
    have used := inOrder gid other precedes
    rw [lastUse_snoc, lastUse_snoc, if_pos (Or.inl selected)] at used
    by_contra unused
    have older : lastUse ((ownTicks tick.layer before).map (Tick.uses sigmoid)) other ≤ tick.time - 1 :=
      lastTime_le here.earlier.1.times
    have counted := here.made.counted
    rw [if_neg (by simp [unused])] at used
    omega
  · exact (ordered fun earlier member => keeps earlier (List.mem_of_mem_filter member)).select aged.times

end Runs

/-- The five experts of `starvedModel`, with two slots for the cold ones. -/
def pairEnv : ShrinkEnv := { starvedEnv with coldSlots := 2 }

def pairConfig : HookConfig := { starvedConfig with coldSlots := 2, degrade := false }

def pairState : State :=
  match maybeShrinkAfterProcess pairEnv (State.fresh starvedModel.modules) with
  | .done state => state
  | .raised _ state => state

theorem equalLogits_rect : ∀ row ∈ List.replicate 4 (List.replicate 5 (0 : ℚ)), row.length = 5 := by simp

def pickTick (gid : Int) : List Event :=
  .stash (some 0) false ⟨5, List.replicate 4 (List.replicate 5 0), equalLogits_rect⟩
      ⟨1, List.replicate 4 [gid], by simp⟩ 1 ::
    List.replicate 8 (.hook pairConfig .none false)

/-- Expert 2 is staged, then expert 3, then expert 2 is selected, and the
fourth tick needs a row for expert 4. -/
def pairEvents : List Event := pickTick 0 ++ pickTick 0 ++ pickTick 2 ++ pickTick 0

instance (log : List (Nat × Uses)) (pool : Pool) (victim : Nat) : Decidable (LeastRecent log pool victim) :=
  inferInstanceAs (Decidable (∀ other ∈ pool.gidRow.keys, _))

theorem pairEvents_calls : ∀ event ∈ pairEvents, event.Calls fun config => config.degrade = false := by
  simp [pairEvents, pickTick, Event.Calls, pairConfig]

theorem pairEvents_evicts : ∃ before tick turn, ticks (fun _ => 1 / 2) pairState pairEvents = before ++ [tick] ∧
    turn ∈ tick.turns (fun _ => 1 / 2) ∧ turn.evicted = some 2 ∧
    ¬ LeastRecent (usesBefore (fun _ => 1 / 2) before tick turn) turn.ctx.pool 2 := by
  have logged : (ticks (fun _ => 1 / 2) pairState pairEvents).getLast?.any (fun last =>
      (last.turns fun _ => 1 / 2).any fun turn => turn.evicted = some 2 ∧
        ¬ LeastRecent (usesBefore (fun _ => 1 / 2) (ticks (fun _ => 1 / 2) pairState pairEvents).dropLast last turn)
          turn.ctx.pool 2) = true := by decide +kernel
  obtain ⟨last, found, evicting⟩ := (Option.any_eq_true _ _).mp logged
  obtain ⟨turn, member, facts⟩ := List.any_eq_true.mp evicting
  obtain ⟨evicted, stale⟩ := of_decide_eq_true facts
  have split := List.dropLast_append_getLast? last found
  exact ⟨_, last, turn, split.symm, member, evicted, stale⟩

/-- Experts 2 and 3 are staged, expert 3 is selected, and expert 2 makes room for 4. -/
def orderedEvents : List Event := pickTick 0 ++ pickTick 0 ++ pickTick 3 ++ pickTick 0

theorem evictions_leastRecent_orderedEvents :
    ∃ before tick turn, ticks (fun _ => 1 / 2) pairState orderedEvents = before ++ [tick] ∧
      turn ∈ tick.turns (fun _ => 1 / 2) ∧ turn.evicted = some 2 ∧
      LeastRecent (usesBefore (fun _ => 1 / 2) before tick turn) turn.ctx.pool 2 := by
  have calls : ∀ event ∈ orderedEvents, event.Calls fun config => config.degrade = false := by
    simp [orderedEvents, pickTick, Event.Calls, pairConfig]
  have keeps : ∀ tick ∈ ticks (fun _ => 1 / 2) pairState orderedEvents, tick.KeepsOrder := by decide +kernel
  have logged : (ticks (fun _ => 1 / 2) pairState orderedEvents).getLast?.any (fun last =>
      (last.turns fun _ => 1 / 2).any fun turn => turn.evicted = some 2) = true := by decide +kernel
  obtain ⟨last, found, evicting⟩ := (Option.any_eq_true _ _).mp logged
  obtain ⟨turn, member, evicted⟩ := List.any_eq_true.mp evicting
  have split := (List.dropLast_append_getLast? last found).symm
  exact ⟨_, last, turn, split, member, of_decide_eq_true evicted, evictions_leastRecent (fun _ => 1 / 2) starvedModel pairEnv
    pairState rfl orderedEvents calls keeps _ last [] split turn member 2 (of_decide_eq_true evicted)⟩

/-- The expert staged first is evicted although it was used last. -/
theorem eviction_not_leastRecent : ¬ ∀ (sigmoid : ℚ → ℚ) (model : LoadedModel) (env : ShrinkEnv) (state : State),
    maybeShrinkAfterProcess env (State.fresh model.modules) = .done state → ∀ events : List Event,
      (∀ event ∈ events, event.Calls fun config => config.degrade = false) →
        ∀ before tick after, ticks sigmoid state events = before ++ tick :: after →
          ∀ turn ∈ tick.turns sigmoid, ∀ victim, turn.evicted = some victim →
            LeastRecent (usesBefore sigmoid before tick turn) turn.ctx.pool victim := by
  intro claimed
  obtain ⟨before, tick, turn, split, member, evicted, stale⟩ := pairEvents_evicts
  exact stale (claimed (fun _ => 1 / 2) starvedModel pairEnv pairState rfl pairEvents pairEvents_calls before tick []
    split turn member 2 evicted)

end FlashNext.ColdPool
