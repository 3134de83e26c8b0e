import FlashNext.ColdPool.Ticks
import FlashNext.ColdPool.Demotion

namespace FlashNext.ColdPool

open FlashNext.Data

/-- The demotion loop goes through with an expert: its remap entry is a keep row. -/
def Demotes (gid : Nat) (ctx : Ctx) : Prop :=
  ∃ row ∈ ctx.tables.remapAt ctx.pool.layerId gid, row < ctx.pool.keepLen

instance (gid : Nat) (ctx : Ctx) : Decidable (Demotes gid ctx) :=
  inferInstanceAs (Decidable (∃ row ∈ ctx.tables.remapAt ctx.pool.layerId gid, row < ctx.pool.keepLen))

def demotions : List Nat → Ctx → List Nat
  | [], _ => []
  | gid :: rest, ctx => (if Demotes gid ctx then [gid] else []) ++ demotions rest (demote gid ctx)

theorem demotions_subset {doomed : List Nat} {ctx : Ctx} {gid : Nat} (member : gid ∈ demotions doomed ctx) :
    gid ∈ doomed := by
  induction doomed generalizing ctx with
  | nil => exact member
  | cons first rest ih =>
      rcases List.mem_append.mp member with here | later
      · split at here
        · rw [List.mem_singleton] at here
          exact here ▸ List.mem_cons_self
        · contradiction
      · exact List.mem_cons_of_mem first (ih later)

theorem demoteAll_counted (doomed : List Nat) (ctx : Ctx) :
    (demoteAll doomed ctx).2.stats.demoted = ctx.stats.demoted + (demotions doomed ctx).length := by
  induction doomed generalizing ctx with
  | nil => rfl
  | cons gid rest ih =>
      have here : (demote gid ctx).stats.demoted = ctx.stats.demoted + if Demotes gid ctx then 1 else 0 := by
        unfold demote
        split
        · next absent =>
            rw [if_neg fun ⟨row, found, _⟩ => by simp [absent] at found]
            rfl
        · next row mapped =>
            split
            · next outside =>
                rw [if_neg]
                · rfl
                · intro ⟨other, found, bound⟩
                  rw [mapped] at found
                  cases found
                  omega
            · next inside => rw [if_pos ⟨row, mapped, by omega⟩]
      have later := ih (demote gid ctx)
      simp only [demoteAll, demotions, List.length_append]
      by_cases demotes : Demotes gid ctx
      · rw [if_pos demotes] at here ⊢
        rw [List.length_singleton]
        omega
      · rw [if_neg demotes] at here ⊢
        rw [List.length_nil]
        omega

namespace Tick

def staged (sigmoid : ℚ → ℚ) (tick : Tick) : Ctx :=
  (voteAndStage sigmoid tick.config tick.faults tick.ctx tick.ballot).2

def demoted (sigmoid : ℚ → ℚ) (tick : Tick) : List Nat :=
  if tick.Fits ∧ tick.degrade = true then
    demotions (demotionList tick.config tick.flat (tick.staged sigmoid).pool)
      { tick.staged sigmoid with pool := recordSeen (tick.staged sigmoid).pool tick.flat }
  else []

def recorded (tick : Tick) : List Nat := if tick.Fits then tick.flat else []

/-- Ids of the stash that the tick leaves out: those after the last whole row,
or all of them when the tick raises. -/
def leftOut (tick : Tick) : List Nat := tick.ids.filter (· ∉ tick.recorded)

end Tick

/-- The documented rule for a demotion of `gid` at `tick`: a whole window of
ticks has gone by, and no stash of the last window held the expert. -/
structure Windowed (before : List Tick) (tick : Tick) (gid : Nat) : Prop where
  elapsed : tick.config.degradeWindow ≤ (tick.time : Int) - 1
  unseen : ∀ past ∈ ownTicks tick.layer (before ++ [tick]),
    (tick.time : Int) - past.time < tick.config.degradeWindow → gid ∉ past.ids

/-- The expert has been recorded once, unless the layer is past its first
window, and no tick of the last window left its id out. -/
structure Witnessed (before : List Tick) (tick : Tick) (gid : Nat) : Prop where
  once : tick.config.degradeWindow < tick.time ∨ ∃ past ∈ ownTicks tick.layer before, gid ∈ past.recorded
  kept : ∀ past ∈ ownTicks tick.layer (before ++ [tick]),
    (tick.time : Int) - past.time < tick.config.degradeWindow → gid ∉ past.leftOut

def Pool.seenAt (pool : Pool) (gid : Nat) : Int :=
  (pool.seenTick.getD (List.replicate pool.experts neverSeen)).getD gid 0

/-- The last-seen ticks are not behind the log. -/
structure Sighted (log : List Tick) (pool : Pool) : Prop where
  size : ∀ seen, pool.seenTick = some seen → seen.length = pool.experts
  times : ∀ past ∈ log, 1 ≤ past.time ∧ past.time ≤ pool.tick
  seen : ∀ past ∈ log, ∀ gid ∈ past.recorded, gid < pool.experts → (past.time : Int) ≤ pool.seenAt gid

theorem foldl_set_getD (flat : List Nat) (seen : List Int) (time : Int) {gid : Nat} (bound : gid < seen.length) :
    (flat.foldl (fun seen gid => seen.set gid time) seen).getD gid 0 =
      if gid ∈ flat then time else seen.getD gid 0 := by
  induction flat generalizing seen with
  | nil => simp
  | cons first rest ih =>
      rw [List.foldl_cons, ih _ (by simpa using bound)]
      by_cases later : gid ∈ rest
      · simp [later]
      · by_cases same : gid = first
        · subst same
          simp [later, bound]
        · simp [later, same, Ne.symm same]

theorem recordSeen_size (pool : Pool) (flat : List Nat)
    (size : ∀ seen, pool.seenTick = some seen → seen.length = pool.experts) :
    ∀ seen, (recordSeen pool flat).seenTick = some seen → seen.length = pool.experts := by
  have start : (pool.seenTick.getD (List.replicate pool.experts neverSeen)).length = pool.experts := by
    cases held : pool.seenTick with
    | none => simp
    | some seen => simpa [held] using size seen held
  have fold : ∀ (flat : List Nat) (seen : List Int),
      (flat.foldl (fun seen gid => seen.set gid (pool.tick : Int)) seen).length = seen.length := by
    intro flat
    induction flat with
    | nil => exact fun _ => rfl
    | cons first rest ih => exact fun seen => (ih _).trans (List.length_set)
  intro seen held
  cases held
  exact (fold flat _).trans start

theorem seenAt_recordSeen (pool : Pool) (flat : List Nat)
    (size : ∀ seen, pool.seenTick = some seen → seen.length = pool.experts) {gid : Nat}
    (bound : gid < pool.experts) :
    (recordSeen pool flat).seenAt gid = if gid ∈ flat then (pool.tick : Int) else pool.seenAt gid := by
  have start : (pool.seenTick.getD (List.replicate pool.experts neverSeen)).length = pool.experts := by
    cases held : pool.seenTick with
    | none => simp
    | some seen => simpa [held] using size seen held
  exact foldl_set_getD flat _ pool.tick (start.symm ▸ bound)

section Window

variable {sigmoid : ℚ → ℚ} {keepMask : Dict Nat (List Nat)} {log : List Tick} {tick : Tick}

theorem tick_seen (fits : tick.Fits) (enabled : tick.degrade = true)
    (experts : (tick.staged sigmoid).pool.experts = tick.ctx.pool.experts) :
    (tick.final sigmoid).pool.clock = (recordSeen (tick.staged sigmoid).pool tick.flat).clock := by
  have inside : ∀ gid ∈ tick.flat, gid < (tick.staged sigmoid).pool.experts := experts ▸ fits.1
  rw [Tick.final, if_pos fits, tickLayer, enabled]
  change (phaseB tick.config tick.flat (tick.staged sigmoid)).2.pool.clock = _
  rw [phaseB, if_neg (not_not.mpr inside)]
  exact (promoteAll_clock _ _).trans (demoteAll_clock _ _)

theorem sighted_of_clock {pool other : Pool} (sighted : Sighted log pool) (clock : other.clock = pool.clock)
    (experts : other.experts = pool.experts) : Sighted log other := by
  simp only [Pool.clock, Prod.mk.injEq] at clock
  refine ⟨?_, ?_, ?_⟩
  · rw [clock.2, experts]
    exact sighted.size
  · rw [clock.1]
    exact sighted.times
  · simp only [Pool.seenAt, clock.2, experts]
    exact sighted.seen

theorem staged_experts (tracked : Tracked keepMask tick.ctx) :
    (tick.staged sigmoid).pool.experts = tick.ctx.pool.experts :=
  Pool.experts_of_frozen ((trackedRule keepMask).voteAndStage_sound sigmoid tick.config tick.faults tick.ballot
    tracked).frame.frozen

theorem Sighted.times_append (sighted : Sighted log tick.ctx.pool) (made : tick.Made) :
    ∀ past ∈ log ++ [tick], 1 ≤ past.time ∧ past.time ≤ tick.ctx.pool.tick := by
  intro past member
  rcases List.mem_append.mp member with before | last
  · exact sighted.times past before
  · rw [List.mem_singleton] at last
    subst last
    exact ⟨made.counted, Nat.le_refl _⟩

theorem Sighted.record (sighted : Sighted log tick.ctx.pool) (made : tick.Made) (fits : tick.Fits)
    (experts : (tick.staged sigmoid).pool.experts = tick.ctx.pool.experts) :
    Sighted (log ++ [tick]) (recordSeen (tick.staged sigmoid).pool tick.flat) := by
  have clock : (tick.staged sigmoid).pool.clock = tick.ctx.pool.clock := stageAll_clock _ _ _
  have before := sighted_of_clock sighted clock experts
  have now : (tick.staged sigmoid).pool.tick = tick.ctx.pool.tick := congrArg Prod.fst clock
  have times := sighted.times_append made
  refine ⟨recordSeen_size _ _ before.size, ?_, ?_⟩
  · rw [show (recordSeen (tick.staged sigmoid).pool tick.flat).tick = tick.ctx.pool.tick from now]
    exact times
  · intro past member gid listed bound
    rw [seenAt_recordSeen _ _ before.size bound]
    split
    · rw [now]
      exact Int.ofNat_le.mpr (times past member).2
    · next other =>
        rcases List.mem_append.mp member with earlier | last
        · exact before.seen past earlier gid listed bound
        · rw [List.mem_singleton] at last
          rw [last, Tick.recorded, if_pos fits] at listed
          exact absurd listed other

theorem sighted_watch (keepMask : Dict Nat (List Nat)) :
    Watch sigmoid (fun config => config.degrade = true ∧ 0 < config.coldSlots) (Tracked keepMask) Sighted where
  quiet := by
    intro log pool sighted
    exact ⟨sighted.size, fun past member => ⟨(sighted.times past member).1,
      Nat.le_succ_of_le (sighted.times past member).2⟩, sighted.seen⟩
  tick := by
    intro log tick admitted made tracked sighted
    have enabled : tick.degrade = true := by simp [made.enabled, admitted]
    by_cases fits : tick.Fits
    · have experts : (tick.staged sigmoid).pool.experts = tick.ctx.pool.experts := staged_experts tracked
      have whole := (trackedRule keepMask).tickLayer_sound sigmoid tick.config tick.faults tick.degrade tick.ballot
        tracked fun _ => trivial
      have final : (tick.final sigmoid).pool.experts = (tick.staged sigmoid).pool.experts := by
        rw [experts, Tick.final, if_pos fits]
        exact Pool.experts_of_frozen whole.frame.frozen
      exact sighted_of_clock (sighted.record made fits experts) (tick_seen fits enabled experts) final
    · rw [Tick.final, if_neg fits]
      refine ⟨sighted.size, sighted.times_append made, ?_⟩
      intro past member gid listed bound
      rcases List.mem_append.mp member with earlier | last
      · exact sighted.seen past earlier gid listed bound
      · rw [List.mem_singleton] at last
        rw [last, Tick.recorded, if_neg fits] at listed
        contradiction

theorem starved_of_demoted (tracked : Tracked keepMask tick.ctx) {gid : Nat} (member : gid ∈ tick.demoted sigmoid) :
    tick.Fits ∧ gid < tick.ctx.pool.experts ∧ tick.config.degradeWindow <
      (tick.time : Int) - (recordSeen (tick.staged sigmoid).pool tick.flat).seenAt gid := by
  unfold Tick.demoted at member
  split at member
  · next runs =>
      have staging := (trackedRule keepMask).voteAndStage_sound sigmoid tick.config tick.faults tick.ballot tracked
      have listed := List.mem_of_mem_take (demotions_subset member)
      obtain ⟨kept, starved⟩ := List.mem_filter.mp listed
      have stagedTracked : Tracked keepMask (tick.staged sigmoid) := staging.final
      have bound := stagedTracked.keepBound gid (stagedTracked.keepIds ▸ kept)
      have now : (tick.staged sigmoid).pool.tick = tick.time :=
        congrArg Prod.fst (stageAll_clock _ _ _ : (tick.staged sigmoid).pool.clock = tick.ctx.pool.clock)
      refine ⟨runs.1, staged_experts tracked ▸ bound, ?_⟩
      rw [← now]
      exact of_decide_eq_true starved
  · contradiction

theorem windowed_iff {admits : HookConfig → Prop} {before : List Tick}
    (seen : Seen admits (Tracked keepMask) Sighted before tick) {gid : Nat} (member : gid ∈ tick.demoted sigmoid) :
    Windowed before tick gid ↔ Witnessed before tick gid := by
  obtain ⟨fits, bound, starved⟩ := starved_of_demoted seen.settled member
  have experts : (tick.staged sigmoid).pool.experts = tick.ctx.pool.experts := staged_experts seen.settled
  have own : ownTicks tick.layer (before ++ [tick]) = ownTicks tick.layer before ++ [tick] := by
    rw [ownTicks_append, if_pos rfl]
  have sighted := seen.watched.record seen.made fits experts
  -- recorded ids are more than a window old
  have old : ∀ past ∈ ownTicks tick.layer before ++ [tick], gid ∈ past.recorded →
      tick.config.degradeWindow < (tick.time : Int) - past.time := by
    intro past inside listed
    have behind := sighted.seen past inside gid listed (experts ▸ bound)
    omega
  constructor
  · intro windowed
    have elapsed := windowed.elapsed
    refine ⟨Or.inl (by omega), ?_⟩
    exact fun past inside recent left => windowed.unseen past inside recent (List.mem_of_mem_filter left)
  · intro witnessed
    constructor
    · rcases witnessed.once with late | ⟨past, inside, listed⟩
      · omega
      · have behind := old past (List.mem_append_left _ inside) listed
        have counted := (seen.watched.times past inside).1
        omega
    · intro past inside recent held
      by_cases listed : gid ∈ past.recorded
      · have behind := old past (own ▸ inside) listed
        omega
      · exact witnessed.kept past inside recent (List.mem_filter.mpr ⟨held, decide_eq_true listed⟩)

end Window

theorem sighted_of_loaded {model : LoadedModel} {state : State} (loaded : Loaded model state) :
    Recorded Sighted [] state := by
  intro layer pool found
  obtain ⟨ctx, view, rfl⟩ := loaded.wired.ctx?_isSome found
  obtain ⟨original, _, shrunk⟩ := loaded.layers layer ctx view
  obtain ⟨_, _, _, _, _, _, _, fresh⟩ := shrunk.fresh
  refine ⟨?_, by simp [ownTicks], by simp [ownTicks]⟩
  rw [fresh]
  simp [shrunkPool, Pool.init]

/-- In a run with demotion on, a demotion respects the window exactly when the
expert had been recorded before, or the first window was over, and no recent
tick left its id out. -/
theorem demotion_windowed_iff (sigmoid : ℚ → ℚ) (model : LoadedModel) (env : ShrinkEnv) (state : State)
    (completed : maybeShrinkAfterProcess env (State.fresh model.modules) = .done state) (events : List Event)
    (calls : ∀ event ∈ events,
      event.Calls fun config => config.degrade = true ∧ config.coldSlots = env.coldSlots) :
    ∀ before tick after, ticks sigmoid state events = before ++ tick :: after →
      ∀ gid ∈ tick.demoted sigmoid, (Windowed before tick gid ↔ Witnessed before tick gid) := by
  obtain ⟨keepMask, start⟩ := inStep_of_completed completed
  have allows : (machine sigmoid).Meets (EventAllows (fun _ _ _ => True) sigmoid) state events :=
    Machine.meets_of_forall fun state event _ => eventAllows_trivial sigmoid state event
  intro before tick after split gid member
  rcases Nat.eq_zero_or_pos env.coldSlots with closed | slots
  · -- without slots no pass runs at all
    have recorded : Recorded (fun _ _ => True) [] state := fun _ _ _ => trivial
    have seen := (idle_watch (Tracked keepMask)).run_recorded (trackedRule keepMask) start.toSettled allows calls
      recorded
    have here := seen.entry split
    have enabled := here.made.enabled
    rw [here.admitted.2, closed] at enabled
    rw [Tick.demoted, if_neg fun runs => by simp [enabled] at runs] at member
    contradiction
  · have calls : ∀ event ∈ events, event.Calls fun config => config.degrade = true ∧ 0 < config.coldSlots :=
      fun event inside => (calls event inside).mono fun _ admitted => ⟨admitted.1, admitted.2 ▸ slots⟩
    have seen := (sighted_watch keepMask).run_recorded (trackedRule keepMask) start.toSettled allows calls
      (sighted_of_loaded (maybeShrink_loaded completed))
    exact windowed_iff (seen.entry split) member

/-- The only tick of `starvedTick`. -/
theorem demotion_windowed_iff_starvedTick : ∃ tick, ticks (fun _ => 1 / 2) starvedState starvedTick = [tick] ∧
    1 ∈ tick.demoted (fun _ => 1 / 2) ∧ (Windowed [] tick 1 ↔ Witnessed [] tick 1) := by
  have logged : (ticks (fun _ => 1 / 2) starvedState starvedTick).map
      (fun tick => decide (1 ∈ tick.demoted fun _ => 1 / 2)) = [true] := by decide +kernel
  obtain ⟨tick, single, demoted⟩ := List.map_eq_singleton_iff.mp logged
  have member := of_decide_eq_true demoted
  exact ⟨tick, single, member, demotion_windowed_iff (fun _ => 1 / 2) starvedModel starvedEnv starvedState
    starvedState_completed starvedTick (by simp [starvedTick, Event.Calls, starvedConfig, starvedEnv]) [] tick []
    single 1 member⟩

/-- Expert 1 is demoted at the first tick, with a window of 2048 ticks. -/
theorem demotion_not_windowed : ¬ ∀ (sigmoid : ℚ → ℚ) (model : LoadedModel) (env : ShrinkEnv) (state : State),
    maybeShrinkAfterProcess env (State.fresh model.modules) = .done state → ∀ events : List Event,
      (∀ event ∈ events, event.Calls fun config => config.degrade = true ∧ config.coldSlots = env.coldSlots) →
        ∀ before tick after, ticks sigmoid state events = before ++ tick :: after →
          ∀ gid ∈ tick.demoted sigmoid, Windowed before tick gid := by
  intro claimed
  have logged : (ticks (fun _ => 1 / 2) starvedState starvedTick).map
      (fun tick => (decide (1 ∈ tick.demoted fun _ => 1 / 2), tick.time, tick.config.degradeWindow)) =
        [(true, 1, 2048)] := by decide +kernel
  obtain ⟨tick, single, facts⟩ := List.map_eq_singleton_iff.mp logged
  simp only [Prod.mk.injEq] at facts
  obtain ⟨demoted, time, window⟩ := facts
  have windowed := claimed (fun _ => 1 / 2) starvedModel starvedEnv starvedState starvedState_completed starvedTick
    (by simp [starvedTick, Event.Calls, starvedConfig, starvedEnv]) [] tick [] single 1 (of_decide_eq_true demoted)
  have elapsed := windowed.elapsed
  rw [time, window] at elapsed
  omega

end FlashNext.ColdPool
