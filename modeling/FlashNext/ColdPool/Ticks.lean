import FlashNext.ColdPool.LateColumns
import FlashNext.ColdPool.SlotConservation

namespace FlashNext.ColdPool

open FlashNext.Data

structure Tick where
  layer : Nat
  config : HookConfig
  faults : Faults
  degrade : Bool
  ctx : Ctx
  ids : List Nat
  ballot : Ballot

def StashBuffer.validIds (buffer : StashBuffer) : List Nat := (buffer.ids.filter (0 ≤ ·)).map Int.toNat

/-- The tick `hookLayer` makes of a layer, if its buffer holds enough ids. -/
def layerTick (config : HookConfig) (faults : Faults) (state : State) (layer : Nat) : Option Tick :=
  match state.stash.get? layer, state.ctx? layer with
  | some buffer, some ctx => (readBallot config buffer).map fun ballot =>
      ⟨layer, config, faults, degradeEnabled config state, ctx.tickUp, buffer.validIds, ballot⟩
  | _, _ => none

def hookTicks (sigmoid : ℚ → ℚ) (config : HookConfig) (faults : Faults) : List Nat → State → List Tick
  | [], _ => []
  | layer :: rest, state =>
      let here := hookLayer sigmoid config faults state layer
      (layerTick config faults state layer).toList ++
        if here.raised then [] else hookTicks sigmoid config faults rest here.final

def eventTicks (sigmoid : ℚ → ℚ) (state : State) : Event → List Tick
  | .hook config faults capturing =>
      if (hookDue capturing state).2 then
        hookTicks sigmoid config faults state.layers.keys (hookDue capturing state).1
      else []
  | .forward _ _ _ _ | .stash _ _ _ _ _ | .stageLists _ _ | .phaseB _ _ _ => []

def ticks (sigmoid : ℚ → ℚ) : State → List Event → List Tick
  | _, [] => []
  | state, event :: rest =>
      eventTicks sigmoid state event ++ ticks sigmoid ((machine sigmoid).step state event).2 rest

namespace Tick

def time (tick : Tick) : Nat := tick.ctx.pool.tick

/-- The ids the tick works with: whole rows of `k`, the rest is left out. -/
def flat (tick : Tick) : List Nat := tick.ballot.flat.flatten

def Fits (tick : Tick) : Prop := tick.ballot.Fits tick.ctx.pool.experts

instance (tick : Tick) : Decidable tick.Fits := inferInstanceAs (Decidable (Ballot.Fits _ _))

/-- The layer when its tick is over.  A tick whose ballot does not fit raises
before it changes anything else. -/
def final (sigmoid : ℚ → ℚ) (tick : Tick) : Ctx :=
  if tick.Fits then (tickLayer sigmoid tick.config tick.faults tick.degrade tick.ctx tick.ballot).2
  else tick.ctx

end Tick

/-- How the hook makes a tick of an armed layer. -/
structure Tick.Made (tick : Tick) : Prop where
  enabled : tick.degrade = (decide (0 < tick.config.coldSlots) && tick.config.degrade)
  counted : 0 < tick.time
  layerId : tick.ctx.pool.layerId = tick.layer
  read : ∃ buffer, readBallot tick.config buffer = some tick.ballot ∧ tick.ids = buffer.validIds

def ownTicks (layer : Nat) (log : List Tick) : List Tick := log.filter fun tick => tick.layer = layer

/-- The entry points the patched engine calls, with settings of one kind. -/
def Event.Calls (admits : HookConfig → Prop) : Event → Prop
  | .hook config _ _ => admits config
  | .stageLists _ _ | .phaseB _ _ _ => False
  | .forward _ _ _ _ | .stash _ _ _ _ _ => True

theorem Event.Calls.mono {event : Event} {admits other : HookConfig → Prop} (calls : event.Calls admits)
    (weaker : ∀ config, admits config → other config) : event.Calls other := by
  cases event with
  | hook config faults capturing => exact weaker config calls
  | stageLists faults candidates => exact calls
  | phaseB config layer flat => exact calls
  | forward layer capturing dtype logits => trivial
  | stash layer capturing preMask topkIds k => trivial

/-- What only the hook and `_phase_b` advance. -/
def Pool.clock (pool : Pool) : Nat × Option (List Int) := (pool.tick, pool.seenTick)

theorem Pool.experts_of_frozen {left right : Pool} (same : left.frozen = right.frozen) :
    left.experts = right.experts := by
  have frozen : left.frozen.experts = right.frozen.experts := by rw [same]
  exact frozen

theorem pickRow_clock (ctx : Ctx) : (pickRow ctx).1.pool.clock = ctx.pool.clock := by
  unfold pickRow
  split
  · rfl
  · split
    · rfl
    · unfold evictRow
      split <;> rfl

theorem rowFromHost_clock (faults : Faults) (gid row : Nat) (ctx : Ctx) :
    (rowFromHost faults gid row ctx).final.pool.clock = ctx.pool.clock := by
  have copied := congrArg Pool.clock (copyParams_pool faults gid row (hostEntry faults ctx gid) ctx)
  simp only [rowFromHost]
  split
  · rfl
  · split <;> exact copied

theorem returnRow_clock (row : Nat) (ctx : Ctx) : (returnRow row ctx).pool.clock = ctx.pool.clock := by
  unfold returnRow
  split <;> rfl

theorem stageOne_clock {faults : Faults} {gid : Nat} {ctx next : Ctx}
    (reached : (stageOne faults gid ctx).2 = some next) : next.pool.clock = ctx.pool.clock := by
  simp only [stageOne] at reached
  split at reached
  · cases reached
    rfl
  · have picking := pickRow_clock (resetNeed gid ctx)
    cases picked : pickRow (resetNeed gid ctx) with
    | mk after row? =>
        rw [picked] at picking reached
        cases row? with
        | none => contradiction
        | some row =>
            have filled := (rowFromHost_clock faults gid row after).trans picking
            dsimp only at reached
            split at reached
            · cases reached
              exact filled
            · cases reached
              exact (returnRow_clock row _).trans filled

theorem stageAll_clock (faults : Faults) (candidates : List Nat) (ctx : Ctx) :
    (stageAll faults candidates ctx).2.pool.clock = ctx.pool.clock := by
  induction candidates generalizing ctx with
  | nil => rfl
  | cons gid rest ih =>
      simp only [stageAll]
      cases staged : stageOne faults gid ctx with
      | mk visited next? =>
          cases next? with
          | none => rfl
          | some next => exact (ih next).trans (stageOne_clock (congrArg Prod.snd staged))

theorem demoteAll_clock (doomed : List Nat) (ctx : Ctx) :
    (demoteAll doomed ctx).2.pool.clock = ctx.pool.clock := by
  induction doomed generalizing ctx with
  | nil => rfl
  | cons gid rest ih =>
      have here : (demote gid ctx).pool.clock = ctx.pool.clock := by
        unfold demote
        split
        · rfl
        · split <;> rfl
      exact (ih (demote gid ctx)).trans here

theorem promoteAll_clock (entries : List (Nat × Nat)) (ctx : Ctx) :
    (entries.foldl (fun ctx entry => promote entry ctx) ctx).pool.clock = ctx.pool.clock := by
  induction entries generalizing ctx with
  | nil => rfl
  | cons entry rest ih =>
      have here : (promote entry ctx).pool.clock = ctx.pool.clock := by
        unfold promote
        split
        · rfl
        · split
          · rfl
          · split <;> rfl
      exact (ih (promote entry ctx)).trans here

/-- A property of a layer's pool and of the layer's ticks so far that every
tick keeps. -/
structure Watch (sigmoid : ℚ → ℚ) (admits : HookConfig → Prop) (settled : Ctx → Prop)
    (watched : List Tick → Pool → Prop) : Prop where
  quiet : ∀ log (pool : Pool), watched log pool → watched log { pool with tick := pool.tick + 1 }
  tick : ∀ log (tick : Tick), admits tick.config → tick.Made → settled tick.ctx →
    watched log tick.ctx.pool → watched (log ++ [tick]) (tick.final sigmoid).pool

/-- What is known of a tick that follows the ticks in `log`. -/
structure Seen (admits : HookConfig → Prop) (settled : Ctx → Prop) (watched : List Tick → Pool → Prop)
    (log : List Tick) (tick : Tick) : Prop where
  admitted : admits tick.config
  made : tick.Made
  settled : settled tick.ctx
  earlier : watched (ownTicks tick.layer log) { tick.ctx.pool with tick := tick.time - 1 }
  watched : watched (ownTicks tick.layer log) tick.ctx.pool

/-- Every layer's pool is watched. -/
def Recorded (watched : List Tick → Pool → Prop) (log : List Tick) (state : State) : Prop :=
  ∀ layer pool, state.layers.get? layer = some pool → watched (ownTicks layer log) pool

variable {sigmoid : ℚ → ℚ} {admits : HookConfig → Prop} {settled exposed : Ctx → Prop}
  {allowed : HookConfig → List Nat → Ctx → Prop} {watched : List Tick → Pool → Prop}
  {config : HookConfig} {faults : Faults} {state : State} {layer : Nat} {log : List Tick} {tick : Tick}

theorem layerTick_eq_some (ticked : layerTick config faults state layer = some tick) :
    ∃ buffer ctx ballot, state.stash.get? layer = some buffer ∧ state.ctx? layer = some ctx ∧
      readBallot config buffer = some ballot ∧
      tick = ⟨layer, config, faults, degradeEnabled config state, ctx.tickUp, buffer.validIds, ballot⟩ := by
  unfold layerTick at ticked
  cases buffered : state.stash.get? layer with
  | none => simp [buffered] at ticked
  | some buffer =>
      cases view : state.ctx? layer with
      | none => simp [buffered, view] at ticked
      | some ctx =>
          simp only [buffered, view] at ticked
          obtain ⟨ballot, read, rfl⟩ := Option.map_eq_some_iff.mp ticked
          exact ⟨buffer, ctx, ballot, rfl, rfl, read, rfl⟩

theorem hookTicks_source {layers : List Nat} (member : tick ∈ hookTicks sigmoid config faults layers state) :
    tick.config = config ∧ tick.faults = faults := by
  induction layers generalizing state with
  | nil => contradiction
  | cons layer rest ih =>
      rcases List.mem_append.mp member with here | later
      · obtain ⟨_, _, _, _, _, _, same⟩ := layerTick_eq_some (Option.mem_toList.mp here)
        rw [same]
        exact ⟨rfl, rfl⟩
      · split at later
        · contradiction
        · exact ih later

theorem ticks_source {events : List Event} (member : tick ∈ ticks sigmoid state events) :
    ∃ capturing, .hook tick.config tick.faults capturing ∈ events := by
  induction events generalizing state with
  | nil => contradiction
  | cons event rest ih =>
      rcases List.mem_append.mp member with here | later
      · cases event with
        | hook config faults capturing =>
            rw [eventTicks] at here
            split at here
            · obtain ⟨sameConfig, sameFaults⟩ := hookTicks_source here
              exact ⟨capturing, by simp [sameConfig, sameFaults]⟩
            · contradiction
        | forward | stash | stageLists | phaseB => contradiction
      · obtain ⟨capturing, inside⟩ := ih later
        exact ⟨capturing, List.mem_cons_of_mem event inside⟩

theorem hookLayer_ticked (ticked : layerTick config faults state layer = some tick) (other : Nat) :
    (hookLayer sigmoid config faults state layer).final.layers.get? other =
      if other = layer then some (tick.final sigmoid).pool else state.layers.get? other := by
  obtain ⟨buffer, ctx, ballot, buffered, view, read, rfl⟩ := layerTick_eq_some ticked
  simp only [hookLayer, buffered, view, read]
  by_cases fits : ballot.Fits ctx.pool.experts
  · have same : Tick.Fits ⟨layer, config, faults, degradeEnabled config state, ctx.tickUp, buffer.validIds,
      ballot⟩ := fits
    rw [if_pos fits, Tick.final, if_pos same, State.get?_withCtx]
    split
    · rfl
    · next different => exact (State.get?_withCtx state layer other ctx.tickUp).trans (if_neg different)
  · have same : ¬ Tick.Fits ⟨layer, config, faults, degradeEnabled config state, ctx.tickUp, buffer.validIds,
      ballot⟩ := fits
    rw [if_neg fits, Tick.final, if_neg same]
    exact State.get?_withCtx state layer other ctx.tickUp

theorem hookLayer_quiet (quiet : layerTick config faults state layer = none) {other : Nat} {pool : Pool}
    (found : (hookLayer sigmoid config faults state layer).final.layers.get? other = some pool) :
    state.layers.get? other = some pool ∨
      ∃ before, state.layers.get? other = some before ∧ pool = { before with tick := before.tick + 1 } := by
  unfold layerTick at quiet
  unfold hookLayer at found
  cases buffered : state.stash.get? layer with
  | none => exact Or.inl (by simpa [buffered] using found)
  | some buffer =>
      cases view : state.ctx? layer with
      | none => exact Or.inl (by simpa [buffered, view] using found)
      | some ctx =>
          simp only [buffered, view, Option.map_eq_none_iff] at quiet found
          rw [quiet] at found
          simp only [State.get?_withCtx] at found
          split at found
          · next same =>
              refine Or.inr ⟨ctx.pool, same ▸ (State.pool_of_ctx? view).1, ?_⟩
              exact (Option.some.inj found).symm
          · exact Or.inl found

theorem ownTicks_append (layer : Nat) (log : List Tick) (tick : Tick) :
    ownTicks layer (log ++ [tick]) =
      if tick.layer = layer then ownTicks layer log ++ [tick] else ownTicks layer log := by
  by_cases same : tick.layer = layer <;> simp [ownTicks, List.filter_append, same]

theorem Watch.and {other : List Tick → Pool → Prop} (left : Watch sigmoid admits settled watched)
    (right : Watch sigmoid admits settled other) :
    Watch sigmoid admits settled fun log pool => watched log pool ∧ other log pool where
  quiet := fun log pool both => ⟨left.quiet log pool both.1, right.quiet log pool both.2⟩
  tick := fun log tick admitted made ok both =>
    ⟨left.tick log tick admitted made ok both.1, right.tick log tick admitted made ok both.2⟩

theorem Watch.mono {stronger : Ctx → Prop} (watch : Watch sigmoid admits settled watched)
    (implies : ∀ ctx, stronger ctx → settled ctx) : Watch sigmoid admits stronger watched :=
  ⟨watch.quiet, fun log tick admitted made ok => watch.tick log tick admitted made (implies tick.ctx ok)⟩

theorem frozen_watch (rule : LayerRule settled exposed allowed)
    (free : ∀ config, admits config → config.degrade = false) (holds : Pool → Prop) :
    Watch sigmoid admits settled fun _ pool => holds pool.frozen where
  quiet := fun _ _ same => same
  tick := by
    intro log tick admitted made ok same
    have disabled : tick.degrade = false := by rw [made.enabled, free _ admitted, Bool.and_false]
    rw [Tick.final]
    split
    · rw [(rule.tickLayer_sound sigmoid tick.config tick.faults tick.degrade tick.ballot ok
        (by simp [disabled])).frame.frozen]
      exact same
    · exact same

theorem idle_watch (settled : Ctx → Prop) : Watch sigmoid admits settled fun _ _ => True :=
  ⟨fun _ _ _ => trivial, fun _ _ _ _ _ _ => trivial⟩

namespace Watch

variable (watch : Watch sigmoid admits settled watched)
include watch

theorem layer_recorded (rule : LayerRule settled exposed allowed) (ok : Settled settled state)
    (recorded : Recorded watched log state) (admitted : admits config) (layer : Nat) :
    Chronicle (Seen admits settled watched) log (layerTick config faults state layer).toList ∧
      Recorded watched (log ++ (layerTick config faults state layer).toList)
        (hookLayer sigmoid config faults state layer).final := by
  cases ticked : layerTick config faults state layer with
  | none =>
      refine ⟨trivial, ?_⟩
      intro other pool found
      rw [Option.toList_none, List.append_nil]
      rcases hookLayer_quiet ticked found with same | ⟨before, stood, rfl⟩
      · exact recorded other pool same
      · exact watch.quiet _ before (recorded other before stood)
  | some tick =>
      obtain ⟨buffer, ctx, ballot, _, view, read, same⟩ := layerTick_eq_some ticked
      obtain ⟨found, _⟩ := State.pool_of_ctx? view
      have made : tick.Made := by
        subst same
        refine ⟨?_, Nat.succ_pos _, ok.wired.layerId layer ctx.pool found, buffer, read, rfl⟩
        rw [degradeEnabled, ok.armed layer ctx.pool found, Bool.true_and]
      have seen : Seen admits settled watched log tick := by
        subst same
        exact ⟨admitted, made, rule.tick (ok.layers layer ctx view),
          recorded layer ctx.pool found, watch.quiet _ ctx.pool (recorded layer ctx.pool found)⟩
      have here : tick.layer = layer := by rw [same]
      refine ⟨⟨seen, trivial⟩, ?_⟩
      intro other pool present
      rw [hookLayer_ticked ticked] at present
      rw [Option.toList_some, ownTicks_append]
      split at present
      · next same =>
          cases present
          rw [if_pos (here.trans same.symm), same, ← here]
          exact watch.tick _ tick seen.admitted made seen.settled seen.watched
      · next different =>
          rw [if_neg fun same => different (same.symm.trans here)]
          exact recorded other pool present

theorem layers_recorded (rule : LayerRule settled exposed allowed) {layers : List Nat} (ok : Settled settled state)
    (allows : HookAllows allowed sigmoid config faults layers state) (recorded : Recorded watched log state)
    (admitted : admits config) :
    Chronicle (Seen admits settled watched) log (hookTicks sigmoid config faults layers state) ∧
      Recorded watched (log ++ hookTicks sigmoid config faults layers state)
        (hookLayers sigmoid config faults layers state).final := by
  induction layers generalizing state log with
  | nil => exact ⟨trivial, by simpa [hookTicks, hookLayers] using recorded⟩
  | cons layer rest ih =>
      obtain ⟨chronicle, next⟩ := @layer_recorded _ _ _ exposed allowed _ config faults state log watch rule ok
        recorded admitted layer
      have final := (rule.hookLayer_sound sigmoid config faults ok allows.1).final
      simp only [hookTicks, hookLayers]
      cases raised : (hookLayer sigmoid config faults state layer).raised with
      | true => simpa [raised] using ⟨chronicle, next⟩
      | false =>
          obtain ⟨laterChronicle, later⟩ := ih final (allows.2 raised) next
          simp only [Bool.false_eq_true, if_false]
          exact ⟨chronicle.append laterChronicle, List.append_assoc log _ _ ▸ later⟩

theorem event_recorded (rule : LayerRule settled exposed allowed) {event : Event} (ok : Settled settled state)
    (allows : EventAllows allowed sigmoid state event) (calls : event.Calls admits)
    (recorded : Recorded watched log state) :
    Chronicle (Seen admits settled watched) log (eventTicks sigmoid state event) ∧
      Recorded watched (log ++ eventTicks sigmoid state event) ((machine sigmoid).step state event).2 := by
  cases event with
  | forward layer capturing dtype logits =>
      refine ⟨trivial, ?_⟩
      have same : (applyKeepMask state layer capturing dtype logits).1.layers = state.layers := by
        cases layer with
        | none => rfl
        | some layer =>
            rw [applyKeepMask_tables]
            split <;> rfl
      intro other pool found
      rw [eventTicks, List.append_nil]
      exact recorded other pool (same ▸ found)
  | stash layer capturing preMask topkIds k =>
      refine ⟨trivial, ?_⟩
      obtain ⟨stash, dirty, same⟩ := stashDemand_eq sigmoid state layer capturing preMask topkIds k
      intro other pool found
      rw [eventTicks, List.append_nil]
      change (stashDemand sigmoid state layer capturing preMask topkIds k).layers.get? other = some pool at found
      rw [same] at found
      exact recorded other pool found
  | hook config faults capturing =>
      have layers : (hookDue capturing state).1.layers = state.layers := by
        unfold hookDue
        split
        · rfl
        · dsimp only
          split <;> rfl
      have due : Recorded watched log (hookDue capturing state).1 := fun other pool found =>
        recorded other pool (layers ▸ found)
      simp only [eventTicks, machine, ColdPool.step, afterForwardHook]
      cases goes : (hookDue capturing state).2 with
      | false => exact ⟨trivial, by simpa using due⟩
      | true => exact watch.layers_recorded rule (rule.hookDue_settled capturing ok) (allows goes) due calls
  | stageLists faults candidates => exact absurd calls id
  | phaseB config layer flat => exact absurd calls id

theorem run_recorded (rule : LayerRule settled exposed allowed) {events : List Event} (ok : Settled settled state)
    (allows : (machine sigmoid).Meets (EventAllows allowed sigmoid) state events)
    (calls : ∀ event ∈ events, event.Calls admits) (recorded : Recorded watched log state) :
    Chronicle (Seen admits settled watched) log (ticks sigmoid state events) := by
  induction events generalizing state log with
  | nil => trivial
  | cons event rest ih =>
      obtain ⟨here, next⟩ := watch.event_recorded rule ok allows.1 (calls event (by simp)) recorded
      exact here.append (ih (rule.step_sound sigmoid ok allows.1).final allows.2
        (fun later member => calls later (by simp [member])) next)

end Watch

end FlashNext.ColdPool
