import FlashNext.ColdPool.HookInvariant
import FlashNext.ColdPool.Layers

namespace FlashNext.ColdPool

open FlashNext.Data

/-- What happens to the pool once the model is loaded.  `stageLists` is a tick
whose candidate lists are arbitrary lists of cold ids, and `phaseB` a demotion
pass on its own. -/
inductive Event where
  | forward (layer : Option Nat) (capturing : Bool) (dtype : DType) (logits : Grid ℚ)
  | stash (layer : Option Nat) (capturing : Bool) (preMask : Grid ℚ) (topkIds : Grid Int) (k : Nat)
  | hook (config : HookConfig) (faults : Faults) (capturing : Bool)
  | stageLists (faults : Faults) (candidates : Nat → List Nat)
  | phaseB (config : HookConfig) (layer : Nat) (flat : List Nat)

def stageListed (faults : Faults) (candidates : List Nat) (ctx : Ctx) : List Ctx × Ctx :=
  stageAll faults (candidates.filter (· ∈ ctx.pool.coldIdsGpu)) ctx.tickUp

def stageLayer (faults : Faults) (candidates : Nat → List Nat) (state : State) (layer : Nat) :
    List State × State :=
  match state.ctx? layer with
  | none => ([], state)
  | some ctx =>
      let (visited, final) := stageListed faults (candidates layer) ctx
      (visited.map (state.withCtx layer), state.withCtx layer final)

def stageLayers (faults : Faults) (candidates : Nat → List Nat) : List Nat → State → List State × State
  | [], state => ([], state)
  | layer :: rest, state =>
      let here := stageLayer faults candidates state layer
      let later := stageLayers faults candidates rest here.2
      (here.1 ++ here.2 :: later.1, later.2)

def phaseBLayer (config : HookConfig) (flat : List Nat) (state : State) (layer : Nat) : List State × State :=
  match state.ctx? layer with
  | none => ([], state)
  | some ctx =>
      let (visited, final) := phaseB config flat ctx
      (visited.map (state.withCtx layer), state.withCtx layer final)

def step (sigmoid : ℚ → ℚ) (state : State) : Event → List State × State
  | .forward layer capturing dtype logits =>
      ([], (applyKeepMask state layer capturing dtype logits).1)
  | .stash layer capturing preMask topkIds k =>
      ([], stashDemand sigmoid state layer capturing preMask topkIds k)
  | .hook config faults capturing => afterForwardHook sigmoid config faults capturing state
  | .stageLists faults candidates => stageLayers faults candidates state.layers.keys state
  | .phaseB config layer flat => phaseBLayer config flat state layer

/-- The pool as a machine; `sigmoid` is the one the scores are taken with. -/
def machine (sigmoid : ℚ → ℚ) : Machine State Event := ⟨step sigmoid⟩

/-- The demotion pass of one layer's tick, if there is one, starts in an
allowed state. -/
def LayerAllows (allowed : HookConfig → List Nat → Ctx → Prop) (sigmoid : ℚ → ℚ) (config : HookConfig)
    (faults : Faults) (state : State) (layer : Nat) : Prop :=
  ∀ buffer ∈ state.stash.get? layer, ∀ ctx ∈ state.ctx? layer, ∀ ballot ∈ readBallot config buffer,
    ballot.Fits ctx.pool.experts ∧ degradeEnabled config state = true →
      allowed config ballot.flat.flatten (voteAndStage sigmoid config faults ctx.tickUp ballot).2

def HookAllows (allowed : HookConfig → List Nat → Ctx → Prop) (sigmoid : ℚ → ℚ) (config : HookConfig)
    (faults : Faults) : List Nat → State → Prop
  | [], _ => True
  | layer :: rest, state =>
      LayerAllows allowed sigmoid config faults state layer ∧
        ((hookLayer sigmoid config faults state layer).raised = false →
          HookAllows allowed sigmoid config faults rest (hookLayer sigmoid config faults state layer).final)

def EventAllows (allowed : HookConfig → List Nat → Ctx → Prop) (sigmoid : ℚ → ℚ) (state : State) :
    Event → Prop
  | .hook config faults capturing =>
      (hookDue capturing state).2 = true →
        HookAllows allowed sigmoid config faults state.layers.keys (hookDue capturing state).1
  | .phaseB config layer flat => ∀ ctx ∈ state.ctx? layer, allowed config flat ctx
  | _ => True

section Decidable

variable (allowed : HookConfig → List Nat → Ctx → Prop)
  [∀ config flat ctx, Decidable (allowed config flat ctx)] (sigmoid : ℚ → ℚ)

instance decidableLayerAllows (config : HookConfig) (faults : Faults) (state : State) (layer : Nat) :
    Decidable (LayerAllows allowed sigmoid config faults state layer) :=
  inferInstanceAs (Decidable (∀ buffer ∈ state.stash.get? layer, ∀ ctx ∈ state.ctx? layer,
    ∀ ballot ∈ readBallot config buffer, _ ∧ _ → _))

instance decidableHookAllows (config : HookConfig) (faults : Faults) :
    (layers : List Nat) → (state : State) →
      Decidable (HookAllows allowed sigmoid config faults layers state)
  | [], _ => isTrue trivial
  | layer :: rest, state =>
      have := decidableHookAllows config faults rest (hookLayer sigmoid config faults state layer).final
      inferInstanceAs (Decidable (_ ∧ (_ → _)))

instance decidableEventAllows (state : State) :
    (event : Event) → Decidable (EventAllows allowed sigmoid state event)
  | .hook _ _ _ => inferInstanceAs (Decidable (_ → _))
  | .phaseB _ layer _ => inferInstanceAs (Decidable (∀ ctx ∈ state.ctx? layer, _))
  | .forward _ _ _ _ => isTrue trivial
  | .stash _ _ _ _ _ => isTrue trivial
  | .stageLists _ _ => isTrue trivial

end Decidable

/-- An operation of one layer, started in `ctx`, keeps a layer property:
`settled` holds again when it ends and `exposed` while it is under way. -/
structure Sound (settled exposed : Ctx → Prop) (ctx : Ctx) (result : List Ctx × Ctx) : Prop where
  visited : ∀ seen ∈ result.1, exposed seen ∧ ctx.Frame seen
  final : settled result.2
  frame : ctx.Frame result.2
  net : result.2.net = ctx.net

/-- A layer property that survives every operation; `allowed` is what a
demotion pass needs of the state it starts in. -/
structure LayerRule (settled exposed : Ctx → Prop) (allowed : HookConfig → List Nat → Ctx → Prop) :
    Prop where
  weaken : ∀ ctx, settled ctx → exposed ctx
  shared : ∀ ctx tables stats, Tables.Same ctx.pool.layerId ctx.tables tables → settled ctx →
    settled { ctx with tables := tables, stats := stats }
  counted : ∀ (ctx : Ctx) stats tick need, settled ctx →
    settled { ctx with stats := stats, pool := { ctx.pool with tick := tick, needCounts := need } }
  columns : ∀ ctx, settled ctx → ∀ dtype ∈ buildDtypes,
    ctx.tables.bias.get? (ctx.pool.layerId, dtype) ≠ none
  staging : ∀ faults candidates ctx, (∀ gid ∈ candidates, gid ∈ ctx.pool.coldIdsGpu) → settled ctx →
    Sound settled exposed ctx (stageAll faults candidates ctx)
  demotion : ∀ config flat ctx, allowed config flat ctx → settled ctx →
    Sound settled exposed ctx (phaseB config flat ctx)

structure Layerwise (holds : Ctx → Prop) (state : State) : Prop where
  wired : Wired state
  armed : ∀ layer pool, state.layers.get? layer = some pool → state.shrunk = true
  layers : ∀ layer ctx, state.ctx? layer = some ctx → holds ctx

/-- A state between two operations: the property holds and the counters are in
step with the resident experts. -/
structure Settled (settled : Ctx → Prop) (state : State) : Prop extends Layerwise settled state where
  balanced : state.net = 0

/-- What a step of the machine owes: a settled end and an exposed way there. -/
structure StepSound (settled exposed : Ctx → Prop) (result : List State × State) : Prop where
  visited : ∀ seen ∈ result.1, Layerwise exposed seen
  final : Settled settled result.2

variable {settled exposed : Ctx → Prop} {allowed : HookConfig → List Nat → Ctx → Prop}
  {state : State} {layer : Nat} {ctx before after : Ctx}

theorem Sound.since {result : List Ctx × Ctx} (later : Sound settled exposed after result)
    (frame : before.Frame after) (net : after.net = before.net) : Sound settled exposed before result where
  visited := fun seen member => ⟨(later.visited seen member).1, frame.trans (later.visited seen member).2⟩
  final := later.final
  frame := frame.trans later.frame
  net := later.net.trans net

theorem StepSound.stay (ok : Settled settled state) : StepSound settled exposed ([], state) :=
  ⟨by simp, ok⟩

theorem StepSound.append {first second : List State × State} (here : StepSound settled exposed first)
    (weaken : ∀ ctx, settled ctx → exposed ctx) (later : StepSound settled exposed second) :
    StepSound settled exposed (first.1 ++ first.2 :: second.1, second.2) := by
  refine ⟨?_, later.final⟩
  intro seen member
  rcases List.mem_append.mp member with inside | rest
  · exact here.visited seen inside
  · rcases List.mem_cons.mp rest with rfl | rest
    · exact ⟨here.final.wired, here.final.armed, fun layer ctx view =>
        weaken ctx (here.final.layers layer ctx view)⟩
    · exact later.visited seen rest

namespace LayerRule

variable (rule : LayerRule settled exposed allowed)
include rule

theorem writeBack {target : Ctx → Prop} (others : ∀ ctx, settled ctx → target ctx)
    (ok : Layerwise settled state) (view : state.ctx? layer = some before) (holds : target after)
    (frame : before.Frame after) : Layerwise target (state.withCtx layer after) := by
  obtain ⟨found, _, tables, _⟩ := State.pool_of_ctx? view
  have layerId := ok.wired.layerId layer before.pool found
  refine ⟨ok.wired.withCtx view frame.frozen, ?_, ?_⟩
  · intro _ _ _
    exact ok.armed layer before.pool found
  · intro other seen otherView
    by_cases same : other = layer
    · subst same
      rw [State.ctx?_withCtx_self view (Pool.module_of_frozen frame.frozen)] at otherView
      cases otherView
      exact holds
    · rw [ok.wired.ctx?_withCtx_other view frame.frozen same] at otherView
      obtain ⟨old, stood, rfl⟩ := Option.map_eq_some_iff.mp otherView
      obtain ⟨oldFound, _, oldTables, _⟩ := State.pool_of_ctx? stood
      have oldId := ok.wired.layerId other old.pool oldFound
      have elsewhere := frame.elsewhere old.pool.layerId (by rw [oldId, layerId]; exact same)
      exact others _ (rule.shared old after.tables after.stats
        (by rw [oldTables, ← tables]; exact elsewhere) (ok.layers other old stood))

theorem settle (ok : Settled settled state) (view : state.ctx? layer = some before)
    (holds : settled after) (frame : before.Frame after) (net : after.net = before.net) :
    Settled settled (state.withCtx layer after) :=
  ⟨rule.writeBack (fun _ holds => holds) ok.toLayerwise view holds frame,
    (State.net_withCtx view net).trans ok.balanced⟩

theorem lift {result : List Ctx × Ctx} (ok : Settled settled state) (view : state.ctx? layer = some ctx)
    (sound : Sound settled exposed ctx result) :
    StepSound settled exposed (result.1.map (state.withCtx layer), state.withCtx layer result.2) := by
  refine ⟨?_, rule.settle ok view sound.final sound.frame sound.net⟩
  intro seen member
  obtain ⟨inside, visited, rfl⟩ := List.mem_map.mp member
  obtain ⟨holds, frame⟩ := sound.visited inside visited
  exact rule.writeBack rule.weaken ok.toLayerwise view holds frame

theorem outside {next : State} (ok : Settled settled state) (layers : next.layers = state.layers)
    (modules : next.modules = state.modules) (armed : next.shrunk = state.shrunk)
    (staged : next.stats.staged = state.stats.staged) (evicted : next.stats.evicted = state.stats.evicted)
    (tables : ∀ layer ctx, state.ctx? layer = some ctx → Tables.Same layer state.tables next.tables) :
    Settled settled next := by
  have pools : ∀ {target pool}, next.layers.get? target = some pool →
      state.layers.get? target = some pool := fun found => layers ▸ found
  refine ⟨⟨⟨?_, ?_, ?_⟩, ?_, ?_⟩, ?_⟩
  · exact fun target pool found => ok.wired.layerId target pool (pools found)
  · exact fun target pool found => modules ▸ ok.wired.module target pool (pools found)
  · exact fun left right leftPool rightPool leftFound rightFound =>
      ok.wired.apart left right leftPool rightPool (pools leftFound) (pools rightFound)
  · exact fun target pool found => armed ▸ ok.armed target pool (pools found)
  · intro target seen view
    obtain ⟨found, module, seenTables, seenStats⟩ := State.pool_of_ctx? view
    obtain ⟨old, stood, samePool⟩ := ok.wired.ctx?_isSome (pools found)
    obtain ⟨_, oldModule, oldTables, _⟩ := State.pool_of_ctx? stood
    have sameModule : old.module = seen.module := by
      rw [samePool, ← modules, module, Option.some.injEq] at oldModule
      exact oldModule.symm
    have layerId := ok.wired.layerId target old.pool (samePool ▸ pools found)
    have moved := rule.shared old next.tables next.stats
      (by rw [layerId, oldTables]; exact tables target old stood) (ok.layers target old stood)
    obtain ⟨seenTables, seenStats, seenPool, seenModule⟩ := seen
    subst_vars
    exact moved
  · have net : next.net = state.net := by
      rw [State.net, State.net, State.residents, State.residents, layers, staged, evicted]
    exact net.trans ok.balanced

theorem tick (ok : settled ctx) : settled ctx.tickUp :=
  rule.counted ctx ctx.stats (ctx.pool.tick + 1) ctx.pool.needCounts ok

theorem stageListed_sound (faults : Faults) (candidates : List Nat) (ok : settled ctx) :
    Sound settled exposed ctx (stageListed faults candidates ctx) := by
  have staged := rule.staging faults (candidates.filter (· ∈ ctx.pool.coldIdsGpu)) ctx.tickUp
    (fun gid member => of_decide_eq_true (List.mem_filter.mp member).2) (rule.tick ok)
  exact staged.since (.of_tables rfl rfl) rfl

theorem voteAndStage_sound (sigmoid : ℚ → ℚ) (config : HookConfig) (faults : Faults) (ballot : Ballot)
    (ok : settled ctx) : Sound settled exposed ctx (voteAndStage sigmoid config faults ctx ballot) := by
  have listed : ∀ (pool : Pool), ∀ gid ∈ candidates config pool, gid ∈ pool.coldIdsGpu := by
    intro pool gid member
    have sorted := List.mem_of_mem_take member
    exact (List.mem_filter.mp ((config.argsort.mem_rank).mp sorted)).1
  have voted := rule.counted ctx
    { ctx.stats with strong := ctx.stats.strong + (castVotes sigmoid config ctx.pool ballot).2 }
    ctx.pool.tick (some (castVotes sigmoid config ctx.pool ballot).1) ok
  exact (rule.staging faults _ _ (listed _) voted).since (.of_tables rfl rfl) rfl

theorem tickLayer_sound (sigmoid : ℚ → ℚ) (config : HookConfig) (faults : Faults) (degrade : Bool)
    (ballot : Ballot) (ok : settled ctx)
    (allows : degrade = true → allowed config ballot.flat.flatten
      (voteAndStage sigmoid config faults ctx ballot).2) :
    Sound settled exposed ctx (tickLayer sigmoid config faults degrade ctx ballot) := by
  have staged := rule.voteAndStage_sound sigmoid config faults ballot ok
  unfold tickLayer
  cases degrade with
  | false => exact staged
  | true =>
      have demoted := (rule.demotion config ballot.flat.flatten _ (allows rfl) staged.final).since
        staged.frame staged.net
      refine ⟨?_, demoted.final, demoted.frame, demoted.net⟩
      intro seen member
      rcases List.mem_append.mp member with inside | rest
      · exact staged.visited seen inside
      · rcases List.mem_cons.mp rest with rfl | rest
        · exact ⟨rule.weaken _ staged.final, staged.frame⟩
        · exact demoted.visited seen rest

theorem hookLayer_sound (sigmoid : ℚ → ℚ) (config : HookConfig) (faults : Faults)
    (ok : Settled settled state) (allows : LayerAllows allowed sigmoid config faults state layer) :
    StepSound settled exposed ((hookLayer sigmoid config faults state layer).visited,
      (hookLayer sigmoid config faults state layer).final) := by
  unfold hookLayer
  cases buffered : state.stash.get? layer with
  | none => exact .stay ok
  | some buffer =>
      cases view : state.ctx? layer with
      | none => exact .stay ok
      | some ctx =>
          have frame : ctx.Frame ctx.tickUp := .of_tables rfl rfl
          have ticked := rule.settle ok view (rule.tick (ok.layers layer ctx view)) frame rfl
          cases read : readBallot config buffer with
          | none =>
              simp only [read]
              exact .stay ticked
          | some ballot =>
              have consumed : Settled settled { state.withCtx layer ctx.tickUp with
                  stash := state.stash.set layer buffer.drained } :=
                rule.outside ticked rfl rfl rfl rfl rfl fun _ _ _ => Tables.Same.refl _ _
              by_cases fits : ballot.Fits ctx.pool.experts
              · have sound := rule.tickLayer_sound sigmoid config faults (degradeEnabled config state)
                  ballot (rule.tick (ok.layers layer ctx view))
                  (fun enabled => allows buffer buffered ctx view ballot read ⟨fits, enabled⟩)
                have seen := State.ctx?_withCtx_self view (Pool.module_of_frozen frame.frozen)
                simp only [read, if_pos fits]
                exact rule.lift consumed seen sound
              · simp only [read, if_neg fits]
                exact .stay consumed

theorem hookLayers_sound (sigmoid : ℚ → ℚ) (config : HookConfig) (faults : Faults) {layers : List Nat}
    (ok : Settled settled state) (allows : HookAllows allowed sigmoid config faults layers state) :
    StepSound settled exposed ((hookLayers sigmoid config faults layers state).visited,
      (hookLayers sigmoid config faults layers state).final) := by
  induction layers generalizing state with
  | nil => exact .stay ok
  | cons layer rest ih =>
      have here := rule.hookLayer_sound sigmoid config faults ok allows.1
      simp only [hookLayers]
      cases raised : (hookLayer sigmoid config faults state layer).raised with
      | true => simpa [raised] using here
      | false => simpa [raised] using here.append rule.weaken (ih here.final (allows.2 raised))

theorem hookDue_settled (capturing : Bool) (ok : Settled settled state) :
    Settled settled (hookDue capturing state).1 := by
  have same : ∀ layer ctx, state.ctx? layer = some ctx → Tables.Same layer state.tables state.tables :=
    fun layer _ _ => Tables.Same.refl layer _
  unfold hookDue
  split
  · exact ok
  · dsimp only
    split
    · exact rule.outside ok rfl rfl rfl rfl rfl same
    · exact rule.outside ok rfl rfl rfl rfl rfl same

theorem afterForwardHook_sound (sigmoid : ℚ → ℚ) (config : HookConfig) (faults : Faults)
    (capturing : Bool) (ok : Settled settled state)
    (allows : EventAllows allowed sigmoid state (.hook config faults capturing)) :
    StepSound settled exposed (afterForwardHook sigmoid config faults capturing state) := by
  have due := rule.hookDue_settled capturing ok
  simp only [afterForwardHook]
  cases goes : (hookDue capturing state).2 with
  | false => exact .stay due
  | true => exact rule.hookLayers_sound sigmoid config faults due (allows goes)

theorem stageLayer_sound (faults : Faults) (candidates : Nat → List Nat) (ok : Settled settled state)
    (layer : Nat) : StepSound settled exposed (stageLayer faults candidates state layer) := by
  unfold stageLayer
  cases view : state.ctx? layer with
  | none => exact .stay ok
  | some ctx =>
      exact rule.lift ok view
        (rule.stageListed_sound faults (candidates layer) (ok.layers layer ctx view))

theorem stageLayers_sound (faults : Faults) (candidates : Nat → List Nat) {layers : List Nat}
    (ok : Settled settled state) :
    StepSound settled exposed (stageLayers faults candidates layers state) := by
  induction layers generalizing state with
  | nil => exact .stay ok
  | cons layer rest ih =>
      have here := rule.stageLayer_sound faults candidates ok layer
      exact here.append rule.weaken (ih here.final)

theorem phaseBLayer_sound (sigmoid : ℚ → ℚ) (config : HookConfig) (flat : List Nat) (ok : Settled settled state)
    (allows : EventAllows allowed sigmoid state (.phaseB config layer flat)) :
    StepSound settled exposed (phaseBLayer config flat state layer) := by
  unfold phaseBLayer
  cases view : state.ctx? layer with
  | none => exact .stay ok
  | some ctx =>
      exact rule.lift ok view
        (rule.demotion config flat ctx (allows ctx view) (ok.layers layer ctx view))

theorem applyKeepMask_settled (layer : Option Nat) (capturing : Bool) (dtype : DType) (logits : Grid ℚ)
    (ok : Settled settled state) : Settled settled (applyKeepMask state layer capturing dtype logits).1 := by
  cases layer with
  | none => exact ok
  | some layer =>
      have same : ∀ managed ctx, state.ctx? managed = some ctx → Tables.Same managed state.tables
          (biasColOrNone state.keepMask state.tables capturing layer logits.width dtype).1 := by
        intro managed ctx view
        obtain ⟨found, _, tables, _⟩ := State.pool_of_ctx? view
        have layerId := ok.wired.layerId managed ctx.pool found
        refine Tables.same_biasColOrNone _ _ _ _ _ _ ?_
        rw [← tables, ← layerId]
        exact rule.columns ctx (ok.layers managed ctx view)
      have moved : Settled settled { state with tables :=
          (biasColOrNone state.keepMask state.tables capturing layer logits.width dtype).1 } :=
        rule.outside ok rfl rfl rfl rfl rfl same
      simp only [applyKeepMask]
      split
      · exact ok
      · cases column : biasColOrNone state.keepMask state.tables capturing layer logits.width dtype with
        | mk tables column? =>
            rw [column] at moved
            cases column? with
            | none => exact moved
            | some column => exact moved

theorem stashDemand_settled (sigmoid : ℚ → ℚ) (layer : Option Nat) (capturing : Bool)
    (preMask : Grid ℚ) (topkIds : Grid Int) (k : Nat) (ok : Settled settled state) :
    Settled settled (stashDemand sigmoid state layer capturing preMask topkIds k) := by
  obtain ⟨stash, dirty, same⟩ := stashDemand_eq sigmoid state layer capturing preMask topkIds k
  rw [same]
  exact rule.outside ok rfl rfl rfl rfl rfl fun _ _ _ => Tables.Same.refl _ _

theorem step_sound (sigmoid : ℚ → ℚ) {event : Event} (ok : Settled settled state)
    (allows : EventAllows allowed sigmoid state event) :
    StepSound settled exposed ((machine sigmoid).step state event) := by
  cases event with
  | forward layer capturing dtype logits =>
      exact .stay (rule.applyKeepMask_settled layer capturing dtype logits ok)
  | stash layer capturing preMask topkIds k =>
      exact .stay (rule.stashDemand_settled sigmoid layer capturing preMask topkIds k ok)
  | hook config faults capturing => exact rule.afterForwardHook_sound sigmoid config faults capturing ok allows
  | stageLists faults candidates => exact rule.stageLayers_sound faults candidates ok
  | phaseB config layer flat => exact rule.phaseBLayer_sound sigmoid config flat ok allows

theorem exposed_of_settled (ok : Settled settled state) : Layerwise exposed state :=
  ⟨ok.wired, ok.armed, fun layer ctx view => rule.weaken ctx (ok.layers layer ctx view)⟩

theorem run_exposed (sigmoid : ℚ → ℚ) {events : List Event} (ok : Settled settled state)
    (allows : (machine sigmoid).Meets (EventAllows allowed sigmoid) state events) :
    ∀ seen ∈ (machine sigmoid).visited state events, Layerwise exposed seen :=
  Machine.visited_safe (fun _ _ ok allows => (rule.step_sound sigmoid ok allows).final)
    (fun _ _ ok allows => (rule.step_sound sigmoid ok allows).visited)
    (fun _ ok => rule.exposed_of_settled ok) ok allows

theorem run_settled (sigmoid : ℚ → ℚ) {events : List Event} (ok : Settled settled state)
    (allows : (machine sigmoid).Meets (EventAllows allowed sigmoid) state events) :
    ∀ seen ∈ (machine sigmoid).settled state events, Settled settled seen :=
  Machine.settled_invariant (fun _ _ ok allows => (rule.step_sound sigmoid ok allows).final) ok allows

end LayerRule

end FlashNext.ColdPool
