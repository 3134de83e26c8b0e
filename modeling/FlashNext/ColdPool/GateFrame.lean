import FlashNext.ColdPool.Gate
import FlashNext.ColdPool.Runs

namespace FlashNext.ColdPool

open FlashNext.Data

def Module.owner (module : Module) : Option Nat × Option Config := (module.layerId, managedConfig module)

@[simp] theorem Module.owner_writeRow (module : Module) (name : String) (row : Nat) (bytes : Row) :
    (module.writeRow name row bytes).owner = module.owner := by
  unfold Module.writeRow
  split <;> rfl

/-- One layer's view before and after an operation: the same module, and
tables with the same keys. -/
structure Ctx.GateFrame (before after : Ctx) : Prop where
  bias : after.tables.bias.keys = before.tables.bias.keys
  remap : after.tables.remap.keys = before.tables.remap.keys
  home : after.pool.module = before.pool.module
  owner : after.module.owner = before.module.owner

variable {before middle after ctx : Ctx}

theorem Ctx.GateFrame.refl (ctx : Ctx) : ctx.GateFrame ctx := ⟨rfl, rfl, rfl, rfl⟩

theorem Ctx.GateFrame.trans (left : before.GateFrame middle) (right : middle.GateFrame after) :
    before.GateFrame after :=
  ⟨right.bias.trans left.bias, right.remap.trans left.remap, right.home.trans left.home,
    right.owner.trans left.owner⟩

@[simp] theorem keys_bias_mask (tables : Tables) (layer gid : Nat) :
    (mask tables layer gid).bias.keys = tables.bias.keys := Dict.keys_mapValues ..

@[simp] theorem keys_remap_mask (tables : Tables) (layer gid : Nat) :
    (mask tables layer gid).remap.keys = tables.remap.keys := Dict.keys_mapValues ..

@[simp] theorem keys_bias_unmask (tables : Tables) (layer gid row : Nat) :
    (unmask tables layer gid row).bias.keys = tables.bias.keys := Dict.keys_mapValues ..

@[simp] theorem keys_remap_unmask (tables : Tables) (layer gid row : Nat) :
    (unmask tables layer gid row).remap.keys = tables.remap.keys := Dict.keys_mapValues ..

theorem evictRow_gateFrame (row : Nat) (ctx : Ctx) : ctx.GateFrame (evictRow row ctx) := by
  unfold evictRow
  cases ctx.pool.rowGid.get? row with
  | none => exact .refl ctx
  | some old => exact ⟨keys_bias_mask .., keys_remap_mask .., rfl, rfl⟩

theorem pickRow_gateFrame (ctx : Ctx) : ctx.GateFrame (pickRow ctx).1 := by
  unfold pickRow
  cases ctx.pool.freeRows with
  | cons row rest => exact ⟨rfl, rfl, rfl, rfl⟩
  | nil =>
      cases oldestRow ctx.pool with
      | none => exact .refl ctx
      | some victim => exact evictRow_gateFrame victim ctx

theorem copyParams_gateFrame (faults : Faults) (gid row : Nat) (entries : List (String × Row)) (ctx : Ctx) :
    ctx.GateFrame (copyParams faults gid row entries ctx).final := by
  induction entries generalizing ctx with
  | nil => exact .refl ctx
  | cons entry rest ih =>
      obtain ⟨name, pinned⟩ := entry
      simp only [copyParams]
      cases targetRows faults ctx gid row name with
      | none => exact ⟨rfl, rfl, rfl, rfl⟩
      | some _ =>
          have copied : ctx.GateFrame { ctx with module := ctx.module.writeRow name row pinned } :=
            ⟨rfl, rfl, rfl, Module.owner_writeRow ..⟩
          exact copied.trans (ih _)

theorem rowFromHost_gateFrame (faults : Faults) (gid row : Nat) (ctx : Ctx) :
    ctx.GateFrame (rowFromHost faults gid row ctx).final := by
  have copied := copyParams_gateFrame faults gid row (hostEntry faults ctx gid) ctx
  simp only [rowFromHost]
  split
  · exact .refl ctx
  · split
    · exact copied.trans ⟨keys_bias_unmask .., keys_remap_unmask .., rfl, rfl⟩
    · exact copied

theorem returnRow_gateFrame (row : Nat) (ctx : Ctx) : ctx.GateFrame (returnRow row ctx) := by
  unfold returnRow
  split
  · exact ⟨rfl, rfl, rfl, rfl⟩
  · exact .refl ctx

theorem resetNeed_gateFrame (gid : Nat) (ctx : Ctx) : ctx.GateFrame (resetNeed gid ctx) :=
  ⟨rfl, rfl, rfl, rfl⟩

theorem stageOne_gateFrame (faults : Faults) (gid : Nat) {next : Ctx}
    (staged : (stageOne faults gid ctx).2 = some next) : ctx.GateFrame next := by
  have reset := resetNeed_gateFrame gid ctx
  have picked := reset.trans (pickRow_gateFrame (resetNeed gid ctx))
  simp only [stageOne] at staged
  split at staged
  · cases staged
    exact reset
  · cases choice : pickRow (resetNeed gid ctx) with
    | mk chosen row =>
        rw [choice] at picked staged
        cases row with
        | none => contradiction
        | some row =>
            have filled := picked.trans (rowFromHost_gateFrame faults gid row chosen)
            dsimp only at staged
            split at staged
            · cases staged
              exact filled.trans ⟨rfl, rfl, rfl, rfl⟩
            · cases staged
              exact filled.trans (returnRow_gateFrame row _)

theorem stageAll_gateFrame (faults : Faults) (candidates : List Nat) (ctx : Ctx) :
    ctx.GateFrame (stageAll faults candidates ctx).2 := by
  induction candidates generalizing ctx with
  | nil => exact .refl ctx
  | cons gid rest ih =>
      simp only [stageAll]
      cases staged : stageOne faults gid ctx with
      | mk visited next =>
          cases next with
          | none => exact resetNeed_gateFrame gid ctx
          | some next =>
              have here : ctx.GateFrame next := stageOne_gateFrame faults gid (by rw [staged])
              exact here.trans (ih next)

theorem demote_gateFrame (gid : Nat) (ctx : Ctx) : ctx.GateFrame (demote gid ctx) := by
  unfold demote
  cases ctx.tables.remapAt ctx.pool.layerId gid with
  | none => exact .refl ctx
  | some row =>
      dsimp only
      split
      · exact .refl ctx
      · exact ⟨keys_bias_mask .., keys_remap_mask .., rfl, rfl⟩

theorem demoteAll_gateFrame (doomed : List Nat) (ctx : Ctx) :
    ctx.GateFrame (demoteAll doomed ctx).2 := by
  induction doomed generalizing ctx with
  | nil => exact .refl ctx
  | cons gid rest ih => exact (demote_gateFrame gid ctx).trans (ih _)

theorem promote_gateFrame (entry : Nat × Nat) (ctx : Ctx) : ctx.GateFrame (promote entry ctx) := by
  unfold promote
  split
  · exact .refl ctx
  · cases ctx.pool.needCounts with
    | none => exact .refl ctx
    | some need =>
        dsimp only
        split
        · exact ⟨rfl, rfl, rfl, rfl⟩
        · exact .refl ctx

theorem promoteAll_gateFrame (entries : List (Nat × Nat)) (ctx : Ctx) :
    ctx.GateFrame (entries.foldl (fun ctx entry => promote entry ctx) ctx) := by
  induction entries generalizing ctx with
  | nil => exact .refl ctx
  | cons entry rest ih => exact (promote_gateFrame entry ctx).trans (ih _)

theorem phaseB_gateFrame (config : HookConfig) (flat : List Nat) (ctx : Ctx) :
    ctx.GateFrame (phaseB config flat ctx).2 := by
  unfold phaseB
  split
  · exact ⟨rfl, rfl, rfl, rfl⟩
  · have recorded : ctx.GateFrame { ctx with pool := recordSeen ctx.pool flat } := ⟨rfl, rfl, rfl, rfl⟩
    exact (recorded.trans (demoteAll_gateFrame _ _)).trans (promoteAll_gateFrame _ _)

theorem tickLayer_gateFrame (sigmoid : ℚ → ℚ) (config : HookConfig) (faults : Faults) (degrade : Bool)
    (ctx : Ctx) (ballot : Ballot) :
    ctx.GateFrame (tickLayer sigmoid config faults degrade ctx ballot).2 := by
  have voted : ctx.GateFrame { ctx with
      stats := { ctx.stats with strong := ctx.stats.strong + (castVotes sigmoid config ctx.pool ballot).2 }
      pool := { ctx.pool with needCounts := some (castVotes sigmoid config ctx.pool ballot).1 } } :=
    ⟨rfl, rfl, rfl, rfl⟩
  have staged : ctx.GateFrame (voteAndStage sigmoid config faults ctx ballot).2 :=
    voted.trans (stageAll_gateFrame faults _ _)
  unfold tickLayer
  cases degrade with
  | false => exact staged
  | true => exact staged.trans (phaseB_gateFrame config _ _)

/-- The state before and after an event, as the gate sees it. -/
structure State.GateFrame (before after : State) : Prop where
  shrunk : after.shrunk = before.shrunk
  cfgLids : after.cfgLids = before.cfgLids
  cfgRefs : after.cfgRefs = before.cfgRefs
  bias : ∀ key ∈ before.tables.bias.keys, key ∈ after.tables.bias.keys
  remap : ∀ key ∈ before.tables.remap.keys, key ∈ after.tables.remap.keys
  owners : after.modules.map Module.owner = before.modules.map Module.owner

variable {first second third state next : State} {layer : Nat}

theorem State.GateFrame.of_fields (shrunk : next.shrunk = state.shrunk)
    (cfgLids : next.cfgLids = state.cfgLids) (cfgRefs : next.cfgRefs = state.cfgRefs)
    (tables : next.tables = state.tables) (modules : next.modules = state.modules) :
    state.GateFrame next :=
  ⟨shrunk, cfgLids, cfgRefs, fun _ member => tables ▸ member, fun _ member => tables ▸ member,
    congrArg _ modules⟩

theorem State.GateFrame.refl (state : State) : state.GateFrame state := .of_fields rfl rfl rfl rfl rfl

theorem State.GateFrame.trans (left : first.GateFrame second) (right : second.GateFrame third) :
    first.GateFrame third where
  shrunk := right.shrunk.trans left.shrunk
  cfgLids := right.cfgLids.trans left.cfgLids
  cfgRefs := right.cfgRefs.trans left.cfgRefs
  bias := fun key member => right.bias key (left.bias key member)
  remap := fun key member => right.remap key (left.remap key member)
  owners := right.owners.trans left.owners

theorem owners_set {modules : List Module} {index : Nat} {old new : Module}
    (present : modules[index]? = some old) (same : new.owner = old.owner) :
    (modules.set index new).map Module.owner = modules.map Module.owner := by
  have stood : (modules.map Module.owner)[index]? = some new.owner := by
    rw [List.getElem?_map, present, same]
    rfl
  obtain ⟨bound, value⟩ := List.getElem?_eq_some_iff.mp stood
  rw [List.map_set, ← value]
  exact List.set_getElem_self bound

theorem withCtx_gateFrame (view : state.ctx? layer = some before) (frame : before.GateFrame after) :
    state.GateFrame (state.withCtx layer after) := by
  obtain ⟨_, module, tables, _⟩ := State.pool_of_ctx? view
  refine ⟨rfl, rfl, rfl, ?_, ?_, ?_⟩
  · intro key member
    have same : (state.withCtx layer after).tables.bias.keys = state.tables.bias.keys := by
      rw [← tables]
      exact frame.bias
    exact same ▸ member
  · intro key member
    have same : (state.withCtx layer after).tables.remap.keys = state.tables.remap.keys := by
      rw [← tables]
      exact frame.remap
    exact same ▸ member
  · exact owners_set (frame.home ▸ module) frame.owner

theorem hookLayer_gateFrame (sigmoid : ℚ → ℚ) (config : HookConfig) (faults : Faults) (state : State)
    (layer : Nat) : state.GateFrame (hookLayer sigmoid config faults state layer).final := by
  unfold hookLayer
  cases state.stash.get? layer with
  | none => exact .refl state
  | some buffer =>
      cases view : state.ctx? layer with
      | none => exact .refl state
      | some ctx =>
          have ticked : state.GateFrame (state.withCtx layer ctx.tickUp) :=
            withCtx_gateFrame view ⟨rfl, rfl, rfl, rfl⟩
          cases read : readBallot config buffer with
          | none =>
              simp only [read]
              exact ticked
          | some ballot =>
              have consumed : state.GateFrame { state.withCtx layer ctx.tickUp with
                  stash := state.stash.set layer buffer.drained } :=
                ticked.trans (.of_fields rfl rfl rfl rfl rfl)
              simp only [read]
              split
              · have seen : { state.withCtx layer ctx.tickUp with
                    stash := state.stash.set layer buffer.drained }.ctx? layer = some ctx.tickUp :=
                  State.ctx?_withCtx_self view rfl
                exact consumed.trans (withCtx_gateFrame seen (tickLayer_gateFrame ..))
              · exact consumed

theorem hookLayers_gateFrame (sigmoid : ℚ → ℚ) (config : HookConfig) (faults : Faults) (layers : List Nat)
    (state : State) : state.GateFrame (hookLayers sigmoid config faults layers state).final := by
  induction layers generalizing state with
  | nil => exact .refl state
  | cons layer rest ih =>
      have here := hookLayer_gateFrame sigmoid config faults state layer
      simp only [hookLayers]
      split
      · exact here
      · exact here.trans (ih _)

theorem hookDue_gateFrame (capturing : Bool) (state : State) :
    state.GateFrame (hookDue capturing state).1 := by
  unfold hookDue
  split
  · exact .refl state
  · dsimp only
    split <;> exact .of_fields rfl rfl rfl rfl rfl

theorem afterForwardHook_gateFrame (sigmoid : ℚ → ℚ) (config : HookConfig) (faults : Faults)
    (capturing : Bool) (state : State) :
    state.GateFrame (afterForwardHook sigmoid config faults capturing state).2 := by
  have due := hookDue_gateFrame capturing state
  simp only [afterForwardHook]
  split
  · exact due.trans (hookLayers_gateFrame ..)
  · exact due

theorem stageLayers_gateFrame (faults : Faults) (candidates : Nat → List Nat) (layers : List Nat)
    (state : State) : state.GateFrame (stageLayers faults candidates layers state).2 := by
  induction layers generalizing state with
  | nil => exact .refl state
  | cons layer rest ih =>
      have here : state.GateFrame (stageLayer faults candidates state layer).2 := by
        unfold stageLayer
        cases view : state.ctx? layer with
        | none => exact .refl state
        | some ctx =>
            have ticked : ctx.GateFrame ctx.tickUp := ⟨rfl, rfl, rfl, rfl⟩
            exact withCtx_gateFrame view (ticked.trans (stageAll_gateFrame faults _ _))
      exact here.trans (ih _)

theorem phaseBLayer_gateFrame (config : HookConfig) (flat : List Nat) (state : State) (layer : Nat) :
    state.GateFrame (phaseBLayer config flat state layer).2 := by
  unfold phaseBLayer
  cases view : state.ctx? layer with
  | none => exact .refl state
  | some ctx => exact withCtx_gateFrame view (phaseB_gateFrame config flat ctx)

theorem keys_biasColOrNone (keepMask : Option (Dict Nat (List Nat))) (tables : Tables) (capturing : Bool)
    (layer width : Nat) (dtype : DType) :
    (∀ key ∈ tables.bias.keys, key ∈ (biasColOrNone keepMask tables capturing layer width dtype).1.bias.keys) ∧
      (biasColOrNone keepMask tables capturing layer width dtype).1.remap.keys = tables.remap.keys := by
  unfold biasColOrNone
  cases keepMask.bind (·.get? layer) with
  | none => exact ⟨fun _ member => member, rfl⟩
  | some keep =>
      dsimp only
      split
      · exact ⟨fun _ member => member, rfl⟩
      · cases tables.bias.get? (layer, dtype) with
        | some column => exact ⟨fun _ member => member, rfl⟩
        | none =>
            dsimp only
            split
            · exact ⟨fun _ member => member, rfl⟩
            · exact ⟨fun key member => Dict.mem_keys_set.mpr (Or.inr member), rfl⟩

theorem applyKeepMask_gateFrame (state : State) (layer : Option Nat) (capturing : Bool) (dtype : DType)
    (logits : Grid ℚ) : state.GateFrame (applyKeepMask state layer capturing dtype logits).1 := by
  cases layer with
  | none => exact .refl state
  | some layer =>
      -- a lookup adds at most one column
      have added : state.GateFrame { state with tables :=
          (biasColOrNone state.keepMask state.tables capturing layer logits.width dtype).1 } :=
        ⟨rfl, rfl, rfl, (keys_biasColOrNone ..).1, fun _ member => by
          rw [(keys_biasColOrNone ..).2]
          exact member, rfl⟩
      simp only [applyKeepMask]
      split
      · exact .refl state
      · cases column : biasColOrNone state.keepMask state.tables capturing layer logits.width dtype with
        | mk tables column? =>
            rw [column] at added
            cases column? with
            | none => exact added
            | some column => exact added

theorem step_gateFrame (sigmoid : ℚ → ℚ) (state : State) (event : Event) :
    state.GateFrame (step sigmoid state event).2 := by
  cases event with
  | forward layer capturing dtype logits => exact applyKeepMask_gateFrame ..
  | stash layer capturing preMask topkIds k =>
      obtain ⟨stash, dirty, same⟩ := stashDemand_eq sigmoid state layer capturing preMask topkIds k
      simp only [step, same]
      exact .of_fields rfl rfl rfl rfl rfl
  | hook config faults capturing => exact afterForwardHook_gateFrame ..
  | stageLists faults candidates => exact stageLayers_gateFrame ..
  | phaseB config layer flat => exact phaseBLayer_gateFrame ..

end FlashNext.ColdPool
