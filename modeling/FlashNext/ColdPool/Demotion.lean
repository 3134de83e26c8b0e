import FlashNext.ColdPool.RoutingSafety

namespace FlashNext.ColdPool

open FlashNext.Data

/-- What demotion promises for one layer: host copies are the expert's bytes,
no row of a routable expert was marked as the next victim, and routable
experts are served their own bytes. -/
structure LayerDemotion (original : Module) (state : State) (pool : Pool) (module : Module) : Prop where
  hosted : ∀ gid rows, pool.host.get? gid = some rows →
    HostCopy original (expertNames original pool.experts) gid rows.entries
  spared : ∀ gid row, state.tables.biasAt pool.layerId .bfloat16 gid = some 0 →
    state.tables.remapAt pool.layerId gid = some row → pool.rowTick.get? row ≠ some neverSeen
  served : ∀ gid < pool.experts, ∀ dtype ∈ buildDtypes,
    state.tables.biasAt pool.layerId dtype gid = some 0 →
      ∃ row, state.tables.remapAt pool.layerId gid = some row ∧ RowOf original pool module gid row

def DemotionSafe (model : LoadedModel) (state : State) : Prop :=
  ∀ layer pool, state.layers.get? layer = some pool → pool.layerId = layer ∧
    ∃ original module, model.modules[pool.module]? = some original ∧
      state.modules[pool.module]? = some module ∧ LayerDemotion original state pool module

variable {model : LoadedModel} {original : Module} {state : State} {ctx : Ctx}

theorem demotionSafe_of_routed (ok : Layerwise (Routed model) state) : DemotionSafe model state := by
  intro layer pool found
  obtain ⟨ctx, view, rfl⟩ := ok.wired.ctx?_isSome found
  obtain ⟨_, present, tables, _⟩ := State.pool_of_ctx? view
  obtain ⟨original, source, inv⟩ := ok.layers layer ctx view
  refine ⟨ok.wired.layerId layer ctx.pool found, original, ctx.module, source, present,
    ⟨inv.hostCopy, ?_, ?_⟩⟩
  · intro gid row routable mapped
    rw [← tables] at routable mapped
    exact inv.live gid row (placement_eq_some.mpr ⟨routable, mapped⟩)
  · intro gid bound dtype built entry
    rw [← tables] at entry
    obtain ⟨row, placed⟩ := placed_of_entry inv bound built entry
    exact ⟨row, tables ▸ (placement_eq_some.mp placed).2, rowOf_of_placed inv placed⟩

/-- Demotion is safe along every run whose passes only demote experts that are
still routable. -/
theorem demotion_safe (sigmoid : ℚ → ℚ) (model : LoadedModel) (env : ShrinkEnv) (state : State)
    (completed : maybeShrinkAfterProcess env (State.fresh model.modules) = .done state)
    (events : List Event)
    (meets : (machine sigmoid).Meets (EventAllows Demotable sigmoid) state events) :
    ∀ seen ∈ (machine sigmoid).visited state events, DemotionSafe model seen := by
  have start : Settled (Routed model) state :=
    (maybeShrink_loaded completed).settled fun ctx original source shrunk => ⟨original, source, shrunk.inv⟩
  intro seen member
  exact demotionSafe_of_routed ((routingRule model).run_exposed sigmoid start meets seen member)

def starvedModule : Module where
  isFusedMoE := true
  layerId := some 0
  attrs := ⟨[("w13_weight", ⟨.parameter, 0⟩), ("w13_weight_scale", ⟨.parameter, 1⟩)], by decide⟩
  store := [.batch .uint8 [1] [[10], [11], [12], [13], [14]],
    .batch .float8_e4m3fn [1] [[20], [21], [22], [23], [24]]]
  device := 0
  numLocalExperts := 5
  topk := none
  ownerTopk := some ⟨0, 64⟩

def starvedModel : LoadedModel where
  modules := [starvedModule]
  sized := by
    intro module member
    rw [List.mem_singleton] at member
    subst member
    simp [Module.Sized, starvedModule, Tensor.Sized, ElemType.elementSize]

def starvedEnv : ShrinkEnv where
  offloadRequested := true
  keepMask := some ⟨[(0, [0, 1])], by decide⟩
  coldSlots := 1
  uninit := fun _ _ _ => 0

def starvedConfig : HookConfig where
  strongAlpha := 4 / 5
  needHits := 2
  maxStage := 4
  emaDecay := 3 / 4
  topK := 1
  coldSlots := 1
  degrade := true
  degradeWindow := 2048
  argsort := .stable

/-- A forward pass of four tokens that all pick expert 0 from equal logits,
and the eight hook calls up to the next tick. -/
def starvedTick : List Event :=
  .stash (some 0) false ⟨5, List.replicate 4 (List.replicate 5 0), by simp⟩
      ⟨1, List.replicate 4 [0], by simp⟩ 1 ::
    List.replicate 8 (.hook starvedConfig .none false)

def starvedState : State :=
  match maybeShrinkAfterProcess starvedEnv (State.fresh starvedModel.modules) with
  | .done state => state
  | .raised _ state => state

theorem starvedState_completed :
    maybeShrinkAfterProcess starvedEnv (State.fresh starvedModel.modules) = .done starvedState := rfl

/-- One tick, which demotes expert 1 for the first time. -/
theorem demotion_safe_oneTick :
    ((machine fun _ => 1 / 2).run starvedState starvedTick).stats.demoted = 1 ∧
      DemotionSafe starvedModel ((machine fun _ => 1 / 2).run starvedState starvedTick) :=
  ⟨by decide +kernel, demotion_safe (fun _ => 1 / 2) starvedModel starvedEnv starvedState
    starvedState_completed starvedTick (by decide +kernel) _ (Machine.run_mem_visited _ _ _)⟩

def starvedRun : State :=
  (machine fun _ => 1 / 2).run starvedState (starvedTick ++ starvedTick ++ starvedTick)

/-- Expert 1 is demoted again in the second tick and takes row 0 with it; in
the third tick expert 4 is staged there, and expert 0 is still routed to it. -/
theorem demotion_unsafe : ¬ ∀ (sigmoid : ℚ → ℚ) (model : LoadedModel) (env : ShrinkEnv) (state : State),
    maybeShrinkAfterProcess env (State.fresh model.modules) = .done state →
      ∀ events : List Event, ∀ seen ∈ (machine sigmoid).visited state events, DemotionSafe model seen := by
  intro claimed
  have safe : DemotionSafe starvedModel starvedRun :=
    claimed (fun _ => 1 / 2) starvedModel starvedEnv starvedState starvedState_completed
      (starvedTick ++ starvedTick ++ starvedTick) starvedRun (Machine.run_mem_visited _ _ _)
  have placed : (starvedRun.layers.get? 0).map (fun pool => (pool.module, pool.layerId, pool.experts)) =
      some (0, 0, 5) := by decide +kernel
  obtain ⟨pool, found, shape⟩ := Option.map_eq_some_iff.mp placed
  simp only [Prod.mk.injEq] at shape
  obtain ⟨index, layerId, experts⟩ := shape
  obtain ⟨_, original, module, source, present, promise⟩ := safe 0 pool found
  rw [index] at source present
  have routable : starvedRun.tables.biasAt 0 .bfloat16 0 = some 0 := by decide +kernel
  obtain ⟨row, mapped, rowOf⟩ := promise.served 0 (by omega) .bfloat16 (by simp [buildDtypes])
    (by rw [layerId]; exact routable)
  rw [layerId] at mapped
  have first : starvedRun.tables.remapAt 0 0 = some 0 := by decide +kernel
  obtain rfl : 0 = row := Option.some.inj (first.symm.trans mapped)
  obtain rfl : starvedModule = original := Option.some.inj source
  obtain ⟨bytes, before, after⟩ := rowOf.bytes "w13_weight"
    ⟨"w13_weight", by rw [experts]; decide +kernel, rfl⟩
  have held : (starvedRun.modules[0]?).bind (·.rowAt "w13_weight" 0) = some [14] := by decide +kernel
  rw [present, Option.bind_some] at held
  have kept : starvedModule.rowAt "w13_weight" 0 = some [10] := by decide +kernel
  have same : ([10] : Row) = [14] :=
    Option.some.inj (kept.symm.trans (before.trans (after.symm.trans held)))
  exact absurd same (by decide)

/-- An expert the router may pick, with a row inside the shrunk tensors. -/
def Routes (state : State) (pool : Pool) (gid : Nat) : Prop :=
  state.tables.biasAt pool.layerId .bfloat16 gid = some 0 ∧
    ∃ row, state.tables.remapAt pool.layerId gid = some row ∧ row < pool.keepLen + pool.slots

/-- An expert that can be brought back: it has host rows, and both tensors the
demand probe and the staging loop draw candidates from know it. -/
def Stageable (pool : Pool) (gid : Nat) : Prop :=
  (∃ rows, pool.host.get? gid = some rows ∧ rows.entries ≠ []) ∧
    gid ∈ pool.coldIdsGpu ∧ pool.coldMaskGpu[gid]? = some true

/-- Every expert of every layer is routable or stageable. -/
def NoneLost (state : State) : Prop :=
  ∀ layer pool, state.layers.get? layer = some pool →
    ∀ gid < pool.experts, Routes state pool gid ∨ Stageable pool gid

def Whole (ctx : Ctx) : Prop := ∀ gid ∈ ctx.pool.keep, ctx.tables.Routable ctx.pool.layerId gid

/-- A pass that finds no starved keep expert. -/
def NoneStarved (config : HookConfig) (flat : List Nat) (ctx : Ctx) : Prop :=
  demotionList config flat ctx.pool = []

instance (config : HookConfig) (flat : List Nat) (ctx : Ctx) : Decidable (NoneStarved config flat ctx) :=
  inferInstanceAs (Decidable (_ = _))

theorem Whole.of_restaged {before after : Ctx} (whole : Whole before)
    (restaged : Ctx.Restaged original before after) : Whole after := by
  intro gid kept
  have layerId := Pool.layerId_of_frozen restaged.frame.frozen
  have was : gid ∈ before.pool.keep := (congrArg Pool.keep restaged.frame.frozen) ▸ kept
  rw [layerId]
  exact restaged.keeps gid was (whole gid was)

theorem Whole.of_tables {before after : Ctx} (whole : Whole before) (tables : after.tables = before.tables)
    (frozen : after.pool.frozen = before.pool.frozen) : Whole after := by
  intro gid kept
  have layerId := Pool.layerId_of_frozen frozen
  have was : gid ∈ before.pool.keep := (congrArg Pool.keep frozen) ▸ kept
  rw [layerId, tables]
  exact whole gid was

theorem promoteAll_tables (entries : List (Nat × Nat)) (ctx : Ctx) :
    (entries.foldl (fun ctx entry => promote entry ctx) ctx).tables = ctx.tables := by
  induction entries generalizing ctx with
  | nil => rfl
  | cons entry rest ih =>
      have here : (promote entry ctx).tables = ctx.tables := by
        unfold promote
        split_ifs
        · rfl
        · cases ctx.pool.needCounts with
          | none => rfl
          | some need =>
              dsimp only
              split_ifs <;> rfl
      exact (ih _).trans here

theorem phaseB_tables {config : HookConfig} {flat : List Nat} (none : NoneStarved config flat ctx) :
    (phaseB config flat ctx).1 = [] ∧ (phaseB config flat ctx).2.tables = ctx.tables := by
  unfold phaseB
  split
  · exact ⟨rfl, rfl⟩
  · rw [show demotionList config flat ctx.pool = [] from none]
    exact ⟨rfl, promoteAll_tables _ _⟩

theorem Demotable.of_noneStarved {config : HookConfig} {flat : List Nat}
    (none : NoneStarved config flat ctx) : Demotable config flat ctx := by
  constructor
  · rw [show demotionList config flat ctx.pool = [] from none]
    simp
  · rw [show demotionList config flat ctx.pool = [] from none]
    exact List.nodup_nil

theorem wholeRule (model : LoadedModel) :
    LayerRule (fun ctx => Routed model ctx ∧ Whole ctx) (fun ctx => Routed model ctx ∧ Whole ctx)
      NoneStarved where
  weaken := fun _ ok => ok
  shared := by
    intro ctx tables stats same ok
    refine ⟨(routingRule model).shared ctx tables stats same ok.1, ?_⟩
    exact fun gid kept => (same.routable_iff gid).mpr (ok.2 gid kept)
  counted := fun ctx stats tick need ok =>
    ⟨(routingRule model).counted ctx stats tick need ok.1, ok.2⟩
  columns := fun ctx ok => (routingRule model).columns ctx ok.1
  staging := by
    intro faults candidates ctx listed holds
    obtain ⟨⟨original, source, inv⟩, whole⟩ := holds
    obtain ⟨visited, final, net⟩ := stageAll_inv faults inv fun gid member =>
      inv.static.coldIds ▸ listed gid member
    refine ⟨?_, ⟨.of_reached source final.toReached, whole.of_restaged final⟩, final.frame, net⟩
    intro seen member
    have restaged := visited seen member
    exact ⟨⟨.of_reached source restaged.toReached, whole.of_restaged restaged⟩, restaged.frame⟩
  demotion := by
    intro config flat ctx none ok
    have routed := (routingRule model).demotion config flat ctx (.of_noneStarved none) ok.1
    obtain ⟨empty, tables⟩ := phaseB_tables none
    refine ⟨by simp [empty], ⟨routed.final, ok.2.of_tables tables routed.frame.frozen⟩, routed.frame,
      routed.net⟩

theorem noneLost_of_whole (ok : Layerwise (fun ctx => Routed model ctx ∧ Whole ctx) state) :
    NoneLost state := by
  intro layer pool found gid bound
  obtain ⟨ctx, view, rfl⟩ := ok.wired.ctx?_isSome found
  obtain ⟨_, _, tables, _⟩ := State.pool_of_ctx? view
  obtain ⟨⟨original, _, inv⟩, whole⟩ := ok.layers layer ctx view
  by_cases kept : gid ∈ ctx.pool.keep
  · obtain ⟨row, mapped, _⟩ := inv.served.remapped gid bound
    have placed := placement_eq_some.mpr ⟨whole gid kept, mapped⟩
    refine Or.inl ⟨tables ▸ whole gid kept, row, tables ▸ mapped, ?_⟩
    exact inv.static.phys ▸ inv.served.bounded gid row placed
  · have cold := (inv.static.cold gid).mpr ⟨bound, kept⟩
    obtain ⟨rows, hosted, copy⟩ := inv.host gid cold
    exact Or.inr ⟨⟨rows, hosted, copy.nonempty⟩, inv.static.coldIds ▸ cold, inv.static.coldMask gid cold⟩

/-- No expert is lost along a run whose passes find no starved keep expert. -/
theorem none_lost (sigmoid : ℚ → ℚ) (model : LoadedModel) (env : ShrinkEnv) (state : State)
    (completed : maybeShrinkAfterProcess env (State.fresh model.modules) = .done state)
    (events : List Event)
    (meets : (machine sigmoid).Meets (EventAllows NoneStarved sigmoid) state events) :
    ∀ seen ∈ (machine sigmoid).visited state events, NoneLost seen := by
  have start : Settled (fun ctx => Routed model ctx ∧ Whole ctx) state :=
    (maybeShrink_loaded completed).settled fun ctx original source shrunk =>
      ⟨⟨original, source, shrunk.inv⟩, shrunk.kept⟩
  intro seen member
  exact noneLost_of_whole ((wholeRule model).run_exposed sigmoid start meets seen member)

def fedTick : List Event :=
  .stash (some 0) false ⟨5, List.replicate 4 (List.replicate 5 0), by simp⟩
      ⟨1, [[0], [1], [0], [1]], by simp⟩ 1 ::
    List.replicate 8 (.hook starvedConfig .none false)

theorem none_lost_fedTick :
    ((machine fun _ => 1 / 2).run starvedState fedTick).stats.staged = 1 ∧
      NoneLost ((machine fun _ => 1 / 2).run starvedState fedTick) :=
  ⟨by decide +kernel, none_lost (fun _ => 1 / 2) starvedModel starvedEnv starvedState
    starvedState_completed fedTick (by decide +kernel) _ (Machine.run_mem_visited _ _ _)⟩

/-- After one tick with expert 1 starved, expert 1 is neither routable nor
among the candidates. -/
theorem expert_lost : ¬ ∀ (sigmoid : ℚ → ℚ) (model : LoadedModel) (env : ShrinkEnv) (state : State),
    maybeShrinkAfterProcess env (State.fresh model.modules) = .done state →
      ∀ events : List Event, ∀ seen ∈ (machine sigmoid).visited state events, NoneLost seen := by
  intro claimed
  have kept : NoneLost ((machine fun _ => 1 / 2).run starvedState starvedTick) :=
    claimed (fun _ => 1 / 2) starvedModel starvedEnv starvedState starvedState_completed starvedTick _
      (Machine.run_mem_visited _ _ _)
  have shape : (((machine fun _ => 1 / 2).run starvedState starvedTick).layers.get? 0).map
      (fun pool => (pool.layerId, pool.experts, pool.coldIdsGpu)) = some (0, 5, [2, 3, 4]) := by
    decide +kernel
  obtain ⟨pool, found, fields⟩ := Option.map_eq_some_iff.mp shape
  simp only [Prod.mk.injEq] at fields
  obtain ⟨layerId, experts, coldIds⟩ := fields
  have masked : ((machine fun _ => 1 / 2).run starvedState starvedTick).tables.biasAt 0 .bfloat16 1 ≠
      some 0 := by decide +kernel
  rcases kept 0 pool found 1 (by omega) with ⟨routable, _⟩ | ⟨_, candidate, _⟩
  · rw [layerId] at routable
    exact masked routable
  · rw [coldIds] at candidate
    simp at candidate

end FlashNext.ColdPool
