import FlashNext.ColdPool.RoutingSafety

namespace FlashNext.ColdPool

open FlashNext.Data

def Pool.slotRow (pool : Pool) (row : Nat) : Prop := pool.keepLen ≤ row ∧ row < pool.keepLen + pool.slots

/-- The slots that are neither free nor owned are the ones in `lent`. -/
structure Partitioned (lent : Nat → Prop) (pool : Pool) : Prop where
  distinct : pool.freeRows.Nodup
  disjoint : ∀ row ∈ pool.freeRows, row ∉ pool.rowGid.keys
  rows : ∀ row, row ∈ pool.freeRows ∨ row ∈ pool.rowGid.keys ↔ pool.slotRow row ∧ ¬ lent row
  ticked : ∀ row ∈ pool.rowTick.keys, pool.slotRow row

/-- Every slot is free or owned. -/
abbrev Conserved (pool : Pool) : Prop := Partitioned (fun _ => False) pool

structure Lent (row : Nat) (pool : Pool) : Prop extends Partitioned (· = row) pool where
  slot : pool.slotRow row

variable {ctx : Ctx} {faults : Faults} {gid row : Nat}

theorem evictRow_lent (conserved : Conserved ctx.pool) (ticked : row ∈ ctx.pool.rowTick.keys)
    (noFree : ctx.pool.freeRows = []) : Lent row (evictRow row ctx).pool := by
  have slot := conserved.ticked row ticked
  have owned : row ∈ ctx.pool.rowGid.keys := by
    simpa [noFree] using (conserved.rows row).mpr ⟨slot, not_false⟩
  obtain ⟨old, found⟩ := Dict.mem_keys_iff.mp owned
  simp only [evictRow, found]
  refine ⟨⟨?_, ?_, ?_, conserved.ticked⟩, slot⟩
  · exact conserved.distinct
  · simp [noFree]
  · intro other
    have before := conserved.rows other
    simp only [noFree, List.not_mem_nil, false_or, not_false_eq_true, and_true] at before ⊢
    rw [Dict.mem_keys_pop, before]
    exact and_comm

theorem pickRow_lent (conserved : Conserved ctx.pool) (picked : (pickRow ctx).2 = some row) :
    Lent row (pickRow ctx).1.pool := by
  unfold pickRow at picked ⊢
  cases free : ctx.pool.freeRows with
  | cons first rest =>
      rw [free] at picked
      cases picked
      obtain ⟨fresh, distinctRest⟩ := List.nodup_cons.mp (free ▸ conserved.distinct)
      have owned := conserved.disjoint row (by simp [free])
      refine ⟨⟨distinctRest, ?_, ?_, conserved.ticked⟩, ?_⟩
      · exact fun other member => conserved.disjoint other (by simp [free, member])
      · intro other
        have before := conserved.rows other
        simp only [free, List.mem_cons, not_false_eq_true, and_true] at before
        constructor
        · intro present
          refine ⟨before.mp (present.imp Or.inr id), ?_⟩
          intro equal
          subst equal
          exact present.elim fresh owned
        · intro holds
          obtain ⟨slot, different⟩ := holds
          exact (before.mpr slot).imp (fun member => member.resolve_left different) id
      · exact ((conserved.rows row).mp (Or.inl (by simp [free]))).1
  | nil =>
      rw [free] at picked
      cases oldest : oldestRow ctx.pool with
      | none => simp [oldest] at picked
      | some victim =>
          simp only [oldest, Option.some.injEq] at picked
          subst picked
          exact evictRow_lent conserved (oldestRow_mem oldest) free

theorem installRow_conserved {nbytes : Nat} (lent : Lent row ctx.pool) :
    Conserved (installRow gid row nbytes ctx).pool where
  distinct := lent.distinct
  disjoint := by
    intro other member owned
    rcases Dict.mem_keys_set.mp owned with rfl | before
    · exact ((lent.rows other).mp (Or.inl member)).2 rfl
    · exact lent.disjoint other member before
  rows := by
    intro other
    have before := lent.rows other
    simp only [Pool.slotRow] at before
    simp only [installRow, Pool.slotRow, Dict.mem_keys_set, not_false_eq_true, and_true]
    by_cases same : other = row
    · subst same
      simpa [Pool.slotRow] using lent.slot
    · simpa [same] using before
  ticked := by
    intro other member
    rcases Dict.mem_keys_set.mp member with rfl | before
    · exact lent.slot
    · exact lent.ticked other before

theorem returnRow_conserved (lent : Lent row ctx.pool) : Conserved (returnRow row ctx).pool := by
  have outside : row ∉ ctx.pool.freeRows ∧ row ∉ ctx.pool.rowGid.keys := by
    have absent := lent.rows row
    simpa using absent
  unfold returnRow
  rw [if_pos ⟨outside.2, outside.1⟩]
  refine ⟨?_, ?_, ?_, lent.ticked⟩
  · rw [List.nodup_append]
    refine ⟨lent.distinct, by simp, ?_⟩
    intro other member _ last equal
    subst equal
    rw [List.mem_singleton] at last
    exact outside.1 (last ▸ member)
  · intro other member
    rcases List.mem_append.mp member with before | last
    · exact lent.disjoint other before
    · rw [List.mem_singleton] at last
      exact last ▸ outside.2
  · intro other
    have before := lent.rows other
    simp only [Pool.slotRow] at before
    simp only [Pool.slotRow, List.mem_append, List.mem_singleton, not_false_eq_true, and_true]
    by_cases same : other = row
    · subst same
      simpa [Pool.slotRow] using lent.slot
    · simpa [same] using before

theorem copyParams_pool (faults : Faults) (gid row : Nat) (entries : List (String × Row)) (ctx : Ctx) :
    (copyParams faults gid row entries ctx).final.pool = ctx.pool := by
  induction entries generalizing ctx with
  | nil => rfl
  | cons entry rest ih =>
      rw [copyParams]
      split
      · rfl
      · exact ih _

theorem rowFromHost_lent (lent : Lent row ctx.pool) :
    ((rowFromHost faults gid row ctx).ok = true → Conserved (rowFromHost faults gid row ctx).final.pool) ∧
      ((rowFromHost faults gid row ctx).ok = false →
        Lent row (rowFromHost faults gid row ctx).final.pool) := by
  have copied := copyParams_pool faults gid row (hostEntry faults ctx gid) ctx
  simp only [rowFromHost]
  split
  · exact ⟨by simp, fun _ => lent⟩
  · split
    · rename_i ok
      exact ⟨fun _ => installRow_conserved (copied ▸ lent), by simp [ok]⟩
    · rename_i failed
      exact ⟨fun ok => absurd ok failed, fun _ => copied ▸ lent⟩

theorem stageOne_conserved (conserved : Conserved ctx.pool) {next : Ctx}
    (reached : (stageOne faults gid ctx).2 = some next) : Conserved next.pool := by
  have reset : Conserved (resetNeed gid ctx).pool := { conserved with }
  simp only [stageOne] at reached
  split at reached
  · exact Option.some.inj reached ▸ reset
  · cases picked : pickRow (resetNeed gid ctx) with
    | mk after row? =>
        cases row? with
        | none => simp [picked] at reached
        | some row =>
            have lent : Lent row after.pool := by
              have here := @pickRow_lent (resetNeed gid ctx) row reset (by rw [picked])
              rwa [picked] at here
            obtain ⟨success, failure⟩ := @rowFromHost_lent after faults gid row lent
            simp only [picked] at reached
            split at reached
            · rename_i ok
              exact Option.some.inj reached ▸ success ok
            · rename_i failed
              exact Option.some.inj reached ▸ returnRow_conserved (failure (by simpa using failed))

theorem stageAll_conserved (faults : Faults) (candidates : List Nat) (conserved : Conserved ctx.pool) :
    Conserved (stageAll faults candidates ctx).2.pool := by
  induction candidates generalizing ctx with
  | nil => exact conserved
  | cons gid rest ih =>
      simp only [stageAll]
      cases staged : stageOne faults gid ctx with
      | mk visited next? =>
          cases next? with
          | none => exact { conserved with }
          | some next => exact ih (stageOne_conserved conserved (by rw [staged]))

theorem slotRule (model : LoadedModel) :
    LayerRule (fun ctx => Routed model ctx ∧ Conserved ctx.pool) (fun _ => True) (fun _ _ _ => False) where
  weaken := fun _ _ => trivial
  shared := fun ctx tables stats same ok => ⟨(routingRule model).shared ctx tables stats same ok.1, ok.2⟩
  counted := fun ctx stats tick need ok =>
    ⟨(routingRule model).counted ctx stats tick need ok.1, { ok.2 with }⟩
  columns := fun ctx ok => (routingRule model).columns ctx ok.1
  staging := by
    intro faults candidates ctx listed ok
    have routed := (routingRule model).staging faults candidates ctx listed ok.1
    exact ⟨fun seen member => ⟨trivial, (routed.visited seen member).2⟩,
      ⟨routed.final, stageAll_conserved faults candidates ok.2⟩, routed.frame, routed.net⟩
  demotion := fun _ _ _ never _ => absurd never id

structure LayerSlots (pool : Pool) : Prop where
  distinct : pool.freeRows.Nodup
  disjoint : ∀ row ∈ pool.freeRows, row ∉ pool.rowGid.keys
  exhaustive : ∀ row, row ∈ pool.freeRows ∨ row ∈ pool.rowGid.keys ↔
    pool.keepLen ≤ row ∧ row < pool.keepLen + pool.slots
  inverse : ∀ gid row, pool.gidRow.get? gid = some row ↔ pool.rowGid.get? row = some gid
  cold : ∀ gid ∈ pool.gidRow.keys, gid ∈ pool.cold

/-- The slot accounting of all layers, with the global counters. -/
structure SlotsConserved (state : State) : Prop where
  layers : ∀ layer pool, state.layers.get? layer = some pool → LayerSlots pool
  counters : (state.stats.staged : Int) - state.stats.evicted =
    (state.layers.entries.map fun entry => (entry.2.gidRow.size : Int)).sum

variable {model : LoadedModel}

theorem Shrunk.conserved {original : Module} (shrunk : Shrunk original ctx) : Conserved ctx.pool := by
  obtain ⟨env, index, layer, keep, experts, cold, held, fresh⟩ := shrunk.fresh
  rw [fresh]
  refine ⟨List.nodup_range', ?_, ?_, ?_⟩
  · simp [shrunkPool, Pool.init]
  · intro row
    simp [shrunkPool, Pool.init, Pool.slotRow, List.mem_range'_1]
  · simp [shrunkPool, Pool.init]

theorem layerSlots_of_conserved {original : Module} (inv : ctx.Inv original) (conserved : Conserved ctx.pool) :
    LayerSlots ctx.pool where
  distinct := conserved.distinct
  disjoint := conserved.disjoint
  exhaustive := fun row => (conserved.rows row).trans (and_iff_left not_false)
  inverse := fun gid row => ⟨fun found => (inv.resident gid row found).2.2, inv.owner row gid⟩
  cold := by
    intro gid member
    obtain ⟨row, found⟩ := Dict.mem_keys_iff.mp member
    exact (inv.resident gid row found).1

/-- Slots are conserved at the end of every tick of a run with demotion off. -/
theorem slots_conserved (sigmoid : ℚ → ℚ) (model : LoadedModel) (env : ShrinkEnv) (state : State)
    (completed : maybeShrinkAfterProcess env (State.fresh model.modules) = .done state)
    (events : List Event) (off : ∀ event ∈ events, event.degradeOff) :
    ∀ seen ∈ (machine sigmoid).settled state events, SlotsConserved seen := by
  have start : Settled (fun ctx => Routed model ctx ∧ Conserved ctx.pool) state :=
    (maybeShrink_loaded completed).settled fun ctx original source shrunk =>
      ⟨⟨original, source, shrunk.inv⟩, shrunk.conserved⟩
  have allows : (machine sigmoid).Meets (EventAllows (fun _ _ _ => False) sigmoid) state events :=
    Machine.meets_of_forall fun state event member =>
      eventAllows_of_degradeOff _ sigmoid (off event member) state
  intro seen member
  have ok := (slotRule model).run_settled sigmoid start allows seen member
  constructor
  · intro layer pool found
    obtain ⟨ctx, view, rfl⟩ := ok.wired.ctx?_isSome found
    obtain ⟨⟨original, _, inv⟩, conserved⟩ := ok.layers layer ctx view
    exact layerSlots_of_conserved inv conserved
  · have balanced := ok.balanced
    simp only [State.net, State.residents] at balanced
    omega

theorem slots_conserved_smallModel : ∃ state,
    maybeShrinkAfterProcess smallEnv (State.fresh smallModel.modules) = .done state ∧
      ∀ seen ∈ (machine fun _ => 1 / 2).settled state smallEvents, SlotsConserved seen :=
  ⟨_, rfl, slots_conserved (fun _ => 1 / 2) smallModel smallEnv _ rfl smallEvents
    (by simp [smallEvents, Event.degradeOff])⟩

end FlashNext.ColdPool
