import FlashNext.ColdPool.StagingInvariant

namespace FlashNext.ColdPool

open FlashNext.Data

/-- Each pool is filed under its own layer id and names a module of its own. -/
structure Wired (state : State) : Prop where
  layerId : ∀ layer pool, state.layers.get? layer = some pool → pool.layerId = layer
  module : ∀ layer pool, state.layers.get? layer = some pool → pool.module < state.modules.length
  apart : ∀ left right leftPool rightPool, state.layers.get? left = some leftPool →
    state.layers.get? right = some rightPool → leftPool.module = rightPool.module → left = right

variable {state : State} {layer other : Nat} {before after ctx : Ctx}

theorem State.pool_of_ctx? (view : state.ctx? layer = some ctx) :
    state.layers.get? layer = some ctx.pool ∧ state.modules[ctx.pool.module]? = some ctx.module ∧
      ctx.tables = state.tables ∧ ctx.stats = state.stats := by
  unfold State.ctx? at view
  cases found : state.layers.get? layer with
  | none => simp [found] at view
  | some pool =>
      rw [found] at view
      obtain ⟨module, present, rfl⟩ := Option.map_eq_some_iff.mp view
      exact ⟨rfl, present, rfl, rfl⟩

theorem Wired.ctx?_isSome (wired : Wired state) {pool : Pool}
    (found : state.layers.get? layer = some pool) : ∃ ctx, state.ctx? layer = some ctx ∧ ctx.pool = pool := by
  have inside := wired.module layer pool found
  exact ⟨⟨state.tables, state.stats, pool, state.modules[pool.module]⟩, by
    simp [State.ctx?, found, inside], rfl⟩

/-- A new pool is filed for a module that no pool names. -/
theorem Wired.add {next : State} {pool : Pool} (wired : Wired state) (layers : next.layers = state.layers.set layer pool)
    (modules : next.modules.length = state.modules.length) (filed : pool.layerId = layer)
    (inside : pool.module < state.modules.length)
    (alone : ∀ other old, state.layers.get? other = some old → old.module ≠ pool.module) : Wired next := by
  -- a pool of the new state is the new one or stood before
  have source : ∀ {target found}, next.layers.get? target = some found →
      (target = layer ∧ found = pool) ∨ state.layers.get? target = some found := by
    intro target found present
    rw [layers, Dict.get?_set] at present
    split at present
    · next same =>
        cases present
        exact Or.inl ⟨same, rfl⟩
    · exact Or.inr present
  refine ⟨?_, ?_, ?_⟩
  · intro target found present
    rcases source present with ⟨rfl, rfl⟩ | stood
    · exact filed
    · exact wired.layerId target found stood
  · intro target found present
    rw [modules]
    rcases source present with ⟨rfl, rfl⟩ | stood
    · exact inside
    · exact wired.module target found stood
  · intro left right leftPool rightPool leftFound rightFound same
    rcases source leftFound with ⟨rfl, rfl⟩ | leftStood
    · rcases source rightFound with ⟨rfl, rfl⟩ | rightStood
      · rfl
      · exact absurd same.symm (alone right rightPool rightStood)
    · rcases source rightFound with ⟨rfl, rfl⟩ | rightStood
      · exact absurd same (alone left leftPool leftStood)
      · exact wired.apart left right leftPool rightPool leftStood rightStood same

namespace State

theorem get?_withCtx (state : State) (layer other : Nat) (ctx : Ctx) :
    (state.withCtx layer ctx).layers.get? other =
      if other = layer then some ctx.pool else state.layers.get? other := by
  simp [withCtx]

end State

theorem Wired.withCtx (wired : Wired state) (view : state.ctx? layer = some before)
    (frozen : after.pool.frozen = before.pool.frozen) : Wired (state.withCtx layer after) := by
  obtain ⟨found, _⟩ := State.pool_of_ctx? view
  have layerId := Pool.layerId_of_frozen frozen
  have module := Pool.module_of_frozen frozen
  -- a pool of the new state stands where an old one with the same module stood
  have source : ∀ target pool, (state.withCtx layer after).layers.get? target = some pool →
      ∃ old, state.layers.get? target = some old ∧ pool.layerId = old.layerId ∧ pool.module = old.module := by
    intro target pool present
    rw [State.get?_withCtx] at present
    split at present
    · rename_i same
      cases present
      exact ⟨before.pool, same ▸ found, layerId, module⟩
    · exact ⟨pool, present, rfl, rfl⟩
  refine { layerId := ?_, module := ?_, apart := ?_ }
  · intro target pool present
    obtain ⟨old, stood, sameLayer, _⟩ := source target pool present
    exact sameLayer.trans (wired.layerId target old stood)
  · intro target pool present
    obtain ⟨old, stood, _, sameModule⟩ := source target pool present
    simpa [State.withCtx, sameModule] using wired.module target old stood
  · intro left right leftPool rightPool leftFound rightFound same
    obtain ⟨leftOld, leftStood, _, leftModule⟩ := source left leftPool leftFound
    obtain ⟨rightOld, rightStood, _, rightModule⟩ := source right rightPool rightFound
    exact wired.apart left right leftOld rightOld leftStood rightStood
      (leftModule.symm.trans (same.trans rightModule))

theorem State.ctx?_withCtx_self (view : state.ctx? layer = some before)
    (home : after.pool.module = before.pool.module) :
    (state.withCtx layer after).ctx? layer = some after := by
  obtain ⟨_, present, _⟩ := State.pool_of_ctx? view
  have inside : after.pool.module < state.modules.length := by
    rw [home]
    exact (List.getElem?_eq_some_iff.mp present).1
  simp [State.ctx?, State.withCtx, inside]

theorem Wired.ctx?_withCtx_other (wired : Wired state) (view : state.ctx? layer = some before)
    (frozen : after.pool.frozen = before.pool.frozen) (different : other ≠ layer) :
    (state.withCtx layer after).ctx? other =
      (state.ctx? other).map fun ctx => { ctx with tables := after.tables, stats := after.stats } := by
  obtain ⟨found, _⟩ := State.pool_of_ctx? view
  have module := Pool.module_of_frozen frozen
  simp only [State.ctx?, State.get?_withCtx, if_neg different]
  cases present : state.layers.get? other with
  | none => rfl
  | some pool =>
      have apart : pool.module ≠ after.pool.module := fun same =>
        different (wired.apart other layer pool before.pool present found (same.trans module))
      simp only [State.withCtx, List.getElem?_set, Ne.symm apart, if_false, Option.map_map]
      rfl

def State.residents (state : State) : Int :=
  (state.layers.entries.map fun entry => (entry.2.gidRow.size : Int)).sum

/-- `staged - evicted`, less the resident experts. -/
def State.net (state : State) : Int := state.stats.staged - state.stats.evicted - state.residents

theorem State.net_withCtx (view : state.ctx? layer = some before) (balanced : after.net = before.net) :
    (state.withCtx layer after).net = state.net := by
  obtain ⟨found, _, _, stats⟩ := State.pool_of_ctx? view
  have exchanged := @Dict.sum_set _ _ _ (fun pool : Pool => (pool.gidRow.size : Int)) state.layers layer
    before.pool after.pool found
  simp only [Ctx.net, stats] at balanced
  simp only [State.net, State.residents, State.withCtx]
  omega

end FlashNext.ColdPool
