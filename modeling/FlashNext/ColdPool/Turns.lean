import FlashNext.ColdPool.Ticks

namespace FlashNext.ColdPool

open FlashNext.Data

/-- One turn: the experts staged earlier in the tick, the layer and the
candidate whose turn it is. -/
structure Turn where
  staged : List Nat
  ctx : Ctx
  gid : Nat

def stagedNow (gid : Nat) (before after : Ctx) : List Nat :=
  if gid ∈ after.pool.gidRow.keys ∧ gid ∉ before.pool.gidRow.keys then [gid] else []

/-- The turns of the loop, up to its `break`. -/
def turns (faults : Faults) : List Nat → List Nat → Ctx → List Turn
  | [], _, _ => []
  | gid :: rest, staged, ctx =>
      ⟨staged, ctx, gid⟩ ::
        match (stageOne faults gid ctx).2 with
        | none => []
        | some next => turns faults rest (stagedNow gid ctx next ++ staged) next

def stagings (faults : Faults) : List Nat → List Nat → Ctx → List Nat
  | [], staged, _ => staged
  | gid :: rest, staged, ctx =>
      match (stageOne faults gid ctx).2 with
      | none => staged
      | some next => stagings faults rest (stagedNow gid ctx next ++ staged) next

/-- The expert that `_pick_row` evicts in a turn. -/
def Turn.evicted (turn : Turn) : Option Nat :=
  if turn.gid ∈ turn.ctx.pool.gidRow.keys ∨ turn.ctx.pool.freeRows ≠ [] then none
  else (oldestRow turn.ctx.pool).bind turn.ctx.pool.rowGid.get?

variable {original : Module} {ctx next : Ctx} {faults : Faults} {gid row : Nat}

theorem pickRow_cases (ctx : Ctx) :
    (∃ row rest, ctx.pool.freeRows = row :: rest ∧
      pickRow ctx = ({ ctx with pool := { ctx.pool with freeRows := rest } }, some row)) ∨
    (ctx.pool.freeRows = [] ∧ oldestRow ctx.pool = none ∧ pickRow ctx = (ctx, none)) ∨
    (∃ row, ctx.pool.freeRows = [] ∧ oldestRow ctx.pool = some row ∧
      pickRow ctx = (evictRow row ctx, some row)) := by
  unfold pickRow
  cases free : ctx.pool.freeRows with
  | cons row rest => exact Or.inl ⟨row, rest, rfl, rfl⟩
  | nil =>
      cases oldest : oldestRow ctx.pool with
      | none => exact Or.inr (Or.inl ⟨rfl, rfl, rfl⟩)
      | some row => exact Or.inr (Or.inr ⟨row, rfl, rfl, rfl⟩)

theorem evictRow_evicted (row : Nat) (ctx : Ctx) :
    (evictRow row ctx).stats.evicted = ctx.stats.evicted + (ctx.pool.rowGid.get? row).toList.length := by
  unfold evictRow
  cases ctx.pool.rowGid.get? row with
  | none => rfl
  | some old => rfl

theorem Turn.evicted_counted (turn : Turn) (absent : turn.gid ∉ turn.ctx.pool.gidRow.keys) :
    (pickRow (resetNeed turn.gid turn.ctx)).1.stats.evicted =
      turn.ctx.stats.evicted + turn.evicted.toList.length := by
  rcases pickRow_cases (resetNeed turn.gid turn.ctx) with ⟨row, rest, free, picked⟩ | ⟨free, oldest, picked⟩ |
    ⟨row, free, oldest, picked⟩
  · have some : turn.ctx.pool.freeRows ≠ [] := fun none => by
      rw [show (resetNeed turn.gid turn.ctx).pool.freeRows = turn.ctx.pool.freeRows from rfl, none] at free
      contradiction
    rw [picked, Turn.evicted, if_pos (Or.inr some)]
    rfl
  · have still : oldestRow turn.ctx.pool = none := oldest
    rw [picked, Turn.evicted, still]
    split <;> rfl
  · have none : ¬ (turn.gid ∈ turn.ctx.pool.gidRow.keys ∨ turn.ctx.pool.freeRows ≠ []) := by
      intro cases_
      rcases cases_ with resident | some
      · exact absent resident
      · exact some free
    have still : oldestRow turn.ctx.pool = some row := oldest
    rw [picked, Turn.evicted, if_neg none, still, Option.bind_some]
    exact evictRow_evicted row (resetNeed turn.gid turn.ctx)

def Pool.install (pool : Pool) (gid row : Nat) : Pool :=
  { pool with
    gidRow := pool.gidRow.set gid row
    rowGid := pool.rowGid.set row gid
    rowTick := pool.rowTick.set row pool.tick }

theorem rowFromHost_pool (faults : Faults) (gid row : Nat) (ctx : Ctx) :
    (rowFromHost faults gid row ctx).final.pool =
      if (rowFromHost faults gid row ctx).ok then ctx.pool.install gid row else ctx.pool := by
  have copied := copyParams_pool faults gid row (hostEntry faults ctx gid) ctx
  simp only [rowFromHost]
  split
  · rfl
  · split
    · rw [← copied]
      rfl
    · exact copied

theorem stageOne_cases (reached : (stageOne faults gid ctx).2 = some next) :
    (gid ∈ ctx.pool.gidRow.keys ∧ next = resetNeed gid ctx) ∨
    (gid ∉ ctx.pool.gidRow.keys ∧ ∃ picked row, pickRow (resetNeed gid ctx) = (picked, some row) ∧
      next.pool = if (rowFromHost faults gid row picked).ok then picked.pool.install gid row
        else (returnRow row picked).pool) := by
  simp only [stageOne] at reached
  split at reached
  · next resident =>
      cases reached
      exact Or.inl ⟨resident, rfl⟩
  · next absent =>
      refine Or.inr ⟨absent, ?_⟩
      cases picked : pickRow (resetNeed gid ctx) with
      | mk after row? =>
          rw [picked] at reached
          cases row? with
          | none => contradiction
          | some row =>
              have filled := rowFromHost_pool faults gid row after
              refine ⟨after, row, rfl, ?_⟩
              dsimp only at reached
              split at reached
              · next ok =>
                  rw [if_pos ok] at filled ⊢
                  cases reached
                  exact filled
              · next failed =>
                  rw [if_neg failed] at filled ⊢
                  cases reached
                  simp only [returnRow, filled]
                  split <;> simp [filled]

/-- The fields of a pool that picking and returning rows do not touch. -/
def Pool.ages (pool : Pool) : Dict Nat Int × Nat × List Nat := (pool.rowTick, pool.tick, pool.protectedRows)

theorem pickRow_keeps_others {picked : Ctx} (inv : ctx.Inv original)
    (found : pickRow ctx = (picked, some row)) :
    picked.pool.ages = ctx.pool.ages ∧
      ∀ gid at_, picked.pool.gidRow.get? gid = some at_ → ctx.pool.gidRow.get? gid = some at_ ∧ at_ ≠ row := by
  obtain ⟨pickedInv, flying⟩ := pickRow_inv inv
  rw [found] at pickedInv flying
  have away : ∀ gid at_, picked.pool.gidRow.get? gid = some at_ → at_ ≠ row := by
    intro gid at_ placed equal
    subst equal
    exact (flying _ rfl).unowned (Dict.mem_keys_of_get? (pickedInv.resident gid _ placed).2.2)
  have kept : picked.pool.ages = ctx.pool.ages ∧
      ∀ gid at_, picked.pool.gidRow.get? gid = some at_ → ctx.pool.gidRow.get? gid = some at_ := by
    rcases pickRow_cases ctx with ⟨_, _, _, same⟩ | ⟨_, _, same⟩ | ⟨victim, _, _, same⟩
    · rw [same] at found
      cases found
      exact ⟨rfl, fun _ _ placed => placed⟩
    · rw [same] at found
      cases found
    · rw [same] at found
      cases found
      unfold evictRow
      split
      · exact ⟨rfl, fun _ _ placed => placed⟩
      · refine ⟨rfl, fun gid at_ placed => ?_⟩
        rw [Dict.get?_pop] at placed
        split at placed
        · contradiction
        · exact placed
  exact ⟨kept.1, fun gid at_ placed => ⟨kept.2 gid at_ placed, away gid at_ placed⟩⟩

theorem returnRow_ages (row : Nat) (ctx : Ctx) :
    (returnRow row ctx).pool.ages = ctx.pool.ages ∧ (returnRow row ctx).pool.gidRow = ctx.pool.gidRow := by
  unfold returnRow
  split <;> exact ⟨rfl, rfl⟩

end FlashNext.ColdPool
