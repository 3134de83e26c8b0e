import FlashNext.ColdPool.Shrink

namespace FlashNext.ColdPool

open FlashNext.Data

/-- What can make a staging fail: the host rows of an expert or a parameter of
the module are not found when they are looked up. -/
structure Faults where
  hostMissing : Nat → Nat → Bool
  paramMissing : Nat → Nat → String → Bool

def Faults.none : Faults := ⟨fun _ _ => false, fun _ _ _ => false⟩

/-- The outcome of a staging: the states between its parameter copies, the
state it ends in and whether it succeeded. -/
structure Staged where
  visited : List Ctx
  final : Ctx
  ok : Bool

/-- The tensor rows `_row_from_host` would write to, when the parameter is
there, has a leading dimension and reaches the row. -/
def targetRows (faults : Faults) (ctx : Ctx) (gid row : Nat) (name : String) : Option (List Row) :=
  if faults.paramMissing ctx.pool.layerId gid name then none
  else (ctx.module.rows? name).filter fun rows => row < rows.length

/-- The copy loop of `_row_from_host`.  A failed lookup stops it where it is:
the rows copied so far stay copied. -/
def copyParams (faults : Faults) (gid row : Nat) : List (String × Row) → Ctx → Staged
  | [], ctx => ⟨[], ctx, true⟩
  | (name, pinned) :: rest, ctx =>
      match targetRows faults ctx gid row name with
      | none =>
          ⟨[], { ctx with stats := { ctx.stats with stageFail := ctx.stats.stageFail + 1 } }, false⟩
      | some _ =>
          let copied := { ctx with module := ctx.module.writeRow name row pinned }
          let later := copyParams faults gid row rest copied
          { later with visited := copied :: later.visited }

/-- The table and index updates once every parameter is copied. -/
def installRow (gid row nbytes : Nat) (ctx : Ctx) : Ctx where
  tables := unmask ctx.tables ctx.pool.layerId gid row
  stats := { ctx.stats with h2dBytes := ctx.stats.h2dBytes + nbytes }
  pool := { ctx.pool with
    gidRow := ctx.pool.gidRow.set gid row
    rowGid := ctx.pool.rowGid.set row gid
    rowTick := ctx.pool.rowTick.set row ctx.pool.tick }
  module := ctx.module

/-- `pool.host.get(gid)`. -/
def hostEntry (faults : Faults) (ctx : Ctx) (gid : Nat) : List (String × Row) :=
  if faults.hostMissing ctx.pool.layerId gid then []
  else match ctx.pool.host.get? gid with
    | none => []
    | some rows => rows.entries

def rowFromHost (faults : Faults) (gid row : Nat) (ctx : Ctx) : Staged :=
  let rows := hostEntry faults ctx gid
  if rows = [] then ⟨[], ctx, false⟩ else
  let copy := copyParams faults gid row rows ctx
  if copy.ok then
    { copy with final := installRow gid row (rows.map (·.2.length)).sum copy.final }
  else copy

/-- `_evict_row`: mask first, then the row is free to be overwritten. -/
def evictRow (row : Nat) (ctx : Ctx) : Ctx :=
  match ctx.pool.rowGid.get? row with
  | none => ctx
  | some old =>
      { ctx with
        tables := mask ctx.tables ctx.pool.layerId old
        stats := { ctx.stats with evicted := ctx.stats.evicted + 1 }
        pool := { ctx.pool with
          rowGid := ctx.pool.rowGid.pop row
          gidRow := ctx.pool.gidRow.pop old } }

/-- The rows `_pick_row` may evict, in the order of `row_tick`. -/
def evictable (pool : Pool) : List Nat :=
  pool.rowTick.keys.filter fun row => row ∉ pool.protectedRows

/-- `min(cands, key=row_tick)`: the first one with the oldest tick. -/
def oldestRow (pool : Pool) : Option Nat :=
  firstBest (fun row best => decide ((pool.rowTick.get? row).getD 0 ≤ (pool.rowTick.get? best).getD 0))
    (evictable pool)

def pickRow (ctx : Ctx) : Ctx × Option Nat :=
  match ctx.pool.freeRows with
  | row :: rest => ({ ctx with pool := { ctx.pool with freeRows := rest } }, some row)
  | [] =>
      match oldestRow ctx.pool with
      | none => (ctx, none)
      | some victim => (evictRow victim ctx, some victim)

def returnRow (row : Nat) (ctx : Ctx) : Ctx :=
  if row ∉ ctx.pool.rowGid.keys ∧ row ∉ ctx.pool.freeRows then
    { ctx with pool := { ctx.pool with freeRows := ctx.pool.freeRows ++ [row] } }
  else ctx

/-- `pool.need_counts[gid] = 0.0`. -/
def resetNeed (gid : Nat) (ctx : Ctx) : Ctx :=
  { ctx with pool := { ctx.pool with needCounts := ctx.pool.needCounts.map (·.set gid 0) } }

/-- One candidate of the staging loop; `none` is the loop's `break`. -/
def stageOne (faults : Faults) (gid : Nat) (ctx : Ctx) : List Ctx × Option Ctx :=
  let ctx := resetNeed gid ctx
  if gid ∈ ctx.pool.gidRow.keys then ([], some ctx) else
  match pickRow ctx with
  | (_, none) => ([], none)
  | (picked, some row) =>
      let staged := rowFromHost faults gid row picked
      if staged.ok then
        let final := { staged.final with
          stats := { staged.final.stats with staged := staged.final.stats.staged + 1 } }
        (picked :: staged.visited, some final)
      else (picked :: staged.visited, some (returnRow row staged.final))

/-- The staging loop of `after_forward_hook`. -/
def stageAll (faults : Faults) : List Nat → Ctx → List Ctx × Ctx
  | [], ctx => ([], ctx)
  | gid :: rest, ctx =>
      match stageOne faults gid ctx with
      | (visited, none) => (visited, resetNeed gid ctx)
      | (visited, some next) =>
          let later := stageAll faults rest next
          (visited ++ next :: later.1, later.2)

end FlashNext.ColdPool
