import FlashNext.ColdPool.Staging
import FlashNext.Data.Ranking
import FlashNext.Machine.Run

namespace FlashNext.ColdPool

open FlashNext.Data

/-- The environment a tick reads, and the descending `torch.argsort` that ranks its
candidates: which of two with equal need comes first is up to it. -/
structure HookConfig where
  strongAlpha : ℚ
  needHits : ℚ
  maxStage : Nat
  emaDecay : ℚ
  topK : Nat
  coldSlots : Nat
  degrade : Bool
  degradeWindow : Int
  argsort : Argsort ℚ

/-- `_env_int("SGLANG_COLD_TOPK", 10) or 10`. -/
def HookConfig.k (config : HookConfig) : Nat := if config.topK = 0 then 10 else config.topK

def stashRows : Nat := 819

/-- Padding and fused-shared columns carry no demand. -/
def demandId (width : Nat) (id : Int) : Int := if id < 0 ∨ (width : Int) ≤ id then -1 else id

/-- The true score of an id, from the logits before the mask. -/
def demandScore (sigmoid : ℚ → ℚ) (width : Nat) (logits : List ℚ) (id : Int) : ℚ :=
  if id < 0 ∨ (width : Int) ≤ id then -1 else sigmoid (logits.getD id.toNat 0)

/-- `stash_demand`.  A call whose tensors do not fit together raises before it
writes anything. -/
def stashDemand (sigmoid : ℚ → ℚ) (state : State) (layer : Option Nat) (capturing : Bool)
    (preMask : Grid ℚ) (topkIds : Grid Int) (k : Nat) : State :=
  match layer with
  | none => state
  | some layer =>
      if !state.dynamic ∨ capturing then state else
      let count := topkIds.rows.length
      if count = 0 ∨ preMask.rows.length ≠ count ∨ preMask.width = 0 then state else
      let ids := topkIds.rows.map (·.map (demandId preMask.width))
      let scores := List.zipWith (fun logits row => row.map (demandScore sigmoid preMask.width logits))
        preMask.rows topkIds.rows
      let stride := if stashRows < count then (count + stashRows - 1) / stashRows else 1
      let sampled := strided stride ids
      let flatIds := sampled.flatten
      let flatScores := (strided stride scores).flatten
      let kept := ((strided stride preMask.rows).zip sampled).filter fun entry => entry.2.any (0 ≤ ·)
      let cap := stashRows * k
      let buffer := (state.stash.get? layer).getD
        ⟨List.replicate cap (-1), List.replicate cap (-1), none, 0⟩
      let m := min flatIds.length cap
      if buffer.ids.length < m then state else
      { state with
        stash := state.stash.set layer
          { ids := flatIds.take m ++ List.replicate (buffer.ids.length - m) (-1)
            scores := flatScores.take m ++ List.replicate (buffer.scores.length - m) (-1)
            logits := some (kept.map Prod.fst)
            logitsN := kept.length }
        dirty := true }

/-- `score >= alpha * hot_min`; a row without a selected hot expert has
`hot_min = inf`. -/
def inBand (alpha : ℚ) (hotMin : Option ℚ) (score : ℚ) : Bool :=
  match hotMin with
  | some least => alpha * least ≤ score
  | none => alpha < 0

def isCold (pool : Pool) (gid : Nat) : Bool := pool.coldMaskGpu.getD gid false

/-- `hot_min` of one row. -/
def hotMin (pool : Pool) (ids : List Nat) (scores : List ℚ) : Option ℚ :=
  (((ids.zip scores).filter fun entry => !isCold pool entry.1).map Prod.snd).min?

/-- The selected cold ids of one row that lie in the band. -/
def strongRow (alpha : ℚ) (pool : Pool) (ids : List Nat) (scores : List ℚ) : List Nat :=
  ((ids.zip scores).filter fun entry =>
    isCold pool entry.1 && inBand alpha (hotMin pool ids scores) entry.2).map Prod.fst

/-- The probe's vote for one row of raw logits: the in-band cold expert with
the largest score, residents excluded. -/
def probeRow (sigmoid : ℚ → ℚ) (alpha : ℚ) (pool : Pool) (least : Option ℚ) (logits : List ℚ) :
    Option Nat :=
  let value := fun gid =>
    let score := sigmoid (logits.getD gid 0)
    if inBand alpha least score && isCold pool gid && !decide (gid ∈ pool.gidRow.keys) then score else 0
  (firstBest (fun gid best => decide (value best ≤ value gid)) (List.range logits.length)).filter
    fun gid => 0 < value gid

/-- `need_counts.index_add_(0, gids, ones)`. -/
def addVotes (need : List ℚ) (gids : List Nat) : List ℚ :=
  gids.foldl (fun need gid => need.modify gid (· + 1)) need

def Pool.need (pool : Pool) : List ℚ := pool.needCounts.getD (List.replicate pool.experts 0)

/-- What a tick reads from a layer's buffer: the sampled ids and scores in
rows of `k`, and the raw logits of the rows the probe looks at. -/
structure Ballot where
  flat : List (List Nat)
  scores : List (List ℚ)
  logits : List (List ℚ)
deriving DecidableEq, Repr

/-- `none` when the buffer holds fewer than `k` ids. -/
def readBallot (config : HookConfig) (buffer : StashBuffer) : Option Ballot :=
  let valid := (buffer.ids.filter (0 ≤ ·)).map Int.toNat
  let count := valid.length / config.k
  if count = 0 then none else
  some {
    flat := reshape config.k count valid
    scores := reshape config.k count buffer.scores
    logits := (buffer.logits.getD []).take (min buffer.logitsN count) }

/-- Ids and logit rows fit the layer; otherwise an indexing of the vote
computation raises. -/
def Ballot.Fits (ballot : Ballot) (experts : Nat) : Prop :=
  (∀ gid ∈ ballot.flat.flatten, gid < experts) ∧ ∀ row ∈ ballot.logits, row.length = experts

instance (ballot : Ballot) (experts : Nat) : Decidable (ballot.Fits experts) :=
  inferInstanceAs (Decidable (_ ∧ _))

def castVotes (sigmoid : ℚ → ℚ) (config : HookConfig) (pool : Pool) (ballot : Ballot) :
    List ℚ × Nat :=
  let hotMins := List.zipWith (hotMin pool) ballot.flat ballot.scores
  let probes := (List.zipWith (probeRow sigmoid config.strongAlpha pool) hotMins ballot.logits).filterMap id
  let strong := (List.zipWith (strongRow config.strongAlpha pool) ballot.flat ballot.scores).flatten
  let decayed := (addVotes pool.need probes).map (· * config.emaDecay)
  (addVotes decayed strong, probes.length + strong.length)

/-- The candidates of the staging loop, the neediest first. -/
def candidates (config : HookConfig) (pool : Pool) : List Nat :=
  let need := fun gid => pool.need.getD gid 0
  (config.argsort.rank need (pool.coldIdsGpu.filter fun gid => config.needHits ≤ need gid)).take config.maxStage

/-- `rows[name] = t.data[row]`, for a tensor that reaches the row. -/
def snapshotParam (module : Module) (row : Nat) (rows : Dict String Row) (name : String) : Dict String Row :=
  match module.rowAt name row with
  | none => rows
  | some bytes => rows.set name bytes

/-- The bytes of one physical row, for every whitelisted tensor that has it. -/
def snapshotRow (module : Module) (row : Nat) : Dict String Row :=
  allParams.foldl (snapshotParam module row) .empty

/-- Demotion of one starved keep expert, as the loop of `_phase_b` does it:
the row to copy out is the one the remap table gives. -/
def demote (gid : Nat) (ctx : Ctx) : Ctx :=
  match ctx.tables.remapAt ctx.pool.layerId gid with
  | none => ctx
  | some row =>
      if ctx.pool.keepLen ≤ row then ctx else
      { ctx with
        tables := mask ctx.tables ctx.pool.layerId gid
        stats := { ctx.stats with demoted := ctx.stats.demoted + 1 }
        pool := { ctx.pool with
          host := ctx.pool.host.set gid (snapshotRow ctx.module row)
          rowGid := ctx.pool.rowGid.pop row
          rowTick := ctx.pool.rowTick.set row neverSeen } }

def demoteAll : List Nat → Ctx → List Ctx × Ctx
  | [], ctx => ([], ctx)
  | gid :: rest, ctx =>
      let next := demote gid ctx
      let later := demoteAll rest next
      (next :: later.1, later.2)

/-- The promotion loop of `_phase_b`. -/
def promote (entry : Nat × Nat) (ctx : Ctx) : Ctx :=
  if entry.2 ∈ ctx.pool.protectedRows then ctx else
  match ctx.pool.needCounts with
  | none => ctx
  | some need =>
      if 2 ≤ need.getD entry.1 0 then
        { ctx with
          stats := { ctx.stats with promoted := ctx.stats.promoted + 1 }
          pool := { ctx.pool with protectedRows := entry.2 :: ctx.pool.protectedRows } }
      else ctx

/-- `pool.seen_tick` once the ids of a tick are recorded. -/
def recordSeen (pool : Pool) (flat : List Nat) : Pool :=
  let seen := pool.seenTick.getD (List.replicate pool.experts neverSeen)
  { pool with seenTick := some (flat.foldl (fun seen gid => seen.set gid pool.tick) seen) }

def doomed (config : HookConfig) (pool : Pool) : List Nat :=
  pool.keepIdsGpu.filter fun gid =>
    config.degradeWindow < pool.tick - ((pool.seenTick.getD []).getD gid 0)

def demotionList (config : HookConfig) (flat : List Nat) (pool : Pool) : List Nat :=
  (doomed config (recordSeen pool flat)).take 2

/-- `_phase_b`.  An id past the expert count raises before any demotion. -/
def phaseB (config : HookConfig) (flat : List Nat) (ctx : Ctx) : List Ctx × Ctx :=
  if ¬ ∀ gid ∈ flat, gid < ctx.pool.experts then
    ([], { ctx with pool := { ctx.pool with
      seenTick := some (ctx.pool.seenTick.getD (List.replicate ctx.pool.experts neverSeen)) } })
  else
    let (visited, demoted) := demoteAll (demotionList config flat ctx.pool)
      { ctx with pool := recordSeen ctx.pool flat }
    (visited, demoted.pool.gidRow.entries.foldl (fun ctx entry => promote entry ctx) demoted)

structure HookResult where
  visited : List State
  final : State
  raised : Bool

def degradeEnabled (config : HookConfig) (state : State) : Bool :=
  state.shrunk && decide (0 < config.coldSlots) && config.degrade

def Ctx.tickUp (ctx : Ctx) : Ctx := { ctx with pool := { ctx.pool with tick := ctx.pool.tick + 1 } }

def voteAndStage (sigmoid : ℚ → ℚ) (config : HookConfig) (faults : Faults) (ctx : Ctx) (ballot : Ballot) :
    List Ctx × Ctx :=
  let (need, strong) := castVotes sigmoid config ctx.pool ballot
  let voted := { ctx with
    stats := { ctx.stats with strong := ctx.stats.strong + strong }
    pool := { ctx.pool with needCounts := some need } }
  stageAll faults (candidates config voted.pool) voted

/-- The tick of one layer, with the demotion pass at its end when enabled. -/
def tickLayer (sigmoid : ℚ → ℚ) (config : HookConfig) (faults : Faults) (degrade : Bool) (ctx : Ctx)
    (ballot : Ballot) : List Ctx × Ctx :=
  let (visited, staged) := voteAndStage sigmoid config faults ctx ballot
  if degrade then
    let (demoted, final) := phaseB config ballot.flat.flatten staged
    (visited ++ staged :: demoted, final)
  else (visited, staged)

def StashBuffer.drained (buffer : StashBuffer) : StashBuffer :=
  { buffer with
    ids := List.replicate buffer.ids.length (-1)
    scores := List.replicate buffer.scores.length (-1) }

/-- One layer of the loop in `after_forward_hook`. -/
def hookLayer (sigmoid : ℚ → ℚ) (config : HookConfig) (faults : Faults) (state : State) (layer : Nat) :
    HookResult :=
  match state.stash.get? layer, state.ctx? layer with
  | some buffer, some ctx =>
      let ticked := state.withCtx layer ctx.tickUp
      match readBallot config buffer with
      | none => ⟨[], ticked, false⟩
      | some ballot =>
          let consumed := { ticked with stash := ticked.stash.set layer buffer.drained }
          if ballot.Fits ctx.pool.experts then
            let (visited, final) :=
              tickLayer sigmoid config faults (degradeEnabled config state) ctx.tickUp ballot
            ⟨visited.map (consumed.withCtx layer), consumed.withCtx layer final, false⟩
          else ⟨[], consumed, true⟩
  | _, _ => ⟨[], state, false⟩

/-- The loop over the layers; an exception ends the tick. -/
def hookLayers (sigmoid : ℚ → ℚ) (config : HookConfig) (faults : Faults) : List Nat → State → HookResult
  | [], state => ⟨[], state, false⟩
  | layer :: rest, state =>
      let here := hookLayer sigmoid config faults state layer
      if here.raised then here else
      let later := hookLayers sigmoid config faults rest here.final
      { later with visited := here.visited ++ here.final :: later.visited }

/-- The tests a tick makes before it looks at any layer: the state with the
call counted and the dirty flag consumed, and whether the tick goes on. -/
def hookDue (capturing : Bool) (state : State) : State × Bool :=
  if !state.dynamic ∨ capturing then (state, false) else
  let counted := { state with stats := { state.stats with calls := state.stats.calls + 1 } }
  if counted.stats.calls % 8 ≠ 0 then (counted, false) else ({ counted with dirty := false }, counted.dirty)

def afterForwardHook (sigmoid : ℚ → ℚ) (config : HookConfig) (faults : Faults) (capturing : Bool)
    (state : State) : List State × State :=
  let (due, goes) := hookDue capturing state
  if goes then
    let result := hookLayers sigmoid config faults state.layers.keys due
    (result.visited, result.final)
  else ([], due)

end FlashNext.ColdPool
