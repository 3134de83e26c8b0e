import FlashNext.Data.Chunks
import FlashNext.Kv.Layouts
import FlashNext.Machine.Run

namespace FlashNext.Kv

open FlashNext.Data

variable {Cell : Type}

inductive PoolClass where
  | mha
  | pageMajor
  | mxfp8
deriving DecidableEq

/-- `kvCopyConfig` is the `num_locs_upper` of the tiled copy. -/
structure KVPool (Cell : Type) where
  poolClass : PoolClass
  pageSize : Nat
  useHnd : Bool
  useNativeMoveKvCache : Bool
  kvCopyConfig : Option Nat
  kBuffer : List (Buffer Cell)
  vBuffer : List (Buffer Cell)
  kScaleBuffer : Option (List (Buffer Cell))
  vScaleBuffer : Option (List (Buffer Cell))

inductive Fault where
  | kvCopyNotInitialized
  | cpuOffloadUnsupported
  -- `kv_cache_cpu` has no such chunk, or one of another size
  | cpuCopyMismatch
deriving DecidableEq

inductive Component where
  | k | v | kScale | vScale
deriving DecidableEq

namespace KVPool

variable (pool : KVPool Cell) (tgtLoc srcLoc : List Nat)

def component : Component → List (Buffer Cell)
  | .k => pool.kBuffer
  | .v => pool.vBuffer
  | .kScale => pool.kScaleBuffer.getD []
  | .vScale => pool.vScaleBuffer.getD []

def mapKV (change : Buffer Cell → Buffer Cell) : KVPool Cell :=
  { pool with kBuffer := pool.kBuffer.map change, vBuffer := pool.vBuffer.map change }

def mapScales (change : Buffer Cell → Buffer Cell) : KVPool Cell :=
  { pool with kScaleBuffer := pool.kScaleBuffer.map (·.map change), vScaleBuffer := pool.vScaleBuffer.map (·.map change) }

/-- The assignment of rows in a buffer of any layout. -/
def moveRows (pageSize : Nat) (tgtLoc srcLoc : List Nat) (buffer : Buffer Cell) : Buffer Cell :=
  (Buffer.storage pageSize).transfer tgtLoc srcLoc buffer

/-- The buffers behind `data_ptrs`: `_slot_move_pointer_buffers` has the scales, the MXFP8 pool's list has not. -/
def copyAllLayers (copyKernel : Buffer Cell → List Nat → List Nat → Buffer Cell) : KVPool Cell :=
  let change buffer := copyKernel buffer tgtLoc srcLoc
  if pool.poolClass = .mxfp8 then pool.mapKV change else (pool.mapKV change).mapScales change

/-- The chunks of `range(0, N, cap)`. -/
def locChunks (cap : Nat) : List (List Nat × List Nat) :=
  let count := (tgtLoc.length + cap - 1) / cap
  (reshape cap count tgtLoc).zip (reshape cap count srcLoc)

def moveKvCacheImpl (copyKernel : Buffer Cell → List Nat → List Nat → Buffer Cell) : Except Fault (KVPool Cell) :=
  if pool.poolClass = .pageMajor then .ok (pool.mapKV (moveRows pool.pageSize tgtLoc srcLoc))
  else if pool.useNativeMoveKvCache then
    .ok ((pool.mapKV (moveRows 1 tgtLoc srcLoc)).mapScales (moveRows 1 tgtLoc srcLoc))
  else if tgtLoc.length = 0 then .ok pool
  else
    match pool.kvCopyConfig with
    | none => .error .kvCopyNotInitialized
    | some cap =>
        if tgtLoc.length ≤ cap then .ok (pool.copyAllLayers tgtLoc srcLoc copyKernel)
        else .ok ((locChunks tgtLoc srcLoc cap).foldl (fun pool part => pool.copyAllLayers part.1 part.2 copyKernel) pool)

/-- `MHATokenToKVPool.move_kv_cache`. -/
def moveKvCacheBase (copyKernel : Buffer Cell → List Nat → List Nat → Buffer Cell) : Except Fault (KVPool Cell) :=
  if pool.kBuffer.length = 0 then .ok pool
  else if pool.useHnd then .ok (pool.mapKV (moveRows pool.pageSize tgtLoc srcLoc))
  else pool.moveKvCacheImpl tgtLoc srcLoc copyKernel

def moveKvCache (copyKernel : Buffer Cell → List Nat → List Nat → Buffer Cell) : Except Fault (KVPool Cell) :=
  match pool.poolClass with
  | .mha | .pageMajor => pool.moveKvCacheBase tgtLoc srcLoc copyKernel
  | .mxfp8 =>
      let move := moveRows pool.pageSize tgtLoc srcLoc
      if pool.pageSize = 128 then .ok ((pool.mapKV move).mapScales move)
      else (pool.moveKvCacheBase tgtLoc srcLoc copyKernel).map (·.mapScales move)

/-- The rows of one layer at `loc`; quantised ones come with those of their scales. -/
def setKvBuffer (layer : Nat) (loc : List Nat) (rows : Component → List (List Cell)) : KVPool Cell :=
  let store component := (Buffer.storage pool.pageSize).scatter loc (rows component)
  { pool with
    kBuffer := pool.kBuffer.modify layer (store .k)
    vBuffer := pool.vBuffer.modify layer (store .v)
    kScaleBuffer := pool.kScaleBuffer.map (·.modify layer (store .kScale))
    vScaleBuffer := pool.vScaleBuffer.map (·.modify layer (store .vScale)) }

/-- The chunks of `range(0, len(indices), chunk_size)`. -/
def cpuChunks (chunkSize : Nat) (indices : List Nat) : List (List Nat) :=
  reshape chunkSize ((indices.length + chunkSize - 1) / chunkSize) indices

/-- Keys and values, by layers and chunks.  Only the plain pool offloads; its scales, if it has any, stay. -/
def getCpuCopy (chunkSize : Nat) (indices : List Nat) : Except Fault (List (List (List (List Cell) × List (List Cell)))) :=
  if pool.useHnd || pool.poolClass ≠ .mha then .error .cpuOffloadUnsupported
  else
    .ok ((pool.kBuffer.zip pool.vBuffer).map fun layer => (cpuChunks chunkSize indices).map fun chunk =>
      (chunk.map (layer.1.read pool.pageSize), chunk.map (layer.2.read pool.pageSize)))

def loadLayer (pageSize : Nat) : List (List Nat) → List (List (List Cell) × List (List Cell)) → Buffer Cell × Buffer Cell →
    Except Fault (Buffer Cell × Buffer Cell)
  | [], _, layer => .ok layer
  | _ :: _, [], _ => .error .cpuCopyMismatch
  | chunk :: rest, (kCpu, vCpu) :: later, (k, v) =>
      if kCpu.length = chunk.length ∧ vCpu.length = chunk.length then
        loadLayer pageSize rest later
          ((Buffer.storage pageSize).scatter chunk kCpu k, (Buffer.storage pageSize).scatter chunk vCpu v)
      else .error .cpuCopyMismatch

def loadLayers (pageSize : Nat) (chunks : List (List Nat)) : List (Buffer Cell × Buffer Cell) →
    List (List (List (List Cell) × List (List Cell))) → Except Fault (List (Buffer Cell × Buffer Cell))
  | [], _ => .ok []
  | _ :: _, [] => .error .cpuCopyMismatch
  | layer :: rest, payload :: later => do
      let loaded ← loadLayer pageSize chunks payload layer
      let others ← loadLayers pageSize chunks rest later
      return loaded :: others

def loadCpuCopy (chunkSize : Nat) (kvCacheCpu : List (List (List (List Cell) × List (List Cell)))) (indices : List Nat) :
    Except Fault (KVPool Cell) :=
  if pool.useHnd || pool.poolClass ≠ .mha then .error .cpuOffloadUnsupported
  else
    (loadLayers pool.pageSize (cpuChunks chunkSize indices) (pool.kBuffer.zip pool.vBuffer) kvCacheCpu).map fun layers =>
      { pool with kBuffer := layers.map Prod.fst, vBuffer := layers.map Prod.snd }

end KVPool

end FlashNext.Kv
