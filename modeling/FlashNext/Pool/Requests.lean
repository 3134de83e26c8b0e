import FlashNext.Data.Ledger

namespace FlashNext.Pool

open FlashNext.Data

/-- A request, as far as the pools read and write it. -/
structure Req where
  reqPoolIdx : Option Nat
  inflightMiddleChunks : Nat
  kvCommittedLen : Nat
  mambaPoolIdx : Option Int
  mambaNeedsClear : Bool
  mambaPingPongTrackBuffer : Option (List Int)
  mambaNextTrackIdx : Option Nat
  mambaLastTrackIdx : Option Nat
deriving DecidableEq

/-- The assertions that can fail, and the reads that raise. -/
inductive Fault where
  | reusedWithoutHistory
  | noReqPoolIdx
  | noMambaSlot
  | noPingPongSlot
  | doubleFree
  | keepOutOfRange
  | keepOfSingle
  | noTrackBuffer
  | emptyBatch
deriving DecidableEq

structure ReqToTokenPool where
  size : Nat
  freeSlots : List Nat
  reqGeneration : List Nat
deriving DecidableEq

namespace ReqToTokenPool

/-- Row 0 is padding. -/
def init (size : Nat) : ReqToTokenPool where
  size
  freeSlots := List.range' 1 size
  reqGeneration := List.replicate (size + 1) 0

def availableSize (pool : ReqToTokenPool) : Nat := pool.freeSlots.length

/-- The loop over the batch; `offset` moves along the selected rows. -/
def assign : List Req → List Nat → List Nat → List Req × List Nat
  | [], _, generation => ([], generation)
  | req :: rest, selected, generation =>
      match req.reqPoolIdx, selected with
      | none, row :: later =>
          let left := assign rest later (generation.modify row (· + 1))
          ({ req with reqPoolIdx := some row } :: left.1, left.2)
      | _, selected =>
          let left := assign rest selected generation
          (req :: left.1, left.2)

/-- `none` where the pool refuses.  New rows are popped from the tail. -/
def alloc (pool : ReqToTokenPool) (reqs : List Req) :
    Except Fault (Option (List Nat × ReqToTokenPool × List Req)) :=
  let reusing := reqs.filter (·.reqPoolIdx.isSome)
  if reusing.all fun req => 0 < req.inflightMiddleChunks || 0 < req.kvCommittedLen then
    let needSize := reqs.length - reusing.length
    if needSize > pool.freeSlots.length then .ok none
    else
      let kept := pool.freeSlots.length - needSize
      let left := assign reqs (pool.freeSlots.drop kept) pool.reqGeneration
      .ok (some (left.1.filterMap (·.reqPoolIdx),
        { pool with freeSlots := pool.freeSlots.take kept, reqGeneration := left.2 }, left.1))
  else .error .reusedWithoutHistory

def free (pool : ReqToTokenPool) (req : Req) : Except Fault (ReqToTokenPool × Req) :=
  match req.reqPoolIdx with
  | none => .error .noReqPoolIdx
  | some row => .ok ({ pool with freeSlots := pool.freeSlots ++ [row] }, { req with reqPoolIdx := none })

def clear (pool : ReqToTokenPool) : ReqToTokenPool where
  size := pool.size
  freeSlots := List.range' 1 pool.size
  reqGeneration := pool.reqGeneration.map fun _ => 0

end ReqToTokenPool

/-- What the pools use of `MambaSlotAllocator`; `Slots` is its own state. -/
structure MambaSlotAllocator (Slots : Type) where
  init : Nat → Slots
  alloc : Slots → Nat → Option (List Int) × Slots
  free : Slots → List Int → Slots
  clear : Slots → Slots

/-- The ReplaySSM cursors of a mamba pool; absent ones are disabled. -/
structure ReplayCursors where
  writePos : Option (List Nat)
  cacheBase : Option (List Nat × List Nat)
deriving DecidableEq

/-- An empty ring, with its origin and its flush flag. -/
def ReplayCursors.reset (cursors : ReplayCursors) (slot : Int) : ReplayCursors where
  writePos := cursors.writePos.map fun position => position.set slot.toNat 0
  cacheBase := cursors.cacheBase.map fun ring => (ring.1.set slot.toNat 0, ring.2.set slot.toNat 0)

structure HybridReqToTokenPool (Slots : Type) where
  base : ReqToTokenPool
  mambaPingPongTrackBufferSize : Nat
  enableMambaExtraBuffer : Bool
  enableMambaExtraBufferLazy : Bool
  mambaAllocator : Slots
  replaySSM : ReplayCursors
  reqIndexToMambaIndexMapping : List Int
  reqIndexToMambaPingPongTrackBufferMapping : List (List Int)

/-- What a call leaves behind.  A failed assertion keeps what was done before it. -/
structure Left (Slots : Type) where
  fault : Option Fault
  pool : HybridReqToTokenPool Slots
  req : Req

inductive Answer where
  | refused
  | raised (fault : Fault)
  | indices (rows : List Nat)
deriving DecidableEq

namespace HybridReqToTokenPool

variable {Slots : Type} (allocator : MambaSlotAllocator Slots) (pool : HybridReqToTokenPool Slots)

def init (size mambaSize : Nat) (enableMambaExtraBuffer enableMambaExtraBufferLazy enableOverlapSchedule : Bool)
    (replaySSM : ReplayCursors) : HybridReqToTokenPool Slots :=
  let trackBufferSize := if enableOverlapSchedule then 2 else 1
  { base := .init size
    mambaPingPongTrackBufferSize := trackBufferSize
    enableMambaExtraBuffer, enableMambaExtraBufferLazy, replaySSM
    mambaAllocator := allocator.init mambaSize
    reqIndexToMambaIndexMapping := List.replicate (size + 1) 0
    reqIndexToMambaPingPongTrackBufferMapping := List.replicate (size + 1) (List.replicate trackBufferSize 0) }

def getMambaPingPongOtherIdx (nextTrackIdx : Nat) : Nat :=
  if pool.mambaPingPongTrackBufferSize = 2 then 1 - nextTrackIdx else nextTrackIdx

/-- A request keeps the slot it has, from the radix cache or an earlier chunk. -/
def allocMambaSlot (req : Req) : Left Slots :=
  match req.mambaPoolIdx with
  | some _ => ⟨none, pool, req⟩
  | none =>
      match allocator.alloc pool.mambaAllocator 1 with
      | (some (slot :: _), slots) =>
          ⟨none, { pool with mambaAllocator := slots, replaySSM := pool.replaySSM.reset slot },
            { req with mambaPoolIdx := some slot, mambaNeedsClear := true }⟩
      | (_, slots) => ⟨some .noMambaSlot, { pool with mambaAllocator := slots }, req⟩

/-- Lazily one slot, the other on demand; else all of them. -/
def allocPingPongBuffer (req : Req) : Left Slots :=
  let n := if pool.enableMambaExtraBufferLazy then 1 else pool.mambaPingPongTrackBufferSize
  match allocator.alloc pool.mambaAllocator n with
  | (some slots, rest) =>
      ⟨none, { pool with mambaAllocator := rest },
        { req with
          mambaPingPongTrackBuffer := some (slots ++ List.replicate (pool.mambaPingPongTrackBufferSize - n) (-1))
          mambaNextTrackIdx := some 0
          mambaLastTrackIdx := some (if pool.enableMambaExtraBufferLazy then 0 else pool.getMambaPingPongOtherIdx 0) }⟩
  | (none, rest) => ⟨some .noPingPongSlot, { pool with mambaAllocator := rest }, req⟩

def allocFor (req : Req) : Left Slots :=
  let left := allocMambaSlot allocator pool req
  if left.fault = none ∧ left.pool.enableMambaExtraBuffer ∧ left.req.mambaPingPongTrackBuffer = none then
    allocPingPongBuffer allocator left.pool left.req
  else left

/-- The loop over the batch, up to a failed assertion. -/
def allocEach : HybridReqToTokenPool Slots → List Req → Option Fault × HybridReqToTokenPool Slots × List Req
  | pool, [] => (none, pool, [])
  | pool, req :: rest =>
      let left := allocFor allocator pool req
      match left.fault with
      | some fault => (some fault, left.pool, left.req :: rest)
      | none =>
          let later := allocEach left.pool rest
          (later.1, later.2.1, left.req :: later.2.2)

/-- `req_index_to_mamba_index_mapping[select_index] = ...`, and the track buffers. -/
def register (rows : List Nat) (reqs : List Req) : HybridReqToTokenPool Slots :=
  { pool with
    reqIndexToMambaIndexMapping :=
      putSlots rows (reqs.filterMap (·.mambaPoolIdx)) pool.reqIndexToMambaIndexMapping
    reqIndexToMambaPingPongTrackBufferMapping :=
      if pool.enableMambaExtraBuffer then
        putSlots rows (reqs.filterMap (·.mambaPingPongTrackBuffer)) pool.reqIndexToMambaPingPongTrackBufferMapping
      else pool.reqIndexToMambaPingPongTrackBufferMapping }

/-- `torch.stack` raises on the slots of an empty batch. -/
def alloc (reqs : List Req) : Answer × HybridReqToTokenPool Slots × List Req :=
  match pool.base.alloc reqs with
  | .error fault => (.raised fault, pool, reqs)
  | .ok none => (.refused, pool, reqs)
  | .ok (some (selectIndex, base, reqs)) =>
      match allocEach allocator { pool with base } reqs with
      | (some fault, pool, reqs) => (.raised fault, pool, reqs)
      | (none, pool, []) => (.raised .emptyBatch, pool, [])
      | (none, pool, reqs) => (.indices selectIndex, pool.register selectIndex reqs, reqs)

def free (req : Req) : Left Slots :=
  match pool.base.free req with
  | .error fault => ⟨some fault, pool, req⟩
  | .ok (base, req) => ⟨none, { pool with base }, req⟩

def getMambaIndices (reqIndices : List Nat) : List Int := takeSlots reqIndices pool.reqIndexToMambaIndexMapping

/-- The request has the authoritative buffer; the mapping follows it. -/
def setMambaPingPongSlot (req : Req) (idx : Nat) (value : Int) : Left Slots :=
  match req.mambaPingPongTrackBuffer, req.reqPoolIdx with
  | some buffer, some row =>
      if idx < buffer.length then
        ⟨none,
          { pool with
            reqIndexToMambaPingPongTrackBufferMapping :=
              pool.reqIndexToMambaPingPongTrackBufferMapping.set row (buffer.set idx value) },
          { req with mambaPingPongTrackBuffer := some (buffer.set idx value) }⟩
      else ⟨some .noTrackBuffer, pool, req⟩
  | none, _ => ⟨some .noTrackBuffer, pool, req⟩
  | some _, none => ⟨some .noReqPoolIdx, pool, req⟩

def getMambaPingPongKeepIdx (req : Req) : Option Nat := req.mambaLastTrackIdx

/-- The donated slot, which `newSlot` replaces. -/
def donateMambaPingPongSlot (req : Req) (newSlot : Int) : Option Int × Left Slots :=
  match getMambaPingPongKeepIdx req, req.mambaPingPongTrackBuffer with
  | some donateIdx, some buffer => (buffer[donateIdx]?, pool.setMambaPingPongSlot req donateIdx newSlot)
  | _, _ => (none, ⟨some .noTrackBuffer, pool, req⟩)

/-- The slots that remain of a row when one position is kept. -/
def trackBufferToFree (row : List Int) : Option Nat → Except Fault (List Int)
  | none => .ok row
  | some keep =>
      if keep = 0 ∨ keep = 1 then
        if pool.mambaPingPongTrackBufferSize = 2 then .ok ((row.drop (1 - keep)).take 1)
        else if keep = 0 then .ok []
        else .error .keepOfSingle
      else .error .keepOutOfRange

/-- The track buffer is read back from the device mapping. -/
def freeMambaCache (req : Req) (keep : Option Nat) : Left Slots :=
  match req.mambaPoolIdx with
  | none => ⟨some .doubleFree, pool, req⟩
  | some slot =>
      let pool := { pool with mambaAllocator := allocator.free pool.mambaAllocator [slot] }
      let req := { req with mambaPoolIdx := none }
      if pool.enableMambaExtraBuffer then
        match req.reqPoolIdx.bind fun row => pool.reqIndexToMambaPingPongTrackBufferMapping[row]? with
        | none => ⟨some .noReqPoolIdx, pool, req⟩
        | some row =>
            match pool.trackBufferToFree row keep with
            | .error fault => ⟨some fault, pool, req⟩
            | .ok toFree =>
                let toFree := if pool.enableMambaExtraBufferLazy then toFree.filter (· ≠ -1) else toFree
                ⟨none, { pool with mambaAllocator := allocator.free pool.mambaAllocator toFree },
                  { req with
                    mambaPingPongTrackBuffer := none, mambaNextTrackIdx := none, mambaLastTrackIdx := none }⟩
      else ⟨none, pool, req⟩

def clear : HybridReqToTokenPool Slots :=
  { pool with
    base := pool.base.clear
    mambaAllocator := allocator.clear pool.mambaAllocator
    reqIndexToMambaIndexMapping := pool.reqIndexToMambaIndexMapping.map fun _ => 0
    reqIndexToMambaPingPongTrackBufferMapping :=
      if pool.enableMambaExtraBuffer then
        pool.reqIndexToMambaPingPongTrackBufferMapping.map (·.map fun _ => 0)
      else pool.reqIndexToMambaPingPongTrackBufferMapping }

end HybridReqToTokenPool

end FlashNext.Pool
