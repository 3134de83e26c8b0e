import FlashNext.Data.Assign
import FlashNext.Machine.Run
import FlashNext.Mamba.Transfers
import FlashNext.Pool.Requests

namespace FlashNext.Pool

open FlashNext.Data

variable {Conv Temporal State Saved Row : Type}

/-- What the pool calls from elsewhere: a registered side state and the fused
kernels; zero rows stand with them. -/
structure Backend (Conv Temporal State Saved : Type) where
  zeroConv : Conv
  zeroTemporal : Temporal
  resetSlots : State → List Nat → State
  copySlots : State → List Nat → List Nat → State
  getCpuSlots : State → List Nat → Saved
  loadCpuSlots : State → Saved → List Nat → State
  fusedClearConvSlots : List (List (List Conv)) → List Nat → List (List (List Conv))
  fusedCopyConvSlots : List (List (List Conv)) → List Nat → List Nat → List (List (List Conv))

structure MambaPool (Conv Temporal State : Type) where
  conv : List (List (List Conv))
  temporal : List (List Temporal)
  replaySSM : ReplayCursors
  slotSiblings : List State
  shouldFuseSlotOps : Bool

/-- An element of the tuple that is kept on the host. -/
inductive Part (Conv Temporal Saved : Type) where
  | conv (tensors : List (List (List Conv)))
  | temporal (tensor : List (List Temporal))
  | cursors (writePos cacheBase isFlush : List Nat)
  | siblings (saved : List Saved)

/-- `tensor[:, indices] = value`. -/
def fillColumns {α : Type} (indices : List Nat) (value : α) (tensor : List (List α)) : List (List α) :=
  putColumns indices (tensor.map fun _ => List.replicate indices.length value) tensor

/-- `tensor[:, targets] = tensor[:, sources]`. -/
def copyColumns {α : Type} (sources targets : List Nat) (tensor : List (List α)) : List (List α) :=
  putColumns targets (takeColumns sources tensor) tensor

def ReplayCursors.resetAll (cursors : ReplayCursors) (slots : List Nat) : ReplayCursors :=
  let zero := putSlots slots (List.replicate slots.length 0)
  ⟨cursors.writePos.map zero, cursors.cacheBase.map fun ring => (zero ring.1, zero ring.2)⟩

namespace MambaPool

variable (backend : Backend Conv Temporal State Saved) (pool : MambaPool Conv Temporal State)

def clearSlots (indices : List Nat) : MambaPool Conv Temporal State :=
  { pool with
    slotSiblings := pool.slotSiblings.map fun sibling => backend.resetSlots sibling indices
    conv :=
      if pool.shouldFuseSlotOps then backend.fusedClearConvSlots pool.conv indices
      else pool.conv.map (fillColumns indices backend.zeroConv)
    temporal := fillColumns indices backend.zeroTemporal pool.temporal }

def copyFrom (srcIndices dstIndices : List Nat) : MambaPool Conv Temporal State :=
  { pool with
    conv :=
      if pool.shouldFuseSlotOps then backend.fusedCopyConvSlots pool.conv srcIndices dstIndices
      else pool.conv.map (copyColumns srcIndices dstIndices)
    temporal := copyColumns srcIndices dstIndices pool.temporal
    replaySSM := pool.replaySSM.resetAll dstIndices
    slotSiblings := pool.slotSiblings.map fun sibling => backend.copySlots sibling srcIndices dstIndices }

/-- The cursors travel only with the ring of speculative verification, the
siblings only if there are any. -/
def getCpuCopy (indices : List Nat) : List (Part Conv Temporal Saved) :=
  [.conv (pool.conv.map (takeColumns indices)), .temporal (takeColumns indices pool.temporal)] ++
    (match pool.replaySSM.writePos, pool.replaySSM.cacheBase with
      | some writePos, some (cacheBase, isFlush) =>
          [.cursors (takeSlots indices writePos) (takeSlots indices cacheBase) (takeSlots indices isFlush)]
      | _, _ => []) ++
    if pool.slotSiblings.isEmpty then []
    else [.siblings (pool.slotSiblings.map fun sibling => backend.getCpuSlots sibling indices)]

def restoreCursors (cursors : ReplayCursors) (indices writePos cacheBase isFlush : List Nat) : ReplayCursors :=
  match cursors.cacheBase with
  | none => cursors
  | some (base, flush) =>
      ⟨cursors.writePos.map (putSlots indices writePos), some (putSlots indices cacheBase base, putSlots indices isFlush flush)⟩

/-- `none` where the tuple does not unpack. -/
def loadCpuCopy (payload : List (Part Conv Temporal Saved)) (indices : List Nat) :
    Option (MambaPool Conv Temporal State) :=
  let siblingsCpu := if pool.slotSiblings.isEmpty then none else payload.getLast?
  let rest := if pool.slotSiblings.isEmpty then payload else payload.dropLast
  let load (conv : List (List (List Conv))) (temporal : List (List Temporal)) (replaySSM : ReplayCursors)
      (slotSiblings : List State) : MambaPool Conv Temporal State :=
    { pool with
      conv := List.zipWith (fun tensor columns => putColumns indices columns tensor) pool.conv conv
      temporal := putColumns indices temporal pool.temporal
      replaySSM, slotSiblings }
  let siblings : Option (List State) := match siblingsCpu with
    | none => some pool.slotSiblings
    | some (.siblings saved) =>
        some (List.zipWith (fun sibling data => backend.loadCpuSlots sibling data indices) pool.slotSiblings saved)
    | some _ => none
  siblings.bind fun siblings =>
    match rest with
    | [.conv conv, .temporal temporal, .cursors writePos cacheBase isFlush] =>
        some (load conv temporal (restoreCursors pool.replaySSM indices writePos cacheBase isFlush) siblings)
    | [.conv conv, .temporal temporal] => some (load conv temporal pool.replaySSM siblings)
    | _ => none

end MambaPool

structure ForwardMode where
  isExtend : Bool
  isTargetVerify : Bool
  isDraftExtendV2 : Bool
deriving DecidableEq

structure ForwardBatch where
  forwardMode : ForwardMode
  mambaClearIndices : Option (List Nat)
  mambaCowSrcIndices : Option (List Nat)
  mambaCowDstIndices : Option (List Nat)
deriving DecidableEq

section Deferred

open Mamba

variable {Value Slots : Type} (backend : Backend Row (TemporalState Value) (SideState Row) Saved) (arith : Arithmetic Value)

/-- The pool as a checkpoint pool sees it. -/
def MambaPool.active (pool : MambaPool Row (TemporalState Value) (SideState Row)) : ActivePool Value Row :=
  ⟨pool.temporal, pool.conv, pool.slotSiblings⟩

def MambaPool.withActive (pool : MambaPool Row (TemporalState Value) (SideState Row)) (active : ActivePool Value Row) :
    MambaPool Row (TemporalState Value) (SideState Row) :=
  { pool with temporal := active.temporal, conv := active.conv, slotSiblings := active.sides }

/-- Slots are physical here, so that translation is the identity. -/
def cowFrom (ckptPool : Option (MambaCheckpointPool Value Row Slots)) (src dst : List Nat)
    (pool : MambaPool Row (TemporalState Value) (SideState Row)) : MambaPool Row (TemporalState Value) (SideState Row) :=
  match ckptPool with
  | some ckpt => pool.withActive (ckpt.loadToActive arith pool.active src dst)
  | none => pool.copyFrom backend src dst

def deferredClear (indices : Option (List Nat)) (pool : MambaPool Row (TemporalState Value) (SideState Row)) :
    MambaPool Row (TemporalState Value) (SideState Row) :=
  match indices with
  | some (first :: rest) => pool.clearSlots backend (first :: rest)
  | _ => pool

def deferredCow (ckptPool : Option (MambaCheckpointPool Value Row Slots)) (src dst : Option (List Nat))
    (pool : MambaPool Row (TemporalState Value) (SideState Row)) : MambaPool Row (TemporalState Value) (SideState Row) :=
  match src with
  | some (first :: rest) => cowFrom backend arith ckptPool (first :: rest) (dst.getD []) pool
  | _ => pool

/-- `_maybe_execute_deferred_mamba_cow_and_clear` of a hybrid pool. -/
def maybeExecuteDeferredMambaCowAndClear (isDraftWorker : Bool) (ckptPool : Option (MambaCheckpointPool Value Row Slots))
    (pool : MambaPool Row (TemporalState Value) (SideState Row)) (batch : ForwardBatch) :
    MambaPool Row (TemporalState Value) (SideState Row) × ForwardBatch :=
  let mode := batch.forwardMode
  if isDraftWorker || !mode.isExtend || mode.isTargetVerify || mode.isDraftExtendV2 then (pool, batch)
  else
    let cleared := deferredClear backend batch.mambaClearIndices pool
    (deferredCow backend arith ckptPool batch.mambaCowSrcIndices batch.mambaCowDstIndices cleared, { batch with mambaClearIndices := none, mambaCowSrcIndices := none, mambaCowDstIndices := none })

end Deferred

end FlashNext.Pool
