import FlashNext.Data.Slots

namespace FlashNext.Mamba

open FlashNext.Data

/-- The tensor arithmetic that takes part: conversions to single precision, to
the format of the quantised state, to that of the stored scales, to that of the
restored state and to bytes, and the operations between them. -/
structure Arithmetic (Value : Type) where
  toFloat32 : Value → Value
  toState : Value → Value
  toScale : Value → Value
  toOut : Value → Value
  toInt8 : Value → Int
  ofInt : Int → Value
  abs : Value → Value
  max : Value → Value → Value
  min : Value → Value → Value
  div : Value → Value → Value
  mul : Value → Value → Value
  round : Value → Value
  tiny : Value

variable {Value Row Slots : Type}

/-- The temporal state of one layer and slot, `[H, d_v, d_k]`. -/
abbrev TemporalState (Value : Type) := List (List (List Value))

/-- `[H, d_v, d_k]` codes with `[H, 1, d_k]` scales. -/
abbrev Codes := List (List (List Int))

abbrev Scales (Value : Type) := List (List Value)

section Quantisation

variable (arith : Arithmetic Value)

def qmax : Int := 127

/-- `abs().amax(dim=-2)` of one head. -/
def amax : List (List Value) → List Value
  | [] => []
  | first :: rest =>
      rest.foldl (fun most row => List.zipWith arith.max most (row.map arith.abs)) (first.map arith.abs)

def scaleRow (head : List (List Value)) : List Value :=
  (amax arith (head.map (·.map arith.toFloat32))).map fun most =>
    arith.toState (arith.div (arith.max most arith.tiny) (arith.ofInt qmax))

def code (value scale : Value) : Int :=
  let ratio := arith.round (arith.div (arith.toFloat32 value) (arith.toFloat32 scale))
  arith.toInt8 (arith.min (arith.max ratio (arith.ofInt (-qmax))) (arith.ofInt qmax))

def quantize (state : TemporalState Value) : Codes × Scales Value :=
  (state.map fun head => head.map fun row => List.zipWith (code arith) row (scaleRow arith head),
    state.map (scaleRow arith))

def dequantize (codes : Codes) (scales : Scales Value) : TemporalState Value :=
  List.zipWith (fun head scale => head.map fun row => List.zipWith (fun code scale =>
    arith.toOut (arith.mul (arith.ofInt code) (arith.toFloat32 scale))) row scale) codes scales

/-- `scale.to(self.scale.dtype)`. -/
def storedScales (scales : Scales Value) : Scales Value := scales.map (·.map arith.toScale)

end Quantisation

/-- Layer-major codes and scales. -/
structure Int8CheckpointStore (Value : Type) where
  qdata : List (List Codes)
  scale : List (List (Scales Value))

namespace Int8CheckpointStore

variable (arith : Arithmetic Value) (checkpoints : Int8CheckpointStore Value)

def store (slots : List Nat) (state : List (List (TemporalState Value))) : Int8CheckpointStore Value where
  qdata := putColumns slots (state.map (·.map fun row => (quantize arith row).1)) checkpoints.qdata
  scale := putColumns slots (state.map (·.map fun row => storedScales arith (quantize arith row).2)) checkpoints.scale

def load (slots : List Nat) : List (List (TemporalState Value)) :=
  List.zipWith (List.zipWith (dequantize arith)) (takeColumns slots checkpoints.qdata) (takeColumns slots checkpoints.scale)

def copyToPool (dstTemporal : List (List (TemporalState Value))) (srcSlots dstSlots : List Nat) :
    List (List (TemporalState Value)) :=
  putColumns dstSlots (checkpoints.load arith srcSlots) dstTemporal

def storeFromPool (srcTemporal : List (List (TemporalState Value))) (srcSlots dstSlots : List Nat) :
    Int8CheckpointStore Value :=
  checkpoints.store arith dstSlots (takeColumns srcSlots srcTemporal)

end Int8CheckpointStore

/-- `torch.empty` over layers and slots; slot 0 is reserved. -/
def emptyTensor {α : Type} (numLayers numSlots : Nat) (memory : Nat → Nat → α) : List (List α) :=
  (List.range numLayers).map fun layer => (List.range (numSlots + 1)).map (memory layer)

/-- A `SlotIndexedState`: short-conv states have a `conv_state`, n-gram states
a `context`, a disabled one neither. -/
structure SideState (Row : Type) where
  convState : Option (List (List Row))
  context : Option (List Row)

/-- A tensor with its slot axis. -/
inductive Source (Row : Type) where
  | layerMajor (tensor : List (List Row))
  | slotMajor (rows : List Row)

def pleSource (side : SideState Row) : Option (Source Row) :=
  match side.convState with
  | some tensor => some (.layerMajor tensor)
  | none => side.context.map .slotMajor

namespace Source

def layers : Source Row → List (List Row)
  | layerMajor tensor => tensor
  | slotMajor rows => [rows]

/-- The assignment to a mirror, or back, along the axis of the mirror. -/
def assign (targets sources : List Nat) : Source Row → Source Row → Source Row
  | layerMajor into, layerMajor from_ => layerMajor (putColumns targets (takeColumns sources from_) into)
  | slotMajor into, slotMajor from_ => slotMajor (putSlots targets (takeSlots sources from_) into)
  | into, _ => into

/-- `torch.empty` in the shape of a source, with `numSlots + 1` slots. -/
def mirror (numSlots : Nat) (memory : Nat → Nat → Row) : Source Row → Source Row
  | layerMajor tensor => layerMajor (emptyTensor tensor.length numSlots memory)
  | slotMajor _ => slotMajor ((List.range (numSlots + 1)).map (memory 0))

end Source

/-- The side state with the tensor of a source put in its place. -/
def SideState.write (side : SideState Row) : Source Row → SideState Row
  | .layerMajor tensor => { side with convState := some tensor }
  | .slotMajor rows => { side with context := some rows }

/-- The turn of one mirror in `store_from_active`. -/
def storeMirror (activeSlots ckptSlots : List Nat) (mirror : Option (Source Row)) (side : SideState Row) :
    Option (Source Row) :=
  mirror.map fun mirror =>
    match pleSource side with
    | none => mirror
    | some source => mirror.assign ckptSlots activeSlots source

/-- The turn of one mirror in `load_to_active`. -/
def loadMirror (ckptSlots activeSlots : List Nat) (mirror : Option (Source Row)) (side : SideState Row) :
    SideState Row :=
  match mirror, pleSource side with
  | some mirror, some source => side.write (source.assign activeSlots ckptSlots mirror)
  | _, _ => side

/-- `MambaPool.mamba_cache` and the PLE side states, for the running requests. -/
structure ActivePool (Value Row : Type) where
  temporal : List (List (TemporalState Value))
  conv : List (List (List Row))
  sides : List (SideState Row)

structure SlotAllocator (Slots : Type) where
  init : Nat → Slots
  alloc : Slots → Nat → Option (List Nat) × Slots
  free : Slots → List Nat → Slots
  availableSize : Slots → Nat
  clear : Slots → Slots

/-- The pool; a mirror stands at the place of its side state. -/
structure MambaCheckpointPool (Value Row Slots : Type) where
  numSlots : Nat
  temporal : Int8CheckpointStore Value
  conv : List (List (List Row))
  allocator : Slots
  pleMirrors : List (Option (Source Row))

/-- What memory holds before it is written. -/
structure Uninitialised (Value Row : Type) where
  codes : Nat → Nat → Codes
  scales : Nat → Nat → Scales Value
  conv : Nat → List Nat → Nat → Nat → Row
  mirrors : Nat → Nat → Nat → Row

namespace MambaCheckpointPool

def init (allocator : SlotAllocator Slots) (memory : Uninitialised Value Row) (numLayers numSlots : Nat)
    (convShapes : List (List Nat)) (pleSideStates : List (SideState Row)) : MambaCheckpointPool Value Row Slots where
  numSlots := numSlots
  temporal := ⟨emptyTensor numLayers numSlots memory.codes, emptyTensor numLayers numSlots memory.scales⟩
  conv := convShapes.mapIdx fun index shape => emptyTensor numLayers numSlots (memory.conv index shape)
  allocator := allocator.init numSlots
  pleMirrors := pleSideStates.mapIdx fun index side =>
    (pleSource side).map (Source.mirror numSlots (memory.mirrors index))

def alloc (slots : SlotAllocator Slots) (pool : MambaCheckpointPool Value Row Slots) (n : Nat) :
    Option (List Nat) × MambaCheckpointPool Value Row Slots :=
  let (given, allocator) := slots.alloc pool.allocator n
  (given, { pool with allocator })

def free (slots : SlotAllocator Slots) (pool : MambaCheckpointPool Value Row Slots) (freed : List Nat) :
    MambaCheckpointPool Value Row Slots := { pool with allocator := slots.free pool.allocator freed }

def availableSize (slots : SlotAllocator Slots) (pool : MambaCheckpointPool Value Row Slots) : Nat :=
  slots.availableSize pool.allocator

/-- Codes, scales and mirrors survive it. -/
def clear (slots : SlotAllocator Slots) (pool : MambaCheckpointPool Value Row Slots) :
    MambaCheckpointPool Value Row Slots := { pool with allocator := slots.clear pool.allocator }

def storeFromActive (arith : Arithmetic Value) (pool : MambaCheckpointPool Value Row Slots) (active : ActivePool Value Row)
    (activeSlots ckptSlots : List Nat) : MambaCheckpointPool Value Row Slots :=
  { pool with
    temporal := pool.temporal.storeFromPool arith active.temporal activeSlots ckptSlots
    conv := List.zipWith (fun into from_ => putColumns ckptSlots (takeColumns activeSlots from_) into)
      pool.conv active.conv
    pleMirrors := List.zipWith (storeMirror activeSlots ckptSlots) pool.pleMirrors active.sides }

def loadToActive (arith : Arithmetic Value) (pool : MambaCheckpointPool Value Row Slots) (active : ActivePool Value Row)
    (ckptSlots activeSlots : List Nat) : ActivePool Value Row where
  temporal := pool.temporal.copyToPool arith active.temporal ckptSlots activeSlots
  conv := List.zipWith (fun from_ into => putColumns activeSlots (takeColumns ckptSlots from_) into)
    pool.conv active.conv
  sides := List.zipWith (loadMirror ckptSlots activeSlots) pool.pleMirrors active.sides

end MambaCheckpointPool

end FlashNext.Mamba
