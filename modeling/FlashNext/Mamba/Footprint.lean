import Mathlib.Algebra.GroupWithZero.Nat
import Mathlib.Data.List.Basic
import Mathlib.Tactic.Ring

namespace FlashNext.Mamba

/-! `maybe_init_int8_mamba_checkpoint_pool` compares an estimate with the free
memory before it constructs the pool.  Here the pool is the shapes and element
sizes of its tensors. -/

structure Tensor where
  shape : List Nat
  elementSize : Nat
deriving DecidableEq, Repr

/-- `n = 1` and `n *= size` for each size. -/
def product (sizes : List Nat) : Nat := sizes.foldl (· * ·) 1

def Tensor.numel (tensor : Tensor) : Nat := product tensor.shape

def Tensor.bytes (tensor : Tensor) : Nat := tensor.numel * tensor.elementSize

/-- What a `SlotIndexedState` has of its tensors. -/
structure SideTensors where
  convState : Option Tensor
  context : Option Tensor

/-- `_ple_source`: the main tensor with its slot axis. -/
def pleTensor (side : SideTensors) : Option (Tensor × Nat) :=
  match side.convState with
  | some tensor => some (tensor, 1)
  | none => side.context.map fun tensor => (tensor, 0)

/-- What the estimate and the constructor are both given. -/
structure PoolParams where
  numLayers : Nat
  numSlots : Nat
  numHeads : Nat
  headVDim : Nat
  headKDim : Nat
  convShapes : List (List Nat)
  convSize : Nat
  temporalSize : Nat

structure PoolTensors where
  qdata : Tensor
  scale : Tensor
  conv : List Tensor
  pleMirrors : List Tensor
deriving DecidableEq, Repr

/-- `indexError` is a tensor without its slot axis. -/
inductive PoolError where
  | indexError
  | noMemory (total free ckptSize : Nat)
deriving DecidableEq, Repr

def PoolError.message (gigabytes : Nat → String) : PoolError → Option String
  | .indexError => none
  | .noMemory total free ckptSize =>
      some ("int8 mamba checkpoint pool needs ~" ++ gigabytes total ++ "GB but only " ++ gigabytes free ++
        "GB HBM is free. Lower --int8-mamba-ckpt-size (currently " ++ toString ckptSize ++
        ") or --mem-fraction-static.")

/-- The mirrors of the side states that have a tensor. -/
def pleMirrorTensors (numSlots : Nat) : List SideTensors → Except PoolError (List Tensor)
  | [] => .ok []
  | side :: rest =>
      match pleTensor side with
      | none => pleMirrorTensors numSlots rest
      | some (tensor, axis) =>
          if axis < tensor.shape.length then
            (pleMirrorTensors numSlots rest).map
              ({ tensor with shape := tensor.shape.set axis (numSlots + 1) } :: ·)
          else .error .indexError

/-- The tensors that `MambaCheckpointPool.__init__` allocates. -/
def poolTensors (params : PoolParams) (sides : List SideTensors) : Except PoolError PoolTensors :=
  let slots := params.numSlots + 1
  (pleMirrorTensors params.numSlots sides).map fun mirrors => {
    qdata := ⟨[params.numLayers, slots, params.numHeads, params.headVDim, params.headKDim], 1⟩
    scale := ⟨[params.numLayers, slots, params.numHeads, 1, params.headKDim], params.temporalSize⟩
    conv := params.convShapes.map fun shape => ⟨params.numLayers :: slots :: shape, params.convSize⟩
    pleMirrors := mirrors }

def PoolTensors.memUsageBytes (pool : PoolTensors) : Nat :=
  pool.qdata.bytes + pool.scale.bytes + (pool.conv.map Tensor.bytes).sum + (pool.pleMirrors.map Tensor.bytes).sum

structure Estimate where
  qdata : Nat
  scale : Nat
  conv : Nat
  ple : Nat
  total : Nat

def estimateMemUsageBytes (params : PoolParams) (pleExtraBytes : Nat) : Estimate :=
  let slots := params.numSlots + 1
  let qdata := params.numLayers * slots * params.numHeads * params.headVDim * params.headKDim
  let scale := params.numLayers * slots * params.numHeads * params.headKDim * params.temporalSize
  let conv := params.convShapes.foldl
    (fun conv shape => conv + params.numLayers * slots * product shape * params.convSize) 0
  ⟨qdata, scale, conv, pleExtraBytes, qdata + scale + conv + pleExtraBytes⟩

/-- The sizes of all axes but one, multiplied. -/
def others (shape : List Nat) (axis : Nat) : Nat :=
  shape.zipIdx.foldl (fun others entry => if entry.2 ≠ axis then others * entry.1 else others) 1

def pleExtra (ckptSize : Nat) (sides : List SideTensors) : Nat :=
  sides.foldl (fun extra side =>
    match pleTensor side with
    | none => extra
    | some (tensor, axis) => extra + (ckptSize + 1) * others tensor.shape axis * tensor.elementSize) 0

structure MambaFlags where
  enableInt8MambaCheckpoint : Bool
  int8MambaCkptSize : Option Nat

structure CacheParams where
  numHeads : Nat
  headVDim : Nat
  headKDim : Nat
  conv : List (List Nat)
  convSize : Nat
  temporalSize : Nat

/-- `int8_mamba_ckpt_size or 2 * mamba_size`. -/
def ckptSize (flags : MambaFlags) (mambaSize : Nat) : Nat :=
  match flags.int8MambaCkptSize with
  | none | some 0 => 2 * mambaSize
  | some (size + 1) => size + 1

def poolParams (flags : MambaFlags) (mambaSize : Nat) (cache : CacheParams) (numLayers : Nat) : PoolParams where
  numLayers := numLayers
  numSlots := ckptSize flags mambaSize
  numHeads := cache.numHeads
  headVDim := cache.headVDim
  headKDim := cache.headKDim
  convShapes := cache.conv
  convSize := cache.convSize
  temporalSize := cache.temporalSize

def estimate (params : PoolParams) (sides : List SideTensors) : Estimate :=
  estimateMemUsageBytes params (pleExtra params.numSlots sides)

/-- The free memory is known on a CUDA device that answers; without a
server-args context there are no flags. -/
def maybeInitInt8MambaCheckpointPool (flags : Option MambaFlags) (mambaSize : Nat) (cache : CacheParams)
    (numLayers : Nat) (freeBytes : Option Nat) (sides : List SideTensors) : Except PoolError (Option PoolTensors) :=
  match flags with
  | none => .ok none
  | some flags =>
      if !flags.enableInt8MambaCheckpoint then .ok none else
      let params := poolParams flags mambaSize cache numLayers
      let total := (estimate params sides).total
      match freeBytes with
      | none => (poolTensors params sides).map some
      | some free =>
          if free ≤ total then .error (.noMemory total free params.numSlots) else (poolTensors params sides).map some

theorem foldl_mul (start : Nat) (sizes : List Nat) : sizes.foldl (· * ·) start = start * product sizes := by
  induction sizes generalizing start with
  | nil => exact (Nat.mul_one start).symm
  | cons size rest ih =>
      have unit : product (size :: rest) = size * product rest := by rw [product, List.foldl_cons, Nat.one_mul, ih]
      rw [List.foldl_cons, ih, unit, Nat.mul_assoc]

@[simp] theorem product_nil : product [] = 1 := rfl

@[simp] theorem product_cons (size : Nat) (rest : List Nat) : product (size :: rest) = size * product rest := by
  rw [product, List.foldl_cons, Nat.one_mul, foldl_mul]

theorem foldl_add {α : Type} (cost : α → Nat) (start : Nat) (items : List α) :
    items.foldl (fun sum item => sum + cost item) start = start + (items.map cost).sum := by
  induction items generalizing start with
  | nil => rfl
  | cons item rest ih => rw [List.foldl_cons, ih, List.map_cons, List.sum_cons, Nat.add_assoc]

theorem foldl_others (shape : List Nat) (axis start first : Nat) :
    (shape.zipIdx first).foldl (fun others entry => if entry.2 ≠ axis then others * entry.1 else others) start =
      start * if first ≤ axis then product (shape.eraseIdx (axis - first)) else product shape := by
  induction shape generalizing start first with
  | nil => simp
  | cons size rest ih =>
      rw [List.zipIdx_cons, List.foldl_cons, ih]
      rcases Nat.lt_trichotomy first axis with before | here | after
      · obtain ⟨step, distance⟩ : ∃ step, axis - first = step + 1 := ⟨axis - first - 1, by omega⟩
        have later : axis - (first + 1) = step := by omega
        rw [if_pos (show first + 1 ≤ axis from before), if_pos (Nat.le_of_lt before), if_pos (Nat.ne_of_lt before),
          distance, later, List.eraseIdx_cons_succ, product_cons, Nat.mul_assoc]
      · have past : ¬ first + 1 ≤ axis := by omega
        rw [if_neg past, if_pos (Nat.le_of_eq here), if_neg fun apart => apart here, here, Nat.sub_self,
          List.eraseIdx_cons_zero]
      · have past : ¬ first + 1 ≤ axis := by omega
        rw [if_neg past, if_neg (Nat.not_le.mpr after), if_pos (Nat.ne_of_gt after), product_cons, Nat.mul_assoc]

theorem others_eq (shape : List Nat) (axis : Nat) : others shape axis = product (shape.eraseIdx axis) := by
  have loop := foldl_others shape axis 1 0
  rwa [if_pos (Nat.zero_le axis), Nat.one_mul, Nat.sub_zero] at loop

theorem product_set {shape : List Nat} {axis : Nat} (inside : axis < shape.length) (size : Nat) :
    product (shape.set axis size) = size * others shape axis := by
  rw [others_eq]
  induction shape generalizing axis with
  | nil => cases inside
  | cons first rest ih =>
      cases axis with
      | zero => rw [List.set_cons_zero, List.eraseIdx_cons_zero, product_cons]
      | succ axis =>
          rw [List.set_cons_succ, List.eraseIdx_cons_succ, product_cons, product_cons, ih (Nat.lt_of_succ_lt_succ inside)]
          ring

theorem bytes_mirrors {numSlots : Nat} {sides : List SideTensors} {mirrors : List Tensor}
    (built : pleMirrorTensors numSlots sides = .ok mirrors) (start : Nat) :
    sides.foldl (fun extra side =>
      match pleTensor side with
      | none => extra
      | some (tensor, axis) => extra + (numSlots + 1) * others tensor.shape axis * tensor.elementSize) start =
      start + (mirrors.map Tensor.bytes).sum := by
  induction sides generalizing mirrors start with
  | nil =>
      cases built
      rfl
  | cons side rest ih =>
      rw [pleMirrorTensors] at built
      rw [List.foldl_cons]
      cases main : pleTensor side with
      | none =>
          rw [main] at built
          exact ih built start
      | some source =>
          obtain ⟨tensor, axis⟩ := source
          rw [main] at built
          dsimp only at built ⊢
          split at built
          · rename_i inside
            cases later : pleMirrorTensors numSlots rest with
            | error error =>
                rw [later] at built
                cases built
            | ok tail =>
                rw [later] at built
                cases built
                rw [ih later, List.map_cons, List.sum_cons, ← Nat.add_assoc]
                congr 2
                rw [Tensor.bytes, Tensor.numel, product_set inside]
          · cases built

theorem estimate_total {params : PoolParams} {sides : List SideTensors} {pool : PoolTensors}
    (built : poolTensors params sides = .ok pool) : (estimate params sides).total = pool.memUsageBytes := by
  rw [poolTensors] at built
  cases made : pleMirrorTensors params.numSlots sides with
  | error error =>
      rw [made] at built
      cases built
  | ok mirrors =>
      rw [made] at built
      cases built
      have ple : pleExtra params.numSlots sides = (mirrors.map Tensor.bytes).sum := by
        rw [pleExtra, bytes_mirrors made, Nat.zero_add]
      have conv := foldl_add (fun shape => params.numLayers * (params.numSlots + 1) * product shape * params.convSize) 0
        params.convShapes
      have windows (shape : List Nat) : params.numLayers * (params.numSlots + 1) * product shape * params.convSize =
          Tensor.bytes ⟨params.numLayers :: (params.numSlots + 1) :: shape, params.convSize⟩ := by
        simp only [Tensor.bytes, Tensor.numel, product_cons]
        ring
      simp only [windows, Nat.zero_add] at conv
      have qdata : params.numLayers * (params.numSlots + 1) * params.numHeads * params.headVDim * params.headKDim =
          Tensor.bytes ⟨[params.numLayers, params.numSlots + 1, params.numHeads, params.headVDim, params.headKDim], 1⟩ := by
        simp only [Tensor.bytes, Tensor.numel, product_cons, product_nil]
        ring
      have scale : params.numLayers * (params.numSlots + 1) * params.numHeads * params.headKDim * params.temporalSize =
          Tensor.bytes
            ⟨[params.numLayers, params.numSlots + 1, params.numHeads, 1, params.headKDim], params.temporalSize⟩ := by
        simp only [Tensor.bytes, Tensor.numel, product_cons, product_nil]
        ring
      simp only [estimate, estimateMemUsageBytes, windows, conv, qdata, scale, ple, PoolTensors.memUsageBytes, List.map_map]
      rfl

/-- The total that is compared with the free memory is what the constructed
pool occupies; a pool that fits is constructed and no other. -/
theorem maybeInit_total (flags : MambaFlags) (enabled : flags.enableInt8MambaCheckpoint = true) (mambaSize : Nat)
    (cache : CacheParams) (numLayers : Nat) (freeBytes : Option Nat) (sides : List SideTensors) {pool : PoolTensors}
    (built : poolTensors (poolParams flags mambaSize cache numLayers) sides = .ok pool) :
    (estimate (poolParams flags mambaSize cache numLayers) sides).total = pool.memUsageBytes ∧
      (maybeInitInt8MambaCheckpointPool (some flags) mambaSize cache numLayers freeBytes sides = .ok (some pool) ↔
        ∀ free, freeBytes = some free → pool.memUsageBytes < free) := by
  have total := estimate_total built
  refine ⟨total, ?_⟩
  cases freeBytes with
  | none => simp [maybeInitInt8MambaCheckpointPool, enabled, built, Except.map]
  | some free =>
      simp only [maybeInitInt8MambaCheckpointPool, enabled, Bool.not_true, Bool.false_eq_true, if_false, total, built]
      by_cases short : free ≤ pool.memUsageBytes
      · simp [short]
      · simpa [short, Except.map] using Nat.lt_of_not_le short

/-- Two layers, two slots, a conv window and both side states, the second
disabled. -/
theorem maybeInit_total_small :
    (maybeInitInt8MambaCheckpointPool (some ⟨true, none⟩) 1 ⟨2, 3, 4, [[5, 2]], 2, 2⟩ 2 (some 1000)
        [⟨some ⟨[2, 9, 6], 2⟩, none⟩, ⟨none, none⟩, ⟨none, some ⟨[9, 7], 8⟩⟩]).toOption.isSome ∧
      (estimate (poolParams ⟨true, none⟩ 1 ⟨2, 3, 4, [[5, 2]], 2, 2⟩ 2)
        [⟨some ⟨[2, 9, 6], 2⟩, none⟩, ⟨none, none⟩, ⟨none, some ⟨[9, 7], 8⟩⟩]).total = 600 := by
  have exact_ := maybeInit_total ⟨true, none⟩ rfl 1 ⟨2, 3, 4, [[5, 2]], 2, 2⟩ 2 (some 1000)
    [⟨some ⟨[2, 9, 6], 2⟩, none⟩, ⟨none, none⟩, ⟨none, some ⟨[9, 7], 8⟩⟩] rfl
  refine ⟨?_, exact_.1.trans ?_⟩
  · rw [exact_.2.mpr (by decide)]
    rfl
  · decide

end FlashNext.Mamba
