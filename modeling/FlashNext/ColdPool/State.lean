import FlashNext.Data.Dict
import Mathlib.Algebra.Order.Ring.Rat
import Mathlib.Data.Rat.Lemmas

namespace FlashNext.ColdPool

open FlashNext.Data

/-! The module-level caches of `expert_cold_pool.py`, its `LayerPool` objects and
the FusedMoE modules they shrink.  Scores and need counters are exact
rationals, and the ticks that `seen_tick` keeps in float32 exact integers;
everything else is as the program stores it. -/

/-- A tuple of sizes, as Python prints it. -/
def tupleText : List Nat → String
  | [] => "()"
  | [size] => "(" ++ toString size ++ ",)"
  | shape => "(" ++ ", ".intercalate (shape.map toString) ++ ")"

abbrev Row := List UInt8

/-- Storage dtypes of the NVFP4 expert inventory. -/
inductive ElemType where
  | uint8 | float8_e4m3fn | bfloat16 | float32
deriving DecidableEq, Repr

def ElemType.elementSize : ElemType → Nat
  | .uint8 | .float8_e4m3fn => 1
  | .bfloat16 => 2
  | .float32 => 4

def ElemType.str : ElemType → String
  | .uint8 => "torch.uint8"
  | .float8_e4m3fn => "torch.float8_e4m3fn"
  | .bfloat16 => "torch.bfloat16"
  | .float32 => "torch.float32"

/-- Dtypes of router logits, and so of bias columns. -/
inductive DType where
  | bfloat16 | float32 | float16 | float64
deriving DecidableEq, Repr

/-- `torch.finfo(dtype).min`; every one of them is an integer. -/
def finfoMin : DType → Int
  | .bfloat16 => -((2 ^ 8 - 1) * 2 ^ 120)
  | .float32 => -((2 ^ 24 - 1) * 2 ^ 104)
  | .float16 => -65504
  | .float64 => -((2 ^ 53 - 1) * 2 ^ 971)

theorem finfoMin_ne_zero (dtype : DType) : finfoMin dtype ≠ 0 := by
  have negative : finfoMin dtype < 0 := by
    cases dtype <;> simp only [finfoMin] <;> apply Int.neg_neg_of_pos
    · decide
    · decide
    · decide
    · exact Int.mul_pos (by decide) (Int.pow_pos (by decide))
  exact ne_of_lt negative

/-- A tensor seen along its leading dimension; a 0-d tensor has none. -/
inductive Tensor where
  | scalar (elem : ElemType) (bytes : Row)
  | batch (elem : ElemType) (trailing : List Nat) (rows : List Row)
deriving DecidableEq, Repr

namespace Tensor

def elem : Tensor → ElemType
  | .scalar elem _ | .batch elem _ _ => elem

def shape : Tensor → List Nat
  | .scalar _ _ => []
  | .batch _ trailing rows => rows.length :: trailing

def rowBytes : Tensor → Nat
  | .scalar elem _ => elem.elementSize
  | .batch elem trailing _ => trailing.prod * elem.elementSize

/-- Rows have the size their shape and dtype say. -/
def Sized : Tensor → Prop
  | .scalar _ _ => True
  | .batch elem trailing rows => ∀ row ∈ rows, row.length = trailing.prod * elem.elementSize

def rows? : Tensor → Option (List Row)
  | .scalar _ _ => none
  | .batch _ _ rows => some rows

/-- `tensor.data[row].copy_(bytes)`. -/
def setRow (tensor : Tensor) (row : Nat) (bytes : Row) : Tensor :=
  match tensor with
  | .scalar elem value => .scalar elem value
  | .batch elem trailing rows => .batch elem trailing (rows.set row bytes)

@[simp] theorem rows?_setRow (tensor : Tensor) (row : Nat) (bytes : Row) :
    (tensor.setRow row bytes).rows? = tensor.rows?.map (·.set row bytes) := by
  cases tensor <;> rfl

end Tensor

inductive AttrKind where
  | parameter | buffer | plain
deriving DecidableEq, Repr

/-- A tensor attribute of a module: how it is registered, and which tensor
object it is bound to.  Two names may be bound to one object. -/
structure Attr where
  kind : AttrKind
  obj : Nat
deriving DecidableEq, Repr

/-- A `TopKConfig` object: the object itself and the address `id()` returns. -/
structure Config where
  ident : Nat
  addr : Nat
deriving DecidableEq, Repr

/-- A module of the model.  `topk` is its own `.topk` attribute with that
object's `topk_config`; `ownerTopk` is what `_owner_topk` finds on the parent
block. -/
structure Module where
  isFusedMoE : Bool
  layerId : Option Nat
  attrs : Dict String Attr
  store : List Tensor
  device : Nat
  numLocalExperts : Nat
  topk : Option (Option Config)
  ownerTopk : Option Config

namespace Module

/-- `getattr(module, name, None)` on tensor attributes. -/
def getattr (module : Module) (name : String) : Option Tensor :=
  (module.attrs.get? name).bind fun attr => module.store[attr.obj]?

/-- The rows of a tensor attribute that has a leading dimension. -/
def rows? (module : Module) (name : String) : Option (List Row) :=
  (module.getattr name).bind Tensor.rows?

/-- Rewrite one row of the tensor object bound to `name`. -/
def writeRow (module : Module) (name : String) (row : Nat) (bytes : Row) : Module :=
  match module.attrs.get? name with
  | none => module
  | some attr => { module with store := module.store.modify attr.obj (·.setRow row bytes) }

def Sized (module : Module) : Prop := ∀ tensor ∈ module.store, tensor.Sized

/-- The tensor object a name is bound to. -/
def obj? (module : Module) (name : String) : Option Nat := (module.attrs.get? name).map Attr.obj

theorem rows?_eq (module : Module) (name : String) :
    module.rows? name =
      ((module.obj? name).bind fun obj => module.store[obj]?).bind Tensor.rows? := by
  simp only [rows?, getattr, obj?]
  cases module.attrs.get? name <;> rfl

@[simp] theorem attrs_writeRow (module : Module) (name : String) (row : Nat) (bytes : Row) :
    (module.writeRow name row bytes).attrs = module.attrs := by
  unfold writeRow
  split <;> rfl

/-- A row written through one name is seen through every name bound to the
same tensor object, and through no other. -/
theorem rows?_writeRow (module : Module) (name : String) (row : Nat) (bytes : Row) (other : String) :
    (module.writeRow name row bytes).rows? other =
      if module.obj? name = module.obj? other then (module.rows? other).map (·.set row bytes)
      else module.rows? other := by
  cases bound : module.attrs.get? name with
  | none =>
      have unchanged : module.writeRow name row bytes = module := by simp [writeRow, bound]
      rw [unchanged, rows?_eq]
      cases target : module.obj? other <;> simp [obj?, bound]
  | some attr =>
      have target : (module.writeRow name row bytes).obj? other = module.obj? other := by
        simp [obj?]
      have source : module.obj? name = some attr.obj := by simp [obj?, bound]
      simp only [rows?_eq, target, source]
      cases module.obj? other with
      | none => simp
      | some obj =>
          simp only [writeRow, bound, Option.bind_some, List.getElem?_modify, Option.some.injEq]
          by_cases same : attr.obj = obj
          · subst same
            cases module.store[attr.obj]? <;> simp
          · simp [same]

def rowAt (module : Module) (name : String) (row : Nat) : Option Row :=
  (module.rows? name).bind fun rows => rows[row]?

/-- What a physical row holds, over a list of parameter names. -/
def contents (module : Module) (names : List String) (row : Nat) : List (Option Row) :=
  names.map fun name => module.rowAt name row

theorem rowAt_writeRow (module : Module) (name : String) (row : Nat) (bytes : Row) (other : String)
    (target : Nat) :
    (module.writeRow name row bytes).rowAt other target =
      if module.obj? name = module.obj? other ∧ target = row then
        (module.rowAt other target).map fun _ => bytes
      else module.rowAt other target := by
  simp only [rowAt, rows?_writeRow]
  by_cases bound : module.obj? name = module.obj? other
  · cases module.rows? other with
    | none => simp
    | some rows =>
        by_cases here : target = row
        · subst here
          by_cases inside : target < rows.length <;> simp [bound, inside]
        · simp [bound, here, Ne.symm here]
  · simp [bound]

theorem contents_eq_iff {left right : Module} {names : List String} {row gid : Nat} :
    left.contents names row = right.contents names gid ↔
      ∀ name ∈ names, left.rowAt name row = right.rowAt name gid := by
  simp [contents]

theorem contents_writeRow_other (module : Module) (names : List String) (name : String)
    (bytes : Row) {row other : Nat} (different : other ≠ row) :
    (module.writeRow name row bytes).contents names other = module.contents names other := by
  rw [contents_eq_iff]
  intro target _
  simp [rowAt_writeRow, different]

end Module

/-- `_REMAP_CACHE[layer]`: global id to physical row, on one device. -/
structure RemapTable where
  device : Nat
  rows : List Nat
deriving DecidableEq, Repr

/-- The persistent routing tables, `_BIAS_CACHE` and `_REMAP_CACHE`. -/
structure Tables where
  bias : Dict (Nat × DType) (List Int)
  remap : Dict Nat RemapTable

/-- `_STATE["stats"]`. -/
structure Stats where
  calls : Nat := 0
  strong : Nat := 0
  staged : Nat := 0
  evicted : Nat := 0
  h2dBytes : Nat := 0
  demoted : Nat := 0
  promoted : Nat := 0
  stageFail : Nat := 0
deriving DecidableEq, Repr

/-- `LayerPool`.  The module is named by its place in the model. -/
structure Pool where
  layerId : Nat
  keep : List Nat
  keepLen : Nat
  cold : List Nat
  slots : Nat
  module : Nat
  experts : Nat
  phys : Nat
  host : Dict Nat (Dict String Row)
  gidRow : Dict Nat Nat
  rowGid : Dict Nat Nat
  rowTick : Dict Nat Int
  protectedRows : List Nat
  freeRows : List Nat
  tick : Nat
  coldIdsGpu : List Nat
  coldMaskGpu : List Bool
  keepIdsGpu : List Nat
  needCounts : Option (List ℚ)
  seenTick : Option (List Int)

def Pool.init (layerId : Nat) (keep cold : List Nat) (slots module experts : Nat) : Pool where
  layerId := layerId
  keep := keep
  keepLen := keep.length
  cold := cold
  slots := slots
  module := module
  experts := experts
  phys := keep.length + slots
  host := .empty
  gidRow := .empty
  rowGid := .empty
  rowTick := .empty
  protectedRows := []
  freeRows := List.range' keep.length slots
  tick := 0
  coldIdsGpu := cold
  coldMaskGpu := (List.range experts).map fun gid => decide (gid ∈ cold)
  keepIdsGpu := keep
  needCounts := none
  seenTick := none

/-- What a pool was built with: the fields that no operation assigns. -/
def Pool.frozen (pool : Pool) : Pool :=
  { pool with
    host := .empty
    gidRow := .empty
    rowGid := .empty
    rowTick := .empty
    protectedRows := []
    freeRows := []
    tick := 0
    needCounts := none
    seenTick := none }

theorem Pool.layerId_of_frozen {left right : Pool} (same : left.frozen = right.frozen) :
    left.layerId = right.layerId := by
  have frozen : left.frozen.layerId = right.frozen.layerId := by rw [same]
  exact frozen

theorem Pool.module_of_frozen {left right : Pool} (same : left.frozen = right.frozen) :
    left.module = right.module := by
  have frozen : left.frozen.module = right.frozen.module := by rw [same]
  exact frozen

/-- `-1e9`, older than any tick. -/
def neverSeen : Int := -(10 ^ 9)

/-- One entry of `_STASH`: the sampled ids and scores, flat, and the sampled
pre-mask logits. -/
structure StashBuffer where
  ids : List Int
  scores : List ℚ
  logits : Option (List (List ℚ))
  logitsN : Nat
deriving DecidableEq, Repr

/-- The module-level state of `expert_cold_pool.py` together with the model it
manages. -/
structure State where
  keepMask : Option (Dict Nat (List Nat))
  shrunk : Bool
  dynamic : Bool
  layers : Dict Nat Pool
  modules : List Module
  tables : Tables
  stats : Stats
  stash : Dict Nat StashBuffer
  dirty : Bool
  cfgLids : Dict Nat Nat
  cfgRefs : List Config

/-- The layer's view of the state: its pool and module, and the tables and
counters all layers share. -/
structure Ctx where
  tables : Tables
  stats : Stats
  pool : Pool
  module : Module

def State.ctx? (state : State) (layer : Nat) : Option Ctx :=
  match state.layers.get? layer with
  | none => none
  | some pool => state.modules[pool.module]?.map fun module =>
      ⟨state.tables, state.stats, pool, module⟩

/-- Put what a layer's operations changed back into the state. -/
def State.withCtx (state : State) (layer : Nat) (ctx : Ctx) : State :=
  { state with
    tables := ctx.tables
    stats := ctx.stats
    layers := state.layers.set layer ctx.pool
    modules := state.modules.set ctx.pool.module ctx.module }

end FlashNext.ColdPool
