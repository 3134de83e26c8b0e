import FlashNext.ColdPool.Tables

namespace FlashNext.ColdPool

open FlashNext.Data

def rowParams : List String :=
  ["w13_weight", "w2_weight", "w13_weight_scale", "w2_weight_scale", "w13_weight_scale_2",
    "w2_weight_scale_2", "w13_input_scale", "w2_input_scale"]

def derivedParams : List String := ["g1_alphas", "g1_alphas_up", "g2_alphas"]

def allParams : List String := rowParams ++ derivedParams

/-- What the shrink reads from outside: the environment, the parsed keep mask
and the uninitialised memory `torch.empty` hands out. -/
structure ShrinkEnv where
  offloadRequested : Bool
  keepMask : Option (Dict Nat (List Nat))
  coldSlots : Nat
  uninit : String → Nat → Nat → UInt8

/-- An entry of the inventory gate's report: name, shape and dtype text. -/
structure BadEntry where
  name : String
  shape : List Nat
  dtype : String
deriving DecidableEq, Repr

inductive ShrinkError where
  | unclassified (layer : Nat) (bad : List BadEntry)
  | noTopkConfig (layer : Nat)
  | indexError
  | misalignedView
deriving DecidableEq, Repr

def BadEntry.text (entry : BadEntry) : String :=
  "('" ++ entry.name ++ "', " ++ tupleText entry.shape ++ ", '" ++ entry.dtype ++ "')"

def ShrinkError.message : ShrinkError → String
  | .unclassified layer bad =>
      "[COLD-POOL] layer " ++ toString layer ++ ": unclassified per-expert tensors [" ++
        ", ".intercalate (bad.map BadEntry.text) ++
        "] — extend the whitelist (design §3 R3 gate) before enabling"
  | .noTopkConfig layer =>
      "[COLD-POOL] layer " ++ toString layer ++ ": no topk.topk_config on the shrunk module " ++
        "or its owner block — the identity gate cannot be armed; refusing " ++
        "(shrunk pool + ungated router would remap every id blindly)"
  | .indexError => "index out of range in self"
  | .misalignedView => "self.storage_offset() must be divisible by the element size to view"

/-- The result of a call that may raise: the state is kept either way. -/
inductive Outcome where
  | done (state : State)
  | raised (error : ShrinkError) (state : State)

/-- `named_parameters(recurse=False)`: only the first name of an object. -/
def namedParameters : List (String × Attr) → List Nat → List (String × Attr)
  | [], _ => []
  | (name, attr) :: rest, seen =>
      if attr.kind = .parameter ∧ attr.obj ∉ seen then
        (name, attr) :: namedParameters rest (attr.obj :: seen)
      else namedParameters rest seen

/-- The scale a swizzled name must alias:
`name.replace("blockscale_swizzled", "weight_scale")`. -/
def swizzleSource : String → Option String
  | "w13_blockscale_swizzled" => some "w13_weight_scale"
  | "w2_blockscale_swizzled" => some "w2_weight_scale"
  | _ => none

/-- The report for one parameter, if it makes the gate refuse. -/
def gateEntry (module : Module) (experts : Nat) (name : String) (attr : Attr) : Option BadEntry :=
  match module.store[attr.obj]? with
  | none => none
  | some tensor =>
      if tensor.shape.head? ≠ some experts then none
      else if name ∈ allParams then none
      else match swizzleSource name with
        | some source =>
            if (module.attrs.get? source).map Attr.obj = some attr.obj then none
            else some ⟨name, tensor.shape, tensor.elem.str ++ " (unaliased swizzled scale)"⟩
        | none => some ⟨name, tensor.shape, tensor.elem.str⟩

def inventoryGate (module : Module) (experts : Nat) : List BadEntry :=
  (namedParameters module.attrs.entries []).filterMap fun entry =>
    gateEntry module experts entry.1 entry.2

/-- A per-expert tensor held on the CPU during the swap, under its first
whitelisted name. -/
structure HeldParam where
  name : String
  obj : Nat
  elem : ElemType
  trailing : List Nat
  rows : List Row
deriving DecidableEq, Repr

def HeldParam.rowBytes (held : HeldParam) : Nat := held.trailing.prod * held.elem.elementSize

/-- `param_cpu`: one entry per tensor object with a leading dimension of `E`. -/
def heldParams (module : Module) (experts : Nat) : List String → List Nat → List HeldParam
  | [], _ => []
  | name :: rest, seen =>
      match module.attrs.get? name with
      | none => heldParams module experts rest seen
      | some attr =>
          match module.store[attr.obj]? with
          | some (.batch elem trailing rows) =>
              if rows.length = experts ∧ attr.obj ∉ seen then
                ⟨name, attr.obj, elem, trailing, rows⟩ ::
                  heldParams module experts rest (attr.obj :: seen)
              else heldParams module experts rest seen
          | _ => heldParams module experts rest seen

/-- `index_select(0, ids)`. -/
def indexSelect (rows : List Row) (ids : List Nat) : Option (List Row) :=
  if ids.all (· < rows.length) then some (ids.map fun id => rows.getD id []) else none

def HeldParam.coldBytes (held : HeldParam) (cold : List Nat) : Row :=
  (cold.map fun gid => held.rows.getD gid []).flatten

structure Slice where
  name : String
  offset : Nat
  rowBytes : Nat
  elem : ElemType
deriving DecidableEq, Repr

/-- `_cold_slices`: each slice starts where the one before it ends. -/
def coldSlices (coldLen : Nat) : List HeldParam → Nat → List Slice
  | [], _ => []
  | held :: rest, offset =>
      ⟨held.name, offset, held.rowBytes, held.elem⟩ ::
        coldSlices coldLen rest (offset + held.rowBytes * coldLen)

/-- `buf[off:off + nb].view(dtype)` needs an aligned offset. -/
def Slice.Aligned (slice : Slice) : Prop := slice.offset % slice.elem.elementSize = 0

instance (slice : Slice) : Decidable slice.Aligned := inferInstanceAs (Decidable (_ = _))

/-- The flat host buffer: exactly `cold_bytes` bytes, every one written. -/
def hostBuffer (held : List HeldParam) (cold : List Nat) : Row :=
  writeChunks (held.map (·.coldBytes cold)) 0
    (List.replicate ((held.map fun param => param.rowBytes * cold.length).sum) 0)

/-- `flat[i]` of a slice of the pinned buffer. -/
def Slice.row (slice : Slice) (buffer : Row) (index : Nat) : Row :=
  (buffer.drop (slice.offset + index * slice.rowBytes)).take slice.rowBytes

/-- `pool.host.setdefault(gid, {})[name] = flat[i]`. -/
def addHostRow (host : Dict Nat (Dict String Row)) (gid : Nat) (name : String) (bytes : Row) :
    Dict Nat (Dict String Row) :=
  host.set gid (((host.get? gid).getD .empty).set name bytes)

def addHostSlice (buffer : Row) (cold : List Nat) (host : Dict Nat (Dict String Row)) (slice : Slice) :
    Dict Nat (Dict String Row) :=
  cold.zipIdx.foldl (fun host entry => addHostRow host entry.1 slice.name (slice.row buffer entry.2)) host

def hostRows (buffer : Row) (cold : List Nat) (slices : List Slice) : Dict Nat (Dict String Row) :=
  slices.foldl (addHostSlice buffer cold) .empty

/-- A fresh row of `torch.empty`. -/
def uninitRow (env : ShrinkEnv) (held : HeldParam) (row : Nat) : Row :=
  (List.range held.rowBytes).map (env.uninit held.name row)

/-- The tensor object is kept; its storage becomes the keep rows and `slots`
fresh rows. -/
def swapParam (env : ShrinkEnv) (keep : List Nat) (store : List Tensor) (held : HeldParam) :
    Option (List Tensor) :=
  (indexSelect held.rows keep).map fun kept =>
    store.set held.obj (.batch held.elem held.trailing
      (kept ++ (List.range env.coldSlots).map (uninitRow env held)))

def swapParams (env : ShrinkEnv) (keep : List Nat) : List HeldParam → List Tensor → Option (List Tensor)
  | [], store => some store
  | held :: rest, store => (swapParam env keep store held).bind (swapParams env keep rest)

/-- The tests of the module loop that end in `continue`: the layer id, keep
list, expert count and cold ids of a module that is to be shrunk. -/
def shrinkTarget (keepMask : Dict Nat (List Nat)) (module : Module) :
    Option (Nat × List Nat × Nat × List Nat) :=
  if !module.isFusedMoE then none else
  match module.layerId with
  | none => none
  | some layer =>
      match keepMask.get? layer, module.rows? "w13_weight", module.getattr "w13_weight_scale" with
      | some keep, some rows, some _ =>
          let cold := (List.range rows.length).filter (· ∉ keep)
          if rows.length ≤ 1 ∨ cold = [] then none else some (layer, keep, rows.length, cold)
      | _, _, _ => none

/-- The `topk_config` that `register_managed` finds: the module's own `.topk`
when it has one, else the owner's. -/
def managedConfig (module : Module) : Option Config :=
  match module.topk with
  | some own => own
  | none => module.ownerTopk

def registerManaged (state : State) (module : Module) (layer : Nat) : Outcome :=
  match managedConfig module with
  | none => .raised (.noTopkConfig layer) state
  | some config => .done { state with
      cfgLids := state.cfgLids.set config.addr layer
      cfgRefs := state.cfgRefs ++ [config] }

/-- The body of the module loop for a module that is shrunk. -/
def shrinkModule (env : ShrinkEnv) (state : State) (index : Nat) (module : Module)
    (layer : Nat) (keep : List Nat) (experts : Nat) (cold : List Nat) : Outcome :=
  let bad := inventoryGate module experts
  if bad ≠ [] then .raised (.unclassified layer bad) state else
  let held := heldParams module experts allParams []
  let slices := coldSlices cold.length held 0
  if ¬ ∀ slice ∈ slices, slice.Aligned then .raised .misalignedView state else
  match swapParams env keep held module.store with
  | none => .raised .indexError state
  | some store =>
      let pool := Pool.init layer keep cold env.coldSlots index experts
      let pool := { pool with host := hostRows (hostBuffer held cold) cold slices }
      let swapped := { module with store := store, numLocalExperts := pool.phys }
      let state := { state with
        modules := state.modules.set index swapped
        tables := buildTables state.tables layer keep experts module.device }
      match registerManaged state swapped layer with
      | .raised error state => .raised error state
      | .done state => .done { state with layers := state.layers.set layer pool }

/-- The loop over `model.modules()`; the number counts the layers shrunk. -/
def shrinkLoop (env : ShrinkEnv) (keepMask : Dict Nat (List Nat)) :
    List Nat → State → Nat → Outcome × Nat
  | [], state, shrunk => (.done state, shrunk)
  | index :: rest, state, shrunk =>
      match state.modules[index]? with
      | none => shrinkLoop env keepMask rest state shrunk
      | some module =>
          match shrinkTarget keepMask module with
          | none => shrinkLoop env keepMask rest state shrunk
          | some (layer, keep, experts, cold) =>
              match shrinkModule env state index module layer keep experts cold with
              | .raised error state => (.raised error state, shrunk)
              | .done state => shrinkLoop env keepMask rest state (shrunk + 1)

/-- What the shrink does once the loop is through and has shrunk something. -/
def completeShrink (env : ShrinkEnv) (state : State) : State :=
  { state with
    shrunk := true
    dynamic := 0 < env.coldSlots
    stats := {} }

def maybeShrinkAfterProcess (env : ShrinkEnv) (state : State) : Outcome :=
  if state.shrunk ∨ !env.offloadRequested then .done state else
  match env.keepMask with
  | none => .done state
  | some keepMask =>
      match shrinkLoop env keepMask (List.range state.modules.length)
          { state with keepMask := some keepMask } 0 with
      | (.raised error state, _) => .raised error state
      | (.done state, 0) => .done state
      | (.done state, _) => .done (completeShrink env state)

def State.fresh (modules : List Module) : State where
  keepMask := none
  shrunk := false
  dynamic := false
  layers := .empty
  modules := modules
  tables := { bias := .empty, remap := .empty }
  stats := {}
  stash := .empty
  dirty := false
  cfgLids := .empty
  cfgRefs := []

end FlashNext.ColdPool
