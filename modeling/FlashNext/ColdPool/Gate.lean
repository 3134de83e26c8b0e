import FlashNext.ColdPool.Hook

namespace FlashNext.ColdPool

open FlashNext.Data

/-! `select_experts` acts on the cold pool only for a `TopKConfig` object that the
shrink registered.  The registry is keyed by object addresses, so the model
has a process with live objects whose addresses are reused after destruction. -/

def isManagedConfig (state : State) (config : Option Config) : Option Nat :=
  if !state.shrunk then none else config.bind fun config => state.cfgLids.get? config.addr

/-- What a routing kernel returns: weights, ids and, on the fused path, the
packed ids. -/
structure RoutedTopK (Weights : Type*) where
  weights : Weights
  ids : Grid Int
  packed : Option (List (BitVec 32))

/-- The parts of `select_experts` around the cold pool: the dispatch transform
of the logits, the routing kernel the config asks for, and the post-processing
of its ids, which also gives the ids for the recorder. -/
structure Router (Hidden Info Weights : Type*) where
  transform : Info → Grid ℚ → Grid ℚ
  route : Config → Hidden → Info → Option Nat → Grid ℚ → Except String (RoutedTopK Weights)
  postProcess : Config → Info → Option Nat → Grid ℚ → Weights → Grid Int → Grid Int × Weights × Grid Int

/-- `StandardTopKOutput` with the ids the distribution recorder was given. -/
structure TopKOutput (Weights : Type*) where
  weights : Weights
  ids : Grid Int
  logits : Grid ℚ
  packed : Option (List (BitVec 32))
  recorded : Grid Int

theorem remapTopkIds_length (shrunk : Bool) (tables : Tables) (layer : Option Nat) (device : Nat)
    (ids : List Int) : (remapTopkIds shrunk tables layer device ids).length = ids.length := by
  unfold remapTopkIds
  split
  · rfl
  · exact List.length_map _

/-- `remap_topk_ids` on the id matrix. -/
def remapGrid (state : State) (layer device : Nat) (ids : Grid Int) : Grid Int where
  width := ids.width
  rows := ids.rows.map (remapTopkIds state.shrunk state.tables (some layer) device)
  rect := by
    intro row member
    obtain ⟨source, inside, rfl⟩ := List.mem_map.mp member
    rw [remapTopkIds_length, ids.rect source inside]

section Select

variable {Hidden Info Weights : Type*} (router : Router Hidden Info Weights)

/-- `select_experts` without the cold-pool lines. -/
def upstreamSelectExperts (config : Config) (layerId : Option Nat) (hidden : Hidden) (info : Info)
    (routerLogits : Grid ℚ) : Except String (TopKOutput Weights) := do
  let logits := router.transform info routerLogits
  let routed ← router.route config hidden info layerId logits
  let (ids, weights, recorded) :=
    router.postProcess config info layerId logits routed.weights routed.ids
  return ⟨weights, ids, logits, routed.packed, recorded⟩

/-- The demand stash of a routed batch.  Without pre-mask logits the call
raises, unless it returns before it looks at them. -/
def stashRouted (sigmoid : ℚ → ℚ) (state : State) (layer : Nat) (capturing : Bool)
    (preMask : Option (Grid ℚ)) (recorded : Grid Int) (k : Nat) : Except String State :=
  match preMask with
  | some preMask => .ok (stashDemand sigmoid state (some layer) capturing preMask recorded k)
  | none =>
      if !state.dynamic ∨ capturing then .ok state
      else .error "'NoneType' object has no attribute 'shape'"

/-- The part of `select_experts` behind the gate. -/
def managedSelectExperts (sigmoid : ℚ → ℚ) (state : State) (layer : Nat) (capturing : Bool)
    (dtype : DType) (device : Nat) (config : Config) (layerId : Option Nat) (hidden : Hidden) (info : Info)
    (logits : Grid ℚ) : State × Except String (TopKOutput Weights) :=
  match applyKeepMask state (some layer) capturing dtype logits with
  | (state, none) => (state, .error "The size of tensor a must match the size of tensor b")
  | (state, some (biased, preMask)) =>
      match router.route config hidden info layerId biased with
      | .error error => (state, .error error)
      | .ok routed =>
          let (ids, weights, recorded) :=
            router.postProcess config info layerId biased routed.weights routed.ids
          match stashRouted sigmoid state layer capturing preMask recorded ids.width with
          | .error error => (state, .error error)
          | .ok state =>
              (state, .ok
                { weights := weights
                  ids := remapGrid state layer device ids
                  logits := biased
                  packed := routed.packed.map
                    (remapPackedIds state.shrunk state.tables (some layer) device)
                  recorded := recorded })

def selectExperts (sigmoid : ℚ → ℚ) (state : State) (capturing : Bool) (dtype : DType) (device : Nat)
    (config : Config) (layerId : Option Nat) (hidden : Hidden) (info : Info) (routerLogits : Grid ℚ) :
    State × Except String (TopKOutput Weights) :=
  match layerId.bind fun _ => isManagedConfig state (some config) with
  | none => (state, upstreamSelectExperts router config layerId hidden info routerLogits)
  | some layer =>
      managedSelectExperts router sigmoid state layer capturing dtype device config layerId hidden info
        (router.transform info routerLogits)

end Select

end FlashNext.ColdPool
