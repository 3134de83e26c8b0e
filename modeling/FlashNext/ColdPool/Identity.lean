import FlashNext.ColdPool.GateFrame
import FlashNext.ColdPool.RoutingSafety

namespace FlashNext.ColdPool

open FlashNext.Data

/-- The pool with the live `TopKConfig` objects, and a record of which object
was registered for which layer. -/
structure Process where
  pool : State
  live : List Config
  registered : List (Config × Nat)

/-- `shrink` is one iteration of the module loop, so that objects may come and
go between two registrations. -/
inductive Action where
  | create (config : Config)
  | destroy (config : Config)
  | parseKeepMask (keepMask : Option (Dict Nat (List Nat)))
  | shrink (env : ShrinkEnv) (keepMask : Dict Nat (List Nat)) (index : Nat)
  | finish (env : ShrinkEnv)
  | event (event : Event)

namespace Process

def start (modules : List Module) : Process := ⟨State.fresh modules, [], []⟩

def shrink (env : ShrinkEnv) (keepMask : Dict Nat (List Nat)) (index : Nat) (process : Process) : Process :=
  match process.pool.modules[index]? with
  | none => process
  | some module =>
      match shrinkTarget keepMask module with
      | none => process
      | some (layer, keep, experts, cold) =>
          match shrinkModule env process.pool index module layer keep experts cold with
          | .raised _ pool => { process with pool := pool }
          | .done pool => { process with
              pool := pool
              registered := process.registered ++ (managedConfig module).toList.map (·, layer) }

def step (sigmoid : ℚ → ℚ) (process : Process) : Action → Process
  | .create config => { process with live := config :: process.live }
  | .destroy config => { process with live := process.live.erase config }
  | .parseKeepMask keepMask => { process with pool := { process.pool with keepMask := keepMask } }
  | .shrink env keepMask index => process.shrink env keepMask index
  | .finish env => { process with pool := completeShrink env process.pool }
  | .event event => { process with pool := (ColdPool.step sigmoid process.pool event).2 }

def machine (sigmoid : ℚ → ℚ) : Machine Process Action :=
  ⟨fun process action => ([], process.step sigmoid action)⟩

/-- The module to be shrunk has a config object of its own. -/
def OwnConfig (process : Process) (module : Module) (layer : Nat) : Prop :=
  ∀ config ∈ managedConfig module, config ∈ process.live ∧
    ∀ entry ∈ process.registered, entry.1 = config → entry.2 = layer

instance (process : Process) (module : Module) (layer : Nat) : Decidable (process.OwnConfig module layer) :=
  inferInstanceAs (Decidable (∀ config ∈ managedConfig module, _ ∧ _))

/-- What the interpreter and the model loader promise: a new object gets an
address no live object has, a referenced object is not destroyed, and two
modules that are shrunk do not share a config. -/
def Lawful (process : Process) : Action → Prop
  | .create config => ∀ other ∈ process.live, other.addr ≠ config.addr
  | .destroy config => config ∉ process.pool.cfgRefs
  | .shrink _ keepMask index =>
      ∀ module ∈ process.pool.modules[index]?, ∀ target ∈ shrinkTarget keepMask module,
        process.OwnConfig module target.1
  | _ => True

instance decidableLawful (process : Process) : (action : Action) → Decidable (process.Lawful action)
  | .create _ => inferInstanceAs (Decidable (∀ other ∈ process.live, _))
  | .destroy _ => inferInstanceAs (Decidable (_ ∉ _))
  | .shrink _ keepMask index => inferInstanceAs (Decidable (∀ module ∈ process.pool.modules[index]?,
      ∀ target ∈ shrinkTarget keepMask module, _))
  | .parseKeepMask _ => isTrue trivial
  | .finish _ => isTrue trivial
  | .event _ => isTrue trivial

structure BuiltUnder (pool : State) (config : Config) (layer : Nat) : Prop where
  owner : (some layer, some config) ∈ pool.modules.map Module.owner
  bias : ∀ dtype ∈ buildDtypes, (layer, dtype) ∈ pool.tables.bias.keys
  remap : layer ∈ pool.tables.remap.keys

/-- The registry is about live, pinned objects, one layer for each. -/
structure Inv (process : Process) : Prop where
  addresses : (process.live.map Config.addr).Nodup
  pinned : process.pool.cfgRefs = process.registered.map Prod.fst
  alive : ∀ entry ∈ process.registered, entry.1 ∈ process.live
  sound : ∀ addr layer, process.pool.cfgLids.get? addr = some layer →
    ∃ config, (config, layer) ∈ process.registered ∧ config.addr = addr
  complete : ∀ entry ∈ process.registered, process.pool.cfgLids.get? entry.1.addr = some entry.2
  built : ∀ entry ∈ process.registered, BuiltUnder process.pool entry.1 entry.2

variable {process : Process} {pool : State} {config : Config} {layer : Nat}

theorem BuiltUnder.frame (built : BuiltUnder process.pool config layer) (frame : process.pool.GateFrame pool) :
    BuiltUnder pool config layer where
  owner := frame.owners ▸ built.owner
  bias := fun dtype member => frame.bias _ (built.bias dtype member)
  remap := frame.remap _ built.remap

theorem Inv.frame (inv : process.Inv) (frame : process.pool.GateFrame pool) :
    Inv { process with pool := pool } where
  addresses := inv.addresses
  pinned := frame.cfgRefs.trans inv.pinned
  alive := inv.alive
  sound := frame.cfgLids ▸ inv.sound
  complete := frame.cfgLids ▸ inv.complete
  built := fun entry member => (inv.built entry member).frame frame

theorem Inv.same_object (inv : process.Inv) {other : Config} (member : config ∈ process.live)
    (otherMember : other ∈ process.live) (same : config.addr = other.addr) : config = other :=
  List.inj_on_of_nodup_map inv.addresses member otherMember same

theorem Inv.create (inv : process.Inv) (fresh : ∀ other ∈ process.live, other.addr ≠ config.addr) :
    Inv { process with live := config :: process.live } :=
  { inv with
    addresses := by
      refine List.nodup_cons.mpr ⟨?_, inv.addresses⟩
      intro member
      obtain ⟨other, alive, same⟩ := List.mem_map.mp member
      exact fresh other alive same
    alive := fun entry member => List.mem_cons_of_mem _ (inv.alive entry member) }

theorem Inv.destroy (inv : process.Inv) (unpinned : config ∉ process.pool.cfgRefs) :
    Inv { process with live := process.live.erase config } :=
  { inv with
    addresses := (List.erase_sublist.map Config.addr).nodup inv.addresses
    alive := by
      intro entry member
      have pinned : entry.1 ∈ process.pool.cfgRefs := inv.pinned ▸ List.mem_map_of_mem member
      have different : entry.1 ≠ config := by
        intro same
        exact unpinned (same ▸ pinned)
      exact (List.mem_erase_of_ne different).mpr (inv.alive entry member) }

theorem Inv.register (inv : process.Inv) (alive : config ∈ process.live)
    (own : ∀ entry ∈ process.registered, entry.1 = config → entry.2 = layer)
    (built : BuiltUnder process.pool config layer) (layers : Dict Nat Pool) :
    Inv { process with
      pool := { process.pool with
        cfgLids := process.pool.cfgLids.set config.addr layer
        cfgRefs := process.pool.cfgRefs ++ [config]
        layers := layers }
      registered := process.registered ++ [(config, layer)] } where
  addresses := inv.addresses
  pinned := by simp [inv.pinned]
  alive := by
    intro entry member
    rcases List.mem_append.mp member with old | new
    · exact inv.alive entry old
    · rw [List.mem_singleton.mp new]
      exact alive
  sound := by
    intro addr found lookup
    rw [Dict.get?_set] at lookup
    split at lookup
    · cases lookup
      exact ⟨config, by simp, by simp_all⟩
    · obtain ⟨other, member, same⟩ := inv.sound addr found lookup
      exact ⟨other, by simp [member], same⟩
  complete := by
    intro entry member
    rw [Dict.get?_set]
    rcases List.mem_append.mp member with old | new
    · split
      · rename_i same
        have here := inv.same_object (inv.alive entry old) alive same
        rw [own entry old here]
      · exact inv.complete entry old
    · rw [List.mem_singleton.mp new, if_pos rfl]
  built := by
    intro entry member
    rcases List.mem_append.mp member with old | new
    · exact { inv.built entry old with }
    · rw [List.mem_singleton.mp new]
      exact { built with }

theorem swapped_gateFrame {state : State} {index : Nat} {module : Module} (layer : Nat) (keep : List Nat)
    (experts : Nat) (store : List Tensor) (phys : Nat) (present : state.modules[index]? = some module) :
    state.GateFrame { state with
      modules := state.modules.set index { module with store := store, numLocalExperts := phys }
      tables := buildTables state.tables layer keep experts module.device } where
  shrunk := rfl
  cfgLids := rfl
  cfgRefs := rfl
  bias := by
    intro key member
    simp [buildTables, buildDtypes, Dict.mem_keys_set, member]
  remap := fun key member => Dict.mem_keys_set.mpr (Or.inr member)
  owners := owners_set present rfl

theorem builtUnder_swapped {state : State} {index : Nat} {module : Module} (keep : List Nat)
    (experts : Nat) (store : List Tensor) (phys : Nat) (present : state.modules[index]? = some module)
    (layerId : module.layerId = some layer) (owner : managedConfig module = some config) :
    BuiltUnder { state with
      modules := state.modules.set index { module with store := store, numLocalExperts := phys }
      tables := buildTables state.tables layer keep experts module.device } config layer where
  owner := by
    have same := (swapped_gateFrame layer keep experts store phys present).owners
    rw [same, ← layerId, ← owner]
    exact List.mem_map_of_mem (List.mem_of_getElem? present)
  bias := by
    intro dtype built
    rw [Dict.mem_keys_iff]
    exact ⟨_, buildTables_column state.tables layer keep experts module.device built⟩
  remap := Dict.mem_keys_set.mpr (Or.inl rfl)

/-- A failed iteration may leave a layer with tables and swapped tensors, but
never registered. -/
theorem shrinkModule_raised {env : ShrinkEnv} {state : State} {index : Nat} {module : Module}
    {keep cold : List Nat} {experts : Nat} {error : ShrinkError}
    (present : state.modules[index]? = some module)
    (raised : shrinkModule env state index module layer keep experts cold = .raised error pool) :
    state.GateFrame pool := by
  unfold shrinkModule at raised
  dsimp only at raised
  split at raised
  · cases raised
    exact .refl _
  · split at raised
    · cases raised
      exact .refl _
    · split at raised
      · cases raised
        exact .refl _
      · rename_i store _
        have swapped := swapped_gateFrame layer keep experts store
          (Pool.init layer keep cold env.coldSlots index experts).phys present
        split at raised
        · rename_i registered
          cases raised
          unfold registerManaged at registered
          split at registered
          · cases registered
            exact swapped
          · contradiction
        · contradiction

theorem Inv.shrink (inv : process.Inv) (env : ShrinkEnv) (keepMask : Dict Nat (List Nat)) (index : Nat)
    (own : ∀ module ∈ process.pool.modules[index]?, ∀ target ∈ shrinkTarget keepMask module,
      process.OwnConfig module target.1) : (process.shrink env keepMask index).Inv := by
  unfold Process.shrink
  cases present : process.pool.modules[index]? with
  | none => exact inv
  | some module =>
      dsimp only
      cases target : shrinkTarget keepMask module with
      | none => exact inv
      | some found =>
          obtain ⟨layer, keep, experts, cold⟩ := found
          dsimp only
          cases outcome : shrinkModule env process.pool index module layer keep experts cold with
          | raised error pool => exact inv.frame (shrinkModule_raised present outcome)
          | done pool =>
              obtain ⟨store, config, _, owner, rfl⟩ := shrinkModule_done outcome
              obtain ⟨alive, single⟩ := own module present _ target config owner
              have layerId := (shrinkTarget_spec target).layerId
              have swapped := inv.frame (swapped_gateFrame layer keep experts store
                (keep.length + env.coldSlots) present)
              have built := builtUnder_swapped keep experts store (keep.length + env.coldSlots)
                present layerId owner
              simp only [owner, Option.toList_some, List.map_cons, List.map_nil]
              exact swapped.register alive single built _

theorem step_inv (sigmoid : ℚ → ℚ) (action : Action) (inv : process.Inv) (lawful : process.Lawful action) :
    ((machine sigmoid).step process action).2.Inv := by
  cases action with
  | create config => exact inv.create lawful
  | destroy config => exact inv.destroy lawful
  | parseKeepMask keepMask => exact inv.frame (.of_fields rfl rfl rfl rfl rfl)
  | shrink env keepMask index => exact inv.shrink env keepMask index lawful
  | finish env => exact { inv with built := fun entry member => { inv.built entry member with } }
  | event event => exact inv.frame (step_gateFrame sigmoid process.pool event)

theorem start_inv (modules : List Module) : (start modules).Inv where
  addresses := List.nodup_nil
  pinned := rfl
  alive := by simp [start]
  sound := by simp [start, State.fresh]
  complete := by simp [start]
  built := by simp [start]

theorem Inv.isManagedConfig_iff (inv : process.Inv) (alive : config ∈ process.live) :
    isManagedConfig process.pool (some config) = some layer ↔
      process.pool.shrunk = true ∧ (config, layer) ∈ process.registered := by
  cases armed : process.pool.shrunk with
  | false => simp [isManagedConfig, armed]
  | true =>
      simp only [isManagedConfig, armed, Bool.not_true, Bool.false_eq_true, if_false, Option.bind_some,
        true_and]
      constructor
      · intro lookup
        obtain ⟨other, member, same⟩ := inv.sound config.addr layer lookup
        rw [inv.same_object alive (inv.alive _ member) same.symm]
        exact member
      · exact inv.complete (config, layer)

section Select

variable {Hidden Info Weights : Type*} (router : Router Hidden Info Weights)

theorem selectExperts_unmanaged (sigmoid : ℚ → ℚ) {state : State} (capturing : Bool) (dtype : DType)
    (device : Nat) (layerId : Option Nat) (hidden : Hidden) (info : Info) (routerLogits : Grid ℚ)
    (unmanaged : isManagedConfig state (some config) = none) :
    selectExperts router sigmoid state capturing dtype device config layerId hidden info routerLogits =
      (state, upstreamSelectExperts router config layerId hidden info routerLogits) := by
  have gate : (layerId.bind fun _ => isManagedConfig state (some config)) = none := by
    cases layerId with
    | none => rfl
    | some _ => exact unmanaged
  rw [selectExperts, gate]

/-- In every reachable process, the gate opens for exactly the registered
objects once the shrink is complete, under the layer whose tables were built;
for any other live object `select_experts` is the one without a cold pool. -/
theorem identity_gate (sigmoid : ℚ → ℚ) (modules : List Module) (actions : List Action)
    (lawful : (machine sigmoid).Meets Lawful (start modules) actions) :
    ∀ process ∈ (machine sigmoid).visited (start modules) actions, ∀ config ∈ process.live,
      (∀ layer, isManagedConfig process.pool (some config) = some layer ↔
        process.pool.shrunk = true ∧ (config, layer) ∈ process.registered) ∧
      (∀ layer, (config, layer) ∈ process.registered → BuiltUnder process.pool config layer) ∧
      (config ∉ process.registered.map Prod.fst →
        ∀ capturing dtype device layerId hidden info routerLogits,
          selectExperts router sigmoid process.pool capturing dtype device config layerId hidden info
              routerLogits =
            (process.pool, upstreamSelectExperts router config layerId hidden info routerLogits)) := by
  have reachable := @Machine.visited_safe _ _ (machine sigmoid) Lawful Inv Inv
    (fun _ action inv lawful => step_inv sigmoid action inv lawful)
    (by intro _ _ _ _ _ member; cases member) (fun _ inv => inv) _ _ (start_inv modules) lawful
  intro process member config alive
  have inv := reachable process member
  refine ⟨fun layer => inv.isManagedConfig_iff alive, fun layer entry => inv.built _ entry, ?_⟩
  intro unregistered capturing dtype device layerId hidden info routerLogits
  apply selectExperts_unmanaged
  cases gate : isManagedConfig process.pool (some config) with
  | none => rfl
  | some layer =>
      have entry := ((inv.isManagedConfig_iff alive).mp gate).2
      exact absurd (List.mem_map_of_mem entry) unregistered

end Select

theorem smallKeep_nodup : (([(0, [1])] : List (Nat × List Nat)).map Prod.fst).Nodup := by decide

/-- The target's config is registered; a draft's config is destroyed and its
address handed to another. -/
def smallActions : List Action :=
  [.create ⟨0, 64⟩, .create ⟨1, 128⟩, .parseKeepMask smallEnv.keepMask,
    .shrink smallEnv ⟨[(0, [1])], smallKeep_nodup⟩ 0, .destroy ⟨1, 128⟩, .finish smallEnv, .create ⟨2, 128⟩,
    .event (.stageLists .none fun _ => [2])]

def smallProcess : Process := (machine fun _ => 1 / 2).run (start smallModel.modules) smallActions

def smallRouter : Router Unit Unit Unit where
  transform := fun _ logits => logits
  route := fun _ _ _ _ logits => .ok
    { weights := ()
      ids := ⟨1, logits.rows.map fun _ => [0], by simp⟩
      packed := none }
  postProcess := fun _ _ _ _ weights ids => (ids, weights, ids)

theorem identity_gate_smallModel :
    isManagedConfig smallProcess.pool (some ⟨0, 64⟩) = some 0 ∧
      selectExperts smallRouter (fun _ => 1 / 2) smallProcess.pool false .float32 0 ⟨2, 128⟩ (some 0) () ()
          ⟨3, [[1, 2, 3]], by decide⟩ =
        (smallProcess.pool, upstreamSelectExperts smallRouter ⟨2, 128⟩ (some 0) () () ⟨3, [[1, 2, 3]], by decide⟩) := by
  have gate := identity_gate smallRouter (fun _ => 1 / 2) smallModel.modules smallActions (by decide)
    smallProcess (Machine.run_mem_visited ..)
  exact ⟨((gate ⟨0, 64⟩ (by decide)).1 0).mpr ⟨rfl, by decide⟩,
    (gate ⟨2, 128⟩ (by decide)).2.2 (by decide) false .float32 0 (some 0) () () _⟩

end Process

end FlashNext.ColdPool
