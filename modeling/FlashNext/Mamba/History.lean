import FlashNext.Machine.Run
import FlashNext.Mamba.Transfers
import Mathlib.Algebra.Order.Floor.Ring
import Mathlib.Data.Rat.Floor

namespace FlashNext.Mamba

open FlashNext.Data

variable {Value Row Slots : Type}

structure Caching (Value Row Slots : Type) where
  pool : MambaCheckpointPool Value Row Slots
  active : ActivePool Value Row

inductive Event (Value Row : Type) where
  | storeFromActive (activeSlots ckptSlots : List Nat)
  | loadToActive (ckptSlots activeSlots : List Nat)
  | alloc (n : Nat)
  | free (slots : List Nat)
  | clear
  -- requests run, or slots are reset
  | overwrite (active : ActivePool Value Row)

namespace Caching

variable (arith : Arithmetic Value) (allocator : SlotAllocator Slots)

def step (state : Caching Value Row Slots) : Event Value Row → Caching Value Row Slots
  | .storeFromActive activeSlots ckptSlots =>
      { state with pool := state.pool.storeFromActive arith state.active activeSlots ckptSlots }
  | .loadToActive ckptSlots activeSlots =>
      { state with active := state.pool.loadToActive arith state.active ckptSlots activeSlots }
  | .alloc n => { state with pool := (state.pool.alloc allocator n).2 }
  | .free slots => { state with pool := state.pool.free allocator slots }
  | .clear => { state with pool := state.pool.clear allocator }
  | .overwrite active => { state with active }

def machine : Machine (Caching Value Row Slots) (Event Value Row) where
  step state event := ([], step arith allocator state event)

/-- A transfer pairs slots that exist, with distinct targets; tensors keep
their layers when they are overwritten. -/
def Lawful (state : Caching Value Row Slots) : Event Value Row → Prop
  | .storeFromActive activeSlots ckptSlots =>
      activeSlots.length = ckptSlots.length ∧ ckptSlots.Nodup ∧
        (∀ slot ∈ activeSlots, state.active.Has slot) ∧ ∀ slot ∈ ckptSlots, slot ≤ state.pool.numSlots
  | .loadToActive ckptSlots activeSlots =>
      ckptSlots.length = activeSlots.length ∧ activeSlots.Nodup ∧
        (∀ slot ∈ activeSlots, state.active.Has slot) ∧ ∀ slot ∈ ckptSlots, slot ≤ state.pool.numSlots
  | .overwrite active => active.shape = state.active.shape
  | .alloc _ | .free _ | .clear => True

instance (state : Caching Value Row Slots) : (event : Event Value Row) → Decidable (Lawful state event)
  | .storeFromActive activeSlots ckptSlots =>
      inferInstanceAs (Decidable (activeSlots.length = ckptSlots.length ∧ ckptSlots.Nodup ∧ _ ∧ _))
  | .loadToActive ckptSlots activeSlots =>
      inferInstanceAs (Decidable (ckptSlots.length = activeSlots.length ∧ activeSlots.Nodup ∧ _ ∧ _))
  | .overwrite active => inferInstanceAs (Decidable (active.shape = state.active.shape))
  | .alloc _ | .free _ | .clear => isTrue trivial

end Caching

/-- The checkpoint slots that an event writes. -/
def Event.stored : Event Value Row → List Nat
  | .storeFromActive _ ckptSlots => ckptSlots
  | _ => []

open Caching

variable {arith : Arithmetic Value} {allocator : SlotAllocator Slots} {state : Caching Value Row Slots}
  {event : Event Value Row}

theorem step_builtFor (built : BuiltFor state.pool state.active) (lawful : Lawful state event) :
    BuiltFor (step arith allocator state event).pool (step arith allocator state event).active := by
  cases event with
  | storeFromActive activeSlots ckptSlots => exact storeFromActive_builtFor built
  | loadToActive ckptSlots activeSlots =>
      exact { built with shape := built.shape.trans (loadToActive_shape built).symm }
  | overwrite active => exact { built with shape := built.shape.trans lawful.symm }
  | alloc n => exact { built with room := fun slot bound => { built.room slot bound with } }
  | free slots => exact { built with room := fun slot bound => { built.room slot bound with } }
  | clear => exact { built with room := fun slot bound => { built.room slot bound with } }

theorem step_ckpt {slot : Nat} (built : BuiltFor state.pool state.active) (absent : slot ∉ event.stored) :
    (step arith allocator state event).pool.ckpt slot = state.pool.ckpt slot := by
  cases event with
  | storeFromActive activeSlots ckptSlots => exact storeFromActive_other built absent
  | _ => rfl

section Runs

variable {memory : Uninitialised Value Row} {numSlots : Nat} {convShapes : List (List Nat)} {active : ActivePool Value Row}

theorem init_has {slot : Nat} (bound : slot ≤ numSlots) (sides : List (SideState Row)) (numLayers : Nat) :
    (MambaCheckpointPool.init allocator memory numLayers numSlots convShapes sides).Has slot where
  qdata := hasSlot_emptyTensor _ bound
  scale := hasSlot_emptyTensor _ bound
  conv := by
    intro tensor member
    obtain ⟨index, inside, rfl⟩ := List.mem_mapIdx.mp member
    exact hasSlot_emptyTensor _ bound
  mirrors := by
    intro mirror member source found
    obtain ⟨index, inside, rfl⟩ := List.mem_mapIdx.mp member
    obtain ⟨original, -, rfl⟩ := Option.map_eq_some_iff.mp found
    exact Source.has_mirror _ _ bound

theorem init_builtFor (windows : convShapes.length = active.conv.length)
    (layers : ∀ tensor ∈ active.conv, tensor.length = active.temporal.length) :
    BuiltFor (.init allocator memory active.temporal.length numSlots convShapes active.sides) active where
  shape := by
    have running : active.conv.map List.length = List.replicate convShapes.length active.temporal.length :=
      List.eq_replicate_iff.mpr ⟨by simp [windows], by simpa using layers⟩
    have cached : (convShapes.mapIdx fun index shape =>
        emptyTensor active.temporal.length numSlots (memory.conv index shape)).map List.length =
        List.replicate convShapes.length active.temporal.length := by
      simp [List.eq_replicate_iff, List.mem_mapIdx]
    have mirrors : (active.sides.mapIdx fun index side =>
        (pleSource side).map (Source.mirror numSlots (memory.mirrors index))).map (Option.map Source.layout) =
        active.sides.map fun side => (pleSource side).map Source.layout := by
      apply List.ext_getElem?
      intro index
      simp [Function.comp_def, Source.layout_mirror]
    rw [MambaCheckpointPool.shape, MambaCheckpointPool.init, cached, mirrors, length_emptyTensor, ActivePool.shape, running]
  scales := by simp [MambaCheckpointPool.init]
  room slot bound := init_has bound _ _

theorem run_builtFor {events : List (Event Value Row)} (built : BuiltFor state.pool state.active)
    (lawful : (machine arith allocator).Meets Lawful state events) :
    BuiltFor ((machine arith allocator).run state events).pool ((machine arith allocator).run state events).active :=
  @Machine.run_invariant _ _ (machine arith allocator) Lawful (fun state => BuiltFor state.pool state.active)
    (fun _ _ built lawful => step_builtFor built lawful) _ _ built lawful

theorem run_ckpt {slot : Nat} {events : List (Event Value Row)} (built : BuiltFor state.pool state.active)
    (lawful : (machine arith allocator).Meets Lawful state events) (absent : ∀ event ∈ events, slot ∉ event.stored) :
    ((machine arith allocator).run state events).pool.ckpt slot = state.pool.ckpt slot := by
  induction events generalizing state with
  | nil => rfl
  | cons event rest ih =>
      have here : (step arith allocator state event).pool.ckpt slot = state.pool.ckpt slot :=
        step_ckpt built (absent event (by simp))
      have later := ih (step_builtFor built lawful.1) lawful.2 fun event member => absent event (by simp [member])
      exact later.trans here

theorem run_store_other {before : List (Event Value Row)} {activeSlots ckptSlots : List Nat} {other : Nat}
    (built : BuiltFor state.pool state.active)
    (lawful : (machine arith allocator).Meets Lawful state (before ++ [.storeFromActive activeSlots ckptSlots]))
    (absent : other ∉ ckptSlots) :
    ((machine arith allocator).run state (before ++ [.storeFromActive activeSlots ckptSlots])).pool.ckpt other =
      ((machine arith allocator).run state before).pool.ckpt other := by
  rw [Machine.run_append]
  exact storeFromActive_other (run_builtFor built (Machine.meets_append lawful).1) absent

theorem run_load_other {before : List (Event Value Row)} {ckptSlots activeSlots : List Nat} {other : Nat}
    (built : BuiltFor state.pool state.active)
    (lawful : (machine arith allocator).Meets Lawful state (before ++ [.loadToActive ckptSlots activeSlots]))
    (absent : other ∉ activeSlots) :
    ((machine arith allocator).run state (before ++ [.loadToActive ckptSlots activeSlots])).active.slot other =
      ((machine arith allocator).run state before).active.slot other := by
  rw [Machine.run_append]
  exact loadToActive_other (run_builtFor built (Machine.meets_append lawful).1) absent

theorem run_stored {between : List (Event Value Row)} {activeSlots ckptSlots : List Nat} {index source slot : Nat}
    (built : BuiltFor state.pool state.active)
    (lawful : (machine arith allocator).Meets Lawful state (.storeFromActive activeSlots ckptSlots :: between))
    (read : activeSlots[index]? = some source) (written : ckptSlots[index]? = some slot)
    (latest : ∀ event ∈ between, slot ∉ event.stored) :
    ((machine arith allocator).run state (.storeFromActive activeSlots ckptSlots :: between)).pool.ckpt slot =
      (state.active.slot source).map (encode arith) := by
  obtain ⟨⟨-, distinct, reads, inside⟩, later⟩ := lawful
  have room := built.room slot (inside slot (List.mem_of_getElem? written))
  have kept := run_ckpt (storeFromActive_builtFor built) later latest
  exact kept.trans (storeFromActive_target built distinct reads room read written)

theorem run_restored {between : List (Event Value Row)} {activeSlots ckptSlots ckptSlots' activeSlots' : List Nat}
    {index index' source slot target : Nat} (built : BuiltFor state.pool state.active)
    (lawful : (machine arith allocator).Meets Lawful state
      (.storeFromActive activeSlots ckptSlots :: (between ++ [.loadToActive ckptSlots' activeSlots'])))
    (read : activeSlots[index]? = some source) (written : ckptSlots[index]? = some slot)
    (latest : ∀ event ∈ between, slot ∉ event.stored)
    (read' : ckptSlots'[index']? = some slot) (written' : activeSlots'[index']? = some target) :
    ((machine arith allocator).run state
        (.storeFromActive activeSlots ckptSlots :: (between ++ [.loadToActive ckptSlots' activeSlots']))).active.slot target =
      ((state.active.slot source).map (encode arith)).map (decode arith) := by
  have ⟨until_, last⟩ := @Machine.meets_append _ _ _ _ _ (.storeFromActive activeSlots ckptSlots :: between) _ lawful
  have loading := run_builtFor built until_
  obtain ⟨⟨-, distinct, reads, inside⟩, -⟩ := last
  have loaded := loadToActive_target arith loading distinct (fun slot listed => loading.room slot (inside slot listed))
    (reads target (List.mem_of_getElem? written')) read' written'
  rw [run_stored built until_ read written latest] at loaded
  have whole := Machine.run_append (machine arith allocator) state
    (.storeFromActive activeSlots ckptSlots :: between) [.loadToActive ckptSlots' activeSlots']
  rw [List.cons_append] at whole
  rw [whole]
  exact loaded

/-- A slot's state after a store and a load. -/
def SlotState.roundTrip (arith : Arithmetic Value) (state : SlotState (TemporalState Value) Row) :
    SlotState (TemporalState Value) Row :=
  state.map fun temporal =>
    let (codes, scales) := quantize arith temporal
    dequantize arith codes (storedScales arith scales)

/-- A pool fresh from its construction, beside the active pool it is for. -/
def Caching.init (allocator : SlotAllocator Slots) (memory : Uninitialised Value Row) (numSlots : Nat)
    (convShapes : List (List Nat)) (active : ActivePool Value Row) : Caching Value Row Slots where
  pool := .init allocator memory active.temporal.length numSlots convShapes active.sides
  active := active

/-- Snapshots stay whole: in any run, a load puts into its target every
component as the source of the last store had it, the temporal state through
its quantisation; and neither transfer touches another slot. -/
theorem snapshots_whole (arith : Arithmetic Value) (allocator : SlotAllocator Slots) (memory : Uninitialised Value Row)
    (numSlots : Nat) (windows : convShapes.length = active.conv.length)
    (layers : ∀ tensor ∈ active.conv, tensor.length = active.temporal.length) :
    let start := Caching.init allocator memory numSlots convShapes active
    let run := (machine arith allocator).run start
    let meets := (machine arith allocator).Meets Lawful start
    (∀ before between (activeSlots ckptSlots ckptSlots' activeSlots' : List Nat) (index index' source slot target : Nat),
      meets (before ++ .storeFromActive activeSlots ckptSlots :: (between ++ [.loadToActive ckptSlots' activeSlots'])) →
      activeSlots[index]? = some source → ckptSlots[index]? = some slot →
      (∀ event ∈ between, slot ∉ event.stored) →
      ckptSlots'[index']? = some slot → activeSlots'[index']? = some target →
      (run (before ++ .storeFromActive activeSlots ckptSlots ::
          (between ++ [.loadToActive ckptSlots' activeSlots']))).active.slot target =
        ((run before).active.slot source).roundTrip arith) ∧
    (∀ before ckptSlots activeSlots (other : Nat),
      meets (before ++ [.loadToActive ckptSlots activeSlots]) → other ∉ activeSlots →
      (run (before ++ [.loadToActive ckptSlots activeSlots])).active.slot other = (run before).active.slot other) ∧
    ∀ before activeSlots ckptSlots (other : Nat),
      meets (before ++ [.storeFromActive activeSlots ckptSlots]) → other ∉ ckptSlots →
      (run (before ++ [.storeFromActive activeSlots ckptSlots])).pool.ckpt other = (run before).pool.ckpt other := by
  have built : BuiltFor (Caching.init allocator memory numSlots convShapes active).pool active :=
    init_builtFor windows layers
  refine ⟨?_, fun _ _ _ _ => run_load_other built, fun _ _ _ _ => run_store_other built⟩
  intro before between activeSlots ckptSlots ckptSlots' activeSlots' index index' source slot target
    lawful read written latest read' written'
  obtain ⟨earlier, later⟩ := Machine.meets_append lawful
  have restored := run_restored (run_builtFor built earlier) later read written latest read' written'
  rw [Machine.run_append, restored]
  simp [SlotState.roundTrip, SlotState.map, Function.comp_def, encode, decode]

def exactArithmetic : Arithmetic ℚ where
  toFloat32 := id
  toState := id
  toScale := id
  toOut := id
  toInt8 value := ⌊value⌋
  ofInt value := value
  abs value := max value (-value)
  max := max
  min := min
  div value divisor := value / divisor
  mul value factor := value * factor
  round value := ⌊value + 1 / 2⌋
  tiny := 1 / 100000000

def freeList : SlotAllocator (Nat × List Nat) where
  init size := (size, List.range' 1 size)
  alloc slots n := if n ≤ slots.2.length then (some (slots.2.take n), slots.1, slots.2.drop n) else (none, slots)
  free slots freed := (slots.1, slots.2 ++ freed)
  availableSize slots := slots.2.length
  clear slots := (slots.1, List.range' 1 slots.1)

/-- One layer, three slots, one conv tensor, a short-conv state and an n-gram state. -/
def smallPool (first : ℚ) (row : Nat) : ActivePool ℚ Nat where
  temporal := [[[], [[[first, 0]]], [[[0, first]]]]]
  conv := [[[0, row, 2]]]
  sides := [⟨some [[0, row, 4]], none⟩, ⟨none, some [0, row, 6]⟩]

def staleMemory : Uninitialised ℚ Nat := ⟨fun _ _ => [], fun _ _ => [], fun _ _ _ _ => 9, fun _ _ _ => 9⟩

theorem snapshots_whole_two_stores :
    ((machine exactArithmetic freeList).run (Caching.init freeList staleMemory 2 [[4]] (smallPool 127 1))
      [.alloc 1, .storeFromActive [1] [1], .overwrite (smallPool 254 3), .storeFromActive [1] [2], .clear,
        .loadToActive [1] [2]]).active.slot 2 =
      ⟨[some [[[127, 0]]]], [[some 1]], [some [some 1], some [some 1]]⟩ := by
  have whole := @snapshots_whole _ _ _ [[4]] (smallPool 127 1) exactArithmetic freeList staleMemory 2 rfl (by decide)
  have restored := whole.1 [.alloc 1] [.overwrite (smallPool 254 3), .storeFromActive [1] [2], .clear]
    [1] [1] [1] [2] 0 0 1 1 2 (by decide) rfl rfl (by decide) rfl rfl
  exact restored.trans (by decide +kernel)

end Runs

end FlashNext.Mamba
