import FlashNext.Mamba.Snapshots

namespace FlashNext.Mamba

open FlashNext.Data

variable {Value Row Slots : Type}

structure Shape where
  temporal : Nat
  conv : List Nat
  sides : List (Option Source.Layout)
  deriving DecidableEq

namespace ActivePool

variable (active : ActivePool Value Row)

def shape : Shape :=
  ⟨active.temporal.length, active.conv.map List.length, active.sides.map fun side => (pleSource side).map Source.layout⟩

structure Has (slot : Nat) : Prop where
  temporal : HasSlot slot active.temporal
  conv : ∀ tensor ∈ active.conv, HasSlot slot tensor
  sides : ∀ side ∈ active.sides, ∀ source ∈ pleSource side, source.Has slot

instance (slot : Nat) : Decidable (active.Has slot) :=
  decidable_of_iff (HasSlot slot active.temporal ∧ (∀ tensor ∈ active.conv, HasSlot slot tensor) ∧
      ∀ side ∈ active.sides, ∀ source ∈ pleSource side, HasSlot slot source.layers)
    ⟨fun ⟨temporal, conv, sides⟩ => ⟨temporal, conv, sides⟩, fun has => ⟨has.temporal, has.conv, has.sides⟩⟩

def slot (slot : Nat) : SlotState (TemporalState Value) Row where
  temporal := column slot active.temporal
  conv := active.conv.map (column slot)
  sides := active.sides.map fun side => (pleSource side).map (Source.row slot)

end ActivePool

namespace MambaCheckpointPool

variable (pool : MambaCheckpointPool Value Row Slots)

def shape : Shape :=
  ⟨pool.temporal.qdata.length, pool.conv.map List.length, pool.pleMirrors.map (Option.map Source.layout)⟩

structure Has (slot : Nat) : Prop where
  qdata : HasSlot slot pool.temporal.qdata
  scale : HasSlot slot pool.temporal.scale
  conv : ∀ tensor ∈ pool.conv, HasSlot slot tensor
  mirrors : ∀ mirror ∈ pool.pleMirrors, ∀ source ∈ mirror, source.Has slot

def ckpt (slot : Nat) : SlotState (Codes × Scales Value) Row where
  temporal := List.zipWith (Option.map₂ Prod.mk) (column slot pool.temporal.qdata) (column slot pool.temporal.scale)
  conv := pool.conv.map (column slot)
  sides := pool.pleMirrors.map (Option.map (Source.row slot))

end MambaCheckpointPool

/-- The pool was built for these states: every component of one has its layers
in the other, and every checkpoint slot a row in each. -/
structure BuiltFor (pool : MambaCheckpointPool Value Row Slots) (active : ActivePool Value Row) : Prop where
  shape : pool.shape = active.shape
  scales : pool.temporal.scale.length = pool.temporal.qdata.length
  room : ∀ slot ≤ pool.numSlots, pool.Has slot

namespace BuiltFor

variable {pool : MambaCheckpointPool Value Row Slots} {active : ActivePool Value Row}

theorem codes (built : BuiltFor pool active) : active.temporal.length = pool.temporal.qdata.length :=
  (congrArg Shape.temporal built.shape).symm

theorem scaleRows (built : BuiltFor pool active) : active.temporal.length = pool.temporal.scale.length :=
  built.codes.trans built.scales.symm

theorem conv (built : BuiltFor pool active) : pool.conv.map List.length = active.conv.map List.length :=
  congrArg Shape.conv built.shape

theorem sides (built : BuiltFor pool active) :
    pool.pleMirrors.map (Option.map Source.layout) =
      active.sides.map fun side => (pleSource side).map Source.layout := congrArg Shape.sides built.shape

end BuiltFor

section Stores

variable {arith : Arithmetic Value} {pool : MambaCheckpointPool Value Row Slots} {active : ActivePool Value Row}
  {activeSlots ckptSlots : List Nat} {slot source target index : Nat}

theorem storeFromActive_shape (built : BuiltFor pool active) :
    (pool.storeFromActive arith active activeSlots ckptSlots).shape = pool.shape := by
  have codes : (pool.storeFromActive arith active activeSlots ckptSlots).temporal.qdata.length =
      pool.temporal.qdata.length := length_putColumns (by simp [built.codes])
  have conv : (pool.storeFromActive arith active activeSlots ckptSlots).conv.map List.length = pool.conv.map List.length :=
    map_zipWith_left built.conv fun into _ from_ _ same => length_putColumns (by simp [same])
  have sides : (pool.storeFromActive arith active activeSlots ckptSlots).pleMirrors.map (Option.map Source.layout) =
      pool.pleMirrors.map (Option.map Source.layout) :=
    map_zipWith_left built.sides fun _ _ _ _ same => storeMirror_layout same
  rw [MambaCheckpointPool.shape, codes, conv, sides]
  rfl

theorem storeFromActive_has (built : BuiltFor pool active) (room : pool.Has slot) :
    (pool.storeFromActive arith active activeSlots ckptSlots).Has slot where
  qdata := (hasSlot_putColumns (by simp [built.codes])).mpr room.qdata
  scale := (hasSlot_putColumns (by simp [built.scaleRows])).mpr room.scale
  conv := forall_zipWith built.conv fun into member from_ _ same =>
    (hasSlot_putColumns (by simp [same])).mpr (room.conv into member)
  mirrors := forall_zipWith built.sides fun mirror member _ _ same =>
    storeMirror_has same (room.mirrors mirror member)

theorem storeFromActive_builtFor (built : BuiltFor pool active) :
    BuiltFor (pool.storeFromActive arith active activeSlots ckptSlots) active where
  shape := (storeFromActive_shape built).trans built.shape
  scales := by
    have codes : (pool.storeFromActive arith active activeSlots ckptSlots).temporal.qdata.length =
      pool.temporal.qdata.length := length_putColumns (by simp [built.codes])
    have scales : (pool.storeFromActive arith active activeSlots ckptSlots).temporal.scale.length =
      pool.temporal.scale.length := length_putColumns (by simp [built.scaleRows])
    rw [codes, scales, built.scales]
  room slot bound := storeFromActive_has built (built.room slot bound)

theorem storeFromActive_other (built : BuiltFor pool active) (absent : slot ∉ ckptSlots) :
    (pool.storeFromActive arith active activeSlots ckptSlots).ckpt slot = pool.ckpt slot := by
  apply SlotState.ext
  · apply congrArg₂ (List.zipWith _)
    · exact column_putColumns_other absent (by simp [built.codes])
    · exact column_putColumns_other absent (by simp [built.scaleRows])
  · exact map_zipWith_left built.conv fun into _ from_ _ same => column_putColumns_other absent (by simp [same])
  · exact map_zipWith_left built.sides fun _ _ _ _ same => storeMirror_other same absent

theorem storeFromActive_target (built : BuiltFor pool active) (distinct : ckptSlots.Nodup)
    (reads : ∀ slot ∈ activeSlots, active.Has slot) (room : pool.Has target)
    (read : activeSlots[index]? = some source) (written : ckptSlots[index]? = some target) :
    (pool.storeFromActive arith active activeSlots ckptSlots).ckpt target = (active.slot source).map (encode arith) := by
  have temporal slot (listed : slot ∈ activeSlots) := (reads slot listed).temporal
  have codes : column target (pool.storeFromActive arith active activeSlots ckptSlots).temporal.qdata =
      (column source active.temporal).map (Option.map fun state => (quantize arith state).1) :=
    column_convert distinct built.codes temporal read written room.qdata
  have scales : column target (pool.storeFromActive arith active activeSlots ckptSlots).temporal.scale =
      (column source active.temporal).map (Option.map fun state => storedScales arith (quantize arith state).2) :=
    column_convert distinct built.scaleRows temporal read written room.scale
  apply SlotState.ext
  · rw [MambaCheckpointPool.ckpt, codes, scales, zipWith_pair]
    rfl
  · exact map_zipWith_right built.conv fun into inPool from_ inActive same =>
      column_copy distinct same.symm (fun slot listed => (reads slot listed).conv from_ inActive) read written
        (room.conv into inPool)
  · exact map_zipWith_right built.sides fun mirror inPool side inActive same =>
      storeMirror_target same distinct (fun slot listed => (reads slot listed).sides side inActive) read written
        (room.mirrors mirror inPool)

end Stores

section Loads

variable {arith : Arithmetic Value} {pool : MambaCheckpointPool Value Row Slots} {active : ActivePool Value Row}
  {activeSlots ckptSlots : List Nat} {slot source target index : Nat}

theorem load_eq (reads : ∀ slot ∈ ckptSlots, pool.Has slot) :
    pool.temporal.load arith ckptSlots =
      takeColumns ckptSlots (List.zipWith (List.zipWith (dequantize arith)) pool.temporal.qdata pool.temporal.scale) :=
  takeColumns_zipWith (dequantize arith) (fun slot listed => (reads slot listed).qdata)
    fun slot listed => (reads slot listed).scale

theorem length_load (built : BuiltFor pool active) :
    (pool.temporal.load arith ckptSlots).length = active.temporal.length := by
  simp [Int8CheckpointStore.load, built.scales, built.codes]

theorem loadToActive_shape (built : BuiltFor pool active) :
    (pool.loadToActive arith active ckptSlots activeSlots).shape = active.shape := by
  have temporal : (pool.loadToActive arith active ckptSlots activeSlots).temporal.length = active.temporal.length :=
    length_putColumns (length_load built)
  have conv : (pool.loadToActive arith active ckptSlots activeSlots).conv.map List.length = active.conv.map List.length :=
    map_zipWith_right built.conv fun from_ _ into _ same => length_putColumns (by simp [same])
  have sides : (pool.loadToActive arith active ckptSlots activeSlots).sides.map
      (fun side => (pleSource side).map Source.layout) =
      active.sides.map fun side => (pleSource side).map Source.layout :=
    map_zipWith_right built.sides fun _ _ _ _ same => loadMirror_layout same
  rw [ActivePool.shape, temporal, conv, sides]
  rfl

theorem loadToActive_other (built : BuiltFor pool active) (absent : slot ∉ activeSlots) :
    (pool.loadToActive arith active ckptSlots activeSlots).slot slot = active.slot slot := by
  apply SlotState.ext
  · exact column_putColumns_other absent (length_load built)
  · exact map_zipWith_right built.conv fun from_ _ into _ same => column_putColumns_other absent (by simp [same])
  · exact map_zipWith_right built.sides fun _ _ _ _ same => loadMirror_other same absent

theorem loadToActive_target (arith : Arithmetic Value) (built : BuiltFor pool active) (distinct : activeSlots.Nodup)
    (reads : ∀ slot ∈ ckptSlots, pool.Has slot) (room : active.Has target)
    (read : ckptSlots[index]? = some source) (written : activeSlots[index]? = some target) :
    (pool.loadToActive arith active ckptSlots activeSlots).slot target = (pool.ckpt source).map (decode arith) := by
  have temporal : column target (pool.temporal.copyToPool arith active.temporal ckptSlots activeSlots) =
      column source (List.zipWith (List.zipWith (dequantize arith)) pool.temporal.qdata pool.temporal.scale) := by
    rw [Int8CheckpointStore.copyToPool, load_eq reads]
    exact column_copy distinct (by simp [built.scales, built.codes])
      (fun slot listed => hasSlot_zipWith _ (reads slot listed).qdata (reads slot listed).scale) read written room.temporal
  apply SlotState.ext
  · rw [MambaCheckpointPool.loadToActive, ActivePool.slot, temporal, column_zipWith]
    simp [SlotState.map, MambaCheckpointPool.ckpt, List.map_zipWith, Option.map_map₂, decode]
  · exact map_zipWith_left built.conv fun from_ inPool into inActive same =>
      column_copy distinct same (fun slot listed => (reads slot listed).conv from_ inPool) read written
        (room.conv into inActive)
  · exact map_zipWith_left built.sides fun mirror inPool side inActive same =>
      loadMirror_target same distinct (fun slot listed => (reads slot listed).mirrors mirror inPool) read written
        (room.sides side inActive)

end Loads

end FlashNext.Mamba
