import FlashNext.Mamba.History
import FlashNext.Pool.SlotRuns

namespace FlashNext.Pool

open FlashNext.Data FlashNext.Mamba MambaPool

variable {Value Row Slots Saved Shape : Type} {backend : Backend Row (TemporalState Value) (SideState Row) Saved}

/-- The rows of a side state are those of its PLE tensor. -/
structure PleRows (laws : Laws backend (Option (List (Option Row))) Shape) : Prop where
  row : ∀ side slot, laws.row side slot = (pleSource side).map (Source.row slot)
  layout : ∀ side other, laws.shape side = laws.shape other →
    (pleSource side).map Source.layout = (pleSource other).map Source.layout
  has : ∀ side slot, laws.room (laws.shape side) slot → ∀ source ∈ pleSource side, source.Has slot

/-- A batch whose forward pass comes with clears and copies. -/
def Executes (isDraftWorker : Bool) (mode : ForwardMode) : Prop :=
  isDraftWorker = false ∧ mode.isExtend ∧ mode.isTargetVerify = false ∧ mode.isDraftExtendV2 = false

instance (isDraftWorker : Bool) (mode : ForwardMode) : Decidable (Executes isDraftWorker mode) :=
  inferInstanceAs (Decidable (_ ∧ _ ∧ _ ∧ _))

/-- The batch's slots, and what reads and writes them. -/
structure Deferrable (laws : Laws backend (Option (List (Option Row))) Shape)
    (ckptPool : Option (MambaCheckpointPool Value Row Slots)) (pool : MambaPool Row (TemporalState Value) (SideState Row))
    (batch : ForwardBatch) : Prop where
  clear : ∀ slot ∈ batch.mambaClearIndices.getD [], pool.Has laws slot
  same : (batch.mambaCowSrcIndices.getD []).length = (batch.mambaCowDstIndices.getD []).length
  distinct : (batch.mambaCowDstIndices.getD []).Nodup
  targets : ∀ slot ∈ batch.mambaCowDstIndices.getD [], pool.Has laws slot
  sources : match ckptPool with
    | some ckpt => BuiltFor ckpt pool.active ∧ ∀ slot ∈ batch.mambaCowSrcIndices.getD [], slot ≤ ckpt.numSlots
    | none => (pool.shouldFuseSlotOps → ∀ target ∈ batch.mambaCowDstIndices.getD [], target ∉ batch.mambaCowSrcIndices.getD []) ∧
        ∀ slot ∈ batch.mambaCowSrcIndices.getD [], pool.Has laws slot

/-- A slot that has been zeroed. -/
def zeroed (laws : Laws backend (Option (List (Option Row))) Shape) (state : SlotState (TemporalState Value) Row) :
    SlotState (TemporalState Value) Row where
  temporal := state.temporal.map (Option.map fun _ => backend.zeroTemporal)
  conv := state.conv.map (·.map (Option.map fun _ => backend.zeroConv))
  sides := state.sides.map laws.clearRow

/-- First the clears, then the copies, of decoded checkpoints or of slots. -/
def deferred (laws : Laws backend (Option (List (Option Row))) Shape) (arith : Arithmetic Value)
    (ckptPool : Option (MambaCheckpointPool Value Row Slots)) (batch : ForwardBatch)
    (store : Nat → SlotState (TemporalState Value) Row) : Nat → SlotState (TemporalState Value) Row :=
  let cleared := fun slot => if slot ∈ batch.mambaClearIndices.getD [] then zeroed laws (store slot) else store slot
  let cached := match ckptPool with
    | some ckpt => fun slot => (ckpt.ckpt slot).map (decode arith)
    | none => cleared
  assign (batch.mambaCowDstIndices.getD []) ((batch.mambaCowSrcIndices.getD []).map cached) cleared

section Steps

variable {laws : Laws backend (Option (List (Option Row))) Shape} {arith : Arithmetic Value}
  {ckptPool : Option (MambaCheckpointPool Value Row Slots)} {pool : MambaPool Row (TemporalState Value) (SideState Row)}
  {batch : ForwardBatch} {indices sources targets : List Nat} {slot : Nat}

/-- A snapshot without its cursors. -/
def Snapshot.states (snapshot : Snapshot Row (TemporalState Value) (Option (List (Option Row)))) :
    SlotState (TemporalState Value) Row := ⟨snapshot.temporal, snapshot.conv, snapshot.siblings⟩

theorem active_slot (ple : PleRows laws) (slot : Nat) : pool.active.slot slot = (pool.snapshot laws slot).states :=
  SlotState.ext rfl rfl (List.map_congr_left fun side _ => (ple.row side slot).symm)

theorem active_has (ple : PleRows laws) (has : pool.Has laws slot) : pool.active.Has slot where
  temporal := has.temporal
  conv := has.conv
  sides side member source here := ple.has side slot (has.siblings side member) source here

/-- A checkpoint pool is built for every pool of the same shape. -/
theorem builtFor_alike (ple : PleRows laws) {next : MambaPool Row (TemporalState Value) (SideState Row)}
    {ckpt : MambaCheckpointPool Value Row Slots} (alike : Alike laws next pool) (built : BuiltFor ckpt pool.active) :
    BuiltFor ckpt next.active where
  shape := by
    have layouts {left right : List (SideState Row)} (shapes : left.map laws.shape = right.map laws.shape) :
        left.map (fun side => (pleSource side).map Source.layout) =
          right.map fun side => (pleSource side).map Source.layout := by
      induction left generalizing right with
      | nil => rw [List.map_eq_nil_iff.mp shapes.symm]
      | cons side rest ih =>
          cases right with
          | nil => cases shapes
          | cons other later =>
              injection shapes with here shapes
              rw [List.map_cons, List.map_cons, ple.layout side other here, ih shapes]
    have sides := layouts alike.siblings
    rw [built.shape, ActivePool.shape, ActivePool.shape]
    simp only [active, alike.temporal, alike.conv, sides]
  scales := built.scales
  room := built.room

theorem clearSlots_slot (ple : PleRows laws) (inside : ∀ slot ∈ indices, pool.Has laws slot) (has : pool.Has laws slot) :
    (pool.clearSlots backend indices).active.slot slot =
      if slot ∈ indices then zeroed laws (pool.active.slot slot) else pool.active.slot slot := by
  rw [active_slot ple, active_slot ple, snapshot_clearSlots inside has]
  split <;> rfl

/-- The pool between the clears and the copies. -/
structure Cleared (laws : Laws backend (Option (List (Option Row))) Shape)
    (pool next : MambaPool Row (TemporalState Value) (SideState Row)) (indices : List Nat) : Prop where
  alike : Alike laws next pool
  has : ∀ slot, pool.Has laws slot → next.Has laws slot
  slots : ∀ slot, pool.Has laws slot → next.active.slot slot =
    if slot ∈ indices then zeroed laws (pool.active.slot slot) else pool.active.slot slot

theorem deferredClear_cleared (ple : PleRows laws) (paired : Paired pool) {indices : Option (List Nat)}
    (inside : ∀ slot ∈ indices.getD [], pool.Has laws slot) :
    Cleared laws pool (deferredClear backend indices pool) (indices.getD []) := by
  unfold deferredClear
  split
  · rename_i first rest
    exact {
      alike := clearSlots_alike paired inside
      has := fun slot has => clearSlots_has inside has
      slots := fun slot has => clearSlots_slot ple inside has }
  · rename_i nothing
    have empty : indices.getD [] = [] := by
      cases indices with
      | none => rfl
      | some listed =>
          cases listed with
          | nil => rfl
          | cons first rest => exact absurd rfl (nothing first rest)
    exact ⟨.refl paired, fun _ has => has, fun slot _ => by rw [empty, if_neg nofun]⟩

/-- The states move with their slots, whatever waits in the ring. -/
theorem copyFrom_slot (ple : PleRows laws) (copies : Copies laws pool sources targets) (has : pool.Has laws slot) :
    (pool.copyFrom backend sources targets).active.slot slot = move targets sources pool.active.slot slot := by
  have columns := copyFrom_columns copies has
  have temporal := copyFrom_temporal copies has
  have siblings := copyFrom_siblings copies has
  rw [active_slot ple]
  by_cases listed : slot ∈ targets
  · obtain ⟨index, target⟩ := List.getElem?_of_mem listed
    have bound := (List.getElem?_eq_some_iff.mp target).1
    have source := List.getElem?_eq_getElem (copies.same ▸ bound : index < sources.length)
    rw [move_target copies.distinct target source, active_slot ple]
    refine SlotState.ext ?_ ?_ ?_
    · exact temporal.trans (move_target copies.distinct target source)
    · exact columns.trans (List.map_congr_left fun tensor _ => move_target copies.distinct target source)
    · exact siblings.trans (List.map_congr_left fun sibling _ => move_target copies.distinct target source)
  · rw [move_other listed, active_slot ple]
    refine SlotState.ext ?_ ?_ ?_
    · exact temporal.trans (move_other listed)
    · exact columns.trans (List.map_congr_left fun tensor _ => move_other listed)
    · exact siblings.trans (List.map_congr_left fun sibling _ => move_other listed)

theorem loadToActive_slot {ckpt : MambaCheckpointPool Value Row Slots} {active : ActivePool Value Row}
    (built : BuiltFor ckpt active) (same : sources.length = targets.length) (distinct : targets.Nodup)
    (inside : ∀ slot ∈ sources, slot ≤ ckpt.numSlots) (has : active.Has slot) :
    (ckpt.loadToActive arith active sources targets).slot slot =
      assign targets (sources.map fun slot => (ckpt.ckpt slot).map (decode arith)) active.slot slot := by
  by_cases listed : slot ∈ targets
  · obtain ⟨index, target⟩ := List.getElem?_of_mem listed
    have bound := (List.getElem?_eq_some_iff.mp target).1
    have source := List.getElem?_eq_getElem (same ▸ bound : index < sources.length)
    rw [loadToActive_target arith built distinct (fun slot member => built.room slot (inside slot member)) has source target]
    exact (assign_target distinct target (by rw [List.getElem?_map, source]; rfl)).symm
  · rw [loadToActive_other built listed, assign_other listed]

theorem deferredCow_slot (ple : PleRows laws) {next : MambaPool Row (TemporalState Value) (SideState Row)}
    (deferrable : Deferrable laws ckptPool pool batch) (cleared : Cleared laws pool next (batch.mambaClearIndices.getD []))
    (has : pool.Has laws slot) :
    (deferredCow backend arith ckptPool batch.mambaCowSrcIndices batch.mambaCowDstIndices next).active.slot slot =
      deferred laws arith ckptPool batch pool.active.slot slot := by
  obtain ⟨-, same, distinct, targets, readable⟩ := deferrable
  have here := cleared.slots slot has
  unfold deferredCow
  split
  · rename_i first rest listed
    rw [listed] at same readable
    simp only [Option.getD_some] at same readable
    unfold cowFrom deferred
    rw [listed]
    cases ckptPool with
    | some ckpt =>
        have loaded := @loadToActive_slot _ _ _ arith _ _ _ _ _ (builtFor_alike ple cleared.alike readable.1) same distinct readable.2
          (active_has ple (cleared.has slot has))
        exact loaded.trans (assign_agree here)
    | none =>
        have copies : Copies laws next (first :: rest) (batch.mambaCowDstIndices.getD []) := by
          refine ⟨same, distinct, fun fused => readable.1 (cleared.alike.fused ▸ fused), fun slot member => cleared.has slot ?_⟩
          exact (List.mem_append.mp member).elim (readable.2 slot) (targets slot)
        refine (copyFrom_slot ple copies (cleared.has slot has)).trans ?_
        exact move_congr (fun source member => cleared.slots source (readable.2 source member)) here
  · rename_i nothing
    have empty : batch.mambaCowSrcIndices.getD [] = [] := by
      cases sources : batch.mambaCowSrcIndices with
      | none => rfl
      | some listed =>
          cases listed with
          | nil => rfl
          | cons first rest => exact absurd sources (nothing first rest)
    have untouched : batch.mambaCowDstIndices.getD [] = [] := by
      rw [empty] at same
      exact List.eq_nil_of_length_eq_zero same.symm
    unfold deferred
    rw [here, untouched, assign_nil]

/-- Where a batch's clears and copies run, its slots are as they say, and the
batch brings nothing more: on any later pool it does nothing. -/
theorem deferred_lands (arith : Arithmetic Value) (ple : PleRows laws) (paired : Paired pool) {isDraftWorker : Bool}
    (executes : Executes isDraftWorker batch.forwardMode) (deferrable : Deferrable laws ckptPool pool batch) :
    (∀ slot, pool.Has laws slot →
      (maybeExecuteDeferredMambaCowAndClear backend arith isDraftWorker ckptPool pool batch).1.active.slot slot =
        deferred laws arith ckptPool batch pool.active.slot slot) ∧
    ∀ later, maybeExecuteDeferredMambaCowAndClear backend arith isDraftWorker ckptPool later
        (maybeExecuteDeferredMambaCowAndClear backend arith isDraftWorker ckptPool pool batch).2 =
      (later, (maybeExecuteDeferredMambaCowAndClear backend arith isDraftWorker ckptPool pool batch).2) := by
  obtain ⟨target, extend, verify, draft⟩ := executes
  have runs : maybeExecuteDeferredMambaCowAndClear backend arith isDraftWorker ckptPool pool batch =
      (deferredCow backend arith ckptPool batch.mambaCowSrcIndices batch.mambaCowDstIndices
        (deferredClear backend batch.mambaClearIndices pool),
        { batch with mambaClearIndices := none, mambaCowSrcIndices := none, mambaCowDstIndices := none }) := by
    simp [maybeExecuteDeferredMambaCowAndClear, target, extend, verify, draft]
  rw [runs]
  constructor
  · intro slot has
    exact deferredCow_slot ple deferrable (deferredClear_cleared ple paired deferrable.clear) has
  · intro later
    simp [maybeExecuteDeferredMambaCowAndClear, target, extend, verify, draft, deferredCow, deferredClear]

end Steps

section Mirrored

def fillSource (indices : List Nat) : Source Nat → Source Nat
  | .layerMajor tensor => .layerMajor (fillColumns indices 0 tensor)
  | .slotMajor rows => .slotMajor (putSlots indices (List.replicate indices.length 0) rows)

theorem layers_fill (indices : List Nat) (source : Source Nat) :
    (fillSource indices source).layers = fillColumns indices 0 source.layers := by
  cases source <;> rfl

theorem layout_fill (indices : List Nat) (source : Source Nat) : (fillSource indices source).layout = source.layout := by
  cases source with
  | layerMajor tensor => exact congrArg Source.Layout.layerMajor (length_putColumns (List.length_map _))
  | slotMajor rows => rfl

theorem has_fill {indices : List Nat} {source : Source Nat} {slot : Nat} :
    (fillSource indices source).Has slot ↔ source.Has slot := by
  rw [Source.Has, layers_fill]
  exact hasSlot_fill

def resetSide (side : SideState Nat) (indices : List Nat) : SideState Nat :=
  match pleSource side with
  | none => side
  | some source => side.write (fillSource indices source)

theorem pleSource_reset (side : SideState Nat) (indices : List Nat) :
    pleSource (resetSide side indices) = (pleSource side).map (fillSource indices) := by
  unfold resetSide
  cases found : pleSource side with
  | none => exact found
  | some source => exact pleSource_write found (layout_fill indices source)

def mirroredBackend : Backend Nat (TemporalState ℚ) (SideState Nat) (Option (Source Nat) × List Nat) where
  zeroConv := 0
  zeroTemporal := []
  resetSlots := resetSide
  copySlots side sources targets := loadMirror sources targets (pleSource side) side
  getCpuSlots side indices := (pleSource side, indices)
  loadCpuSlots side saved targets := loadMirror saved.2 targets saved.1 side
  fusedClearConvSlots tensors indices := tensors.map (fillColumns indices 0)
  fusedCopyConvSlots tensors sources targets := tensors.map (copyColumns sources targets)

/-- The layout of a side state, and the slots that it has. -/
def sideShape (side : SideState Nat) : Option Source.Layout × (Nat → Prop) :=
  ((pleSource side).map Source.layout, fun slot => ∀ source ∈ pleSource side, source.Has slot)

theorem sideShape_load {sources targets : List Nat} {mirror : Option (Source Nat)} {side : SideState Nat}
    (same : mirror.map Source.layout = (pleSource side).map Source.layout) :
    sideShape (loadMirror sources targets mirror side) = sideShape side := by
  refine Prod.ext (loadMirror_layout same) (funext fun slot => propext ?_)
  obtain ⟨rfl, -⟩ | ⟨cached, running, rfl, found, layouts⟩ := mirrored_cases same
  · rfl
  · have kept := Source.layout_assign targets sources layouts.symm
    simp [sideShape, loadMirror, found, pleSource_write found kept, Source.has_assign layouts.symm]

theorem row_load {sources targets : List Nat} {mirror : Option (Source Nat)} {side : SideState Nat} {slot : Nat}
    (layouts : mirror.map Source.layout = (pleSource side).map Source.layout) (same : sources.length = targets.length)
    (distinct : targets.Nodup) (reads : ∀ slot ∈ sources, ∀ cached ∈ mirror, cached.Has slot)
    (room : ∀ running ∈ pleSource side, running.Has slot) :
    (pleSource (loadMirror sources targets mirror side)).map (Source.row slot) =
      assign targets (sources.map fun slot => mirror.map (Source.row slot)) (fun slot => (pleSource side).map (Source.row slot))
        slot := by
  by_cases listed : slot ∈ targets
  · obtain ⟨index, target⟩ := List.getElem?_of_mem listed
    have bound := (List.getElem?_eq_some_iff.mp target).1
    have source := List.getElem?_eq_getElem (same ▸ bound : index < sources.length)
    rw [loadMirror_target layouts distinct reads source target room]
    exact (assign_target distinct target (by rw [List.getElem?_map, source]; rfl)).symm
  · rw [loadMirror_other layouts listed, assign_other listed]

def mirroredLaws : Laws mirroredBackend (Option (List (Option Nat))) (Option Source.Layout × (Nat → Prop)) where
  row side slot := (pleSource side).map (Source.row slot)
  shape := sideShape
  room shape slot := shape.2 slot
  clearRow := Option.map (·.map (Option.map fun _ => 0))
  resetShape side indices := by
    refine Prod.ext ?_ (funext fun slot => propext ?_)
    · simp [sideShape, mirroredBackend, pleSource_reset, Function.comp_def, layout_fill]
    · simp [sideShape, mirroredBackend, pleSource_reset, has_fill]
  reset side indices slot _ room := by
    rw [show mirroredBackend.resetSlots = resetSide from rfl, pleSource_reset, Option.map_map]
    cases found : pleSource side with
    | none => simp
    | some source =>
        simp only [Option.map_some, Function.comp_apply, Source.row, layers_fill]
        rw [column_fill 0 (room source found)]
        split <;> rfl
  copyShape _ _ _ := sideShape_load rfl
  copied _ _ _ _ same distinct reads room := row_load rfl same distinct reads room
  loadShape _ _ _ _ shapes := sideShape_load (congrArg Prod.fst shapes).symm
  loaded _ _ _ _ _ shapes same distinct reads room := row_load (congrArg Prod.fst shapes).symm same distinct reads room
  fusedClear _ _ _ := rfl
  fusedCopy _ _ _ _ _ _ _ := rfl

def mirroredPool (active : ActivePool ℚ Nat) : MambaPool Nat (TemporalState ℚ) (SideState Nat) where
  conv := active.conv
  temporal := active.temporal
  replaySSM := ⟨none, none⟩
  slotSiblings := active.sides
  shouldFuseSlotOps := false

/-- A cached state is decoded into a slot that was just cleared. -/
theorem deferred_lands_checkpoint :
    ((maybeExecuteDeferredMambaCowAndClear mirroredBackend exactArithmetic false
        (some ((MambaCheckpointPool.init freeList staleMemory 1 2 [[4]] (smallPool 127 1).sides).storeFromActive exactArithmetic
          (smallPool 127 1) [1] [1]))
        (mirroredPool (smallPool 254 3)) ⟨⟨true, false, false⟩, some [2], some [1], some [2]⟩).1.active.slot 2) =
      ⟨[some [[[127, 0]]]], [[some 1]], [some [some 1], some [some 1]]⟩ := by
  have ple : PleRows mirroredLaws :=
    ⟨fun _ _ => rfl, fun _ _ shapes => congrArg Prod.fst shapes, fun _ _ room => room⟩
  have has : (mirroredPool (smallPool 254 3)).Has mirroredLaws 2 := by
    have active : (smallPool 254 3).Has 2 := by decide
    exact ⟨active.conv, active.temporal, nofun, nofun, active.sides⟩
  have paired : Paired (mirroredPool (smallPool 254 3)) := fun ring => by cases ring
  have layers : ∀ tensor ∈ (smallPool 127 1).conv, tensor.length = (smallPool 127 1).temporal.length := by decide
  have built : BuiltFor (MambaCheckpointPool.init freeList staleMemory 1 2 [[4]] (smallPool 127 1).sides) (smallPool 127 1) :=
    init_builtFor rfl layers
  have stored := @storeFromActive_builtFor _ _ _ exactArithmetic _ _ [1] [1] built
  have lands := (deferred_lands exactArithmetic ple paired (by decide : Executes false ⟨true, false, false⟩)
    (show Deferrable mirroredLaws (some _) (mirroredPool (smallPool 254 3)) ⟨⟨true, false, false⟩, some [2], some [1], some [2]⟩ from
      { clear := by simpa using has
        same := rfl
        distinct := List.nodup_singleton _
        targets := by simpa using has
        sources := ⟨⟨stored.shape.trans rfl, stored.scales, stored.room⟩, by decide⟩ })).1 2 has
  exact lands.trans (by decide +kernel)

end Mirrored

end FlashNext.Pool
