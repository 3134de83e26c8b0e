import FlashNext.Pool.SlotStates

namespace FlashNext.Pool

open FlashNext.Data

variable {Conv Temporal State Saved Row Shape : Type}

/-- What the pool relies on.  A side state has a row for each slot of its shape,
and the calls clear, move and restore rows; a fused kernel does what the loop does. -/
structure Laws (backend : Backend Conv Temporal State Saved) (Row Shape : Type) where
  row : State → Nat → Row
  shape : State → Shape
  room : Shape → Nat → Prop
  clearRow : Row → Row
  resetShape : ∀ state indices, shape (backend.resetSlots state indices) = shape state
  reset : ∀ state indices slot, (∀ slot ∈ indices, room (shape state) slot) → room (shape state) slot →
    row (backend.resetSlots state indices) slot = if slot ∈ indices then clearRow (row state slot) else row state slot
  copyShape : ∀ state sources targets, shape (backend.copySlots state sources targets) = shape state
  copied : ∀ state sources targets slot, sources.length = targets.length → targets.Nodup →
    (∀ slot ∈ sources, room (shape state) slot) → room (shape state) slot →
    row (backend.copySlots state sources targets) slot = move targets sources (row state) slot
  loadShape : ∀ into from_ sources targets, shape into = shape from_ →
    shape (backend.loadCpuSlots into (backend.getCpuSlots from_ sources) targets) = shape into
  loaded : ∀ into from_ sources targets slot, shape into = shape from_ → sources.length = targets.length → targets.Nodup →
    (∀ slot ∈ sources, room (shape from_) slot) → room (shape into) slot →
    row (backend.loadCpuSlots into (backend.getCpuSlots from_ sources) targets) slot =
      assign targets (sources.map (row from_)) (row into) slot
  fusedClear : ∀ tensors indices, (∀ slot ∈ indices, ∀ tensor ∈ tensors, HasSlot slot tensor) →
    backend.fusedClearConvSlots tensors indices = tensors.map (fillColumns indices backend.zeroConv)
  fusedCopy : ∀ tensors sources targets, sources.length = targets.length → targets.Nodup →
    (∀ target ∈ targets, target ∉ sources) → (∀ slot ∈ sources ++ targets, ∀ tensor ∈ tensors, HasSlot slot tensor) →
    backend.fusedCopyConvSlots tensors sources targets = tensors.map (copyColumns sources targets)

/-- A slot's states and cursors. -/
@[ext] structure Snapshot (Conv Temporal Row : Type) where
  conv : List (List (Option Conv))
  temporal : List (Option Temporal)
  writePos : Option Nat
  ring : Option (Nat × Nat)
  siblings : List Row

namespace Snapshot

/-- Nothing waits in the ring. -/
def Flushed (snapshot : Snapshot Conv Temporal Row) : Prop :=
  (∀ position ∈ snapshot.writePos, position = 0) ∧ ∀ ring ∈ snapshot.ring, ring = (0, 0)

instance (snapshot : Snapshot Conv Temporal Row) : Decidable snapshot.Flushed :=
  inferInstanceAs (Decidable ((∀ position ∈ snapshot.writePos, position = 0) ∧ ∀ ring ∈ snapshot.ring, ring = (0, 0)))

def cleared (zeroConv : Conv) (zeroTemporal : Temporal) (clearRow : Row → Row) (snapshot : Snapshot Conv Temporal Row) :
    Snapshot Conv Temporal Row :=
  { snapshot with
    conv := snapshot.conv.map (·.map (Option.map fun _ => zeroConv))
    temporal := snapshot.temporal.map (Option.map fun _ => zeroTemporal)
    siblings := snapshot.siblings.map clearRow }

end Snapshot

namespace MambaPool

variable {backend : Backend Conv Temporal State Saved} (laws : Laws backend Row Shape) (pool : MambaPool Conv Temporal State)

def snapshot (slot : Nat) : Snapshot Conv Temporal Row where
  conv := pool.conv.map (column slot)
  temporal := column slot pool.temporal
  writePos := pool.replaySSM.writePos.map (·.getD slot 0)
  ring := pool.replaySSM.cacheBase.map fun ring => (ring.1.getD slot 0, ring.2.getD slot 0)
  siblings := pool.slotSiblings.map fun sibling => laws.row sibling slot

/-- Every tensor has the slot. -/
structure Has (slot : Nat) : Prop where
  conv : ∀ tensor ∈ pool.conv, HasSlot slot tensor
  temporal : HasSlot slot pool.temporal
  writePos : ∀ position ∈ pool.replaySSM.writePos, slot < position.length
  ring : ∀ ring ∈ pool.replaySSM.cacheBase, slot < ring.1.length ∧ slot < ring.2.length
  siblings : ∀ sibling ∈ pool.slotSiblings, laws.room (laws.shape sibling) slot

end MambaPool

section Columns

variable {α : Type} {tensor : List (List α)} {indices sources targets : List Nat} {slot : Nat}

theorem column_fill (value : α) (has : HasSlot slot tensor) : column slot (fillColumns indices value tensor) =
    if slot ∈ indices then (column slot tensor).map (Option.map fun _ => value) else column slot tensor := by
  induction tensor with
  | nil => split <;> rfl
  | cons rows rest ih =>
      obtain ⟨here, later⟩ := List.forall_mem_cons.mp has
      have step : column slot (fillColumns indices value (rows :: rest)) =
          (putSlots indices (List.replicate indices.length value) rows)[slot]? ::
            column slot (fillColumns indices value rest) := rfl
      have whole : column slot (rows :: rest) = rows[slot]? :: column slot rest := rfl
      rw [step, ih later, whole]
      by_cases listed : slot ∈ indices
      · rw [if_pos listed, if_pos listed, putSlots_const listed here, List.getElem?_eq_getElem here]
        rfl
      · rw [if_neg listed, if_neg listed, putSlots_other listed]

theorem column_copied (distinct : targets.Nodup) (same : sources.length = targets.length)
    (reads : ∀ source ∈ sources, HasSlot source tensor) (has : HasSlot slot tensor) :
    column slot (copyColumns sources targets tensor) = move targets sources (fun slot => column slot tensor) slot := by
  have layers : (takeColumns sources tensor).length = tensor.length := length_takeColumns _ _
  by_cases listed : slot ∈ targets
  · obtain ⟨index, target⟩ := List.getElem?_of_mem listed
    have bound := (List.getElem?_eq_some_iff.mp target).1
    have source := List.getElem?_eq_getElem (same ▸ bound : index < sources.length)
    rw [move_target distinct target source]
    exact column_copy distinct rfl reads source target has
  · rw [move_other listed]
    exact column_putColumns_other listed layers

theorem hasSlot_fill {value : α} : HasSlot slot (fillColumns indices value tensor) ↔ HasSlot slot tensor :=
  hasSlot_putColumns (List.length_map _)

theorem hasSlot_copied : HasSlot slot (copyColumns sources targets tensor) ↔ HasSlot slot tensor :=
  hasSlot_putColumns (length_takeColumns _ _)

theorem getD_zeroed {counts : List Nat} (bound : slot < counts.length) :
    (putSlots indices (List.replicate indices.length 0) counts).getD slot 0 =
      if slot ∈ indices then 0 else counts.getD slot 0 := by
  rw [List.getD_eq_getElem?_getD]
  by_cases listed : slot ∈ indices
  · rw [if_pos listed, putSlots_const listed bound]
    rfl
  · rw [if_neg listed, putSlots_other listed, ← List.getD_eq_getElem?_getD]

end Columns

section Calls

open MambaPool

variable {backend : Backend Conv Temporal State Saved} {laws : Laws backend Row Shape} {pool source : MambaPool Conv Temporal State}
  {indices sources targets : List Nat} {slot : Nat}

/-- What `copy_from` asks of its slots. -/
structure Copies (laws : Laws backend Row Shape) (pool : MambaPool Conv Temporal State) (sources targets : List Nat) : Prop where
  same : sources.length = targets.length
  distinct : targets.Nodup
  apart : pool.shouldFuseSlotOps → ∀ target ∈ targets, target ∉ sources
  inside : ∀ slot ∈ sources ++ targets, pool.Has laws slot

theorem Copies.reads (copies : Copies laws pool sources targets) : ∀ slot ∈ sources, pool.Has laws slot :=
  fun slot member => copies.inside slot (List.mem_append_left _ member)

theorem clearSlots_conv (inside : ∀ slot ∈ indices, pool.Has laws slot) :
    (pool.clearSlots backend indices).conv = pool.conv.map (fillColumns indices backend.zeroConv) := by
  rw [clearSlots, laws.fusedClear _ _ fun slot member => (inside slot member).conv, ite_self]

theorem copyFrom_conv (copies : Copies laws pool sources targets) :
    (pool.copyFrom backend sources targets).conv = pool.conv.map (copyColumns sources targets) := by
  rw [copyFrom]
  split
  · rename_i fused
    exact laws.fusedCopy _ _ _ copies.same copies.distinct (copies.apart fused) fun slot member => (copies.inside slot member).conv
  · rfl

theorem snapshot_clearSlots (inside : ∀ slot ∈ indices, pool.Has laws slot) (has : pool.Has laws slot) :
    (pool.clearSlots backend indices).snapshot laws slot =
      if slot ∈ indices then (pool.snapshot laws slot).cleared backend.zeroConv backend.zeroTemporal laws.clearRow
      else pool.snapshot laws slot := by
  have siblings : (pool.clearSlots backend indices).slotSiblings.map (fun sibling => laws.row sibling slot) =
      pool.slotSiblings.map fun sibling => if slot ∈ indices then laws.clearRow (laws.row sibling slot) else laws.row sibling slot := by
    rw [clearSlots, List.map_map]
    exact List.map_congr_left fun sibling member =>
      laws.reset sibling indices slot (fun slot listed => (inside slot listed).siblings sibling member) (has.siblings sibling member)
  have columns : (pool.clearSlots backend indices).conv.map (column slot) = pool.conv.map fun tensor =>
      if slot ∈ indices then (column slot tensor).map (Option.map fun _ => backend.zeroConv) else column slot tensor := by
    rw [clearSlots_conv inside, List.map_map]
    exact List.map_congr_left fun tensor member => column_fill _ (has.conv tensor member)
  have temporal : column slot (pool.clearSlots backend indices).temporal = _ := column_fill backend.zeroTemporal has.temporal
  unfold snapshot
  rw [columns, temporal, siblings]
  by_cases listed : slot ∈ indices
  · simp only [if_pos listed, Snapshot.cleared, List.map_map]
    rfl
  · simp only [if_neg listed]
    rfl

theorem copyFrom_columns (copies : Copies laws pool sources targets) (has : pool.Has laws slot) :
    ((pool.copyFrom backend sources targets).snapshot laws slot).conv =
      pool.conv.map fun tensor => move targets sources (fun slot => column slot tensor) slot := by
  rw [snapshot, copyFrom_conv copies, List.map_map]
  exact List.map_congr_left fun tensor member => column_copied copies.distinct copies.same
    (fun source listed => (copies.reads source listed).conv tensor member) (has.conv tensor member)

theorem copyFrom_temporal (copies : Copies laws pool sources targets) (has : pool.Has laws slot) :
    ((pool.copyFrom backend sources targets).snapshot laws slot).temporal =
      move targets sources (fun slot => column slot pool.temporal) slot :=
  column_copied copies.distinct copies.same (fun source listed => (copies.reads source listed).temporal) has.temporal

theorem copyFrom_siblings (copies : Copies laws pool sources targets) (has : pool.Has laws slot) :
    ((pool.copyFrom backend sources targets).snapshot laws slot).siblings =
      pool.slotSiblings.map fun sibling => move targets sources (laws.row sibling) slot := by
  rw [snapshot, copyFrom, List.map_map]
  exact List.map_congr_left fun sibling member => laws.copied sibling sources targets slot copies.same copies.distinct
    (fun slot listed => (copies.reads slot listed).siblings sibling member) (has.siblings sibling member)

theorem snapshot_copyFrom (copies : Copies laws pool sources targets)
    (flushed : ∀ source ∈ sources, (pool.snapshot laws source).Flushed) (has : pool.Has laws slot) :
    (pool.copyFrom backend sources targets).snapshot laws slot = move targets sources (pool.snapshot laws) slot := by
  have columns := copyFrom_columns copies has
  have temporal := copyFrom_temporal copies has
  have siblings := copyFrom_siblings copies has
  obtain ⟨same, distinct, -, -⟩ := id copies
  by_cases listed : slot ∈ targets
  · obtain ⟨index, target⟩ := List.getElem?_of_mem listed
    have bound := (List.getElem?_eq_some_iff.mp target).1
    have source := List.getElem?_eq_getElem (same ▸ bound : index < sources.length)
    obtain ⟨position, ring⟩ := flushed _ (List.getElem_mem (same ▸ bound : index < sources.length))
    rw [move_target distinct target source]
    apply Snapshot.ext
    · rw [columns]
      exact List.map_congr_left fun tensor _ => move_target distinct target source
    · rw [temporal]
      exact move_target distinct target source
    · simp only [snapshot, copyFrom, ReplayCursors.resetAll]
      cases here : pool.replaySSM.writePos with
      | none => rfl
      | some counts =>
          have zero := position (counts.getD sources[index] 0) (by simp [snapshot, here])
          rw [Option.map_some, Option.map_some, Option.map_some, getD_zeroed (has.writePos counts here), if_pos listed, zero]
    · simp only [snapshot, copyFrom, ReplayCursors.resetAll]
      cases here : pool.replaySSM.cacheBase with
      | none => rfl
      | some counts =>
          have zero := ring (counts.1.getD sources[index] 0, counts.2.getD sources[index] 0) (by simp [snapshot, here])
          obtain ⟨base, flush⟩ := has.ring counts here
          rw [Option.map_some, Option.map_some, Option.map_some, getD_zeroed base, getD_zeroed flush, if_pos listed,
            if_pos listed, zero]
    · rw [siblings]
      exact List.map_congr_left fun sibling _ => move_target distinct target source
  · rw [move_other listed]
    apply Snapshot.ext
    · rw [columns]
      exact List.map_congr_left fun tensor _ => move_other listed
    · rw [temporal]
      exact move_other listed
    · simp only [snapshot, copyFrom, ReplayCursors.resetAll, Option.map_map]
      refine Option.map_congr fun counts here => ?_
      rw [Function.comp_apply, getD_zeroed (has.writePos counts here), if_neg listed]
    · simp only [snapshot, copyFrom, ReplayCursors.resetAll, Option.map_map]
      refine Option.map_congr fun ring here => ?_
      obtain ⟨base, flush⟩ := has.ring ring here
      rw [Function.comp_apply, getD_zeroed base, getD_zeroed flush, if_neg listed, if_neg listed]
    · rw [siblings]
      exact List.map_congr_left fun sibling _ => move_other listed

/-- Pools with the same tensors and side states. -/
structure Alike (laws : Laws backend Row Shape) (pool source : MambaPool Conv Temporal State) : Prop where
  conv : pool.conv.map List.length = source.conv.map List.length
  temporal : pool.temporal.length = source.temporal.length
  writePos : pool.replaySSM.writePos.isSome = source.replaySSM.writePos.isSome
  ring : pool.replaySSM.cacheBase.isSome = source.replaySSM.cacheBase.isSome
  both : pool.replaySSM.cacheBase.isSome → pool.replaySSM.writePos.isSome
  siblings : pool.slotSiblings.map laws.shape = source.slotSiblings.map laws.shape
  fused : pool.shouldFuseSlotOps = source.shouldFuseSlotOps

/-- Only the ring of speculative verification carries its cursors. -/
def CursorsStay (pool : MambaPool Conv Temporal State) : Prop := pool.replaySSM.cacheBase = none

instance (pool : MambaPool Conv Temporal State) : Decidable (CursorsStay pool) :=
  decidable_of_iff (pool.replaySSM.cacheBase.isNone) Option.isNone_iff_eq_none

/-- The pool after `load_cpu_copy` of what `get_cpu_copy` of `source` has kept. -/
def restored (backend : Backend Conv Temporal State Saved) (pool source : MambaPool Conv Temporal State)
    (sources indices : List Nat) : MambaPool Conv Temporal State :=
  { pool with
    conv := List.zipWith (fun into from_ => putColumns indices (takeColumns sources from_) into) pool.conv source.conv
    temporal := putColumns indices (takeColumns sources source.temporal) pool.temporal
    replaySSM := match source.replaySSM.writePos, source.replaySSM.cacheBase with
      | some writePos, some (cacheBase, isFlush) => restoreCursors pool.replaySSM indices (takeSlots sources writePos)
          (takeSlots sources cacheBase) (takeSlots sources isFlush)
      | _, _ => pool.replaySSM
    slotSiblings := List.zipWith (fun into from_ => backend.loadCpuSlots into (backend.getCpuSlots from_ sources) indices)
      pool.slotSiblings source.slotSiblings }

theorem Alike.count (alike : Alike laws pool source) : pool.slotSiblings.length = source.slotSiblings.length := by
  simpa using congrArg List.length alike.siblings

theorem loadCpuCopy_getCpuCopy (alike : Alike laws pool source)
    (sources indices : List Nat) :
    pool.loadCpuCopy backend (source.getCpuCopy backend sources) indices =
      some (restored backend pool source sources indices) := by
  have empty : source.slotSiblings.isEmpty = pool.slotSiblings.isEmpty := by
    rw [Bool.eq_iff_iff, List.isEmpty_iff_length_eq_zero, List.isEmpty_iff_length_eq_zero, alike.count]
  have convs : List.zipWith (fun tensor columns => putColumns indices columns tensor) pool.conv
      (source.conv.map (takeColumns sources)) =
      List.zipWith (fun into from_ => putColumns indices (takeColumns sources from_) into) pool.conv source.conv :=
    List.zipWith_map_right
  have sides : List.zipWith (fun sibling data => backend.loadCpuSlots sibling data indices) pool.slotSiblings
      (source.slotSiblings.map fun sibling => backend.getCpuSlots sibling sources) =
      List.zipWith (fun into from_ => backend.loadCpuSlots into (backend.getCpuSlots from_ sources) indices)
        pool.slotSiblings source.slotSiblings := List.zipWith_map_right
  unfold loadCpuCopy getCpuCopy restored
  rw [empty]
  -- the tuple has its cursors or not, and its siblings or not
  cases alone : pool.slotSiblings.isEmpty with
  | true =>
      have nothing := List.isEmpty_iff.mp alone
      cases source.replaySSM.writePos with
      | none => simp [convs, nothing]
      | some writePos =>
          cases source.replaySSM.cacheBase with
          | none => simp [convs, nothing]
          | some ring => simp [convs, nothing]
  | false =>
      cases source.replaySSM.writePos with
      | none => simp [convs, sides]
      | some writePos =>
          cases source.replaySSM.cacheBase with
          | none => simp [convs, sides]
          | some ring => simp [convs, sides]

theorem takeSlots_getD {counts : List Nat} {index from_ : Nat} (inside : ∀ slot ∈ sources, slot < counts.length)
    (found : sources[index]? = some from_) : (takeSlots sources counts)[index]? = some (counts.getD from_ 0) := by
  rw [takeSlots_getElem? inside, found, Option.bind_some, List.getD_eq_getElem?_getD,
    List.getElem?_eq_getElem (inside from_ (List.mem_of_getElem? found))]
  rfl

/-- What a slot has of the cursors. -/
def cursorsAt (cursors : ReplayCursors) (slot : Nat) : Option Nat × Option (Nat × Nat) :=
  (cursors.writePos.map (·.getD slot 0), cursors.cacheBase.map fun ring => (ring.1.getD slot 0, ring.2.getD slot 0))

theorem cursorsAt_flushed (flushed : (pool.snapshot laws slot).Flushed) : cursorsAt pool.replaySSM slot =
    (pool.replaySSM.writePos.map fun _ => 0, pool.replaySSM.cacheBase.map fun _ => (0, 0)) := by
  refine congrArg₂ Prod.mk (Option.map_congr fun counts here => ?_) (Option.map_congr fun ring here => ?_)
  · exact flushed.1 _ (by simp [snapshot, Option.mem_def.mp here])
  · exact flushed.2 _ (by simp [snapshot, Option.mem_def.mp here])

theorem map_const_congr {α β γ : Type} {left : Option α} {right : Option β} (same : left.isSome = right.isSome) (value : γ) :
    (left.map fun _ => value) = right.map fun _ => value := by
  cases left <;> cases right <;> simp_all

theorem cursors_restored (alike : Alike laws pool source) (distinct : indices.Nodup)
    (reads : ∀ slot ∈ sources, source.Has laws slot) (has : pool.Has laws slot)
    (settled : CursorsStay pool → (∀ slot ∈ sources, (source.snapshot laws slot).Flushed) ∧
      ∀ slot ∈ indices, (pool.snapshot laws slot).Flushed) {index from_ : Nat}
    (target : indices[index]? = some slot) (found : sources[index]? = some from_) :
    cursorsAt (restored backend pool source sources indices).replaySSM slot = cursorsAt source.replaySSM from_ := by
  have inSources := List.mem_of_getElem? found
  cases ring : pool.replaySSM.cacheBase with
  | none =>
      have sourceRing : source.replaySSM.cacheBase = none := by
        rw [← Option.isNone_iff_eq_none, ← Option.not_isSome, ← alike.ring, ring]
        rfl
      obtain ⟨saved, free⟩ := settled ring
      have kept : (restored backend pool source sources indices).replaySSM = pool.replaySSM := by
        rw [restored, sourceRing]
        cases source.replaySSM.writePos <;> rfl
      rw [kept, cursorsAt_flushed (free slot (List.mem_of_getElem? target)), cursorsAt_flushed (saved from_ inSources)]
      exact congrArg₂ Prod.mk (map_const_congr alike.writePos 0) (map_const_congr alike.ring (0, 0))
  | some counts =>
      obtain ⟨ours, written⟩ := Option.isSome_iff_exists.mp (alike.both (by rw [ring]; rfl))
      obtain ⟨theirs, sourceWritten⟩ := Option.isSome_iff_exists.mp (alike.writePos.symm.trans (by rw [written]; rfl))
      obtain ⟨rings, sourceRing⟩ := Option.isSome_iff_exists.mp (alike.ring.symm.trans (by rw [ring]; rfl))
      obtain ⟨base, flush⟩ := has.ring counts ring
      have position := takeSlots_getD (fun slot member => (reads slot member).writePos theirs sourceWritten) found
      have origin := takeSlots_getD (fun slot member => ((reads slot member).ring rings sourceRing).1) found
      have flag := takeSlots_getD (fun slot member => ((reads slot member).ring rings sourceRing).2) found
      have store {counts given : List Nat} {value : Nat} (taken : given[index]? = some value) (bound : slot < counts.length) :
          (putSlots indices given counts).getD slot 0 = value := by
        rw [List.getD_eq_getElem?_getD, putSlots_target distinct target taken bound]
        rfl
      have whole : (restored backend pool source sources indices).replaySSM =
          ⟨some (putSlots indices (takeSlots sources theirs) ours),
            some (putSlots indices (takeSlots sources rings.1) counts.1, putSlots indices (takeSlots sources rings.2) counts.2)⟩ := by
        simp only [restored, sourceWritten, sourceRing, restoreCursors, ring, written]
        rfl
      rw [whole, cursorsAt, cursorsAt, sourceWritten, sourceRing]
      simp only [Option.map_some, store position (has.writePos ours written), store origin base, store flag flush]

theorem cursors_kept (absent : slot ∉ indices) :
    cursorsAt (restored backend pool source sources indices).replaySSM slot = cursorsAt pool.replaySSM slot := by
  have store (given counts : List Nat) : (putSlots indices given counts).getD slot 0 = counts.getD slot 0 := by
    rw [List.getD_eq_getElem?_getD, putSlots_other absent, ← List.getD_eq_getElem?_getD]
  simp only [restored]
  split
  · unfold restoreCursors
    split
    · rfl
    · rename_i ring
      rw [cursorsAt, cursorsAt, ring, Option.map_map]
      simp only [Option.map_some, store, Function.comp_def]
  · rfl

/-- Where a slot is restored, it is as the offloaded one was. -/
theorem snapshot_restored_target (alike : Alike laws pool source) (distinct : indices.Nodup)
    (reads : ∀ slot ∈ sources, source.Has laws slot) (has : pool.Has laws slot)
    (settled : CursorsStay pool → (∀ slot ∈ sources, (source.snapshot laws slot).Flushed) ∧
      ∀ slot ∈ indices, (pool.snapshot laws slot).Flushed) (same : sources.length = indices.length) {index from_ : Nat}
    (target : indices[index]? = some slot) (found : sources[index]? = some from_) :
    (restored backend pool source sources indices).snapshot laws slot = source.snapshot laws from_ := by
  have listed := List.mem_of_getElem? found
  apply Snapshot.ext
  · exact map_zipWith_right alike.conv fun into inPool tensor inSource layers =>
      column_copy distinct layers.symm (fun slot member => (reads slot member).conv tensor inSource) found target
        (has.conv into inPool)
  · exact column_copy distinct alike.temporal.symm (fun slot member => (reads slot member).temporal) found target has.temporal
  · exact congrArg Prod.fst (cursors_restored alike distinct reads has settled target found)
  · exact congrArg Prod.snd (cursors_restored alike distinct reads has settled target found)
  · refine map_zipWith_right alike.siblings fun into inPool sibling inSource shapes => ?_
    rw [laws.loaded into sibling sources indices slot shapes same distinct
      (fun slot member => (reads slot member).siblings sibling inSource) (has.siblings into inPool)]
    exact assign_target distinct target (by rw [List.getElem?_map, found]; rfl)

theorem snapshot_restored_other (alike : Alike laws pool source) (distinct : indices.Nodup)
    (reads : ∀ slot ∈ sources, source.Has laws slot) (has : pool.Has laws slot) (same : sources.length = indices.length)
    (absent : slot ∉ indices) :
    (restored backend pool source sources indices).snapshot laws slot = pool.snapshot laws slot := by
  apply Snapshot.ext
  · exact map_zipWith_left alike.conv fun into _ tensor _ layers =>
      column_putColumns_other absent (by rw [length_takeColumns, layers])
  · exact column_putColumns_other absent (by rw [length_takeColumns, alike.temporal])
  · exact congrArg Prod.fst (cursors_kept absent)
  · exact congrArg Prod.snd (cursors_kept absent)
  · refine map_zipWith_left alike.siblings fun into inPool sibling inSource shapes => ?_
    rw [laws.loaded into sibling sources indices slot shapes same distinct
      (fun slot member => (reads slot member).siblings sibling inSource) (has.siblings into inPool), assign_other absent]

end Calls

end FlashNext.Pool
