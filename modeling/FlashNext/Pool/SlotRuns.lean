import FlashNext.Pool.Snapshots

namespace FlashNext.Pool

open FlashNext.Data MambaPool

variable {Conv Temporal State Saved Row Shape : Type} {backend : Backend Conv Temporal State Saved}

section Shapes

variable {laws : Laws backend Row Shape} {pool source other : MambaPool Conv Temporal State} {indices sources targets : List Nat}
  {slot : Nat}

theorem Alike.trans (first : Alike laws pool source) (second : Alike laws source other) : Alike laws pool other where
  conv := first.conv.trans second.conv
  temporal := first.temporal.trans second.temporal
  writePos := first.writePos.trans second.writePos
  ring := first.ring.trans second.ring
  both := first.both
  siblings := first.siblings.trans second.siblings
  fused := first.fused.trans second.fused

/-- A pool whose ring of verification has its positions. -/
def Paired (pool : MambaPool Conv Temporal State) : Prop :=
  pool.replaySSM.cacheBase.isSome → pool.replaySSM.writePos.isSome

theorem Alike.refl (paired : Paired pool) : Alike laws pool pool := ⟨rfl, rfl, rfl, rfl, paired, rfl, rfl⟩

theorem Alike.paired (alike : Alike laws pool source) : Paired source := by
  intro ring
  rw [← alike.writePos]
  exact alike.both (alike.ring.trans ring)

theorem clearSlots_alike (paired : Paired pool) (inside : ∀ slot ∈ indices, pool.Has laws slot) :
    Alike laws (pool.clearSlots backend indices) pool where
  conv := by
    rw [clearSlots_conv inside, List.map_map]
    exact List.map_congr_left fun tensor _ => length_putColumns (List.length_map _)
  temporal := length_putColumns (List.length_map _)
  writePos := rfl
  ring := rfl
  both := paired
  siblings := by
    rw [clearSlots, List.map_map]
    exact List.map_congr_left fun sibling _ => laws.resetShape sibling indices
  fused := rfl

theorem clearSlots_has (inside : ∀ slot ∈ indices, pool.Has laws slot) (has : pool.Has laws slot) :
    (pool.clearSlots backend indices).Has laws slot where
  conv := by
    rw [clearSlots_conv inside]
    intro tensor member
    obtain ⟨into, inPool, rfl⟩ := List.mem_map.mp member
    exact hasSlot_fill.mpr (has.conv into inPool)
  temporal := hasSlot_fill.mpr has.temporal
  writePos := has.writePos
  ring := has.ring
  siblings := by
    intro sibling member
    obtain ⟨into, inPool, rfl⟩ := List.mem_map.mp member
    rw [laws.resetShape]
    exact has.siblings into inPool

theorem copyFrom_alike (paired : Paired pool) (copies : Copies laws pool sources targets) :
    Alike laws (pool.copyFrom backend sources targets) pool where
  conv := by
    rw [copyFrom_conv copies, List.map_map]
    exact List.map_congr_left fun tensor _ => length_putColumns (length_takeColumns _ _)
  temporal := length_putColumns (length_takeColumns _ _)
  writePos := Option.isSome_map
  ring := Option.isSome_map
  both := by
    simp only [copyFrom, ReplayCursors.resetAll, Option.isSome_map]
    exact paired
  siblings := by
    rw [copyFrom, List.map_map]
    exact List.map_congr_left fun sibling _ => laws.copyShape sibling sources targets
  fused := rfl

theorem copyFrom_has (copies : Copies laws pool sources targets) (has : pool.Has laws slot) :
    (pool.copyFrom backend sources targets).Has laws slot where
  conv := by
    rw [copyFrom_conv copies]
    intro tensor member
    obtain ⟨into, inPool, rfl⟩ := List.mem_map.mp member
    exact hasSlot_copied.mpr (has.conv into inPool)
  temporal := hasSlot_copied.mpr has.temporal
  writePos := by
    intro position member
    obtain ⟨counts, here, rfl⟩ := Option.map_eq_some_iff.mp member
    rw [length_putSlots]
    exact has.writePos counts here
  ring := by
    intro ring member
    obtain ⟨counts, here, rfl⟩ := Option.map_eq_some_iff.mp member
    rw [length_putSlots, length_putSlots]
    exact has.ring counts here
  siblings := by
    intro sibling member
    obtain ⟨into, inPool, rfl⟩ := List.mem_map.mp member
    rw [laws.copyShape]
    exact has.siblings into inPool

theorem restored_writePos : (restored backend pool source sources indices).replaySSM.writePos.isSome =
    pool.replaySSM.writePos.isSome := by
  simp only [restored]
  split
  · unfold restoreCursors
    split
    · rfl
    · exact Option.isSome_map
  · rfl

theorem restored_ring : (restored backend pool source sources indices).replaySSM.cacheBase.isSome =
    pool.replaySSM.cacheBase.isSome := by
  simp only [restored]
  split
  · unfold restoreCursors
    split
    · rfl
    · rename_i ring
      rw [ring]
      rfl
  · rfl

theorem restored_alike (alike : Alike laws pool source) : Alike laws (restored backend pool source sources indices) pool where
  conv := map_zipWith_left alike.conv fun into _ tensor _ layers =>
    length_putColumns (by rw [length_takeColumns, layers])
  temporal := length_putColumns (by rw [length_takeColumns, alike.temporal])
  writePos := restored_writePos
  ring := restored_ring
  both ring := restored_writePos.trans (alike.both (restored_ring.symm.trans ring))
  siblings := map_zipWith_left alike.siblings fun into _ sibling _ shapes => laws.loadShape into sibling sources indices shapes
  fused := rfl

theorem restored_has (alike : Alike laws pool source) (has : pool.Has laws slot) :
    (restored backend pool source sources indices).Has laws slot where
  conv := forall_zipWith alike.conv fun into member tensor _ layers =>
    (hasSlot_putColumns (by rw [length_takeColumns, layers])).mpr (has.conv into member)
  temporal := (hasSlot_putColumns (by rw [length_takeColumns, alike.temporal])).mpr has.temporal
  writePos := by
    simp only [restored]
    split
    · unfold restoreCursors
      split
      · exact has.writePos
      · intro position member
        obtain ⟨counts, here, rfl⟩ := Option.map_eq_some_iff.mp member
        rw [length_putSlots]
        exact has.writePos counts here
    · exact has.writePos
  ring := by
    simp only [restored]
    split
    · unfold restoreCursors
      split
      · exact has.ring
      · rename_i ring
        intro counts member
        cases member
        rw [length_putSlots, length_putSlots]
        exact has.ring _ ring
    · exact has.ring
  siblings := forall_zipWith alike.siblings fun into member sibling _ shapes => by
    rw [laws.loadShape into sibling sources indices shapes]
    exact has.siblings into member

end Shapes

/-- The pool and the tuples that are kept on the host, each with its number of slots. -/
structure Offloading (Conv Temporal State Saved : Type) where
  pool : MambaPool Conv Temporal State
  host : List (Nat × List (Part Conv Temporal Saved))
  failed : Bool

inductive SlotEvent (Conv Temporal State : Type) where
  | forward (after : MambaPool Conv Temporal State)
  | clear (indices : List Nat)
  | copy (srcIndices dstIndices : List Nat)
  | offload (indices : List Nat)
  | restore (position : Nat) (indices : List Nat)

namespace Offloading

def perform (backend : Backend Conv Temporal State Saved) (state : Offloading Conv Temporal State Saved) :
    SlotEvent Conv Temporal State → Offloading Conv Temporal State Saved
  | .forward after => { state with pool := after }
  | .clear indices => { state with pool := state.pool.clearSlots backend indices }
  | .copy srcIndices dstIndices => { state with pool := state.pool.copyFrom backend srcIndices dstIndices }
  | .offload indices =>
      { state with host := state.host ++ [(indices.length, state.pool.getCpuCopy backend indices)] }
  | .restore position indices =>
      match state.host[position]? with
      | none => { state with failed := true }
      | some (_, payload) =>
          match state.pool.loadCpuCopy backend payload indices with
          | none => { state with failed := true }
          | some pool => { state with pool }

def machine (backend : Backend Conv Temporal State Saved) :
    Machine (Offloading Conv Temporal State Saved) (SlotEvent Conv Temporal State) where
  step state event := ([], perform backend state event)

/-- What callers promise of a pool of `size` slots.  A copy reads flushed slots,
and where the cursors stay behind so does an offload, and a restore writes such slots. -/
def Permitted (laws : Laws backend Row Shape) (size : Nat) (state : Offloading Conv Temporal State Saved) :
    SlotEvent Conv Temporal State → Prop
  | .forward after => Alike laws after state.pool ∧ ∀ slot < size, after.Has laws slot
  | .clear indices => ∀ slot ∈ indices, slot < size
  | .copy srcIndices dstIndices =>
      srcIndices.length = dstIndices.length ∧ dstIndices.Nodup ∧ (∀ slot ∈ dstIndices, slot < size) ∧
        (state.pool.shouldFuseSlotOps → ∀ target ∈ dstIndices, target ∉ srcIndices) ∧
        ∀ slot ∈ srcIndices, slot < size ∧ (state.pool.snapshot laws slot).Flushed
  | .offload indices =>
      ∀ slot ∈ indices, slot < size ∧ (CursorsStay state.pool → (state.pool.snapshot laws slot).Flushed)
  | .restore position indices =>
      indices.Nodup ∧ (∃ tuple ∈ state.host[position]?, tuple.1 = indices.length) ∧
        ∀ slot ∈ indices, slot < size ∧ (CursorsStay state.pool → (state.pool.snapshot laws slot).Flushed)

end Offloading

/-- Whole slot states, on the device and on the host. -/
structure SlotStore (Conv Temporal Row : Type) where
  slots : Nat → Snapshot Conv Temporal Row
  host : List (List (Snapshot Conv Temporal Row))

namespace SlotStore

def perform (laws : Laws backend Row Shape) (store : SlotStore Conv Temporal Row) :
    SlotEvent Conv Temporal State → SlotStore Conv Temporal Row
  | .forward after => { store with slots := after.snapshot laws }
  | .clear indices =>
      { store with
        slots := fun slot =>
          if slot ∈ indices then (store.slots slot).cleared backend.zeroConv backend.zeroTemporal laws.clearRow
          else store.slots slot }
  | .copy srcIndices dstIndices => { store with slots := move dstIndices srcIndices store.slots }
  | .offload indices => { store with host := store.host ++ [indices.map store.slots] }
  | .restore position indices => { store with slots := assign indices (store.host[position]?.getD []) store.slots }

def machine (laws : Laws backend Row Shape) : Machine (SlotStore Conv Temporal Row) (SlotEvent Conv Temporal State) where
  step store event := ([], perform laws store event)

end SlotStore

section Refinement

variable (laws : Laws backend Row Shape) {size : Nat} {state : Offloading Conv Temporal State Saved}
  {store : SlotStore Conv Temporal Row} {event : SlotEvent Conv Temporal State} {pool next : MambaPool Conv Temporal State}
  {tuple : Nat × List (Part Conv Temporal Saved)} {states : List (Snapshot Conv Temporal Row)}

/-- A tuple has the states of slots of an earlier pool. -/
structure Keeps (pool : MambaPool Conv Temporal State) (tuple : Nat × List (Part Conv Temporal Saved))
    (states : List (Snapshot Conv Temporal Row)) (source : MambaPool Conv Temporal State) (sources : List Nat) : Prop where
  alike : Alike laws pool source
  count : tuple.1 = sources.length
  payload : tuple.2 = source.getCpuCopy backend sources
  has : ∀ slot ∈ sources, source.Has laws slot
  states : states = sources.map (source.snapshot laws)
  flushed : CursorsStay pool → ∀ slot ∈ sources, (source.snapshot laws slot).Flushed

structure Refines (size : Nat) (state : Offloading Conv Temporal State Saved) (store : SlotStore Conv Temporal Row) : Prop where
  running : state.failed = false
  paired : Paired state.pool
  has : ∀ slot < size, state.pool.Has laws slot
  slots : ∀ slot < size, state.pool.snapshot laws slot = store.slots slot
  host : List.Forall₂ (fun tuple states => ∃ source sources, Keeps laws state.pool tuple states source sources)
    state.host store.host

variable {laws}

theorem Alike.cursorsStay (alike : Alike laws next pool) (stay : CursorsStay next) : CursorsStay pool := by
  rw [CursorsStay, ← Option.isNone_iff_eq_none, ← Option.not_isSome, ← alike.ring, stay]
  rfl

theorem Keeps.carry {source : MambaPool Conv Temporal State} {sources : List Nat} (alike : Alike laws next pool)
    (keeps : Keeps laws pool tuple states source sources) : Keeps laws next tuple states source sources :=
  { keeps with
    alike := alike.trans keeps.alike
    flushed := fun stay => keeps.flushed (alike.cursorsStay stay) }

/-- A step that keeps the pool's shape and the host. -/
theorem Refines.carry (refines : Refines laws size state store) {after : SlotStore Conv Temporal Row}
    (alike : Alike laws next state.pool) (has : ∀ slot < size, next.Has laws slot)
    (slots : ∀ slot < size, next.snapshot laws slot = after.slots slot) (host : after.host = store.host) :
    Refines laws size { state with pool := next } after where
  running := refines.running
  paired ring := (alike.writePos.trans (refines.paired (alike.ring.symm.trans ring)))
  has := has
  slots := slots
  host := by
    rw [host]
    exact refines.host.imp fun tuple states ⟨source, sources, keeps⟩ => ⟨source, sources, keeps.carry alike⟩

theorem exists_related {α β : Type} {relation : α → β → Prop} {left : List α} {right : List β} {position : Nat} {one : α}
    (related : List.Forall₂ relation left right) (found : left[position]? = some one) :
    ∃ other, right[position]? = some other ∧ relation one other := by
  obtain ⟨bound, rfl⟩ := List.getElem?_eq_some_iff.mp found
  have other : position < right.length := related.length_eq ▸ bound
  exact ⟨right[position], List.getElem?_eq_getElem other, related.get bound other⟩

open Offloading in
theorem step_refines (refines : Refines laws size state store) (permitted : Permitted laws size state event) :
    Refines laws size ((machine backend).step state event).2 (SlotStore.perform laws store event) := by
  cases event with
  | forward after => exact refines.carry permitted.1 permitted.2 (fun _ _ => rfl) rfl
  | clear indices =>
      have inside : ∀ slot ∈ indices, state.pool.Has laws slot := fun slot member => refines.has slot (permitted slot member)
      refine refines.carry (clearSlots_alike refines.paired inside)
        (fun slot bound => clearSlots_has inside (refines.has slot bound)) (fun slot bound => ?_) rfl
      rw [snapshot_clearSlots inside (refines.has slot bound), refines.slots slot bound]
      rfl
  | copy srcIndices dstIndices =>
      obtain ⟨same, distinct, inside, apart, sources⟩ := permitted
      have copies : Copies laws state.pool srcIndices dstIndices := by
        refine ⟨same, distinct, apart, fun slot member => refines.has slot ?_⟩
        exact (List.mem_append.mp member).elim (fun listed => (sources slot listed).1) (inside slot)
      refine refines.carry (copyFrom_alike refines.paired copies)
        (fun slot bound => copyFrom_has copies (refines.has slot bound)) (fun slot bound => ?_) rfl
      rw [snapshot_copyFrom copies (fun source member => (sources source member).2) (refines.has slot bound)]
      exact move_congr (fun source member => refines.slots source (sources source member).1) (refines.slots slot bound)
  | offload indices =>
      refine ⟨refines.running, refines.paired, refines.has, refines.slots, ?_⟩
      refine List.rel_append refines.host (.cons ⟨state.pool, indices, ?_⟩ .nil)
      exact {
        alike := .refl refines.paired
        count := rfl
        payload := rfl
        has := fun slot member => refines.has slot (permitted slot member).1
        states := List.map_congr_left fun slot member => (refines.slots slot (permitted slot member).1).symm
        flushed := fun stay slot member => (permitted slot member).2 stay }
  | restore position indices =>
      obtain ⟨distinct, ⟨tuple, kept, count⟩, inside⟩ := permitted
      have found := Option.mem_def.mp kept
      obtain ⟨states, stored, source, sources, keeps⟩ := exists_related refines.host found
      have loaded : state.pool.loadCpuCopy backend tuple.2 indices = some (restored backend state.pool source sources indices) := by
        rw [keeps.payload]
        exact loadCpuCopy_getCpuCopy keeps.alike sources indices
      have stepped : Offloading.perform backend state (.restore position indices) =
          { state with pool := restored backend state.pool source sources indices } := by
        rw [Offloading.perform, found]
        dsimp only
        rw [loaded]
      have same : sources.length = indices.length := keeps.count.symm.trans count
      show Refines laws size (Offloading.perform backend state (.restore position indices)) _
      rw [stepped]
      refine refines.carry (restored_alike keeps.alike) (fun slot bound => restored_has keeps.alike (refines.has slot bound))
        (fun slot bound => ?_) rfl
      have whole : (SlotStore.perform laws store (.restore position indices)).slots slot =
          assign indices states store.slots slot := by
        rw [SlotStore.perform, stored]
        rfl
      rw [whole]
      by_cases listed : slot ∈ indices
      · obtain ⟨index, target⟩ := List.getElem?_of_mem listed
        have bound' := (List.getElem?_eq_some_iff.mp target).1
        have from_ := List.getElem?_eq_getElem (same ▸ bound' : index < sources.length)
        rw [assign_target distinct target (by rw [keeps.states, List.getElem?_map, from_]; rfl)]
        exact snapshot_restored_target keeps.alike distinct keeps.has (refines.has slot bound)
          (fun stay => ⟨keeps.flushed stay, fun slot member => (inside slot member).2 stay⟩) same target from_
      · rw [assign_other listed, snapshot_restored_other keeps.alike distinct keeps.has (refines.has slot bound) same listed]
        exact refines.slots slot bound

theorem run_refines (refines : Refines laws size state store) {events : List (SlotEvent Conv Temporal State)}
    (permitted : (Offloading.machine backend).Meets (Offloading.Permitted laws size) state events) :
    Refines laws size ((Offloading.machine backend).run state events) ((SlotStore.machine laws).run store events) := by
  induction events generalizing state store with
  | nil => exact refines
  | cons event rest ih => exact ih (step_refines refines permitted.1) permitted.2

/-- Whatever is cleared, copied, offloaded and restored between forward passes,
no restore fails, and each slot of the pool has the whole state that the store says. -/
theorem slotStates_refined (laws : Laws backend Row Shape) (size : Nat) (pool : MambaPool Conv Temporal State) (paired : Paired pool)
    (has : ∀ slot < size, pool.Has laws slot) (events : List (SlotEvent Conv Temporal State))
    (permitted : (Offloading.machine backend).Meets (Offloading.Permitted laws size) ⟨pool, [], false⟩ events) :
    ((Offloading.machine backend).run ⟨pool, [], false⟩ events).failed = false ∧
      ∀ slot < size, ((Offloading.machine backend).run ⟨pool, [], false⟩ events).pool.snapshot laws slot =
        ((SlotStore.machine laws).run ⟨pool.snapshot laws, []⟩ events).slots slot := by
  have start : Refines laws size (⟨pool, [], false⟩ : Offloading Conv Temporal State Saved) ⟨pool.snapshot laws, []⟩ :=
    ⟨rfl, paired, has, fun _ _ => rfl, .nil⟩
  have refines := run_refines start permitted
  exact ⟨refines.running, refines.slots⟩

end Refinement

section Plain

def plainBackend : Backend Nat Nat (Nat → Nat) (List Nat) where
  zeroConv := 0
  zeroTemporal := 0
  resetSlots state indices := assign indices (List.replicate indices.length 0) state
  copySlots state sources targets := move targets sources state
  getCpuSlots state indices := indices.map state
  loadCpuSlots state saved indices := assign indices saved state
  fusedClearConvSlots tensors indices := tensors.map (fillColumns indices 0)
  fusedCopyConvSlots tensors sources targets := tensors.map (copyColumns sources targets)

def plainLaws : Laws plainBackend Nat Unit where
  row state := state
  shape _ := ()
  room _ _ := True
  clearRow _ := 0
  resetShape _ _ := rfl
  reset state indices slot _ _ := by
    have filled := assign_map (fun _ => 0) indices state slot
    rwa [List.map_const'] at filled
  copyShape _ _ _ := rfl
  copied _ _ _ _ _ _ _ _ := rfl
  loadShape _ _ _ _ _ := rfl
  loaded _ _ _ _ _ _ _ _ _ _ := rfl
  fusedClear _ _ _ := rfl
  fusedCopy _ _ _ _ _ _ _ := rfl

def plainPool : MambaPool Nat Nat (Nat → Nat) where
  conv := [[[10, 11, 12]]]
  temporal := [[20, 21, 22], [30, 31, 32]]
  replaySSM := ⟨some [0, 0, 2], some ([0, 0, 1], [0, 0, 1])⟩
  slotSiblings := [fun slot => 40 + slot]
  shouldFuseSlotOps := true

/-- A slot is offloaded and its place is cleared before it is restored elsewhere. -/
def roundTrip : List (SlotEvent Nat Nat (Nat → Nat)) := [.copy [1] [0], .offload [2], .clear [2], .restore 0 [1]]

theorem slotStates_refined_roundTrip :
    ((Offloading.machine plainBackend).run ⟨plainPool, [], false⟩ roundTrip).failed = false ∧
      ((Offloading.machine plainBackend).run ⟨plainPool, [], false⟩ roundTrip).pool.snapshot plainLaws 1 =
        plainPool.snapshot plainLaws 2 := by
  have has : ∀ slot < 3, plainPool.Has plainLaws slot := fun slot bound =>
    ⟨by simpa [plainPool, HasSlot] using bound, by simpa [plainPool, HasSlot] using bound, by simpa [plainPool] using bound,
      by simpa [plainPool] using bound, fun _ _ => trivial⟩
  obtain ⟨running, slots⟩ := slotStates_refined plainLaws 3 plainPool (fun _ => rfl) has roundTrip
    ⟨⟨rfl, by decide, by decide, fun _ => by decide, by decide⟩,
      show ∀ slot ∈ [2], slot < 3 ∧ (CursorsStay _ → (snapshot plainLaws _ slot).Flushed) by decide,
      show ∀ slot ∈ [2], slot < 3 by decide, ⟨by decide, ⟨_, rfl, rfl⟩, by decide⟩, trivial⟩
  exact ⟨running, (slots 1 (by decide)).trans rfl⟩

end Plain

end FlashNext.Pool
