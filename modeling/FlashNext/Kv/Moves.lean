import FlashNext.Kv.Pools

namespace FlashNext.Kv

open FlashNext.Data KVPool

variable {Cell : Type} {copyKernel : Buffer Cell → List Nat → List Nat → Buffer Cell} {pageSize size : Nat}
  {tgtLoc srcLoc : List Nat}

/-- The scales stand apart from the payload, in the layout of the MXFP8 kernel. -/
def KVPool.Interleaves (pool : KVPool Cell) : Prop := pool.poolClass = .mxfp8 ∧ pool.pageSize = 128

instance (pool : KVPool Cell) : Decidable pool.Interleaves := inferInstanceAs (Decidable (_ ∧ _))

/-- Slots are rows, or the pool's class says how to find them. -/
structure Formed (size : Nat) (heads : Component → Nat) (pool : KVPool Cell) : Prop where
  shaped : ∀ component, ∀ buffer ∈ pool.component component, buffer.Shaped pool.pageSize size (heads component)
  layers : ∀ component, (pool.component component).length ≤ pool.kBuffer.length
  values : pool.vBuffer.length = pool.kBuffer.length
  rows : pool.poolClass ≠ .pageMajor → pool.useHnd = false → ¬pool.Interleaves →
    ∀ component, ∀ buffer ∈ pool.component component, ∃ rows, buffer = .nhd rows
  unscaled : pool.useHnd ∨ pool.poolClass = .pageMajor → pool.component .kScale = [] ∧ pool.component .vScale = []
  hnd : pool.useHnd → pool.poolClass = .mha

namespace KVPool

/-- Every component is changed, layer by layer. -/
def mapAll (pool : KVPool Cell) (change : Component → Buffer Cell → Buffer Cell) : KVPool Cell :=
  { pool with
    kBuffer := pool.kBuffer.map (change .k)
    vBuffer := pool.vBuffer.map (change .v)
    kScaleBuffer := pool.kScaleBuffer.map (·.map (change .kScale))
    vScaleBuffer := pool.vScaleBuffer.map (·.map (change .vScale)) }

variable {pool : KVPool Cell} {change next : Component → Buffer Cell → Buffer Cell} {apply : Buffer Cell → Buffer Cell}

theorem component_mapAll (pool : KVPool Cell) (change : Component → Buffer Cell → Buffer Cell) (component : Component) :
    (pool.mapAll change).component component = (pool.component component).map (change component) := by
  cases component with
  | k | v => rfl
  | kScale => cases scales : pool.kScaleBuffer <;> simp [mapAll, KVPool.component, scales]
  | vScale => cases scales : pool.vScaleBuffer <;> simp [mapAll, KVPool.component, scales]

theorem mapAll_mapAll : (pool.mapAll change).mapAll next = pool.mapAll fun component => next component ∘ change component := by
  simp [mapAll, Function.comp_def]

theorem mapKV_eq : pool.mapKV apply = pool.mapAll fun component => if component = .k ∨ component = .v then apply else id := by
  simp [mapKV, mapAll]

theorem mapScales_eq : pool.mapScales apply = pool.mapAll fun component => if component = .k ∨ component = .v then id else apply := by
  simp [mapScales, mapAll]

theorem mapAll_id : pool.mapAll (fun _ => id) = pool := by
  simp [mapAll]

end KVPool

/-- The tiled copy moves rows, in any order, where none is both read and written. -/
def TiledCopies (copyKernel : Buffer Cell → List Nat → List Nat → Buffer Cell) : Prop :=
  ∀ rows tgtLoc srcLoc, srcLoc.length = tgtLoc.length → tgtLoc.Nodup → (∀ slot ∈ tgtLoc, slot ∉ srcLoc) →
    (∀ slot ∈ tgtLoc ++ srcLoc, slot < rows.length) →
    copyKernel (.nhd rows) tgtLoc srcLoc = moveRows 1 tgtLoc srcLoc (.nhd rows)

/-- Rows are moved `count` times. -/
structure Relocates (pageSize size heads count : Nat) (tgtLoc srcLoc : List Nat) (buffer after : Buffer Cell) : Prop where
  shaped : after.Shaped pageSize size heads
  read : ∀ loc < size, after.read pageSize loc = (move tgtLoc srcLoc)^[count] (buffer.read pageSize) loc
  rows : ∀ rows, buffer = .nhd rows → ∃ rows, after = .nhd rows

section Buffers

variable {heads count : Nat} {buffer middle after : Buffer Cell} (same : srcLoc.length = tgtLoc.length)
  (targets : ∀ slot ∈ tgtLoc, slot < size) (sources : ∀ slot ∈ srcLoc, slot < size)

theorem scatter_nhd (pageSize : Nat) (tgtLoc : List Nat) (values rows : List (List Cell)) :
    ∃ after : List (List Cell), after.length = rows.length ∧
      (Buffer.storage pageSize).scatter tgtLoc values (Buffer.nhd rows) = .nhd after := by
  induction tgtLoc generalizing values rows with
  | nil => cases values <;> exact ⟨rows, rfl, rfl⟩
  | cons target rest ih =>
      cases values with
      | nil => exact ⟨rows, rfl, rfl⟩
      | cons value later =>
          obtain ⟨after, size, whole⟩ := ih later (rows.set target value)
          exact ⟨after, size.trans (List.length_set ..), whole⟩

/-- The page size does not matter where slots are rows. -/
theorem moveRows_nhd (pageSize : Nat) (tgtLoc srcLoc : List Nat) (rows : List (List Cell)) :
    moveRows pageSize tgtLoc srcLoc (.nhd rows) = moveRows 1 tgtLoc srcLoc (.nhd rows) := by
  have scattered (values before : List (List Cell)) : (Buffer.storage pageSize).scatter tgtLoc values (Buffer.nhd before) =
      (Buffer.storage 1).scatter tgtLoc values (Buffer.nhd before) := by
    induction tgtLoc generalizing values before with
    | nil => cases values <;> rfl
    | cons target rest ih =>
        cases values with
        | nil => rfl
        | cons value later => exact ih later (before.set target value)
  exact scattered _ rows

include targets sources in
theorem moveRows_relocates (shaped : buffer.Shaped pageSize size heads) :
    Relocates pageSize size heads 1 tgtLoc srcLoc buffer (moveRows pageSize tgtLoc srcLoc buffer) where
  shaped := (storage_lawful pageSize size heads).sound_transfer shaped targets sources
  read _ bound := (storage_lawful pageSize size heads).read_transfer shaped targets sources bound
  rows := by
    rintro rows rfl
    obtain ⟨after, -, whole⟩ := scatter_nhd pageSize tgtLoc (srcLoc.map ((Buffer.nhd rows).read pageSize)) rows
    exact ⟨after, whole⟩

include sources in
theorem Relocates.again (first : Relocates pageSize size heads count tgtLoc srcLoc buffer middle)
    (second : Relocates pageSize size heads 1 tgtLoc srcLoc middle after) :
    Relocates pageSize size heads (count + 1) tgtLoc srcLoc buffer after where
  shaped := second.shaped
  read loc bound := by
    rw [second.read loc bound, Function.iterate_one, Function.iterate_succ_apply']
    exact move_congr (fun source member => first.read source (sources source member)) (first.read loc bound)
  rows rows here := by
    obtain ⟨between, inMiddle⟩ := first.rows rows here
    exact second.rows between inMiddle

theorem locChunks_flatten {cap : Nat} (same : srcLoc.length = tgtLoc.length) (positive : 0 < cap) :
    ((locChunks tgtLoc srcLoc cap).map Prod.fst).flatten = tgtLoc ∧
      ((locChunks tgtLoc srcLoc cap).map Prod.snd).flatten = srcLoc := by
  have enough : tgtLoc.length ≤ (tgtLoc.length + cap - 1) / cap * cap := by
    have above := Nat.lt_div_mul_add positive (a := tgtLoc.length + cap - 1)
    omega
  have counts := (length_reshape cap ((tgtLoc.length + cap - 1) / cap) tgtLoc).trans
    (length_reshape cap ((tgtLoc.length + cap - 1) / cap) srcLoc).symm
  constructor
  · rw [locChunks, List.map_fst_zip counts.le, flatten_reshape_of_le enough]
  · rw [locChunks, List.map_snd_zip counts.ge, flatten_reshape_of_le (same ▸ enough)]

theorem locChunks_one {cap : Nat} (same : srcLoc.length = tgtLoc.length) (some : 0 < tgtLoc.length) (within : tgtLoc.length ≤ cap) :
    locChunks tgtLoc srcLoc cap = [(tgtLoc, srcLoc)] := by
  have one : (tgtLoc.length + cap - 1) / cap = 1 := Nat.div_eq_of_lt_le (by omega) (by omega)
  rw [locChunks, one]
  simp [reshape, List.take_of_length_le within, List.take_of_length_le (same.trans_le within)]

theorem locChunks_part {cap : Nat} (same : srcLoc.length = tgtLoc.length) {part : List Nat × List Nat}
    (member : part ∈ locChunks tgtLoc srcLoc cap) :
    part.2.length = part.1.length ∧ List.Sublist part.1 tgtLoc ∧ ∀ slot ∈ part.2, slot ∈ srcLoc := by
  obtain ⟨index, found⟩ := List.getElem?_of_mem member
  obtain ⟨inTargets, inSources⟩ := List.getElem?_zip_eq_some.mp found
  have bound := (List.getElem?_eq_some_iff.mp inTargets).1
  rw [length_reshape] at bound
  rw [reshape_getElem? _ bound] at inTargets inSources
  rw [← Option.some.inj inTargets, ← Option.some.inj inSources]
  refine ⟨by simp [same], (List.take_sublist _ _).trans (List.drop_sublist _ _), fun slot listed => ?_⟩
  exact List.mem_of_mem_drop (List.mem_of_mem_take listed)

/-- A tiled copy in chunks is one move, of slots that it does not read. -/
theorem copyChunks_relocates (copies : TiledCopies copyKernel) (same : srcLoc.length = tgtLoc.length) (distinct : tgtLoc.Nodup)
    (apart : ∀ slot ∈ tgtLoc, slot ∉ srcLoc) (targets : ∀ slot ∈ tgtLoc, slot < size) (sources : ∀ slot ∈ srcLoc, slot < size)
    {cap : Nat} (positive : 0 < cap) {rows : List (List Cell)} (shaped : (Buffer.nhd rows).Shaped pageSize size heads) :
    Relocates pageSize size heads 1 tgtLoc srcLoc (.nhd rows)
      ((locChunks tgtLoc srcLoc cap).foldl (fun buffer part => copyKernel buffer part.1 part.2) (.nhd rows)) := by
  have inside : ∀ part ∈ locChunks tgtLoc srcLoc cap,
      (∀ target ∈ part.1, target < size) ∧ ∀ source ∈ part.2, source < size := fun part member =>
    ⟨fun slot listed => targets slot ((locChunks_part same member).2.1.subset listed),
      fun slot listed => sources slot ((locChunks_part same member).2.2 slot listed)⟩
  have apartChunks : ∀ part ∈ locChunks tgtLoc srcLoc cap, ∀ later ∈ locChunks tgtLoc srcLoc cap,
      ∀ slot ∈ later.2, slot ∉ part.1 := fun part member later inLater slot read written =>
    apart slot ((locChunks_part same member).2.1.subset written) ((locChunks_part same inLater).2.2 slot read)
  -- chunk by chunk, the kernel is a transfer
  have whole (parts : List (List Nat × List Nat)) (listed : ∀ part ∈ parts, part ∈ locChunks tgtLoc srcLoc cap)
      (before : List (List Cell)) (size' : before.length = size) :
      ∃ after, after.length = size ∧
        parts.foldl (fun buffer part => copyKernel buffer part.1 part.2) (Buffer.nhd before) = .nhd after ∧
        (Buffer.storage pageSize).transfers parts (Buffer.nhd before) = .nhd after := by
    induction parts generalizing before with
    | nil => exact ⟨before, size', rfl, rfl⟩
    | cons part rest ih =>
        obtain ⟨here, later⟩ := List.forall_mem_cons.mp listed
        obtain ⟨lengths, sub, -⟩ := locChunks_part same here
        have slots : ∀ slot ∈ part.1 ++ part.2, slot < before.length := fun slot member =>
          size'.symm ▸ (List.mem_append.mp member).elim ((inside part here).1 slot) ((inside part here).2 slot)
        have copied := copies before part.1 part.2 lengths (distinct.sublist sub)
          (fun slot written read => apartChunks part here part here slot read written) slots
        obtain ⟨next, nextSize, moved⟩ := scatter_nhd pageSize part.1 (part.2.map ((Buffer.nhd before).read pageSize)) before
        obtain ⟨after, afterSize, folded, transferred⟩ := ih later next (nextSize.trans size')
        have step : copyKernel (.nhd before) part.1 part.2 = .nhd next := by
          rw [copied, ← moveRows_nhd pageSize]
          exact moved
        refine ⟨after, afterSize, ?_, ?_⟩
        · rw [List.foldl_cons, step]
          exact folded
        · rw [Storage.transfers, show (Buffer.storage pageSize).transfer part.1 part.2 (Buffer.nhd before) = .nhd next from moved]
          exact transferred
  obtain ⟨after, -, folded, transferred⟩ := whole _ (fun _ member => member) rows shaped.1
  have lawful := @storage_lawful Cell pageSize size heads
  have parts : moves (locChunks tgtLoc srcLoc cap) ((Buffer.nhd rows).read pageSize) =
      move tgtLoc srcLoc ((Buffer.nhd rows).read pageSize) := by
    obtain ⟨targetsWhole, sourcesWhole⟩ := locChunks_flatten same positive
    rw [moves_eq (fun part member => (locChunks_part same member).1) ?_, targetsWhole, sourcesWhole]
    exact (List.pairwise_of_forall fun _ _ => trivial).imp_of_mem fun inEarlier inLater _ => apartChunks _ inEarlier _ inLater
  refine ⟨?_, fun loc bound => ?_, fun _ _ => ⟨after, folded⟩⟩
  · rw [folded, ← transferred]
    exact lawful.sound_transfers shaped inside
  · rw [folded, ← transferred]
    exact (lawful.read_transfers shaped inside bound).trans (congrFun parts loc)

theorem Relocates.rest (shaped : buffer.Shaped pageSize size heads) : Relocates pageSize size heads 0 tgtLoc srcLoc buffer buffer :=
  ⟨shaped, fun _ _ => rfl, fun rows here => ⟨rows, here⟩⟩

theorem Relocates.nothing (shaped : buffer.Shaped pageSize size heads) (count : Nat) :
    Relocates pageSize size heads count [] srcLoc buffer buffer := by
  refine ⟨shaped, fun loc _ => ?_, fun rows here => ⟨rows, here⟩⟩
  have still : move [] srcLoc = (id : (Nat → List Cell) → Nat → List Cell) := funext fun store => assign_nil _ _
  rw [still, Function.iterate_id]
  rfl

end Buffers

namespace KVPool

/-- The pool copies by tiles. -/
def Tiled (pool : KVPool Cell) : Prop :=
  pool.poolClass ≠ .pageMajor ∧ pool.useHnd = false ∧ pool.useNativeMoveKvCache = false ∧ ¬pool.Interleaves

instance (pool : KVPool Cell) : Decidable pool.Tiled := inferInstanceAs (Decidable (_ ∧ _ ∧ _ ∧ _))

/-- Rows of scales that a native move has moved are moved again. -/
def MovesScalesTwice (pool : KVPool Cell) : Prop :=
  pool.poolClass = .mxfp8 ∧ pool.pageSize ≠ 128 ∧ pool.useNativeMoveKvCache

instance (pool : KVPool Cell) : Decidable pool.MovesScalesTwice := inferInstanceAs (Decidable (_ ∧ _ ∧ _))

/-- How often `move_kv_cache` moves the rows of a component. -/
def passes (pool : KVPool Cell) : Component → Nat
  | .k | .v => 1
  | .kScale | .vScale => if pool.MovesScalesTwice then 2 else 1

/-- And how often the inherited one does. -/
def basePasses (pool : KVPool Cell) : Component → Nat
  | .k | .v => 1
  | .kScale | .vScale => if pool.poolClass = .mxfp8 ∧ pool.useNativeMoveKvCache = false then 0 else 1

end KVPool

/-- What `move_kv_cache` asks of its slots; tiles are copied in any order. -/
structure Movable (size : Nat) (pool : KVPool Cell) (tgtLoc srcLoc : List Nat) : Prop where
  same : srcLoc.length = tgtLoc.length
  targets : ∀ slot ∈ tgtLoc, slot < size
  sources : ∀ slot ∈ srcLoc, slot < size
  tiled : pool.Tiled → tgtLoc.Nodup ∧ (∀ slot ∈ tgtLoc, slot ∉ srcLoc) ∧ ∃ cap, pool.kvCopyConfig = some cap ∧ 0 < cap

section Paths

variable {heads : Component → Nat} {pool : KVPool Cell}

/-- Each component is moved, as often as `count` says. -/
def MovesBy (size : Nat) (heads : Component → Nat) (tgtLoc srcLoc : List Nat) (pool : KVPool Cell) (count : Component → Nat)
    (change : Component → Buffer Cell → Buffer Cell) : Prop :=
  ∀ component, ∀ buffer ∈ pool.component component,
    Relocates pool.pageSize size (heads component) (count component) tgtLoc srcLoc buffer (change component buffer)

theorem copyAllLayers_eq (tgtLoc srcLoc : List Nat) : pool.copyAllLayers tgtLoc srcLoc copyKernel =
    pool.mapAll fun component buffer =>
      if pool.poolClass = .mxfp8 ∧ (component = .kScale ∨ component = .vScale) then buffer else copyKernel buffer tgtLoc srcLoc := by
  unfold copyAllLayers
  by_cases scaled : pool.poolClass = .mxfp8 <;> simp [scaled, mapKV, mapScales, mapAll]

theorem copyChunks_eq (parts : List (List Nat × List Nat)) :
    parts.foldl (fun pool part => pool.copyAllLayers part.1 part.2 copyKernel) pool =
      pool.mapAll fun component buffer =>
        if pool.poolClass = .mxfp8 ∧ (component = .kScale ∨ component = .vScale) then buffer
        else parts.foldl (fun buffer part => copyKernel buffer part.1 part.2) buffer := by
  induction parts generalizing pool with
  | nil =>
      simp only [List.foldl_nil, ite_self]
      exact mapAll_id.symm
  | cons part rest ih =>
      rw [List.foldl_cons, ih, copyAllLayers_eq, mapAll_mapAll]
      congr 1
      funext component buffer
      simp only [mapAll, Function.comp_apply, List.foldl_cons]
      split <;> rfl

theorem moveKV_moves (formed : Formed size heads pool) (targets : ∀ slot ∈ tgtLoc, slot < size)
    (sources : ∀ slot ∈ srcLoc, slot < size) (unscaled : pool.component .kScale = [] ∧ pool.component .vScale = []) :
    ∃ change, Except.ok (pool.mapKV (moveRows pool.pageSize tgtLoc srcLoc)) = (.ok (pool.mapAll change) : Except Fault (KVPool Cell)) ∧
      MovesBy size heads tgtLoc srcLoc pool pool.basePasses change := by
  refine ⟨_, congrArg _ mapKV_eq, fun component buffer member => ?_⟩
  have moved := moveRows_relocates targets sources (formed.shaped component buffer member)
  cases component with
  | k => exact moved
  | v => exact moved
  | kScale =>
      rw [unscaled.1] at member
      cases member
  | vScale =>
      rw [unscaled.2] at member
      cases member

theorem moveKvCacheImpl_moves (copies : TiledCopies copyKernel) (formed : Formed size heads pool)
    (movable : Movable size pool tgtLoc srcLoc) (plain : ¬pool.Interleaves) (flat : pool.useHnd = false) :
    ∃ change, pool.moveKvCacheImpl tgtLoc srcLoc copyKernel = .ok (pool.mapAll change) ∧
      MovesBy size heads tgtLoc srcLoc pool pool.basePasses change := by
  obtain ⟨same, targets, sources, tiled⟩ := movable
  unfold moveKvCacheImpl
  split
  · rename_i paged
    exact moveKV_moves formed targets sources (formed.unscaled (.inr paged))
  · rename_i rowed
    have nhd := formed.rows rowed flat plain
    split
    · rename_i native
      refine ⟨fun _ => moveRows 1 tgtLoc srcLoc, rfl, fun component buffer member => ?_⟩
      obtain ⟨rows, rfl⟩ := nhd component buffer member
      have once : pool.basePasses component = 1 := by cases component <;> simp [basePasses, native]
      have moved := moveRows_relocates targets sources (formed.shaped component _ member)
      rw [moveRows_nhd] at moved
      rw [once]
      exact moved
    · rename_i tiles
      rw [Bool.not_eq_true] at tiles
      obtain ⟨distinct, apart, cap, config, positive⟩ := tiled ⟨rowed, flat, tiles, plain⟩
      split
      · rename_i none
        rw [List.length_eq_zero_iff] at none
        subst none
        exact ⟨fun _ => id, congrArg _ mapAll_id.symm, fun component buffer member =>
          .nothing (formed.shaped component buffer member) _⟩
      · rename_i some
        -- one chunk is all of them
        have chunked : (if tgtLoc.length ≤ cap then .ok (pool.copyAllLayers tgtLoc srcLoc copyKernel)
            else .ok ((locChunks tgtLoc srcLoc cap).foldl (fun pool part => pool.copyAllLayers part.1 part.2 copyKernel) pool) :
              Except Fault (KVPool Cell)) =
            .ok ((locChunks tgtLoc srcLoc cap).foldl (fun pool part => pool.copyAllLayers part.1 part.2 copyKernel) pool) := by
          split
          · rename_i within
            rw [locChunks_one same (Nat.pos_of_ne_zero some) within]
            rfl
          · rfl
        rw [config]
        dsimp only
        rw [chunked, copyChunks_eq]
        refine ⟨_, rfl, fun component buffer member => ?_⟩
        obtain ⟨rows, rfl⟩ := nhd component buffer member
        have shaped := formed.shaped component _ member
        have copied := copyChunks_relocates copies same distinct apart targets sources positive shaped
        cases component with
        | k => simpa [basePasses] using copied
        | v => simpa [basePasses] using copied
        | kScale | vScale =>
            by_cases apartScales : pool.poolClass = .mxfp8
            · simpa [basePasses, apartScales, tiles] using Relocates.rest shaped
            · simpa [basePasses, apartScales] using copied

theorem moveKvCacheBase_moves (copies : TiledCopies copyKernel) (formed : Formed size heads pool)
    (movable : Movable size pool tgtLoc srcLoc) (plain : ¬pool.Interleaves) :
    ∃ change, pool.moveKvCacheBase tgtLoc srcLoc copyKernel = .ok (pool.mapAll change) ∧
      MovesBy size heads tgtLoc srcLoc pool pool.basePasses change := by
  obtain ⟨same, targets, sources, tiled⟩ := movable
  unfold moveKvCacheBase
  split
  · -- a pool without layers
    rename_i none
    refine ⟨fun _ => id, congrArg _ mapAll_id.symm, fun component buffer member => ?_⟩
    have empty := formed.layers component
    rw [none, Nat.le_zero, List.length_eq_zero_iff] at empty
    rw [empty] at member
    cases member
  · split
    · rename_i hnd
      exact moveKV_moves formed targets sources (formed.unscaled (.inl hnd))
    · rename_i flat
      rw [Bool.not_eq_true] at flat
      exact moveKvCacheImpl_moves copies formed ⟨same, targets, sources, tiled⟩ plain flat

/-- `MHATokenToKVPoolMXFP8` moves its scales itself; with rows of scales and a
native move it does so a second time. -/
theorem moveKvCache_moves (copies : TiledCopies copyKernel) (formed : Formed size heads pool)
    (movable : Movable size pool tgtLoc srcLoc) :
    ∃ change, pool.moveKvCache tgtLoc srcLoc copyKernel = .ok (pool.mapAll change) ∧
      MovesBy size heads tgtLoc srcLoc pool pool.passes change := by
  by_cases scaled : pool.poolClass = .mxfp8
  · simp only [moveKvCache, scaled]
    split
    · rename_i page
      refine ⟨fun _ => moveRows pool.pageSize tgtLoc srcLoc, rfl, fun component buffer member => ?_⟩
      have once : pool.passes component = 1 := by cases component <;> simp [passes, MovesScalesTwice, page]
      rw [once]
      exact moveRows_relocates movable.targets movable.sources (formed.shaped component buffer member)
    · rename_i page
      obtain ⟨change, moved, moves⟩ := moveKvCacheBase_moves copies formed movable fun interleaves => page interleaves.2
      rw [moved]
      refine ⟨_, congrArg Except.ok (mapScales_eq.trans mapAll_mapAll), fun component buffer member => ?_⟩
      have first := moves component buffer member
      have second := first.again movable.sources (moveRows_relocates movable.targets movable.sources first.shaped)
      cases component with
      | k => exact first
      | v => exact first
      | kScale | vScale =>
          have twice : pool.passes .kScale = pool.basePasses .kScale + 1 := by
            cases native : pool.useNativeMoveKvCache <;> simp [passes, MovesScalesTwice, basePasses, scaled, page, native]
          show Relocates _ _ _ (pool.passes .kScale) _ _ _ _
          rw [twice]
          exact second
  · have base : pool.moveKvCache tgtLoc srcLoc copyKernel = pool.moveKvCacheBase tgtLoc srcLoc copyKernel := by
      cases poolClass : pool.poolClass with
      | mha => simp only [moveKvCache, poolClass]
      | pageMajor => simp only [moveKvCache, poolClass]
      | mxfp8 => exact absurd poolClass scaled
    obtain ⟨change, moved, moves⟩ := moveKvCacheBase_moves copies formed movable fun interleaves => scaled interleaves.1
    refine ⟨change, base.trans moved, fun component buffer member => ?_⟩
    have once : pool.passes component = pool.basePasses component := by
      cases component <;> simp [passes, MovesScalesTwice, basePasses, scaled]
    rw [once]
    exact moves component buffer member

end Paths

end FlashNext.Kv
