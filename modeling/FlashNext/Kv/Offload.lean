import FlashNext.Kv.Runs

namespace FlashNext.Kv

open FlashNext.Data KVPool

variable {Cell : Type} {size chunkSize : Nat} {heads : Component → Nat} {pool source : KVPool Cell} {sources targets : List Nat}

/-- Rows of one buffer, put at slots of another. -/
def putRows (pageSize : Nat) (targets sources : List Nat) (from_ into : Buffer Cell) : Buffer Cell :=
  (Buffer.storage pageSize).scatter targets (sources.map (from_.read pageSize)) into

theorem cpuChunks_flatten (positive : 0 < chunkSize) (indices : List Nat) : (cpuChunks chunkSize indices).flatten = indices := by
  apply flatten_reshape_of_le
  have above := Nat.lt_div_mul_add positive (a := indices.length + chunkSize - 1)
  omega

theorem cpuChunks_lengths (chunkSize : Nat) (same : sources.length = targets.length) :
    (cpuChunks chunkSize sources).map List.length = (cpuChunks chunkSize targets).map List.length := by
  apply List.ext_getElem?
  intro index
  rw [List.getElem?_map, List.getElem?_map, cpuChunks, cpuChunks, same]
  by_cases bound : index < (targets.length + chunkSize - 1) / chunkSize
  · rw [reshape_getElem? _ bound, reshape_getElem? _ bound]
    simp [same]
  · rw [List.getElem?_eq_none (by rw [length_reshape]; omega), List.getElem?_eq_none (by rw [length_reshape]; omega)]

/-- Chunk by chunk is all at once. -/
theorem loadLayer_eq {pageSize : Nat} {chunks : List (List Nat)} {payload : List (List (List Cell) × List (List Cell))}
    (keys : payload.map (fun part => part.1.length) = chunks.map List.length)
    (values : payload.map (fun part => part.2.length) = chunks.map List.length) (layer : Buffer Cell × Buffer Cell) :
    loadLayer pageSize chunks payload layer =
      .ok ((Buffer.storage pageSize).scatter chunks.flatten (payload.map Prod.fst).flatten layer.1,
        (Buffer.storage pageSize).scatter chunks.flatten (payload.map Prod.snd).flatten layer.2) := by
  induction chunks generalizing payload layer with
  | nil =>
      rw [List.map_eq_nil_iff.mp keys]
      rfl
  | cons chunk rest ih =>
      cases payload with
      | nil => cases keys
      | cons part later =>
          injection keys with key keys
          injection values with value values
          rw [loadLayer, if_pos ⟨key, value⟩, ih keys values, List.map_cons, List.map_cons, List.flatten_cons, List.flatten_cons,
            List.flatten_cons, Storage.scatter_append _ key, Storage.scatter_append _ value]

theorem loadLayers_eq {pageSize : Nat} (positive : 0 < chunkSize) (same : sources.length = targets.length)
    (layers saved : List (Buffer Cell × Buffer Cell)) (count : layers.length = saved.length) :
    loadLayers pageSize (cpuChunks chunkSize targets) layers
        (saved.map fun layer => (cpuChunks chunkSize sources).map fun chunk =>
          (chunk.map (layer.1.read pageSize), chunk.map (layer.2.read pageSize))) =
      .ok (List.zipWith (fun from_ into => (putRows pageSize targets sources from_.1 into.1, putRows pageSize targets sources from_.2 into.2))
        saved layers) := by
  induction layers generalizing saved with
  | nil =>
      rw [List.eq_nil_of_length_eq_zero count.symm]
      rfl
  | cons layer rest ih =>
      cases saved with
      | nil => cases count
      | cons from_ later =>
          have lengths := cpuChunks_lengths chunkSize same
          rw [List.map_cons, loadLayers, loadLayer_eq (by simpa [Function.comp_def] using lengths)
            (by simpa [Function.comp_def] using lengths), ih later (Nat.succ.inj count)]
          have flat (read : Nat → List Cell) : ((cpuChunks chunkSize sources).map fun chunk => chunk.map read).flatten =
              sources.map read := by
            rw [← List.map_flatten, cpuChunks_flatten positive]
          simp only [List.map_map, Function.comp_def, flat, cpuChunks_flatten positive]
          rfl

/-- The pool once the tokens are loaded. -/
def KVPool.withRows (pool source : KVPool Cell) (targets sources : List Nat) : KVPool Cell :=
  { pool with
    kBuffer := List.zipWith (putRows pool.pageSize targets sources) source.kBuffer pool.kBuffer
    vBuffer := List.zipWith (putRows pool.pageSize targets sources) source.vBuffer pool.vBuffer }

theorem zipWith_pairs {α : Type} (put : α → α → α) {keys values intoKeys intoValues : List α} (paired : values.length = keys.length)
    (intoPaired : intoValues.length = intoKeys.length) :
    List.zipWith (fun from_ into => (put from_.1 into.1, put from_.2 into.2)) (keys.zip values) (intoKeys.zip intoValues) =
      (List.zipWith put keys intoKeys).zip (List.zipWith put values intoValues) := by
  induction keys generalizing values intoKeys intoValues with
  | nil => rfl
  | cons key rest ih =>
      cases values with
      | nil => cases paired
      | cons value later =>
          cases intoKeys with
          | nil => rfl
          | cons intoKey intoRest =>
              cases intoValues with
              | nil => cases intoPaired
              | cons intoValue intoLater => exact congrArg _ (ih (Nat.succ.inj paired) (Nat.succ.inj intoPaired))

/-- What is offloaded loads, in any chunks. -/
theorem loadCpuCopy_getCpuCopy (plain : pool.useHnd = false ∧ pool.poolClass = .mha)
    (alike : source.useHnd = pool.useHnd ∧ source.poolClass = pool.poolClass ∧ source.pageSize = pool.pageSize ∧
      source.kBuffer.length = pool.kBuffer.length) (inPool : pool.vBuffer.length = pool.kBuffer.length)
    (inSource : source.vBuffer.length = source.kBuffer.length) (positive : 0 < chunkSize) (same : sources.length = targets.length) :
    ∃ kvCacheCpu, source.getCpuCopy chunkSize sources = .ok kvCacheCpu ∧
      pool.loadCpuCopy chunkSize kvCacheCpu targets = .ok (pool.withRows source targets sources) := by
  obtain ⟨hnd, poolClass, page, layers⟩ := alike
  refine ⟨_, by rw [getCpuCopy, hnd, poolClass, plain.1, plain.2]; rfl, ?_⟩
  have count : (pool.kBuffer.zip pool.vBuffer).length = (source.kBuffer.zip source.vBuffer).length := by
    rw [List.length_zip, List.length_zip, inPool, inSource, layers]
  have both : (List.zipWith (putRows pool.pageSize targets sources) source.kBuffer pool.kBuffer).length =
      (List.zipWith (putRows pool.pageSize targets sources) source.vBuffer pool.vBuffer).length := by
    rw [List.length_zipWith, List.length_zipWith, inPool, inSource]
  have loads : ¬(pool.useHnd || decide (pool.poolClass ≠ .mha)) = true := by simp [plain]
  rw [loadCpuCopy, if_neg loads, page, loadLayers_eq positive same _ _ count, zipWith_pairs _ inSource inPool]
  simp only [Except.map, List.map_fst_zip both.le, List.map_snd_zip both.ge, withRows]

/-- Pools of one configuration. -/
structure Alike (pool source : KVPool Cell) : Prop where
  useHnd : source.useHnd = pool.useHnd
  poolClass : source.poolClass = pool.poolClass
  pageSize : source.pageSize = pool.pageSize
  layers : source.kBuffer.length = pool.kBuffer.length

section Rows

variable (inPool : Formed size heads pool) (inSource : Formed size heads source) (alike : Alike pool source)
  (inside : ∀ slot ∈ targets, slot < size) (reads : ∀ slot ∈ sources, slot < size)

include inPool inSource alike inside reads

/-- Rows are assigned to their targets, in both components. -/
theorem read_putRows {component : Component} {index : Nat} {from_ into : Buffer Cell}
    (inComponent : (pool.component component)[index]? = some into) (here : (source.component component)[index]? = some from_) {slot : Nat}
    (bound : slot < size) : (putRows pool.pageSize targets sources from_ into).read pool.pageSize slot =
      assign targets (sources.map (from_.read pool.pageSize)) (into.read pool.pageSize) slot := by
  have lawful := @storage_lawful Cell pool.pageSize size (heads component)
  have shaped := inSource.shaped component from_ (List.mem_of_getElem? here)
  rw [alike.pageSize] at shaped
  exact lawful.read_scatter (inPool.shaped component into (List.mem_of_getElem? inComponent)) inside
    (lawful.fits_gathered shaped reads) bound

variable (component : Component) (count : (source.component component).length = (pool.component component).length) {slot : Nat}
  (bound : slot < size)

include count bound

theorem rows_loaded (distinct : targets.Nodup) {index saved : Nat} (target : targets[index]? = some slot)
    (found : sources[index]? = some saved) :
    (List.zipWith (putRows pool.pageSize targets sources) (source.component component) (pool.component component)).map
        (·.read pool.pageSize slot) = source.token saved component := by
  apply List.ext_getElem?
  intro layer
  rw [List.getElem?_map, List.getElem?_zipWith, token, List.getElem?_map, alike.pageSize]
  cases here : (source.component component)[layer]? with
  | none => rfl
  | some from_ =>
      have inBound := count ▸ (List.getElem?_eq_some_iff.mp here).1
      have inComponent := List.getElem?_eq_getElem inBound
      rw [inComponent]
      have read := read_putRows inPool inSource alike inside reads inComponent here bound
      rw [assign_target distinct target (by rw [List.getElem?_map, found]; rfl)] at read
      exact congrArg some read

theorem rows_left (absent : slot ∉ targets) :
    (List.zipWith (putRows pool.pageSize targets sources) (source.component component) (pool.component component)).map
        (·.read pool.pageSize slot) = pool.token slot component := by
  apply List.ext_getElem?
  intro layer
  rw [List.getElem?_map, List.getElem?_zipWith, token, List.getElem?_map]
  cases inComponent : (pool.component component)[layer]? with
  | none =>
      cases (source.component component)[layer]? <;> rfl
  | some into =>
      have inBound := count ▸ (List.getElem?_eq_some_iff.mp inComponent).1
      have here := List.getElem?_eq_getElem inBound
      rw [here]
      have read := read_putRows inPool inSource alike inside reads inComponent here bound
      rw [assign_other absent] at read
      exact congrArg some read

end Rows

/-- A token comes back from the host exactly when its slot has its scales; slots
that nothing is loaded to are as they were. -/
theorem offload_exact (inPool : Formed size heads pool) (inSource : Formed size heads source) (alike : Alike pool source)
    (plain : pool.useHnd = false ∧ pool.poolClass = .mha) (positive : 0 < chunkSize) (same : sources.length = targets.length)
    (distinct : targets.Nodup) (inside : ∀ slot ∈ targets, slot < size) (reads : ∀ slot ∈ sources, slot < size) :
    ∃ kvCacheCpu next, source.getCpuCopy chunkSize sources = .ok kvCacheCpu ∧ pool.loadCpuCopy chunkSize kvCacheCpu targets = .ok next ∧
      (∀ slot < size, slot ∉ targets → next.token slot = pool.token slot) ∧
      ∀ index target slot : Nat, targets[index]? = some target → sources[index]? = some slot →
        (next.token target = source.token slot ↔
          ∀ component ∈ [Component.kScale, .vScale], pool.token target component = source.token slot component) := by
  obtain ⟨kvCacheCpu, saved, loaded⟩ := loadCpuCopy_getCpuCopy plain ⟨alike.useHnd, alike.poolClass, alike.pageSize, alike.layers⟩
    inPool.values inSource.values positive same
  refine ⟨kvCacheCpu, _, saved, loaded, fun slot bound absent => ?_, fun index target slot written read => ?_⟩
  · have values : source.vBuffer.length = pool.vBuffer.length := inSource.values.trans (alike.layers.trans inPool.values.symm)
    funext component
    cases component with
    | k => exact rows_left inPool inSource alike inside reads .k alike.layers bound absent
    | v => exact rows_left inPool inSource alike inside reads .v values bound absent
    | kScale => rfl
    | vScale => rfl
  · have values : source.vBuffer.length = pool.vBuffer.length := inSource.values.trans (alike.layers.trans inPool.values.symm)
    have bound := inside target (List.mem_of_getElem? written)
    constructor
    · intro whole component scale
      rw [← whole]
      rcases List.mem_pair.mp scale with rfl | rfl <;> rfl
    · intro scales
      funext component
      cases component with
      | k => exact rows_loaded inPool inSource alike inside reads .k alike.layers bound distinct written read
      | v => exact rows_loaded inPool inSource alike inside reads .v values bound distinct written read
      | kScale => exact scales .kScale (by simp)
      | vScale => exact scales .vScale (by simp)

/-- A quantised token that is offloaded and loaded at the next slot takes the scales there. -/
theorem offload_exact_next_slot : ∃ kvCacheCpu next, (fourSlots .mha true).getCpuCopy 1 [1, 3] = .ok kvCacheCpu ∧
    (fourSlots .mha true).loadCpuCopy 1 kvCacheCpu [2, 3] = .ok next ∧
      next.token 2 ≠ (fourSlots .mha true).token 1 ∧ next.token 3 = (fourSlots .mha true).token 3 := by
  have formed := fourSlots_formed (by decide : PoolClass.mha ≠ .pageMajor) true
  obtain ⟨kvCacheCpu, next, saved, loaded, -, tokens⟩ := offload_exact formed formed ⟨rfl, rfl, rfl, rfl⟩ ⟨rfl, rfl⟩
    (by decide : 0 < 1) (by decide : [1, 3].length = [2, 3].length) (by decide) (by decide) (by decide)
  refine ⟨kvCacheCpu, next, saved, loaded, fun whole => ?_, (tokens 1 3 3 rfl rfl).mpr fun _ _ => rfl⟩
  exact absurd ((tokens 0 2 1 rfl rfl).mp whole .kScale (by decide)) (by decide)

end FlashNext.Kv
