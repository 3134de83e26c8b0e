import FlashNext.Routing.SharedSlots

namespace FlashNext.Routing

namespace SharedSlots

variable {K : Type*}

def sharedCols {α : Type*} (config : SharedSlots K) (row : List α) : List α :=
  row.drop (row.length - config.numFusedSharedExperts)

/-- `_mask_topk_ids_padded_region`. -/
def maskPadded (numTokenNonPadded : Option Nat) (topkIds : List (List Int)) : List (List Int) :=
  topkIds.mapIdx fun row ids => if ∃ count ∈ numTokenNonPadded, count ≤ row then ids.map fun _ => -1 else ids

/-- `_biased_grouped_topk_postprocess`; a replica is chosen for each entry. -/
def postprocess (toPhysical : Nat → Nat → Int → Int) (numTokenNonPadded : Option Nat) (topkIds : List (List Int)) :
    List (List Int) :=
  maskPadded numTokenNonPadded (topkIds.mapIdx fun row ids => ids.mapIdx (toPhysical row))

/-- "split, dispatch the routed cols, recombine". -/
def recombined (config : SharedSlots K) (toPhysical : Nat → Nat → Int → Int) (numTokenNonPadded : Option Nat)
    (topkIds : List (List Int)) : List (List Int) :=
  List.zipWith (· ++ ·) (postprocess toPhysical numTokenNonPadded (topkIds.map config.routedCols)) (topkIds.map config.sharedCols)

/-- `_post_process_topk_ids` on CUDA without an LP solver, with what the recorder is
given. -/
def postProcessTopkIds [Field K] [DecidableEq K] (config : SharedSlots K) (usePerRankSharedSlots : Bool)
    (toPhysical : Nat → Nat → Int → Int) (numTokenNonPadded : Option Nat) (topkIds : List (List Int))
    (topkWeights : List (List K)) : Except RoutingError (List (List Int) × List (List K) × List (List Int)) :=
  if usePerRankSharedSlots then do
    let (ids, weights) ← config.remapTopk (config.recombined toPhysical numTokenNonPadded topkIds) topkWeights
    return (ids, weights, postprocess toPhysical numTokenNonPadded (topkIds.map config.routedCols))
  else
    let ids := postprocess toPhysical numTokenNonPadded topkIds
    .ok (ids, topkWeights, ids)

variable {config : SharedSlots K} {toPhysical : Nat → Nat → Int → Int} {numTokenNonPadded : Option Nat}
  {topkIds : List (List Int)} {topkWeights : List (List K)}

theorem routedCols_append {α : Type*} {routed shared : List α} (size : shared.length = config.numFusedSharedExperts) :
    config.routedCols (routed ++ shared) = routed := by
  rw [routedCols, List.length_append, size, Nat.add_sub_cancel, List.take_left]

theorem postprocess_getElem? (row : Nat) : (postprocess toPhysical numTokenNonPadded topkIds)[row]? = topkIds[row]?.map fun ids =>
    if ∃ count ∈ numTokenNonPadded, count ≤ row then ids.map fun _ => -1 else ids.mapIdx (toPhysical row) := by
  rw [postprocess, maskPadded, List.getElem?_mapIdx, List.getElem?_mapIdx, Option.map_map]
  refine congrArg (Option.map · topkIds[row]?) (funext fun ids => ?_)
  rw [Function.comp_apply]
  split
  · rw [List.map_const', List.map_const', List.length_mapIdx]
  · rfl

theorem recombined_getElem? {row : Nat} {ids : List Int} (found : topkIds[row]? = some ids) :
    (config.recombined toPhysical numTokenNonPadded topkIds)[row]? =
      some ((if ∃ count ∈ numTokenNonPadded, count ≤ row then (config.routedCols ids).map fun _ => -1
        else (config.routedCols ids).mapIdx (toPhysical row)) ++ config.sharedCols ids) := by
  rw [recombined, List.getElem?_zipWith, postprocess_getElem?, List.getElem?_map, List.getElem?_map, found]
  rfl

section Weights

variable [Field K] [DecidableEq K]

/-- A token that is not padded reaches the physical experts of its routed ones,
and the shared expert on the own rank. -/
theorem postProcessTopkIds_reaches (local_ : 0 < config.numLocalRouted) (one : config.numFusedSharedExperts = 1)
    (wide : ∀ ids ∈ topkIds, ids ≠ []) (same : topkWeights.length = topkIds.length) :
    ∃ ids weights recorded, config.postProcessTopkIds true toPhysical numTokenNonPadded topkIds topkWeights =
        .ok (ids, weights, recorded) ∧ List.Forall₂ config.Weighed topkWeights weights ∧
      (∀ outputFactor, config.Multiplies outputFactor → ∀ row ∈ weights, config.CountsOnce outputFactor row) ∧
      ∀ row before, topkIds[row]? = some before → ∃ physical routed, recorded[row]? = some physical ∧
        ids[row]? = some (routed ++ config.sharedIds) ∧ List.Forall₂ config.InSlot physical routed ∧
        physical = if ∃ count ∈ numTokenNonPadded, count ≤ row then (config.routedCols before).map fun _ => -1
          else (config.routedCols before).mapIdx (toPhysical row) := by
  have length : (config.recombined toPhysical numTokenNonPadded topkIds).length = topkIds.length := by
    simp [recombined, postprocess, maskPadded]
  have shared (ids : List Int) (member : ids ∈ topkIds) : (config.sharedCols ids).length = config.numFusedSharedExperts := by
    have some_ := List.length_pos_iff.mpr (wide ids member)
    rw [sharedCols, List.length_drop, one]
    omega
  have shaped : config.Shaped (config.recombined toPhysical numTokenNonPadded topkIds) := by
    refine ⟨local_, by omega, fun ids member => ?_⟩
    obtain ⟨row, inside, rfl⟩ := List.mem_iff_getElem.mp member
    have before : row < topkIds.length := length ▸ inside
    have found := @recombined_getElem? _ config toPhysical numTokenNonPadded _ _ _ (List.getElem?_eq_getElem before)
    rw [List.getElem?_eq_getElem inside, Option.some_inj] at found
    rw [found, List.length_append, shared _ (List.getElem_mem before)]
    omega
  have ran : config.postProcessTopkIds true toPhysical numTokenNonPadded topkIds topkWeights =
      .ok ((config.recombined toPhysical numTokenNonPadded topkIds).map config.remapRow, topkWeights.map config.weighRow,
        postprocess toPhysical numTokenNonPadded (topkIds.map config.routedCols)) := by
    rw [postProcessTopkIds, if_pos rfl, remapTopk_ok shaped (same.trans length.symm)]
    rfl
  refine ⟨_, _, _, ran, weighRows_weighed, fun _ => weighRows_countsOnce, fun row before found => ?_⟩
  have width := shared before (List.mem_of_getElem? found)
  obtain ⟨routed, placed, slots⟩ := (placed_iff local_ shaped.2.1 _).mpr (Or.inl one)
  rw [routedCols_append width] at slots
  refine ⟨_, routed, ?_, ?_, slots, rfl⟩
  · rw [postprocess_getElem?, List.getElem?_map, found]
    rfl
  · rw [List.getElem?_map, recombined_getElem? found, Option.map_some, placed]

end Weights

theorem padding_reached {cols routed : List Int} (slots : List.Forall₂ config.InSlot (cols.map fun _ => -1) routed) :
    ∀ id ∈ routed, id < 0 := by
  rw [List.forall₂_map_left_iff] at slots
  induction slots with
  | nil => exact fun _ member => nomatch member
  | cons first rest ih =>
      rw [InSlot, if_pos (by decide)] at first
      exact List.forall_mem_cons.mpr ⟨first, ih⟩

section Tokens

variable [Field K] [LinearOrder K] {ops : Operators K} {routing : GroupedTopk K} {numExperts : Nat}
  {gatingOutput : List (List K)} {correctionBias : List K}

/-- Two groups of three experts and a shared one, whose weights do not have the factor. -/
def unscaledExperts : GroupedTopk ℚ := ⟨3, true, 2, 1, 1, some (5 / 2), false⟩

end Tokens

end SharedSlots

end FlashNext.Routing
