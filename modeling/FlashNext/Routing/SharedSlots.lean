import FlashNext.Routing.Grouped
import Mathlib.Data.List.Forall2

namespace FlashNext.Routing

structure SharedSlots (K : Type*) where
  epSize : Nat
  epRank : Nat
  numFusedSharedExperts : Nat
  numPhysicalRoutedExperts : Nat
  routedScalingFactor : Option K
  useAiter : Bool

namespace SharedSlots

variable {K : Type*}

def numLocalRouted (config : SharedSlots K) : Nat := config.numPhysicalRoutedExperts / config.epSize

def numLocalExperts (config : SharedSlots K) : Nat := config.numLocalRouted + config.numFusedSharedExperts

/-- `[:, :-num_fused_shared_experts]`. -/
def routedCols {α : Type*} (config : SharedSlots K) (row : List α) : List α :=
  row.take (row.length - config.numFusedSharedExperts)

def sharedIds (config : SharedSlots K) : List Int :=
  (List.range config.numFusedSharedExperts).map fun index =>
    ((config.epRank * config.numLocalExperts + config.numLocalRouted + index : Nat) : Int)

def remapRow (config : SharedSlots K) (row : List Int) : List Int :=
  ((config.routedCols row).map fun id : Int => id + id / config.numLocalRouted) ++ config.sharedIds

def setShared (config : SharedSlots K) (weight : K) (row : List K) : List K :=
  config.routedCols row ++ List.replicate (min config.numFusedSharedExperts row.length) weight

def weighRow [Field K] [DecidableEq K] (config : SharedSlots K) (row : List K) : List K :=
  if config.useAiter then config.setShared 1 row
  else match config.routedScalingFactor with
    | none => row
    | some factor => if factor ≠ 0 then config.setShared (1 / factor) row else row

/-- What torch checks. -/
def Shaped (config : SharedSlots K) (topkIds : List (List Int)) : Prop :=
  0 < config.numLocalRouted ∧ 0 < config.numFusedSharedExperts ∧
    ∀ row ∈ topkIds, config.numFusedSharedExperts ≤ row.length

instance (config : SharedSlots K) (topkIds : List (List Int)) : Decidable (config.Shaped topkIds) :=
  inferInstanceAs (Decidable (_ ∧ _))

/-- `remap_topk_for_per_rank_shared_slots`: the experts of each rank, the routed ones
first and the shared ones behind them, lie rank by rank in one space of ids. -/
def remapTopk [Field K] [DecidableEq K] (config : SharedSlots K) (topkIds : List (List Int)) (topkWeights : List (List K)) :
    Except RoutingError (List (List Int) × List (List K)) :=
  if topkIds = [] then .ok (topkIds, topkWeights)
  else if config.Shaped topkIds then .ok (topkIds.map config.remapRow, topkWeights.map config.weighRow)
  else .error .torch

variable {config : SharedSlots K} {topkIds : List (List Int)} {topkWeights : List (List K)}

/-- An id reaches a place in a rank's block. -/
def Reaches (config : SharedSlots K) (id rank place : Int) : Prop :=
  id / config.numLocalExperts = rank ∧ id % config.numLocalExperts = place

/-- A routed expert is reached on its own rank and in its own place; padding
stays padding. -/
def InSlot (config : SharedSlots K) (id after : Int) : Prop :=
  if id < 0 then after < 0 else config.Reaches after (id / config.numLocalRouted) (id % config.numLocalRouted)

def Placed (config : SharedSlots K) (row after : List Int) : Prop :=
  ∃ routed, after = routed ++ config.sharedIds ∧ List.Forall₂ config.InSlot (config.routedCols row) routed

theorem sharedIds_reach {index : Nat} {id : Int} (found : config.sharedIds[index]? = some id) :
    config.Reaches id config.epRank (config.numLocalRouted + index) := by
  rw [sharedIds, List.getElem?_map, Option.map_eq_some_iff] at found
  obtain ⟨index, listed, rfl⟩ := found
  obtain ⟨inside, rfl⟩ := List.getElem?_eq_some_iff.mp listed
  rw [List.getElem_range] at *
  rw [List.length_range] at inside
  have below : config.numLocalRouted + index < config.numLocalExperts := Nat.add_lt_add_left inside _
  rw [Reaches, Nat.add_assoc, Nat.mul_comm, ← Int.natCast_ediv, ← Int.natCast_emod, Nat.mul_add_div (by omega),
    Nat.div_eq_of_lt below, Nat.mul_add_mod, Nat.mod_eq_of_lt below]
  exact ⟨rfl, by push_cast; rfl⟩

/-- One id is left for the shared experts of each rank before. -/
theorem inSlot_iff (local_ : 0 < config.numLocalRouted) (shared : 0 < config.numFusedSharedExperts) (id : Int) :
    config.InSlot id (id + id / config.numLocalRouted) ↔ config.numFusedSharedExperts = 1 ∨ id < config.numLocalRouted := by
  have positive : (0 : Int) < config.numLocalRouted := by omega
  rw [InSlot]
  split
  · rename_i negative
    have before := Int.ediv_neg_of_neg_of_pos negative positive
    exact iff_of_true (by omega) (Or.inr (by omega))
  · rename_i nonneg
    have place := Int.emod_nonneg id positive.ne'
    have inside := Int.emod_lt_of_pos id positive
    have parts := Int.mul_ediv_add_emod id config.numLocalRouted
    have rank := Int.ediv_nonneg (not_lt.mp nonneg) positive.le
    have size : (config.numLocalExperts : Int) = config.numLocalRouted + config.numFusedSharedExperts := by
      rw [numLocalExperts, Nat.cast_add]
    generalize id / (config.numLocalRouted : Int) = rank_ at *
    generalize id % (config.numLocalRouted : Int) = place_ at *
    constructor
    · rintro ⟨quotient, remainder⟩
      have whole := Int.mul_ediv_add_emod (id + rank_) config.numLocalExperts
      rw [quotient, remainder, size, add_mul] at whole
      have equal : (config.numFusedSharedExperts - 1 : Int) * rank_ = 0 := by
        rw [sub_mul, one_mul]
        omega
      rcases mul_eq_zero.mp equal with one | first
      · exact Or.inl (by omega)
      · rw [first, mul_zero] at parts
        exact Or.inr (by omega)
    · intro fits
      have same : id + rank_ = config.numLocalExperts * rank_ + place_ := by
        rcases fits with one | first
        · rw [size, one, add_mul, Nat.cast_one, one_mul]
          omega
        · have zero : rank_ = 0 := by
            by_contra later
            have least : (config.numLocalRouted : Int) * 1 ≤ config.numLocalRouted * rank_ :=
              Int.mul_le_mul_of_nonneg_left (by omega) positive.le
            omega
          rw [zero, mul_zero]
          rw [zero, mul_zero] at parts
          omega
      rw [Reaches, same, Int.mul_add_ediv_left _ _ (by omega), Int.ediv_eq_zero_of_lt place (by omega), add_zero,
        Int.mul_add_emod_self_left, Int.emod_eq_of_lt place (by omega)]
      exact ⟨rfl, rfl⟩

theorem placed_iff (local_ : 0 < config.numLocalRouted) (shared : 0 < config.numFusedSharedExperts) (row : List Int) :
    config.Placed row (config.remapRow row) ↔
      config.numFusedSharedExperts = 1 ∨ ∀ id ∈ config.routedCols row, id < config.numLocalRouted := by
  have routed : config.Placed row (config.remapRow row) ↔
      ∀ id ∈ config.routedCols row, config.InSlot id (id + id / config.numLocalRouted) := by
    have mapped : List.Forall₂ config.InSlot (config.routedCols row)
        ((config.routedCols row).map fun id : Int => id + id / config.numLocalRouted) ↔
          ∀ id ∈ config.routedCols row, config.InSlot id (id + id / config.numLocalRouted) := by
      rw [List.forall₂_map_right_iff, List.forall₂_same]
    rw [← mapped]
    constructor
    · rintro ⟨routed, same, placed⟩
      rwa [List.append_cancel_right same]
    · exact fun placed => ⟨_, rfl, placed⟩
  simp only [routed, inSlot_iff local_ shared]
  by_cases one : config.numFusedSharedExperts = 1
  · simp only [one, true_or, implies_true]
  · simp only [one, false_or]

/-- The routed weights stay; a shared one is set to one on aiter, else to the inverse
of the scaling factor, and without a factor it stays too. -/
structure Weighed [Field K] (config : SharedSlots K) (row after : List K) : Prop where
  routed : config.routedCols after = config.routedCols row
  count : after.length = row.length
  fused : config.useAiter → ∀ weight ∈ after.drop (after.length - config.numFusedSharedExperts), weight = 1
  scaled : ¬ config.useAiter → ∀ factor ∈ config.routedScalingFactor, factor ≠ 0 →
    ∀ weight ∈ after.drop (after.length - config.numFusedSharedExperts), weight = 1 / factor
  kept : ¬ config.useAiter → (∀ factor ∈ config.routedScalingFactor, factor = 0) → after = row

/-- The experts' output is multiplied by it when they have run: by the scaling factor, on
aiter by nothing. Paths that have the factor in the routed weights do not multiply either,
but are not told apart here. -/
def Multiplies [Field K] (config : SharedSlots K) (outputFactor : K) : Prop :=
  if config.useAiter then outputFactor = 1 else config.routedScalingFactor = some outputFactor ∧ outputFactor ≠ 0

def CountsOnce [Field K] (config : SharedSlots K) (outputFactor : K) (row : List K) : Prop :=
  ∀ weight ∈ row.drop (row.length - config.numFusedSharedExperts), weight * outputFactor = 1

section Weights

variable [Field K]

omit [Field K] in
theorem length_setShared (weight : K) (row : List K) : (config.setShared weight row).length = row.length := by
  rw [setShared, routedCols, List.length_append, List.length_take, List.length_replicate]
  omega

omit [Field K] in
theorem routedCols_setShared (weight : K) (row : List K) :
    config.routedCols (config.setShared weight row) = config.routedCols row := by
  have front : (config.routedCols row).length = row.length - config.numFusedSharedExperts := by
    rw [routedCols, List.length_take]
    omega
  rw [routedCols, length_setShared, setShared, ← front, List.take_left]

omit [Field K] in
theorem mem_shared {weight other : K} {row : List K}
    (member : other ∈ (config.setShared weight row).drop ((config.setShared weight row).length - config.numFusedSharedExperts)) :
    other = weight := by
  have front : (config.routedCols row).length = row.length - config.numFusedSharedExperts := by
    rw [routedCols, List.length_take]
    omega
  rw [length_setShared, setShared, ← front, List.drop_left] at member
  exact List.eq_of_mem_replicate member

theorem weighRow_weighed [DecidableEq K] (row : List K) : config.Weighed row (config.weighRow row) := by
  unfold weighRow
  split
  · rename_i aiter
    exact ⟨routedCols_setShared 1 row, length_setShared 1 row, fun _ _ => mem_shared, fun claimed => absurd aiter claimed,
      fun claimed => absurd aiter claimed⟩
  · rename_i plain
    cases given : config.routedScalingFactor with
    | none =>
        refine ⟨rfl, rfl, fun claimed => absurd claimed plain, fun _ factor found => ?_, fun _ _ => rfl⟩
        rw [given] at found
        cases found
    | some factor =>
        dsimp only
        split
        · rename_i some_
          refine ⟨routedCols_setShared _ row, length_setShared _ row, fun claimed => absurd claimed plain, ?_,
            fun _ zero => absurd (zero factor given) some_⟩
          rintro - other found - weight member
          obtain rfl : factor = other := by simpa [given] using found
          exact mem_shared member
        · rename_i zero
          refine ⟨rfl, rfl, fun claimed => absurd claimed plain, ?_, fun _ _ => rfl⟩
          rintro - other found nonzero
          obtain rfl : factor = other := by simpa [given] using found
          exact absurd nonzero zero

theorem Weighed.countsOnce {row after : List K} {outputFactor : K} (weighed : config.Weighed row after)
    (multiplies : config.Multiplies outputFactor) : config.CountsOnce outputFactor after := by
  intro weight member
  rw [Multiplies] at multiplies
  split at multiplies
  · rename_i aiter
    rw [weighed.fused aiter weight member, multiplies, mul_one]
  · rename_i plain
    obtain ⟨given, some_⟩ := multiplies
    rw [weighed.scaled plain outputFactor given some_ weight member, one_div, inv_mul_cancel₀ some_]

theorem weighRows_weighed [DecidableEq K] : List.Forall₂ config.Weighed topkWeights (topkWeights.map config.weighRow) := by
  simp only [List.forall₂_map_right_iff, List.forall₂_same]
  exact fun row _ => weighRow_weighed row

theorem weighRows_countsOnce [DecidableEq K] {outputFactor : K} (multiplies : config.Multiplies outputFactor) :
    ∀ row ∈ topkWeights.map config.weighRow, config.CountsOnce outputFactor row := by
  intro row member
  obtain ⟨before, -, rfl⟩ := List.mem_map.mp member
  exact (weighRow_weighed before).countsOnce multiplies

theorem remapTopk_ok [DecidableEq K] (shaped : config.Shaped topkIds) (same : topkWeights.length = topkIds.length) :
    config.remapTopk topkIds topkWeights = .ok (topkIds.map config.remapRow, topkWeights.map config.weighRow) := by
  rw [remapTopk]
  split
  · rename_i none_
    subst none_
    rw [List.length_nil, List.length_eq_zero_iff] at same
    rw [same]
    rfl
  · rfl

/-- Every token is sent to the experts it was routed to exactly if there is one
shared expert, or no token goes beyond the experts of the first rank. -/
theorem remapTopk_placed_iff [DecidableEq K] (shaped : config.Shaped topkIds) (same : topkWeights.length = topkIds.length) :
    ∃ ids weights, config.remapTopk topkIds topkWeights = .ok (ids, weights) ∧
      (List.Forall₂ config.Placed topkIds ids ↔ config.numFusedSharedExperts = 1 ∨
        ∀ row ∈ topkIds, ∀ id ∈ config.routedCols row, id < config.numLocalRouted) ∧
      (∀ (index : Nat) (id : Int), config.sharedIds[index]? = some id →
        config.Reaches id config.epRank (config.numLocalRouted + index)) ∧
      List.Forall₂ config.Weighed topkWeights weights ∧
      ∀ outputFactor, config.Multiplies outputFactor → ∀ row ∈ weights, config.CountsOnce outputFactor row := by
  have ran := remapTopk_ok shaped same
  obtain ⟨local_, shared, -⟩ := shaped
  refine ⟨_, _, ran, ?_, fun _ _ => sharedIds_reach, weighRows_weighed, fun _ => weighRows_countsOnce⟩
  simp only [List.forall₂_map_right_iff, List.forall₂_same, placed_iff local_ shared]
  by_cases one : config.numFusedSharedExperts = 1
  · simp only [one, true_or, implies_true]
  · simp only [one, false_or]

/-- The second of two ranks. -/
def secondRank : SharedSlots ℚ := ⟨2, 1, 1, 6, some (5 / 2), false⟩

theorem secondRank_multiplies : secondRank.Multiplies (5 / 2) := ⟨rfl, by norm_num⟩

/-- The last token is padding. -/
theorem remapTopk_placed_iff_secondRank : ∃ ids weights,
    secondRank.remapTopk [[4, 0, 6], [-1, -1, 6]] [[1, 1, 1], [0, 0, 1]] = .ok (ids, weights) ∧
      List.Forall₂ secondRank.Placed [[4, 0, 6], [-1, -1, 6]] ids ∧ ∀ row ∈ weights, secondRank.CountsOnce (5 / 2) row := by
  obtain ⟨ids, weights, ran, placed, -, -, once⟩ := @remapTopk_placed_iff ℚ secondRank [[4, 0, 6], [-1, -1, 6]]
    [[1, 1, 1], [0, 0, 1]] _ _ (by decide) rfl
  exact ⟨ids, weights, ran, placed.mpr (Or.inl rfl), once _ secondRank_multiplies⟩

/-- Of two shared experts, the second on the first rank has the id of the first
expert on the next. -/
example : (⟨2, 0, 2, 6, none, false⟩ : SharedSlots ℚ).remapRow [3, 6, 7] = [4, 3, 4] := by decide

end Weights

end SharedSlots

end FlashNext.Routing
