import FlashNext.Data.Ranking
import Mathlib.Algebra.BigOperators.Group.List.Basic
import Mathlib.Algebra.Field.Rat
import Mathlib.Algebra.Order.Field.Basic
import Mathlib.Algebra.Order.Ring.Rat
import Mathlib.Data.Finset.Card
import Mathlib.Order.WithBot

namespace FlashNext.Routing

open FlashNext.Data

/-! `grouped_topk_gpu`, `biased_grouped_topk_impl` and, for one group,
`kimi_k2_biased_topk_impl`: the experts come in groups, a token is routed inside
its best groups, and a fused shared expert takes the place of the last choice.
Scores are exact numbers. -/

/-- `torch` is an error of torch's own. -/
inductive RoutingError where
  | scoringFunc (name : String)
  | torch
deriving DecidableEq, Repr

def RoutingError.message : RoutingError → Option String
  | .scoringFunc name => some s!"Unsupported scoring function: {name}"
  | .torch => none

/-- `torch.topk(values, k, sorted).indices`, `torch.randint` for a row, and
`_RENORMALIZE_SUM_EPSILON`. -/
structure Operators (K : Type*) where
  topk : Bool → List (WithBot K) → Nat → List Nat
  randint : Nat → Nat → Nat → Nat
  epsilon : K

structure GroupedTopk (K : Type*) where
  topk : Nat
  renormalize : Bool
  numExpertGroup : Nat
  topkGroup : Nat
  numFusedSharedExperts : Nat
  routedScalingFactor : Option K
  applyRoutedScalingFactorOnOutput : Bool

namespace GroupedTopk

variable {K : Type*}

/-- The experts that are not replaced by a shared one. -/
def routedCount (config : GroupedTopk K) : Nat := if config.numFusedSharedExperts = 0 then config.topk else config.topk - 1

def groupSize (config : GroupedTopk K) (numExperts : Nat) : Nat := numExperts / config.numExpertGroup

/-- What torch checks; `groupTopk` entries of each group are looked at. -/
def Shaped (config : GroupedTopk K) (tokens numExperts groupTopk : Nat) : Prop :=
  0 < tokens ∧ 0 < config.numExpertGroup ∧ numExperts % config.numExpertGroup = 0 ∧
    groupTopk ≤ config.groupSize numExperts ∧ config.topkGroup ≤ config.numExpertGroup ∧ config.topk ≤ numExperts ∧
    (config.numFusedSharedExperts ≠ 0 → 0 < config.topk) ∧
    (config.renormalize → config.applyRoutedScalingFactorOnOutput → config.routedScalingFactor.isSome)

instance (config : GroupedTopk K) (tokens numExperts groupTopk : Nat) : Decidable (config.Shaped tokens numExperts groupTopk) :=
  inferInstanceAs (Decidable (_ ∧ _))

section Code

variable [Field K] [LinearOrder K] (ops : Operators K) (config : GroupedTopk K)

def groupRow (values : List K) (group : Nat) : List K :=
  (values.drop (group * config.groupSize values.length)).take (config.groupSize values.length)

/-- `masked_fill(~score_mask, fill)`. -/
def maskScores (fill : WithBot K) (groups : List Nat) (values : List K) : List (WithBot K) :=
  values.mapIdx fun expert (value : K) => if expert / config.groupSize values.length ∈ groups then (value : WithBot K) else fill

def bestGroups (groupScores : List K) : List Nat := ops.topk false (groupScores.map (↑)) config.topkGroup

def selectIds (fill : WithBot K) (groups : List Nat) (values : List K) : List Nat :=
  ops.topk (decide (config.numFusedSharedExperts ≠ 0)) (config.maskScores fill groups values) config.topk

/-- A shared expert in the last place, drawn at random. -/
def shareLast (row numExperts : Nat) (ids : List Nat) (weights : List K) : List Nat × List K :=
  if config.numFusedSharedExperts = 0 then (ids, weights)
  else (ids.dropLast ++ [ops.randint row numExperts (numExperts + config.numFusedSharedExperts)],
    match config.routedScalingFactor with
    | none => weights
    | some factor => weights.dropLast ++ [weights.dropLast.sum / factor])

def renormalized (weights : List K) : List K :=
  if config.renormalize then
    let total := (if config.numFusedSharedExperts = 0 then weights else weights.dropLast).sum + ops.epsilon
    let divided := weights.map (· / total)
    if config.applyRoutedScalingFactorOnOutput then
      match config.routedScalingFactor with
      | none => divided
      | some factor => divided.map (· * factor)
    else divided
  else weights

def finish (row numExperts : Nat) (ids : List Nat) (weights : List K) : List K × List Nat :=
  let (ids, weights) := config.shareLast ops row numExperts ids weights
  (config.renormalized ops weights, ids)

/-- `topk(2, dim=-1)[0].sum(dim=-1)`. -/
def topTwo (values : List K) : K := ((ops.topk true (values.map (↑)) 2).map (values.getD · 0)).sum

def biasedGroupScores (choice : List K) : List K :=
  (List.range config.numExpertGroup).map fun group => topTwo ops (config.groupRow choice group)

/-- `biased_grouped_topk_impl` for a token. -/
def biasedGroupedRow (sigmoid : K → K) (correctionBias : List K) (row : Nat) (gating : List K) : List K × List Nat :=
  let scores := gating.map sigmoid
  let scoresForChoice := List.zipWith (· + ·) scores correctionBias
  let groupIdx := config.bestGroups ops (config.biasedGroupScores ops scoresForChoice)
  let topkIds := config.selectIds ops ⊥ groupIdx scoresForChoice
  config.finish ops row gating.length topkIds (topkIds.map (scores.getD · 0))

def biasedGroupedTopk (sigmoid : K → K) (correctionBias : List K) (numExperts : Nat) (gatingOutput : List (List K)) :
    Except RoutingError (List (List K × List Nat)) :=
  if config.Shaped gatingOutput.length numExperts 2 ∧ correctionBias.length = numExperts then
    .ok (gatingOutput.mapIdx (config.biasedGroupedRow ops sigmoid correctionBias))
  else .error .torch

def groupedScores (scores : List K) : List K :=
  (List.range config.numExpertGroup).map fun group => (config.groupRow scores group).max?.getD 0

/-- `grouped_topk_gpu` for a token: the weights are those of the masked scores. -/
def groupedRow (score : List K → List K) (row : Nat) (gating : List K) : List K × List Nat :=
  let scores := score gating
  let groupIdx := config.bestGroups ops (config.groupedScores scores)
  let topkIds := config.selectIds ops (0 : K) groupIdx scores
  config.finish ops row gating.length topkIds
    (topkIds.map ((config.maskScores (0 : K) groupIdx scores).map (·.unbotD 0) |>.getD · 0))

/-- The scoring functions by their names. -/
def groupedTopk (softmax : List K → List K) (sigmoid : K → K) (scoringFunc : String) (numExperts : Nat)
    (gatingOutput : List (List K)) : Except RoutingError (List (List K × List Nat)) := do
  let score ←
    if scoringFunc = "softmax" then pure softmax
    else if scoringFunc = "sigmoid" then pure (List.map sigmoid)
    else throw (.scoringFunc scoringFunc)
  if config.Shaped gatingOutput.length numExperts 1 then return gatingOutput.mapIdx (config.groupedRow ops score)
  else throw .torch

/-- `kimi_k2_biased_topk_impl` for a token, without shared experts. -/
def kimiK2Row (sigmoid : K → K) (correctionBias : List K) (gating : List K) : List K × List Nat :=
  let scores := gating.map sigmoid
  let tmpScores := List.zipWith (· + ·) scores correctionBias
  let topkIds := ops.topk false (tmpScores.map (↑)) config.topk
  ({ config with numFusedSharedExperts := 0 }.renormalized ops (topkIds.map (scores.getD · 0)), topkIds)

def kimiK2Topk (sigmoid : K → K) (correctionBias : List K) (numExperts : Nat) (gatingOutput : List (List K)) :
    Except RoutingError (List (List K × List Nat)) :=
  if 0 < gatingOutput.length ∧ config.topk ≤ numExperts ∧ correctionBias.length = numExperts ∧
      (config.renormalize → config.applyRoutedScalingFactorOnOutput → config.routedScalingFactor.isSome) then
    .ok (gatingOutput.map (config.kimiK2Row ops sigmoid correctionBias))
  else .error .torch

end Code

end GroupedTopk

variable {K : Type*} [Field K] [LinearOrder K] {ops : Operators K} {config : GroupedTopk K}

/-- What the operators promise. -/
structure Operators.Lawful (ops : Operators K) : Prop where
  topk : ∀ sorted (values : List (WithBot K)) count, count ≤ values.length →
    Largest (fun index => values.getD index ⊥) count (List.range values.length) (ops.topk sorted values count)
  sorted : ∀ (values : List (WithBot K)) count, count ≤ values.length →
    (ops.topk true values count).Pairwise fun left right => values.getD right ⊥ ≤ values.getD left ⊥
  randint : ∀ row low high, low < high → low ≤ ops.randint row low high ∧ ops.randint row low high < high

namespace GroupedTopk

/-- The experts of the groups. -/
def expertsOf (config : GroupedTopk K) (numExperts : Nat) (groups : List Nat) : List Nat :=
  (List.range numExperts).filter fun expert => expert / config.groupSize numExperts ∈ groups

omit [Field K] [LinearOrder K] in
theorem Shaped.whole {numExperts groupTopk tokens : Nat} (shaped : config.Shaped tokens numExperts groupTopk) :
    config.numExpertGroup * config.groupSize numExperts = numExperts := by
  obtain ⟨-, -, divides, -⟩ := shaped
  rw [Nat.mul_comm]
  exact Nat.div_mul_cancel (Nat.dvd_of_mod_eq_zero divides)

theorem length_expertsOf {size count : Nat} {groups : List Nat} (positive : 0 < size) (distinct : groups.Nodup)
    (inside : ∀ group ∈ groups, group < count) :
    ((List.range (count * size)).filter fun expert => decide (expert / size ∈ groups)).length = groups.length * size := by
  have members : ((List.range (count * size)).filter fun expert => decide (expert / size ∈ groups)).Perm
      (groups.flatMap fun group => (List.range size).map (group * size + ·)) := by
    refine (List.perm_ext_iff_of_nodup (List.nodup_range.filter _) ?_).mpr fun expert => ?_
    · rw [List.nodup_flatMap]
      refine ⟨fun group _ => List.nodup_range.map fun _ _ same => Nat.add_left_cancel same, ?_⟩
      refine distinct.imp fun {first second} apart => ?_
      change List.Disjoint _ _
      rw [List.disjoint_left]
      rintro expert inFirst inSecond
      obtain ⟨offset, below, rfl⟩ := List.mem_map.mp inFirst
      obtain ⟨other, below', same⟩ := List.mem_map.mp inSecond
      have one := congrArg (· / size) same
      simp only [Nat.mul_comm _ size, Nat.mul_add_div positive, Nat.div_eq_of_lt (List.mem_range.mp below),
        Nat.div_eq_of_lt (List.mem_range.mp below'), Nat.add_zero] at one
      exact apart one.symm
    · simp only [List.mem_filter, List.mem_range, decide_eq_true_eq, List.mem_flatMap, List.mem_map]
      constructor
      · intro of_group
        refine ⟨expert / size, of_group.2, expert % size, Nat.mod_lt _ positive, ?_⟩
        rw [Nat.mul_comm]
        exact Nat.div_add_mod expert size
      · rintro ⟨group, listed, offset, below, rfl⟩
        have place : (group * size + offset) / size = group := by
          rw [Nat.mul_comm, Nat.mul_add_div positive, Nat.div_eq_of_lt below, Nat.add_zero]
        refine ⟨?_, place.symm ▸ listed⟩
        have bound := Nat.mul_le_mul_right size (Nat.succ_le_of_lt (inside group listed))
        rw [Nat.succ_mul] at bound
        omega
  rw [members.length_eq, List.length_flatMap]
  simp

section Select

variable {fill : WithBot K} {groups : List Nat} {values groupScores : List K} {numExperts groupTopk tokens : Nat}

/-- Of values that are all numbers. -/
theorem topk_largest (law : ops.Lawful) (sorted : Bool) {count : Nat} (enough : count ≤ values.length) :
    Largest (values.getD · 0) count (List.range values.length) (ops.topk sorted (values.map (↑)) count) := by
  have largest := law.topk sorted (values.map (↑)) count (by rwa [List.length_map])
  rw [List.length_map] at largest
  have entry (index : Nat) (inside : index < values.length) :
      (values.map ((↑) : K → WithBot K)).getD index ⊥ = (values.getD index 0 : K) := by
    simp [List.getD_eq_getElem?_getD, List.getElem?_eq_getElem inside]
  refine largest.of_le fun left inLeft right inRight le => ?_
  rwa [entry left (List.mem_range.mp inLeft), entry right (List.mem_range.mp inRight), WithBot.coe_le_coe] at le

theorem bestGroups_largest (law : ops.Lawful) (size : groupScores.length = config.numExpertGroup)
    (enough : config.topkGroup ≤ config.numExpertGroup) :
    Largest (groupScores.getD · 0) config.topkGroup (List.range config.numExpertGroup) (config.bestGroups ops groupScores) := by
  have largest := topk_largest law false (size.symm ▸ enough)
  rwa [size] at largest

omit [LinearOrder K] in
theorem getD_maskScores {expert : Nat} (inside : expert < values.length) : (config.maskScores fill groups values).getD expert ⊥ =
    if expert / config.groupSize values.length ∈ groups then (values.getD expert 0 : WithBot K) else fill := by
  simp [maskScores, List.getD_eq_getElem?_getD, List.getElem?_eq_getElem inside]

theorem selectIds_largest (law : ops.Lawful) (lower : ∀ value ∈ values, fill < (value : WithBot K))
    (shaped : config.Shaped tokens values.length groupTopk) (some_ : 0 < groupTopk)
    (best : Largest (groupScores.getD · 0) config.topkGroup (List.range config.numExpertGroup) groups)
    (room : config.topk ≤ config.topkGroup * config.groupSize values.length) :
    Largest (values.getD · 0) config.routedCount (config.expertsOf values.length groups)
        (if config.numFusedSharedExperts = 0 then config.selectIds ops fill groups values
          else (config.selectIds ops fill groups values).dropLast) ∧
      (config.selectIds ops fill groups values).length = config.topk ∧
      ∀ expert ∈ config.selectIds ops fill groups values, expert ∈ config.expertsOf values.length groups := by
  have whole := shaped.whole
  obtain ⟨-, positive, -, group, -, enough, -, -⟩ := shaped
  have size : (config.maskScores fill groups values).length = values.length := by simp [maskScores]
  have masked := law.topk (decide (config.numFusedSharedExperts ≠ 0)) (config.maskScores fill groups values) config.topk
    (size.symm ▸ enough)
  rw [size] at masked
  have count : (config.expertsOf values.length groups).length = config.topkGroup * config.groupSize values.length := by
    have experts := @length_expertsOf (config.groupSize values.length) config.numExpertGroup groups (by omega) best.distinct
      fun group listed => List.mem_range.mp (best.listed group listed)
    rw [whole, best.size] at experts
    exact experts
  have inside := masked.within List.nodup_range (count.symm ▸ room) fun low listed outside high listed' kind => by
    rw [getD_maskScores (List.mem_range.mp listed), getD_maskScores (List.mem_range.mp listed'),
      if_neg (by simpa using outside), if_pos (by simpa using kind)]
    refine lower _ ?_
    rw [List.getD_eq_getElem?_getD, List.getElem?_eq_getElem (List.mem_range.mp listed'), Option.getD_some]
    exact List.getElem_mem _
  have unmasked {count : Nat} {chosen : List Nat} (largest : Largest
      (fun index => (config.maskScores fill groups values).getD index ⊥) count (config.expertsOf values.length groups) chosen) :
      Largest (values.getD · 0) count (config.expertsOf values.length groups) chosen := by
    refine largest.of_le fun left listed right listed' le => ?_
    obtain ⟨present, kind⟩ := List.mem_filter.mp listed
    obtain ⟨present', kind'⟩ := List.mem_filter.mp listed'
    rwa [getD_maskScores (List.mem_range.mp present), getD_maskScores (List.mem_range.mp present'),
      if_pos (by simpa using kind), if_pos (by simpa using kind'), WithBot.coe_le_coe] at le
  refine ⟨?_, masked.size, inside.listed⟩
  unfold routedCount
  split
  · exact unmasked inside
  · rename_i shared
    have descending := law.sorted (config.maskScores fill groups values) config.topk (size.symm ▸ enough)
    refine unmasked (inside.dropLast ?_)
    simpa [selectIds, shared] using descending

end Select

/-- What all weights of a token are multiplied by, for the sum of the routed ones. -/
def commonFactor (ops : Operators K) (config : GroupedTopk K) (total : K) : K :=
  if config.renormalize then
    (if config.applyRoutedScalingFactorOnOutput then config.routedScalingFactor.getD 1 else 1) / (total + ops.epsilon)
  else 1

/-- A token's experts and weights. -/
structure Routes (ops : Operators K) (config : GroupedTopk K) (numExperts : Nat) (groupScores choice scores : List K)
    (output : List K × List Nat) (groups routed : List Nat) : Prop where
  best : Largest (groupScores.getD · 0) config.topkGroup (List.range config.numExpertGroup) groups
  chosen : Largest (choice.getD · 0) config.routedCount (config.expertsOf numExperts groups) routed
  alone : config.numFusedSharedExperts = 0 → output.2 = routed ∧ output.1 =
    routed.map fun expert => scores.getD expert 0 * commonFactor ops config (routed.map (scores.getD · 0)).sum
  shared : config.numFusedSharedExperts ≠ 0 → ∃ id weight, numExperts ≤ id ∧ id < numExperts + config.numFusedSharedExperts ∧
    output.2 = routed ++ [id] ∧
    output.1 = (routed.map fun expert =>
      scores.getD expert 0 * commonFactor ops config (routed.map (scores.getD · 0)).sum) ++ [weight] ∧
    ∀ factor ∈ config.routedScalingFactor, weight =
      (routed.map (scores.getD · 0)).sum / factor * commonFactor ops config (routed.map (scores.getD · 0)).sum

omit [LinearOrder K] in
theorem renormalized_eq {weights routed : List K} (scaled : config.applyRoutedScalingFactorOnOutput →
      config.renormalize → config.routedScalingFactor.isSome)
    (kept : (if config.numFusedSharedExperts = 0 then weights else weights.dropLast) = routed) :
    config.renormalized ops weights = weights.map (· * commonFactor ops config routed.sum) := by
  unfold renormalized commonFactor
  rw [kept]
  split
  · rename_i renormalizes
    dsimp only
    split
    · rename_i applies
      obtain ⟨factor, found⟩ := Option.isSome_iff_exists.mp (scaled applies renormalizes)
      rw [found, Option.getD_some]
      dsimp only
      rw [List.map_map]
      refine List.map_congr_left fun weight _ => ?_
      rw [Function.comp_apply, div_mul_eq_mul_div, mul_div_assoc]
    · refine List.map_congr_left fun weight _ => ?_
      rw [one_div, div_eq_mul_inv]
  · simp

theorem finish_routes {ids routed groups : List Nat} {groupScores choice scores : List K} {row numExperts tokens groupTopk : Nat}
    (law : ops.Lawful) (shaped : config.Shaped tokens numExperts groupTopk)
    (best : Largest (groupScores.getD · 0) config.topkGroup (List.range config.numExpertGroup) groups)
    (largest : Largest (choice.getD · 0) config.routedCount (config.expertsOf numExperts groups) routed)
    (kept : (if config.numFusedSharedExperts = 0 then ids else ids.dropLast) = routed) (count : ids.length = config.topk) :
    Routes ops config numExperts groupScores choice scores (config.finish ops row numExperts ids (ids.map (scores.getD · 0)))
      groups routed := by
  obtain ⟨-, -, -, -, -, -, some_, scaled⟩ := shaped
  have factors : config.applyRoutedScalingFactorOnOutput → config.renormalize → config.routedScalingFactor.isSome :=
    fun applies renormalizes => scaled renormalizes applies
  by_cases shared : config.numFusedSharedExperts = 0
  · rw [if_pos shared] at kept
    subst kept
    have weights := @renormalized_eq _ _ ops config (ids.map (scores.getD · 0)) (ids.map (scores.getD · 0)) factors
      (by rw [if_pos shared])
    refine ⟨best, largest, fun _ => ?_, fun claimed => absurd shared claimed⟩
    simp only [finish, shareLast, shared, if_true]
    exact ⟨trivial, by rw [weights, List.map_map]; rfl⟩
  · rw [if_neg shared] at kept
    have nonempty : ids ≠ [] := by
      rintro rfl
      have positive := some_ shared
      rw [List.length_nil] at count
      omega
    have front : (ids.map (scores.getD · 0)).dropLast = routed.map (scores.getD · 0) := by rw [← kept, List.map_dropLast]
    have bounds := law.randint row numExperts (numExperts + config.numFusedSharedExperts) (by omega)
    refine ⟨best, largest, fun claimed => absurd claimed shared, fun _ => ?_⟩
    simp only [finish, shareLast, shared, if_false, kept]
    cases factor : config.routedScalingFactor with
    | none =>
        have weights := @renormalized_eq _ _ ops config (ids.map (scores.getD · 0)) (routed.map (scores.getD · 0)) factors
          (by rw [if_neg shared, front])
        refine ⟨_, scores.getD (ids.getLast nonempty) 0 * commonFactor ops config (routed.map (scores.getD · 0)).sum, bounds.1,
          bounds.2, rfl, ?_, by simp⟩
        dsimp only
        have last : ids.map (scores.getD · 0) = routed.map (scores.getD · 0) ++ [scores.getD (ids.getLast nonempty) 0] := by
          rw [← kept, ← @List.map_singleton _ _ (scores.getD · 0), ← List.map_append, List.dropLast_append_getLast]
        rw [weights, last, List.map_append, List.map_map]
        rfl
    | some scale =>
        dsimp only
        have weights := @renormalized_eq _ _ ops config
          (routed.map (scores.getD · 0) ++ [(routed.map (scores.getD · 0)).sum / scale])
          (routed.map (scores.getD · 0)) factors (by rw [if_neg shared, List.dropLast_concat])
        refine ⟨_, (routed.map (scores.getD · 0)).sum / scale * commonFactor ops config (routed.map (scores.getD · 0)).sum,
          bounds.1, bounds.2, rfl, ?_, ?_⟩
        · rw [front, weights, List.map_append, List.map_map]
          rfl
        · intro other same
          cases same
          rfl

def sortingOperators (epsilon : K) : Operators K where
  topk _ values count := (rankDown (values.getD · ⊥) (List.range values.length)).take count
  randint _ low _ := low
  epsilon := epsilon

omit [Field K] in
theorem sortingOperators_lawful (epsilon : K) : (sortingOperators epsilon).Lawful where
  topk _ _ _ enough := by
    refine Largest.take (rankDown_pairwise _ _) (rankDown_nodup List.nodup_range) (fun _ => mem_rankDown) ?_
    rwa [rankDown, List.length_insertionSort, List.length_range]
  sorted _ _ _ := (rankDown_pairwise _ _).sublist (List.take_sublist _ _)
  randint _ low _ some_ := ⟨le_refl low, some_⟩

/-- Two groups of three experts and a shared one. -/
def sixExperts : GroupedTopk ℚ := ⟨3, true, 2, 1, 1, some (5 / 2), true⟩

omit [Field K] [LinearOrder K] in
theorem length_groupRow {values : List K} {tokens groupTopk group : Nat} (shaped : config.Shaped tokens values.length groupTopk)
    (inside : group < config.numExpertGroup) : (config.groupRow values group).length = config.groupSize values.length := by
  have whole := shaped.whole
  have bound := Nat.mul_le_mul_right (config.groupSize values.length) (Nat.succ_le_of_lt inside)
  rw [Nat.succ_mul] at bound
  rw [groupRow, List.length_take, List.length_drop]
  omega

/-- The sum of two entries that no other exceeds. -/
theorem topTwo_eq (law : ops.Lawful) {values : List K} (enough : 2 ≤ values.length) :
    ∃ pair, Largest (values.getD · 0) 2 (List.range values.length) pair ∧
      topTwo ops values = (pair.map (values.getD · 0)).sum :=
  ⟨_, topk_largest law true enough, rfl⟩

section Rows

variable {numExperts : Nat} {gatingOutput : List (List K)} {correctionBias : List K}

/-- The scores that a token's experts are chosen by. -/
def choiceScores (sigmoid : K → K) (correctionBias gating : List K) : List K :=
  List.zipWith (· + ·) (gating.map sigmoid) correctionBias

theorem biasedGroupedRow_routes (law : ops.Lawful) (sigmoid : K → K) {tokens : Nat} (shaped : config.Shaped tokens numExperts 2)
    (biased : correctionBias.length = numExperts) (room : config.topk ≤ config.topkGroup * config.groupSize numExperts)
    (row : Nat) {gating : List K} (width : gating.length = numExperts) :
    ∃ groups routed, Routes ops config numExperts (config.biasedGroupScores ops (choiceScores sigmoid correctionBias gating))
      (choiceScores sigmoid correctionBias gating) (gating.map sigmoid)
      (config.biasedGroupedRow ops sigmoid correctionBias row gating) groups routed := by
  subst width
  have size : (choiceScores sigmoid correctionBias gating).length = gating.length := by simp [choiceScores, biased]
  have sized : (config.biasedGroupScores ops (choiceScores sigmoid correctionBias gating)).length = config.numExpertGroup := by
    simp [biasedGroupScores]
  have best := bestGroups_largest law sized shaped.2.2.2.2.1
  obtain ⟨largest, count, -⟩ := selectIds_largest law (fun value _ => WithBot.bot_lt_coe value) (size.symm ▸ shaped)
    (by decide) best (size.symm ▸ room)
  rw [size] at largest
  have routes := @finish_routes _ _ _ ops config _ _ _ _ _ (gating.map sigmoid) row _ _ _ law shaped best largest rfl count
  exact ⟨_, _, routes⟩

/-- Every token goes to the best experts of its best groups, each weighed by its
score without the bias. -/
theorem biasedGroupedTopk_routes (law : ops.Lawful) (sigmoid : K → K) (shaped : config.Shaped gatingOutput.length numExperts 2)
    (biased : correctionBias.length = numExperts) (width : ∀ gating ∈ gatingOutput, gating.length = numExperts)
    (room : config.topk ≤ config.topkGroup * config.groupSize numExperts) :
    ∃ output, config.biasedGroupedTopk ops sigmoid correctionBias numExperts gatingOutput = .ok output ∧
      output.length = gatingOutput.length ∧ ∀ (row : Nat) (gating : List K), gatingOutput[row]? = some gating →
        ∃ routing groups routed groupScores, output[row]? = some routing ∧
          Routes ops config numExperts groupScores (choiceScores sigmoid correctionBias gating) (gating.map sigmoid) routing
            groups routed ∧
          ∀ group < config.numExpertGroup, ∃ pair,
            Largest ((config.groupRow (choiceScores sigmoid correctionBias gating) group).getD · 0) 2
              (List.range (config.groupSize numExperts)) pair ∧
            groupScores.getD group 0 =
              (pair.map ((config.groupRow (choiceScores sigmoid correctionBias gating) group).getD · 0)).sum := by
  refine ⟨_, if_pos ⟨shaped, biased⟩, List.length_mapIdx, fun row gating found => ?_⟩
  have counted := width gating (List.mem_of_getElem? found)
  have size : (choiceScores sigmoid correctionBias gating).length = numExperts := by simp [choiceScores, counted, biased]
  obtain ⟨groups, routed, routes⟩ := biasedGroupedRow_routes law sigmoid shaped biased room row counted
  refine ⟨_, groups, routed, _, by rw [List.getElem?_mapIdx, found]; rfl, routes, fun group inside => ?_⟩
  have length := length_groupRow (size.symm ▸ shaped) inside
  rw [size] at length
  obtain ⟨pair, largest, sum⟩ := topTwo_eq law (length.symm ▸ shaped.2.2.2.1)
  refine ⟨pair, length ▸ largest, ?_⟩
  rw [biasedGroupScores, List.getD_eq_getElem?_getD, List.getElem?_map, List.getElem?_range inside]
  exact sum

/-- Where all scores are equal, the bias alone chooses. -/
theorem biasedGroupedTopk_routes_sixExperts : ∃ output, sixExperts.biasedGroupedTopk (sortingOperators (1 / 10 ^ 20))
      (fun _ => 1 / 2) [1, 4, 2, 3, 1, 1] 6 [[0, 0, 0, 0, 0, 0]] = .ok output ∧
    ∃ routing routed, output[0]? = some routing ∧ routed.Nodup ∧ routed.length = 2 ∧ routing.2 = routed ++ [6] := by
  obtain ⟨output, ran, -, routes⟩ := @biasedGroupedTopk_routes ℚ _ _ (sortingOperators (1 / 10 ^ 20)) sixExperts 6
    [[0, 0, 0, 0, 0, 0]] [1, 4, 2, 3, 1, 1] (sortingOperators_lawful _) (fun _ => 1 / 2) (by decide) rfl (by simp) (by decide)
  obtain ⟨routing, _, routed, _, found, route, -⟩ := routes 0 _ rfl
  obtain ⟨id, _, low, high, ids, -⟩ := route.shared (by decide)
  obtain rfl : id = 6 := Nat.le_antisymm (Nat.le_of_lt_succ high) low
  exact ⟨output, ran, routing, routed, found, route.chosen.distinct, route.chosen.size, ids⟩

/-- A score of zero, as softmax and sigmoid round small ones, would tie with what is
masked. -/
theorem groupedRow_routes (law : ops.Lawful) {score : List K → List K} {tokens : Nat}
    (shaped : config.Shaped tokens numExperts 1) (room : config.topk ≤ config.topkGroup * config.groupSize numExperts)
    (row : Nat) {gating : List K} (width : gating.length = numExperts) (size : (score gating).length = gating.length)
    (positive : ∀ value ∈ score gating, 0 < value) :
    ∃ groups routed, Routes ops config numExperts (config.groupedScores (score gating)) (score gating) (score gating)
      (config.groupedRow ops score row gating) groups routed := by
  subst width
  have sized : (config.groupedScores (score gating)).length = config.numExpertGroup := by simp [groupedScores]
  have best := bestGroups_largest law sized shaped.2.2.2.2.1
  obtain ⟨largest, count, inside⟩ := selectIds_largest law (fun value member => WithBot.coe_lt_coe.mpr (positive value member))
    (size.symm ▸ shaped) Nat.one_pos best (size.symm ▸ room)
  rw [size] at largest
  have routes := @finish_routes _ _ _ ops config _ _ _ _ _ (score gating) row _ _ _ law shaped best largest rfl count
  -- of the chosen experts no score is masked
  have unmasked : (config.selectIds ops (0 : K) (config.bestGroups ops (config.groupedScores (score gating))) (score gating)).map
      (((config.maskScores (0 : K) (config.bestGroups ops (config.groupedScores (score gating))) (score gating)).map
        (·.unbotD 0)).getD · 0) =
      (config.selectIds ops (0 : K) (config.bestGroups ops (config.groupedScores (score gating))) (score gating)).map
        ((score gating).getD · 0) := by
    refine List.map_congr_left fun expert chosen => ?_
    obtain ⟨listed, kind⟩ := List.mem_filter.mp (inside expert chosen)
    have present := List.mem_range.mp listed
    simp only [decide_eq_true_eq] at kind
    simp [maskScores, List.getD_eq_getElem?_getD, List.getElem?_eq_getElem present, kind]
  rw [← unmasked] at routes
  exact ⟨_, _, routes⟩

/-- The same by the scores themselves, and a group is as good as its best expert. -/
theorem groupedTopk_routes (law : ops.Lawful) {softmax score : List K → List K} {sigmoid : K → K} {scoringFunc : String}
    (named : scoringFunc = "softmax" ∧ score = softmax ∨ scoringFunc = "sigmoid" ∧ score = List.map sigmoid)
    (sized : ∀ gating, (score gating).length = gating.length) (shaped : config.Shaped gatingOutput.length numExperts 1)
    (width : ∀ gating ∈ gatingOutput, gating.length = numExperts)
    (positive : ∀ gating ∈ gatingOutput, ∀ value ∈ score gating, 0 < value)
    (room : config.topk ≤ config.topkGroup * config.groupSize numExperts) :
    ∃ output, config.groupedTopk ops softmax sigmoid scoringFunc numExperts gatingOutput = .ok output ∧
      output.length = gatingOutput.length ∧ ∀ (row : Nat) (gating : List K), gatingOutput[row]? = some gating →
        ∃ routing groups routed groupScores, output[row]? = some routing ∧
          Routes ops config numExperts groupScores (score gating) (score gating) routing groups routed ∧
          ∀ group < config.numExpertGroup, groupScores.getD group 0 ∈ config.groupRow (score gating) group ∧
            ∀ value ∈ config.groupRow (score gating) group, value ≤ groupScores.getD group 0 := by
  have ran : config.groupedTopk ops softmax sigmoid scoringFunc numExperts gatingOutput =
      .ok (gatingOutput.mapIdx (config.groupedRow ops score)) := by
    obtain ⟨rfl, rfl⟩ | ⟨rfl, rfl⟩ := named
    · simp [groupedTopk, shaped, bind, Except.bind, pure, Except.pure]
    · simp [groupedTopk, shaped, bind, Except.bind, pure, Except.pure]
  refine ⟨_, ran, List.length_mapIdx, fun row gating found => ?_⟩
  have counted := width gating (List.mem_of_getElem? found)
  have size : (score gating).length = numExperts := (sized gating).trans counted
  obtain ⟨groups, routed, routes⟩ := groupedRow_routes law shaped room row counted (sized gating)
    (positive gating (List.mem_of_getElem? found))
  refine ⟨_, groups, routed, _, by rw [List.getElem?_mapIdx, found]; rfl, routes, fun group inside => ?_⟩
  have length := length_groupRow (size.symm ▸ shaped) inside
  rw [size] at length
  have enough : 1 ≤ config.groupSize numExperts := shaped.2.2.2.1
  cases best : (config.groupRow (score gating) group).max? with
  | none =>
      rw [List.max?_eq_none_iff] at best
      rw [best, List.length_nil] at length
      omega
  | some value =>
      rw [groupedScores, List.getD_eq_getElem?_getD, List.getElem?_map, List.getElem?_range inside, Option.map_some,
        Option.getD_some, best, Option.getD_some]
      exact List.max?_eq_some_iff.mp best

/-- The softmax of a row of equal values. -/
theorem groupedTopk_routes_sixExperts : ∃ output, sixExperts.groupedTopk (sortingOperators (1 / 10 ^ 20))
      (fun gating => gating.map fun _ => (1 / 6 : ℚ)) (fun _ => 1 / 2) "softmax" 6 [[0, 0, 0, 0, 0, 0]] = .ok output ∧
    ∃ routing routed, output[0]? = some routing ∧ routed.Nodup ∧ routed.length = 2 ∧ routing.2 = routed ++ [6] := by
  have positive (gating : List ℚ) (_ : gating ∈ ([[0, 0, 0, 0, 0, 0]] : List (List ℚ))) :
      ∀ value ∈ gating.map fun _ => (1 / 6 : ℚ), 0 < value := by
    intro value member
    obtain ⟨-, -, rfl⟩ := List.mem_map.mp member
    norm_num
  obtain ⟨output, ran, -, routes⟩ := @groupedTopk_routes ℚ _ _ (sortingOperators (1 / 10 ^ 20)) sixExperts 6
    [[0, 0, 0, 0, 0, 0]] (sortingOperators_lawful _) (fun gating => gating.map fun _ => (1 / 6 : ℚ)) _ (fun _ => 1 / 2) "softmax"
    (Or.inl ⟨rfl, rfl⟩) (fun _ => List.length_map _) (by decide) (by simp) positive (by decide)
  obtain ⟨routing, _, routed, _, found, route, -⟩ := routes 0 _ rfl
  obtain ⟨id, _, low, high, ids, -⟩ := route.shared (by decide)
  obtain rfl : id = 6 := Nat.le_antisymm (Nat.le_of_lt_succ high) low
  exact ⟨output, ran, routing, routed, found, route.chosen.distinct, route.chosen.size, ids⟩

/-- Of one group, nothing is masked: the short path for it is the grouped one. -/
theorem kimiK2Row_eq (law : ops.Lawful) (sigmoid : K → K) (one : config.numExpertGroup = 1) (all : config.topkGroup = 1)
    (alone : config.numFusedSharedExperts = 0) (row : Nat) (gating : List K) :
    config.kimiK2Row ops sigmoid correctionBias gating = config.biasedGroupedRow ops sigmoid correctionBias row gating := by
  have sized : (config.biasedGroupScores ops (choiceScores sigmoid correctionBias gating)).length = config.numExpertGroup := by
    simp [biasedGroupScores]
  have best := bestGroups_largest law sized (by omega)
  rw [one, all] at best
  have group : config.bestGroups ops (config.biasedGroupScores ops (choiceScores sigmoid correctionBias gating)) = [0] := by
    obtain ⟨first, same⟩ := List.length_eq_one_iff.mp best.size
    have inside := best.listed first (same ▸ List.mem_singleton_self first)
    rw [same, Nat.lt_one_iff.mp (List.mem_range.mp inside)]
  have unmasked : config.maskScores ⊥ [0] (choiceScores sigmoid correctionBias gating) =
      (choiceScores sigmoid correctionBias gating).map (↑) := by
    refine List.ext_getElem (by simp [maskScores]) fun expert inside _ => ?_
    rw [maskScores, List.length_mapIdx] at inside
    have first : expert / config.groupSize (choiceScores sigmoid correctionBias gating).length = 0 := by
      rw [groupSize, one, Nat.div_one, Nat.div_eq_of_lt inside]
    simp only [maskScores, List.getElem_mapIdx, List.getElem_map, first, List.mem_singleton, if_true]
  have ids : config.selectIds ops ⊥
      (config.bestGroups ops (config.biasedGroupScores ops (choiceScores sigmoid correctionBias gating)))
      (choiceScores sigmoid correctionBias gating) =
        ops.topk false ((choiceScores sigmoid correctionBias gating).map (↑)) config.topk := by
    rw [group, selectIds, unmasked]
    simp [alone]
  have same : { config with numFusedSharedExperts := 0 } = config := by rw [← alone]
  rw [kimiK2Row, same]
  change _ = config.finish ops row gating.length (config.selectIds ops ⊥
      (config.bestGroups ops (config.biasedGroupScores ops (choiceScores sigmoid correctionBias gating)))
      (choiceScores sigmoid correctionBias gating)) ((config.selectIds ops ⊥
      (config.bestGroups ops (config.biasedGroupScores ops (choiceScores sigmoid correctionBias gating)))
      (choiceScores sigmoid correctionBias gating)).map ((gating.map sigmoid).getD · 0))
  rw [ids, finish, shareLast, if_pos alone]
  rfl

end Rows

end GroupedTopk

end FlashNext.Routing
