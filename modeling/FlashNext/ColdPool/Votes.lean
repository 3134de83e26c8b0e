import FlashNext.ColdPool.Hook
import FlashNext.Data.Fifo
import Mathlib.Tactic.Ring

namespace FlashNext.ColdPool

open FlashNext.Data

/-- A sampled token: its raw logits and the experts selected for it. -/
structure DemandRow where
  logits : List ℚ
  ids : List Nat
deriving DecidableEq, Repr

namespace DemandRow

variable (sigmoid : ℚ → ℚ) (alpha : ℚ) (pool : Pool) (row : DemandRow)

/-- The true score of an expert for this token. -/
def score (gid : Nat) : ℚ := sigmoid (row.logits.getD gid 0)

def hotMin : Option ℚ := ((row.ids.filter fun gid => !isCold pool gid).map (row.score sigmoid)).min?

def inBand (gid : Nat) : Bool := ColdPool.inBand alpha (row.hotMin sigmoid pool) (row.score sigmoid gid)

/-- One vote for each selected cold expert in the band. -/
def strong : List Nat := row.ids.filter fun gid => isCold pool gid && row.inBand sigmoid alpha pool gid

/-- The cold experts in the band that are not resident. -/
def probed : List Nat := (List.range row.logits.length).filter fun gid =>
  row.inBand sigmoid alpha pool gid && isCold pool gid && !decide (gid ∈ pool.gidRow.keys)

/-- One vote for the highest-scoring of them. -/
def probe : Option Nat :=
  firstBest (fun gid best => decide (row.score sigmoid best ≤ row.score sigmoid gid)) (row.probed sigmoid alpha pool)

end DemandRow

/-- `need_counts` after the votes of all rows: probe votes, decay, strong votes. -/
def rowwiseNeed (sigmoid : ℚ → ℚ) (config : HookConfig) (pool : Pool) (rows : List DemandRow) : List ℚ :=
  addVotes ((addVotes pool.need (rows.filterMap fun row => row.probe sigmoid config.strongAlpha pool)).map
    (· * config.emaDecay)) (rows.flatMap fun row => row.strong sigmoid config.strongAlpha pool)

/-- The ballot in which every id has its own score and its own row. -/
def alignedBallot (sigmoid : ℚ → ℚ) (rows : List DemandRow) : Ballot where
  flat := rows.map DemandRow.ids
  scores := rows.map fun row => row.ids.map (row.score sigmoid)
  logits := rows.map DemandRow.logits

variable {sigmoid : ℚ → ℚ} {alpha : ℚ} {pool : Pool} {config : HookConfig} {gid : Nat}

@[simp] theorem length_addVotes (need : List ℚ) (gids : List Nat) : (addVotes need gids).length = need.length := by
  induction gids generalizing need with
  | nil => rfl
  | cons first rest ih => exact (ih _).trans (List.length_modify _ _ _)

theorem addVotes_getD (need : List ℚ) (gids : List Nat) (bound : gid < need.length) :
    (addVotes need gids).getD gid 0 = need.getD gid 0 + gids.count gid := by
  induction gids generalizing need with
  | nil => simp [addVotes]
  | cons first rest ih =>
      have here : (need.modify first (· + 1)).getD gid 0 = need.getD gid 0 + if first = gid then 1 else 0 := by
        by_cases same : first = gid
        · subst same
          simp [bound]
        · simp [same]
      have later := ih (need.modify first (· + 1)) (by simpa using bound)
      rw [here] at later
      rw [show addVotes need (first :: rest) = addVotes (need.modify first (· + 1)) rest from rfl, later,
        List.count_cons]
      by_cases same : first = gid
      · simp only [same, if_true, BEq.rfl, Nat.cast_add, Nat.cast_one]
        ring
      · simp [same]

theorem addVotes_decayed (need : List ℚ) (probes strong : List Nat) (decay : ℚ) (bound : gid < need.length) :
    (addVotes ((addVotes need probes).map (· * decay)) strong).getD gid 0 =
      (need.getD gid 0 + probes.count gid) * decay + strong.count gid := by
  rw [addVotes_getD _ _ (by simpa using bound), ← addVotes_getD need probes bound]
  congr 1
  simp only [List.getD_eq_getElem?_getD, List.getElem?_map]
  cases (addVotes need probes)[gid]? with
  | none => simp
  | some value => rfl

theorem rowwiseNeed_outOfBand {rows : List DemandRow} (bound : gid < pool.need.length)
    (below : ∀ row ∈ rows, ¬ row.inBand sigmoid config.strongAlpha pool gid) :
    (rowwiseNeed sigmoid config pool rows).getD gid 0 = pool.need.getD gid 0 * config.emaDecay := by
  have unprobed : gid ∉ rows.filterMap fun row => row.probe sigmoid config.strongAlpha pool := by
    intro voted
    obtain ⟨row, member, chosen⟩ := List.mem_filterMap.mp voted
    have inside := (List.mem_filter.mp (firstBest_mem chosen)).2
    simp only [Bool.and_eq_true] at inside
    exact below row member inside.1.1
  have weak : gid ∉ rows.flatMap fun row => row.strong sigmoid config.strongAlpha pool := by
    intro voted
    obtain ⟨row, member, chosen⟩ := List.mem_flatMap.mp voted
    have inside := (List.mem_filter.mp chosen).2
    simp only [Bool.and_eq_true] at inside
    exact below row member inside.2
  rw [rowwiseNeed, addVotes_decayed _ _ _ _ bound, List.count_eq_zero_of_not_mem unprobed, List.count_eq_zero_of_not_mem weak]
  simp

theorem zip_scores (ids : List Nat) (score : Nat → ℚ) :
    ids.zip (ids.map score) = ids.map fun gid => (gid, score gid) := by
  rw [List.map_prod_left_eq_zip]

theorem hotMin_aligned (sigmoid : ℚ → ℚ) (pool : Pool) (row : DemandRow) :
    hotMin pool row.ids (row.ids.map (row.score sigmoid)) = row.hotMin sigmoid pool := by
  rw [hotMin, zip_scores, List.filter_map, List.map_map]
  rfl

theorem strongRow_aligned (sigmoid : ℚ → ℚ) (alpha : ℚ) (pool : Pool) (row : DemandRow) :
    strongRow alpha pool row.ids (row.ids.map (row.score sigmoid)) = row.strong sigmoid alpha pool := by
  rw [strongRow, hotMin_aligned, zip_scores, List.filter_map, List.map_map]
  exact List.map_id _

/-- With positive scores, gating by multiplication is the same as leaving the
gated experts out. -/
theorem probeRow_aligned (positive : ∀ logit, 0 < sigmoid logit) (alpha : ℚ) (pool : Pool) (row : DemandRow) :
    probeRow sigmoid alpha pool (row.hotMin sigmoid pool) row.logits = row.probe sigmoid alpha pool := by
  have gated := @firstBest_gated Nat (fun gid => row.inBand sigmoid alpha pool gid && isCold pool gid &&
    !decide (gid ∈ pool.gidRow.keys)) (row.score sigmoid) (fun gid => positive _) (List.range row.logits.length)
  exact gated

theorem castVotes_aligned (positive : ∀ logit, 0 < sigmoid logit) (config : HookConfig) (pool : Pool)
    (rows : List DemandRow) :
    (castVotes sigmoid config pool (alignedBallot sigmoid rows)).1 = rowwiseNeed sigmoid config pool rows := by
  have mins : List.zipWith (hotMin pool) (alignedBallot sigmoid rows).flat (alignedBallot sigmoid rows).scores =
      rows.map fun row => row.hotMin sigmoid pool := by
    simp only [alignedBallot, List.zipWith_map, List.zipWith_self, hotMin_aligned]
  have probes : List.zipWith (probeRow sigmoid config.strongAlpha pool) (rows.map fun row => row.hotMin sigmoid pool)
      (alignedBallot sigmoid rows).logits = rows.map fun row => row.probe sigmoid config.strongAlpha pool := by
    simp only [alignedBallot, List.zipWith_map, List.zipWith_self, probeRow_aligned positive]
  have strong : List.zipWith (strongRow config.strongAlpha pool) (alignedBallot sigmoid rows).flat
      (alignedBallot sigmoid rows).scores = rows.map fun row => row.strong sigmoid config.strongAlpha pool := by
    simp only [alignedBallot, List.zipWith_map, List.zipWith_self, strongRow_aligned]
  simp only [castVotes, mins, probes, strong, rowwiseNeed, List.filterMap_map, List.flatMap]
  rfl

end FlashNext.ColdPool
