import FlashNext.Ple.MissingTable
import FlashNext.Ple.Shards

namespace FlashNext.Ple

open FlashNext.Data

/-- How the system calls of a seal end: whether `ple_msync` succeeds, and the
`sealed_at` of a `ple_sidecar_write` that goes through. -/
structure SealIo where
  msynced : Bool
  written : Option String

/-- The embedding's flags and rows during `load_weights`.  A table that waits
for its seal is one whose load is not skipped. -/
structure LoadState where
  module : HostEmbedding
  table : List Row
  ready : module.pending ≠ none → module.skipLoad = false

/-- `load_qwen4_exp_ple_shard`. -/
def loadShard (embedding : Embedding) (parts : Nat) (state : LoadState) (shard : Shard) : LoadState :=
  if state.module.skipLoad then state else
  { module := { state.module with rowsWritten := state.module.rowsWritten + shard.rows.length }
    table := loadPleShard embedding parts state.table shard
    ready := state.ready }

/-- The seal block of `load_weights`: the sidecar it writes, if it does. -/
def sealBlock (embedding : Embedding) (io : SealIo) (module : HostEmbedding) : Option (List (String × Json)) :=
  match module.pending with
  | none => none
  | some identity =>
      if module.rowsWritten < embedding.numEmbeddingsPerPartition then none
      else if !io.msynced then none
      else io.written.map (sidecarPayload identity)

/-- The PLE part of `load_weights`. -/
def loadWeights (embedding : Embedding) (parts : Nat) (io : SealIo) (state : LoadState) (shards : List Shard) :
    LoadState × Option (List (String × Json)) :=
  let loaded := shards.foldl (loadShard embedding parts) state
  (loaded, sealBlock embedding io loaded.module)

def LoadState.ofConstruct {embedding : Embedding} {checkpoint : Checkpoint} {dir : TableDir}
    {built : TableDir × HostEmbedding} (done : construct embedding checkpoint "file" dir = .ok built)
    (table : List Row) : LoadState where
  module := built.2
  table := table
  ready := by
    intro pending
    obtain ⟨file, _, _, _, _, module⟩ := construct_file done
    obtain ⟨identity, found⟩ := Option.ne_none_iff_exists'.mp pending
    rw [module] at found ⊢
    exact (skipIfValid_pending found).1

/-- A shard that holds exactly its part of the vocabulary. -/
def Shard.Cut (embedding : Embedding) (parts : Nat) (shard : Shard) : Prop :=
  shard.rows.length = (shardRange embedding parts shard.index).length

def Writes (embedding : Embedding) (parts : Nat) (shard : Shard) (global : Nat) : Prop :=
  shard.index * shardSize embedding parts ≤ global ∧
    global < shard.index * shardSize embedding parts + shard.rows.length ∧ embedding.InWindow global

instance (embedding : Embedding) (parts : Nat) (shard : Shard) (global : Nat) :
    Decidable (Writes embedding parts shard global) :=
  inferInstanceAs (Decidable (_ ∧ _ ∧ _))

def Shard.row? (embedding : Embedding) (parts : Nat) (shard : Shard) (global : Nat) : Option Row :=
  shard.rows[global - shard.index * shardSize embedding parts]?

/-- The shard that wrote a row last, and the row that is in the table since. -/
structure LastWriter (embedding : Embedding) (parts : Nat) (shards : List Shard) (table : List Row) (global : Nat)
    (shard : Shard) : Prop where
  handed : shard ∈ shards
  writes : Writes embedding parts shard global
  lands : table[global - embedding.orgVocabStartIndex]? = shard.row? embedding parts global

section Load

variable {embedding : Embedding} {parts : Nat} {state : LoadState}

theorem loadPleShard_getElem? (sharded : embedding.Sharded) {table : List Row}
    (size : table.length = embedding.numEmbeddingsPerPartition) (shard : Shard) {global : Nat}
    (inside : embedding.InWindow global) :
    (loadPleShard embedding parts table shard)[global - embedding.orgVocabStartIndex]? =
      if Writes embedding parts shard global then shard.row? embedding parts global
      else table[global - embedding.orgVocabStartIndex]? := by
  have place : embedding.orgVocabStartIndex + (global - embedding.orgVocabStartIndex) = global := by
    have first := inside.1
    omega
  have copied := copyPleRows_getElem? sharded size shard.rows (shard.index * shardSize embedding parts)
    (global - embedding.orgVocabStartIndex)
  rw [place] at copied
  rw [loadPleShard, copied]
  by_cases writes : Writes embedding parts shard global
  · rw [if_pos writes, if_pos ⟨writes.1, writes.2.1, inside.2⟩, Shard.row?]
  · rw [if_neg writes, if_neg fun all => writes ⟨all.1, all.2.1, inside⟩]

theorem loadShards_pending (shards : List Shard) :
    (shards.foldl (loadShard embedding parts) state).module.pending = state.module.pending := by
  induction shards generalizing state with
  | nil => rfl
  | cons shard rest ih =>
      have here : (loadShard embedding parts state shard).module.pending = state.module.pending := by
        rw [loadShard]
        split <;> rfl
      exact ih.trans here

theorem loadShards_spec (sharded : embedding.Sharded) (loads : state.module.skipLoad = false)
    (size : state.table.length = embedding.numEmbeddingsPerPartition) (shards : List Shard) :
    (shards.foldl (loadShard embedding parts) state).module =
        { state.module with rowsWritten := state.module.rowsWritten + (shards.map (·.rows.length)).sum } ∧
      ∀ global, embedding.InWindow global →
        (∃ shard, LastWriter embedding parts shards (shards.foldl (loadShard embedding parts) state).table global
          shard) ∨
        ((∀ shard ∈ shards, ¬ Writes embedding parts shard global) ∧
          (shards.foldl (loadShard embedding parts) state).table[global - embedding.orgVocabStartIndex]? =
            state.table[global - embedding.orgVocabStartIndex]?) := by
  induction shards generalizing state with
  | nil => exact ⟨rfl, fun _ _ => Or.inr ⟨by simp, rfl⟩⟩
  | cons shard rest ih =>
      have here : loadShard embedding parts state shard =
          ⟨{ state.module with rowsWritten := state.module.rowsWritten + shard.rows.length },
            loadPleShard embedding parts state.table shard, state.ready⟩ := by
        rw [loadShard, if_neg (by rw [loads]; exact Bool.false_ne_true)]
      have sizeAfter : (loadPleShard embedding parts state.table shard).length =
          embedding.numEmbeddingsPerPartition :=
        (copyPleRows_length sharded size _ _).trans size
      obtain ⟨counted, landed⟩ := @ih (loadShard embedding parts state shard) (by rw [here]; exact loads)
        (by rw [here]; exact sizeAfter)
      rw [List.foldl_cons]
      constructor
      · rw [counted, here, List.map_cons, List.sum_cons, Nat.add_assoc]
      · intro global inside
        rcases landed global inside with ⟨last, wrote⟩ | ⟨none, same⟩
        · exact Or.inl ⟨last, List.mem_cons_of_mem _ wrote.handed, wrote.writes, wrote.lands⟩
        · have entry := @loadPleShard_getElem? embedding parts sharded _ size shard _ inside
          rw [here] at same
          by_cases writes : Writes embedding parts shard global
          · rw [if_pos writes] at entry
            refine Or.inl ⟨shard, List.mem_cons_self, writes, ?_⟩
            rw [here]
            exact same.trans entry
          · rw [if_neg writes] at entry
            refine Or.inr ⟨?_, by rw [here]; exact same.trans entry⟩
            intro other member
            cases List.mem_cons.mp member with
            | inl first => exact first ▸ writes
            | inr later => exact none other later

end Load

/-- A shard with a row of the rank's window. -/
def Needed (embedding : Embedding) (parts index : Nat) : Prop :=
  ∃ global ∈ shardRange embedding parts index, embedding.InWindow global

instance (embedding : Embedding) (parts index : Nat) : Decidable (Needed embedding parts index) :=
  inferInstanceAs (Decidable (∃ global ∈ shardRange embedding parts index, embedding.InWindow global))

section Coverage

variable {embedding : Embedding} {parts : Nat} {shards : List Shard} {shard : Shard} {global : Nat}

theorem writes_iff (cut : shard.Cut embedding parts) :
    Writes embedding parts shard global ↔
      global ∈ shardRange embedding parts shard.index ∧ embedding.InWindow global := by
  rw [Writes, cut, shardRange, List.mem_range'_1, List.length_range']
  exact and_assoc.symm

theorem shardRange_unique {left right : Nat} (inLeft : global ∈ shardRange embedding parts left)
    (inRight : global ∈ shardRange embedding parts right) : left = right := by
  obtain ⟨leftFirst, leftLast, _⟩ := mem_shardRange.mp inLeft
  obtain ⟨rightFirst, rightLast, _⟩ := mem_shardRange.mp inRight
  rcases Nat.lt_trichotomy left right with below | same | above
  · have apart : (left + 1) * shardSize embedding parts ≤ right * shardSize embedding parts :=
      Nat.mul_le_mul_right _ below
    omega
  · exact same
  · have apart : (right + 1) * shardSize embedding parts ≤ left * shardSize embedding parts :=
      Nat.mul_le_mul_right _ above
    omega

theorem covered_iff (sharded : embedding.Sharded) (some_ : 0 < parts)
    (cut : ∀ shard ∈ shards, shard.Cut embedding parts) :
    (∀ global, embedding.InWindow global → ∃ shard ∈ shards, Writes embedding parts shard global) ↔
      ∀ index < parts, Needed embedding parts index → ∃ shard ∈ shards, shard.index = index := by
  constructor
  · intro covered index _ ⟨global, held, inside⟩
    obtain ⟨shard, handed, writes⟩ := covered global inside
    exact ⟨shard, handed, shardRange_unique ((writes_iff (cut shard handed)).mp writes).1 held⟩
  · intro delivered global inside
    obtain ⟨index, bound, held⟩ := shard_of_row some_ (Nat.lt_of_lt_of_le inside.2 sharded.inside)
    obtain ⟨shard, handed, rfl⟩ := delivered index bound ⟨global, held, inside⟩
    exact ⟨shard, handed, (writes_iff (cut shard handed)).mpr ⟨held, inside⟩⟩

end Coverage

/-- When the sidecar is written, every row of the window was written by a shard
of this load. -/
def SealSound (embedding : Embedding) (parts : Nat) (shards : List Shard)
    (result : LoadState × Option (List (String × Json))) : Prop :=
  result.2 ≠ none → ∀ global, embedding.InWindow global →
    ∃ shard, LastWriter embedding parts shards result.1.table global shard

/-- A seal is due once the load is through, and its system calls succeed. -/
structure Attempted (io : SealIo) (module : HostEmbedding) : Prop where
  pending : module.pending ≠ none
  msynced : io.msynced = true
  written : io.written ≠ none

theorem sealBlock_iff {embedding : Embedding} {io : SealIo} {module : HostEmbedding} :
    sealBlock embedding io module ≠ none ↔
      Attempted io module ∧ embedding.numEmbeddingsPerPartition ≤ module.rowsWritten := by
  unfold sealBlock
  cases pending : module.pending with
  | none => exact ⟨fun sealed => absurd rfl sealed, fun due => absurd pending due.1.pending⟩
  | some identity =>
      dsimp only
      by_cases short : module.rowsWritten < embedding.numEmbeddingsPerPartition
      · rw [if_pos short]
        exact ⟨fun sealed => absurd rfl sealed, fun due => absurd short (Nat.not_lt_of_le due.2)⟩
      · rw [if_neg short]
        cases synced : io.msynced with
        | false => exact ⟨fun sealed => absurd rfl sealed, fun due => absurd (due.1.msynced.symm.trans synced) (by decide)⟩
        | true =>
            constructor
            · intro sealed
              refine ⟨⟨by rw [pending]; exact Option.some_ne_none _, synced, ?_⟩, Nat.le_of_not_lt short⟩
              intro failed
              simp [failed] at sealed
            · intro due
              simpa using due.1.written

section Gate

variable {embedding : Embedding} {parts : Nat}

/-- The gate is sound for a load exactly when no seal is due, the rows handed
over are too few, or no shard with a row of the window is missing. -/
theorem seal_sound_iff (sharded : embedding.Sharded) (some_ : 0 < parts) (io : SealIo) (state : LoadState)
    (size : state.table.length = embedding.numEmbeddingsPerPartition) (shards : List Shard)
    (cut : ∀ shard ∈ shards, shard.Cut embedding parts) :
    SealSound embedding parts shards (loadWeights embedding parts io state shards) ↔
      ¬ Attempted io state.module ∨
        state.module.rowsWritten + (shards.map (·.rows.length)).sum < embedding.numEmbeddingsPerPartition ∨
        ∀ index < parts, Needed embedding parts index → ∃ shard ∈ shards, shard.index = index := by
  by_cases attempted : Attempted io state.module
  · have loads := state.ready attempted.pending
    obtain ⟨counted, landed⟩ := @loadShards_spec embedding parts state sharded loads size shards
    rw [← covered_iff sharded some_ cut]
    have sealed : (loadWeights embedding parts io state shards).2 ≠ none ↔
        embedding.numEmbeddingsPerPartition ≤
          state.module.rowsWritten + (shards.map (·.rows.length)).sum := by
      rw [loadWeights, sealBlock_iff, counted]
      exact ⟨fun due => due.2, fun enough => ⟨⟨attempted.pending, attempted.msynced, attempted.written⟩, enough⟩⟩
    rw [SealSound, sealed]
    constructor
    · intro sound
      by_cases short : state.module.rowsWritten + (shards.map (·.rows.length)).sum <
          embedding.numEmbeddingsPerPartition
      · exact Or.inr (Or.inl short)
      · refine Or.inr (Or.inr fun global inside => ?_)
        obtain ⟨shard, wrote⟩ := sound (Nat.le_of_not_lt short) global inside
        exact ⟨shard, wrote.handed, wrote.writes⟩
    · intro holds enough global inside
      rcases holds with idle | short | covered
      · exact absurd attempted idle
      · omega
      · obtain ⟨shard, handed, writes⟩ := covered global inside
        rcases landed global inside with wrote | ⟨none, _⟩
        · exact wrote
        · exact absurd writes (none shard handed)
  · have unsealed : (loadWeights embedding parts io state shards).2 = none := by
      by_contra sealed
      have due := (sealBlock_iff.mp sealed).1
      exact attempted ⟨loadShards_pending shards ▸ due.pending, due.msynced, due.written⟩
    exact ⟨fun _ => Or.inl attempted, fun _ sealed => absurd unsealed sealed⟩

end Gate

/-- The small table before its first load, waiting for its seal. -/
def freshState : LoadState :=
  .ofConstruct (show construct smallEmbedding smallCheckpoint "file" ⟨none, none⟩ = .ok (_, _) from rfl)
    [[0, 0], [0, 0]]

def sealingIo : SealIo := ⟨true, some "now"⟩

theorem seal_sound_bothShards :
    (loadWeights smallEmbedding 2 sealingIo freshState [⟨1, [[3, 4]]⟩, ⟨0, [[1, 2]]⟩]).2 ≠ none ∧
      SealSound smallEmbedding 2 [⟨1, [[3, 4]]⟩, ⟨0, [[1, 2]]⟩]
        (loadWeights smallEmbedding 2 sealingIo freshState [⟨1, [[3, 4]]⟩, ⟨0, [[1, 2]]⟩]) := by
  refine ⟨Option.isSome_iff_ne_none.mp rfl, ?_⟩
  refine (seal_sound_iff ⟨by decide, by decide⟩ (by decide) sealingIo freshState rfl _ ?_).mpr
    (Or.inr (Or.inr (by decide)))
  intro shard handed
  simp only [List.mem_cons, List.not_mem_nil, or_false] at handed
  rcases handed with rfl | rfl <;> rfl

/-- Shard 0 is handed over twice and shard 1 not at all. -/
theorem seal_unsound : ¬ ∀ (embedding : Embedding) (parts : Nat) (io : SealIo) (state : LoadState)
    (shards : List Shard), embedding.Sharded → 0 < parts →
      state.table.length = embedding.numEmbeddingsPerPartition →
      (∀ shard ∈ shards, shard.Cut embedding parts) →
        SealSound embedding parts shards (loadWeights embedding parts io state shards) := by
  intro claimed
  have sound := claimed smallEmbedding 2 sealingIo freshState [⟨0, [[1, 2]]⟩, ⟨0, [[1, 2]]⟩]
    ⟨by decide, by decide⟩ (by decide) rfl (by
      intro shard handed
      simp only [List.mem_cons, List.not_mem_nil, or_false, or_self] at handed
      rw [handed]
      rfl)
  have sealed : (loadWeights smallEmbedding 2 sealingIo freshState [⟨0, [[1, 2]]⟩, ⟨0, [[1, 2]]⟩]).2 ≠ none :=
    Option.isSome_iff_ne_none.mp rfl
  obtain ⟨shard, wrote⟩ := sound sealed 1 (by decide)
  have handed := wrote.handed
  simp only [List.mem_cons, List.not_mem_nil, or_false, or_self] at handed
  exact absurd (handed ▸ wrote.writes) (by decide)

end FlashNext.Ple
