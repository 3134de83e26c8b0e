import FlashNext.Ple.SealGate

namespace FlashNext.Ple

open FlashNext.Data

/-- The rows that one copy reads exist in the shard, and those that it writes
in the table; no start is negative. -/
def CopyInside (embedding : Embedding) (table loaded : List Row) (rowStart rowEnd : Nat) : Prop :=
  let tpStart := embedding.orgVocabStartIndex
  let ovStart := max rowStart tpStart
  let ovEnd := min rowEnd embedding.orgVocabEndIndex
  ovStart < ovEnd →
    tpStart ≤ ovStart ∧ ovStart - tpStart + (ovEnd - ovStart) ≤ table.length ∧
      rowStart ≤ ovStart ∧ ovStart - rowStart + (ovEnd - ovStart) ≤ loaded.length

def arrive (embedding : Embedding) (parts : Nat) (row : Nat → Row) (order : List Nat) (table : List Row) : List Row :=
  (order.map (shardOf embedding parts row)).foldl (loadPleShard embedding parts) table

variable {embedding : Embedding} {parts : Nat} {row : Nat → Row} {table : List Row} {order : List Nat}

theorem loadPleShard_length (parts : Nat) (sharded : embedding.Sharded)
    (size : table.length = embedding.numEmbeddingsPerPartition) (shard : Shard) :
    (loadPleShard embedding parts table shard).length = table.length := copyPleRows_length sharded size _ _

theorem arrive_length (parts : Nat) (row : Nat → Row) (order : List Nat) (sharded : embedding.Sharded)
    (size : table.length = embedding.numEmbeddingsPerPartition) :
    (arrive embedding parts row order table).length = table.length := by
  induction order generalizing table with
  | nil => rfl
  | cons index rest ih =>
      have here := loadPleShard_length parts sharded size (shardOf embedding parts row index)
      exact (ih (here.trans size)).trans here

theorem arrive_getElem? (sharded : embedding.Sharded) (size : table.length = embedding.numEmbeddingsPerPartition)
    (place : Nat) :
    (arrive embedding parts row order table)[place]? =
      if (∃ index ∈ order, embedding.orgVocabStartIndex + place ∈ shardRange embedding parts index) ∧
          embedding.orgVocabStartIndex + place < embedding.orgVocabEndIndex then
        some (row (embedding.orgVocabStartIndex + place))
      else table[place]? := by
  induction order generalizing table with
  | nil => simp [arrive]
  | cons index rest ih =>
      have here := loadPleShard_shardOf parts sharded size row index place
      have after := (loadPleShard_length parts sharded size (shardOf embedding parts row index)).trans size
      have later := ih after
      rw [arrive] at later ⊢
      rw [List.map_cons, List.foldl_cons, later, here]
      by_cases found : ∃ index ∈ rest, embedding.orgVocabStartIndex + place ∈ shardRange embedding parts index
      · by_cases inside : embedding.orgVocabStartIndex + place < embedding.orgVocabEndIndex
        · simp [found, inside]
        · simp [inside]
      · by_cases held : embedding.orgVocabStartIndex + place ∈ shardRange embedding parts index
        · simp [found, held]
        · simp [found, held]

/-- After all shards have arrived, in whatever order, a rank's window holds its
part of the vocabulary; no copy leaves its source or its table, and the table
does not depend on the order. -/
theorem shards_land (sharded : embedding.Sharded) (some_ : 0 < parts) (row : Nat → Row)
    (size : table.length = embedding.numEmbeddingsPerPartition) (all : order.Perm (List.range parts)) :
    (∀ local_, embedding.orgVocabStartIndex + local_ < embedding.orgVocabEndIndex →
      (arrive embedding parts row order table)[local_]? = some (row (embedding.orgVocabStartIndex + local_))) ∧
    (∀ before index after, order = before ++ index :: after →
      let shard := shardOf embedding parts row index
      CopyInside embedding (arrive embedding parts row before table) shard.rows (index * shardSize embedding parts)
        (index * shardSize embedding parts + shard.rows.length)) ∧
    ∀ other : List Nat, other.Perm (List.range parts) →
      arrive embedding parts row other table = arrive embedding parts row order table := by
  have member (order : List Nat) (all : order.Perm (List.range parts)) (index : Nat) : index ∈ order ↔ index < parts := by
    rw [all.mem_iff, List.mem_range]
  have covered (global : Nat) (inside : global < embedding.orgVocabEndIndex) :
      ∃ index < parts, global ∈ shardRange embedding parts index :=
    shard_of_row some_ (Nat.lt_of_lt_of_le inside sharded.inside)
  refine ⟨?_, ?_, ?_⟩
  · intro local_ inside
    obtain ⟨index, bound, held⟩ := covered _ inside
    rw [arrive_getElem? sharded size, if_pos ⟨⟨index, (member order all index).mpr bound, held⟩, inside⟩]
  · intro before index after split
    simp only [CopyInside]
    intro overlap
    have fits := sharded.fits
    have length := arrive_length parts row before sharded size
    omega
  · intro other perm
    apply List.ext_getElem?
    intro place
    simp only [arrive_getElem? sharded size, member order all, member other perm]

def middleWindow : Embedding :=
  { smallEmbedding with numEmbeddingsPerPartition := 3, orgVocabSize := 5, orgVocabStartIndex := 1, orgVocabEndIndex := 4 }

def numbered (global : Nat) : Row := [global.toUInt8, 0]

theorem shards_land_middleWindow :
    (arrive middleWindow 4 numbered [3, 1, 0, 2] [[9], [9], [9]])[2]? = some [3, 0] ∧
      arrive middleWindow 4 numbered [0, 1, 2, 3] [[9], [9], [9]] =
        arrive middleWindow 4 numbered [3, 1, 0, 2] [[9], [9], [9]] := by
  have lands := @shards_land middleWindow 4 [[9], [9], [9]] [3, 1, 0, 2] ⟨by decide, by decide⟩ (by decide) numbered rfl
    (by decide)
  exact ⟨lands.1 2 (by decide), lands.2.2 [0, 1, 2, 3] (by decide)⟩

end FlashNext.Ple
