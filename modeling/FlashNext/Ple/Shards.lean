import FlashNext.Data.Chunks
import FlashNext.Ple.HostTable

namespace FlashNext.Ple

open FlashNext.Data

abbrev Row := List UInt8

/-- A shard handed to the loader: its number in the tensor's name, and its rows
in the table's dtype. -/
structure Shard where
  index : Nat
  rows : List Row

/-- `copy_ple_rows_to_tp_embedding`. -/
def copyPleRows (embedding : Embedding) (table loaded : List Row) (rowStart rowEnd : Nat) : List Row :=
  let tpStart := embedding.orgVocabStartIndex
  let tpEnd := embedding.orgVocabEndIndex
  let ovStart := max rowStart tpStart
  let ovEnd := min rowEnd tpEnd
  if ovStart < ovEnd then
    splice table (ovStart - tpStart) ((loaded.drop (ovStart - rowStart)).take (ovEnd - ovStart))
  else table

def shardSize (embedding : Embedding) (parts : Nat) : Nat :=
  (embedding.orgVocabSize + parts - 1) / parts

/-- The rows copied by `load_qwen4_exp_ple_shard` when loading is not skipped. -/
def loadPleShard (embedding : Embedding) (parts : Nat) (table : List Row) (shard : Shard) : List Row :=
  let shardStart := shard.index * shardSize embedding parts
  copyPleRows embedding table shard.rows shardStart (shardStart + shard.rows.length)

/-- What `VocabParallelEmbedding` promises of its shard indices: the window is
part of the vocabulary and fits into the rank's table. -/
structure Embedding.Sharded (embedding : Embedding) : Prop where
  fits : embedding.orgVocabEndIndex - embedding.orgVocabStartIndex ≤ embedding.numEmbeddingsPerPartition
  inside : embedding.orgVocabEndIndex ≤ embedding.orgVocabSize

variable {embedding : Embedding} {parts : Nat} {table : List Row}

def Embedding.InWindow (embedding : Embedding) (global : Nat) : Prop :=
  embedding.orgVocabStartIndex ≤ global ∧ global < embedding.orgVocabEndIndex

instance (embedding : Embedding) (global : Nat) : Decidable (embedding.InWindow global) :=
  inferInstanceAs (Decidable (_ ∧ _))

theorem copyPleRows_length (sharded : embedding.Sharded)
    (size : table.length = embedding.numEmbeddingsPerPartition) (loaded : List Row) (rowStart : Nat) :
    (copyPleRows embedding table loaded rowStart (rowStart + loaded.length)).length = table.length := by
  have fits := sharded.fits
  simp only [copyPleRows]
  split
  · apply splice_length
    simp only [List.length_take, List.length_drop]
    omega
  · rfl

theorem copyPleRows_getElem? (sharded : embedding.Sharded)
    (size : table.length = embedding.numEmbeddingsPerPartition) (loaded : List Row) (rowStart row : Nat) :
    (copyPleRows embedding table loaded rowStart (rowStart + loaded.length))[row]? =
      if rowStart ≤ embedding.orgVocabStartIndex + row ∧
          embedding.orgVocabStartIndex + row < rowStart + loaded.length ∧
          embedding.orgVocabStartIndex + row < embedding.orgVocabEndIndex then
        loaded[embedding.orgVocabStartIndex + row - rowStart]?
      else table[row]? := by
  have fits := sharded.fits
  simp only [copyPleRows]
  split
  · rename_i overlap
    rw [splice_getElem? (by simp only [List.length_take, List.length_drop]; omega)]
    simp only [List.length_take, List.length_drop]
    split
    · rw [if_pos (by omega), List.getElem?_take_of_lt (by omega), List.getElem?_drop]
      congr 1
      omega
    · rw [if_neg (by omega)]
  · rw [if_neg (by omega)]

theorem copyPleRows_outside {loaded : List Row} {rowStart : Nat}
    (outside : ∀ global, rowStart ≤ global → global < rowStart + loaded.length → ¬ embedding.InWindow global) :
    copyPleRows embedding table loaded rowStart (rowStart + loaded.length) = table := by
  simp only [copyPleRows]
  split
  · rename_i overlap
    exact absurd ⟨by omega, by omega⟩
      (outside (max rowStart embedding.orgVocabStartIndex) (by omega) (by omega))
  · rfl

/-- The vocabulary rows a shard of a checkpoint holds. -/
def shardRange (embedding : Embedding) (parts index : Nat) : List Nat :=
  let size := shardSize embedding parts
  List.range' (index * size) (min ((index + 1) * size) embedding.orgVocabSize - index * size)

/-- Shard `index` of a checkpoint whose vocabulary row `global` is `row global`. -/
def shardOf (embedding : Embedding) (parts : Nat) (row : Nat → Row) (index : Nat) : Shard where
  index := index
  rows := (shardRange embedding parts index).map row

theorem mem_shardRange {index global : Nat} :
    global ∈ shardRange embedding parts index ↔
      index * shardSize embedding parts ≤ global ∧ global < (index + 1) * shardSize embedding parts ∧
        global < embedding.orgVocabSize := by
  simp only [shardRange, List.mem_range'_1]
  omega

theorem shardOf_getElem? {row : Nat → Row} {index global : Nat} (held : global ∈ shardRange embedding parts index) :
    (shardOf embedding parts row index).rows[global - index * shardSize embedding parts]? = some (row global) := by
  obtain ⟨first, last, inside⟩ := mem_shardRange.mp held
  have bound : global - index * shardSize embedding parts <
      min ((index + 1) * shardSize embedding parts) embedding.orgVocabSize - index * shardSize embedding parts := by
    omega
  simp only [shardOf, shardRange, List.getElem?_map, List.getElem?_range' bound, Option.map_some]
  congr 2
  omega

theorem loadPleShard_shardOf (parts : Nat) (sharded : embedding.Sharded)
    (size : table.length = embedding.numEmbeddingsPerPartition) (row : Nat → Row) (index place : Nat) :
    (loadPleShard embedding parts table (shardOf embedding parts row index))[place]? =
      if embedding.orgVocabStartIndex + place ∈ shardRange embedding parts index ∧
          embedding.orgVocabStartIndex + place < embedding.orgVocabEndIndex then
        some (row (embedding.orgVocabStartIndex + place))
      else table[place]? := by
  have count : (shardOf embedding parts row index).rows.length = (shardRange embedding parts index).length :=
    List.length_map _
  have range : embedding.orgVocabStartIndex + place ∈ shardRange embedding parts index ↔
      index * shardSize embedding parts ≤ embedding.orgVocabStartIndex + place ∧ embedding.orgVocabStartIndex + place <
        index * shardSize embedding parts + (shardOf embedding parts row index).rows.length := by
    rw [count, shardRange, List.mem_range'_1, List.length_range']
  have copy := copyPleRows_getElem? sharded size (shardOf embedding parts row index).rows
    (index * shardSize embedding parts) place
  have same : (shardOf embedding parts row index).index = index := rfl
  rw [loadPleShard, same, copy]
  by_cases held : embedding.orgVocabStartIndex + place ∈ shardRange embedding parts index
  · rw [shardOf_getElem? held]
    simp only [held, true_and, range.mp held]
  · rw [if_neg fun all => held (range.mpr ⟨all.1, all.2.1⟩), if_neg fun all => held all.1]

theorem shard_of_row (some_ : 0 < parts) {global : Nat} (inside : global < embedding.orgVocabSize) :
    ∃ index < parts, global ∈ shardRange embedding parts index := by
  have enough : embedding.orgVocabSize ≤ parts * shardSize embedding parts := by
    have rounded := Nat.div_add_mod (embedding.orgVocabSize + parts - 1) parts
    have rest := Nat.mod_lt (embedding.orgVocabSize + parts - 1) some_
    unfold shardSize
    omega
  have positive : 0 < shardSize embedding parts := by
    cases size : shardSize embedding parts with
    | zero =>
        rw [size, Nat.mul_zero] at enough
        omega
    | succ _ => exact Nat.succ_pos _
  refine ⟨global / shardSize embedding parts, ?_, ?_⟩
  · rw [Nat.div_lt_iff_lt_mul positive]
    omega
  · rw [mem_shardRange]
    refine ⟨Nat.div_mul_le_self _ _, ?_, inside⟩
    exact (Nat.div_lt_iff_lt_mul positive).mp (Nat.lt_succ_self _)

end FlashNext.Ple
