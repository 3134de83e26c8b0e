import FlashNext.Ple.Boots

namespace FlashNext.Ple

open FlashNext.Data

namespace Host

variable {embedding : Embedding} {parts : Nat} {sources : Source embedding → Prop}
  {host : Host embedding} {source : Source embedding} {bytes : List UInt8}
  {delivered : List Nat}

/-- Row `row` of a table file. -/
def rowAt (embedding : Embedding) (bytes : List UInt8) (row : Nat) : Row :=
  (bytes.drop (row * embedding.rowBytes)).take embedding.rowBytes

/-- A table file holds exactly a checkpoint's rows for the rank's window. -/
structure Holds (embedding : Embedding) (bytes : List UInt8) (row : Nat → Row) : Prop where
  length : bytes.length = embedding.nbytes
  rows : ∀ global, embedding.InWindow global →
    rowAt embedding bytes (global - embedding.orgVocabStartIndex) = row global

theorem rows_getElem? (bytes : List UInt8) {row : Nat} (bound : row < embedding.numEmbeddingsPerPartition) :
    (rows embedding bytes)[row]? = some (rowAt embedding bytes row) := reshape_getElem? bytes bound

theorem Between.window {left right : List UInt8} (between : Between left right bytes) {offset width : Nat}
    (same : (left.drop offset).take width = (right.drop offset).take width) :
    (bytes.drop offset).take width = (left.drop offset).take width := by
  apply List.ext_getElem?
  intro index
  have agree := congrArg (·[index]?) same
  simp only [List.getElem?_take, List.getElem?_drop] at agree ⊢
  split
  · rename_i inside
    rw [if_pos inside, if_pos inside] at agree
    rcases between.bytes (offset + index) with old | new
    · exact old
    · exact new.trans agree.symm
  · rfl

/-- Bytes on their way to the medium do not matter between two files that hold
the same rows. -/
theorem Between.holds {left right : List UInt8} {row : Nat → Row} (between : Between left right bytes)
    (leftHolds : Holds embedding left row) (rightHolds : Holds embedding right row) :
    Holds embedding bytes row where
  length := between.length.trans leftHolds.length
  rows := by
    intro global inside
    have same := (leftHolds.rows global inside).trans (rightHolds.rows global inside).symm
    exact (between.window same).trans (leftHolds.rows global inside)

theorem Between.eq {left : List UInt8} (between : Between left left bytes) : bytes = left :=
  List.ext_getElem? fun index => (between.bytes index).elim id id

def Landed (parts : Nat) (source : Source embedding) (delivered : List Nat) (bytes : List UInt8) : Prop :=
  ∀ index ∈ delivered, ∀ global ∈ shardRange embedding parts index, embedding.InWindow global →
    rowAt embedding bytes (global - embedding.orgVocabStartIndex) = source.row global

theorem rows_length (bytes : List UInt8) :
    (rows embedding bytes).length = embedding.numEmbeddingsPerPartition := length_reshape ..

theorem row_length (full : bytes.length = embedding.nbytes) {row : Row} (member : row ∈ rows embedding bytes) : row.length = embedding.rowBytes :=
  reshape_row_length (full.trans embedding.nbytes_eq) member

section Copy

variable (sharded : embedding.Sharded)
include sharded

theorem loaded_getElem? (bytes : List UInt8) (source : Source embedding) (index row : Nat) :
    (loadPleShard embedding parts (rows embedding bytes) (shardOf embedding parts source.row index))[row]? =
      if embedding.orgVocabStartIndex + row ∈ shardRange embedding parts index ∧
          embedding.orgVocabStartIndex + row < embedding.orgVocabEndIndex then
        some (source.row (embedding.orgVocabStartIndex + row))
      else (rows embedding bytes)[row]? :=
  loadPleShard_shardOf parts sharded (rows_length bytes) source.row index row

theorem loaded_row_length (full : bytes.length = embedding.nbytes) {index : Nat} {row : Row} (member : row ∈ loadPleShard embedding parts
    (rows embedding bytes) (shardOf embedding parts source.row index)) : row.length = embedding.rowBytes := by
  obtain ⟨place, found⟩ := List.mem_iff_getElem?.mp member
  rw [loaded_getElem? sharded] at found
  split at found
  · cases found
    exact source.sized _
  · exact row_length full (List.mem_of_getElem? found)

theorem loaded_length (bytes : List UInt8) (source : Source embedding) (index : Nat) : (loadPleShard embedding parts (rows embedding bytes)
    (shardOf embedding parts source.row index)).length = embedding.numEmbeddingsPerPartition :=
  (copyPleRows_length sharded (rows_length bytes) _ _).trans (rows_length bytes)

variable (full : bytes.length = embedding.nbytes)
include full

theorem copied_length (index : Nat) : (copied parts source index bytes).length = embedding.nbytes := by
  rw [copied, flatten_uniform_length fun row member => loaded_row_length sharded full member,
    loaded_length sharded, embedding.nbytes_eq]

theorem copied_rowAt (index : Nat) {global : Nat} (inside : embedding.InWindow global) :
    rowAt embedding (copied parts source index bytes) (global - embedding.orgVocabStartIndex) =
      if global ∈ shardRange embedding parts index then source.row global
      else rowAt embedding bytes (global - embedding.orgVocabStartIndex) := by
  obtain ⟨first, last⟩ := inside
  have fits := sharded.fits
  have bound : global - embedding.orgVocabStartIndex < embedding.numEmbeddingsPerPartition := by omega
  have place : embedding.orgVocabStartIndex + (global - embedding.orgVocabStartIndex) = global := by omega
  have view : rows embedding (copied parts source index bytes) =
      loadPleShard embedding parts (rows embedding bytes) (shardOf embedding parts source.row index) :=
    reshape_flatten (fun row member => loaded_row_length sharded full member) (loaded_length sharded bytes source index)
  have entry := @rows_getElem? embedding (copied parts source index bytes) _ bound
  rw [view, loaded_getElem? sharded, place, rows_getElem? bytes bound] at entry
  by_cases held : global ∈ shardRange embedding parts index
  · rw [if_pos ⟨held, last⟩] at entry
    rw [if_pos held]
    exact (Option.some.inj entry).symm
  · rw [if_neg fun both => held both.1] at entry
    rw [if_neg held]
    exact (Option.some.inj entry).symm

omit sharded in
theorem copied_outside {index : Nat} (outside : overlaps embedding parts index = false) :
    copied parts source index bytes = bytes := by
  have apart : ∀ global ∈ shardRange embedding parts index, ¬ embedding.InWindow global := by
    intro global held inside
    simp only [overlaps, List.any_eq_false] at outside
    exact outside global held (by simpa using inside)
  have same : loadPleShard embedding parts (rows embedding bytes) (shardOf embedding parts source.row index) =
      rows embedding bytes := by
    apply copyPleRows_outside
    intro global first last
    apply apart
    simp only [shardOf, shardRange, List.length_map, List.length_range', List.mem_range'_1] at first last ⊢
    exact ⟨first, last⟩
  rw [copied, same, rows, flatten_reshape (full.trans embedding.nbytes_eq)]

end Copy

theorem Landed.copied (landed : Landed parts source delivered bytes) (sharded : embedding.Sharded)
    (full : bytes.length = embedding.nbytes) (index : Nat) :
    Landed parts source (index :: delivered) (copied parts source index bytes) := by
  intro other member global held inside
  rw [copied_rowAt sharded full index inside]
  split
  · rfl
  · rename_i elsewhere
    rcases List.mem_cons.mp member with rfl | earlier
    · exact absurd held elsewhere
    · exact landed other earlier global held inside

theorem Landed.holds (landed : Landed parts source delivered bytes) (sharded : embedding.Sharded)
    (some_ : 0 < parts) (full : bytes.length = embedding.nbytes)
    (all : ∀ index < parts, index ∈ delivered) : Holds embedding bytes source.row := by
  refine ⟨full, fun global inside => ?_⟩
  obtain ⟨index, bound, held⟩ := shard_of_row some_ (Nat.lt_of_lt_of_le inside.2 sharded.inside)
  exact landed index (all index bound) global held inside

end Host

end FlashNext.Ple
