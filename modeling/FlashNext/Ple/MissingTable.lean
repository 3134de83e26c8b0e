import FlashNext.Ple.HostTable

namespace FlashNext.Ple

open FlashNext.Data

variable {embedding : Embedding} {checkpoint : Checkpoint} {dir : TableDir} {built : TableDir × HostEmbedding}

/-- A table file that is absent or of the wrong size is replaced by zeros, and
these are loaded over exactly when the sidecar does not name the checkpoint's
current sources. -/
theorem missing_table_rewritten_iff (missing : fileSize dir.table ≠ some embedding.nbytes)
    (done : construct embedding checkpoint "file" dir = .ok built) :
    built.1.table = some (List.replicate embedding.nbytes 0) ∧
      (built.2.skipLoad = false ↔ ¬ Vouched embedding checkpoint dir.sidecar) := by
  obtain ⟨file, _, _, fresh, directory, _⟩ := construct_file done
  have trusted := construct_skipLoad_iff done
  constructor
  · rw [directory, fresh missing]
  · rw [← trusted, Bool.not_eq_true]

def smallEmbedding : Embedding where
  unquantized := true
  dtype := .float8_e4m3fn
  numAddedEmbeddings := 0
  numEmbeddingsPerPartition := 2
  embeddingDim := 2
  orgVocabSize := 2
  orgVocabStartIndex := 0
  orgVocabEndIndex := 2

def smallSources : Dict String FileStat := ⟨[("model-00001.safetensors", ⟨1, 2, 4096, 5, 6⟩)], by decide⟩

def smallCheckpoint : Checkpoint := ⟨.ok "ckpt", "/models/ckpt", .ok smallSources⟩

/-- A directory whose table was deleted, with the sidecar it was sealed with. -/
def orphanedDir : TableDir where
  table := none
  sidecar := some (.ok (.obj (sidecarPayload (smallCheckpoint.identity smallEmbedding smallSources) "")))

theorem orphaned_sidecar_trusted :
    ¬ ∀ (embedding : Embedding) (checkpoint : Checkpoint) (dir : TableDir) (built : TableDir × HostEmbedding),
      fileSize dir.table ≠ some embedding.nbytes → construct embedding checkpoint "file" dir = .ok built →
        built.2.skipLoad = false := by
  intro rewritten
  have skipped : (skipIfValid smallEmbedding smallCheckpoint
      ⟨some (List.replicate 4 0), orphanedDir.sidecar⟩).1 = true := by
    refine skipIfValid_iff.mpr ⟨rfl, "ckpt", smallSources, _, rfl, by decide, rfl, by decide, rfl, ?_⟩
    exact records_payload_iff.mpr ⟨rfl, rfl, rfl, rfl, fun _ => rfl⟩
  have loaded := rewritten smallEmbedding smallCheckpoint orphanedDir _ (by decide) rfl
  exact Bool.false_ne_true (loaded.symm.trans skipped)

/-- A source file has been written since the table was sealed, and the table cut short. -/
def driftedDir : TableDir where
  table := some [1, 2]
  sidecar := some (.ok (.obj (sidecarPayload (smallCheckpoint.identity smallEmbedding
    ⟨[("model-00001.safetensors", ⟨1, 2, 4096, 3, 4⟩)], by decide⟩) "")))

/-- It is loaded again. -/
theorem missing_table_rewritten_drifted :
    ∃ built, construct smallEmbedding smallCheckpoint "file" driftedDir = .ok built ∧
      built.1.table = some [0, 0, 0, 0] ∧ built.2.skipLoad = false := by
  have missing := @missing_table_rewritten_iff smallEmbedding smallCheckpoint driftedDir _ (by decide) rfl
  refine ⟨_, rfl, missing.1, missing.2.mpr ?_⟩
  intro holds
  obtain ⟨_, sources, fields, _, _, found, _, recorded, records⟩ := holds
  cases found
  cases recorded
  obtain ⟨_, _, _, _, same⟩ := records_payload_iff.mp records
  exact absurd (same "model-00001.safetensors") (by decide)

end FlashNext.Ple
