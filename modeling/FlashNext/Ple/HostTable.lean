import FlashNext.Ple.Sidecar

namespace FlashNext.Ple

open FlashNext.Data

inductive TableDtype where
  | bfloat16 | float8_e4m3fn | float16 | float32
deriving DecidableEq, Repr

def TableDtype.elementSize : TableDtype → Nat
  | .float8_e4m3fn => 1
  | .bfloat16 | .float16 => 2
  | .float32 => 4

def TableDtype.str : TableDtype → String
  | .bfloat16 => "torch.bfloat16"
  | .float8_e4m3fn => "torch.float8_e4m3fn"
  | .float16 => "torch.float16"
  | .float32 => "torch.float32"

structure PyException where
  kind : String
  message : String
deriving DecidableEq, Repr

/-- What the constructor reads from the `VocabParallelEmbedding` it wraps. -/
structure Embedding where
  unquantized : Bool
  dtype : TableDtype
  numAddedEmbeddings : Nat
  numEmbeddingsPerPartition : Nat
  embeddingDim : Nat
  orgVocabSize : Nat
  orgVocabStartIndex : Nat
  orgVocabEndIndex : Nat

def Embedding.shape (embedding : Embedding) : List Nat :=
  [embedding.numEmbeddingsPerPartition, embedding.embeddingDim]

/-- `numel * element_size`. -/
def Embedding.nbytes (embedding : Embedding) : Nat :=
  embedding.shape.prod * embedding.dtype.elementSize

def Embedding.rowBytes (embedding : Embedding) : Nat :=
  embedding.embeddingDim * embedding.dtype.elementSize

theorem Embedding.nbytes_eq (embedding : Embedding) :
    embedding.nbytes = embedding.numEmbeddingsPerPartition * embedding.rowBytes := by
  simp [nbytes, shape, rowBytes, Nat.mul_assoc]

/-- The files of one shape, dtype and tag in a table directory. -/
structure TableDir where
  table : Option (List UInt8)
  sidecar : SidecarFile

/-- What a boot finds about its checkpoint: the server's `model_path`, the path it
resolves to, and the stats of its source files.  A path with a null byte has no
stats either: `glob` refuses it before `os.path.realpath` does. -/
structure Checkpoint where
  modelPath : Except PyError String
  realPath : String
  fingerprint : Except PyError (Dict String FileStat)

/-- What the constructor leaves on the module: whether loading is skipped, and
what to seal the table with once it is loaded. -/
structure HostEmbedding where
  skipLoad : Bool
  pending : Option Identity
  rowsWritten : Nat
  backed : Bool

/-- `os.path.getsize(path)`. -/
def fileSize (file : Option (List UInt8)) : Option Nat := file.map List.length

/-- `allocate_ple_host_table`: whether the tensor is file-backed, and the table
file afterwards. -/
def allocatePleHostTable (backend : String) (nbytes : Nat) (table : Option (List UInt8)) :
    Except PyException (Bool × Option (List UInt8)) :=
  if backend = "pinned" then .ok (false, table)
  else if backend = "file" then
    if fileSize table ≠ some nbytes then .ok (true, some (List.replicate nbytes 0))
    else .ok (true, table)
  else .error ⟨"ValueError", "unknown PLE offload backend '" ++ backend ++ "'; choose from ('pinned', 'file')"⟩

def Checkpoint.args (embedding : Embedding) (sources : Dict String FileStat) (modelPath : String) : SidecarArgs where
  expectedBytes := embedding.nbytes
  tableShape := embedding.shape
  tableDtype := embedding.dtype.str
  sourceFingerprints := sources
  modelPath := modelPath

/-- What the seal of a boot names. -/
def Checkpoint.identity (checkpoint : Checkpoint) (embedding : Embedding) (sources : Dict String FileStat) :
    Identity where
  bytes := embedding.nbytes
  shape := embedding.shape
  dtype := embedding.dtype.str
  sources := sources
  realPath := checkpoint.realPath

/-- The skip-if-valid block.  An exception in it leaves both defaults. -/
def skipIfValid (embedding : Embedding) (checkpoint : Checkpoint) (dir : TableDir) : Bool × Option Identity :=
  match checkpoint.modelPath, checkpoint.fingerprint with
  | .ok modelPath, .ok sources =>
      if modelPath = "" then (false, none) else
      let pending := checkpoint.identity embedding sources
      if sources.entries = [] then (false, some pending) else
      match pleSidecarIsValid (fun _ => .ok checkpoint.realPath) (Checkpoint.args embedding sources modelPath)
          (fileSize dir.table) dir.sidecar with
      | .ok true => (true, none)
      | .ok false => (false, some pending)
      | .error _ => (false, none)
  | _, _ => (false, none)

/-- `Qwen4ExpPinnedHostEmbedding.__init__`. -/
def construct (embedding : Embedding) (checkpoint : Checkpoint) (backend : String) (dir : TableDir) :
    Except PyException (TableDir × HostEmbedding) :=
  if !embedding.unquantized then
    .error ⟨"NotImplementedError", "PLE embedding offload requires an unquantized embedding table"⟩
  else if embedding.dtype ∉ [TableDtype.bfloat16, .float8_e4m3fn] then
    .error ⟨"TypeError", "PLE embedding offload requires bfloat16 or fp8 weights, got " ++ embedding.dtype.str⟩
  else if embedding.numAddedEmbeddings ≠ 0 then
    .error ⟨"NotImplementedError", "PLE embedding offload does not support added vocabulary rows"⟩
  else
    match allocatePleHostTable backend embedding.nbytes dir.table with
    | .error error => .error error
    | .ok (backed, table) =>
        let dir := { dir with table := table }
        let (skipLoad, pending) :=
          if backend = "file" then skipIfValid embedding checkpoint dir else (false, none)
        .ok (dir, ⟨skipLoad, pending, 0, backed⟩)

variable {embedding : Embedding} {checkpoint : Checkpoint} {dir : TableDir} {built : TableDir × HostEmbedding}

/-- The sidecar of a directory names the checkpoint's current sources. -/
def Vouched (embedding : Embedding) (checkpoint : Checkpoint) (sidecar : SidecarFile) : Prop :=
  ∃ modelPath sources fields, checkpoint.modelPath = .ok modelPath ∧ modelPath ≠ "" ∧
    checkpoint.fingerprint = .ok sources ∧ sources.entries ≠ [] ∧ sidecar = some (.ok (.obj fields)) ∧
    Records fields (checkpoint.identity embedding sources)

theorem skipIfValid_iff :
    (skipIfValid embedding checkpoint dir).1 = true ↔
      fileSize dir.table = some embedding.nbytes ∧ Vouched embedding checkpoint dir.sidecar := by
  unfold skipIfValid Vouched
  cases path : checkpoint.modelPath with
  | error error => simp
  | ok modelPath =>
      cases stats : checkpoint.fingerprint with
      | error error => simp
      | ok sources =>
          have exact_ : pleSidecarIsValid (fun _ => .ok checkpoint.realPath) (Checkpoint.args embedding sources modelPath)
              (fileSize dir.table) dir.sidecar = .ok true ↔ fileSize dir.table = some embedding.nbytes ∧
                ∃ fields, dir.sidecar = some (.ok (.obj fields)) ∧ Records fields (checkpoint.identity embedding sources) := by
            rw [pleSidecarIsValid_iff]
            exact ⟨fun ⟨_, rfl, trusted⟩ => trusted, fun trusted => ⟨_, rfl, trusted⟩⟩
          by_cases unnamed : modelPath = ""
          · simp [unnamed]
          · by_cases empty : sources.entries = []
            · simp [empty, unnamed]
            · simp only [Except.ok.injEq, exists_and_left, exists_eq_left', ne_eq, unnamed, empty,
                not_false_eq_true, true_and, if_false]
              cases valid : pleSidecarIsValid (fun _ => .ok checkpoint.realPath) (Checkpoint.args embedding sources modelPath)
                  (fileSize dir.table) dir.sidecar with
              | error error =>
                  rw [valid] at exact_
                  simpa using exact_
              | ok trusted =>
                  rw [valid] at exact_
                  cases trusted with
                  | true => simpa using exact_
                  | false => simpa using exact_

theorem skipIfValid_pending {identity : Identity}
    (pending : (skipIfValid embedding checkpoint dir).2 = some identity) :
    (skipIfValid embedding checkpoint dir).1 = false ∧
      ∃ sources, checkpoint.fingerprint = .ok sources ∧ identity = checkpoint.identity embedding sources := by
  unfold skipIfValid at pending ⊢
  cases path : checkpoint.modelPath with
  | error error => simp [path] at pending
  | ok modelPath =>
      cases stats : checkpoint.fingerprint with
      | error error => simp [path, stats] at pending
      | ok sources =>
          simp only [path, stats] at pending ⊢
          split at pending
          · contradiction
          · rename_i named
            rw [if_neg named]
            split at pending
            · rename_i empty
              rw [if_pos empty]
              exact ⟨rfl, sources, rfl, (Option.some.inj pending).symm⟩
            · rename_i recorded
              rw [if_neg recorded]
              cases valid : pleSidecarIsValid (fun _ => .ok checkpoint.realPath) (Checkpoint.args embedding sources modelPath)
                  (fileSize dir.table) dir.sidecar with
              | error error => simp [valid] at pending
              | ok trusted =>
                  cases trusted with
                  | true => simp [valid] at pending
                  | false =>
                      simp only [valid, Option.some.injEq] at pending
                      exact ⟨rfl, sources, rfl, pending.symm⟩

theorem allocate_file (nbytes : Nat) (table : Option (List UInt8)) :
    ∃ file, allocatePleHostTable "file" nbytes table = .ok (true, some file) ∧ file.length = nbytes ∧
      (fileSize table = some nbytes → table = some file) ∧
      (fileSize table ≠ some nbytes → file = List.replicate nbytes 0) := by
  cases table with
  | none => exact ⟨List.replicate nbytes 0, by simp [allocatePleHostTable, fileSize]⟩
  | some bytes =>
      by_cases fits : bytes.length = nbytes
      · exact ⟨bytes, by simp [allocatePleHostTable, fileSize, fits]⟩
      · exact ⟨List.replicate nbytes 0, by simp [allocatePleHostTable, fileSize, fits]⟩

/-- What a construction over a table file leaves: a file of the expected size,
and the sidecar as it was. -/
theorem construct_file (done : construct embedding checkpoint "file" dir = .ok built) :
    ∃ file, file.length = embedding.nbytes ∧
      (fileSize dir.table = some embedding.nbytes → dir.table = some file) ∧
      (fileSize dir.table ≠ some embedding.nbytes → file = List.replicate embedding.nbytes 0) ∧
      built.1 = ⟨some file, dir.sidecar⟩ ∧
      built.2 = ⟨(skipIfValid embedding checkpoint ⟨some file, dir.sidecar⟩).1,
        (skipIfValid embedding checkpoint ⟨some file, dir.sidecar⟩).2, 0, true⟩ := by
  obtain ⟨file, allocated, size, kept, fresh⟩ := allocate_file embedding.nbytes dir.table
  refine ⟨file, size, kept, fresh, ?_⟩
  unfold construct at done
  split at done
  · contradiction
  · split at done
    · contradiction
    · split at done
      · contradiction
      · simp only [allocated, if_true, Except.ok.injEq] at done
        subst done
        exact ⟨rfl, rfl⟩

/-- The constructor skips the load exactly when the sidecar names the current
sources: the table file is of the expected size by then, whatever it was. -/
theorem construct_skipLoad_iff (done : construct embedding checkpoint "file" dir = .ok built) :
    built.2.skipLoad = true ↔ Vouched embedding checkpoint dir.sidecar := by
  obtain ⟨file, size, _, _, _, module⟩ := construct_file done
  have sized : fileSize (some file) = some embedding.nbytes := congrArg some size
  rw [module]
  exact skipIfValid_iff.trans ⟨fun trusted => trusted.2, fun vouched => ⟨sized, vouched⟩⟩

end FlashNext.Ple
