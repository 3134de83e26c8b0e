import FlashNext.Machine.Run
import FlashNext.Ple.Shards

namespace FlashNext.Ple

open FlashNext.Data

/-! The files of a directory as processes see them and as the medium holds them,
and the steps of a boot: the construction, the shard copies, and the seal with
its four system calls.  Dirty bytes and directory entries may reach the medium
at any time, and a power loss brings back what has reached it. -/

variable {embedding : Embedding}

/-- A checkpoint together with the table rows its files hold. -/
structure Source (embedding : Embedding) where
  checkpoint : Checkpoint
  row : Nat → Row
  sized : ∀ global, (row global).length = embedding.rowBytes

/-- How far the seal block of `load_weights` has come. -/
inductive Phase where
  | loading | synced | written | renamed | sealed
deriving DecidableEq, Repr

/-- A running boot.  `delivered`, `stale` and `wrote` are bookkeeping: the
shards copied, whether a sidecar was there at the start, and whether a row of
the table was overwritten. -/
structure Loader (embedding : Embedding) where
  source : Source embedding
  skipLoad : Bool
  pending : Option Identity
  rowsWritten : Nat
  phase : Phase
  delivered : List Nat
  stale : Bool
  wrote : Bool

structure Host (embedding : Embedding) where
  table : Option (List UInt8)
  sidecar : SidecarFile
  durable : List UInt8
  linked : Bool
  durableSidecar : SidecarFile
  boot : Option (Loader embedding)

/-- `tear` is a process that dies in the middle of a shard copy, with the table
bytes it leaves behind. -/
inductive Event (embedding : Embedding) where
  | start (source : Source embedding)
  | deliver (index : Nat)
  | tear (index : Nat) (bytes : List UInt8)
  | msync
  | writeTmp
  | rename (sealedAt : String)
  | fsyncDir
  | writeback (bytes : List UInt8)
  | commitDir
  | kill
  | powerLoss

namespace Host

def empty : Host embedding := ⟨none, none, [], false, none, none⟩

def start (source : Source embedding) (host : Host embedding) : Host embedding :=
  match construct embedding source.checkpoint "file" ⟨host.table, host.sidecar⟩ with
  | .error _ => { host with boot := none }
  | .ok (dir, module) =>
      let kept : Bool := fileSize host.table = some embedding.nbytes
      { host with
        table := dir.table
        sidecar := dir.sidecar
        durable := if kept then host.durable else List.replicate embedding.nbytes 0
        linked := host.linked && host.table.isSome
        boot := some
          { source := source
            skipLoad := module.skipLoad
            pending := module.pending
            rowsWritten := module.rowsWritten
            phase := .loading
            delivered := []
            stale := host.sidecar.isSome
            wrote := false } }

def rows (embedding : Embedding) (bytes : List UInt8) : List Row :=
  reshape embedding.rowBytes embedding.numEmbeddingsPerPartition bytes

def copied (parts : Nat) (source : Source embedding) (index : Nat) (bytes : List UInt8) : List UInt8 :=
  (loadPleShard embedding parts (rows embedding bytes) (shardOf embedding parts source.row index)).flatten

def overlaps (embedding : Embedding) (parts index : Nat) : Bool :=
  (shardRange embedding parts index).any fun global => embedding.InWindow global

/-- `load_qwen4_exp_ple_shard` for a shard of the running boot's checkpoint. -/
def deliver (parts index : Nat) (host : Host embedding) : Host embedding :=
  match host.boot, host.table with
  | some loader, some bytes =>
      if loader.phase ≠ .loading ∨ loader.skipLoad then host else
      { host with
        table := some (copied parts loader.source index bytes)
        boot := some { loader with
          rowsWritten := loader.rowsWritten + (shardOf embedding parts loader.source.row index).rows.length
          delivered := index :: loader.delivered
          wrote := loader.wrote || overlaps embedding parts index } }
  | _, _ => host

def tear (bytes : List UInt8) (host : Host embedding) : Host embedding :=
  match host.boot, host.table with
  | some loader, some _ =>
      if loader.phase ≠ .loading ∨ loader.skipLoad then { host with boot := none }
      else { host with table := some bytes, boot := none }
  | _, _ => { host with boot := none }

/-- The gate of the seal block, and `ple_msync`. -/
def msync (host : Host embedding) : Host embedding :=
  match host.boot with
  | none => host
  | some loader =>
      if loader.phase = .loading ∧ loader.pending ≠ none ∧
          embedding.numEmbeddingsPerPartition ≤ loader.rowsWritten then
        { host with
          durable := host.table.getD []
          boot := some { loader with phase := .synced } }
      else host

/-- `ple_sidecar_write`, up to the `fsync` of the temporary file. -/
def writeTmp (host : Host embedding) : Host embedding :=
  match host.boot with
  | none => host
  | some loader =>
      if loader.phase = .synced then { host with boot := some { loader with phase := .written } } else host

/-- `os.replace(tmp, sidecar_file)`. -/
def rename (sealedAt : String) (host : Host embedding) : Host embedding :=
  match host.boot with
  | none => host
  | some loader =>
      match loader.phase, loader.pending with
      | .written, some identity =>
          { host with
            sidecar := some (.ok (.obj (sidecarPayload identity sealedAt)))
            boot := some { loader with phase := .renamed } }
      | _, _ => host

/-- The directory block reaches the medium. -/
def commitDir (host : Host embedding) : Host embedding :=
  { host with
    linked := host.table.isSome
    durableSidecar := host.sidecar }

/-- The `fsync` of the directory that ends the seal. -/
def fsyncDir (host : Host embedding) : Host embedding :=
  match host.boot with
  | none => host
  | some loader =>
      if loader.phase = .renamed then { host.commitDir with boot := some { loader with phase := .sealed } }
      else host

def powerLoss (host : Host embedding) : Host embedding :=
  { host with
    table := if host.linked then some host.durable else none
    sidecar := host.durableSidecar
    boot := none }

def step (parts : Nat) (host : Host embedding) : Event embedding → Host embedding
  | .start source => host.start source
  | .deliver index => host.deliver parts index
  | .tear _ bytes => host.tear bytes
  | .msync => host.msync
  | .writeTmp => host.writeTmp
  | .rename sealedAt => host.rename sealedAt
  | .fsyncDir => host.fsyncDir
  | .writeback bytes => { host with durable := bytes }
  | .commitDir => host.commitDir
  | .kill => { host with boot := none }
  | .powerLoss => host.powerLoss

def machine (embedding : Embedding) (parts : Nat) : Machine (Host embedding) (Event embedding) :=
  ⟨fun host event => ([], host.step parts event)⟩

/-- Every byte is the one of either file. -/
structure Between (left right bytes : List UInt8) : Prop where
  length : bytes.length = left.length
  bytes : ∀ index : Nat, bytes[index]? = left[index]? ∨ bytes[index]? = right[index]?

/-- Equal stats of the source files mean equal rows. -/
def Faithful (sources : Source embedding → Prop) : Prop :=
  ∀ left right leftStats rightStats, sources left → sources right →
    left.checkpoint.fingerprint = .ok leftStats → right.checkpoint.fingerprint = .ok rightStats →
    leftStats.entries ≠ [] → (∀ name, leftStats.get? name = rightStats.get? name) → left.row = right.row

/-- A boot is one of a known checkpoint and loads that checkpoint's shards; a
load that misses some does not pass the gate of the seal; and a write that is
cut off, or on its way to the medium, leaves old and new bytes. -/
def Lawful (sources : Source embedding → Prop) (parts : Nat) (host : Host embedding) : Event embedding → Prop
  | .start source => sources source
  | .deliver index => index < parts
  | .tear index bytes => index < parts ∧ ∀ old ∈ host.table, ∀ new ∈ (host.deliver parts index).table,
      Between old new bytes
  | .msync => ∀ loader ∈ host.boot, loader.skipLoad = false →
      embedding.numEmbeddingsPerPartition ≤ loader.rowsWritten → ∀ index < parts, index ∈ loader.delivered
  | .writeback bytes => ∀ table ∈ host.table, Between table host.durable bytes
  | _ => True

/-- Rows of a table were overwritten while a sidecar of its old content is in
place, and the new one is not yet. -/
def Exposed (host : Host embedding) : Prop :=
  ∃ loader ∈ host.boot, loader.stale = true ∧ loader.wrote = true ∧
    loader.phase ∈ [Phase.loading, .synced, .written]

instance (host : Host embedding) : Decidable host.Exposed :=
  inferInstanceAs (Decidable (∃ loader ∈ host.boot, _))

/-- The medium has no sidecar yet, or the one that processes see. -/
def Committed (host : Host embedding) : Prop :=
  host.durableSidecar = none ∨ host.durableSidecar = host.sidecar

/-- A boot that overwrites a table under an old sidecar is not cut off before
the new one is in place, nor does a power loss bring the old one back. -/
def Uncut (parts : Nat) (host : Host embedding) : Event embedding → Prop
  | .start _ | .kill => ¬ host.Exposed
  | .tear index _ => ¬ (host.deliver parts index).Exposed
  | .powerLoss => ¬ host.Exposed ∧ host.Committed
  | _ => True

end Host

end FlashNext.Ple
