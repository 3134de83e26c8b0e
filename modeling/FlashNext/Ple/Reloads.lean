import FlashNext.Machine.Run
import FlashNext.Ple.Copies
import FlashNext.Ple.SealGate
import Mathlib.Data.List.Induction

namespace FlashNext.Ple

open FlashNext.Data

variable {embedding : Embedding}

/-- A call of `load_weights`: the checkpoint and the numbers of the shards that
it delivers.  `io.written` is given once the sidecar is replaced. -/
structure Call (embedding : Embedding) where
  source : Source embedding
  indices : List Nat
  io : SealIo

structure Instance where
  load : LoadState
  sidecar : SidecarFile

def Call.shards (parts : Nat) (call : Call embedding) : List Shard :=
  call.indices.map (shardOf embedding parts call.source.row)

def Call.rows (parts : Nat) (call : Call embedding) : Nat := ((call.shards parts).map (·.rows.length)).sum

def Call.Full (parts : Nat) (call : Call embedding) : Prop := ∀ index < parts, index ∈ call.indices

namespace Instance

def boot {checkpoint : Checkpoint} {dir : TableDir} {built : TableDir × HostEmbedding}
    (done : construct embedding checkpoint "file" dir = .ok built) : Instance where
  load := .ofConstruct done (Host.rows embedding (built.1.table.getD []))
  sidecar := built.1.sidecar

/-- `load_weights`. -/
def call (parts : Nat) (state : Instance) (call : Call embedding) : Instance :=
  let result := loadWeights embedding parts call.io state.load (call.shards parts)
  { load := result.1
    sidecar := (result.2.map fun payload => .ok (.obj payload)).or state.sidecar }

def machine (embedding : Embedding) (parts : Nat) : Machine Instance (Call embedding) :=
  ⟨fun state event => ([], state.call parts event)⟩

def row? (embedding : Embedding) (state : Instance) (global : Nat) : Option Row :=
  state.load.table[global - embedding.orgVocabStartIndex]?

/-- The table holds what a call delivered, and the sidecar names no checkpoint
of other rows. -/
structure TakesEffect (sources : Source embedding → Prop) (state : Instance) (call : Call embedding) : Prop where
  landed : ∀ global, embedding.InWindow global → state.row? embedding global = some (call.source.row global)
  named : ∀ source, sources source → Vouched embedding source.checkpoint state.sidecar →
    ∀ global, embedding.InWindow global → state.row? embedding global = some (source.row global)

/-- A call seals the table: the rows counted since boot are enough, and a seal
is due. -/
structure Seals (parts : Nat) (booted : Instance) (before : List (Call embedding)) (call : Call embedding) : Prop where
  attempted : Attempted call.io booted.load.module
  enough : embedding.numEmbeddingsPerPartition ≤ ((before ++ [call]).map (Call.rows parts)).sum

def Sealed (parts : Nat) (booted : Instance) (calls : List (Call embedding)) : Prop :=
  ∃ before call, before ++ [call] <+: calls ∧ Seals parts booted before call

/-- The sources of a sidecar to be are those of a checkpoint. -/
def NamedBy (identity : Identity) (checkpoint : Checkpoint) : Prop :=
  ∃ modelPath stats, checkpoint.modelPath = .ok modelPath ∧ modelPath ≠ "" ∧
    checkpoint.fingerprint = .ok stats ∧ stats.entries ≠ [] ∧ identity.realPath = checkpoint.realPath ∧
    ∀ name, identity.sources.get? name = stats.get? name

/-- The checkpoints that the sidecar names after a run: those with the
fingerprints of the boot, once a call has sealed the table. -/
def Named (parts : Nat) (booted : Instance) (calls : List (Call embedding)) (checkpoint : Checkpoint) : Prop :=
  (Sealed parts booted calls ∧ ∃ identity, booted.load.module.pending = some identity ∧ NamedBy identity checkpoint) ∨
    (¬ Sealed parts booted calls ∧ Vouched embedding checkpoint booted.sidecar)

/-- A call delivers the rows of the table where loading is skipped, and those of
every checkpoint that the sidecar names. -/
structure Agrees (sources : Source embedding → Prop) (parts : Nat) (booted : Instance)
    (before : List (Call embedding)) (call : Call embedding) : Prop where
  kept : booted.load.module.skipLoad = true →
    ∀ global, embedding.InWindow global → booted.row? embedding global = some (call.source.row global)
  named : ∀ source, sources source → Named parts booted (before ++ [call]) source.checkpoint →
    ∀ global, embedding.InWindow global → source.row global = call.source.row global

section Step

variable {parts : Nat} {state : Instance} {event : Call embedding}

theorem cut_shards (parts : Nat) (event : Call embedding) :
    ∀ shard ∈ event.shards parts, shard.Cut embedding parts := by
  intro shard member
  obtain ⟨index, _, rfl⟩ := List.mem_map.mp member
  exact List.length_map _

theorem call_skipped (skips : state.load.module.skipLoad = true) : (state.call parts event).load = state.load := by
  have ignored : ∀ shards : List Shard, shards.foldl (loadShard embedding parts) state.load = state.load := by
    intro shards
    induction shards with
    | nil => rfl
    | cons shard rest ih =>
        rw [List.foldl_cons, loadShard, if_pos skips]
        exact ih
  exact ignored (event.shards parts)

theorem call_module (sharded : embedding.Sharded)
    (size : state.load.table.length = embedding.numEmbeddingsPerPartition) (loads : state.load.module.skipLoad = false) :
    (state.call parts event).load.module =
      { state.load.module with rowsWritten := state.load.module.rowsWritten + event.rows parts } :=
  (loadShards_spec sharded loads size (event.shards parts)).1

theorem call_landed (sharded : embedding.Sharded) (some_ : 0 < parts)
    (size : state.load.table.length = embedding.numEmbeddingsPerPartition) (loads : state.load.module.skipLoad = false)
    (full : event.Full parts) {global : Nat} (inside : embedding.InWindow global) :
    (state.call parts event).row? embedding global = some (event.source.row global) := by
  have delivered : ∃ shard ∈ event.shards parts, Writes embedding parts shard global := by
    obtain ⟨index, bound, held⟩ := shard_of_row some_ (Nat.lt_of_lt_of_le inside.2 sharded.inside)
    have handed : shardOf embedding parts event.source.row index ∈ event.shards parts :=
      List.mem_map_of_mem (full index bound)
    exact ⟨_, handed, (writes_iff (cut_shards parts event _ handed)).mpr ⟨held, inside⟩⟩
  obtain ⟨_, landed⟩ := @loadShards_spec embedding parts state.load sharded loads size (event.shards parts)
  rcases landed global inside with ⟨last, wrote⟩ | ⟨none, _⟩
  · have held := ((writes_iff (cut_shards parts event last wrote.handed)).mp wrote.writes).1
    obtain ⟨index, _, rfl⟩ := List.mem_map.mp wrote.handed
    have row : (shardOf embedding parts event.source.row index).row? embedding parts global =
        some (event.source.row global) := shardOf_getElem? held
    exact wrote.lands.trans row
  · obtain ⟨shard, handed, writes⟩ := delivered
    exact absurd writes (none shard handed)

theorem call_length (sharded : embedding.Sharded)
    (size : state.load.table.length = embedding.numEmbeddingsPerPartition) :
    (state.call parts event).load.table.length = embedding.numEmbeddingsPerPartition := by
  have all : ∀ (shards : List Shard) (load : LoadState), load.table.length = embedding.numEmbeddingsPerPartition →
      (shards.foldl (loadShard embedding parts) load).table.length = embedding.numEmbeddingsPerPartition := by
    intro shards
    induction shards with
    | nil => exact fun _ size => size
    | cons shard rest ih =>
        intro load size
        apply ih
        rw [loadShard]
        split
        · exact size
        · exact (copyPleRows_length sharded size _ _).trans size
  exact all _ _ size

theorem sealBlock_payload {io : SealIo} {module : HostEmbedding} {payload : List (String × Json)}
    (sealed : sealBlock embedding io module = some payload) :
    ∃ identity sealedAt, module.pending = some identity ∧ payload = sidecarPayload identity sealedAt := by
  unfold sealBlock at sealed
  split at sealed
  · contradiction
  · rename_i identity pending
    split at sealed
    · contradiction
    · split at sealed
      · contradiction
      · obtain ⟨sealedAt, _, same⟩ := Option.map_eq_some_iff.mp sealed
        exact ⟨identity, sealedAt, pending, same.symm⟩

end Step

section Runs

variable {parts : Nat} {booted state : Instance} {calls : List (Call embedding)} {event : Call embedding}

theorem sealed_append :
    Sealed parts booted (calls ++ [event]) ↔ Sealed parts booted calls ∨ Seals parts booted calls event := by
  constructor
  · intro holds
    obtain ⟨before, call, within, seals⟩ := holds
    rcases List.prefix_concat_iff.mp within with last | earlier
    · obtain ⟨rfl, same⟩ := List.append_inj' last rfl
      cases same
      exact Or.inr seals
    · exact Or.inl ⟨before, call, earlier, seals⟩
  · intro cases_
    rcases cases_ with ⟨before, call, within, seals⟩ | seals
    · exact ⟨before, call, within.trans (List.prefix_append calls [event]), seals⟩
    · exact ⟨calls, event, List.prefix_refl _, seals⟩

/-- What a run of calls leaves of the instance that was booted. -/
structure Reached (embedding : Embedding) (parts : Nat) (booted : Instance) (calls : List (Call embedding))
    (state : Instance) : Prop where
  skipLoad : state.load.module.skipLoad = booted.load.module.skipLoad
  pending : state.load.module.pending = booted.load.module.pending
  counted : booted.load.module.skipLoad = false →
    state.load.module.rowsWritten = (calls.map (Call.rows parts)).sum
  size : state.load.table.length = embedding.numEmbeddingsPerPartition
  kept : booted.load.module.skipLoad = true → state.load = booted.load
  fresh : Sealed parts booted calls → ∃ identity sealedAt, booted.load.module.pending = some identity ∧
    state.sidecar = some (.ok (.obj (sidecarPayload identity sealedAt)))
  found : ¬ Sealed parts booted calls → state.sidecar = booted.sidecar

theorem Reached.count (reached : Reached embedding parts booted calls state) (sharded : embedding.Sharded)
    (loads : booted.load.module.skipLoad = false) :
    (state.call parts event).load.module.rowsWritten = ((calls ++ [event]).map (Call.rows parts)).sum := by
  rw [List.map_append, List.sum_append, List.map_singleton, List.sum_singleton, ← reached.counted loads,
    call_module sharded reached.size (reached.skipLoad.trans loads)]

theorem Reached.seals_iff (reached : Reached embedding parts booted calls state) (sharded : embedding.Sharded) :
    (loadWeights embedding parts event.io state.load (event.shards parts)).2 ≠ none ↔
      Seals parts booted calls event := by
  have pending := @loadShards_pending embedding parts state.load (event.shards parts)
  have same := reached.pending
  have counted : booted.load.module.pending ≠ none →
      ((event.shards parts).foldl (loadShard embedding parts) state.load).module.rowsWritten =
        ((calls ++ [event]).map (Call.rows parts)).sum :=
    fun due => reached.count sharded (booted.load.ready due)
  rw [loadWeights, sealBlock_iff]
  constructor
  · intro holds
    obtain ⟨attempted, enough⟩ := holds
    have due : booted.load.module.pending ≠ none := same ▸ pending ▸ attempted.pending
    exact ⟨⟨due, attempted.msynced, attempted.written⟩, counted due ▸ enough⟩
  · intro holds
    obtain ⟨attempted, enough⟩ := holds
    refine ⟨⟨?_, attempted.msynced, attempted.written⟩, ?_⟩
    · rw [pending, same]
      exact attempted.pending
    · rw [counted attempted.pending]
      exact enough

theorem Reached.call (reached : Reached embedding parts booted calls state) (sharded : embedding.Sharded) :
    Reached embedding parts booted (calls ++ [event]) (state.call parts event) := by
  have pending : (state.call parts event).load.module.pending = state.load.module.pending :=
    loadShards_pending (event.shards parts)
  have seals := @Reached.seals_iff _ _ _ _ _ event reached sharded
  refine ⟨?_, pending.trans reached.pending, reached.count sharded, call_length sharded reached.size, ?_, ?_, ?_⟩
  · cases skips : state.load.module.skipLoad with
    | true =>
        rw [call_skipped skips]
        exact reached.skipLoad
    | false =>
        rw [call_module sharded reached.size skips]
        exact reached.skipLoad
  · intro skips
    exact (call_skipped (reached.skipLoad.trans skips)).trans (reached.kept skips)
  · intro sealed
    cases written : (loadWeights embedding parts event.io state.load (event.shards parts)).2 with
    | some payload =>
        obtain ⟨identity, sealedAt, due, rfl⟩ := sealBlock_payload written
        refine ⟨identity, sealedAt, ?_, ?_⟩
        · rw [← reached.pending, ← due]
          exact (loadShards_pending (event.shards parts)).symm
        · rw [Instance.call, written]
          rfl
    | none =>
        rcases sealed_append.mp sealed with earlier | now
        · obtain ⟨identity, sealedAt, due, same⟩ := reached.fresh earlier
          refine ⟨identity, sealedAt, due, ?_⟩
          rw [Instance.call, written]
          exact same
        · exact absurd written (seals.mpr now)
  · intro unsealed
    rw [sealed_append, not_or] at unsealed
    have unwritten : (loadWeights embedding parts event.io state.load (event.shards parts)).2 = none := by
      by_contra written
      exact unsealed.2 (seals.mp written)
    rw [Instance.call, unwritten]
    exact reached.found unsealed.1

theorem run_reached (sharded : embedding.Sharded) (unwritten : booted.load.module.rowsWritten = 0)
    (size : booted.load.table.length = embedding.numEmbeddingsPerPartition) (calls : List (Call embedding)) :
    Reached embedding parts booted calls ((machine embedding parts).run booted calls) := by
  induction calls using List.reverseRecOn with
  | nil =>
      have unsealed : ¬ Sealed parts booted ([] : List (Call embedding)) := by
        intro holds
        obtain ⟨before, call, within, _⟩ := holds
        have none := List.prefix_nil.mp within
        exact absurd none (by simp)
      exact ⟨rfl, rfl, fun _ => unwritten, size, fun _ => rfl, fun sealed => absurd sealed unsealed, fun _ => rfl⟩
  | append_singleton calls event ih =>
      rw [Machine.run_append]
      exact ih.call sharded

end Runs

theorem vouched_payload_iff {boot checkpoint : Checkpoint} {stats : Dict String FileStat} {sealedAt : String} :
    Vouched embedding checkpoint (some (.ok (.obj (sidecarPayload (boot.identity embedding stats) sealedAt)))) ↔
      NamedBy (boot.identity embedding stats) checkpoint := by
  constructor
  · intro holds
    obtain ⟨modelPath, current, fields, path, named, found, some_, same, records⟩ := holds
    cases same
    obtain ⟨_, _, _, realPath, sources⟩ := records_payload_iff.mp records
    exact ⟨modelPath, current, path, named, found, some_, realPath, sources⟩
  · intro holds
    obtain ⟨modelPath, current, path, named, found, some_, realPath, sources⟩ := holds
    exact ⟨modelPath, current, _, path, named, found, some_, rfl,
      records_payload_iff.mpr ⟨rfl, rfl, rfl, realPath, sources⟩⟩

section Boot

variable {parts : Nat} {checkpoint : Checkpoint} {dir : TableDir} {built : TableDir × HostEmbedding}
  {sources : Source embedding → Prop} {calls : List (Call embedding)} {event : Call embedding}

theorem boot_pending (done : construct embedding checkpoint "file" dir = .ok built) {identity : Identity}
    (pending : (boot done).load.module.pending = some identity) :
    ∃ stats, checkpoint.fingerprint = .ok stats ∧ identity = checkpoint.identity embedding stats := by
  obtain ⟨file, _, _, _, _, module⟩ := construct_file done
  have due : built.2.pending = some identity := pending
  rw [module] at due
  exact (skipIfValid_pending due).2

theorem boot_reached (sharded : embedding.Sharded) (done : construct embedding checkpoint "file" dir = .ok built)
    (calls : List (Call embedding)) :
    Reached embedding parts (boot done) calls ((machine embedding parts).run (boot done) calls) := by
  obtain ⟨file, _, _, _, _, module⟩ := construct_file done
  apply run_reached sharded
  · exact congrArg HostEmbedding.rowsWritten module
  · exact Host.rows_length _

theorem named_iff (done : construct embedding checkpoint "file" dir = .ok built) {state : Instance}
    (reached : Reached embedding parts (boot done) calls state) {other : Checkpoint} :
    Vouched embedding other state.sidecar ↔ Named parts (boot done) calls other := by
  by_cases sealed : Sealed parts (boot done) calls
  · obtain ⟨identity, sealedAt, pending, sidecar⟩ := reached.fresh sealed
    obtain ⟨stats, _, rfl⟩ := boot_pending done pending
    rw [sidecar, vouched_payload_iff]
    constructor
    · intro named
      exact Or.inl ⟨sealed, _, pending, named⟩
    · intro cases_
      rcases cases_ with ⟨_, identity, due, named⟩ | ⟨unsealed, _⟩
      · rw [pending, Option.some_inj] at due
        exact due ▸ named
      · exact absurd sealed unsealed
  · rw [reached.found sealed]
    constructor
    · intro vouched
      exact Or.inr ⟨sealed, vouched⟩
    · intro cases_
      rcases cases_ with ⟨sealed', _⟩ | ⟨_, vouched⟩
      · exact absurd sealed' sealed
      · exact vouched

/-- A call that delivers every shard takes effect exactly when it agrees with
what the boot has fixed. -/
theorem takesEffect_iff (sharded : embedding.Sharded) (some_ : 0 < parts)
    (done : construct embedding checkpoint "file" dir = .ok built) (calls : List (Call embedding))
    (full : event.Full parts) :
    TakesEffect sources ((machine embedding parts).run (boot done) (calls ++ [event])) event ↔
      Agrees sources parts (boot done) calls event := by
  have before := @boot_reached embedding parts _ _ _ sharded done calls
  have after := @boot_reached embedding parts _ _ _ sharded done (calls ++ [event])
  have last : (machine embedding parts).run (boot done) (calls ++ [event]) =
      ((machine embedding parts).run (boot done) calls).call parts event :=
    Machine.run_append ..
  constructor
  · intro effect
    constructor
    · intro skips global inside
      rw [row?, ← after.kept skips]
      exact effect.landed global inside
    · intro source known named global inside
      have listed := effect.named source known ((named_iff done after).mpr named) global inside
      exact Option.some.inj (listed.symm.trans (effect.landed global inside))
  · intro agrees
    have landed : ∀ global, embedding.InWindow global →
        ((machine embedding parts).run (boot done) (calls ++ [event])).row? embedding global =
          some (event.source.row global) := by
      intro global inside
      cases skips : (boot done).load.module.skipLoad with
      | true =>
          rw [row?, after.kept skips]
          exact agrees.kept skips global inside
      | false =>
          rw [last]
          exact call_landed sharded some_ before.size (before.skipLoad.trans skips) full inside
    refine ⟨landed, ?_⟩
    intro source known vouched global inside
    rw [landed global inside, agrees.named source known ((named_iff done after).mp vouched) global inside]

/-- Every load of a run that delivers all shards takes effect exactly when each
of them agrees with what the boot has fixed. -/
theorem loads_takeEffect_iff (sharded : embedding.Sharded) (some_ : 0 < parts)
    (done : construct embedding checkpoint "file" dir = .ok built) (sources : Source embedding → Prop)
    (calls : List (Call embedding)) :
    (∀ before event, before ++ [event] <+: calls → event.Full parts →
        TakesEffect sources ((machine embedding parts).run (boot done) (before ++ [event])) event) ↔
      ∀ before event, before ++ [event] <+: calls → event.Full parts →
        Agrees sources parts (boot done) before event := by
  constructor
  · intro effects before event within full
    exact (takesEffect_iff sharded some_ done before full).mp (effects before event within full)
  · intro agrees before event within full
    exact (takesEffect_iff sharded some_ done before full).mpr (agrees before event within full)

/-- Loads of the boot's own checkpoint agree: it found no sidecar, or one that
an earlier load of that checkpoint left over a table of its rows. -/
theorem agrees_of_boot {source : Source embedding} (faithful : Host.Faithful sources) (known : sources source)
    (done : construct embedding source.checkpoint "file" dir = .ok built)
    (found : dir.sidecar = none ∨ ∃ stats sealedAt, source.checkpoint.fingerprint = .ok stats ∧
      dir.sidecar = some (.ok (.obj (sidecarPayload (source.checkpoint.identity embedding stats) sealedAt))) ∧
      ∀ global, embedding.InWindow global → (boot done).row? embedding global = some (source.row global))
    (calls : List (Call embedding)) (own : event.source.row = source.row) :
    Agrees sources parts (boot done) calls event := by
  obtain ⟨file, _, _, _, directory, _⟩ := construct_file done
  have kept : (boot done).sidecar = dir.sidecar := by
    rw [boot, directory]
  have rows : ∀ {stats : Dict String FileStat} {other : Source embedding}, source.checkpoint.fingerprint = .ok stats →
      sources other → NamedBy (source.checkpoint.identity embedding stats) other.checkpoint → other.row = source.row := by
    intro stats other fingerprint listed named
    obtain ⟨_, current, _, _, found, some_, _, same⟩ := named
    exact faithful other source current stats listed known found fingerprint some_ fun name => (same name).symm
  constructor
  · intro skips global inside
    obtain ⟨_, _, _, _, _, _, _, recorded, _⟩ := (construct_skipLoad_iff done).mp skips
    rcases found with none | ⟨_, _, _, _, landed⟩
    · rw [none] at recorded
      contradiction
    · rw [own]
      exact landed global inside
  · intro other listed named global _
    rw [own]
    rcases named with ⟨_, identity, pending, named⟩ | ⟨_, vouched⟩
    · obtain ⟨stats, fingerprint, rfl⟩ := boot_pending done pending
      exact congrFun (rows fingerprint listed named) global
    · rw [kept] at vouched
      rcases found with none | ⟨stats, sealedAt, fingerprint, sidecar, _⟩
      · obtain ⟨_, _, _, _, _, _, _, recorded, _⟩ := vouched
        rw [none] at recorded
        contradiction
      · rw [sidecar, vouched_payload_iff] at vouched
        exact congrFun (rows fingerprint listed vouched) global

end Boot

def bootSource : Source smallEmbedding := ⟨smallCheckpoint, fun global => [global.toUInt8, 1], fun _ => rfl⟩

def otherSources : Dict String FileStat := ⟨[("model-00001.safetensors", ⟨1, 3, 4096, 7, 8⟩)], List.nodup_singleton _⟩

def otherSource : Source smallEmbedding := ⟨⟨.ok "other", "/models/other", .ok otherSources⟩, fun _ => [9, 9], fun _ => rfl⟩

def OneOfTwo (source : Source smallEmbedding) : Prop := source = bootSource ∨ source = otherSource

/-- Each checkpoint's load, in turn. -/
def bootCall : Call smallEmbedding := ⟨bootSource, [0, 1], sealingIo⟩

def otherCall : Call smallEmbedding := ⟨otherSource, [1, 0], sealingIo⟩

def sealedDir : TableDir where
  table := some [0, 1, 1, 1]
  sidecar := some (.ok (.obj (sidecarPayload (smallCheckpoint.identity smallEmbedding smallSources) "now")))

theorem oneOfTwo_faithful : Host.Faithful OneOfTwo := by
  intro left right leftStats rightStats leftKnown rightKnown leftFound rightFound _ same
  have stat := same "model-00001.safetensors"
  rcases leftKnown with rfl | rfl <;> rcases rightKnown with rfl | rfl
  · rfl
  · cases leftFound
    cases rightFound
    exact absurd stat (by decide)
  · cases leftFound
    cases rightFound
    exact absurd stat (by decide)
  · rfl

theorem loads_takeEffect_iff_twice :
    (∀ before event, before ++ [event] <+: [bootCall, bootCall] → event.Full 2 →
        TakesEffect OneOfTwo ((machine smallEmbedding 2).run
          (boot (show construct smallEmbedding bootSource.checkpoint "file" ⟨none, none⟩ = .ok (_, _) from rfl))
          (before ++ [event])) event) ↔
      ∀ before event, before ++ [event] <+: [bootCall, bootCall] → event.Full 2 →
        Agrees OneOfTwo 2
          (boot (show construct smallEmbedding bootSource.checkpoint "file" ⟨none, none⟩ = .ok (_, _) from rfl))
          before event :=
  loads_takeEffect_iff ⟨by decide, by decide⟩ (by decide) _ OneOfTwo [bootCall, bootCall]

/-- After the boot's load the other checkpoint's shards are delivered, all of
them.  Where the boot found its sidecar they are dropped; where it did not, they
are sealed with the fingerprints of the boot. -/
theorem reload_not_takesEffect : otherCall.Full 2 ∧ Host.Faithful OneOfTwo ∧
    (¬ TakesEffect OneOfTwo ((machine smallEmbedding 2).run
      (boot (show construct smallEmbedding bootSource.checkpoint "file" sealedDir = .ok (_, _) from rfl))
      [bootCall, otherCall]) otherCall) ∧
    ¬ TakesEffect OneOfTwo ((machine smallEmbedding 2).run
      (boot (show construct smallEmbedding bootSource.checkpoint "file" ⟨none, none⟩ = .ok (_, _) from rfl))
      [bootCall, otherCall]) otherCall := by
  have full : otherCall.Full 2 := by
    intro index bound
    have either : index = 0 ∨ index = 1 := by omega
    rcases either with rfl | rfl <;> simp [otherCall]
  have sharded : smallEmbedding.Sharded := ⟨by decide, by decide⟩
  refine ⟨full, oneOfTwo_faithful, ?_, ?_⟩
  · intro effect
    have agrees := (takesEffect_iff sharded (by decide) _ [bootCall] full).mp effect
    have skips : (boot (show construct smallEmbedding bootSource.checkpoint "file" sealedDir = .ok (_, _)
        from rfl)).load.module.skipLoad = true := by
      have vouched : Vouched smallEmbedding bootSource.checkpoint sealedDir.sidecar := vouched_payload_iff.mpr
        ⟨"ckpt", smallSources, rfl, by decide, rfl, by decide, rfl, fun _ => rfl⟩
      exact (@construct_skipLoad_iff smallEmbedding bootSource.checkpoint sealedDir _ rfl).mpr vouched
    have landed := agrees.kept skips 0 (by decide)
    exact absurd landed (by decide)
  · intro effect
    have agrees := (takesEffect_iff sharded (by decide) _ [bootCall] full).mp effect
    have rows := agrees.named bootSource (Or.inl rfl) (Or.inl ⟨⟨[], bootCall, ?_, ?_⟩, _, rfl, ?_⟩) 0 (by decide)
    · exact absurd rows (by decide)
    · exact List.prefix_append [bootCall] [otherCall]
    · exact ⟨⟨Option.some_ne_none _, rfl, Option.some_ne_none _⟩, by decide⟩
    · exact ⟨"ckpt", smallSources, rfl, by decide, rfl, by decide, rfl, fun _ => rfl⟩

end Instance

end FlashNext.Ple
