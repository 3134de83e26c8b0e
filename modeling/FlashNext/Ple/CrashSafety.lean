import FlashNext.Ple.Copies
import FlashNext.Ple.MissingTable

namespace FlashNext.Ple

open FlashNext.Data

namespace Host

variable {embedding : Embedding} {parts : Nat} {sources : Source embedding → Prop}
  {host next : Host embedding} {loader : Loader embedding} {source : Source embedding}

/-- A sidecar that was written for a known checkpoint. -/
def Names (sources : Source embedding → Prop) (file : SidecarFile) (source : Source embedding) : Prop :=
  sources source ∧ ∃ stats sealedAt, source.checkpoint.fingerprint = .ok stats ∧
    file = some (.ok (.obj (sidecarPayload (source.checkpoint.identity embedding stats) sealedAt)))

def Kept (host : Host embedding) (row : Nat → Row) : Prop :=
  ∃ bytes, host.table = some bytes ∧ Holds embedding bytes row ∧ Holds embedding host.durable row

/-- A sidecar tells the truth, unless its table is just being replaced. -/
def Backed (sources : Source embedding → Prop) (host : Host embedding) (file : SidecarFile) : Prop :=
  ∃ source, Names sources file source ∧ (¬ host.Exposed → host.Kept source.row)

theorem Backed.move {file : SidecarFile} (backed : Backed sources host file)
    (kept : ∀ row, ¬ next.Exposed → (¬ host.Exposed → host.Kept row) → next.Kept row) :
    Backed sources next file := by
  obtain ⟨source, names, truth⟩ := backed
  exact ⟨source, names, fun unexposed => kept source.row unexposed truth⟩

structure Loading (sources : Source embedding → Prop) (parts : Nat) (host : Host embedding)
    (loader : Loader embedding) : Prop where
  known : sources loader.source
  mapped : host.table ≠ none
  skipped : loader.skipLoad = true →
    loader.pending = none ∧ loader.phase = .loading ∧ loader.wrote = false ∧
      ∃ bytes, host.table = some bytes ∧ Holds embedding bytes loader.source.row
  landed : loader.skipLoad = false → ∀ bytes, host.table = some bytes →
    Landed parts loader.source loader.delivered bytes
  pending : ∀ identity, loader.pending = some identity →
    ∃ stats, loader.source.checkpoint.fingerprint = .ok stats ∧
      identity = loader.source.checkpoint.identity embedding stats
  fresh : loader.stale = false → loader.phase ∈ [Phase.loading, .synced, .written] → host.sidecar = none
  synced : loader.phase ≠ .loading → loader.pending ≠ none ∧
    ∃ bytes, host.table = some bytes ∧ Holds embedding bytes loader.source.row ∧ host.durable = bytes

structure Inv (sources : Source embedding → Prop) (parts : Nat) (host : Host embedding) : Prop where
  sized : ∀ bytes, host.table = some bytes →
    bytes.length = embedding.nbytes ∧ host.durable.length = embedding.nbytes
  linked : host.linked = true → host.table ≠ none
  sidecar : host.sidecar ≠ none → Backed sources host host.sidecar
  durable : host.durableSidecar ≠ none → host.sidecar ≠ none ∧ host.linked = true
  boot : ∀ loader, host.boot = some loader → Loading sources parts host loader

theorem empty_inv : Inv sources parts (empty : Host embedding) where
  sized := by simp [empty]
  linked := by simp [empty]
  sidecar := by simp [empty]
  durable := by simp [empty]
  boot := by simp [empty]

theorem unexposed_of_idle (idle : host.boot = none) : ¬ host.Exposed := by
  intro holds
  obtain ⟨loader, running, _⟩ := holds
  rw [idle] at running
  contradiction

theorem kill_inv (inv : Inv sources parts host) (uncut : ¬ host.Exposed) :
    Inv sources parts { host with boot := none } :=
  { inv with
    sidecar := fun present => (inv.sidecar present).move fun _ _ truth => truth uncut
    boot := by simp }

theorem Inv.durableLength (inv : Inv sources parts host) (linked : host.linked = true) :
    host.durable.length = embedding.nbytes := by
  obtain ⟨bytes, present⟩ := Option.ne_none_iff_exists'.mp (inv.linked linked)
  exact (inv.sized bytes present).2

theorem Inv.mapped (inv : Inv sources parts host) (present : host.sidecar ≠ none) : host.table ≠ none := by
  by_cases exposed : host.Exposed
  · obtain ⟨loader, running, _⟩ := exposed
    exact (inv.boot loader running).mapped
  · obtain ⟨source, _, truth⟩ := inv.sidecar present
    obtain ⟨bytes, table, _⟩ := truth exposed
    simp [table]

theorem powerLoss_inv (inv : Inv sources parts host) (uncut : ¬ host.Exposed) (committed : host.Committed) :
    Inv sources parts host.powerLoss := by
  have onMedium : host.linked = true → host.powerLoss.table = some host.durable := fun linked => if_pos linked
  refine { sized := ?_, linked := ?_, sidecar := ?_, durable := ?_, boot := by simp [powerLoss] }
  · intro bytes present
    cases linked : host.linked with
    | false => simp [powerLoss, linked] at present
    | true =>
        rw [onMedium linked] at present
        cases present
        exact ⟨inv.durableLength linked, inv.durableLength linked⟩
  · intro linked
    simp [onMedium linked]
  · intro present
    obtain ⟨there, linked⟩ := inv.durable present
    rcases committed with none_ | same
    · exact absurd none_ present
    · have backed : Backed sources host.powerLoss host.sidecar := by
        refine (inv.sidecar there).move fun row _ truth => ?_
        obtain ⟨bytes, _, _, durable⟩ := truth uncut
        exact ⟨host.durable, onMedium linked, durable, durable⟩
      rw [← same] at backed
      exact backed
  · exact fun present => ⟨present, (inv.durable present).2⟩

theorem commitDir_inv (inv : Inv sources parts host) : Inv sources parts host.commitDir where
  sized := inv.sized
  linked := Option.isSome_iff_ne_none.mp
  sidecar := inv.sidecar
  durable := fun present => ⟨present, Option.isSome_iff_ne_none.mpr (inv.mapped present)⟩
  boot := fun loader running => { inv.boot loader running with }

theorem writeback_inv {bytes : List UInt8} (inv : Inv sources parts host)
    (mixed : ∀ table ∈ host.table, Between table host.durable bytes) :
    Inv sources parts { host with durable := bytes } := by
  have kept : ∀ row, host.Kept row → Kept { host with durable := bytes } row := by
    intro row truth
    obtain ⟨table, present, holds, durable⟩ := truth
    exact ⟨table, present, holds, (mixed table present).holds holds durable⟩
  refine { inv with sized := ?_, sidecar := ?_, boot := ?_ }
  · intro table present
    exact ⟨(inv.sized table present).1, (mixed table present).length.trans (inv.sized table present).1⟩
  · exact fun present => (inv.sidecar present).move fun row unexposed truth => kept row (truth unexposed)
  · intro loader running
    have loading := inv.boot loader running
    refine { loading with synced := fun busy => ?_ }
    obtain ⟨pending, table, present, holds, durable⟩ := loading.synced busy
    have same := mixed table present
    rw [durable] at same
    exact ⟨pending, table, present, holds, same.eq⟩

theorem start_spec (source : Source embedding) (host : Host embedding) :
    host.start source = { host with boot := none } ∨
      ∃ file skipLoad pending, file.length = embedding.nbytes ∧
        (fileSize host.table = some embedding.nbytes → host.table = some file) ∧
        (skipLoad = true → pending = none ∧ Vouched embedding source.checkpoint host.sidecar) ∧
        (∀ identity, pending = some identity → ∃ stats, source.checkpoint.fingerprint = .ok stats ∧
          identity = source.checkpoint.identity embedding stats) ∧
        host.start source = { host with
          table := some file
          durable := if fileSize host.table = some embedding.nbytes then host.durable
            else List.replicate embedding.nbytes 0
          linked := host.linked && host.table.isSome
          boot := some ⟨source, skipLoad, pending, 0, .loading, [], host.sidecar.isSome, false⟩ } := by
  unfold start
  cases built : construct embedding source.checkpoint "file" ⟨host.table, host.sidecar⟩ with
  | error error => exact Or.inl rfl
  | ok result =>
      obtain ⟨dir, module⟩ := result
      obtain ⟨file, size, kept, _, directory, leaves⟩ := construct_file built
      have trusted := construct_skipLoad_iff built
      simp only at directory leaves trusted
      subst directory
      refine Or.inr ⟨file, module.skipLoad, module.pending, size, kept, ?_, ?_, ?_⟩
      · intro skipped
        refine ⟨?_, trusted.mp skipped⟩
        cases pending : module.pending with
        | none => rfl
        | some identity =>
            rw [leaves] at pending skipped
            rw [(skipIfValid_pending pending).1] at skipped
            contradiction
      · intro identity pending
        rw [leaves] at pending
        exact (skipIfValid_pending pending).2
      · simp [leaves]

theorem Names.row_eq {file : SidecarFile} {named : Source embedding} (names : Names sources file named)
    (faithful : Faithful sources) (known : sources source)
    (vouched : Vouched embedding source.checkpoint file) : named.row = source.row := by
  obtain ⟨namedKnown, namedStats, sealedAt, fingerprint, content⟩ := names
  obtain ⟨_, stats, fields, _, _, found, nonempty, loaded, records⟩ := vouched
  rw [content, Option.some.injEq, Except.ok.injEq, Json.obj.injEq] at loaded
  subst loaded
  obtain ⟨_, _, _, _, same⟩ := records_payload_iff.mp records
  exact (faithful source named stats namedStats known namedKnown found fingerprint nonempty
    fun name => (same name).symm).symm

/-- A boot starts: the table a sidecar vouches for has the expected size and is
left alone. -/
theorem start_inv (faithful : Faithful sources) (inv : Inv sources parts host) (uncut : ¬ host.Exposed)
    (known : sources source) : Inv sources parts (host.start source) := by
  rcases start_spec source host with failed | ⟨file, skipLoad, pending, size, kept, skipped, from_, started⟩
  · rw [failed]
    exact kill_inv inv uncut
  · rw [started]
    have stays : ∀ row, host.Kept row → host.table = some file ∧ fileSize host.table = some embedding.nbytes := by
      intro row truth
      obtain ⟨bytes, present, holds, _⟩ := truth
      have fits : fileSize host.table = some embedding.nbytes := by simp [present, fileSize, holds.length]
      exact ⟨kept fits, fits⟩
    have moved : ∀ {content}, Backed sources host content → Backed sources (host.start source) content := by
      intro content backed
      refine backed.move fun row _ truth => ?_
      obtain ⟨same, fits⟩ := stays row (truth uncut)
      obtain ⟨bytes, present, holds, durable⟩ := truth uncut
      rw [started]
      refine ⟨bytes, ?_, holds, ?_⟩
      · exact same.symm.trans present
      · simpa [fits] using durable
    rw [started] at moved
    refine { sized := ?_, linked := by simp, sidecar := fun present => moved (inv.sidecar present),
             durable := ?_, boot := ?_ }
    · intro bytes present
      cases present
      refine ⟨size, ?_⟩
      dsimp only
      split
      · rename_i fits
        exact (inv.sized file (kept fits)).2
      · exact List.length_replicate
    · intro present
      obtain ⟨there, linked⟩ := inv.durable present
      refine ⟨there, ?_⟩
      simp [linked, Option.isSome_iff_ne_none.mpr (inv.linked linked)]
    · intro loader running
      cases running
      refine { known := known, mapped := by simp, skipped := ?_, landed := ?_, pending := from_, fresh := ?_,
               synced := by simp }
      · intro trusts
        obtain ⟨nothing, vouched⟩ := skipped trusts
        refine ⟨nothing, rfl, rfl, file, rfl, ?_⟩
        have present : host.sidecar ≠ none := by
          obtain ⟨_, _, _, _, _, _, _, content, _⟩ := vouched
          simp [content]
        obtain ⟨named, names, truth⟩ := inv.sidecar present
        obtain ⟨same, _⟩ := stays named.row (truth uncut)
        obtain ⟨bytes, table, holds, _⟩ := truth uncut
        rw [same, Option.some.injEq] at table
        rw [table, ← names.row_eq faithful known vouched]
        exact holds
      · simp [Landed]
      · intro noSidecar _
        simpa using noSidecar

theorem Inv.stale_of_sidecar (inv : Inv sources parts host) (running : host.boot = some loader)
    (phase : loader.phase = .loading) (present : host.sidecar ≠ none) : loader.stale = true := by
  by_contra fresh
  rw [Bool.not_eq_true] at fresh
  exact present ((inv.boot loader running).fresh fresh (by simp [phase]))

theorem Inv.untouched (inv : Inv sources parts host) (running : host.boot = some loader)
    (phase : loader.phase = .loading) (present : host.sidecar ≠ none) {index : Nat}
    (unexposed : ¬ (loader.stale = true ∧ (loader.wrote || overlaps embedding parts index) = true)) :
    overlaps embedding parts index = false ∧ ¬ host.Exposed := by
  have stale := inv.stale_of_sidecar running phase present
  have nothing : (loader.wrote || overlaps embedding parts index) = false := by
    rw [← Bool.not_eq_true]
    exact fun wrote => unexposed ⟨stale, wrote⟩
  obtain ⟨untouched, apart⟩ := Bool.or_eq_false_iff.mp nothing
  refine ⟨apart, ?_⟩
  intro holds
  obtain ⟨other, same, _, wrote, _⟩ := holds
  rw [running] at same
  rw [← Option.some.inj same, untouched] at wrote
  contradiction

theorem deliver_inv (sharded : embedding.Sharded) (inv : Inv sources parts host) (index : Nat) :
    Inv sources parts (host.deliver parts index) := by
  unfold deliver
  cases running : host.boot with
  | none => exact inv
  | some loader =>
      cases present : host.table with
      | none => exact inv
      | some bytes =>
          dsimp only
          split
          · exact inv
          · rename_i active
            obtain ⟨phase, loads⟩ : loader.phase = .loading ∧ loader.skipLoad = false := by
              simpa using active
            obtain ⟨full, durableFull⟩ := inv.sized bytes present
            have loading := inv.boot loader running
            have kept : host.sidecar ≠ none → Backed sources
                { host with
                  table := some (copied parts loader.source index bytes)
                  boot := some { loader with
                    rowsWritten := loader.rowsWritten + (shardOf embedding parts loader.source.row index).rows.length
                    delivered := index :: loader.delivered
                    wrote := loader.wrote || overlaps embedding parts index } } host.sidecar := by
              intro there
              refine (inv.sidecar there).move fun row unexposed truth => ?_
              obtain ⟨apart, before⟩ := inv.untouched running phase there
                (fun both => unexposed ⟨_, rfl, both.1, both.2, by simp [phase]⟩)
              obtain ⟨table, tableIs, holds, durable⟩ := truth before
              rw [present] at tableIs
              cases tableIs
              exact ⟨bytes, by simp [copied_outside full apart], holds, durable⟩
            refine { sized := ?_, linked := by simp, sidecar := kept, durable := inv.durable, boot := ?_ }
            · intro table same
              cases same
              exact ⟨copied_length sharded full index, durableFull⟩
            · intro other same
              cases same
              refine { loading with mapped := by simp, skipped := ?_, landed := ?_, synced := ?_ }
              · simp [loads]
              · intro _ table same
                cases same
                exact (loading.landed loads bytes present).copied sharded full index
              · exact fun busy => absurd phase busy

theorem tear_inv {index : Nat} {bytes : List UInt8} (inv : Inv sources parts host)
    (mixed : ∀ old ∈ host.table, ∀ new ∈ (host.deliver parts index).table, Between old new bytes)
    (uncut : ¬ (host.deliver parts index).Exposed) : Inv sources parts (host.tear bytes) := by
  unfold tear
  unfold deliver at mixed uncut
  cases running : host.boot with
  | none => exact kill_inv inv (unexposed_of_idle running)
  | some loader =>
      cases present : host.table with
      | none =>
          rw [running, present] at uncut
          simpa only [present] using kill_inv inv uncut
      | some old =>
          rw [running, present] at mixed uncut
          dsimp only at mixed uncut ⊢
          split
          · rename_i passive
            rw [if_pos passive] at uncut
            simpa only [present] using kill_inv inv uncut
          · rename_i active
            rw [if_neg active] at mixed uncut
            obtain ⟨phase, loads⟩ : loader.phase = .loading ∧ loader.skipLoad = false := by
              simpa using active
            obtain ⟨full, durableFull⟩ := inv.sized old present
            have between := mixed old rfl _ rfl
            have same : host.sidecar ≠ none → bytes = old ∧ ¬ host.Exposed := by
              intro there
              obtain ⟨apart, before⟩ := inv.untouched running phase there
                (fun both => uncut ⟨_, rfl, both.1, both.2, by simp [phase]⟩)
              rw [copied_outside full apart] at between
              exact ⟨between.eq, before⟩
            have kept : host.sidecar ≠ none →
                Backed sources { host with table := some bytes, boot := none } host.sidecar := by
              intro there
              obtain ⟨unchanged, before⟩ := same there
              refine (inv.sidecar there).move fun row _ truth => ?_
              obtain ⟨table, tableIs, holds, durable⟩ := truth before
              rw [present] at tableIs
              cases tableIs
              exact ⟨old, by rw [unchanged], holds, durable⟩
            refine { sized := ?_, linked := by simp, sidecar := kept, durable := inv.durable, boot := by simp }
            intro table isBytes
            cases isBytes
            exact ⟨between.length.trans full, durableFull⟩

theorem Backed.advance {file : SidecarFile} {phase : Phase} (backed : Backed sources host file)
    (running : host.boot = some loader) (early : phase ∈ [Phase.loading, .synced, .written])
    (kept : ∀ row, host.Kept row → next.Kept row)
    (boot : next.boot = some { loader with phase := phase }) : Backed sources next file := by
  refine backed.move fun row unexposed truth => kept row (truth ?_)
  intro holds
  obtain ⟨other, same, stale, wrote, _⟩ := holds
  rw [running] at same
  cases same
  exact unexposed ⟨_, boot, stale, wrote, early⟩

theorem msync_inv (sharded : embedding.Sharded) (some_ : 0 < parts) (inv : Inv sources parts host)
    (complete : Lawful sources parts host .msync) : Inv sources parts host.msync := by
  unfold msync
  cases running : host.boot with
  | none => exact inv
  | some loader =>
      dsimp only
      split
      · rename_i gate
        obtain ⟨phase, pending, full⟩ := gate
        have loading := inv.boot loader running
        have loads : loader.skipLoad = false := by
          rw [← Bool.not_eq_true]
          exact fun skips => pending (loading.skipped skips).1
        obtain ⟨bytes, present⟩ := Option.ne_none_iff_exists'.mp loading.mapped
        have size := (inv.sized bytes present).1
        have holds := (loading.landed loads bytes present).holds sharded some_ size
          (complete loader running loads full)
        have synced : host.table.getD [] = bytes := by simp [present]
        have kept : ∀ row, host.Kept row → Kept { host with
            durable := host.table.getD []
            boot := some { loader with phase := .synced } } row := by
          intro row truth
          obtain ⟨table, tableIs, tableHolds, _⟩ := truth
          exact ⟨table, tableIs, tableHolds, by simpa [tableIs] using tableHolds⟩
        refine { inv with sized := ?_, sidecar := ?_, boot := ?_ }
        · intro table tableIs
          rw [synced]
          exact ⟨(inv.sized table tableIs).1, size⟩
        · exact fun there => (inv.sidecar there).advance running (by simp) kept rfl
        · intro other same
          cases same
          refine { loading with skipped := by simp [loads], fresh := ?_, synced := ?_ }
          · exact fun fresh _ => loading.fresh fresh (by simp [phase])
          · exact fun _ => ⟨pending, bytes, present, holds, synced⟩
      · exact inv

theorem writeTmp_inv (inv : Inv sources parts host) : Inv sources parts host.writeTmp := by
  unfold writeTmp
  cases running : host.boot with
  | none => exact inv
  | some loader =>
      dsimp only
      split
      · rename_i phase
        have loading := inv.boot loader running
        refine { inv with sidecar := ?_, boot := ?_ }
        · exact fun there => (inv.sidecar there).advance running (by simp) (fun _ kept => kept) rfl
        · intro other same
          cases same
          refine { loading with skipped := ?_, fresh := ?_, synced := ?_ }
          · intro skips
            rw [(loading.skipped skips).2.1] at phase
            contradiction
          · exact fun fresh _ => loading.fresh fresh (by simp [phase])
          · exact fun _ => loading.synced (by simp [phase])
      · exact inv

theorem rename_inv (inv : Inv sources parts host) (sealedAt : String) :
    Inv sources parts (host.rename sealedAt) := by
  unfold rename
  cases running : host.boot with
  | none => exact inv
  | some loader =>
      dsimp only
      split
      · rename_i identity phase pending
        have loading := inv.boot loader running
        obtain ⟨stats, fingerprint, rfl⟩ := loading.pending identity pending
        obtain ⟨_, bytes, present, holds, durable⟩ := loading.synced (by simp [phase])
        have names : Names sources (some (.ok (.obj (sidecarPayload
            (loader.source.checkpoint.identity embedding stats) sealedAt)))) loader.source :=
          ⟨loading.known, stats, sealedAt, fingerprint, rfl⟩
        refine { inv with sidecar := ?_, durable := ?_, boot := ?_ }
        · exact fun _ => ⟨loader.source, names, fun _ => ⟨bytes, present, holds, durable ▸ holds⟩⟩
        · exact fun there => ⟨by simp, (inv.durable there).2⟩
        · intro other same
          cases same
          refine { loading with skipped := ?_, fresh := by simp, synced := ?_ }
          · intro skips
            rw [(loading.skipped skips).2.1] at phase
            contradiction
          · exact fun _ => loading.synced (by simp [phase])
      · exact inv

theorem fsyncDir_inv (inv : Inv sources parts host) : Inv sources parts host.fsyncDir := by
  unfold fsyncDir
  cases running : host.boot with
  | none => exact inv
  | some loader =>
      dsimp only
      split
      · rename_i phase
        have committed := commitDir_inv inv
        have loading := inv.boot loader running
        refine { committed with sidecar := ?_, boot := ?_ }
        · refine fun there => (inv.sidecar there).move fun _ _ truth => truth ?_
          intro holds
          obtain ⟨other, same, _, _, early⟩ := holds
          rw [running] at same
          rw [← Option.some.inj same, phase] at early
          simp at early
        · intro other same
          cases same
          refine { loading with skipped := ?_, fresh := by simp, synced := ?_ }
          · intro skips
            rw [(loading.skipped skips).2.1] at phase
            contradiction
          · exact fun _ => loading.synced (by simp [phase])
      · exact inv

theorem step_inv (sharded : embedding.Sharded) (some_ : 0 < parts) (faithful : Faithful sources)
    {event : Event embedding} (inv : Inv sources parts host) (lawful : Lawful sources parts host event)
    (uncut : Uncut parts host event) : Inv sources parts (host.step parts event) := by
  cases event with
  | start source => exact start_inv faithful inv uncut lawful
  | deliver index => exact deliver_inv sharded inv index
  | tear index bytes => exact tear_inv inv lawful.2 uncut
  | msync => exact msync_inv sharded some_ inv lawful
  | writeTmp => exact writeTmp_inv inv
  | rename sealedAt => exact rename_inv inv sealedAt
  | fsyncDir => exact fsyncDir_inv inv
  | writeback bytes => exact writeback_inv inv lawful
  | commitDir => exact commitDir_inv inv
  | kill => exact kill_inv inv uncut
  | powerLoss => exact powerLoss_inv inv uncut.1 uncut.2

/-- In every run from an empty directory in which no boot is cut off while it
overwrites a table under an old sidecar, a boot that skips loading runs over
exactly its checkpoint's rows. -/
theorem skip_safe (sharded : embedding.Sharded) (some_ : 0 < parts) (faithful : Faithful sources)
    (events : List (Event embedding))
    (lawful : (machine embedding parts).Meets (Lawful sources parts) empty events)
    (uncut : (machine embedding parts).Meets (Uncut parts) empty events) :
    ∀ host ∈ (machine embedding parts).visited empty events, ∀ loader ∈ host.boot, loader.skipLoad = true →
      ∃ bytes, host.table = some bytes ∧ Holds embedding bytes loader.source.row := by
  have invariant := @Machine.visited_safe _ _ (machine embedding parts)
    (fun host event => Lawful sources parts host event ∧ Uncut parts host event)
    (Inv sources parts) (Inv sources parts)
    (fun _ _ inv guarded => step_inv sharded some_ faithful inv guarded.1 guarded.2)
    (by intro _ _ _ _ _ member; cases member) (fun _ inv => inv) _ _ empty_inv (lawful.and uncut)
  intro host member loader running skips
  exact (((invariant host member).boot loader running).skipped skips).2.2.2

def oldSource : Source smallEmbedding where
  checkpoint := smallCheckpoint
  row := fun global => if global = 0 then [1, 1] else [2, 2]
  sized := by
    intro global
    split <;> rfl

def newSource : Source smallEmbedding where
  checkpoint := ⟨.ok "ckpt-b", "/models/ckpt-b", .ok ⟨[("model-00001.safetensors", ⟨1, 7, 4096, 8, 9⟩)], by decide⟩⟩
  row := fun global => if global = 0 then [3, 3] else [4, 4]
  sized := by
    intro global
    split <;> rfl

def twoSources (source : Source smallEmbedding) : Prop := source = oldSource ∨ source = newSource

theorem twoSources_faithful : Faithful twoSources := by
  intro left right leftStats rightStats leftKnown rightKnown leftFound rightFound _ same
  rcases leftKnown with rfl | rfl
  · rcases rightKnown with rfl | rfl
    · rfl
    · cases leftFound
      cases rightFound
      exact absurd (same "model-00001.safetensors") (by decide)
  · rcases rightKnown with rfl | rfl
    · cases leftFound
      cases rightFound
      exact absurd (same "model-00001.safetensors") (by decide)
    · rfl

/-- The old checkpoint is sealed; the new one's boot is killed before its first
copy and then goes through; power is lost twice. -/
def switchEvents : List (Event smallEmbedding) :=
  [.start oldSource, .deliver 0, .powerLoss, .start oldSource, .deliver 1, .deliver 0, .msync, .writeTmp,
    .rename "", .fsyncDir, .start newSource, .kill, .start newSource, .deliver 0, .deliver 1, .msync, .writeTmp,
    .rename "", .fsyncDir, .powerLoss, .start newSource]

theorem skip_safe_switch :
    ∃ loader, ((machine smallEmbedding 2).run empty switchEvents).boot = some loader ∧ loader.skipLoad = true ∧
      ∃ bytes, ((machine smallEmbedding 2).run empty switchEvents).table = some bytes ∧
        Holds smallEmbedding bytes loader.source.row := by
  have lawful : (machine smallEmbedding 2).Meets (Lawful twoSources 2) empty switchEvents := by
    refine ⟨Or.inl rfl, Nat.zero_lt_two, trivial, Or.inl rfl, Nat.one_lt_two, Nat.zero_lt_two, ?_, trivial,
      trivial, trivial, Or.inr rfl, trivial, Or.inr rfl, Nat.zero_lt_two, Nat.one_lt_two, ?_, trivial, trivial,
      trivial, trivial, Or.inr rfl, trivial⟩
    · intro loader running _ _ index bound
      have delivered : loader.delivered = [0, 1] := by
        cases running
        rfl
      rw [delivered, List.mem_cons, List.mem_singleton]
      omega
    · intro loader running _ _ index bound
      have delivered : loader.delivered = [1, 0] := by
        cases running
        rfl
      rw [delivered, List.mem_cons, List.mem_singleton]
      omega
  have uncut : (machine smallEmbedding 2).Meets (Uncut 2) empty switchEvents := by
    refine ⟨?_, trivial, ⟨?_, Or.inl rfl⟩, ?_, trivial, trivial, trivial, trivial, trivial, trivial, ?_, ?_, ?_,
      trivial, trivial, trivial, trivial, trivial, trivial, ⟨?_, Or.inr rfl⟩, ?_, trivial⟩
    all_goals
      change ¬ Exposed _
      decide +kernel
  obtain ⟨loader, running, skips⟩ : ∃ loader, ((machine smallEmbedding 2).run empty switchEvents).boot =
      some loader ∧ loader.skipLoad = true := ⟨_, rfl, by decide +kernel⟩
  exact ⟨loader, running, skips, skip_safe ⟨by decide, by decide⟩ (by decide) twoSources_faithful switchEvents
    lawful uncut _ (Machine.run_mem_visited ..) loader running skips⟩

/-- The old checkpoint is sealed, the new one's boot dies after one shard, and
the old one is booted again. -/
def cutOffEvents : List (Event smallEmbedding) :=
  [.start oldSource, .deliver 0, .deliver 1, .msync, .writeTmp, .rename "", .fsyncDir,
    .start newSource, .deliver 0, .kill, .start oldSource]

/-- The old sidecar, left in place, vouches for a row of the new checkpoint. -/
theorem cut_off_boot_unsafe :
    ¬ ∀ (embedding : Embedding) (parts : Nat) (sources : Source embedding → Prop) (events : List (Event embedding)),
      embedding.Sharded → 0 < parts → Faithful sources →
      (machine embedding parts).Meets (Lawful sources parts) empty events →
      ∀ host ∈ (machine embedding parts).visited empty events, ∀ loader ∈ host.boot, loader.skipLoad = true →
        ∃ bytes, host.table = some bytes ∧ Holds embedding bytes loader.source.row := by
  intro safe
  have lawful : (machine smallEmbedding 2).Meets (Lawful twoSources 2) empty cutOffEvents := by
    refine ⟨Or.inl rfl, Nat.zero_lt_two, Nat.one_lt_two, ?_, trivial, trivial, trivial, Or.inr rfl,
      Nat.zero_lt_two, trivial, Or.inl rfl, trivial⟩
    intro loader running _ _ index bound
    have delivered : loader.delivered = [1, 0] := by
      cases running
      rfl
    rw [delivered, List.mem_cons, List.mem_singleton]
    omega
  obtain ⟨loader, running, skips, source⟩ : ∃ loader, ((machine smallEmbedding 2).run empty cutOffEvents).boot =
      some loader ∧ loader.skipLoad = true ∧ loader.source = oldSource := ⟨_, rfl, by decide +kernel, rfl⟩
  obtain ⟨bytes, table, holds⟩ := safe smallEmbedding 2 twoSources cutOffEvents ⟨by decide, by decide⟩ (by decide)
    twoSources_faithful lawful _ (Machine.run_mem_visited ..) loader running skips
  have wrong : ((machine smallEmbedding 2).run empty cutOffEvents).table = some [3, 3, 2, 2] := by decide +kernel
  rw [wrong, Option.some.injEq] at table
  have first := holds.rows 0 (by decide)
  rw [source, ← table] at first
  exact absurd first (by decide)

end Host

end FlashNext.Ple
