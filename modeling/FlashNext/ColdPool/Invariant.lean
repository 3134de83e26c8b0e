import FlashNext.ColdPool.Staging
import FlashNext.Data.Placement

namespace FlashNext.ColdPool

open FlashNext.Data

/-! `original` is the module as it was before the shrink.  A layer's tables are a
placement of global expert ids in physical rows; the invariant says that the
placement is faithful and which rows may be handed out. -/

/-- The whitelisted tensors that had one row per expert. -/
def expertNames (original : Module) (experts : Nat) : List String :=
  allParams.filter fun name => (original.rows? name).any fun rows => rows.length = experts

def placement (tables : Tables) (layer gid : Nat) : Option Nat :=
  if tables.Routable layer gid then tables.remapAt layer gid else none

/-- A keep expert on its own keep row, which nobody may hand out. -/
def Pinned (pool : Pool) (gid row : Nat) : Prop :=
  pool.keep[row]? = some gid ∧ row ∉ pool.freeRows ∧ row ∉ pool.rowTick.keys ∧ row ∉ pool.rowGid.keys

/-- Host rows that are the expert's original bytes, for every tensor object
that holds expert rows. -/
structure HostCopy (original : Module) (names : List String) (gid : Nat) (entries : List (String × Row)) :
    Prop where
  bytes : ∀ entry ∈ entries, entry.1 ∈ names → original.rowAt entry.1 gid = some entry.2
  complete : ∀ name ∈ names, ∃ entry ∈ entries, entry.1 ∈ names ∧ original.obj? entry.1 = original.obj? name

/-- Host rows of an expert that may be staged: they name nothing else. -/
structure HostRows (original : Module) (names : List String) (gid : Nat) (entries : List (String × Row)) :
    Prop extends HostCopy original names gid entries where
  nonempty : entries ≠ []
  listed : ∀ entry ∈ entries, entry.1 ∈ names

/-- What no operation of a layer changes. -/
structure PoolStatic (original : Module) (pool : Pool) : Prop where
  keepLen : pool.keepLen = pool.keep.length
  phys : pool.phys = pool.keepLen + pool.slots
  cold : ∀ gid, gid ∈ pool.cold ↔ gid < pool.experts ∧ gid ∉ pool.keep
  coldIds : pool.coldIdsGpu = pool.cold
  coldMask : ∀ gid ∈ pool.cold, pool.coldMaskGpu[gid]? = some true
  keepIds : pool.keepIdsGpu = pool.keep
  keepBound : ∀ gid ∈ pool.keep, gid < pool.experts
  weight : ∃ rows, original.rows? "w13_weight" = some rows ∧ rows.length = pool.experts
  several : 0 < pool.experts

/-- What the router and the expert kernels rely on: uniform bias columns, a
remap for every expert, and a faithful placement inside the shrunk tensors. -/
structure Served (original : Module) (tables : Tables) (layer experts phys : Nat) (module : Module) :
    Prop where
  attrs : module.attrs = original.attrs
  shape : ∀ name ∈ expertNames original experts, (module.rows? name).map List.length = some phys
  columns : ∀ gid < experts, ∀ dtype ∈ buildDtypes,
    tables.biasAt layer dtype gid = some (if tables.Routable layer gid then 0 else finfoMin dtype)
  remapped : ∀ gid < experts, ∃ row, tables.remapAt layer gid = some row ∧
    (¬ tables.Routable layer gid → row = 0)
  width : ∀ gid, tables.Routable layer gid → gid < experts
  faithful : Faithful (placement tables layer) (module.contents (expertNames original experts))
    (original.contents (expertNames original experts))
  bounded : ∀ gid row, placement tables layer gid = some row → row < phys
  device : ∀ table, tables.remap.get? layer = some table → table.device = original.device

structure LayerInv (original : Module) (tables : Tables) (pool : Pool) (module : Module) : Prop where
  static : PoolStatic original pool
  served : Served original tables pool.layerId pool.experts pool.phys module
  owned : ∀ gid row, placement tables pool.layerId gid = some row →
    pool.gidRow.get? gid = some row ∨ Pinned pool gid row
  resident : ∀ gid row, pool.gidRow.get? gid = some row →
    gid ∈ pool.cold ∧ placement tables pool.layerId gid = some row ∧ pool.rowGid.get? row = some gid
  owner : ∀ row gid, pool.rowGid.get? row = some gid → pool.gidRow.get? gid = some row
  freeDistinct : pool.freeRows.Nodup
  free : ∀ row ∈ pool.freeRows, row < pool.phys ∧ row ∉ pool.rowGid.keys
  ticked : ∀ row ∈ pool.rowTick.keys, row < pool.phys
  live : ∀ gid row, placement tables pool.layerId gid = some row →
    pool.rowTick.get? row ≠ some neverSeen
  host : ∀ gid ∈ pool.cold, ∃ rows, pool.host.get? gid = some rows ∧
    HostRows original (expertNames original pool.experts) gid rows.entries
  hostCopy : ∀ gid rows, pool.host.get? gid = some rows →
    HostCopy original (expertNames original pool.experts) gid rows.entries

structure InFlight (tables : Tables) (pool : Pool) (row : Nat) : Prop where
  bound : row < pool.phys
  notFree : row ∉ pool.freeRows
  unowned : row ∉ pool.rowGid.keys
  vacant : Vacant (placement tables pool.layerId) row

theorem placement_eq_some {tables : Tables} {layer gid row : Nat} :
    placement tables layer gid = some row ↔
      tables.Routable layer gid ∧ tables.remapAt layer gid = some row := by
  simp [placement]

theorem not_routable_mask (tables : Tables) (layer gid : Nat) :
    ¬ (mask tables layer gid).Routable layer gid := by
  simp only [Tables.Routable, biasAt_mask, and_self, if_true]
  cases tables.biasAt layer .bfloat16 gid with
  | none => simp
  | some entry => simpa using finfoMin_ne_zero .bfloat16

theorem routable_mask_iff {tables : Tables} {layer gid other : Nat} :
    (mask tables layer gid).Routable layer other ↔ other ≠ gid ∧ tables.Routable layer other := by
  by_cases same : other = gid
  · subst same
    simp [not_routable_mask]
  · simp [Tables.Routable, same]

theorem placement_mask (tables : Tables) (layer gid other : Nat) :
    placement (mask tables layer gid) layer other =
      if other = gid then none else placement tables layer other := by
  simp only [placement, routable_mask_iff, remapAt_mask]
  by_cases same : other = gid <;> simp [same]

theorem placement_of_mask {tables : Tables} {layer gid other row : Nat}
    (placed : placement (mask tables layer gid) layer other = some row) :
    other ≠ gid ∧ placement tables layer other = some row := by
  rw [placement_mask] at placed
  split at placed
  · contradiction
  · next different => exact ⟨different, placed⟩

theorem routable_unmask_iff {tables : Tables} {layer gid row other : Nat}
    {value : Int} (column : tables.biasAt layer .bfloat16 gid = some value) :
    (unmask tables layer gid row).Routable layer other ↔ other = gid ∨ tables.Routable layer other := by
  by_cases same : other = gid
  · subst same
    simp [Tables.Routable, column]
  · simp [Tables.Routable, same]

theorem placement_unmask {tables : Tables} {layer gid old : Nat} {value : Int} (row : Nat)
    (column : tables.biasAt layer .bfloat16 gid = some value)
    (mapped : tables.remapAt layer gid = some old) (other : Nat) :
    placement (unmask tables layer gid row) layer other =
      if other = gid then some row else placement tables layer other := by
  simp only [placement, routable_unmask_iff column, remapAt_unmask]
  by_cases same : other = gid
  · subst same
    simp [mapped]
  · simp [same]

namespace Served

variable {original : Module} {tables : Tables} {layer experts phys gid row : Nat} {module : Module}

theorem device_setRemap (served : Served original tables layer experts phys module)
    {table : RemapTable} (found : (setRemap tables layer gid row).get? layer = some table) :
    table.device = original.device := by
  rw [setRemap, Dict.get?_mapValues] at found
  obtain ⟨before, present, rfl⟩ := Option.map_eq_some_iff.mp found
  simpa using served.device before present

theorem mask (served : Served original tables layer experts phys module) (gid : Nat) :
    Served original (mask tables layer gid) layer experts phys module where
  attrs := served.attrs
  shape := served.shape
  columns := by
    intro other bound dtype built
    rw [biasAt_mask, served.columns other bound dtype built]
    by_cases same : other = gid <;> simp [same, routable_mask_iff]
  remapped := by
    intro other bound
    obtain ⟨mapped, found, zero⟩ := served.remapped other bound
    rw [remapAt_mask, found]
    by_cases same : other = gid
    · simp [same]
    · exact ⟨mapped, by simp [same], fun masked => zero fun routable =>
        masked (routable_mask_iff.mpr ⟨same, routable⟩)⟩
  width := fun other routable => served.width other (routable_mask_iff.mp routable).2
  faithful := by
    refine served.faithful.withdraw gid ?_ ?_
    · simp [placement_mask]
    · intro other different
      simp [placement_mask, different]
  bounded := fun other mapped placed => served.bounded other mapped (placement_of_mask placed).2
  device := fun table found => served.device_setRemap found

theorem unmask (served : Served original tables layer experts phys module) (bound : gid < experts)
    (inside : row < phys)
    (holds : module.contents (expertNames original experts) row =
      original.contents (expertNames original experts) gid) :
    Served original (unmask tables layer gid row) layer experts phys module := by
  have column := served.columns gid bound .bfloat16 (by simp [buildDtypes])
  obtain ⟨old, mapped, _⟩ := served.remapped gid bound
  have place := placement_unmask row column mapped
  exact {
    attrs := served.attrs
    shape := served.shape
    columns := by
      intro other otherBound dtype built
      rw [biasAt_unmask, served.columns other otherBound dtype built]
      by_cases same : other = gid <;> simp [same, routable_unmask_iff column]
    remapped := by
      intro other otherBound
      obtain ⟨before, found, zero⟩ := served.remapped other otherBound
      rw [remapAt_unmask, found]
      by_cases same : other = gid
      · exact ⟨row, by simp [same], fun masked => absurd
          ((routable_unmask_iff column).mpr (Or.inl same)) masked⟩
      · exact ⟨before, by simp [same], fun masked => zero fun routable =>
          masked ((routable_unmask_iff column).mpr (Or.inr routable))⟩
    width := by
      intro other routable
      rcases (routable_unmask_iff column).mp routable with rfl | before
      · exact bound
      · exact served.width other before
    faithful := by
      refine served.faithful.serve gid holds ?_ ?_
      · simp [place]
      · intro other different
        simp [place, different]
    bounded := by
      intro other at_ placed
      rw [place] at placed
      split at placed
      · rw [Option.some.injEq] at placed
        exact placed ▸ inside
      · exact served.bounded other at_ placed
    device := fun table found => served.device_setRemap found }

theorem write (served : Served original tables layer experts phys module)
    (vacant : Vacant (placement tables layer) row) (name : String) (bytes : Row) :
    Served original tables layer experts phys (module.writeRow name row bytes) :=
  { served with
    attrs := by rw [Module.attrs_writeRow, served.attrs]
    shape := by
      intro other member
      rw [Module.rows?_writeRow]
      split
      · rw [Option.map_map]
        simpa [Function.comp_def] using served.shape other member
      · exact served.shape other member
    faithful := served.faithful.overwrite vacant fun other different =>
      Module.contents_writeRow_other module _ name bytes different }

end Served

namespace LayerInv

variable {original : Module} {tables : Tables} {pool : Pool} {module : Module}

theorem placement_of_same {layer : Nat} {after : Tables} (same : Tables.Same layer tables after)
    (gid : Nat) : placement after layer gid = placement tables layer gid := by
  simp only [placement, same.routable_iff, same.remapAt]

theorem shared (inv : LayerInv original tables pool module) {after : Tables}
    (same : Tables.Same pool.layerId tables after) : LayerInv original after pool module :=
  have place := placement_of_same same
  { inv with
    served := { inv.served with
      columns := by
        intro gid bound dtype built
        simp only [same.biasAt built, inv.served.columns gid bound dtype built, same.routable_iff]
      remapped := by
        intro gid bound
        simpa only [same.remapAt, same.routable_iff] using inv.served.remapped gid bound
      width := fun gid routable => inv.served.width gid ((same.routable_iff gid).mp routable)
      faithful := fun gid row placed => inv.served.faithful gid row ((place gid).symm.trans placed)
      bounded := fun gid row placed => inv.served.bounded gid row ((place gid).symm.trans placed)
      device := fun table found => inv.served.device table (same.remap.symm.trans found) }
    owned := fun gid row placed => inv.owned gid row ((place gid).symm.trans placed)
    resident := by
      intro gid row found
      obtain ⟨cold, placed, back⟩ := inv.resident gid row found
      exact ⟨cold, (place gid).trans placed, back⟩
    live := fun gid row placed => inv.live gid row ((place gid).symm.trans placed) }

theorem ne_of_keep (inv : LayerInv original tables pool module) {gid other : Nat} (kept : gid ∈ pool.keep)
    (cold : other ∈ pool.cold) : other ≠ gid := by
  intro same
  subst same
  exact ((inv.static.cold other).mp cold).2 kept

/-- Nobody else is served from the row of a keep expert. -/
theorem ne_of_pinned (inv : LayerInv original tables pool module) {gid other row otherRow : Nat}
    (pinned : Pinned pool gid row) (different : other ≠ gid)
    (placed : placement tables pool.layerId other = some otherRow) : otherRow ≠ row := by
  obtain ⟨slot, _, _, unowned⟩ := pinned
  intro same
  subst same
  rcases inv.owned other otherRow placed with resident | ⟨otherSlot, _⟩
  · exact unowned (Dict.mem_keys_of_get? (inv.resident other otherRow resident).2.2)
  · rw [slot, Option.some.injEq] at otherSlot
    exact different otherSlot.symm

theorem not_resident_of_keep (inv : LayerInv original tables pool module) {gid : Nat}
    (kept : gid ∈ pool.keep) : pool.gidRow.get? gid = none := by
  cases found : pool.gidRow.get? gid with
  | none => rfl
  | some row => exact absurd rfl (inv.ne_of_keep kept (inv.resident gid row found).1)

theorem vacant_of_unowned (inv : LayerInv original tables pool module) {row : Nat}
    (handout : row ∈ pool.freeRows ∨ row ∈ pool.rowTick.keys) (unowned : row ∉ pool.rowGid.keys) :
    Vacant (placement tables pool.layerId) row := by
  intro gid served
  rcases inv.owned gid row served with resident | ⟨_, notFree, notTicked, _⟩
  · exact unowned (Dict.mem_keys_of_get? (inv.resident gid row resident).2.2)
  · rcases handout with free | ticked
    · exact notFree free
    · exact notTicked ticked

end LayerInv

end FlashNext.ColdPool
