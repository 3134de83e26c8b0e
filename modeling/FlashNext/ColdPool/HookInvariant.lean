import FlashNext.ColdPool.StagingInvariant
import FlashNext.ColdPool.Hook
import Mathlib.Tactic.SplitIfs

namespace FlashNext.ColdPool

open FlashNext.Data

variable {original : Module} {ctx : Ctx} {gid row : Nat}

theorem stashDemand_eq (sigmoid : ℚ → ℚ) (state : State) (layer : Option Nat) (capturing : Bool)
    (preMask : Grid ℚ) (topkIds : Grid Int) (k : Nat) :
    ∃ stash dirty, stashDemand sigmoid state layer capturing preMask topkIds k =
      { state with stash := stash, dirty := dirty } := by
  unfold stashDemand
  cases layer with
  | none => exact ⟨_, _, rfl⟩
  | some layer =>
      dsimp only
      split_ifs
      all_goals exact ⟨_, _, rfl⟩

/-- A state between two operations, with the counters in step. -/
structure Ctx.Advanced (original : Module) (before after : Ctx) : Prop
    extends Ctx.Reached original before after where
  net : after.net = before.net

theorem Ctx.Advanced.after {first second third : Ctx} (later : Ctx.Advanced original second third)
    (frame : first.Frame second) (net : second.net = first.net) : Ctx.Advanced original first third :=
  ⟨later.toReached.after frame, later.net.trans net⟩

theorem snapshotRow_fold (module : Module) (row : Nat) (names : List String) (rows : Dict String Row)
    (name : String) (bytes : Row) :
    (names.foldl (snapshotParam module row) rows).get? name = some bytes ↔
    if name ∈ names ∧ (module.rowAt name row).isSome then module.rowAt name row = some bytes
    else rows.get? name = some bytes := by
  induction names generalizing rows with
  | nil => simp
  | cons head rest ih =>
      rw [List.foldl_cons, ih]
      by_cases later : name ∈ rest ∧ (module.rowAt name row).isSome
      · rw [if_pos later, if_pos ⟨List.mem_cons_of_mem _ later.1, later.2⟩]
      · rw [if_neg later]
        unfold snapshotParam
        by_cases same : name = head
        · subst same
          cases present : module.rowAt name row <;> simp
        · have skipped : ¬ (name ∈ head :: rest ∧ (module.rowAt name row).isSome) := by
            simpa [same] using later
          rw [if_neg skipped]
          cases module.rowAt head row <;> simp [same]

theorem snapshotRow_entry {module : Module} {name : String} {bytes : Row} :
    (name, bytes) ∈ (snapshotRow module row).entries ↔
      name ∈ allParams ∧ module.rowAt name row = some bytes := by
  rw [Dict.mem_entries_iff, snapshotRow, snapshotRow_fold]
  split
  · rename_i present
    simp [present.1]
  · rename_i absent
    simp only [Dict.get?_empty, reduceCtorEq, false_iff, not_and]
    intro listed found
    exact absent ⟨listed, by simp [found]⟩

theorem hostCopy_snapshotRow {tables : Tables} {module : Module} {layer experts phys : Nat}
    (served : Served original tables layer experts phys module) (placed : placement tables layer gid = some row) :
    HostCopy original (expertNames original experts) gid (snapshotRow module row).entries := by
  have faithful := Module.contents_eq_iff.mp (served.faithful gid row placed)
  refine ⟨?_, ?_⟩
  · intro entry member named
    exact faithful entry.1 named ▸ (snapshotRow_entry.mp member).2
  · intro name named
    obtain ⟨bytes, present⟩ := rowAt_isSome served (served.bounded gid row placed) named
    exact ⟨(name, bytes), snapshotRow_entry.mpr ⟨(List.mem_filter.mp named).1, present⟩, named, rfl⟩

theorem LayerInv.pinned_of_keep {tables : Tables} {pool : Pool} {module : Module}
    (inv : LayerInv original tables pool module) (kept : gid ∈ pool.keep)
    (placed : placement tables pool.layerId gid = some row) : Pinned pool gid row := by
  rcases inv.owned gid row placed with resident | pinned
  · rw [inv.not_resident_of_keep kept] at resident
    contradiction
  · exact pinned

theorem demote_frame (gid : Nat) (ctx : Ctx) : ctx.Frame (demote gid ctx) := by
  unfold demote
  split
  · exact .refl ctx
  · split
    · exact .refl ctx
    · exact ⟨rfl, fun layer different => Tables.same_mask ctx.tables _ different⟩

theorem demote_net (gid : Nat) (ctx : Ctx) : (demote gid ctx).net = ctx.net := by
  unfold demote
  split
  · rfl
  · split <;> rfl

theorem demote_inv (inv : ctx.Inv original) (kept : gid ∈ ctx.pool.keep)
    (routable : ctx.tables.Routable ctx.pool.layerId gid) : (demote gid ctx).Inv original := by
  obtain ⟨row, mapped, _⟩ := inv.served.remapped gid (inv.static.keepBound gid kept)
  have placed := placement_eq_some.mpr ⟨routable, mapped⟩
  have pinned := inv.pinned_of_keep kept placed
  unfold demote
  rw [mapped]
  dsimp only
  split
  · exact inv
  · exact {
      static := { inv.static with }
      served := inv.served.mask gid
      owned := by
        intro other at_ after
        obtain ⟨different, before⟩ := placement_of_mask after
        rcases inv.owned other at_ before with resident | ⟨otherSlot, notFree, otherTicked, otherOwned⟩
        · exact Or.inl resident
        · refine Or.inr ⟨otherSlot, notFree, ?_, ?_⟩
          · simp [Dict.mem_keys_set, inv.ne_of_pinned pinned different before, otherTicked]
          · simp [Dict.mem_keys_pop, otherOwned]
      resident := by
        intro other at_ found
        obtain ⟨cold, before, back⟩ := inv.resident other at_ found
        have different := inv.ne_of_keep kept cold
        exact ⟨cold, by simp [placement_mask, different, before],
          by simp [inv.ne_of_pinned pinned different before, back]⟩
      owner := by
        intro at_ other found
        rw [Dict.get?_pop] at found
        split at found
        · contradiction
        · exact inv.owner at_ other found
      freeDistinct := inv.freeDistinct
      free := by
        intro at_ member
        obtain ⟨inside, unowned⟩ := inv.free at_ member
        exact ⟨inside, fun after => unowned (Dict.mem_keys_pop.mp after).2⟩
      ticked := by
        intro at_ member
        rcases Dict.mem_keys_set.mp member with rfl | before
        · exact inv.served.bounded gid at_ placed
        · exact inv.ticked at_ before
      live := by
        intro other at_ after
        obtain ⟨different, before⟩ := placement_of_mask after
        simp [inv.ne_of_pinned pinned different before, inv.live other at_ before]
      host := by
        intro other cold
        simpa [inv.ne_of_keep kept cold] using inv.host other cold
      hostCopy := by
        intro other rows found
        rw [Dict.get?_set] at found
        split at found
        · rename_i same
          cases found
          subst same
          exact hostCopy_snapshotRow inv.served placed
        · exact inv.hostCopy other rows found }

/-- The demotions of one call are sound when the experts it handles are still
routable and it handles none of them twice. -/
theorem demoteAll_inv {doomed : List Nat} (inv : ctx.Inv original)
    (kept : ∀ gid ∈ doomed, gid ∈ ctx.pool.keep)
    (routable : ∀ gid ∈ doomed, ctx.tables.Routable ctx.pool.layerId gid) (distinct : doomed.Nodup) :
    (∀ seen ∈ (demoteAll doomed ctx).1, Ctx.Reached original ctx seen) ∧
      Ctx.Advanced original ctx (demoteAll doomed ctx).2 := by
  induction doomed generalizing ctx with
  | nil => exact ⟨by simp [demoteAll], ⟨inv, .refl ctx⟩, rfl⟩
  | cons gid rest ih =>
      obtain ⟨fresh, distinctRest⟩ := List.nodup_cons.mp distinct
      have frame := demote_frame gid ctx
      have reached : Ctx.Reached original ctx (demote gid ctx) :=
        ⟨demote_inv inv (kept gid (by simp)) (routable gid (by simp)), frame⟩
      have layerId := Pool.layerId_of_frozen frame.frozen
      have keptRest : ∀ other ∈ rest, other ∈ (demote gid ctx).pool.keep := fun other member =>
        (congrArg Pool.keep frame.frozen) ▸ kept other (by simp [member])
      have routableRest : ∀ other ∈ rest,
          (demote gid ctx).tables.Routable (demote gid ctx).pool.layerId other := by
        intro other member
        have before := routable other (by simp [member])
        have different : other ≠ gid := fun same => fresh (same ▸ member)
        rw [layerId]
        unfold demote
        split
        · exact before
        · split
          · exact before
          · exact routable_mask_iff.mpr ⟨different, before⟩
      obtain ⟨visited, final⟩ := ih reached.inv keptRest routableRest distinctRest
      refine ⟨?_, final.after frame (demote_net gid ctx)⟩
      intro seen member
      rcases List.mem_cons.mp member with rfl | later
      · exact reached
      · exact (visited seen later).after frame

theorem promote_inv (entry : Nat × Nat) (inv : ctx.Inv original) :
    Ctx.Advanced original ctx (promote entry ctx) := by
  unfold promote
  split
  · exact ⟨⟨inv, .refl ctx⟩, rfl⟩
  · split
    · exact ⟨⟨inv, .refl ctx⟩, rfl⟩
    · split
      · exact ⟨⟨{ inv with static := { inv.static with } }, .of_tables rfl rfl⟩, rfl⟩
      · exact ⟨⟨inv, .refl ctx⟩, rfl⟩

theorem promoteAll_inv (entries : List (Nat × Nat)) (inv : ctx.Inv original) :
    Ctx.Advanced original ctx (entries.foldl (fun ctx entry => promote entry ctx) ctx) := by
  induction entries generalizing ctx with
  | nil => exact ⟨⟨inv, .refl ctx⟩, rfl⟩
  | cons entry rest ih =>
      have here := promote_inv entry inv
      exact (ih here.inv).after here.frame here.net

/-- The experts one `_phase_b` call would demote are all routable, and none is
listed twice. -/
structure Demotable (config : HookConfig) (flat : List Nat) (ctx : Ctx) : Prop where
  routable : ∀ gid ∈ demotionList config flat ctx.pool, ctx.tables.Routable ctx.pool.layerId gid
  distinct : (demotionList config flat ctx.pool).Nodup

instance (config : HookConfig) (flat : List Nat) (ctx : Ctx) : Decidable (Demotable config flat ctx) :=
  decidable_of_iff ((∀ gid ∈ demotionList config flat ctx.pool,
      ctx.tables.Routable ctx.pool.layerId gid) ∧ (demotionList config flat ctx.pool).Nodup)
    ⟨fun both => ⟨both.1, both.2⟩, fun demotable => ⟨demotable.routable, demotable.distinct⟩⟩

theorem phaseB_inv {config : HookConfig} {flat : List Nat} (inv : ctx.Inv original)
    (demotable : Demotable config flat ctx) :
    (∀ seen ∈ (phaseB config flat ctx).1, Ctx.Reached original ctx seen) ∧
      Ctx.Advanced original ctx (phaseB config flat ctx).2 := by
  unfold phaseB
  split
  · exact ⟨by simp, ⟨{ inv with static := { inv.static with } }, .of_tables rfl rfl⟩, rfl⟩
  · have recorded : Ctx.Reached original ctx { ctx with pool := recordSeen ctx.pool flat } :=
      ⟨{ inv with static := { inv.static with } }, .of_tables rfl rfl⟩
    have kept : ∀ gid ∈ demotionList config flat ctx.pool, gid ∈ ctx.pool.keep := by
      intro gid member
      have listed := (List.mem_filter.mp (List.mem_of_mem_take member)).1
      exact inv.static.keepIds ▸ listed
    obtain ⟨visited, final⟩ := demoteAll_inv recorded.inv kept demotable.routable demotable.distinct
    have promoted := promoteAll_inv (demoteAll (demotionList config flat ctx.pool)
      { ctx with pool := recordSeen ctx.pool flat }).2.pool.gidRow.entries final.inv
    exact ⟨fun seen member => (visited seen member).after recorded.frame,
      (promoted.after final.frame final.net).after recorded.frame rfl⟩

end FlashNext.ColdPool
