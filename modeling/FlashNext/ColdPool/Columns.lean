import FlashNext.ColdPool.RoutingSafety

namespace FlashNext.ColdPool

open FlashNext.Data

/-- The experts the columns should let through: the keep experts that no pass
has demoted, which have no host rows, and the staged ones. -/
def Serving (pool : Pool) (gid : Nat) : Prop :=
  (gid ∈ pool.keep ∧ gid ∉ pool.host.keys) ∨ gid ∈ pool.gidRow.keys

/-- The built columns follow the pool, however demotion is used. -/
structure Tracked (keepMask : Dict Nat (List Nat)) (ctx : Ctx) : Prop where
  masked : keepMask.get? ctx.pool.layerId = some ctx.pool.keep
  keepIds : ctx.pool.keepIdsGpu = ctx.pool.keep
  keepBound : ∀ gid ∈ ctx.pool.keep, gid < ctx.pool.experts
  cold : ∀ gid ∈ ctx.pool.coldIdsGpu, gid < ctx.pool.experts ∧ gid ∉ ctx.pool.keep
  resident : ∀ gid ∈ ctx.pool.gidRow.keys, gid ∈ ctx.pool.coldIdsGpu
  owner : ∀ row gid, ctx.pool.rowGid.get? row = some gid → ctx.pool.gidRow.get? gid = some row
  columns : ∀ dtype ∈ buildDtypes, ctx.tables.bias.get? (ctx.pool.layerId, dtype) ≠ none
  wide : ∀ gid, ctx.tables.biasAt ctx.pool.layerId .bfloat16 gid ≠ none ↔ gid < ctx.pool.experts
  routable : ∀ gid, ctx.tables.Routable ctx.pool.layerId gid ↔ Serving ctx.pool gid

/-- An operation that started in `before` and keeps the columns in step. -/
structure Follows (keepMask : Dict Nat (List Nat)) (before after : Ctx) : Prop where
  tracked : Tracked keepMask after
  frame : before.Frame after

variable {keepMask : Dict Nat (List Nat)} {ctx : Ctx} {gid row : Nat}

theorem Follows.after {first second third : Ctx} (later : Follows keepMask second third)
    (frame : first.Frame second) : Follows keepMask first third :=
  ⟨later.tracked, frame.trans later.frame⟩

theorem setBias_get?_ne_none {tables : Tables} {layer : Nat} {value : DType → Int} {key : Nat × DType}
    (present : tables.bias.get? key ≠ none) : (setBias tables layer gid value).get? key ≠ none := by
  rw [setBias, Dict.get?_mapValues]
  simpa using present

namespace Tracked

variable (tracked : Tracked keepMask ctx)
include tracked

theorem shared {tables : Tables} {stats : Stats} (same : Tables.Same ctx.pool.layerId ctx.tables tables) :
    Tracked keepMask { ctx with tables := tables, stats := stats } :=
  { tracked with
    columns := fun dtype built => (same.bias dtype built).symm ▸ tracked.columns dtype built
    wide := fun gid => by
      rw [@Tables.Same.biasAt _ _ _ same .bfloat16 (by simp [buildDtypes])]
      exact tracked.wide gid
    routable := fun gid => (same.routable_iff gid).trans (tracked.routable gid) }

theorem not_keep_of_resident (member : gid ∈ ctx.pool.gidRow.keys) : gid ∉ ctx.pool.keep :=
  (tracked.cold gid (tracked.resident gid member)).2

theorem reset (gid : Nat) : Tracked keepMask (resetNeed gid ctx) := { tracked with }

theorem mask_routable {pool : Pool} (drops : ∀ other, Serving pool other ↔ other ≠ gid ∧ Serving ctx.pool other) :
    ∀ other, (mask ctx.tables ctx.pool.layerId gid).Routable ctx.pool.layerId other ↔ Serving pool other := by
  intro other
  rw [routable_mask_iff, drops other, tracked.routable other]

theorem mask_wide : ∀ other,
    (mask ctx.tables ctx.pool.layerId gid).biasAt ctx.pool.layerId .bfloat16 other ≠ none ↔
      other < ctx.pool.experts := by
  intro other
  rw [biasAt_mask, ← tracked.wide other]
  split
  · simp
  · rfl

theorem evict (row : Nat) : Tracked keepMask (evictRow row ctx) := by
  unfold evictRow
  cases owned : ctx.pool.rowGid.get? row with
  | none => exact tracked
  | some old =>
      have resident := Dict.mem_keys_of_get? (tracked.owner row old owned)
      exact { tracked with
        resident := fun other member => tracked.resident other (Dict.mem_keys_pop.mp member).2
        owner := by
          intro at_ other found
          rw [Dict.get?_pop] at found
          split at found
          · contradiction
          · next away =>
              have there := tracked.owner at_ other found
              have different : other ≠ old := by
                intro equal
                subst equal
                rw [tracked.owner row other owned, Option.some.injEq] at there
                exact away there.symm
              rw [Dict.get?_pop, if_neg different, there]
        columns := fun dtype built => setBias_get?_ne_none (tracked.columns dtype built)
        wide := tracked.mask_wide
        routable := tracked.mask_routable fun other => by
          have apart : other ∈ ctx.pool.keep → other ≠ old := by
            intro kept equal
            subst equal
            exact tracked.not_keep_of_resident resident kept
          simp only [Serving, Dict.mem_keys_pop]
          constructor
          · intro cases_
            rcases cases_ with ⟨kept, undemoted⟩ | ⟨different, staged⟩
            · exact ⟨apart kept, Or.inl ⟨kept, undemoted⟩⟩
            · exact ⟨different, Or.inr staged⟩
          · intro holds
            obtain ⟨different, kept | staged⟩ := holds
            · exact Or.inl kept
            · exact Or.inr ⟨different, staged⟩ }

theorem pick : Tracked keepMask (pickRow ctx).1 := by
  unfold pickRow
  split
  · exact { tracked with }
  · split
    · exact tracked
    · exact tracked.evict _

theorem unmask_wide : ∀ other,
    (unmask ctx.tables ctx.pool.layerId gid row).biasAt ctx.pool.layerId .bfloat16 other ≠ none ↔
      other < ctx.pool.experts := by
  intro other
  rw [biasAt_unmask, ← tracked.wide other]
  split
  · simp
  · rfl

theorem install {nbytes : Nat} (cold : gid ∈ ctx.pool.coldIdsGpu) (fresh : gid ∉ ctx.pool.gidRow.keys) :
    Tracked keepMask (installRow gid row nbytes ctx) := by
  obtain ⟨value, column⟩ := Option.ne_none_iff_exists'.mp ((tracked.wide gid).mpr (tracked.cold gid cold).1)
  exact { tracked with
    resident := by
      intro other member
      rcases Dict.mem_keys_set.mp member with rfl | before
      · exact cold
      · exact tracked.resident other before
    owner := by
      intro at_ other found
      simp only [installRow, Dict.get?_set] at found ⊢
      split at found
      · next here =>
          cases found
          rw [if_pos rfl, here]
      · have there := tracked.owner at_ other found
        have different : other ≠ gid := fun same => fresh (same ▸ Dict.mem_keys_of_get? there)
        rw [if_neg different, there]
    columns := fun dtype built => setBias_get?_ne_none (tracked.columns dtype built)
    wide := tracked.unmask_wide
    routable := by
      intro other
      simp only [installRow]
      rw [routable_unmask_iff column, tracked.routable other]
      simp only [Serving, Dict.mem_keys_set]
      tauto }

theorem demoted (gid : Nat) (kept : gid ∈ ctx.pool.keep) : Tracked keepMask (demote gid ctx) := by
  unfold demote
  split
  · exact tracked
  · split
    · exact tracked
    · exact { tracked with
        owner := by
          intro at_ other found
          rw [Dict.get?_pop] at found
          split at found
          · contradiction
          · exact tracked.owner at_ other found
        columns := fun dtype built => setBias_get?_ne_none (tracked.columns dtype built)
        wide := tracked.mask_wide
        routable := tracked.mask_routable fun other => by
          have apart : other ∈ ctx.pool.gidRow.keys → other ≠ gid := by
            intro staged equal
            subst equal
            exact tracked.not_keep_of_resident staged kept
          simp only [Serving, Dict.mem_keys_set]
          tauto }

end Tracked

theorem copyParams_same (faults : Faults) (gid row : Nat) (entries : List (String × Row)) (ctx : Ctx) :
    ∀ seen, seen ∈ (copyParams faults gid row entries ctx).visited ∨
        seen = (copyParams faults gid row entries ctx).final →
      seen.tables = ctx.tables ∧ seen.pool = ctx.pool ∧ seen.stats.staged = ctx.stats.staged ∧
        seen.stats.evicted = ctx.stats.evicted := by
  induction entries generalizing ctx with
  | nil =>
      intro seen member
      rcases member with inside | rfl
      · cases inside
      · exact ⟨rfl, rfl, rfl, rfl⟩
  | cons entry rest ih =>
      obtain ⟨name, pinned⟩ := entry
      intro seen member
      unfold copyParams at member
      split at member
      · rcases member with inside | rfl
        · cases inside
        · exact ⟨rfl, rfl, rfl, rfl⟩
      · rcases member with inside | last
        · rcases List.mem_cons.mp inside with rfl | later
          · exact ⟨rfl, rfl, rfl, rfl⟩
          · exact ih { ctx with module := ctx.module.writeRow name row pinned } seen (Or.inl later)
        · exact ih { ctx with module := ctx.module.writeRow name row pinned } seen (Or.inr last)

theorem Tracked.of_same {other : Ctx} (tracked : Tracked keepMask ctx) (tables : other.tables = ctx.tables)
    (pool : other.pool = ctx.pool) : Tracked keepMask other := by
  obtain ⟨otherTables, otherStats, otherPool, otherModule⟩ := other
  dsimp only at tables pool
  subst tables pool
  exact { tracked with }

theorem Follows.of_same {other : Ctx} (tracked : Tracked keepMask ctx) (tables : other.tables = ctx.tables)
    (pool : other.pool = ctx.pool) : Follows keepMask ctx other :=
  ⟨tracked.of_same tables pool, .of_tables (congrArg Pool.frozen pool) tables⟩

theorem Tracked.evict_net (tracked : Tracked keepMask ctx) (row : Nat) : (evictRow row ctx).net = ctx.net := by
  unfold evictRow
  cases owned : ctx.pool.rowGid.get? row with
  | none => rfl
  | some old =>
      have shorter := Dict.size_pop_of_mem (Dict.mem_keys_of_get? (tracked.owner row old owned))
      simp only [Ctx.net]
      omega

theorem Tracked.pick_net (tracked : Tracked keepMask ctx) : (pickRow ctx).1.net = ctx.net := by
  unfold pickRow
  split
  · rfl
  · split
    · rfl
    · exact tracked.evict_net _

theorem rowFromHost_follows (faults : Faults) (tracked : Tracked keepMask ctx)
    (cold : gid ∈ ctx.pool.coldIdsGpu) (fresh : gid ∉ ctx.pool.gidRow.keys) (row : Nat) :
    (∀ seen ∈ (rowFromHost faults gid row ctx).visited, Follows keepMask ctx seen) ∧
      Follows keepMask ctx (rowFromHost faults gid row ctx).final ∧
      (rowFromHost faults gid row ctx).final.net =
        ctx.net - (if (rowFromHost faults gid row ctx).ok = true then 1 else 0) := by
  have copied := copyParams_same faults gid row (hostEntry faults ctx gid) ctx
  obtain ⟨tables, pool, staged, evicted⟩ := copied _ (Or.inr rfl)
  have frame := rowFromHost_frame faults gid row ctx
  have between : ∀ seen ∈ (copyParams faults gid row (hostEntry faults ctx gid) ctx).visited,
      Follows keepMask ctx seen := by
    intro seen member
    obtain ⟨tables, pool, _⟩ := copied seen (Or.inl member)
    exact .of_same tracked tables pool
  simp only [rowFromHost] at frame ⊢
  split
  · exact ⟨by simp, ⟨tracked, .refl ctx⟩, by simp⟩
  · split
    · next ok =>
        have still : Tracked keepMask (copyParams faults gid row (hostEntry faults ctx gid) ctx).final :=
          tracked.of_same tables pool
        have stillFresh : gid ∉ (copyParams faults gid row (hostEntry faults ctx gid) ctx).final.pool.gidRow.keys :=
          pool.symm ▸ fresh
        refine ⟨between, ⟨still.install (pool.symm ▸ cold) stillFresh, ?_⟩, ?_⟩
        · exact (Ctx.Frame.of_tables (congrArg Pool.frozen pool) tables).trans (installRow_frame ..)
        · rw [installRow_net stillFresh, Ctx.net, Ctx.net, staged, evicted, pool]
    · next failed =>
        refine ⟨between, .of_same tracked tables pool, ?_⟩
        rw [Ctx.net, Ctx.net, staged, evicted, pool, Int.sub_zero]

theorem stageOne_follows (faults : Faults) (tracked : Tracked keepMask ctx)
    (cold : gid ∈ ctx.pool.coldIdsGpu) :
    (∀ seen ∈ (stageOne faults gid ctx).1, Follows keepMask ctx seen) ∧
      ∀ next, (stageOne faults gid ctx).2 = some next → Follows keepMask ctx next ∧ next.net = ctx.net := by
  have start := tracked.reset gid
  have begun : ctx.Frame (resetNeed gid ctx) := .of_tables rfl rfl
  simp only [stageOne]
  split
  · exact ⟨by simp, fun next same => Option.some.inj same ▸ ⟨⟨start, begun⟩, rfl⟩⟩
  · next fresh =>
      have picked := start.pick
      have net : (pickRow (resetNeed gid ctx)).1.net = ctx.net := start.pick_net
      have frame := begun.trans (pickRow_frame (resetNeed gid ctx))
      have stillFresh := pickRow_fresh fresh
      cases pick : pickRow (resetNeed gid ctx) with
      | mk after row? =>
          rw [pick] at picked net frame stillFresh
          cases row? with
          | none => exact ⟨by simp, by simp⟩
          | some row =>
              have stillCold : gid ∈ after.pool.coldIdsGpu := (congrArg Pool.coldIdsGpu frame.frozen) ▸ cold
              obtain ⟨visited, final, behind⟩ := rowFromHost_follows faults picked stillCold stillFresh row
              have exposed : ∀ seen ∈ after :: (rowFromHost faults gid row after).visited,
                  Follows keepMask ctx seen := by
                intro seen member
                rcases List.mem_cons.mp member with rfl | inside
                · exact ⟨picked, frame⟩
                · exact (visited seen inside).after frame
              have done := final.after frame
              dsimp only
              split
              · next ok =>
                  rw [if_pos ok] at behind
                  refine ⟨exposed, fun next same => Option.some.inj same ▸ ⟨⟨done.tracked.of_same rfl rfl, ?_⟩, ?_⟩⟩
                  · exact done.frame.trans (.of_tables rfl rfl)
                  · simp only [Ctx.net] at behind net ⊢
                    omega
              · next failed =>
                  rw [if_neg failed] at behind
                  refine ⟨exposed, fun next same => Option.some.inj same ▸ ⟨⟨?_, ?_⟩, ?_⟩⟩
                  · unfold returnRow
                    split
                    · exact { done.tracked with }
                    · exact done.tracked
                  · exact done.frame.trans (returnRow_frame row _)
                  · rw [returnRow_net]
                    exact (behind.trans (Int.sub_zero _)).trans net

theorem stageAll_follows (faults : Faults) {candidates : List Nat} (tracked : Tracked keepMask ctx)
    (cold : ∀ gid ∈ candidates, gid ∈ ctx.pool.coldIdsGpu) :
    (∀ seen ∈ (stageAll faults candidates ctx).1, Follows keepMask ctx seen) ∧
      Follows keepMask ctx (stageAll faults candidates ctx).2 ∧
      (stageAll faults candidates ctx).2.net = ctx.net := by
  induction candidates generalizing ctx with
  | nil => exact ⟨by simp [stageAll], ⟨tracked, .refl ctx⟩, rfl⟩
  | cons gid rest ih =>
      obtain ⟨visited, reached⟩ := stageOne_follows faults tracked (cold gid (by simp))
      simp only [stageAll]
      cases staged : stageOne faults gid ctx with
      | mk seenHere next? =>
          rw [staged] at visited reached
          cases next? with
          | none => exact ⟨visited, ⟨tracked.reset gid, .of_tables rfl rfl⟩, rfl⟩
          | some next =>
              obtain ⟨here, net⟩ := reached next rfl
              obtain ⟨later, final, laterNet⟩ := ih here.tracked fun other member =>
                (congrArg Pool.coldIdsGpu here.frame.frozen) ▸ cold other (by simp [member])
              refine ⟨?_, final.after here.frame, laterNet.trans net⟩
              intro seen member
              rcases List.mem_append.mp member with first | rest
              · exact visited seen first
              · rcases List.mem_cons.mp rest with rfl | rest
                · exact here
                · exact (later seen rest).after here.frame

theorem demoteAll_follows {doomed : List Nat} (tracked : Tracked keepMask ctx)
    (kept : ∀ gid ∈ doomed, gid ∈ ctx.pool.keep) :
    (∀ seen ∈ (demoteAll doomed ctx).1, Follows keepMask ctx seen) ∧
      Follows keepMask ctx (demoteAll doomed ctx).2 ∧ (demoteAll doomed ctx).2.net = ctx.net := by
  induction doomed generalizing ctx with
  | nil => exact ⟨by simp [demoteAll], ⟨tracked, .refl ctx⟩, rfl⟩
  | cons gid rest ih =>
      have here : Follows keepMask ctx (demote gid ctx) :=
        ⟨tracked.demoted gid (kept gid (by simp)), demote_frame gid ctx⟩
      obtain ⟨visited, final, net⟩ := ih here.tracked fun other member =>
        (congrArg Pool.keep here.frame.frozen) ▸ kept other (by simp [member])
      refine ⟨?_, final.after here.frame, net.trans (demote_net gid ctx)⟩
      intro seen member
      rcases List.mem_cons.mp member with rfl | later
      · exact here
      · exact (visited seen later).after here.frame

theorem promote_follows (entry : Nat × Nat) (tracked : Tracked keepMask ctx) :
    Follows keepMask ctx (promote entry ctx) ∧ (promote entry ctx).net = ctx.net := by
  unfold promote
  split
  · exact ⟨⟨tracked, .refl ctx⟩, rfl⟩
  · split
    · exact ⟨⟨tracked, .refl ctx⟩, rfl⟩
    · split
      · exact ⟨⟨{ tracked with }, .of_tables rfl rfl⟩, rfl⟩
      · exact ⟨⟨tracked, .refl ctx⟩, rfl⟩

theorem promoteAll_follows (entries : List (Nat × Nat)) (tracked : Tracked keepMask ctx) :
    Follows keepMask ctx (entries.foldl (fun ctx entry => promote entry ctx) ctx) ∧
      (entries.foldl (fun ctx entry => promote entry ctx) ctx).net = ctx.net := by
  induction entries generalizing ctx with
  | nil => exact ⟨⟨tracked, .refl ctx⟩, rfl⟩
  | cons entry rest ih =>
      obtain ⟨here, net⟩ := promote_follows entry tracked
      obtain ⟨final, laterNet⟩ := ih here.tracked
      exact ⟨final.after here.frame, laterNet.trans net⟩

theorem phaseB_follows (config : HookConfig) (flat : List Nat) (tracked : Tracked keepMask ctx) :
    (∀ seen ∈ (phaseB config flat ctx).1, Follows keepMask ctx seen) ∧
      Follows keepMask ctx (phaseB config flat ctx).2 ∧ (phaseB config flat ctx).2.net = ctx.net := by
  unfold phaseB
  split
  · exact ⟨by simp, ⟨{ tracked with }, .of_tables rfl rfl⟩, rfl⟩
  · have recorded : Follows keepMask ctx { ctx with pool := recordSeen ctx.pool flat } :=
      ⟨{ tracked with }, .of_tables rfl rfl⟩
    have kept : ∀ gid ∈ demotionList config flat ctx.pool, gid ∈ ctx.pool.keep := by
      intro gid member
      have listed := (List.mem_filter.mp (List.mem_of_mem_take member)).1
      exact tracked.keepIds ▸ listed
    obtain ⟨visited, final, net⟩ := demoteAll_follows recorded.tracked kept
    obtain ⟨promoted, promotedNet⟩ := promoteAll_follows (demoteAll (demotionList config flat ctx.pool)
      { ctx with pool := recordSeen ctx.pool flat }).2.pool.gidRow.entries final.tracked
    exact ⟨fun seen member => (visited seen member).after recorded.frame,
      (promoted.after final.frame).after recorded.frame, promotedNet.trans net⟩

theorem trackedRule (keepMask : Dict Nat (List Nat)) :
    LayerRule (Tracked keepMask) (Tracked keepMask) fun _ _ _ => True where
  weaken := fun _ tracked => tracked
  shared := fun _ _ _ same tracked => tracked.shared same
  counted := fun _ _ _ _ tracked => { tracked with }
  columns := fun _ tracked => tracked.columns
  staging := by
    intro faults candidates ctx listed tracked
    obtain ⟨visited, final, net⟩ := stageAll_follows faults tracked listed
    exact ⟨fun seen member => ⟨(visited seen member).tracked, (visited seen member).frame⟩, final.tracked,
      final.frame, net⟩
  demotion := by
    intro config flat ctx _ tracked
    obtain ⟨visited, final, net⟩ := phaseB_follows config flat tracked
    exact ⟨fun seen member => ⟨(visited seen member).tracked, (visited seen member).frame⟩, final.tracked,
      final.frame, net⟩

end FlashNext.ColdPool
