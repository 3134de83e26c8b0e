import FlashNext.ColdPool.Recency
import FlashNext.Data.Fifo

namespace FlashNext.ColdPool

open FlashNext.Data

/-- `row_tick[row]`. -/
def Pool.agedRows (pool : Pool) : List Nat :=
  pool.rowTick.keys.filter fun row => decide (row ∈ pool.rowGid.keys) && decide (pool.age row < pool.tick)

/-- The residents from before the current tick, in the order of eviction. -/
def Pool.queue (pool : Pool) : List Nat := (drain pool.age pool.agedRows).filterMap pool.rowGid.get?

/-- The residents of a pool as a cache. -/
def Pool.cache (pool : Pool) : Fifo Nat := ⟨pool.freeRows.length, pool.queue, []⟩

variable {original : Module} {pool after : Pool} {ctx next : Ctx} {gid row : Nat} {log : List (Nat × Uses)}
  {now : Nat} {ids staged : List Nat}

/-- A row that is filled in the current tick leaves the queue alone otherwise. -/
structure Filled (pool after : Pool) (row : Nat) : Prop where
  rowTick : after.rowTick = pool.rowTick.set row pool.tick
  tick : after.tick = pool.tick
  owners : ∀ other, other ≠ row → after.rowGid.get? other = pool.rowGid.get? other

theorem Filled.age (filled : Filled pool after row) {other : Nat} (different : other ≠ row) :
    after.age other = pool.age other := by
  rw [Pool.age, filled.rowTick, Dict.get?_set, if_neg different]
  rfl

theorem Filled.agedRows (filled : Filled pool after row) :
    after.agedRows = pool.agedRows.filter fun other => decide (other ≠ row) := by
  have young : ¬ after.age row < after.tick := by
    rw [Pool.age, filled.rowTick, filled.tick, Dict.get?_set, if_pos rfl]
    exact lt_irrefl _
  have same : ∀ other, (decide (other ∈ after.rowGid.keys) && decide (after.age other < after.tick)) =
      (decide (other ≠ row) && (decide (other ∈ pool.rowGid.keys) && decide (pool.age other < pool.tick))) := by
    intro other
    by_cases here : other = row
    · subst here
      simp [young]
    · have owned : other ∈ after.rowGid.keys ↔ other ∈ pool.rowGid.keys := by
        rw [Dict.mem_keys_iff, Dict.mem_keys_iff, filled.owners other here]
      simp [here, owned, filled.age here, filled.tick]
  rw [Pool.agedRows, Pool.agedRows, List.filter_filter, filled.rowTick]
  simp only [same]
  by_cases present : row ∈ pool.rowTick.keys
  · rw [Dict.keys_set_of_mem present]
  · rw [Dict.keys_set_of_not_mem present, List.filter_append]
    simp

theorem Filled.queue (filled : Filled pool after row) :
    after.queue = (drain pool.age (pool.agedRows.filter fun other => decide (other ≠ row))).filterMap
      pool.rowGid.get? := by
  have away : ∀ other ∈ pool.agedRows.filter (fun other => decide (other ≠ row)), other ≠ row := fun other member =>
    of_decide_eq_true (List.mem_filter.mp member).2
  rw [Pool.queue, filled.agedRows, drain_congr fun other member => filled.age (away other member)]
  exact List.filterMap_congr fun other member => filled.owners other (away other (drain_subset member))

theorem Filled.queue_of_unowned (filled : Filled pool after row) (unowned : row ∉ pool.rowGid.keys) :
    after.queue = pool.queue := by
  rw [filled.queue, Pool.queue, List.filter_eq_self.mpr]
  intro other member
  have owned := (List.mem_filter.mp member).2
  simp only [Bool.and_eq_true, decide_eq_true_eq] at owned ⊢
  intro equal
  subst equal
  exact unowned owned.1

theorem Filled.queue_of_first {victim : Nat} (filled : Filled pool after row)
    (first : firstLeast pool.age pool.agedRows = some row) (owner : pool.rowGid.get? row = some victim) :
    pool.queue = victim :: after.queue := by
  have distinct : pool.agedRows.Nodup := pool.rowTick.distinct.filter _
  have erased : pool.agedRows.erase row = pool.agedRows.filter fun other => decide (other ≠ row) := by
    rw [distinct.erase_eq_filter]
    exact List.filter_congr fun other _ => by by_cases same : other = row <;> simp [same]
  rw [filled.queue, Pool.queue, drain_cons first, List.filterMap_cons_some owner, erased]

/-- What the loop keeps besides the routing invariant. -/
structure Staging (original : Module) (log : List (Nat × Uses)) (now : Nat) (ids staged : List Nat) (ctx : Ctx) :
    Prop where
  inv : ctx.Inv original
  conserved : Conserved ctx.pool
  aging : Aging log now ids staged ctx.pool

/-- A cache in the state of a pool: its fresh entries are the residents staged
in the current tick. -/
structure Mirrors (cache : Fifo Nat) (pool : Pool) : Prop where
  free : cache.free = pool.freeRows.length
  old : cache.old = pool.queue
  fresh : ∀ gid, gid ∈ cache.fresh ↔ ∃ row, pool.gidRow.get? gid = some row ∧ ¬ pool.age row < pool.tick

namespace Staging

variable (staging : Staging original log now ids staged ctx)
include staging

theorem age_le (owned : ctx.pool.rowGid.get? row = some gid) :
    row ∈ ctx.pool.rowTick.keys ∧ ctx.pool.age row ≤ ctx.pool.tick := by
  have aged := staging.aging.aged gid row (staging.inv.owner row gid owned)
  refine ⟨Dict.mem_keys_of_get? aged, ?_⟩
  rw [Pool.age, aged, Option.getD_some, staging.aging.tick]
  exact Int.ofNat_le.mpr (lastTime_le staging.aging.done.times |>.trans (le_of_eq staging.aging.tick))

theorem oldestRow_eq (noFree : ctx.pool.freeRows = [])
    (first : firstLeast ctx.pool.age ctx.pool.agedRows = some row) : oldestRow ctx.pool = some row := by
  have all : evictable ctx.pool = ctx.pool.rowTick.keys := by
    rw [evictable, staging.aging.unprotected]
    simp
  change firstLeast ctx.pool.age (evictable ctx.pool) = some row
  rw [all]
  refine firstLeast_of_filter first ?_
  intro other ticked young kept aged
  -- every ticked row is a slot, and with no row free every slot is owned
  have slot := staging.conserved.ticked other ticked
  have owned : other ∈ ctx.pool.rowGid.keys := by
    simpa [noFree] using (staging.conserved.rows other).mpr ⟨slot, not_false⟩
  obtain ⟨gid, owner⟩ := Dict.mem_keys_iff.mp owned
  have current : ¬ ctx.pool.age other < ctx.pool.tick := by simpa [owned] using young
  have before : ctx.pool.age kept < ctx.pool.tick := by
    have passes := (List.mem_filter.mp aged).2
    simp only [Bool.and_eq_true, decide_eq_true_eq] at passes
    exact passes.2
  exact lt_of_lt_of_le before (not_lt.mp current)

theorem first_of_room {cache : Fifo Nat} (mirrors : Mirrors cache ctx.pool) (noFree : ctx.pool.freeRows = [])
    (room : 0 < cache.room) : ∃ row victim, firstLeast ctx.pool.age ctx.pool.agedRows = some row ∧
      oldestRow ctx.pool = some row ∧ ctx.pool.rowGid.get? row = some victim ∧
      ctx.pool.age row < ctx.pool.tick := by
  cases first : firstLeast ctx.pool.age ctx.pool.agedRows with
  | none =>
      have empty : ctx.pool.agedRows = [] := firstBest_eq_none_iff.mp first
      have closed : cache.room = 0 := by
        rw [Fifo.room, mirrors.free, mirrors.old, noFree, Pool.queue, empty]
        rfl
      omega
  | some row =>
      have passes := (List.mem_filter.mp (firstBest_mem first)).2
      simp only [Bool.and_eq_true, decide_eq_true_eq] at passes
      obtain ⟨victim, owner⟩ := Dict.mem_keys_iff.mp passes.1
      exact ⟨row, victim, rfl, staging.oldestRow_eq noFree first, owner, passes.2⟩

theorem mem_queue : gid ∈ ctx.pool.queue ↔
    ∃ row, ctx.pool.gidRow.get? gid = some row ∧ ctx.pool.age row < ctx.pool.tick := by
  constructor
  · intro queued
    obtain ⟨row, aged, owner⟩ := List.mem_filterMap.mp queued
    have passes := (List.mem_filter.mp (drain_subset aged)).2
    simp only [Bool.and_eq_true, decide_eq_true_eq] at passes
    exact ⟨row, staging.inv.owner row gid owner, passes.2⟩
  · intro holds
    obtain ⟨row, placed, before⟩ := holds
    have owner := (staging.inv.resident gid row placed).2.2
    refine List.mem_filterMap.mpr ⟨row, mem_drain (List.mem_filter.mpr ⟨(staging.age_le owner).1, ?_⟩), owner⟩
    simp [Dict.mem_keys_of_get? owner, before]

theorem resident_iff {cache : Fifo Nat} (mirrors : Mirrors cache ctx.pool) :
    gid ∈ ctx.pool.gidRow.keys ↔ cache.Holds gid := by
  rw [Fifo.Holds, mirrors.old, staging.mem_queue, mirrors.fresh, Dict.mem_keys_iff]
  constructor
  · intro holds
    obtain ⟨row, placed⟩ := holds
    by_cases before : ctx.pool.age row < ctx.pool.tick
    · exact Or.inl ⟨row, placed, before⟩
    · exact Or.inr ⟨row, placed, before⟩
  · intro cases_
    rcases cases_ with ⟨row, placed, _⟩ | ⟨row, placed, _⟩
    · exact ⟨row, placed⟩
    · exact ⟨row, placed⟩

end Staging

theorem Mirrors.fresh_install {cache : Fifo Nat} {picked : Pool} (mirrors : Mirrors cache ctx.pool)
    (filled : Filled ctx.pool (picked.install gid row) row)
    (kept : ∀ other at_, picked.gidRow.get? other = some at_ ↔
      ctx.pool.gidRow.get? other = some at_ ∧ at_ ≠ row)
    (vacated : ∀ other, ctx.pool.gidRow.get? other = some row → ctx.pool.age row < ctx.pool.tick)
    (other : Nat) : other ∈ gid :: cache.fresh ↔
      ∃ at_, (picked.install gid row).gidRow.get? other = some at_ ∧
        ¬ (picked.install gid row).age at_ < (picked.install gid row).tick := by
  have young : ¬ (picked.install gid row).age row < (picked.install gid row).tick := by
    rw [Pool.age, filled.rowTick, filled.tick, Dict.get?_set, if_pos rfl]
    exact lt_irrefl _
  have gidRow : ∀ at_, (picked.install gid row).gidRow.get? other = some at_ ↔
      if other = gid then row = at_ else picked.gidRow.get? other = some at_ := by
    intro at_
    simp only [Pool.install, Dict.get?_set]
    split <;> simp
  rw [List.mem_cons, mirrors.fresh]
  by_cases same : other = gid
  · exact iff_of_true (Or.inl same) ⟨row, (gidRow row).mpr (by rw [if_pos same]), young⟩
  · simp only [same, false_or, gidRow, if_false]
    constructor
    · intro holds
      obtain ⟨at_, placed, current⟩ := holds
      have apart : at_ ≠ row := fun here => current (here ▸ vacated other (here ▸ placed))
      refine ⟨at_, (kept other at_).mpr ⟨placed, apart⟩, ?_⟩
      rw [filled.age apart, filled.tick]
      exact current
    · intro holds
      obtain ⟨at_, placed, current⟩ := holds
      obtain ⟨before, apart⟩ := (kept other at_).mp placed
      rw [filled.age apart, filled.tick] at current
      exact ⟨at_, before, current⟩

theorem copyParams_succeeds {before : Ctx} {entries : List (String × Row)}
    (filling : Filling original before row ctx)
    (listed : ∀ entry ∈ entries, entry.1 ∈ expertNames original before.pool.experts) :
    (copyParams .none gid row entries ctx).ok = true := by
  induction entries generalizing ctx with
  | nil => rfl
  | cons entry rest ih =>
      obtain ⟨name, pinned⟩ := entry
      have inside := listed (name, pinned) (by simp)
      rw [← filling.pool] at inside
      obtain ⟨rows, found, count⟩ := Option.map_eq_some_iff.mp (filling.inv.served.shape name inside)
      have target : targetRows .none ctx gid row name = some rows := by
        simp [targetRows, Faults.none, found, count, filling.flying.bound]
      rw [copyParams, target]
      exact ih (filling.copy name pinned) fun entry member => listed entry (by simp [member])

theorem rowFromHost_succeeds (inv : ctx.Inv original) (flying : ctx.Flying row) (cold : gid ∈ ctx.pool.cold) :
    (rowFromHost .none gid row ctx).ok = true := by
  obtain ⟨rows, found, hosted⟩ := inv.host gid cold
  have entries : hostEntry .none ctx gid = rows.entries := by simp [hostEntry, Faults.none, found]
  have copied := @copyParams_succeeds original ctx gid row ctx rows.entries (.start inv flying) hosted.listed
  simp only [rowFromHost, entries, if_neg hosted.nonempty, copied, if_true]

theorem stageOne_succeeds {faults : Faults} {picked : Ctx} (absent : gid ∉ ctx.pool.gidRow.keys)
    (found : pickRow (resetNeed gid ctx) = (picked, some row)) (ok : (rowFromHost faults gid row picked).ok = true) :
    ∃ next, (stageOne faults gid ctx).2 = some next ∧ next.pool = picked.pool.install gid row := by
  have still : gid ∉ (resetNeed gid ctx).pool.gidRow.keys := absent
  have filled := rowFromHost_pool faults gid row picked
  rw [if_pos ok] at filled
  simp only [stageOne, if_neg still, found, ok, if_true]
  exact ⟨_, rfl, filled⟩

theorem Staging.mirrors_free {cache : Fifo Nat} (staging : Staging original log now ids staged ctx)
    (mirrors : Mirrors cache ctx.pool) (absent : ¬ cache.Holds gid) {rest : List Nat}
    (free : ctx.pool.freeRows = row :: rest) :
    Mirrors (cache.request gid) (({ (resetNeed gid ctx).pool with freeRows := rest } : Pool).install gid row) := by
  have unowned : row ∉ ctx.pool.rowGid.keys := staging.conserved.disjoint row (by
    rw [free]
    exact List.mem_cons_self)
  have filled : Filled ctx.pool (({ (resetNeed gid ctx).pool with freeRows := rest } : Pool).install gid row) row :=
    ⟨rfl, rfl, fun other different => by simp [Pool.install, resetNeed, different]⟩
  have apart : ∀ other at_, ctx.pool.gidRow.get? other = some at_ → at_ ≠ row := by
    intro other at_ placed equal
    subst equal
    exact unowned (Dict.mem_keys_of_get? (staging.inv.resident other at_ placed).2.2)
  have places : cache.free = rest.length + 1 := mirrors.free.trans (congrArg List.length free)
  rw [Fifo.request_of_free absent places]
  refine ⟨rfl, ?_, ?_⟩
  · exact mirrors.old.trans (filled.queue_of_unowned unowned).symm
  · refine mirrors.fresh_install filled ?_ ?_
    · exact fun other at_ => ⟨fun placed => ⟨placed, apart other at_ placed⟩, fun placed => placed.1⟩
    · exact fun other placed => absurd rfl (apart other row placed)

theorem Staging.mirrors_full {cache : Fifo Nat} (staging : Staging original log now ids staged ctx)
    (mirrors : Mirrors cache ctx.pool) (absent : ¬ cache.Holds gid) (space : 0 < cache.room)
    (free : ctx.pool.freeRows = []) (oldest : oldestRow (resetNeed gid ctx).pool = some row) :
    Mirrors (cache.request gid) ((evictRow row (resetNeed gid ctx)).pool.install gid row) := by
  obtain ⟨first, victim, least, some, owner, before⟩ := staging.first_of_room mirrors free space
  obtain rfl : row = first := Option.some.inj (oldest.symm.trans some)
  have evicted : (evictRow row (resetNeed gid ctx)).pool = { (resetNeed gid ctx).pool with
      rowGid := ctx.pool.rowGid.pop row, gidRow := ctx.pool.gidRow.pop victim } := by
    rw [evictRow, show (resetNeed gid ctx).pool.rowGid.get? row = Option.some victim from owner]
    rfl
  have placedVictim := staging.inv.owner row victim owner
  have filled : Filled ctx.pool ((evictRow row (resetNeed gid ctx)).pool.install gid row) row := by
    rw [evicted]
    exact ⟨rfl, rfl, fun other different => by simp [Pool.install, different]⟩
  have places : cache.free = 0 := mirrors.free.trans (congrArg List.length free)
  rw [Fifo.request_of_full absent places]
  refine ⟨?_, ?_, ?_⟩
  · rw [evicted]
    exact (congrArg List.length free).symm
  · rw [mirrors.old, filled.queue_of_first least owner]
    rfl
  · refine mirrors.fresh_install filled ?_ fun _ _ => before
    intro other at_
    rw [evicted, Dict.get?_pop]
    split
    · next same =>
        subst same
        rw [placedVictim]
        constructor
        · intro none
          contradiction
        · intro holds
          obtain ⟨here, away⟩ := holds
          exact absurd (Option.some.inj here).symm away
    · next different =>
        refine ⟨fun placed => ⟨placed, ?_⟩, fun placed => placed.1⟩
        intro equal
        subst equal
        have back := (staging.inv.resident other at_ placed).2.2
        exact different (Option.some.inj (back.symm.trans owner))

/-- A turn without faults is a request to the cache, as long as there is room. -/
theorem Staging.turn_mirrors {cache : Fifo Nat} (staging : Staging original log now ids staged ctx)
    (mirrors : Mirrors cache ctx.pool) (cold : gid ∈ ctx.pool.cold) (room : cache.Holds gid ∨ 0 < cache.room) :
    ∃ next, (stageOne .none gid ctx).2 = some next ∧ Mirrors (cache.request gid) next.pool ∧
      Staging original log now ids (stagedNow gid ctx next ++ staged) next := by
  have onward : ∀ {next : Ctx}, (stageOne .none gid ctx).2 = some next →
      Staging original log now ids (stagedNow gid ctx next ++ staged) next := fun reached =>
    ⟨((stageOne_inv .none staging.inv cold).2 _ reached).1.inv, stageOne_conserved staging.conserved reached,
      (aging_kept log now ids).turn staging.inv staging.aging reached⟩
  by_cases resident : gid ∈ ctx.pool.gidRow.keys
  · have held := (staging.resident_iff mirrors).mp resident
    have passed : (stageOne .none gid ctx).2 = some (resetNeed gid ctx) := by
      have still : gid ∈ (resetNeed gid ctx).pool.gidRow.keys := resident
      simp only [stageOne, if_pos still]
    refine ⟨_, passed, ?_, onward passed⟩
    rw [Fifo.request_held held]
    exact ⟨mirrors.free, mirrors.old, mirrors.fresh⟩
  · have absent : ¬ cache.Holds gid := fun held => resident ((staging.resident_iff mirrors).mpr held)
    have space := room.resolve_left absent
    obtain ⟨pickedInv, flying⟩ := pickRow_inv (resetNeed_inv staging.inv gid)
    -- whatever row is picked, the staging goes through
    have staged : ∀ {picked : Ctx} {row : Nat}, pickRow (resetNeed gid ctx) = (picked, some row) →
        ∃ next, (stageOne .none gid ctx).2 = some next ∧ next.pool = picked.pool.install gid row := by
      intro picked row found
      have frame := pickRow_frame (resetNeed gid ctx)
      rw [found] at pickedInv flying frame
      have pickedCold : gid ∈ picked.pool.cold := (congrArg Pool.cold frame.frozen) ▸ cold
      exact stageOne_succeeds resident found (rowFromHost_succeeds pickedInv (flying row rfl) pickedCold)
    rcases pickRow_cases (resetNeed gid ctx) with ⟨row, rest, free, found⟩ | ⟨free, oldest, found⟩ |
      ⟨row, free, oldest, found⟩
    · obtain ⟨next, reached, pool⟩ := staged found
      exact ⟨next, reached, pool ▸ staging.mirrors_free mirrors absent free, onward reached⟩
    · obtain ⟨row, _, _, some, _⟩ := staging.first_of_room mirrors free space
      exact absurd (oldest.symm.trans some) (by simp)
    · obtain ⟨next, reached, pool⟩ := staged found
      exact ⟨next, reached, pool ▸ staging.mirrors_full mirrors absent space free oldest, onward reached⟩

/-- A loop without faults serves its candidates one by one, as long as there is
room for all of them. -/
theorem Staging.loop_mirrors {cache : Fifo Nat} {candidates : List Nat}
    (staging : Staging original log now ids staged ctx) (mirrors : Mirrors cache ctx.pool)
    (cold : ∀ gid ∈ candidates, gid ∈ ctx.pool.cold) (room : candidates.length ≤ cache.room) :
    ∃ later, Staging original log now ids later (stageAll .none candidates ctx).2 ∧
      Mirrors (cache.serve candidates) (stageAll .none candidates ctx).2.pool := by
  induction candidates generalizing ctx cache staged with
  | nil => exact ⟨staged, staging, mirrors⟩
  | cons gid rest ih =>
      rw [List.length_cons] at room
      obtain ⟨next, reached, mirrored, onward⟩ := staging.turn_mirrors mirrors (cold gid (by simp)) (Or.inr (by omega))
      have frame := ((stageOne_inv .none staging.inv (cold gid (by simp))).2 next reached).1.frame
      have stillCold : ∀ gid ∈ rest, gid ∈ next.pool.cold := fun gid member =>
        (congrArg Pool.cold frame.frozen) ▸ cold gid (by simp [member])
      have space := Fifo.request_room cache gid
      obtain ⟨later, final⟩ := ih onward mirrored stillCold (by omega)
      refine ⟨later, ?_⟩
      simp only [stageAll]
      cases turn : stageOne .none gid ctx with
      | mk visited next? =>
          obtain rfl : next? = some next := (congrArg Prod.snd turn).symm.trans reached
          exact final

end FlashNext.ColdPool
