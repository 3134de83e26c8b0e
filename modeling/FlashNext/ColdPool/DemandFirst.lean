import FlashNext.ColdPool.StagingOrder
import FlashNext.Data.Ranking

namespace FlashNext.ColdPool

open FlashNext.Data

variable {original : Module} {ctx : Ctx} {faults : Faults} {gid : Nat} {candidates staged ids : List Nat}
  {log : List (Nat × Uses)} {now : Nat}

theorem turn_candidate {turn : Turn} (member : turn ∈ turns faults candidates staged ctx) : turn.gid ∈ candidates := by
  induction candidates generalizing ctx staged with
  | nil => contradiction
  | cons gid rest ih =>
      rcases List.mem_cons.mp member with rfl | later
      · exact List.mem_cons_self
      · split at later
        · contradiction
        · exact List.mem_cons_of_mem gid (ih later)

/-- Either every candidate has its turn, or the one that ends the loop was
reset without becoming resident. -/
theorem turns_gids (faults : Faults) (candidates staged : List Nat) (ctx : Ctx) :
    (turns faults candidates staged ctx).map Turn.gid = candidates ∨
      ∃ gid ∈ (turns faults candidates staged ctx).map Turn.gid,
        gid ∉ (stageAll faults candidates ctx).2.pool.gidRow.keys := by
  induction candidates generalizing ctx staged with
  | nil => exact Or.inl rfl
  | cons gid rest ih =>
      simp only [stageAll, turns]
      cases turn : stageOne faults gid ctx with
      | mk visited next? =>
          cases next? with
          | none =>
              refine Or.inr ⟨gid, by simp, ?_⟩
              intro resident
              have still : gid ∈ (resetNeed gid ctx).pool.gidRow.keys := resident
              simp only [stageOne, if_pos still] at turn
              cases turn
          | some next =>
              rcases ih (stagedNow gid ctx next ++ staged) next with all | ⟨other, reset, absent⟩
              · exact Or.inl (congrArg (gid :: ·) all)
              · exact Or.inr ⟨other, List.mem_cons_of_mem gid reset, absent⟩

theorem residents_le_slots (inv : ctx.Inv original) (conserved : Conserved ctx.pool) :
    ctx.pool.gidRow.keys.length ≤ ctx.pool.slots := by
  have rows : ctx.pool.rowGid.keys.length ≤ (List.range' ctx.pool.keepLen ctx.pool.slots).length := by
    refine (List.subperm_of_subset ctx.pool.rowGid.distinct ?_).length_le
    intro row owned
    have slot := ((conserved.rows row).mp (Or.inr owned)).1
    exact List.mem_range'_1.mpr slot
  have owners : ctx.pool.gidRow.keys.length ≤ (ctx.pool.rowGid.entries.map Prod.snd).length := by
    refine (List.subperm_of_subset ctx.pool.gidRow.distinct ?_).length_le
    intro gid resident
    obtain ⟨row, placed⟩ := Dict.mem_keys_iff.mp resident
    exact List.mem_map.mpr ⟨(row, gid), Dict.mem_entries_iff.mpr (inv.resident gid row placed).2.2, rfl⟩
  have entries : ctx.pool.rowGid.keys.length = ctx.pool.rowGid.entries.length := List.length_map _
  rw [List.length_range', entries] at rows
  rw [List.length_map] at owners
  exact owners.trans rows

theorem Staging.slots_le_room (staging : Staging original log now ids staged ctx)
    (older : ∀ gid row, ctx.pool.gidRow.get? gid = some row → ctx.pool.age row < ctx.pool.tick) :
    ctx.pool.slots ≤ ctx.pool.cache.room := by
  have whole : ctx.pool.queue.length = (drain ctx.pool.age ctx.pool.agedRows).length := by
    refine List.filterMap_length_eq_length.mpr fun row member => ?_
    have passes := (List.mem_filter.mp (drain_subset member)).2
    simp only [Bool.and_eq_true, decide_eq_true_eq] at passes
    obtain ⟨gid, owner⟩ := Dict.mem_keys_iff.mp passes.1
    rw [owner]
    rfl
  have covered : List.range' ctx.pool.keepLen ctx.pool.slots ⊆
      ctx.pool.freeRows ++ drain ctx.pool.age ctx.pool.agedRows := by
    intro row inside
    have slot : ctx.pool.slotRow row := List.mem_range'_1.mp inside
    rw [List.mem_append]
    refine ((staging.conserved.rows row).mpr ⟨slot, not_false⟩).imp id fun owned => ?_
    obtain ⟨gid, owner⟩ := Dict.mem_keys_iff.mp owned
    refine mem_drain (List.mem_filter.mpr ⟨(staging.age_le owner).1, ?_⟩)
    simp [owned, older gid row (staging.inv.owner row gid owner)]
  have counted := (List.subperm_of_subset List.nodup_range' covered).length_le
  rw [List.length_range', List.length_append, ← whole] at counted
  exact counted

namespace Tick

def need (sigmoid : ℚ → ℚ) (tick : Tick) (gid : Nat) : ℚ := (tick.voted sigmoid).pool.need.getD gid 0

/-- The non-resident cold experts with enough need. -/
def wanting (sigmoid : ℚ → ℚ) (tick : Tick) : List Nat :=
  tick.ctx.pool.coldIdsGpu.filter fun gid =>
    decide (tick.config.needHits ≤ tick.need sigmoid gid) && decide (gid ∉ tick.ctx.pool.gidRow.keys)

def quota (sigmoid : ℚ → ℚ) (tick : Tick) : Nat :=
  min tick.config.maxStage (min (tick.wanting sigmoid).length tick.ctx.pool.slots)

def resets (sigmoid : ℚ → ℚ) (tick : Tick) : List Nat := (tick.turns sigmoid).map Turn.gid

end Tick

/-- At the end of the tick as many of the neediest experts as possible are
resident, and only residents had their counters reset. -/
structure ServesDemand (sigmoid : ℚ → ℚ) (tick : Tick) : Prop where
  staged : ∃ chosen, Largest (tick.need sigmoid) (tick.quota sigmoid) (tick.wanting sigmoid) chosen ∧
    ∀ gid ∈ chosen, gid ∈ (tick.final sigmoid).pool.gidRow.keys
  reset : ∀ gid ∈ tick.resets sigmoid, gid ∈ (tick.final sigmoid).pool.gidRow.keys

/-- The candidates fit the slots, enough of them are not resident, and none is
passed over as a resident and then evicted for a later candidate. -/
structure InOrder (sigmoid : ℚ → ℚ) (tick : Tick) : Prop where
  fits : (tick.candidates sigmoid).length ≤ tick.ctx.pool.slots
  enough : tick.quota sigmoid ≤
    ((tick.candidates sigmoid).filter fun gid => decide (gid ∉ tick.ctx.pool.gidRow.keys)).length
  spared : tick.ctx.pool.cache.Spares (tick.candidates sigmoid)

section Tick

variable {sigmoid : ℚ → ℚ} {tick : Tick}

theorem candidates_eq (sigmoid : ℚ → ℚ) (tick : Tick) : tick.candidates sigmoid =
    (tick.config.argsort.rank (tick.need sigmoid) (tick.ctx.pool.coldIdsGpu.filter fun gid =>
      decide (tick.config.needHits ≤ tick.need sigmoid gid))).take tick.config.maxStage := rfl

theorem largest_of_enough (distinct : tick.ctx.pool.coldIdsGpu.Nodup)
    (enough : tick.quota sigmoid ≤
      ((tick.candidates sigmoid).filter fun gid => decide (gid ∉ tick.ctx.pool.gidRow.keys)).length) :
    ∃ chosen, Largest (tick.need sigmoid) (tick.quota sigmoid) (tick.wanting sigmoid) chosen ∧
      ∀ gid ∈ chosen, gid ∈ tick.candidates sigmoid := by
  have sorted := tick.config.argsort.rank_pairwise (tick.need sigmoid) (tick.ctx.pool.coldIdsGpu.filter fun gid =>
    decide (tick.config.needHits ≤ tick.need sigmoid gid))
  have unique := @Argsort.rank_nodup _ _ _ (tick.need sigmoid) tick.config.argsort _ (distinct.filter fun gid =>
    decide (tick.config.needHits ≤ tick.need sigmoid gid))
  rw [candidates_eq] at enough ⊢
  generalize listed : tick.config.argsort.rank (tick.need sigmoid) (tick.ctx.pool.coldIdsGpu.filter fun gid =>
    decide (tick.config.needHits ≤ tick.need sigmoid gid)) = ranked at sorted unique enough ⊢
  have same : ∀ gid, gid ∈ ranked.filter (fun gid => decide (gid ∉ tick.ctx.pool.gidRow.keys)) ↔
      gid ∈ tick.wanting sigmoid := by
    intro gid
    rw [← listed, List.mem_filter, Argsort.mem_rank, List.mem_filter, Tick.wanting, List.mem_filter, Bool.and_eq_true,
      and_assoc]
  have cut : (ranked.take tick.config.maxStage).filter (fun gid => decide (gid ∉ tick.ctx.pool.gidRow.keys)) <+:
      ranked.filter fun gid => decide (gid ∉ tick.ctx.pool.gidRow.keys) :=
    (List.take_prefix _ ranked).filter _
  refine ⟨_, .take (sorted.filter _) (unique.filter _) same (enough.trans cut.length_le), ?_⟩
  intro gid member
  have inside : gid ∈ (ranked.take tick.config.maxStage).filter
      fun gid => decide (gid ∉ tick.ctx.pool.gidRow.keys) := by
    have front := (List.prefix_iff_eq_take.mp cut)
    rw [front]
    exact (List.take_subset_take_left _ enough) member
  exact List.mem_of_mem_filter inside

/-- A tick without faults and without a demotion pass. -/
structure Plain (tick : Tick) : Prop where
  fits : tick.Fits
  whole : tick.faults = .none
  off : tick.degrade = false

theorem Plain.final (plain : Plain tick) :
    tick.final sigmoid = (stageAll .none (tick.candidates sigmoid) (tick.voted sigmoid)).2 := by
  rw [Tick.final, if_pos plain.fits, plain.off, tickLayer, voteAndStage_voted, plain.whole]
  rfl

theorem Plain.resets (plain : Plain tick) : tick.resets sigmoid =
    (turns .none (tick.candidates sigmoid) [] (tick.voted sigmoid)).map Turn.gid := by
  rw [Tick.resets, Tick.turns, if_pos plain.fits, plain.whole]

/-- A layer at the start of its tick: every resident is older than the tick. -/
structure Ready (original : Module) (log : List (Nat × Uses)) (tick : Tick) : Prop where
  inv : tick.ctx.Inv original
  conserved : Conserved tick.ctx.pool
  aged : Aged log tick.ctx.pool
  counted : 0 < tick.time
  older : ∀ entry ∈ log, entry.1 ≤ tick.time - 1
  distinct : tick.ctx.pool.coldIdsGpu.Nodup

namespace Ready

variable (ready : Ready original log tick)
include ready

theorem staging (sigmoid : ℚ → ℚ) : Staging original log tick.time tick.ids [] (tick.voted sigmoid) where
  inv := { ready.inv with static := { ready.inv.static with } }
  conserved := { ready.conserved with }
  aging := (Aging.begin ready.aged tick.ids).unstaged rfl fun _ _ placed => placed

theorem before (gid row : Nat) (placed : tick.ctx.pool.gidRow.get? gid = some row) :
    tick.ctx.pool.age row < tick.ctx.pool.tick := by
  rw [Pool.age, ready.aged.aged gid row placed, Option.getD_some]
  have bound : lastStaged log gid ≤ tick.time - 1 := lastTime_le ready.older
  have counted := ready.counted
  exact Int.ofNat_lt.mpr (by simp only [Tick.time] at *; omega)

theorem mirrors (sigmoid : ℚ → ℚ) : Mirrors tick.ctx.pool.cache (tick.voted sigmoid).pool := by
  refine ⟨rfl, rfl, ?_⟩
  intro gid
  constructor
  · intro member
    contradiction
  · intro holds
    obtain ⟨row, placed, current⟩ := holds
    exact absurd (ready.before gid row placed) current

theorem cold (gid : Nat) (member : gid ∈ tick.candidates sigmoid) : gid ∈ (tick.voted sigmoid).pool.cold :=
  (ready.staging sigmoid).inv.static.coldIds ▸ candidates_cold gid member

/-- As long as the candidates fit the slots, the tick serves them like a
first-in-first-out cache. -/
theorem served (plain : Plain tick) (fits : (tick.candidates sigmoid).length ≤ tick.ctx.pool.slots) (gid : Nat) :
    gid ∈ (tick.final sigmoid).pool.gidRow.keys ↔
      (tick.ctx.pool.cache.serve (tick.candidates sigmoid)).Holds gid := by
  have staging := ready.staging sigmoid
  have room : tick.ctx.pool.slots ≤ tick.ctx.pool.cache.room := staging.slots_le_room ready.before
  obtain ⟨later, final, mirrors⟩ := staging.loop_mirrors (ready.mirrors sigmoid) (fun gid => ready.cold gid)
    (fits.trans room)
  rw [plain.final]
  exact final.resident_iff mirrors

theorem distinct_candidates (sigmoid : ℚ → ℚ) : (tick.candidates sigmoid).Nodup :=
  (tick.config.argsort.rank_nodup (ready.distinct.filter _)).sublist (List.take_sublist _ _)

theorem spared_iff (plain : Plain tick) (fits : (tick.candidates sigmoid).length ≤ tick.ctx.pool.slots) :
    (∀ gid ∈ tick.candidates sigmoid, gid ∈ (tick.final sigmoid).pool.gidRow.keys) ↔
      tick.ctx.pool.cache.Spares (tick.candidates sigmoid) := by
  have unseen : ∀ gid ∈ tick.candidates sigmoid, gid ∉ tick.ctx.pool.cache.fresh := fun _ _ => List.not_mem_nil
  rw [← Fifo.serve_holds_iff (ready.distinct_candidates sigmoid) unseen]
  exact forall₂_congr fun gid _ => ready.served plain fits gid

theorem fits_of_reset (plain : Plain tick)
    (reset : ∀ gid ∈ tick.resets sigmoid, gid ∈ (tick.final sigmoid).pool.gidRow.keys) :
    (∀ gid ∈ tick.candidates sigmoid, gid ∈ (tick.final sigmoid).pool.gidRow.keys) ∧
      (tick.candidates sigmoid).length ≤ tick.ctx.pool.slots := by
  have staging := ready.staging sigmoid
  rw [plain.resets, plain.final] at reset
  rw [plain.final]
  rcases turns_gids .none (tick.candidates sigmoid) [] (tick.voted sigmoid) with all | ⟨gid, member, absent⟩
  · rw [all] at reset
    refine ⟨reset, ?_⟩
    have counted := (List.subperm_of_subset (ready.distinct_candidates sigmoid) reset).length_le
    obtain ⟨_, final, _⟩ := stageAll_inv .none staging.inv (fun gid => ready.cold gid)
    have slots : (stageAll .none (tick.candidates sigmoid) (tick.voted sigmoid)).2.pool.slots =
        tick.ctx.pool.slots := by
      have same := congrArg Pool.slots final.frame.frozen
      exact same
    have bound := residents_le_slots final.inv (stageAll_conserved .none _ staging.conserved)
    exact slots ▸ counted.trans bound
  · exact absurd (reset gid member) absent

theorem servesDemand_iff (plain : Plain tick) : ServesDemand sigmoid tick ↔ InOrder sigmoid tick := by
  constructor
  · intro serves
    obtain ⟨resident, fits⟩ := ready.fits_of_reset plain serves.reset
    obtain ⟨chosen, largest, staged⟩ := serves.staged
    refine ⟨fits, ?_, (ready.spared_iff plain fits).mp resident⟩
    rw [← largest.size]
    refine (List.subperm_of_subset largest.distinct fun gid member => ?_).length_le
    have wanted := (List.mem_filter.mp (largest.listed gid member)).2
    simp only [Bool.and_eq_true, decide_eq_true_eq] at wanted
    refine List.mem_filter.mpr ⟨?_, decide_eq_true wanted.2⟩
    -- a resident of the end that was none at the start was a candidate
    rcases Fifo.serve_holds ((ready.served plain fits gid).mp (staged gid member)) with held | candidate
    · have was := ((ready.staging sigmoid).resident_iff (ready.mirrors sigmoid)).mpr held
      exact absurd was wanted.2
    · exact candidate
  · intro order
    have resident := (ready.spared_iff plain order.fits).mpr order.spared
    obtain ⟨chosen, largest, candidates⟩ := largest_of_enough ready.distinct order.enough
    refine ⟨⟨chosen, largest, fun gid member => resident gid (candidates gid member)⟩, ?_⟩
    intro gid member
    rw [plain.resets] at member
    obtain ⟨turn, inside, rfl⟩ := List.mem_map.mp member
    exact resident turn.gid (turn_candidate inside)

end Ready

end Tick

theorem shrinkLoop_pools {env : ShrinkEnv} {keepMask : Dict Nat (List Nat)} {holds : Pool → Prop}
    (each : ∀ index layer keep experts cold held original, Target keepMask original layer keep experts cold →
      holds (shrunkPool env index layer keep experts cold held))
    {indices : List Nat} {state next : State} {count total : Nat}
    (before : ∀ layer pool, state.layers.get? layer = some pool → holds pool)
    (done : shrinkLoop env keepMask indices state count = (.done next, total)) :
    ∀ layer pool, next.layers.get? layer = some pool → holds pool := by
  induction indices generalizing state count with
  | nil =>
      simp only [shrinkLoop, Prod.mk.injEq, Outcome.done.injEq] at done
      exact done.1 ▸ before
  | cons index rest ih =>
      unfold shrinkLoop at done
      cases present : state.modules[index]? with
      | none => exact ih before (by simpa [present] using done)
      | some original =>
          simp only [present] at done
          cases target : shrinkTarget keepMask original with
          | none => exact ih before (by simpa [target] using done)
          | some found =>
              obtain ⟨layer, keep, experts, cold⟩ := found
              simp only [target] at done
              cases shrunk : shrinkModule env state index original layer keep experts cold with
              | raised error failed => simp [shrunk] at done
              | done after =>
                  simp only [shrunk] at done
                  obtain ⟨_, _, _, _, rfl⟩ := shrinkModule_done shrunk
                  refine ih ?_ done
                  intro other pool found
                  rw [Dict.get?_set] at found
                  split at found
                  · cases found
                    exact each _ _ _ _ _ _ original (shrinkTarget_spec target)
                  · exact before other pool found

theorem maybeShrink_coldIds {model : LoadedModel} {env : ShrinkEnv} {state : State}
    (done : maybeShrinkAfterProcess env (State.fresh model.modules) = .done state) :
    ∀ layer pool, state.layers.get? layer = some pool → pool.coldIdsGpu.Nodup := by
  unfold maybeShrinkAfterProcess at done
  split at done
  · cases done
    simp [State.fresh]
  · cases mask : env.keepMask with
    | none =>
        simp only [mask, Outcome.done.injEq] at done
        subst done
        simp [State.fresh]
    | some keepMask =>
        have built := @shrinkLoop_pools env keepMask (fun pool => pool.coldIdsGpu.Nodup)
          fun index layer keep experts cold held original target => by
            rw [show (shrunkPool env index layer keep experts cold held).coldIdsGpu = cold from rfl, target.coldIds]
            exact List.nodup_range.filter _
        simp only [mask] at done
        split at done
        · contradiction
        · next final loop =>
            cases done
            exact built (by simp [State.fresh]) loop
        · next final total _ loop =>
            have ok : ∀ layer pool, final.layers.get? layer = some pool → pool.coldIdsGpu.Nodup :=
              built (by simp [State.fresh]) loop
            cases done
            exact ok

/-- In a run with demotion off, a tick whose stagings all go through serves the
neediest experts exactly when its candidates come in order. -/
theorem tick_servesDemand_iff (sigmoid : ℚ → ℚ) (model : LoadedModel) (env : ShrinkEnv) (state : State)
    (completed : maybeShrinkAfterProcess env (State.fresh model.modules) = .done state) (events : List Event)
    (calls : ∀ event ∈ events, event.Calls fun config => config.degrade = false) :
    ∀ before tick after, ticks sigmoid state events = before ++ tick :: after → tick.Fits → tick.faults = .none →
      (ServesDemand sigmoid tick ↔ InOrder sigmoid tick) := by
  have loaded := maybeShrink_loaded completed
  have start : Settled (fun ctx => Routed model ctx ∧ Conserved ctx.pool) state :=
    loaded.settled fun ctx original source shrunk => ⟨⟨original, source, shrunk.inv⟩, shrunk.conserved⟩
  have allows : (machine sigmoid).Meets (EventAllows (fun _ _ _ => False) sigmoid) state events :=
    Machine.meets_of_forall fun state event member =>
      eventAllows_of_degradeOff _ sigmoid (Event.degradeOff_of_calls (calls event member)) state
  have watch := ((aged_watch sigmoid model).mono (fun ctx (ok : Routed model ctx ∧ Conserved ctx.pool) => ok.1)).and
    (frozen_watch (slotRule model) (fun _ off => off) fun pool => pool.coldIdsGpu.Nodup)
  have recorded : Recorded (fun log pool => Aged (log.map (Tick.uses sigmoid)) pool ∧ pool.frozen.coldIdsGpu.Nodup)
      [] state := fun layer pool found =>
    ⟨aged_of_loaded loaded layer pool found, maybeShrink_coldIds completed layer pool found⟩
  have seen := watch.run_recorded (slotRule model) start allows calls recorded
  intro before tick after split fits whole
  have here := seen.entry split
  obtain ⟨⟨original, _, inv⟩, conserved⟩ := here.settled
  have ready : Ready original ((ownTicks tick.layer before).map (Tick.uses sigmoid)) tick :=
    ⟨inv, conserved, here.watched.1, here.made.counted, here.earlier.1.times, here.watched.2⟩
  have off : tick.degrade = false := by rw [here.made.enabled, here.admitted, Bool.and_false]
  exact ready.servesDemand_iff ⟨fits, whole, off⟩

def cappedConfig : HookConfig := { pairConfig with topK := 2, maxStage := 1 }

/-- Four tokens pick two experts from equal logits, and a tick follows. -/
def cappedTick (first second : Int) : List Event :=
  .stash (some 0) false ⟨5, List.replicate 4 (List.replicate 5 0), equalLogits_rect⟩
      ⟨2, List.replicate 4 [first, second], by simp⟩ 2 ::
    List.replicate 8 (.hook cappedConfig .none false)

/-- Expert 2 is staged, and then asked for by every token. -/
def cappedEvents : List Event := cappedTick 0 1 ++ cappedTick 0 2

theorem cappedEvents_calls : ∀ event ∈ cappedEvents, event.Calls fun config => config.degrade = false := by
  simp [cappedEvents, cappedTick, Event.Calls, cappedConfig, pairConfig]

theorem cappedEvents_whole {tick : Tick} (member : tick ∈ ticks (fun _ => 1 / 2) pairState cappedEvents) :
    tick.faults = .none := by
  obtain ⟨capturing, source⟩ := ticks_source member
  simp only [cappedEvents, cappedTick, List.mem_append, List.mem_cons, reduceCtorEq, false_or, List.mem_replicate,
    Event.hook.injEq] at source
  rcases source with ⟨_, _, none, _⟩ | ⟨_, _, none, _⟩
  · exact none
  · exact none

theorem tick_servesDemand_iff_cappedEvents : ∃ tick rest,
    ticks (fun _ => 1 / 2) pairState cappedEvents = tick :: rest ∧
      (ServesDemand (fun _ => 1 / 2) tick ↔ InOrder (fun _ => 1 / 2) tick) := by
  have logged : (match ticks (fun _ => 1 / 2) pairState cappedEvents with
      | first :: _ => decide first.Fits
      | [] => false) = true := by decide +kernel
  split at logged
  · next first rest same =>
      exact ⟨first, rest, same, tick_servesDemand_iff (fun _ => 1 / 2) starvedModel pairEnv pairState rfl cappedEvents
        cappedEvents_calls [] first rest same (of_decide_eq_true logged)
        (cappedEvents_whole (same ▸ List.mem_cons_self))⟩
  · exact absurd logged Bool.false_ne_true

/-- In the second tick expert 3 wants a row and one is free, but the only
candidate under the cap is expert 2, which is resident. -/
theorem tick_not_servesDemand : ¬ ∀ (sigmoid : ℚ → ℚ) (model : LoadedModel) (env : ShrinkEnv) (state : State),
    maybeShrinkAfterProcess env (State.fresh model.modules) = .done state → ∀ events : List Event,
      (∀ event ∈ events, event.Calls fun config => config.degrade = false) →
        ∀ before tick after, ticks sigmoid state events = before ++ tick :: after → tick.Fits →
          tick.faults = .none → ServesDemand sigmoid tick := by
  intro claimed
  have logged : (ticks (fun _ => 1 / 2) pairState cappedEvents).getLast?.any (fun second =>
      second.Fits ∧ second.quota (fun _ => 1 / 2) = 1 ∧ second.wanting (fun _ => 1 / 2) = [3] ∧
        (second.final fun _ => 1 / 2).pool.gidRow.keys = [2]) = true := by decide +kernel
  obtain ⟨second, found, facts⟩ := (Option.any_eq_true _ _).mp logged
  obtain ⟨fits, quota, wanting, resident⟩ := of_decide_eq_true facts
  have same := (List.dropLast_append_getLast? second found).symm
  have serves := claimed (fun _ => 1 / 2) starvedModel pairEnv pairState rfl cappedEvents cappedEvents_calls
    _ second [] same fits (cappedEvents_whole (same ▸ by simp))
  obtain ⟨chosen, largest, staged⟩ := serves.staged
  obtain ⟨gid, rfl⟩ := List.length_eq_one_iff.mp (largest.size.trans quota)
  have wanted := largest.listed gid (by simp)
  have there := staged gid (by simp)
  rw [wanting, List.mem_singleton] at wanted
  rw [resident, List.mem_singleton, wanted] at there
  exact absurd there (by decide)

end FlashNext.ColdPool
