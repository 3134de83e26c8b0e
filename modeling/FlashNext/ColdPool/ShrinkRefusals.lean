import FlashNext.ColdPool.InventoryGate
import FlashNext.ColdPool.RoutingSafety

namespace FlashNext.ColdPool

open FlashNext.Data

section Order

variable {modules : List Module} {before after : List Nat} {index : Nat}

theorem range_split (range : List.range modules.length = before ++ index :: after) (other : Nat) :
    (other ∈ before ↔ other < index) ∧ (other ∈ after ↔ index < other ∧ other < modules.length) := by
  have ordered : (List.range modules.length).Pairwise (· < ·) := List.pairwise_lt_range
  have members : ∀ place, place < modules.length ↔ place ∈ before ++ index :: after :=
    fun place => range ▸ List.mem_range.symm
  rw [range] at ordered
  obtain ⟨_, tail, apart⟩ := List.pairwise_append.mp ordered
  have later := (List.pairwise_cons.mp tail).1
  have position : index < modules.length := (members index).mpr (by simp)
  refine ⟨⟨fun member => apart other member index (by simp), ?_⟩, ⟨?_, ?_⟩⟩
  · intro below
    have inside := (members other).mp (by omega)
    rcases List.mem_append.mp inside with left | right
    · exact left
    · rcases List.mem_cons.mp right with rfl | far
      · omega
      · have above := later other far
        omega
  · intro member
    exact ⟨later other member, (members other).mpr (by simp [member])⟩
  · intro ⟨above, inside⟩
    rcases List.mem_append.mp ((members other).mp inside) with left | right
    · have below := apart other left index (by simp)
      omega
    · rcases List.mem_cons.mp right with rfl | far
      · omega
      · exact far

end Order

/-- The call either shrinks module `index` and leaves it no per-expert tensor,
or raises and leaves it alone. -/
def GateComplete (original : Module) (experts index : Nat) : Outcome → Prop
  | .done state => ∃ module, state.modules[index]? = some module ∧ ∀ name, ¬ module.PerExpert experts name
  | .raised _ failed => failed.modules[index]? = some original

section Gate

variable {env : ShrinkEnv} {keepMask : Dict Nat (List Nat)} {modules : List Module} {index layer experts : Nat}
  {original : Module} {keep cold : List Nat}

theorem swappedModule_ne (target : Target keepMask original layer keep experts cold)
    (keepIds : ∀ gid ∈ keep, gid < experts) (apart : keep.length + env.coldSlots ≠ experts) :
    swappedModule env original keep experts ≠ original := by
  intro same
  obtain ⟨rows, present, count⟩ := target.weight
  have before : original.PerExpert experts "w13_weight" := by
    obtain ⟨tensor, found, shown⟩ := Option.bind_eq_some_iff.mp present
    rw [Module.PerExpert, found]
    cases tensor with
    | scalar elem bytes => cases shown
    | batch elem trailing stored =>
        cases shown
        exact congrArg some count
  have after := @perExpert_swapped_iff env original keep experts "w13_weight" keepIds apart
  rw [same] at after
  exact (after.mp before).2 ⟨"w13_weight", by decide, rfl⟩

theorem swapped_complete_iff (admitted : Admitted original keep experts cold)
    (apart : keep.length + env.coldSlots ≠ experts) :
    (∀ name, ¬ (swappedModule env original keep experts).PerExpert experts name) ↔ Covered original experts := by
  simp only [perExpert_swapped_iff admitted.keepIds apart, not_and, not_not]
  constructor
  · intro complete entry _ _ perExpert
    exact complete entry.1 perExpert
  · intro covered name perExpert
    exact listed_of_covered admitted.gate covered perExpert

theorem stoppedModules_of_ne {reached : State} {stop stopLayer stopExperts other : Nat} {stopped : Module}
    {stopKeep stopCold : List Nat} (apart : stop ≠ other) :
    (if Admitted stopped stopKeep stopExperts stopCold then
      reached.swapAt env stop stopped stopLayer stopKeep stopExperts else reached).modules[other]? =
        reached.modules[other]? := by
  split
  · exact List.getElem?_set_ne apart
  · rfl

theorem no_way_out {stop : Nat} (passes : ∀ other < index, Passes keepMask modules other)
    (admitted : Admitted original keep experts cold) (behind : index ≤ stop) (inside : stop < modules.length)
    (refused : ¬ Passes keepMask modules stop) :
    ¬ ((∃ other < index, ¬ Passes keepMask modules other) ∨ ¬ Admitted original keep experts cold ∨
      (Covered original experts ∧ ∀ other, index ≤ other → other < modules.length → Passes keepMask modules other)) := by
  intro ways
  rcases ways with ⟨other, earlier, failed⟩ | unadmitted | ⟨_, later⟩
  · exact failed (passes other earlier)
  · exact unadmitted admitted
  · exact refused (later stop behind inside)

/-- The gate is complete for a layer exactly when the call is refused before
the layer's tensors are replaced, or no later refusal comes and every per-expert
buffer and plain attribute is a whitelisted tensor too. -/
theorem gate_complete_iff (offload : env.offloadRequested = true) (masked : env.keepMask = some keepMask)
    (job : Job keepMask modules index original layer keep experts cold)
    (apart : keep.length + env.coldSlots ≠ experts) :
    GateComplete original experts index (maybeShrinkAfterProcess env (State.fresh modules)) ↔
      (∃ other < index, ¬ Passes keepMask modules other) ∨ ¬ Admitted original keep experts cold ∨
        (Covered original experts ∧ ∀ other, index ≤ other → other < modules.length → Passes keepMask modules other) := by
  have position : index < modules.length := (List.getElem?_eq_some_iff.mp job.present).1
  have call := maybeShrink_call modules offload masked
  generalize maybeShrinkAfterProcess env (State.fresh modules) = outcome at call
  cases call with
  | @completed state reached passes shrank sameModules sameLayers =>
      have admitted := (passes index position original layer keep experts cold job).1
      have present := (shrank.taken index (List.mem_range.mpr position) original layer keep experts cold job).1
      have complete : GateComplete original experts index (.done state) ↔ Covered original experts := by
        rw [← swapped_complete_iff admitted apart, GateComplete, sameModules, present]
        simp
      rw [complete]
      constructor
      · exact fun covered => Or.inr (Or.inr ⟨covered, fun other _ inside => passes other inside⟩)
      · intro cases_
        rcases cases_ with ⟨other, below, refused⟩ | refused | ⟨covered, _⟩
        · exact absurd (passes other (by omega)) refused
        · exact absurd admitted refused
        · exact covered
  | @stopped before after stop stopLayer stopExperts stopped stopKeep stopCold error reached range passes stopJob refused
      shrank =>
      have stopInside := (List.getElem?_eq_some_iff.mp stopJob.present).1
      have stopRefused : ¬ Passes keepMask modules stop :=
        fun pass => refused (pass stopped stopLayer stopKeep stopExperts stopCold stopJob)
      rw [GateComplete]
      rcases Nat.lt_trichotomy index stop with below | here | above
      · -- shrunk before the refusal
        obtain ⟨admitted, _⟩ := passes index ((range_split range index).1.mpr below) original layer keep experts cold job
        have present := (shrank.taken index ((range_split range index).1.mpr below) original layer keep experts cold job).1
        rw [stoppedModules_of_ne (by omega), present, Option.some.injEq]
        have earlier : ∀ other < index, Passes keepMask modules other :=
          fun other before => passes other ((range_split range other).1.mpr (before.trans below))
        exact iff_of_false (swappedModule_ne (shrinkTarget_spec job.taken) admitted.keepIds apart)
          (no_way_out earlier admitted below.le stopInside stopRefused)
      · -- the refused layer itself
        subst here
        obtain ⟨rfl, rfl, rfl, rfl, rfl⟩ := @Job.eq keepMask (State.parsed modules keepMask) index stopLayer stopExperts
          stopped stopKeep stopCold original layer experts keep cold stopJob job
        have present : reached.modules[index]? = some original :=
          (shrank.others index fun inside => absurd ((range_split range index).1.mp inside) (Nat.lt_irrefl _)).trans
            job.present
        by_cases admitted : Admitted original keep experts cold
        · have replaced : (reached.swapAt env index original layer keep experts).modules[index]? =
              some (swappedModule env original keep experts) := by
            have inside := (List.getElem?_eq_some_iff.mp present).1
            simp [State.swapAt, inside]
          rw [if_pos admitted, replaced, Option.some.injEq]
          have earlier : ∀ other < index, Passes keepMask modules other :=
            fun other before => passes other ((range_split range other).1.mpr before)
          exact iff_of_false (swappedModule_ne (shrinkTarget_spec job.taken) admitted.keepIds apart)
            (no_way_out earlier admitted (Nat.le_refl _) position stopRefused)
        · rw [if_neg admitted, present]
          exact ⟨fun _ => Or.inr (Or.inl admitted), fun _ => rfl⟩
      · -- never reached
        have present : reached.modules[index]? = some original :=
          (shrank.others index fun inside => absurd ((range_split range index).1.mp inside) (by omega)).trans job.present
        rw [stoppedModules_of_ne (by omega), present]
        exact ⟨fun _ => Or.inl ⟨stop, above, stopRefused⟩, fun _ => rfl⟩

end Gate

theorem smallModule_job : Job ⟨[(0, [1])], by decide⟩ smallModel.modules 0 smallModule 0 [1] 3 [0, 2] :=
  ⟨rfl, by decide⟩

theorem smallModule_passes : Passes ⟨[(0, [1])], by decide⟩ smallModel.modules 0 := by
  intro original layer keep experts cold job
  cases smallModule_job.present.symm.trans job.present
  cases smallModule_job.taken.symm.trans job.taken
  decide

theorem gate_complete_smallModel :
    GateComplete smallModule 3 0 (maybeShrinkAfterProcess smallEnv (State.fresh smallModel.modules)) := by
  refine (gate_complete_iff rfl rfl smallModule_job (by decide)).mpr (Or.inr (Or.inr ⟨by decide, ?_⟩))
  intro other _ inside
  cases Nat.lt_one_iff.mp inside
  exact smallModule_passes

def bufferedModule : Module :=
  { smallModule with
    attrs := ⟨smallModule.attrs.entries ++ [("e_score_correction_bias", ⟨.buffer, 2⟩)], by decide⟩
    store := smallModule.store ++ [.batch .float32 [] [[0, 0, 0, 1], [0, 0, 0, 2], [0, 0, 0, 3]]] }

def bufferedState : State :=
  match maybeShrinkAfterProcess smallEnv (State.fresh [bufferedModule]) with
  | .done state => state
  | .raised _ state => state

/-- The buffer keeps its three entries. -/
theorem gate_incomplete : ¬ ∀ (env : ShrinkEnv) (keepMask : Dict Nat (List Nat)) (modules : List Module),
    env.offloadRequested = true → env.keepMask = some keepMask →
      ∀ index original layer keep experts cold, Job keepMask modules index original layer keep experts cold →
        keep.length + env.coldSlots ≠ experts →
          GateComplete original experts index (maybeShrinkAfterProcess env (State.fresh modules)) := by
  intro claimed
  have complete : GateComplete bufferedModule 3 0 (.done bufferedState) :=
    claimed smallEnv ⟨[(0, [1])], by decide⟩ [bufferedModule] rfl rfl 0 bufferedModule 0 [1] 3 [0, 2]
      ⟨rfl, by decide⟩ (by decide)
  obtain ⟨module, present, none⟩ := complete
  have kept : (bufferedState.modules[0]?).map (fun (module : Module) =>
      decide (module.PerExpert 3 "e_score_correction_bias")) = some true := by decide +kernel
  rw [present] at kept
  exact none _ (of_decide_eq_true (Option.some.inj kept))

/-- A call that raises leaves every module as it was and registers no layer. -/
def Untouched (modules : List Module) : Outcome → Prop
  | .done _ => True
  | .raised _ failed => failed.modules = modules ∧ failed.layers = .empty ∧ failed.cfgLids = .empty

/-- Replacing the tensors of this layer would change nothing: each of them is
its keep rows followed by what `torch.empty` gives. -/
structure Idle (env : ShrinkEnv) (original : Module) (keep : List Nat) (experts : Nat) : Prop where
  local_ : original.numLocalExperts = keep.length + env.coldSlots
  rows : ∀ param ∈ heldParams original experts allParams [],
    param.rows = keep.map (fun gid => param.rows.getD gid []) ++ (List.range env.coldSlots).map (uninitRow env param)

section Whole

variable {env : ShrinkEnv} {keepMask : Dict Nat (List Nat)} {modules : List Module} {index layer experts : Nat}
  {original : Module} {keep cold : List Nat}

theorem swappedModule_eq_iff (keepIds : ∀ gid ∈ keep, gid < experts) :
    swappedModule env original keep experts = original ↔ Idle env original keep experts := by
  have swap := @swapParams_eq env keep _ original.store (@heldParams_bounded experts original keep keepIds)
  have ofHeld := heldParams_of original experts allParams [] (fun _ member => member)
  obtain ⟨moved, others⟩ := swapParams_spec swap (heldParams_fresh original experts allParams []).1
    fun param listed => (List.getElem?_eq_some_iff.mp (ofHeld param listed).1.stored).1
  constructor
  · intro same
    refine ⟨(congrArg Module.numLocalExperts same).symm, ?_⟩
    intro param inside
    have stores : swappedStore env keep (heldParams original experts allParams []) original.store = original.store :=
      congrArg Module.store same
    have rebuilt := (moved param inside).1
    rw [stores, (ofHeld param inside).1.stored, Option.some.injEq, swappedTensor, Tensor.batch.injEq] at rebuilt
    exact rebuilt.2.2
  · intro idle
    have stores : swappedStore env keep (heldParams original experts allParams []) original.store =
        original.store := by
      refine List.ext_getElem? fun obj => ?_
      by_cases held : obj ∈ (heldParams original experts allParams []).map HeldParam.obj
      · obtain ⟨param, inside, rfl⟩ := List.mem_map.mp held
        rw [(moved param inside).1, (ofHeld param inside).1.stored, swappedTensor, ← idle.rows param inside]
      · exact others obj held
    rw [swappedModule, stores, ← idle.local_]

/-- A refused call leaves the model alone exactly when the first layer it takes
is the refused one, and is refused before its tensors are replaced or would not
be changed by that. -/
theorem refusal_untouched_iff (offload : env.offloadRequested = true) (masked : env.keepMask = some keepMask) :
    Untouched modules (maybeShrinkAfterProcess env (State.fresh modules)) ↔
      (∀ index < modules.length, Passes keepMask modules index) ∨
        ∃ index original layer keep experts cold, Job keepMask modules index original layer keep experts cold ∧
          (∀ other < index, ∀ original layer keep experts cold,
            ¬ Job keepMask modules other original layer keep experts cold) ∧
          ¬ (Admitted original keep experts cold ∧ managedConfig original ≠ none) ∧
          (Admitted original keep experts cold → Idle env original keep experts) := by
  have call := maybeShrink_call modules offload masked
  generalize maybeShrinkAfterProcess env (State.fresh modules) = outcome at call
  cases call with
  | completed passes shrank sameModules sameLayers => exact ⟨fun _ => Or.inl passes, fun _ => trivial⟩
  | @stopped before after index layer experts original keep cold error reached range passes job refused shrank =>
      have position := (List.getElem?_eq_some_iff.mp job.present).1
      constructor
      · intro untouched
        have quiet : ∀ other < index, ∀ original layer keep experts cold,
            ¬ Job keepMask modules other original layer keep experts cold := by
          intro other below module otherLayer otherKeep otherExperts otherCold otherJob
          obtain ⟨_, pool, registered⟩ := shrank.taken other ((range_split range other).1.mpr below) module otherLayer
            otherKeep otherExperts otherCold otherJob
          have empty : reached.layers = .empty := by
            have layers := untouched.2.1
            split at layers <;> exact layers
          rw [empty] at registered
          cases registered
        refine Or.inr ⟨index, original, layer, keep, experts, cold, job, quiet, refused, ?_⟩
        intro admitted
        have idle := shrank.idle fun other inside => quiet other ((range_split range other).1.mp inside)
        have replaced := untouched.1
        rw [if_pos admitted, idle] at replaced
        have here : (modules.set index (swappedModule env original keep experts))[index]? = modules[index]? :=
          congrArg (fun (modules : List Module) => modules[index]?) replaced
        rw [List.getElem?_set_self position, job.present, Option.some.injEq] at here
        exact (swappedModule_eq_iff admitted.keepIds).mp here
      · intro cases_
        rcases cases_ with all | ⟨first, module, firstLayer, firstKeep, firstExperts, firstCold, firstJob, quiet,
          firstRefused, still⟩
        · exact absurd (all index position original layer keep experts cold job) refused
        · -- the refused layer is the first one taken
          have same : first = index := by
            rcases Nat.lt_trichotomy first index with below | here | above
            · exact absurd (passes first ((range_split range first).1.mpr below) module firstLayer firstKeep firstExperts
                firstCold firstJob) firstRefused
            · exact here
            · exact absurd job (quiet index above original layer keep experts cold)
          subst same
          obtain ⟨rfl, rfl, rfl, rfl, rfl⟩ := @Job.eq keepMask (State.parsed modules keepMask) first firstLayer firstExperts
            module firstKeep firstCold original layer experts keep cold firstJob job
          have idle := shrank.idle fun other inside => quiet other ((range_split range other).1.mp inside)
          subst idle
          split
          · next admitted =>
              refine ⟨?_, rfl, rfl⟩
              change modules.set first (swappedModule env original keep experts) = modules
              rw [(swappedModule_eq_iff admitted.keepIds).mpr (still admitted)]
              refine List.ext_getElem? fun other => ?_
              by_cases here : first = other
              · subst here
                rw [List.getElem?_set_self position, job.present]
              · exact List.getElem?_set_ne here
          · exact ⟨rfl, rfl, rfl⟩

end Whole

/-- A second layer with a per-expert parameter the whitelist does not know. -/
def mysteryModule : Module :=
  { smallModule with
    layerId := some 1
    attrs := ⟨smallModule.attrs.entries ++ [("mystery_tensor", ⟨.parameter, 2⟩)], by decide⟩
    store := smallModule.store ++ [.batch .float32 [] [[0, 0, 0, 1], [0, 0, 0, 2], [0, 0, 0, 3]]]
    ownerTopk := some ⟨1, 128⟩ }

def mysteryEnv : ShrinkEnv where
  offloadRequested := true
  keepMask := some ⟨[(0, [1]), (1, [1])], by decide⟩
  coldSlots := 1
  uninit := fun _ _ _ => 0

theorem refusal_untouched_mystery :
    (∃ error failed, maybeShrinkAfterProcess mysteryEnv (State.fresh [mysteryModule, smallModule]) =
        .raised error failed) ∧
      Untouched [mysteryModule, smallModule]
        (maybeShrinkAfterProcess mysteryEnv (State.fresh [mysteryModule, smallModule])) := by
  refine ⟨⟨_, _, rfl⟩, (refusal_untouched_iff rfl rfl).mpr (Or.inr ?_)⟩
  refine ⟨0, mysteryModule, 1, [1], 3, [0, 2], ⟨rfl, by decide⟩, ?_, by decide, fun admitted => ?_⟩
  · intro other below
    omega
  · exact absurd admitted (by decide)

def mysteryState : State :=
  match maybeShrinkAfterProcess mysteryEnv (State.fresh [smallModule, mysteryModule]) with
  | .done state => state
  | .raised _ state => state

/-- The first layer stays shrunk when the second is refused. -/
theorem refusal_touches : ¬ ∀ (env : ShrinkEnv) (keepMask : Dict Nat (List Nat)) (modules : List Module),
    env.offloadRequested = true → env.keepMask = some keepMask →
      Untouched modules (maybeShrinkAfterProcess env (State.fresh modules)) := by
  intro claimed
  have untouched := claimed mysteryEnv ⟨[(0, [1]), (1, [1])], by decide⟩ [smallModule, mysteryModule] rfl rfl
  have outcome : maybeShrinkAfterProcess mysteryEnv (State.fresh [smallModule, mysteryModule]) =
      .raised (.unclassified 1 [⟨"mystery_tensor", [3], "torch.float32"⟩]) mysteryState := rfl
  rw [outcome] at untouched
  have registered : mysteryState.layers.keys = [0] := by decide +kernel
  rw [untouched.2.1] at registered
  cases registered

end FlashNext.ColdPool
