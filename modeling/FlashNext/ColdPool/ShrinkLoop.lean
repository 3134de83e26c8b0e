import FlashNext.ColdPool.Shrunk

namespace FlashNext.ColdPool

open FlashNext.Data

/-- A layer that passes every test made before its tensors are replaced. -/
structure Admitted (original : Module) (keep : List Nat) (experts : Nat) (cold : List Nat) : Prop where
  gate : inventoryGate original experts = []
  aligned : ∀ slice ∈ coldSlices cold.length (heldParams original experts allParams []) 0, slice.Aligned
  keepIds : ∀ gid ∈ keep, gid < experts

instance (original : Module) (keep : List Nat) (experts : Nat) (cold : List Nat) :
    Decidable (Admitted original keep experts cold) :=
  decidable_of_iff (inventoryGate original experts = [] ∧
      (∀ slice ∈ coldSlices cold.length (heldParams original experts allParams []) 0, slice.Aligned) ∧
      ∀ gid ∈ keep, gid < experts)
    ⟨fun ⟨gate, aligned, keepIds⟩ => ⟨gate, aligned, keepIds⟩,
      fun ⟨gate, aligned, keepIds⟩ => ⟨gate, aligned, keepIds⟩⟩

def swappedStore (env : ShrinkEnv) (keep : List Nat) (held : List HeldParam) (store : List Tensor) :
    List Tensor :=
  held.foldl (fun store param => store.set param.obj (swappedTensor env keep param)) store

def swappedModule (env : ShrinkEnv) (original : Module) (keep : List Nat) (experts : Nat) : Module :=
  { original with
    store := swappedStore env keep (heldParams original experts allParams []) original.store
    numLocalExperts := keep.length + env.coldSlots }

def State.swapAt (state : State) (env : ShrinkEnv) (index : Nat) (original : Module) (layer : Nat)
    (keep : List Nat) (experts : Nat) : State :=
  { state with
    modules := state.modules.set index (swappedModule env original keep experts)
    tables := buildTables state.tables layer keep experts original.device }

def State.shrinkAt (state : State) (env : ShrinkEnv) (index : Nat) (original : Module) (layer : Nat)
    (keep : List Nat) (experts : Nat) (cold : List Nat) (config : Config) : State :=
  { state.swapAt env index original layer keep experts with
    cfgLids := state.cfgLids.set config.addr layer
    cfgRefs := state.cfgRefs ++ [config]
    layers := state.layers.set layer
      (shrunkPool env index layer keep experts cold (heldParams original experts allParams [])) }

section Layer

variable {env : ShrinkEnv} {keepMask : Dict Nat (List Nat)} {state : State} {index layer experts : Nat}
  {original : Module} {keep cold : List Nat}

theorem swapParams_eq {held : List HeldParam} {store : List Tensor}
    (bounded : ∀ param ∈ held, ∀ gid ∈ keep, gid < param.rows.length) :
    swapParams env keep held store = some (swappedStore env keep held store) := by
  induction held generalizing store with
  | nil => rfl
  | cons param rest ih =>
      have inside : keep.all (· < param.rows.length) = true :=
        List.all_eq_true.mpr fun gid kept => decide_eq_true (bounded param (by simp) gid kept)
      simp only [swapParams, swapParam, indexSelect, if_pos inside, Option.map_some, Option.bind_some]
      exact ih fun other member => bounded other (by simp [member])

theorem swapParams_none {held : List HeldParam} {store : List Tensor} {param : HeldParam} {gid : Nat}
    (member : param ∈ held) (kept : gid ∈ keep) (outside : param.rows.length ≤ gid) :
    swapParams env keep held store = none := by
  induction held generalizing store with
  | nil => cases member
  | cons first rest ih =>
      rw [swapParams]
      cases List.mem_cons.mp member with
      | inl here =>
          subst here
          have refused : ¬ keep.all (· < param.rows.length) = true := by
            intro all
            have inside := of_decide_eq_true (List.all_eq_true.mp all gid kept)
            omega
          rw [swapParam, indexSelect, if_neg refused]
          rfl
      | inr later =>
          cases swapParam env keep store first with
          | none => rfl
          | some next => exact ih later

theorem heldParams_bounded (keepIds : ∀ gid ∈ keep, gid < experts) :
    ∀ param ∈ heldParams original experts allParams [], ∀ gid ∈ keep, gid < param.rows.length := by
  intro param inside gid kept
  have of := (heldParams_of original experts allParams [] (fun _ member => member) param inside).1
  exact of.count ▸ keepIds gid kept

variable (target : Target keepMask original layer keep experts cold)
include target

theorem weight_held : ∃ param ∈ heldParams original experts allParams [],
    param.Of original experts ∧ original.obj? "w13_weight" = some param.obj := by
  obtain ⟨rows, present, count⟩ := target.weight
  exact held_of_name (List.mem_filter.mpr ⟨by decide, by simp [present, count]⟩)

theorem shrinkModule_refused (refused : ¬ Admitted original keep experts cold) :
    ∃ error, shrinkModule env state index original layer keep experts cold = .raised error state := by
  unfold shrinkModule
  dsimp only
  by_cases gate : inventoryGate original experts = []
  · rw [if_neg (not_not.mpr gate)]
    by_cases aligned : ∀ slice ∈ coldSlices cold.length (heldParams original experts allParams []) 0, slice.Aligned
    · have outside : ∃ gid ∈ keep, experts ≤ gid := by
        by_contra none
        exact refused ⟨gate, aligned, fun gid kept => Nat.lt_of_not_le fun far => none ⟨gid, kept, far⟩⟩
      obtain ⟨gid, kept, far⟩ := outside
      obtain ⟨param, inside, of, _⟩ := weight_held target
      rw [if_neg (not_not.mpr aligned), swapParams_none inside kept (of.count ▸ far)]
      exact ⟨.indexError, rfl⟩
    · rw [if_pos aligned]
      exact ⟨.misalignedView, rfl⟩
  · rw [if_pos gate]
    exact ⟨_, rfl⟩

omit target

theorem shrinkModule_admitted (admitted : Admitted original keep experts cold) :
    shrinkModule env state index original layer keep experts cold =
      match managedConfig original with
      | none => .raised (.noTopkConfig layer) (state.swapAt env index original layer keep experts)
      | some config => .done (state.shrinkAt env index original layer keep experts cold config) := by
  unfold shrinkModule
  dsimp only
  rw [if_neg (not_not.mpr admitted.gate), if_neg (not_not.mpr admitted.aligned),
    swapParams_eq (heldParams_bounded admitted.keepIds)]
  have same : ∀ store phys, managedConfig { original with store := store, numLocalExperts := phys } =
    managedConfig original := fun _ _ => rfl
  simp only [registerManaged, same]
  cases managedConfig original <;> rfl

end Layer

/-- The loop takes module `index`, with what it reads of it. -/
structure Job (keepMask : Dict Nat (List Nat)) (modules : List Module) (index : Nat) (original : Module)
    (layer : Nat) (keep : List Nat) (experts : Nat) (cold : List Nat) : Prop where
  present : modules[index]? = some original
  taken : shrinkTarget keepMask original = some (layer, keep, experts, cold)

/-- No test refuses module `index`. -/
def Passes (keepMask : Dict Nat (List Nat)) (modules : List Module) (index : Nat) : Prop :=
  ∀ original layer keep experts cold, Job keepMask modules index original layer keep experts cold →
    Admitted original keep experts cold ∧ managedConfig original ≠ none

structure Shrank (env : ShrinkEnv) (keepMask : Dict Nat (List Nat)) (indices : List Nat)
    (start final : State) : Prop where
  taken : ∀ index ∈ indices, ∀ original layer keep experts cold,
    Job keepMask start.modules index original layer keep experts cold →
      final.modules[index]? = some (swappedModule env original keep experts) ∧
        ∃ pool, final.layers.get? layer = some pool
  others : ∀ index, (index ∈ indices → ∀ original layer keep experts cold,
      ¬ Job keepMask start.modules index original layer keep experts cold) →
    final.modules[index]? = start.modules[index]?
  idle : (∀ index ∈ indices, ∀ original layer keep experts cold,
      ¬ Job keepMask start.modules index original layer keep experts cold) → final = start
  kept : ∀ layer pool, start.layers.get? layer = some pool → ∃ pool, final.layers.get? layer = some pool
  pools : ∀ layer pool, final.layers.get? layer = some pool →
    start.layers.get? layer = some pool ∨ ∃ index ∈ indices, ∃ original keep experts cold,
      Job keepMask start.modules index original layer keep experts cold ∧
        pool = shrunkPool env index layer keep experts cold (heldParams original experts allParams [])

section Loop

variable {env : ShrinkEnv} {keepMask : Dict Nat (List Nat)} {state : State} {index layer experts count : Nat}
  {original : Module} {keep cold rest : List Nat}

theorem Job.target (job : Job keepMask state.modules index original layer keep experts cold) :
    Target keepMask original layer keep experts cold :=
  shrinkTarget_spec job.taken

theorem Job.eq {other : Module} {otherLayer otherExperts : Nat} {otherKeep otherCold : List Nat}
    (job : Job keepMask state.modules index original layer keep experts cold)
    (same : Job keepMask state.modules index other otherLayer otherKeep otherExperts otherCold) :
    other = original ∧ otherLayer = layer ∧ otherKeep = keep ∧ otherExperts = experts ∧ otherCold = cold := by
  have module := same.present.symm.trans job.present
  cases module
  have tuple := same.taken.symm.trans job.taken
  cases tuple
  exact ⟨rfl, rfl, rfl, rfl, rfl⟩

theorem shrinkLoop_skip (none : ∀ original layer keep experts cold,
      ¬ Job keepMask state.modules index original layer keep experts cold) :
    shrinkLoop env keepMask (index :: rest) state count = shrinkLoop env keepMask rest state count := by
  rw [shrinkLoop]
  cases present : state.modules[index]? with
  | none => rfl
  | some original =>
      cases taken : shrinkTarget keepMask original with
      | none => simp only [taken]
      | some job => exact absurd ⟨present, taken⟩ (none original job.1 job.2.1 job.2.2.1 job.2.2.2)

theorem shrinkLoop_job (job : Job keepMask state.modules index original layer keep experts cold) :
    shrinkLoop env keepMask (index :: rest) state count =
      match shrinkModule env state index original layer keep experts cold with
      | .raised error failed => (.raised error failed, count)
      | .done next => shrinkLoop env keepMask rest next (count + 1) := by
  rw [shrinkLoop]
  cases shrunk : shrinkModule env state index original layer keep experts cold with
  | raised error failed => simp only [job.present, job.taken, shrunk]
  | done next => simp only [job.present, job.taken, shrunk]

theorem shrinkLoop_append (first rest : List Nat) :
    shrinkLoop env keepMask (first ++ rest) state count =
      match shrinkLoop env keepMask first state count with
      | (.raised error failed, total) => (.raised error failed, total)
      | (.done next, total) => shrinkLoop env keepMask rest next total := by
  induction first generalizing state count with
  | nil => rfl
  | cons index later ih =>
      by_cases taken : ∃ original layer keep experts cold,
          Job keepMask state.modules index original layer keep experts cold
      · obtain ⟨original, layer, keep, experts, cold, job⟩ := taken
        rw [List.cons_append, shrinkLoop_job job, shrinkLoop_job job]
        cases shrinkModule env state index original layer keep experts cold with
        | raised error failed => rfl
        | done next => exact ih
      · simp only [not_exists] at taken
        rw [List.cons_append, shrinkLoop_skip taken, shrinkLoop_skip taken]
        exact ih

theorem Shrank.nil (state : State) : Shrank env keepMask [] state state where
  taken := by simp
  others := fun _ _ => rfl
  idle := fun _ => rfl
  kept := fun _ pool found => ⟨pool, found⟩
  pools := fun _ _ found => Or.inl found

theorem Shrank.skip {final : State} (later : Shrank env keepMask rest state final)
    (none : ∀ original layer keep experts cold,
      ¬ Job keepMask state.modules index original layer keep experts cold) :
    Shrank env keepMask (index :: rest) state final where
  taken := by
    intro target member original layer keep experts cold job
    rcases List.mem_cons.mp member with rfl | inside
    · exact absurd job (none original layer keep experts cold)
    · exact later.taken target inside original layer keep experts cold job
  others := fun target apart => later.others target fun inside => apart (by simp [inside])
  idle := fun quiet => later.idle fun target inside => quiet target (by simp [inside])
  kept := later.kept
  pools := by
    intro layer pool found
    rcases later.pools layer pool found with before | ⟨target, inside, here⟩
    · exact Or.inl before
    · exact Or.inr ⟨target, by simp [inside], here⟩

theorem job_shrinkAt {config : Config} {other otherLayer otherExperts : Nat} {module : Module}
    {otherKeep otherCold : List Nat} (apart : other ≠ index) :
    Job keepMask (state.shrinkAt env index original layer keep experts cold config).modules other module
        otherLayer otherKeep otherExperts otherCold ↔
      Job keepMask state.modules other module otherLayer otherKeep otherExperts otherCold := by
  have same : (state.shrinkAt env index original layer keep experts cold config).modules[other]? =
      state.modules[other]? := List.getElem?_set_ne apart.symm
  constructor
  · intro job
    exact ⟨same ▸ job.present, job.taken⟩
  · intro job
    exact ⟨same.trans job.present, job.taken⟩

theorem Shrank.cons {final : State} {config : Config} (fresh : index ∉ rest)
    (job : Job keepMask state.modules index original layer keep experts cold)
    (later : Shrank env keepMask rest (state.shrinkAt env index original layer keep experts cold config) final) :
    Shrank env keepMask (index :: rest) state final where
  taken := by
    intro target member module otherLayer otherKeep otherExperts otherCold here
    rcases List.mem_cons.mp member with rfl | inside
    · obtain ⟨rfl, rfl, rfl, rfl, rfl⟩ := job.eq here
      have position := (List.getElem?_eq_some_iff.mp job.present).1
      constructor
      · rw [later.others target fun inside => absurd inside fresh]
        simp [State.shrinkAt, State.swapAt, position]
      · exact later.kept _ _ (by rw [State.shrinkAt, Dict.get?_set, if_pos rfl])
    · have apart : target ≠ index := fun same => fresh (same ▸ inside)
      exact later.taken target inside module otherLayer otherKeep otherExperts otherCold ((job_shrinkAt apart).mpr here)
  others := by
    intro target apart
    by_cases same : target = index
    · exact absurd job (same ▸ apart (by simp [same]) original layer keep experts cold)
    · rw [later.others target fun inside module otherLayer otherKeep otherExperts otherCold here =>
        apart (by simp [inside]) module otherLayer otherKeep otherExperts otherCold ((job_shrinkAt same).mp here)]
      exact List.getElem?_set_ne (Ne.symm same)
  idle := fun quiet => absurd job (quiet index (by simp) original layer keep experts cold)
  kept := by
    intro target pool found
    by_cases same : target = layer
    · exact later.kept target _ (by rw [State.shrinkAt, Dict.get?_set, if_pos same])
    · exact later.kept target pool (by rw [State.shrinkAt, Dict.get?_set, if_neg same]; exact found)
  pools := by
    intro target pool found
    rcases later.pools target pool found with before | ⟨other, inside, module, otherKeep, otherExperts, otherCold, here, same⟩
    · simp only [State.shrinkAt, Dict.get?_set] at before
      split at before
      · next atLayer =>
          subst atLayer
          cases before
          exact Or.inr ⟨index, by simp, original, keep, experts, cold, job, rfl⟩
      · exact Or.inl before
    · have apart : other ≠ index := fun same => fresh (same ▸ inside)
      exact Or.inr ⟨other, by simp [inside], module, otherKeep, otherExperts, otherCold, (job_shrinkAt apart).mp here, same⟩

theorem shrinkLoop_passes {indices : List Nat} (distinct : indices.Nodup)
    (passes : ∀ index ∈ indices, Passes keepMask state.modules index) :
    ∃ final total, shrinkLoop env keepMask indices state count = (.done final, total) ∧
      Shrank env keepMask indices state final ∧ (total = count → final = state) ∧ count ≤ total ∧
      final.shrunk = state.shrunk ∧ final.keepMask = state.keepMask := by
  induction indices generalizing state count with
  | nil => exact ⟨state, count, rfl, .nil state, fun _ => rfl, Nat.le_refl _, rfl, rfl⟩
  | cons index rest ih =>
      obtain ⟨fresh, distinctRest⟩ := List.nodup_cons.mp distinct
      by_cases taken : ∃ original layer keep experts cold,
          Job keepMask state.modules index original layer keep experts cold
      · obtain ⟨original, layer, keep, experts, cold, job⟩ := taken
        obtain ⟨admitted, armed⟩ := passes index (by simp) original layer keep experts cold job
        obtain ⟨config, armed⟩ := Option.ne_none_iff_exists'.mp armed
        have later : ∀ other ∈ rest, Passes keepMask
            (state.shrinkAt env index original layer keep experts cold config).modules other := by
          intro other inside module otherLayer otherKeep otherExperts otherCold here
          have apart : other ≠ index := fun same => fresh (same ▸ inside)
          exact passes other (by simp [inside]) module otherLayer otherKeep otherExperts otherCold
            ((job_shrinkAt apart).mp here)
        obtain ⟨final, total, done, shrank, _, more, armedAfter, masked⟩ := @ih _ (count + 1) distinctRest later
        refine ⟨final, total, ?_, .cons fresh job shrank, fun same => by omega, by omega, armedAfter, masked⟩
        rw [shrinkLoop_job job, shrinkModule_admitted admitted, armed]
        exact done
      · simp only [not_exists] at taken
        obtain ⟨final, total, done, shrank, rest⟩ := @ih state count distinctRest
          fun other inside => passes other (by simp [inside])
        exact ⟨final, total, (shrinkLoop_skip taken).trans done, shrank.skip taken, rest⟩

theorem shrinkLoop_stops {before after : List Nat} (distinct : (before ++ index :: after).Nodup)
    (passes : ∀ other ∈ before, Passes keepMask state.modules other)
    (job : Job keepMask state.modules index original layer keep experts cold)
    (refused : ¬ (Admitted original keep experts cold ∧ managedConfig original ≠ none)) :
    ∃ error failed total reached,
      shrinkLoop env keepMask (before ++ index :: after) state count = (.raised error failed, total) ∧
        Shrank env keepMask before state reached ∧
        failed = if Admitted original keep experts cold then
          reached.swapAt env index original layer keep experts else reached := by
  obtain ⟨distinctBefore, _, apart⟩ := List.nodup_append.mp distinct
  obtain ⟨reached, total, done, shrank, _⟩ := @shrinkLoop_passes env keepMask state count before distinctBefore passes
  have same : reached.modules[index]? = state.modules[index]? :=
    shrank.others index fun inside => absurd rfl (apart index inside index (by simp))
  have here : Job keepMask reached.modules index original layer keep experts cold :=
    ⟨same.trans job.present, job.taken⟩
  rw [shrinkLoop_append, done]
  dsimp only
  rw [shrinkLoop_job here]
  by_cases admitted : Admitted original keep experts cold
  · have unarmed : managedConfig original = none := by
      by_contra armed
      exact refused ⟨admitted, armed⟩
    rw [shrinkModule_admitted admitted, unarmed]
    exact ⟨_, _, total, reached, rfl, shrank, (if_pos admitted).symm⟩
  · obtain ⟨error, raised⟩ := @shrinkModule_refused env keepMask reached index layer experts original keep cold
      here.target admitted
    rw [raised]
    exact ⟨error, reached, total, reached, rfl, shrank, (if_neg admitted).symm⟩

end Loop

def State.parsed (modules : List Module) (keepMask : Dict Nat (List Nat)) : State :=
  { State.fresh modules with keepMask := some keepMask }

/-- How a call with a keep mask ends: either no module is refused and every one
is shrunk, or the loop stops at the first module that is. -/
inductive ShrinkCall (env : ShrinkEnv) (keepMask : Dict Nat (List Nat)) (modules : List Module) :
    Outcome → Prop where
  | completed {state reached : State} (passes : ∀ index < modules.length, Passes keepMask modules index)
      (shrank : Shrank env keepMask (List.range modules.length) (State.parsed modules keepMask) reached)
      (sameModules : state.modules = reached.modules) (sameLayers : state.layers = reached.layers) :
      ShrinkCall env keepMask modules (.done state)
  | stopped {before after : List Nat} {index layer experts : Nat} {original : Module} {keep cold : List Nat}
      {error : ShrinkError} {reached : State} (range : List.range modules.length = before ++ index :: after)
      (passes : ∀ other ∈ before, Passes keepMask modules other)
      (job : Job keepMask modules index original layer keep experts cold)
      (refused : ¬ (Admitted original keep experts cold ∧ managedConfig original ≠ none))
      (shrank : Shrank env keepMask before (State.parsed modules keepMask) reached) :
      ShrinkCall env keepMask modules (.raised error
        (if Admitted original keep experts cold then reached.swapAt env index original layer keep experts
          else reached))

theorem firstRefused (keepMask : Dict Nat (List Nat)) (modules : List Module) (indices : List Nat) :
    (∀ index ∈ indices, Passes keepMask modules index) ∨
      ∃ before index after, indices = before ++ index :: after ∧
        (∀ other ∈ before, Passes keepMask modules other) ∧ ¬ Passes keepMask modules index := by
  induction indices with
  | nil => exact Or.inl (by simp)
  | cons first rest ih =>
      by_cases here : Passes keepMask modules first
      · rcases ih with all | ⟨before, index, after, rfl, passes, refused⟩
        · refine Or.inl fun index member => ?_
          rcases List.mem_cons.mp member with rfl | inside
          · exact here
          · exact all index inside
        · refine Or.inr ⟨first :: before, index, after, rfl, fun other member => ?_, refused⟩
          rcases List.mem_cons.mp member with rfl | inside
          · exact here
          · exact passes other inside
      · exact Or.inr ⟨[], first, rest, rfl, by simp, here⟩

theorem maybeShrink_call {env : ShrinkEnv} {keepMask : Dict Nat (List Nat)} (modules : List Module)
    (offload : env.offloadRequested = true) (masked : env.keepMask = some keepMask) :
    ShrinkCall env keepMask modules (maybeShrinkAfterProcess env (State.fresh modules)) := by
  have parsed : { State.fresh modules with keepMask := some keepMask } = State.parsed modules keepMask := rfl
  have all : (State.fresh modules).modules = modules := rfl
  rw [maybeShrinkAfterProcess, if_neg (by simp [State.fresh, offload]), masked]
  simp only [parsed]
  rw [all]
  rcases firstRefused keepMask modules (List.range modules.length) with
    passes | ⟨before, index, after, range, passes, refused⟩
  · obtain ⟨final, total, done, shrank, _⟩ :=
      @shrinkLoop_passes env keepMask (State.parsed modules keepMask) 0 _ List.nodup_range passes
    have passesAll : ∀ index < modules.length, Passes keepMask modules index :=
      fun index inside => passes index (List.mem_range.mpr inside)
    rw [done]
    cases total with
    | zero => exact .completed passesAll shrank rfl rfl
    | succ count => exact .completed passesAll shrank rfl rfl
  · simp only [Passes, not_forall] at refused
    obtain ⟨original, layer, keep, experts, cold, job, refused⟩ := refused
    obtain ⟨error, failed, total, reached, stopped, shrank, rfl⟩ :=
      @shrinkLoop_stops env keepMask (State.parsed modules keepMask) index layer experts 0 original keep cold
        before after (range ▸ List.nodup_range) passes job refused
    rw [range, stopped]
    exact .stopped range passes job refused shrank

end FlashNext.ColdPool
