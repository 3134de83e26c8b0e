import FlashNext.ColdPool.Runs
import FlashNext.ColdPool.ShrinkBytes

namespace FlashNext.ColdPool

open FlashNext.Data

/-- A model after `process_weights_after_loading`. -/
structure LoadedModel where
  modules : List Module
  sized : ∀ module ∈ modules, module.Sized

/-- A module whose tensors are sized and which the shrink takes. -/
structure Target (keepMask : Dict Nat (List Nat)) (original : Module) (layer : Nat) (keep : List Nat)
    (experts : Nat) (cold : List Nat) : Prop where
  weight : ∃ rows, original.rows? "w13_weight" = some rows ∧ rows.length = experts
  several : 1 < experts
  coldIds : cold = (List.range experts).filter (· ∉ keep)
  someCold : cold ≠ []
  kept : keepMask.get? layer = some keep
  layerId : original.layerId = some layer

theorem shrinkTarget_spec {keepMask : Dict Nat (List Nat)} {original : Module} {layer experts : Nat}
    {keep cold : List Nat} (target : shrinkTarget keepMask original = some (layer, keep, experts, cold)) :
    Target keepMask original layer keep experts cold := by
  unfold shrinkTarget at target
  split at target
  · contradiction
  · cases layerId : original.layerId with
    | none => simp [layerId] at target
    | some found =>
        simp only [layerId] at target
        split at target
        · rename_i keepRows rows scale kept present scaled
          split at target
          · contradiction
          · rename_i passed
            simp only [not_or, not_le] at passed
            simp only [Option.some.injEq, Prod.mk.injEq] at target
            obtain ⟨rfl, rfl, rfl, rfl⟩ := target
            exact ⟨⟨rows, present, rfl⟩, passed.1, rfl, passed.2, kept, layerId⟩
        · contradiction

def shrunkPool (env : ShrinkEnv) (index layer : Nat) (keep : List Nat) (experts : Nat) (cold : List Nat)
    (held : List HeldParam) : Pool :=
  { Pool.init layer keep cold env.coldSlots index experts with
    host := hostRows (hostBuffer held cold) cold (coldSlices cold.length held 0) }

section Layer

variable {env : ShrinkEnv} {keepMask : Dict Nat (List Nat)} {original : Module} {layer experts : Nat}
  {keep cold : List Nat} {store : List Tensor}

theorem expertNames_spec {name : String} (member : name ∈ expertNames original experts) :
    name ∈ allParams ∧ ∃ obj rows, original.obj? name = some obj ∧ original.rows? name = some rows ∧
      rows.length = experts := by
  obtain ⟨listed, rowed⟩ := List.mem_filter.mp member
  cases present : original.rows? name with
  | none => simp [present] at rowed
  | some rows =>
      rw [present] at rowed
      cases bound : original.obj? name with
      | none => simp [Module.rows?_eq, bound] at present
      | some obj => exact ⟨listed, obj, rows, rfl, rfl, by simpa using rowed⟩

theorem held_of_name {name : String} (member : name ∈ expertNames original experts) :
    ∃ held ∈ heldParams original experts allParams [], held.Of original experts ∧
      original.obj? name = some held.obj := by
  obtain ⟨listed, obj, rows, bound, present, count⟩ := expertNames_spec member
  rcases heldParams_complete original experts allParams [] name listed obj rows bound present count with
    old | new
  · simp at old
  · obtain ⟨held, inside, same⟩ := List.mem_map.mp new
    exact ⟨held, inside, (heldParams_of original experts allParams [] (fun _ member => member) held inside).1,
      same ▸ bound⟩

theorem held_mem_expertNames {held : HeldParam} (of : held.Of original experts) :
    held.name ∈ expertNames original experts :=
  List.mem_filter.mpr ⟨of.listed, by simp [of.rows? of.bound, of.count]⟩

theorem held_sized (sized : original.Sized) :
    ∀ held ∈ heldParams original experts allParams [], ∀ row ∈ held.rows, row.length = held.rowBytes := by
  intro held inside
  have of := (heldParams_of original experts allParams [] (fun _ member => member) held inside).1
  exact sized _ (List.mem_of_getElem? of.stored)

section Fresh

variable {tables : Tables} {device gid row : Nat}

theorem buildTables_width
    (routable : (buildTables tables layer keep experts device).Routable layer gid) : gid < experts := by
  rw [Tables.Routable, buildTables_biasAt _ _ _ _ _ (by simp [buildDtypes])] at routable
  have found := (List.getElem?_eq_some_iff.mp routable).1
  simpa [biasColumn_length] using found

theorem buildTables_entry (bound : gid < experts) {dtype : DType} (built : dtype ∈ buildDtypes) :
    (buildTables tables layer keep experts device).biasAt layer dtype gid =
      some (if gid ∈ keep then 0 else finfoMin dtype) :=
  (buildTables_biasAt tables layer keep experts device built gid).trans (biasColumn_getElem? dtype keep bound)

theorem buildTables_routable_iff (bound : gid < experts) :
    (buildTables tables layer keep experts device).Routable layer gid ↔ gid ∈ keep := by
  rw [Tables.Routable, buildTables_entry bound (by simp [buildDtypes])]
  by_cases kept : gid ∈ keep <;> simp [kept, finfoMin_ne_zero]

theorem buildTables_placed
    (placed : placement (buildTables tables layer keep experts device) layer gid = some row) :
    keep[row]? = some gid := by
  obtain ⟨routable, mapped⟩ := placement_eq_some.mp placed
  have bound := buildTables_width routable
  obtain ⟨place, lookup, stands⟩ :=
    remapColumn_of_mem bound ((buildTables_routable_iff bound).mp routable)
  rw [buildTables_remapAt, lookup, Option.some.injEq] at mapped
  exact mapped ▸ stands

end Fresh

section Swapped

variable (target : Target keepMask original layer keep experts cold)
  (swap : swapParams env keep (heldParams original experts allParams []) original.store = some store)
include swap

theorem swapped_rows? {name : String} {phys : Nat} (member : name ∈ expertNames original experts) :
    ∃ held ∈ heldParams original experts allParams [], held.Of original experts ∧
      original.obj? name = some held.obj ∧ (∀ gid ∈ keep, gid < experts) ∧
      Module.rows? { original with store := store, numLocalExperts := phys } name =
        some (keep.map (fun gid => held.rows.getD gid []) ++
          (List.range env.coldSlots).map (uninitRow env held)) := by
  obtain ⟨held, inside, of, bound⟩ := held_of_name member
  have stored := swapParams_spec swap (heldParams_fresh original experts allParams []).1 (by
    intro param listed
    have of := (heldParams_of original experts allParams [] (fun _ member => member) param listed).1
    exact (List.getElem?_eq_some_iff.mp of.stored).1)
  obtain ⟨here, bounded⟩ := stored.1 held inside
  have target : Module.obj? { original with store := store, numLocalExperts := phys } name =
      some held.obj := bound
  refine ⟨held, inside, of, bound, fun gid kept => of.count ▸ bounded gid kept, ?_⟩
  rw [Module.rows?_eq, target]
  simp [here, swappedTensor, Tensor.rows?]

include target

theorem keep_bound : ∀ gid ∈ keep, gid < experts := by
  obtain ⟨rows, present, count⟩ := target.weight
  have member : "w13_weight" ∈ expertNames original experts :=
    List.mem_filter.mpr ⟨by decide, by simp [present, count]⟩
  obtain ⟨_, _, _, _, bounded, _⟩ := @swapped_rows? env original experts keep store swap _ 0 member
  exact bounded

theorem served_shrunk (tables : Tables) (device phys : Nat) (sameDevice : original.device = device)
    (physical : phys = keep.length + env.coldSlots) :
    Served original (buildTables tables layer keep experts device) layer experts phys
      { original with store := store, numLocalExperts := phys } := by
  have inside := keep_bound target swap
  refine { attrs := rfl, shape := ?_, columns := ?_, remapped := ?_, width := fun _ => buildTables_width, faithful := ?_,
           bounded := ?_, device := ?_ }
  · intro name member
    obtain ⟨held, _, _, _, _, rows⟩ := @swapped_rows? env original experts keep store swap _ phys member
    rw [rows]
    simp [physical]
  · intro gid bound dtype built
    rw [buildTables_entry bound built]
    simp only [buildTables_routable_iff bound]
  · intro gid bound
    by_cases kept : gid ∈ keep
    · obtain ⟨row, lookup, _⟩ := remapColumn_of_mem bound kept
      refine ⟨row, (buildTables_remapAt ..).trans lookup, fun masked => ?_⟩
      exact absurd ((buildTables_routable_iff bound).mpr kept) masked
    · exact ⟨0, (buildTables_remapAt ..).trans (remapColumn_of_not_mem bound kept), fun _ => rfl⟩
  · intro gid row found
    have stands := buildTables_placed found
    have kept : gid ∈ keep := List.mem_of_getElem? stands
    have position := (List.getElem?_eq_some_iff.mp stands).1
    rw [Module.contents_eq_iff]
    intro name member
    obtain ⟨held, _, of, bound, _, rows⟩ := @swapped_rows? env original experts keep store swap _ phys member
    rw [of.rowAt bound (inside gid kept), Module.rowAt, rows, Option.bind_some,
      List.getElem?_append_left (by simpa using position), List.getElem?_map, stands]
    rfl
  · intro gid row found
    have position := (List.getElem?_eq_some_iff.mp (buildTables_placed found)).1
    omega
  · intro table found
    simp only [buildTables, Dict.get?_set, if_true, Option.some.injEq] at found
    rw [← found, sameDevice]

end Swapped

section Host

variable (target : Target keepMask original layer keep experts cold) (sized : original.Sized)
include target sized

theorem host_origin {gid : Nat} {name : String} {bytes : Row}
    (found : hostGet (hostRows (hostBuffer (heldParams original experts allParams []) cold) cold
      (coldSlices cold.length (heldParams original experts allParams []) 0)) gid name = some bytes) :
    gid ∈ cold ∧ name ∈ expertNames original experts ∧ original.rowAt name gid = some bytes := by
  have bound : ∀ param ∈ heldParams original experts allParams [], ∀ gid ∈ cold, gid < param.rows.length := by
    intro param inside gid member
    have of := (heldParams_of original experts allParams [] (fun _ member => member) param inside).1
    rw [target.coldIds] at member
    exact of.count ▸ List.mem_range.mp (List.mem_filter.mp member).1
  obtain ⟨slice, listed, rfl, index, place, rfl⟩ := hostRows_origin found
  obtain ⟨held, inside, same, shows⟩ :=
    (@coldSlices_shows _ cold [] 0 (held_sized sized) bound rfl).1 slice listed
  have of := (heldParams_of original experts allParams [] (fun _ member => member) held inside).1
  have member : gid ∈ cold := List.mem_of_getElem? place
  rw [hostBuffer_eq (held_sized sized) bound, same]
  have shown := shows index gid place
  rw [List.nil_append] at shown
  refine ⟨member, held_mem_expertNames of, ?_⟩
  rw [of.rowAt of.bound (of.count ▸ bound held inside gid member), shown]

theorem host_cold {gid : Nat} (member : gid ∈ cold) :
    ∃ rows, (hostRows (hostBuffer (heldParams original experts allParams []) cold) cold
        (coldSlices cold.length (heldParams original experts allParams []) 0)).get? gid = some rows ∧
      HostRows original (expertNames original experts) gid rows.entries := by
  have bound : ∀ param ∈ heldParams original experts allParams [], ∀ gid ∈ cold, gid < param.rows.length := by
    intro param inside gid member
    have of := (heldParams_of original experts allParams [] (fun _ member => member) param inside).1
    rw [target.coldIds] at member
    exact of.count ▸ List.mem_range.mp (List.mem_filter.mp member).1
  have named := (@coldSlices_shows _ cold [] 0 (held_sized sized) bound rfl).2
  -- an expert name is covered by the first name of its tensor
  have covered : ∀ name ∈ expertNames original experts, ∃ first bytes,
      original.obj? first = original.obj? name ∧
      hostGet (hostRows (hostBuffer (heldParams original experts allParams []) cold) cold
        (coldSlices cold.length (heldParams original experts allParams []) 0)) gid first = some bytes := by
    intro name expert
    obtain ⟨held, inside, of, alias_⟩ := held_of_name expert
    obtain ⟨slice, listed, same⟩ := named held inside
    obtain ⟨bytes, present⟩ := Option.ne_none_iff_exists'.mp
      (@hostRows_complete (hostBuffer (heldParams original experts allParams []) cold) _ _ _ member _ listed)
    exact ⟨slice.name, bytes, by rw [same, of.bound, alias_], present⟩
  obtain ⟨rows, present, count⟩ := target.weight
  have weight : "w13_weight" ∈ expertNames original experts :=
    List.mem_filter.mpr ⟨by decide, by simp [present, count]⟩
  cases found : (hostRows (hostBuffer (heldParams original experts allParams []) cold) cold
      (coldSlices cold.length (heldParams original experts allParams []) 0)).get? gid with
  | none =>
      obtain ⟨first, bytes, _, reached⟩ := covered _ weight
      simp [hostGet, found] at reached
  | some rows =>
      have entry : ∀ name bytes, hostGet (hostRows (hostBuffer (heldParams original experts allParams [])
          cold) cold (coldSlices cold.length (heldParams original experts allParams []) 0)) gid name =
          some bytes ↔ (name, bytes) ∈ rows.entries := by
        intro name bytes
        rw [hostGet, found, Dict.mem_entries_iff]
        rfl
      have origin : ∀ name bytes, (name, bytes) ∈ rows.entries →
          name ∈ expertNames original experts ∧ original.rowAt name gid = some bytes :=
        fun name bytes inside => (host_origin target sized ((entry name bytes).mpr inside)).2
      refine ⟨rows, rfl, ⟨⟨?_, ?_⟩, ?_, ?_⟩⟩
      · exact fun listed inside _ => (origin listed.1 listed.2 inside).2
      · intro name expert
        obtain ⟨first, bytes, same, reached⟩ := covered name expert
        have inside := (entry first bytes).mp reached
        exact ⟨(first, bytes), inside, (origin first bytes inside).1, same⟩
      · obtain ⟨first, bytes, _, reached⟩ := covered _ weight
        exact List.ne_nil_of_mem ((entry first bytes).mp reached)
      · exact fun listed inside => (origin listed.1 listed.2 inside).1

end Host

theorem layerInv_shrunk (target : Target keepMask original layer keep experts cold)
    (sized : original.Sized)
    (swap : swapParams env keep (heldParams original experts allParams []) original.store = some store)
    (tables : Tables) (index : Nat) :
    LayerInv original (buildTables tables layer keep experts original.device)
      (shrunkPool env index layer keep experts cold (heldParams original experts allParams []))
      { original with store := store, numLocalExperts := keep.length + env.coldSlots } := by
  have served := served_shrunk target swap tables original.device (keep.length + env.coldSlots) rfl rfl
  have coldIff : ∀ gid, gid ∈ cold ↔ gid < experts ∧ gid ∉ keep := by
    intro gid
    simp [target.coldIds]
  exact {
    static := {
      keepLen := rfl
      phys := rfl
      cold := coldIff
      coldIds := rfl
      coldMask := by
        intro gid member
        simp [shrunkPool, Pool.init, ((coldIff gid).mp member).1, show gid ∈ cold from member]
      keepIds := rfl
      keepBound := keep_bound target swap
      weight := target.weight
      several := Nat.lt_trans Nat.zero_lt_one target.several }
    served := served
    owned := by
      intro gid row placed
      have stands := buildTables_placed placed
      have position := (List.getElem?_eq_some_iff.mp stands).1
      refine Or.inr ⟨stands, ?_, by simp [shrunkPool, Pool.init], by simp [shrunkPool, Pool.init]⟩
      intro free
      have handedOut := (List.mem_range'_1.mp free).1
      omega
    resident := by simp [shrunkPool, Pool.init]
    owner := by simp [shrunkPool, Pool.init]
    freeDistinct := List.nodup_range'
    free := by
      intro row member
      simp only [shrunkPool, Pool.init, List.mem_range'_1] at member ⊢
      exact ⟨member.2, by simp⟩
    ticked := by simp [shrunkPool, Pool.init]
    live := by simp [shrunkPool, Pool.init]
    host := fun gid member => host_cold target sized member
    hostCopy := by
      intro gid rows found
      have member : gid ∈ cold := hostRows_keys (Dict.mem_keys_of_get? found)
      obtain ⟨hosted, present, complete⟩ := host_cold target sized member
      have same : rows = hosted := Option.some.inj (found.symm.trans present)
      exact same ▸ complete.toHostCopy }

end Layer

/-- A layer as the shrink leaves it: nothing staged, nothing evicted. -/
structure Shrunk (original : Module) (ctx : Ctx) : Prop where
  inv : ctx.Inv original
  fresh : ∃ env index layer keep experts cold held,
    ctx.pool = shrunkPool env index layer keep experts cold held
  kept : ∀ gid ∈ ctx.pool.keep, ctx.tables.Routable ctx.pool.layerId gid

theorem Shrunk.shared {original : Module} {ctx : Ctx} {tables : Tables} {stats : Stats} (shrunk : Shrunk original ctx)
    (same : Tables.Same ctx.pool.layerId ctx.tables tables) :
    Shrunk original { ctx with tables := tables, stats := stats } :=
  ⟨shrunk.inv.shared same, shrunk.fresh, fun gid member => (same.routable_iff gid).mpr (shrunk.kept gid member)⟩

/-- Between two modules of the loop: the modules to come are untouched, and
every layer that has a pool was left well. -/
structure Shrinking (model : LoadedModel) (remaining : List Nat) (state : State) : Prop where
  length : state.modules.length = model.modules.length
  untouched : ∀ index ∈ remaining, state.modules[index]? = model.modules[index]?
  wired : Wired state
  away : ∀ layer pool, state.layers.get? layer = some pool → pool.module ∉ remaining
  layers : ∀ layer ctx, state.ctx? layer = some ctx →
    ∃ original, model.modules[ctx.pool.module]? = some original ∧ Shrunk original ctx

section Loop

variable {env : ShrinkEnv} {keepMask : Dict Nat (List Nat)} {state next : State} {index layer experts : Nat}
  {original : Module} {keep cold : List Nat} {model : LoadedModel} {rest : List Nat}

theorem shrinkModule_done
    (done : shrinkModule env state index original layer keep experts cold = .done next) :
    ∃ store config, swapParams env keep (heldParams original experts allParams []) original.store = some store ∧
      managedConfig original = some config ∧ next = { state with
        modules := state.modules.set index
          { original with store := store, numLocalExperts := keep.length + env.coldSlots }
        tables := buildTables state.tables layer keep experts original.device
        cfgLids := state.cfgLids.set config.addr layer
        cfgRefs := state.cfgRefs ++ [config]
        layers := state.layers.set layer
          (shrunkPool env index layer keep experts cold (heldParams original experts allParams [])) } := by
  unfold shrinkModule at done
  dsimp only at done
  split at done
  · contradiction
  · split at done
    · contradiction
    · cases swap : swapParams env keep (heldParams original experts allParams []) original.store with
      | none => simp [swap] at done
      | some store =>
          have same : managedConfig { original with
              store := store
              numLocalExperts := (Pool.init layer keep cold env.coldSlots index experts).phys } =
            managedConfig original := rfl
          simp only [swap, registerManaged, same] at done
          cases config : managedConfig original with
          | none => simp [config] at done
          | some found =>
              simp only [config, Outcome.done.injEq] at done
              exact ⟨store, found, rfl, rfl, done.symm⟩

theorem Shrinking.skip (inv : Shrinking model (index :: rest) state) : Shrinking model rest state :=
  { inv with
    untouched := fun other member => inv.untouched other (by simp [member])
    away := fun layer pool found member => inv.away layer pool found (by simp [member]) }

theorem Shrinking.skipAll {indices : List Nat} (inv : Shrinking model indices state) :
    Shrinking model [] state := by
  induction indices with
  | nil => exact inv
  | cons index rest ih => exact ih inv.skip

theorem Shrinking.shrink (inv : Shrinking model (index :: rest) state) (fresh : index ∉ rest)
    (present : state.modules[index]? = some original)
    (target : Target keepMask original layer keep experts cold)
    (done : shrinkModule env state index original layer keep experts cold = .done next) :
    Shrinking model rest next := by
  obtain ⟨store, config, swap, _, rfl⟩ := shrinkModule_done done
  have position : index < state.modules.length := (List.getElem?_eq_some_iff.mp present).1
  have source : model.modules[index]? = some original := (inv.untouched index (by simp)).symm.trans present
  have sized := model.sized original (List.mem_of_getElem? source)
  have alone : ∀ other pool, state.layers.get? other = some pool → pool.module ≠ index :=
    fun other pool stood same => inv.away other pool stood (by simp [same])
  refine { length := by simpa using inv.length, untouched := ?_, wired := ?_, away := ?_, layers := ?_ }
  · intro other member
    have different : index ≠ other := fun same => fresh (same ▸ member)
    simpa [different] using inv.untouched other (by simp [member])
  · exact inv.wired.add rfl List.length_set rfl position alone
  · intro other pool found
    rw [Dict.get?_set] at found
    split at found
    · cases found
      exact fresh
    · exact fun member => inv.away other pool found (by simp [member])
  · intro other ctx view
    obtain ⟨found, module, tables, _⟩ := State.pool_of_ctx? view
    obtain ⟨ctxTables, ctxStats, ctxPool, ctxModule⟩ := ctx
    dsimp only at found module tables
    subst tables
    rw [Dict.get?_set] at found
    split at found
    · next same =>
        cases found
        subst same
        refine ⟨original, source, ?_, ⟨_, _, _, _, _, _, _, rfl⟩, ?_⟩
        swap
        · exact fun gid member => (buildTables_routable_iff (keep_bound target swap gid member)).mpr member
        have written : ctxModule =
            { original with store := store, numLocalExperts := keep.length + env.coldSlots } := by
          simpa [shrunkPool, Pool.init, position] using module.symm
        subst written
        exact layerInv_shrunk target sized swap state.tables index
    · next different =>
        obtain ⟨old, oldView, samePool⟩ := inv.wired.ctx?_isSome found
        obtain ⟨_, oldModule, oldTables, _⟩ := State.pool_of_ctx? oldView
        obtain ⟨oldCtxTables, oldStats, oldPool, oldCtxModule⟩ := old
        dsimp only at samePool oldModule oldTables
        subst samePool oldTables
        obtain ⟨before, source, shrunk⟩ := inv.layers other _ oldView
        have kept : state.modules[oldPool.module]? = some ctxModule := by
          simpa [Ne.symm (alone other oldPool found)] using module
        rw [oldModule, Option.some.injEq] at kept
        subst kept
        have same := Tables.same_buildTables state.tables keep experts original.device different
        exact ⟨before, source, shrunk.shared ((inv.wired.layerId other oldPool found).symm ▸ same)⟩

theorem shrinkLoop_done {indices : List Nat} {count total : Nat} (inv : Shrinking model indices state)
    (distinct : indices.Nodup) (done : shrinkLoop env keepMask indices state count = (.done next, total)) :
    Shrinking model [] next ∧ next.stats = state.stats ∧ count ≤ total ∧
      (total = count → next.layers = state.layers) := by
  induction indices generalizing state count with
  | nil =>
      simp only [shrinkLoop, Prod.mk.injEq, Outcome.done.injEq] at done
      obtain ⟨rfl, rfl⟩ := done
      exact ⟨inv, rfl, le_refl _, fun _ => rfl⟩
  | cons index rest ih =>
      obtain ⟨fresh, distinctRest⟩ := List.nodup_cons.mp distinct
      unfold shrinkLoop at done
      cases present : state.modules[index]? with
      | none => exact ih inv.skip distinctRest (by simpa [present] using done)
      | some original =>
          simp only [present] at done
          cases target : shrinkTarget keepMask original with
          | none => exact ih inv.skip distinctRest (by simpa [target] using done)
          | some found =>
              obtain ⟨layer, keep, experts, cold⟩ := found
              simp only [target] at done
              cases shrunk : shrinkModule env state index original layer keep experts cold with
              | raised error failed => simp [shrunk] at done
              | done after =>
                  simp only [shrunk] at done
                  obtain ⟨final, stats, more, _⟩ :=
                    ih (inv.shrink fresh present (shrinkTarget_spec target) shrunk) distinctRest done
                  obtain ⟨store, config, _, _, rfl⟩ := shrinkModule_done shrunk
                  exact ⟨final, stats, by omega, fun same => by omega⟩

theorem Shrinking.fresh (model : LoadedModel) (keepMask : Option (Dict Nat (List Nat))) :
    Shrinking model (List.range model.modules.length)
      { State.fresh model.modules with keepMask := keepMask } where
  length := rfl
  untouched := fun _ _ => rfl
  wired := ⟨by simp [State.fresh], by simp [State.fresh], by simp [State.fresh]⟩
  away := by simp [State.fresh]
  layers := by simp [State.ctx?, State.fresh]

/-- A state a completed shrink can leave. -/
structure Loaded (model : LoadedModel) (state : State) : Prop where
  wired : Wired state
  armed : ∀ layer pool, state.layers.get? layer = some pool → state.shrunk = true
  layers : ∀ layer ctx, state.ctx? layer = some ctx →
    ∃ original, model.modules[ctx.pool.module]? = some original ∧ Shrunk original ctx
  stats : state.stats = {}

theorem Loaded.of_shrinking {final : State} (inv : Shrinking model [] state)
    (layers : final.layers = state.layers) (modules : final.modules = state.modules)
    (tables : final.tables = state.tables) (stats : final.stats = {})
    (armed : ∀ layer pool, final.layers.get? layer = some pool → final.shrunk = true) :
    Loaded model final where
  wired := ⟨fun layer pool found => inv.wired.layerId layer pool (layers ▸ found),
    fun layer pool found => modules ▸ inv.wired.module layer pool (layers ▸ found),
    fun left right leftPool rightPool leftFound rightFound =>
      inv.wired.apart left right leftPool rightPool (layers ▸ leftFound) (layers ▸ rightFound)⟩
  armed := armed
  layers := by
    intro layer ctx view
    obtain ⟨found, module, ctxTables, _⟩ := State.pool_of_ctx? view
    rw [layers] at found
    rw [modules] at module
    obtain ⟨old, stood, samePool⟩ := inv.wired.ctx?_isSome found
    obtain ⟨_, oldModule, oldTables, _⟩ := State.pool_of_ctx? stood
    obtain ⟨original, source, shrunk⟩ := inv.layers layer old stood
    obtain ⟨_, _, ctxPool, ctxModule⟩ := ctx
    obtain ⟨_, _, oldPool, oldCtxModule⟩ := old
    dsimp only at *
    subst samePool
    rw [oldModule, Option.some.injEq] at module
    subst module ctxTables oldTables
    rw [← tables] at shrunk
    exact ⟨original, source, ⟨shrunk.inv, shrunk.fresh, shrunk.kept⟩⟩
  stats := stats

theorem maybeShrink_loaded (done : maybeShrinkAfterProcess env (State.fresh model.modules) = .done state) :
    Loaded model state := by
  have untouched : Loaded model (State.fresh model.modules) :=
    .of_shrinking ((Shrinking.fresh model none).skipAll) rfl rfl rfl rfl (by simp [State.fresh])
  unfold maybeShrinkAfterProcess at done
  split at done
  · cases done
    exact untouched
  · cases mask : env.keepMask with
    | none =>
        simp only [mask, Outcome.done.injEq] at done
        exact done ▸ untouched
    | some keepMask =>
        simp only [mask] at done
        split at done
        · contradiction
        · rename_i final loop
          obtain ⟨inv, stats, _, unchanged⟩ :=
            shrinkLoop_done (Shrinking.fresh model (some keepMask)) List.nodup_range loop
          cases done
          refine .of_shrinking inv rfl rfl rfl stats ?_
          intro layer pool found
          rw [unchanged rfl] at found
          simp [State.fresh] at found
        · rename_i final total _ loop
          obtain ⟨inv, _⟩ :=
            shrinkLoop_done (Shrinking.fresh model (some keepMask)) List.nodup_range loop
          cases done
          exact .of_shrinking inv rfl rfl rfl rfl fun _ _ _ => rfl

end Loop

end FlashNext.ColdPool
