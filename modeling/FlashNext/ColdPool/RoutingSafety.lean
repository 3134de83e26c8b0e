import FlashNext.ColdPool.Shrunk

namespace FlashNext.ColdPool

open FlashNext.Data

/-- A name through which a shrunk expert tensor can be read: its own or one
bound to the same object. -/
def ExpertTensor (original : Module) (experts : Nat) (name : String) : Prop :=
  ∃ first ∈ expertNames original experts, original.obj? first = original.obj? name

/-- A physical row inside the shrunk tensors that holds the bytes expert `gid`
had before the shrink. -/
structure RowOf (original : Module) (pool : Pool) (module : Module) (gid row : Nat) : Prop where
  inside : row < pool.keepLen + pool.slots
  bytes : ∀ name, ExpertTensor original pool.experts name →
    ∃ bytes, original.rowAt name gid = some bytes ∧ module.rowAt name row = some bytes

/-- The promise of the routing tables for one layer. -/
structure LayerSafe (original : Module) (state : State) (pool : Pool) (module : Module) : Prop where
  experts : ∃ rows, original.rows? "w13_weight" = some rows ∧ rows.length = pool.experts
  entries : ∀ gid < pool.experts, ∀ dtype ∈ buildDtypes, ∃ entry row,
    state.tables.biasAt pool.layerId dtype gid = some entry ∧
      state.tables.remapAt pool.layerId gid = some row ∧
      (entry = 0 ∨ entry = finfoMin dtype) ∧
      (entry = 0 → RowOf original pool module gid row) ∧ (entry = finfoMin dtype → row = 0)
  emitted : ∀ (ids : List Int) (index gid : Nat), ids[index]? = some (gid : Int) → gid < pool.experts →
    (∃ dtype ∈ buildDtypes, state.tables.biasAt pool.layerId dtype gid = some 0) →
    ∃ row : Nat, (remapTopkIds state.shrunk state.tables (some pool.layerId) original.device ids)[index]? =
      some (row : Int) ∧ RowOf original pool module gid row

def RoutingSafe (model : LoadedModel) (state : State) : Prop :=
  ∀ layer pool, state.layers.get? layer = some pool → pool.layerId = layer ∧
    ∃ original module, model.modules[pool.module]? = some original ∧
      state.modules[pool.module]? = some module ∧ LayerSafe original state pool module

def Routed (model : LoadedModel) (ctx : Ctx) : Prop :=
  ∃ original, model.modules[ctx.pool.module]? = some original ∧ ctx.Inv original

variable {model : LoadedModel} {original : Module} {state : State} {ctx before after : Ctx}

theorem Routed.of_reached (source : model.modules[before.pool.module]? = some original)
    (reached : Ctx.Reached original before after) : Routed model after :=
  ⟨original, (Pool.module_of_frozen reached.frame.frozen) ▸ source, reached.inv⟩

theorem routingRule (model : LoadedModel) : LayerRule (Routed model) (Routed model) Demotable where
  weaken := fun _ routed => routed
  shared := by
    intro ctx tables stats same holds
    obtain ⟨original, source, inv⟩ := holds
    exact ⟨original, source, LayerInv.shared inv same⟩
  counted := by
    intro ctx stats tick need holds
    obtain ⟨original, source, inv⟩ := holds
    exact ⟨original, source, { inv with static := { inv.static with } }⟩
  columns := by
    intro ctx holds dtype built absent
    obtain ⟨original, _, inv⟩ := holds
    have entry := inv.served.columns 0 inv.static.several dtype built
    simp [Tables.biasAt, absent] at entry
  staging := by
    intro faults candidates ctx listed holds
    obtain ⟨original, source, inv⟩ := holds
    obtain ⟨visited, final, net⟩ := stageAll_inv faults inv fun gid member =>
      inv.static.coldIds ▸ listed gid member
    exact ⟨fun seen member =>
        ⟨.of_reached source (visited seen member).toReached, (visited seen member).frame⟩,
      .of_reached source final.toReached, final.frame, net⟩
  demotion := by
    intro config flat ctx demotable holds
    obtain ⟨original, source, inv⟩ := holds
    obtain ⟨visited, final⟩ := phaseB_inv inv demotable
    exact ⟨fun seen member => ⟨.of_reached source (visited seen member), (visited seen member).frame⟩,
      .of_reached source final.toReached, final.frame, final.net⟩

theorem rowOf_of_placed (inv : ctx.Inv original) {gid row : Nat}
    (placed : placement ctx.tables ctx.pool.layerId gid = some row) :
    RowOf original ctx.pool ctx.module gid row where
  inside := inv.static.phys ▸ inv.served.bounded gid row placed
  bytes := by
    intro name holds
    obtain ⟨first, member, same⟩ := holds
    have bound := inv.served.width gid (placement_eq_some.mp placed).1
    obtain ⟨_, _, rows, _, present, count⟩ := expertNames_spec member
    have held : original.rowAt first gid = some (rows.getD gid []) := by
      simp [Module.rowAt, present, count ▸ bound]
    have faithful := Module.contents_eq_iff.mp (inv.served.faithful gid row placed) first member
    have moduleSame : ctx.module.obj? first = ctx.module.obj? name := by
      rw [obj?_eq_of_attrs inv.served.attrs, obj?_eq_of_attrs inv.served.attrs, same]
    refine ⟨rows.getD gid [], ?_, ?_⟩
    · rw [← rowAt_eq_of_obj? original same, held]
    · rw [← rowAt_eq_of_obj? ctx.module moduleSame, faithful, held]

/-- A zero in any built column means the expert is served from its entry of the
remap table. -/
theorem placed_of_entry (inv : ctx.Inv original) {gid : Nat} (bound : gid < ctx.pool.experts)
    {dtype : DType} (built : dtype ∈ buildDtypes)
    (zero : ctx.tables.biasAt ctx.pool.layerId dtype gid = some 0) :
    ∃ row, placement ctx.tables ctx.pool.layerId gid = some row := by
  have entry := inv.served.columns gid bound dtype built
  have routable : ctx.tables.Routable ctx.pool.layerId gid := by
    by_contra masked
    rw [zero, if_neg masked, Option.some.injEq] at entry
    exact finfoMin_ne_zero dtype entry.symm
  obtain ⟨row, mapped, _⟩ := inv.served.remapped gid bound
  exact ⟨row, placement_eq_some.mpr ⟨routable, mapped⟩⟩

theorem remapTopkIds_placed (inv : ctx.Inv original) {ids : List Int} {index gid row : Nat}
    (found : ids[index]? = some (gid : Int))
    (placed : placement ctx.tables ctx.pool.layerId gid = some row) :
    (remapTopkIds true ctx.tables (some ctx.pool.layerId) original.device ids)[index]? =
      some (row : Int) := by
  have mapped := (placement_eq_some.mp placed).2
  obtain ⟨table, present, entry⟩ := Option.bind_eq_some_iff.mp mapped
  have device := inv.served.device table present
  have bound := (List.getElem?_eq_some_iff.mp entry).1
  have last : min gid (table.rows.length - 1) = gid := by omega
  have lookup : remapOrNone true ctx.tables ctx.pool.layerId original.device = some table.rows := by
    simp [remapOrNone, present, device]
  have value : table.rows[gid] = row := (List.getElem?_eq_some_iff.mp entry).2
  simp only [remapTopkIds, Option.bind_some, lookup, List.getElem?_map, found, Option.map_some]
  simpa [bound, last] using value

theorem routingSafe_of_routed (ok : Layerwise (Routed model) state) : RoutingSafe model state := by
  intro layer pool found
  obtain ⟨ctx, view, rfl⟩ := ok.wired.ctx?_isSome found
  obtain ⟨_, present, tables, _⟩ := State.pool_of_ctx? view
  obtain ⟨original, source, inv⟩ := ok.layers layer ctx view
  have armed := ok.armed layer ctx.pool found
  refine ⟨ok.wired.layerId layer ctx.pool found, original, ctx.module, source, present, ?_⟩
  refine { experts := inv.static.weight, entries := ?_, emitted := ?_ }
  · intro gid bound dtype built
    obtain ⟨row, mapped, zero⟩ := inv.served.remapped gid bound
    have column := inv.served.columns gid bound dtype built
    rw [tables] at mapped column zero
    refine ⟨_, row, column, mapped, ?_, ?_, ?_⟩
    · split <;> simp
    · intro routed
      rw [routed] at column
      rw [← tables] at column mapped
      obtain ⟨at_, placed⟩ := placed_of_entry inv bound built column
      have same : row = at_ := by
        have mappedThere := (placement_eq_some.mp placed).2
        rw [mapped, Option.some.injEq] at mappedThere
        exact mappedThere
      exact same ▸ rowOf_of_placed inv placed
    · intro minimum
      refine zero fun routable => ?_
      rw [if_pos routable] at minimum
      exact finfoMin_ne_zero dtype minimum.symm
  · intro ids index gid listed bound holds
    obtain ⟨dtype, built, entry⟩ := holds
    rw [← tables] at entry ⊢
    rw [armed]
    obtain ⟨row, placed⟩ := placed_of_entry inv bound built entry
    exact ⟨row, remapTopkIds_placed inv listed placed, rowOf_of_placed inv placed⟩

/-- The demotion layer is off: no tick enables it and no pass runs on its own. -/
def Event.degradeOff : Event → Prop
  | .hook config _ _ => config.degrade = false
  | .phaseB _ _ _ => False
  | _ => True

theorem eventAllows_of_degradeOff (allowed : HookConfig → List Nat → Ctx → Prop) (sigmoid : ℚ → ℚ)
    {event : Event} (off : event.degradeOff) (state : State) : EventAllows allowed sigmoid state event := by
  cases event with
  | hook config faults capturing =>
      have disabled : ∀ state, degradeEnabled config state = false := by
        intro state
        rw [degradeEnabled, show config.degrade = false from off, Bool.and_false]
      have layers : ∀ layers state, HookAllows allowed sigmoid config faults layers state := by
        intro layers
        induction layers with
        | nil => exact fun _ => trivial
        | cons layer rest ih =>
            refine fun state => ⟨?_, fun _ => ih _⟩
            intro buffer _ ctx _ ballot _ holds
            obtain ⟨_, enabled⟩ := holds
            rw [disabled] at enabled
            contradiction
      exact fun _ => layers _ _
  | phaseB config layer flat => exact absurd off id
  | forward layer capturing dtype logits => trivial
  | stash layer capturing preMask topkIds k => trivial
  | stageLists faults candidates => trivial

theorem Loaded.settled (loaded : Loaded model state) {settled : Ctx → Prop}
    (holds : ∀ ctx original, model.modules[ctx.pool.module]? = some original → Shrunk original ctx →
      settled ctx) : Settled settled state where
  wired := loaded.wired
  armed := loaded.armed
  layers := by
    intro layer ctx view
    obtain ⟨original, source, shrunk⟩ := loaded.layers layer ctx view
    exact holds ctx original source shrunk
  balanced := by
    have vacant : ∀ entry ∈ state.layers.entries, (entry.2.gidRow.size : Int) = 0 := by
      intro entry member
      obtain ⟨ctx, view, same⟩ := loaded.wired.ctx?_isSome (Dict.mem_entries_iff.mp member)
      obtain ⟨_, _, shrunk⟩ := loaded.layers entry.1 ctx view
      obtain ⟨_, _, _, _, _, _, _, fresh⟩ := shrunk.fresh
      rw [← same, fresh]
      rfl
    have none : state.residents = 0 := by
      rw [State.residents]
      exact List.sum_eq_zero fun size member => by
        obtain ⟨entry, inside, rfl⟩ := List.mem_map.mp member
        exact vacant entry inside
    rw [State.net, none, loaded.stats]
    rfl

/-- Routing is safe in every state that a run with demotion off exposes, from
the state a completed shrink leaves. -/
theorem routing_safe (sigmoid : ℚ → ℚ) (model : LoadedModel) (env : ShrinkEnv) (state : State)
    (completed : maybeShrinkAfterProcess env (State.fresh model.modules) = .done state)
    (events : List Event) (off : ∀ event ∈ events, event.degradeOff) :
    ∀ seen ∈ (machine sigmoid).visited state events, RoutingSafe model seen := by
  have start : Settled (Routed model) state :=
    (maybeShrink_loaded completed).settled fun ctx original source shrunk => ⟨original, source, shrunk.inv⟩
  have allows : (machine sigmoid).Meets (EventAllows Demotable sigmoid) state events :=
    Machine.meets_of_forall fun state event member =>
      eventAllows_of_degradeOff Demotable sigmoid (off event member) state
  intro seen member
  exact routingSafe_of_routed ((routingRule model).run_exposed sigmoid start allows seen member)

/-- A layer of three experts with one-byte rows; `w13_blockscale_swizzled` is
a second name of the scale. -/
def smallModule : Module where
  isFusedMoE := true
  layerId := some 0
  attrs := ⟨[("w13_weight", ⟨.parameter, 0⟩), ("w13_weight_scale", ⟨.parameter, 1⟩),
    ("w13_blockscale_swizzled", ⟨.parameter, 1⟩)], by decide⟩
  store := [.batch .uint8 [1] [[10], [11], [12]], .batch .float8_e4m3fn [1] [[20], [21], [22]]]
  device := 0
  numLocalExperts := 3
  topk := none
  ownerTopk := some ⟨0, 64⟩

def smallModel : LoadedModel where
  modules := [smallModule]
  sized := by
    intro module member
    rw [List.mem_singleton] at member
    subst member
    simp [Module.Sized, smallModule, Tensor.Sized, ElemType.elementSize]

def smallEnv : ShrinkEnv where
  offloadRequested := true
  keepMask := some ⟨[(0, [1])], by decide⟩
  coldSlots := 1
  uninit := fun _ _ _ => 0

/-- A tick in which the copies into the slot break off at the second
parameter, and then two stagings that go through and evict each other. -/
def smallEvents : List Event :=
  [.stageLists ⟨fun _ _ => false, fun _ _ name => name == "w13_weight_scale"⟩ fun _ => [0],
    .stageLists .none fun _ => [2], .stageLists .none fun _ => [0]]

theorem routing_safe_smallModel : ∃ state,
    maybeShrinkAfterProcess smallEnv (State.fresh smallModel.modules) = .done state ∧
      ∀ seen ∈ (machine fun _ => 1 / 2).visited state smallEvents, RoutingSafe smallModel seen :=
  ⟨_, rfl, routing_safe (fun _ => 1 / 2) smallModel smallEnv _ rfl smallEvents
    (by simp [smallEvents, Event.degradeOff])⟩

end FlashNext.ColdPool
