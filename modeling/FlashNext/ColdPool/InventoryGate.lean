import FlashNext.ColdPool.ShrinkLoop

namespace FlashNext.ColdPool

open FlashNext.Data

/-- The attribute is a tensor with one entry per expert along its leading
dimension. -/
def Module.PerExpert (module : Module) (experts : Nat) (name : String) : Prop :=
  (module.getattr name).bind (fun tensor => tensor.shape.head?) = some experts

instance (module : Module) (experts : Nat) (name : String) : Decidable (module.PerExpert experts name) :=
  inferInstanceAs (Decidable (_ = _))

def Listed (module : Module) (name : String) : Prop :=
  ∃ listed ∈ allParams, module.obj? listed = module.obj? name

instance (module : Module) (name : String) : Decidable (Listed module name) :=
  inferInstanceAs (Decidable (∃ listed ∈ allParams, _))

section Gate

variable {original : Module} {experts : Nat} {name : String}

theorem PerExpert.attr (perExpert : original.PerExpert experts name) :
    ∃ attr tensor, original.attrs.get? name = some attr ∧ original.store[attr.obj]? = some tensor ∧
      tensor.shape.head? = some experts := by
  obtain ⟨tensor, found, head⟩ := Option.bind_eq_some_iff.mp perExpert
  obtain ⟨attr, bound, stored⟩ := Option.bind_eq_some_iff.mp found
  exact ⟨attr, tensor, bound, stored, head⟩

theorem namedParameters_covers (entries : List (String × Attr)) (seen : List Nat) :
    ∀ entry ∈ entries, entry.2.kind = .parameter → entry.2.obj ∈ seen ∨
      ∃ first ∈ namedParameters entries seen, first ∈ entries ∧ first.2.obj = entry.2.obj := by
  induction entries generalizing seen with
  | nil => simp
  | cons head rest ih =>
      intro entry member parameter
      rw [namedParameters]
      by_cases looks : head.2.kind = .parameter ∧ head.2.obj ∉ seen
      · rw [if_pos looks]
        rcases List.mem_cons.mp member with rfl | inside
        · exact Or.inr ⟨_, List.mem_cons_self, List.mem_cons_self, rfl⟩
        · rcases ih (head.2.obj :: seen) entry inside parameter with old | ⟨first, listed, stands, same⟩
          · rcases List.mem_cons.mp old with here | before
            · exact Or.inr ⟨_, List.mem_cons_self, List.mem_cons_self, here.symm⟩
            · exact Or.inl before
          · exact Or.inr ⟨first, List.mem_cons_of_mem _ listed, List.mem_cons_of_mem _ stands, same⟩
      · rw [if_neg looks]
        rcases List.mem_cons.mp member with rfl | inside
        · exact Or.inl (by simpa [parameter] using looks)
        · rcases ih seen entry inside parameter with old | ⟨first, listed, stands, same⟩
          · exact Or.inl old
          · exact Or.inr ⟨first, listed, List.mem_cons_of_mem _ stands, same⟩

theorem swizzleSource_listed {source : String} (swizzled : swizzleSource name = some source) :
    source ∈ allParams := by
  unfold swizzleSource at swizzled
  split at swizzled <;> cases swizzled <;> decide

theorem listed_of_gateEntry {attr : Attr} {tensor : Tensor} (bound : original.attrs.get? name = some attr)
    (stored : original.store[attr.obj]? = some tensor) (head : tensor.shape.head? = some experts)
    (passed : gateEntry original experts name attr = none) : Listed original name := by
  rw [gateEntry, stored] at passed
  dsimp only at passed
  rw [if_neg (not_not.mpr head)] at passed
  split at passed
  · next whitelisted => exact ⟨name, whitelisted, rfl⟩
  · cases swizzled : swizzleSource name with
    | none => simp [swizzled] at passed
    | some source =>
        simp only [swizzled] at passed
        split at passed
        · next aliased =>
            refine ⟨source, swizzleSource_listed swizzled, ?_⟩
            rw [Module.obj?, Module.obj?, aliased, bound]
            rfl
        · contradiction

theorem gate_covers_parameters (gate : inventoryGate original experts = []) {attr : Attr}
    (bound : original.attrs.get? name = some attr) (parameter : attr.kind = .parameter)
    (perExpert : original.PerExpert experts name) : Listed original name := by
  obtain ⟨_, tensor, here, stored, head⟩ := PerExpert.attr perExpert
  cases bound.symm.trans here
  have entry : (name, attr) ∈ original.attrs.entries := Dict.mem_entries_iff.mpr bound
  rcases namedParameters_covers original.attrs.entries [] (name, attr) entry parameter with
    old | ⟨⟨first, firstAttr⟩, looked, stands, same⟩
  · cases old
  · dsimp only at same
    have firstBound : original.attrs.get? first = some firstAttr := Dict.mem_entries_iff.mp stands
    have passed : gateEntry original experts first firstAttr = none :=
      List.filterMap_eq_nil_iff.mp gate (first, firstAttr) looked
    obtain ⟨listed, whitelisted, alias_⟩ :=
      listed_of_gateEntry firstBound (same.symm ▸ stored) head passed
    refine ⟨listed, whitelisted, alias_.trans ?_⟩
    rw [Module.obj?, Module.obj?, firstBound, bound, Option.map_some, Option.map_some, same]

/-- Every per-expert buffer and plain attribute is bound to a whitelisted
tensor as well. -/
def Covered (original : Module) (experts : Nat) : Prop :=
  ∀ entry ∈ original.attrs.entries, entry.2.kind ≠ .parameter → original.PerExpert experts entry.1 →
    Listed original entry.1

instance (original : Module) (experts : Nat) : Decidable (Covered original experts) :=
  inferInstanceAs (Decidable (∀ entry ∈ original.attrs.entries, _ → _ → _))

theorem listed_of_covered (gate : inventoryGate original experts = []) (covered : Covered original experts)
    (perExpert : original.PerExpert experts name) : Listed original name := by
  obtain ⟨attr, _, bound, _, _⟩ := PerExpert.attr perExpert
  by_cases parameter : attr.kind = .parameter
  · exact gate_covers_parameters gate bound parameter perExpert
  · exact covered (name, attr) (Dict.mem_entries_iff.mpr bound) parameter perExpert

end Gate

section Swap

variable {env : ShrinkEnv} {original : Module} {keep : List Nat} {experts : Nat} {name : String}

theorem held_iff_listed (perExpert : original.PerExpert experts name) :
    (∃ param ∈ heldParams original experts allParams [], original.obj? name = some param.obj) ↔
      Listed original name := by
  obtain ⟨attr, tensor, bound, stored, head⟩ := PerExpert.attr perExpert
  have target : original.obj? name = some attr.obj := by rw [Module.obj?, bound, Option.map_some]
  constructor
  · intro held
    obtain ⟨param, inside, same⟩ := held
    have of := (heldParams_of original experts allParams [] (fun _ member => member) param inside).1
    exact ⟨param.name, of.listed, of.bound.trans same.symm⟩
  · intro named
    obtain ⟨listed, whitelisted, alias_⟩ := named
    cases tensor with
    | scalar elem bytes => cases head
    | batch elem trailing rows =>
        have count : rows.length = experts := Option.some.inj head
        have present : original.rows? listed = some rows := by
          rw [Module.rows?_eq, alias_, target, Option.bind_some, stored]
          rfl
        rcases heldParams_complete original experts allParams [] listed whitelisted attr.obj rows
          (alias_.trans target) present count with old | new
        · cases old
        · obtain ⟨param, inside, same⟩ := List.mem_map.mp new
          exact ⟨param, inside, target.trans (congrArg some same.symm)⟩

theorem perExpert_swapped_iff (keepIds : ∀ gid ∈ keep, gid < experts)
    (apart : keep.length + env.coldSlots ≠ experts) :
    (swappedModule env original keep experts).PerExpert experts name ↔
      original.PerExpert experts name ∧ ¬ Listed original name := by
  have swap := @swapParams_eq env keep _ original.store (@heldParams_bounded experts original keep keepIds)
  obtain ⟨moved, others⟩ := swapParams_spec swap (heldParams_fresh original experts allParams []).1 (by
    intro param listed
    have of := (heldParams_of original experts allParams [] (fun _ member => member) param listed).1
    exact (List.getElem?_eq_some_iff.mp of.stored).1)
  by_cases held : ∃ param ∈ heldParams original experts allParams [], original.obj? name = some param.obj
  · obtain ⟨param, inside, same⟩ := held
    obtain ⟨attr, bound, obj⟩ := Option.map_eq_some_iff.mp same
    have of := (heldParams_of original experts allParams [] (fun _ member => member) param inside).1
    have before : original.PerExpert experts name := by
      rw [Module.PerExpert, Module.getattr, bound, Option.bind_some, obj, of.stored]
      exact congrArg some of.count
    have after : ¬ (swappedModule env original keep experts).PerExpert experts name := by
      have stored : (swappedModule env original keep experts).store[param.obj]? =
          some (swappedTensor env keep param) := (moved param inside).1
      have sameBound : (swappedModule env original keep experts).attrs.get? name = some attr := bound
      rw [Module.PerExpert, Module.getattr, sameBound, Option.bind_some, obj, stored]
      simp only [swappedTensor, Tensor.shape, Option.bind_some, List.head?_cons, List.length_append,
        List.length_map, List.length_range, Option.some.injEq]
      exact apart
    have listed := (held_iff_listed before).mp ⟨param, inside, same⟩
    exact ⟨fun left => absurd left after, fun right => absurd listed right.2⟩
  · have untouched : (swappedModule env original keep experts).getattr name = original.getattr name := by
      cases bound : original.attrs.get? name with
      | none => simp [Module.getattr, swappedModule, bound]
      | some attr =>
          have absent : attr.obj ∉ (heldParams original experts allParams []).map HeldParam.obj := by
            intro member
            obtain ⟨param, inside, same⟩ := List.mem_map.mp member
            exact held ⟨param, inside, by rw [Module.obj?, bound, Option.map_some, same]⟩
          have stored : (swappedModule env original keep experts).store[attr.obj]? = original.store[attr.obj]? :=
            others attr.obj absent
          have sameBound : (swappedModule env original keep experts).attrs.get? name = some attr := bound
          rw [Module.getattr, Module.getattr, sameBound, bound, Option.bind_some, Option.bind_some, stored]
    rw [Module.PerExpert, untouched]
    constructor
    · intro before
      exact ⟨before, fun listed => held ((held_iff_listed before).mpr listed)⟩
    · exact fun both => both.1

end Swap

end FlashNext.ColdPool
