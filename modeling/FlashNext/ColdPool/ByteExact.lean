import FlashNext.ColdPool.ShrinkLoop
import Mathlib.Tactic.Ring

namespace FlashNext.ColdPool

open FlashNext.Data

def Slice.stop (slice : Slice) (coldLen : Nat) : Nat := slice.offset + slice.rowBytes * coldLen

theorem coldSlices_spans (coldLen : Nat) (held : List HeldParam) (offset : Nat) :
    (coldSlices coldLen held offset).map (fun slice => (slice.offset, slice.stop coldLen)) =
      spans (held.map fun param => param.rowBytes * coldLen) offset := by
  induction held generalizing offset with
  | nil => rfl
  | cons param rest ih =>
      rw [coldSlices, List.map_cons, ih]
      rfl

/-- The slices of a buffer are disjoint, aligned to their elements and cover it. -/
structure ExactSlices (slices : List Slice) (coldLen : Nat) (buffer : Row) : Prop where
  disjoint : slices.Pairwise fun left right => left.stop coldLen ≤ right.offset
  aligned : ∀ slice ∈ slices, slice.elem.elementSize ∣ slice.offset
  within : ∀ slice ∈ slices, slice.stop coldLen ≤ buffer.length
  covered : ∀ byte < buffer.length, ∃ slice ∈ slices, slice.offset ≤ byte ∧ byte < slice.stop coldLen

theorem hostBuffer_length {held : List HeldParam} {cold : List Nat}
    (sized : ∀ param ∈ held, ∀ row ∈ param.rows, row.length = param.rowBytes)
    (bound : ∀ param ∈ held, ∀ gid ∈ cold, gid < param.rows.length) :
    (hostBuffer held cold).length = (held.map fun param => param.rowBytes * cold.length).sum := by
  rw [hostBuffer_eq sized bound, List.length_flatten, List.map_map]
  congr 1
  exact List.map_congr_left fun param member => coldBytes_length (sized param member) (bound param member)

theorem exactSlices {held : List HeldParam} {cold : List Nat}
    (sized : ∀ param ∈ held, ∀ row ∈ param.rows, row.length = param.rowBytes)
    (bound : ∀ param ∈ held, ∀ gid ∈ cold, gid < param.rows.length)
    (aligned : ∀ slice ∈ coldSlices cold.length held 0, slice.Aligned) :
    ExactSlices (coldSlices cold.length held 0) cold.length (hostBuffer held cold) := by
  have tiles := spans_tiles (held.map fun param => param.rowBytes * cold.length) 0
  rw [← coldSlices_spans, Nat.zero_add, ← hostBuffer_length sized bound] at tiles
  refine ⟨List.pairwise_map.mp tiles.ordered, ?_, ?_, ?_⟩
  · exact fun slice member => Nat.dvd_of_mod_eq_zero (aligned slice member)
  · exact fun slice member => (tiles.within _ (List.mem_map_of_mem member)).2
  · intro byte inside
    obtain ⟨span, member, reached⟩ := tiles.covered byte (Nat.zero_le _) inside
    obtain ⟨slice, listed, rfl⟩ := List.mem_map.mp member
    exact ⟨slice, listed, reached⟩

/-- The per-expert tensors of the file header: dtype and shape of one row. -/
def inventoryShape (n k : Nat) : String → Option (ElemType × List Nat)
  | "w13_weight" => some (.uint8, [2 * n, k / 2])
  | "w2_weight" => some (.uint8, [k, n / 2])
  | "w13_weight_scale" => some (.float8_e4m3fn, [2 * n, k / 16])
  | "w2_weight_scale" => some (.float8_e4m3fn, [k, n / 16])
  | "w13_weight_scale_2" | "w13_input_scale" => some (.float32, [2])
  | "w2_weight_scale_2" | "w2_input_scale" | "g1_alphas" | "g1_alphas_up" | "g2_alphas" => some (.float32, [])
  | _ => none

/-- Every whitelisted per-expert tensor the module has is one of the header. -/
structure Nvfp4 (original : Module) (experts n k : Nat) : Prop where
  blocksN : 16 ∣ n
  blocksK : 16 ∣ k
  shapes : ∀ name ∈ allParams, ∀ elem trailing rows, original.getattr name = some (.batch elem trailing rows) →
    rows.length = experts → inventoryShape n k name = some (elem, trailing)

theorem inventoryShape_words {n k : Nat} (blocksN : 16 ∣ n) (blocksK : 16 ∣ k) {name : String}
    {elem : ElemType} {trailing : List Nat} (listed : inventoryShape n k name = some (elem, trailing)) :
    4 ∣ trailing.prod * elem.elementSize := by
  obtain ⟨a, rfl⟩ := blocksN
  obtain ⟨b, rfl⟩ := blocksK
  have halfK : 16 * b / 2 = 8 * b := by omega
  have halfN : 16 * a / 2 = 8 * a := by omega
  have blockK : 16 * b / 16 = b := by omega
  have blockN : 16 * a / 16 = a := by omega
  unfold inventoryShape at listed
  split at listed <;> cases listed <;>
    simp only [List.prod_cons, List.prod_nil, ElemType.elementSize, Nat.mul_one, Nat.one_mul, halfK, halfN, blockK, blockN]
  · exact ⟨8 * a * (8 * b), by ring⟩
  · exact ⟨4 * b * (8 * a), by ring⟩
  · exact ⟨8 * a * b, by ring⟩
  · exact ⟨4 * b * a, by ring⟩
  all_goals decide

theorem HeldParam.Of.getattr {original : Module} {experts : Nat} {held : HeldParam}
    (of : held.Of original experts) :
    original.getattr held.name = some (.batch held.elem held.trailing held.rows) := by
  obtain ⟨attr, found, same⟩ := Option.map_eq_some_iff.mp of.bound
  rw [Module.getattr, found, Option.bind_some, same, of.stored]

theorem Nvfp4.aligned {original : Module} {experts n k : Nat} (inventory : Nvfp4 original experts n k)
    (coldLen : Nat) :
    ∀ slice ∈ coldSlices coldLen (heldParams original experts allParams []) 0, slice.Aligned := by
  intro slice member
  have words : ∀ size ∈ (heldParams original experts allParams []).map fun param => param.rowBytes * coldLen,
      4 ∣ size := by
    intro size listed
    obtain ⟨param, inside, rfl⟩ := List.mem_map.mp listed
    have of := (heldParams_of original experts allParams [] (fun _ member => member) param inside).1
    have shape := inventory.shapes param.name of.listed _ _ _ of.getattr of.count
    exact Nat.dvd_mul_right_of_dvd (inventoryShape_words inventory.blocksN inventory.blocksK shape) coldLen
  have offset := dvd_spans (Nat.dvd_zero 4) words (slice.offset, slice.stop coldLen)
    (by rw [← coldSlices_spans]; exact List.mem_map_of_mem member)
  refine Nat.mod_eq_zero_of_dvd (Nat.dvd_trans ?_ offset)
  cases slice.elem <;> decide

/-- The name under which a tensor's cold rows are filed: the first whitelisted
one that is bound to it. -/
def filedName (original : Module) (name : String) : Option String :=
  allParams.find? fun first => original.obj? first = original.obj? name

theorem heldParams_first (module : Module) (experts : Nat) (names : List String) (seen : List Nat)
    (listed : ∀ name ∈ names, name ∈ allParams) :
    ∀ held ∈ heldParams module experts names seen,
      names.find? (fun first => decide (module.obj? first = some held.obj)) = some held.name := by
  fun_induction heldParams module experts names seen with
  | case1 => simp
  | case2 name rest seen unbound ih =>
      intro held member
      have other : ¬ module.obj? name = some held.obj := by simp [Module.obj?, unbound]
      rw [List.find?_cons_of_neg (by simpa using other)]
      exact ih (fun other member => listed other (by simp [member])) held member
  | case3 name rest seen attr bound elem trailing rows stored taken ih =>
      intro held member
      have target : module.obj? name = some attr.obj := by simp [Module.obj?, bound]
      rcases List.mem_cons.mp member with rfl | later
      · rw [List.find?_cons_of_pos (by simp [target])]
      · have below : ∀ name ∈ rest, name ∈ allParams := fun other member => listed other (by simp [member])
        have fresh := (heldParams_of module experts rest (attr.obj :: seen) below held later).2
        have other : ¬ module.obj? name = some held.obj := by
          rw [target, Option.some.injEq]
          exact fun same => fresh (by simp [same])
        rw [List.find?_cons_of_neg (by simpa using other)]
        exact ih below held later
  | case4 name rest seen attr bound elem trailing rows stored passed ih =>
      intro held member
      have below : ∀ name ∈ rest, name ∈ allParams := fun other member => listed other (by simp [member])
      obtain ⟨of, fresh⟩ := heldParams_of module experts rest seen below held member
      have other : ¬ module.obj? name = some held.obj := by
        intro target
        have same : attr.obj = held.obj := by simpa [Module.obj?, bound] using target
        have tensor := of.stored
        rw [← same, stored] at tensor
        cases tensor
        exact passed ⟨of.count, same ▸ fresh⟩
      rw [List.find?_cons_of_neg (by simpa using other)]
      exact ih below held member
  | case5 name rest seen attr bound passed ih =>
      intro held member
      have below : ∀ name ∈ rest, name ∈ allParams := fun other member => listed other (by simp [member])
      have of := (heldParams_of module experts rest seen below held member).1
      have other : ¬ module.obj? name = some held.obj := by
        intro target
        have same : attr.obj = held.obj := by simpa [Module.obj?, bound] using target
        exact passed _ _ _ (same ▸ of.stored)
      rw [List.find?_cons_of_neg (by simpa using other)]
      exact ih below held member

/-- The rebuilt tensors of a layer against the tensors it was loaded with. -/
structure ExactModule (env : ShrinkEnv) (original : Module) (keep : List Nat) (experts : Nat)
    (module : Module) : Prop where
  rows : ∀ name ∈ expertNames original experts, ∃ rows, module.rows? name = some rows ∧
    rows.length = keep.length + env.coldSlots ∧
    ∀ index gid : Nat, keep[index]? = some gid → ∃ bytes, original.rowAt name gid = some bytes ∧ rows[index]? = some bytes
  aliases : ∀ name ∈ expertNames original experts, ∀ other, original.obj? other = original.obj? name →
    module.obj? other = module.obj? name ∧ module.rows? other = module.rows? name

/-- The host rows of a layer against the tensors it was loaded with. -/
structure ExactHost (original : Module) (keep : List Nat) (experts : Nat) (pool : Pool) : Prop where
  rows : ∀ name ∈ expertNames original experts, ∃ first, filedName original name = some first ∧
    ∀ gid < experts, gid ∉ keep → ∃ bytes, original.rowAt name gid = some bytes ∧
      hostGet pool.host gid first = some bytes

section Layer

variable {env : ShrinkEnv} {keepMask : Dict Nat (List Nat)} {original : Module} {layer experts : Nat}
  {keep cold : List Nat}

theorem exactModule (keepIds : ∀ gid ∈ keep, gid < experts) :
    ExactModule env original keep experts (swappedModule env original keep experts) := by
  have swap := @swapParams_eq env keep _ original.store (@heldParams_bounded experts original keep keepIds)
  constructor
  · intro name member
    obtain ⟨held, inside, of, bound, _, rebuilt⟩ :=
      @swapped_rows? env original experts keep _ swap name (keep.length + env.coldSlots) member
    refine ⟨_, rebuilt, by simp, ?_⟩
    intro index gid place
    refine ⟨_, of.rowAt bound (keepIds gid (List.mem_of_getElem? place)), ?_⟩
    rw [List.getElem?_append_left (by simpa using (List.getElem?_eq_some_iff.mp place).1), List.getElem?_map, place]
    rfl
  · intro name _ other same
    have bound : (swappedModule env original keep experts).obj? other =
        (swappedModule env original keep experts).obj? name := same
    exact ⟨bound, by rw [Module.rows?_eq, Module.rows?_eq, bound]⟩

theorem cold_bound (target : Target keepMask original layer keep experts cold) :
    ∀ param ∈ heldParams original experts allParams [], ∀ gid ∈ cold, gid < param.rows.length := by
  intro param inside gid member
  have of := (heldParams_of original experts allParams [] (fun _ member => member) param inside).1
  rw [target.coldIds] at member
  exact of.count ▸ List.mem_range.mp (List.mem_filter.mp member).1

theorem exactHost (target : Target keepMask original layer keep experts cold) (sized : original.Sized)
    (index : Nat) : ExactHost original keep experts
      (shrunkPool env index layer keep experts cold (heldParams original experts allParams [])) := by
  refine ⟨?_⟩
  intro name member
  obtain ⟨held, inside, of, bound⟩ := held_of_name member
  refine ⟨held.name, ?_, ?_⟩
  · rw [filedName, bound]
    exact heldParams_first original experts allParams [] (fun _ member => member) held inside
  · intro gid inRange notKept
    have listed : gid ∈ cold := by
      rw [target.coldIds]
      exact List.mem_filter.mpr ⟨List.mem_range.mpr inRange, decide_eq_true notKept⟩
    obtain ⟨slice, sliced, named⟩ :=
      (@coldSlices_shows _ cold [] 0 (held_sized sized) (cold_bound target) rfl).2 held inside
    obtain ⟨bytes, found⟩ := Option.ne_none_iff_exists'.mp
      (@hostRows_complete (hostBuffer (heldParams original experts allParams []) cold) _ _ _ listed _ sliced)
    rw [named] at found
    have origin := (host_origin target sized found).2.2
    rw [of.rowAt of.bound inRange] at origin
    exact ⟨bytes, (of.rowAt bound inRange).trans origin, found⟩

end Layer

/-- After a completed call every layer it took is found again byte by byte. -/
structure ByteExact (env : ShrinkEnv) (keepMask : Dict Nat (List Nat)) (modules : List Module) (state : State) :
    Prop where
  layers : ∀ index original layer keep experts cold, Job keepMask modules index original layer keep experts cold →
    (∃ module, state.modules[index]? = some module ∧ ExactModule env original keep experts module) ∧
      ExactSlices (coldSlices cold.length (heldParams original experts allParams []) 0) cold.length
        (hostBuffer (heldParams original experts allParams []) cold) ∧
      ∃ pool, state.layers.get? layer = some pool
  pools : ∀ layer pool, state.layers.get? layer = some pool → ∃ original keep experts cold,
    Job keepMask modules pool.module original layer keep experts cold ∧ ExactHost original keep experts pool

theorem byteExact_of_shrank {env : ShrinkEnv} {keepMask : Dict Nat (List Nat)} {model : LoadedModel} {state : State}
    (passes : ∀ index < model.modules.length, Passes keepMask model.modules index)
    {reached : State}
    (shrank : Shrank env keepMask (List.range model.modules.length) (State.parsed model.modules keepMask) reached)
    (sameModules : state.modules = reached.modules) (sameLayers : state.layers = reached.layers) :
    ByteExact env keepMask model.modules state := by
  have inside : ∀ {index original layer keep experts cold},
      Job keepMask model.modules index original layer keep experts cold → index < model.modules.length :=
    fun job => (List.getElem?_eq_some_iff.mp job.present).1
  have sized : ∀ {index original layer keep experts cold},
      Job keepMask model.modules index original layer keep experts cold → original.Sized :=
    fun job => model.sized _ (List.mem_of_getElem? job.present)
  constructor
  · rw [sameModules, sameLayers]
    intro index original layer keep experts cold job
    have admitted := (passes index (inside job) original layer keep experts cold job).1
    obtain ⟨present, pool⟩ := shrank.taken index (List.mem_range.mpr (inside job)) original layer keep experts cold job
    have target := shrinkTarget_spec job.taken
    exact ⟨⟨_, present, exactModule admitted.keepIds⟩,
      exactSlices (held_sized (sized job)) (cold_bound target) admitted.aligned, pool⟩
  · rw [sameLayers]
    intro layer pool found
    rcases shrank.pools layer pool found with before | ⟨index, _, original, keep, experts, cold, job, rfl⟩
    · simp [State.parsed, State.fresh] at before
    · exact ⟨original, keep, experts, cold, job, exactHost (shrinkTarget_spec job.taken) (sized job) index⟩

/-- The shrink of a model whose layers carry the NVFP4 inventory goes through
unless one of the two gates refuses a layer, and it is byte-exact. -/
theorem shrink_byte_exact (model : LoadedModel) (env : ShrinkEnv) (keepMask : Dict Nat (List Nat))
    (offload : env.offloadRequested = true) (masked : env.keepMask = some keepMask)
    (inventory : ∀ index original layer keep experts cold,
      Job keepMask model.modules index original layer keep experts cold →
        (∃ n k, Nvfp4 original experts n k) ∧ ∀ gid ∈ keep, gid < experts) :
    ((∀ index original layer keep experts cold, Job keepMask model.modules index original layer keep experts cold →
        inventoryGate original experts = [] ∧ managedConfig original ≠ none) →
      ∃ state, maybeShrinkAfterProcess env (State.fresh model.modules) = .done state) ∧
    ∀ state, maybeShrinkAfterProcess env (State.fresh model.modules) = .done state →
      ByteExact env keepMask model.modules state := by
  have call := maybeShrink_call model.modules offload masked
  constructor
  · intro gates
    cases outcome : maybeShrinkAfterProcess env (State.fresh model.modules) with
    | done state => exact ⟨state, rfl⟩
    | raised error failed =>
        rw [outcome] at call
        cases call with
        | stopped range passes job refused shrank =>
            obtain ⟨⟨n, k, nvfp4⟩, keepIds⟩ := inventory _ _ _ _ _ _ job
            obtain ⟨gate, armed⟩ := gates _ _ _ _ _ _ job
            exact absurd ⟨⟨gate, nvfp4.aligned _, keepIds⟩, armed⟩ refused
  · intro state done
    rw [done] at call
    cases call with
    | completed passes shrank sameModules sameLayers =>
        exact byteExact_of_shrank passes shrank sameModules sameLayers

def filled (width : Nat) (values : List UInt8) : List Row := values.map (List.replicate width)

theorem filled_length {width : Nat} {values : List UInt8} : ∀ row ∈ filled width values, row.length = width := by
  intro row member
  obtain ⟨value, _, rfl⟩ := List.mem_map.mp member
  exact List.length_replicate

/-- Three experts with N = K = 16; the swizzled scale is a second name. -/
def blockModule : Module where
  isFusedMoE := true
  layerId := some 0
  attrs := ⟨[("w13_weight", ⟨.parameter, 0⟩), ("w13_weight_scale", ⟨.parameter, 1⟩),
    ("w13_blockscale_swizzled", ⟨.parameter, 1⟩), ("w2_weight_scale_2", ⟨.parameter, 2⟩)], by decide⟩
  store := [.batch .uint8 [32, 8] (filled 256 [10, 11, 12]), .batch .float8_e4m3fn [32, 1] (filled 32 [20, 21, 22]),
    .batch .float32 [] (filled 4 [30, 31, 32])]
  device := 0
  numLocalExperts := 3
  topk := none
  ownerTopk := some ⟨0, 64⟩

def blockModel : LoadedModel where
  modules := [blockModule]
  sized := by
    intro module member
    rw [List.mem_singleton] at member
    subst member
    intro tensor stored
    simp only [blockModule, List.mem_cons, List.not_mem_nil, or_false] at stored
    rcases stored with rfl | rfl | rfl <;> exact filled_length

theorem blockModule_nvfp4 : Nvfp4 blockModule 3 16 16 where
  blocksN := by decide
  blocksK := by decide
  shapes := by
    have table : ∀ name ∈ allParams, blockModule.getattr name = none ∨
        (blockModule.getattr name).map (fun tensor => (tensor.elem, tensor.shape.tail)) =
          inventoryShape 16 16 name := by decide +kernel
    intro name listed elem trailing rows present _
    rcases table name listed with absent | shape
    · rw [absent] at present
      cases present
    · rw [present] at shape
      exact shape.symm

/-- Experts 2 and 0 are kept, in this order. -/
def blockEnv : ShrinkEnv where
  offloadRequested := true
  keepMask := some ⟨[(0, [2, 0])], by decide⟩
  coldSlots := 1
  uninit := fun _ _ _ => 0

theorem blockModel_job {index layer experts : Nat} {original : Module} {keep cold : List Nat}
    (job : Job ⟨[(0, [2, 0])], by decide⟩ blockModel.modules index original layer keep experts cold) :
    original = blockModule ∧ keep = [2, 0] ∧ experts = 3 := by
  have stored : original ∈ blockModel.modules := List.mem_of_getElem? job.present
  rw [blockModel, List.mem_singleton] at stored
  subst stored
  have taken : shrinkTarget ⟨[(0, [2, 0])], by decide⟩ blockModule = some (0, [2, 0], 3, [1]) := by decide +kernel
  cases taken.symm.trans job.taken
  exact ⟨rfl, rfl, rfl⟩

theorem shrink_byte_exact_blockModel :
    ∃ state, maybeShrinkAfterProcess blockEnv (State.fresh blockModel.modules) = .done state ∧
      ByteExact blockEnv ⟨[(0, [2, 0])], by decide⟩ blockModel.modules state := by
  obtain ⟨completes, exact_⟩ := shrink_byte_exact blockModel blockEnv ⟨[(0, [2, 0])], by decide⟩ rfl rfl
    (by
      intro index original layer keep experts cold job
      obtain ⟨rfl, rfl, rfl⟩ := blockModel_job job
      exact ⟨⟨16, 16, blockModule_nvfp4⟩, by decide⟩)
  obtain ⟨state, done⟩ := completes (by
    intro index original layer keep experts cold job
    obtain ⟨rfl, rfl, rfl⟩ := blockModel_job job
    exact ⟨by decide +kernel, by decide⟩)
  exact ⟨state, done, exact_ state done⟩

end FlashNext.ColdPool
