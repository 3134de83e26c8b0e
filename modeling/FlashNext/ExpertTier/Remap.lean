import FlashNext.ExpertTier.LayerTier

namespace FlashNext.ExpertTier

open FlashNext.Data FlashNext.ColdPool

variable {layer : ExpertLayer} {keepIds : List Int}

/-- The rows of a tensor before it is replaced. -/
def original (tensor : String × Tensor) : List Row := tensor.2.rows?.getD []

/-- What a tier keeps of one tensor: kept rows in front, cold rows in the pool. -/
structure Replaces (layer : ExpertLayer) (keepIds : List Int) (tensor : String × Tensor) (pair : TierPair) : Prop where
  whole : (original tensor).length = layer.numLocalExperts
  pool : pair.pool = takeSlots (layer.coldIds keepIds) (original tensor)
  size : pair.rows.length = keepIds.length + ringSize
  kept : ∀ (index : Nat) gid, keepIds[index]? = some gid → pair.rows[index]? = (original tensor)[gid.toNat]?

/-- A tier of a layer, after any calls. -/
structure Tiered (layer : ExpertLayer) (keepIds : List Int) (tier : LayerTier) : Prop where
  tables : { tier with pairs := [], warnedOverflow := false } = tierOf layer keepIds []
  experts : ∀ id ∈ keepIds, layer.IsExpert id
  pairs : List.Forall₂ (Replaces layer keepIds) layer.tensors tier.pairs

theorem mem_coldIds {gid : Nat} :
    gid ∈ layer.coldIds keepIds ↔ gid < layer.numLocalExperts ∧ (gid : Int) ∉ keepIds := by
  simp [ExpertLayer.coldIds]

theorem indexSelect_ok {rows part : List Row} {ids : List Int} (selected : indexSelect rows ids = .ok part) :
    (∀ id ∈ ids, 0 ≤ id ∧ id < rows.length) ∧ part = takeSlots (ids.map Int.toNat) rows := by
  rw [indexSelect] at selected
  split at selected
  · next inside =>
      cases selected
      refine ⟨?_, rfl⟩
      intro id member
      exact of_decide_eq_true (List.all_eq_true.mp inside id member)
  · cases selected

theorem length_ringRows {zero : Row} {coldPart ring : List Row} {seeds : Option (List Nat)}
    (made : ringRows zero coldPart seeds = .ok ring) : ring.length = ringSize := by
  cases seeds with
  | none =>
      cases made
      exact List.length_replicate
  | some ranks =>
      rw [ringRows] at made
      split at made
      · cases made
      · cases made
        rw [length_putSlots, List.length_replicate]

theorem takeSlots_toNat {rows : List Row} {ids : List Int} (inside : ∀ id ∈ ids, 0 ≤ id ∧ id < rows.length) :
    (takeSlots (ids.map Int.toNat) rows).length = ids.length ∧
      ∀ (index : Nat) id, ids[index]? = some id → (takeSlots (ids.map Int.toNat) rows)[index]? = rows[id.toNat]? := by
  have bound : ∀ slot ∈ ids.map Int.toNat, slot < rows.length := by
    intro slot member
    obtain ⟨id, listed, rfl⟩ := List.mem_map.mp member
    have fits := inside id listed
    omega
  refine ⟨?_, ?_⟩
  · rw [takeSlots_eq_map bound [], List.length_map, List.length_map]
  · intro index id found
    rw [takeSlots_getElem? bound, List.getElem?_map, found]
    rfl

theorem pairOf_ok {seeds : Option (List Nat)} {name : String} {tensor : Tensor} {pair : TierPair}
    (made : pairOf layer keepIds seeds name tensor = .ok pair) :
    Replaces layer keepIds (name, tensor) pair ∧ ∀ id ∈ keepIds, layer.IsExpert id := by
  cases tensor with
  | scalar elem bytes => cases made
  | batch elem trailing rows =>
      rw [pairOf] at made
      split at made
      · cases made
      · next shape =>
          have whole := not_not.mp shape
          cases selected : indexSelect rows keepIds with
          | error error =>
              rw [selected] at made
              cases made
          | ok keepPart =>
              obtain ⟨inside, parts⟩ := indexSelect_ok selected
              obtain ⟨size, each⟩ := takeSlots_toNat inside
              rw [selected] at made
              dsimp only at made
              cases filled : ringRows (List.replicate (trailing.prod * elem.elementSize) 0)
                  (takeSlots (layer.coldIds keepIds) rows) seeds with
              | error error =>
                  rw [filled] at made
                  cases made
              | ok ring =>
                  rw [filled] at made
                  cases made
                  subst parts
                  refine ⟨⟨whole, rfl, ?_, ?_⟩, ?_⟩
                  · rw [List.length_append, size, length_ringRows filled]
                  · intro index gid found
                    have bound := (List.getElem?_eq_some_iff.mp found).1
                    rw [List.getElem?_append_left (size ▸ bound), each index gid found]
                    rfl
                  · intro id member
                    have fits := inside id member
                    exact ⟨fits.1, by omega⟩

theorem pairsOf_ok {seeds : Option (List Nat)} {tensors : List (String × Tensor)} {pairs : List TierPair}
    (made : pairsOf layer keepIds seeds tensors = .ok pairs) : List.Forall₂ (Replaces layer keepIds) tensors pairs := by
  induction tensors generalizing pairs with
  | nil =>
      cases made
      exact List.Forall₂.nil
  | cons tensor rest ih =>
      rw [pairsOf] at made
      split at made
      · cases made
      · next pair first =>
          split at made
          · cases made
          · next others later =>
              cases made
              exact List.Forall₂.cons (pairOf_ok first).1 (ih later)

theorem init_tiered {κ : Type*} {argsort : List κ → List Nat} {counts : Option (List (List κ))} {tier : LayerTier}
    (built : init argsort counts layer keepIds = .ok tier) : Tiered layer keepIds tier := by
  rw [init] at built
  split at built
  · cases built
  · next seeds _ =>
      split at built
      · cases built
      · next pairs made =>
          cases built
          refine ⟨rfl, ?_, pairsOf_ok made⟩
          rw [ExpertLayer.tensors, pairsOf] at made
          split at made
          · cases made
          · next first => exact (pairOf_ok first).2

section Tables

variable {tier : LayerTier} {gid : Nat} {ids : List Int}

theorem mem_keepIdx (experts : ∀ id ∈ keepIds, layer.IsExpert id) :
    gid ∈ keepIds.map Int.toNat ↔ (gid : Int) ∈ keepIds := by
  rw [List.mem_map]
  constructor
  · intro found
    obtain ⟨id, member, rfl⟩ := found
    rwa [Int.toNat_of_nonneg (experts id member).1]
  · intro member
    exact ⟨gid, member, Int.toNat_natCast gid⟩

namespace Tiered

variable (tiered : Tiered layer keepIds tier)

include tiered

theorem table {β : Type*} (view : LayerTier → β) :
    view { tier with pairs := [], warnedOverflow := false } = view (tierOf layer keepIds []) := congrArg view tiered.tables

theorem numExperts : tier.numExperts = layer.numLocalExperts := tiered.table LayerTier.numExperts

theorem ringK : tier.ringK = min ringSize (layer.coldIds keepIds).length := tiered.table LayerTier.ringK

theorem ringDsts : tier.ringDsts = List.range' keepIds.length tier.ringK := by
  rw [tiered.ringK]
  exact tiered.table LayerTier.ringDsts

theorem keepMask_getElem? (expert : gid < layer.numLocalExperts) :
    tier.keepMask[gid]? = some (decide ((gid : Int) ∉ keepIds)) := by
  have same : tier.keepMask = (tierOf layer keepIds []).keepMask := tiered.table LayerTier.keepMask
  rw [same, tierOf]
  have room : gid < (List.replicate layer.numLocalExperts true).length := by rwa [List.length_replicate]
  by_cases kept : (gid : Int) ∈ keepIds
  · have listed := (mem_keepIdx tiered.experts).mpr kept
    have cleared : (putSlots _ (List.replicate _ false) _)[gid]? = some false := putSlots_const listed room
    rw [List.length_map] at cleared
    simpa [kept] using cleared
  · have absent := mt (mem_keepIdx tiered.experts).mp kept
    simpa [kept, expert] using putSlots_other absent (List.replicate keepIds.length false) (List.replicate layer.numLocalExperts true)

theorem keepLookup_cold (expert : gid < layer.numLocalExperts) (cold : (gid : Int) ∉ keepIds) :
    tier.keepLookup[gid]? = some (-1) := by
  have same : tier.keepLookup = (tierOf layer keepIds []).keepLookup := tiered.table LayerTier.keepLookup
  have absent := mt (mem_keepIdx tiered.experts).mp cold
  rw [same, tierOf, putSlots_other absent, List.getElem?_replicate, if_pos expert]

theorem keepLookup_kept (expert : gid < layer.numLocalExperts) (kept : (gid : Int) ∈ keepIds) :
    ∃ index : Nat, keepIds[index]? = some (gid : Int) ∧ tier.keepLookup[gid]? = some (index : Int) := by
  have same : tier.keepLookup = (tierOf layer keepIds []).keepLookup := tiered.table LayerTier.keepLookup
  have listed := (mem_keepIdx tiered.experts).mpr kept
  obtain ⟨index, found, stays⟩ := @putSlots_listed _ _ _ (List.replicate layer.numLocalExperts (-1))
    ((List.range keepIds.length).map Int.ofNat) listed (by simp) (by simpa using expert)
  have bound : index < keepIds.length := by simpa using (List.getElem?_eq_some_iff.mp found).1
  refine ⟨index, ?_, ?_⟩
  · rw [List.getElem?_map, List.getElem?_eq_getElem bound, Option.map_some, Option.some.injEq] at found
    have nonneg := (tiered.experts _ (List.getElem_mem bound)).1
    rw [List.getElem?_eq_getElem bound, ← found, Int.toNat_of_nonneg nonneg]
  · rw [same, tierOf]
    exact stays.trans (by simp [bound])

theorem coldRank_kept (expert : gid < layer.numLocalExperts) (kept : (gid : Int) ∈ keepIds) :
    tier.coldRankCpu[gid]? = some 0 := by
  have same : tier.coldRankCpu = (tierOf layer keepIds []).coldRankCpu := tiered.table LayerTier.coldRankCpu
  have absent : gid ∉ layer.coldIds keepIds := fun member => (mem_coldIds.mp member).2 kept
  rw [same, tierOf, putSlots_other absent, List.getElem?_replicate, if_pos expert]

theorem coldCnt_getElem? (expert : gid < layer.numLocalExperts) :
    (tier.coldCnt ids)[gid]? = some (if (gid : Int) ∈ keepIds then ids.count (gid : Int) else 0) := by
  rw [LayerTier.coldCnt, List.getElem?_zipWith, tiered.keepMask_getElem? expert, bincount, List.getElem?_map,
    List.getElem?_range (tiered.numExperts ▸ expert)]
  by_cases kept : (gid : Int) ∈ keepIds <;> simp [kept]

theorem length_coldCnt : (tier.coldCnt ids).length = layer.numLocalExperts := by
  have mask : tier.keepMask = (tierOf layer keepIds []).keepMask := tiered.table LayerTier.keepMask
  simp [LayerTier.coldCnt, bincount, mask, tierOf, tiered.numExperts]

theorem ringK_le : tier.ringK ≤ layer.numLocalExperts := by
  have cold : (layer.coldIds keepIds).length ≤ layer.numLocalExperts := by
    simpa [ExpertLayer.coldIds] using List.length_filter_le (fun gid : Nat => decide ((gid : Int) ∉ keepIds))
      (List.range layer.numLocalExperts)
  rw [tiered.ringK]
  omega

end Tiered

end Tables

/-- What `topk` selects: kept experts of the step, and all of them unless the
ring is full. -/
structure Selected (tier : LayerTier) (keepIds ids : List Int) (sel : List Nat) (n : Nat) : Prop where
  distinct : sel.Nodup
  size : sel.length = tier.ringK
  bound : n ≤ tier.ringK
  inside : ∀ gid ∈ sel, gid < tier.numExperts
  occurs : ∀ (index : Nat) gid, sel[index]? = some gid → index < n → (gid : Int) ∈ keepIds ∧ (gid : Int) ∈ ids
  full : ∀ gid : Nat, gid < tier.numExperts → (gid : Int) ∈ keepIds → (gid : Int) ∈ ids → gid ∉ sel.take n → n = tier.ringK

theorem Tiered.selected {tier : LayerTier} {topk : List Nat → Nat → List Nat} (tiered : Tiered layer keepIds tier)
    (law : ReturnsLargest topk) (ids : List Int) :
    Selected tier keepIds ids (tier.select topk ids).1 (tier.select topk ids).2 := by
  have enough : tier.ringK ≤ (tier.coldCnt ids).length := tiered.length_coldCnt ▸ tiered.ringK_le
  have largest := law.largest (tier.coldCnt ids) tier.ringK enough
  have sorted := law.sorted (tier.coldCnt ids) tier.ringK enough
  rw [LayerTier.select]
  generalize topk (tier.coldCnt ids) tier.ringK = sel at largest sorted
  have inside : ∀ gid ∈ sel, gid < (tier.coldCnt ids).length := fun gid member => List.mem_range.mp (largest.listed gid member)
  have count (gid : Nat) (expert : gid < layer.numLocalExperts) :
      (tier.coldCnt ids).getD gid 0 = if (gid : Int) ∈ keepIds then ids.count (gid : Int) else 0 := by
    rw [List.getD_eq_getElem?_getD, tiered.coldCnt_getElem? expert, Option.getD_some]
  rw [tiered.length_coldCnt] at inside
  -- the positive counts stand first, so they are the first `n`
  have positive (index gid : Nat) (found : sel[index]? = some gid) :
      index < sel.countP (fun gid => decide (0 < (tier.coldCnt ids).getD gid 0)) ↔ 0 < (tier.coldCnt ids).getD gid 0 := by
    rw [lt_countP_iff _ found, decide_eq_true_eq]
    apply sorted.imp
    intro left right below above
    rw [decide_eq_true_eq] at above ⊢
    omega
  dsimp only
  rw [takeSlots_eq_map (tiered.length_coldCnt ▸ inside) 0, List.countP_map, Function.comp_def]
  refine ⟨largest.distinct, largest.size, largest.size ▸ List.countP_le_length, tiered.numExperts ▸ inside, ?_, ?_⟩
  · intro index gid found early
    have many := (positive index gid found).mp early
    rw [count gid (inside gid (List.mem_of_getElem? found))] at many
    split at many
    · next kept => exact ⟨kept, List.count_pos_iff.mp many⟩
    · omega
  · intro gid expert kept present absent
    rw [tiered.numExperts] at expert
    have many : 0 < (tier.coldCnt ids).getD gid 0 := by
      rw [count gid expert, if_pos kept]
      exact List.count_pos_iff.mpr present
    have left : gid ∉ sel := by
      intro member
      obtain ⟨index, found⟩ := List.mem_iff_getElem?.mp member
      have early := (positive index gid found).mpr many
      exact absent (List.mem_of_getElem? ((List.getElem?_take_of_lt early).trans found))
    rw [← largest.size]
    apply List.countP_eq_length.mpr
    intro other member
    have more := largest.largest other member gid (List.mem_range.mpr (tiered.length_coldCnt ▸ expert)) left
    exact decide_eq_true (by omega)

/-- Every replaced tensor has the original row of an expert at a row. -/
def Holds (layer : ExpertLayer) (tier : LayerTier) (row gid : Nat) : Prop :=
  List.Forall₂ (fun tensor pair => ∃ bytes, (original tensor)[gid]? = some bytes ∧ pair.rows[row]? = some bytes)
    layer.tensors tier.pairs

section Rows

variable {tier : LayerTier} {ids : List Int} {sel : List Nat} {n index gid : Nat}

theorem Tiered.ringDst (tiered : Tiered layer keepIds tier) (bound : n ≤ tier.ringK) (early : index < n) :
    (tier.ringDsts.take n)[index]? = some (keepIds.length + index) := by
  rw [List.getElem?_take_of_lt early, tiered.ringDsts, List.getElem?_range' (early.trans_le bound), Nat.one_mul]

theorem Tiered.ringDsts_distinct (tiered : Tiered layer keepIds tier) : (tier.ringDsts.take n).Nodup := by
  rw [tiered.ringDsts]
  have distinct : (List.range' keepIds.length tier.ringK).Nodup := List.nodup_range'
  exact distinct.sublist (List.take_sublist _ _)

theorem Tiered.not_ringDst (tiered : Tiered layer keepIds tier) (kept : index < keepIds.length) :
    index ∉ tier.ringDsts.take n := by
  intro member
  have inRing := List.mem_of_mem_take member
  rw [tiered.ringDsts, List.mem_range'_1] at inRing
  omega

/-- Filling the ring leaves the kept rows and the pools alone. -/
theorem Tiered.fillRing (tiered : Tiered layer keepIds tier) : Tiered layer keepIds (tier.fillRing sel n) where
  tables := tiered.tables
  experts := tiered.experts
  pairs := by
    rw [LayerTier.fillRing, List.forall₂_map_right_iff]
    apply tiered.pairs.imp
    intro tensor pair replaces
    refine ⟨replaces.whole, replaces.pool, ?_, ?_⟩
    · exact (length_putSlots _ _ _).trans replaces.size
    · intro index gid found
      have bound := (List.getElem?_eq_some_iff.mp found).1
      exact (putSlots_other (tiered.not_ringDst bound) _ _).trans (replaces.kept index gid found)

theorem Selected.taken (selected : Selected tier keepIds ids sel n) (member : gid ∈ sel.take n) : (gid : Int) ∈ keepIds := by
  obtain ⟨index, bound, found⟩ := List.mem_take_iff_getElem.mp member
  have early : index < n := by omega
  exact (selected.occurs index gid (List.getElem?_eq_some_iff.mpr ⟨by omega, found⟩) early).1

theorem Selected.ords (selected : Selected tier keepIds ids sel n) (tiered : Tiered layer keepIds tier) :
    takeSlots (sel.take n) tier.coldRankCpu = List.replicate n 0 := by
  have kept : ∀ gid ∈ sel.take n, tier.coldRankCpu[gid]? = some 0 := by
    intro gid member
    have expert := selected.inside gid (List.mem_of_mem_take member)
    rw [tiered.numExperts] at expert
    exact tiered.coldRank_kept expert (selected.taken member)
  have inside : ∀ gid ∈ sel.take n, gid < tier.coldRankCpu.length :=
    fun gid member => (List.getElem?_eq_some_iff.mp (kept gid member)).1
  rw [takeSlots_eq_map inside 0, List.eq_replicate_iff]
  refine ⟨?_, ?_⟩
  · rw [List.length_map, List.length_take, selected.size, Nat.min_eq_left selected.bound]
  · intro rank member
    obtain ⟨gid, listed, rfl⟩ := List.mem_map.mp member
    rw [List.getD_eq_getElem?_getD, kept gid listed]
    rfl

theorem Selected.holds_ring (selected : Selected tier keepIds ids sel n) (tiered : Tiered layer keepIds tier)
    (early : index < n) (first : (layer.coldIds keepIds)[0]? = some gid) :
    Holds layer (tier.fillRing sel n) (keepIds.length + index) gid := by
  rw [Holds, LayerTier.fillRing, List.forall₂_map_right_iff]
  apply tiered.pairs.imp
  intro tensor pair replaces
  have bound : gid < (original tensor).length := by
    rw [replaces.whole]
    exact (mem_coldIds.mp (List.mem_of_getElem? first)).1
  have inPool : ∀ cold ∈ layer.coldIds keepIds, cold < (original tensor).length := by
    intro cold member
    rw [replaces.whole]
    exact (mem_coldIds.mp member).1
  have source : pair.pool[0]? = some (original tensor)[gid] := by
    rw [replaces.pool, takeSlots_getElem? inPool, first]
    exact List.getElem?_eq_getElem bound
  have copied : (takeSlots (List.replicate n 0) pair.pool)[index]? = some (original tensor)[gid] := by
    have inside : ∀ ord ∈ List.replicate n 0, ord < pair.pool.length := by
      intro ord member
      rw [List.eq_of_mem_replicate member]
      exact (List.getElem?_eq_some_iff.mp source).1
    rw [takeSlots_getElem? inside, List.getElem?_replicate, if_pos early]
    exact source
  refine ⟨_, List.getElem?_eq_getElem bound, ?_⟩
  dsimp only
  rw [selected.ords tiered]
  apply putSlots_target tiered.ringDsts_distinct (tiered.ringDst selected.bound early) copied
  have ring : tier.ringK ≤ ringSize := tiered.ringK ▸ Nat.min_le_left _ _
  have last := early.trans_le (selected.bound.trans ring)
  rw [replaces.size]
  omega

end Rows

section Answers

variable {ω : Type*} [Zero ω] {tier : LayerTier} {ids : List Int} {sel : List Nat} {n index gid : Nat}

theorem Selected.taken_distinct (selected : Selected tier keepIds ids sel n) : (sel.take n).Nodup :=
  selected.distinct.sublist (List.take_sublist _ _)

theorem Selected.route (selected : Selected tier keepIds ids sel n) (tiered : Tiered layer keepIds tier)
    (found : sel[index]? = some gid) (early : index < n) (missRow : Nat) (weight : ω) :
    LayerTier.route (tier.lookup sel n) missRow ((gid : Int), weight) = (((keepIds.length + index : Nat) : Int), weight) := by
  have target : (sel.take n)[index]? = some gid := (List.getElem?_take_of_lt early).trans found
  have given : ((tier.ringDsts.take n).map Int.ofNat)[index]? = some ((keepIds.length + index : Nat) : Int) := by
    rw [List.getElem?_map, tiered.ringDst selected.bound early]
    rfl
  have expert := selected.inside gid (List.mem_of_getElem? found)
  rw [tiered.numExperts] at expert
  have kept := (selected.occurs index gid found early).1
  obtain ⟨_, _, present⟩ := tiered.keepLookup_kept expert kept
  have bound := (List.getElem?_eq_some_iff.mp present).1
  have mapped := putSlots_target selected.taken_distinct target given bound
  simp only [LayerTier.route, Int.toNat_natCast, LayerTier.lookup, mapped]
  rw [if_neg (by omega)]

theorem Selected.route_cold (selected : Selected tier keepIds ids sel n) (tiered : Tiered layer keepIds tier)
    (expert : gid < layer.numLocalExperts) (cold : (gid : Int) ∉ keepIds) (missRow : Nat) (weight : ω) :
    LayerTier.route (tier.lookup sel n) missRow ((gid : Int), weight) = ((missRow : Int), 0) := by
  have left : gid ∉ sel.take n := fun member => cold (selected.taken member)
  simp only [LayerTier.route, Int.toNat_natCast, LayerTier.lookup, putSlots_other left,
    tiered.keepLookup_cold expert cold]
  rfl

variable {topk : List Nat → Nat → List Nat} {call : List (Int × ω)}

theorem remap_badId (tiered : Tiered layer keepIds tier) (stray : ∃ entry ∈ call, ¬ layer.IsExpert entry.1) :
    tier.remap topk call = (.error .badId, tier) := by
  obtain ⟨entry, member, outside⟩ := stray
  rw [LayerTier.remap, if_pos]
  intro all
  have fits := of_decide_eq_true (List.all_eq_true.mp all entry member)
  rw [tiered.numExperts] at fits
  exact outside fits

omit [Zero ω] in
theorem Tiered.all_fit (tiered : Tiered layer keepIds tier) (valid : ∀ entry ∈ call, layer.IsExpert entry.1) :
    ¬ ¬ call.all (fun entry => decide (0 ≤ entry.1 ∧ entry.1 < tier.numExperts)) = true := by
  rw [not_not, List.all_eq_true, tiered.numExperts]
  exact fun entry member => decide_eq_true (valid entry member)

/-- Without a cold expert there is no ring row to send a miss to, and the call raises
also where nothing misses. -/
theorem remap_noRing (tiered : Tiered layer keepIds tier) (valid : ∀ entry ∈ call, layer.IsExpert entry.1)
    (none : layer.coldIds keepIds = []) : (tier.remap topk call).1 = .error .noRing := by
  have ring : tier.ringDsts = [] := by
    rw [tiered.ringDsts, tiered.ringK, none]
    rfl
  rw [LayerTier.remap, if_neg (tiered.all_fit valid)]
  simp only [ring]

theorem remap_ok (topk : List Nat → Nat → List Nat) (tiered : Tiered layer keepIds tier) (valid : ∀ entry ∈ call, layer.IsExpert entry.1)
    (cold : layer.coldIds keepIds ≠ []) :
    ∃ warned, tier.remap topk call =
      (.ok (call.map (LayerTier.route (tier.lookup (tier.select topk (call.map Prod.fst)).1 (tier.select topk (call.map Prod.fst)).2)
          keepIds.length)),
        { tier.fillRing (tier.select topk (call.map Prod.fst)).1 (tier.select topk (call.map Prod.fst)).2 with
          warnedOverflow := warned }) := by
  have positive := List.length_pos_iff.mpr cold
  have ring : tier.ringDsts = keepIds.length :: List.range' (keepIds.length + 1) (tier.ringK - 1) := by
    have some : tier.ringK = tier.ringK - 1 + 1 := by
      rw [tiered.ringK, ringSize]
      omega
    rw [tiered.ringDsts, some, List.range'_succ, Nat.add_sub_cancel]
  rw [LayerTier.remap, if_neg (tiered.all_fit valid)]
  simp only [ring]
  exact ⟨_, rfl⟩

theorem Tiered.remap (tiered : Tiered layer keepIds tier) : Tiered layer keepIds (tier.remap topk call).2 := by
  rw [LayerTier.remap]
  split
  · exact tiered
  · have filled := @Tiered.fillRing _ _ _ (tier.select topk (call.map Prod.fst)).1 (tier.select topk (call.map Prod.fst)).2 tiered
    dsimp only
    split
    · exact filled
    · exact ⟨filled.tables, filled.experts, filled.pairs⟩

end Answers

section Faithful

variable {ω : Type*} [Zero ω]

/-- What is asked of one entry of a call: a weight goes to a row with the bytes of
the expert, a kept id to a kept row, a cold one to a ring row or nowhere. -/
structure Answered (layer : ExpertLayer) (keepIds : List Int) (after : LayerTier) (asked given : Int × ω) : Prop where
  bytes : given.2 ≠ 0 → ∃ row : Nat, given.1 = row ∧ Holds layer after row asked.1.toNat
  kept : asked.1 ∈ keepIds → given.2 = asked.2 ∧ ∃ row : Nat, given.1 = row ∧ keepIds[row]? = some asked.1
  cold : asked.1 ∉ keepIds → given.2 = 0 ∨ given.2 = asked.2 ∧ ∃ row ∈ after.ringDsts, given.1 = (row : Int)

/-- What is asked of a call: every entry is answered; only an id that is no
expert's is refused. -/
def Faithful (topk : List Nat → Nat → List Nat) (layer : ExpertLayer) (keepIds : List Int) (tier : LayerTier)
    (call : List (Int × ω)) : Prop :=
  match tier.remap topk call with
  | (.error _, _) => ∃ entry ∈ call, ¬ layer.IsExpert entry.1
  | (.ok answer, after) => List.Forall₂ (Answered layer keepIds after) call answer

variable {tier : LayerTier} {topk : List Nat → Nat → List Nat} {call : List (Int × ω)}

omit [Zero ω] in
theorem Selected.some_taken {sel : List Nat} {n : Nat} (selected : Selected tier keepIds (call.map Prod.fst) sel n)
    (tiered : Tiered layer keepIds tier) (valid : ∀ entry ∈ call, layer.IsExpert entry.1)
    (cold : layer.coldIds keepIds ≠ []) (kept : ∃ entry ∈ call, entry.1 ∈ keepIds) : 0 < n := by
  obtain ⟨⟨id, weight⟩, member, keptId⟩ := kept
  obtain ⟨nonneg, inside⟩ := valid _ member
  obtain ⟨gid, rfl⟩ := Int.eq_ofNat_of_zero_le nonneg
  have positive := List.length_pos_iff.mpr cold
  by_contra none
  have zero := Nat.eq_zero_of_not_pos none
  subst zero
  have full := selected.full gid (tiered.numExperts ▸ Int.ofNat_lt.mp inside) keptId (List.mem_map_of_mem member)
    (by simp)
  rw [tiered.ringK, ringSize] at full
  omega

/-- A call with a kept id has one that is sent, with its weight, to a ring row
that holds the first cold expert. -/
theorem Tiered.hijacks (tiered : Tiered layer keepIds tier) (law : ReturnsLargest topk)
    (valid : ∀ entry ∈ call, layer.IsExpert entry.1) (cold : layer.coldIds keepIds ≠ [])
    (kept : ∃ entry ∈ call, entry.1 ∈ keepIds) :
    ∃ answer after first, tier.remap topk call = (.ok answer, after) ∧ (layer.coldIds keepIds)[0]? = some first ∧
      Holds layer after keepIds.length first ∧
      ∃ (index : Nat) (id : Int) (weight : ω), id ∈ keepIds ∧ call[index]? = some (id, weight) ∧
        answer[index]? = some ((keepIds.length : Int), weight) := by
  obtain ⟨warned, done⟩ := remap_ok topk tiered valid cold
  have selected := tiered.selected law (call.map Prod.fst)
  generalize (tier.select topk (call.map Prod.fst)).1 = sel at done selected
  generalize (tier.select topk (call.map Prod.fst)).2 = n at done selected
  have positive := List.length_pos_iff.mpr cold
  have some := selected.some_taken tiered valid cold kept
  have length := selected.size
  have bound := selected.bound
  obtain ⟨gid, head⟩ : ∃ gid, sel[0]? = Option.some gid := ⟨_, List.getElem?_eq_getElem (by omega)⟩
  have occurs := selected.occurs 0 _ head some
  obtain ⟨⟨id, weight⟩, member, named⟩ := List.mem_map.mp occurs.2
  replace named : id = (gid : Int) := named
  subst named
  obtain ⟨index, asked⟩ := List.mem_iff_getElem?.mp member
  have first := List.getElem?_eq_getElem positive
  refine ⟨_, _, _, done, first, selected.holds_ring tiered some first, index, _, weight, occurs.1, asked, ?_⟩
  rw [List.getElem?_map, asked, Option.map_some, selected.route tiered head some, Nat.add_zero]

theorem faithful_of_badId (tiered : Tiered layer keepIds tier) (stray : ∃ entry ∈ call, ¬ layer.IsExpert entry.1) :
    Faithful topk layer keepIds tier call := by
  rw [Faithful, remap_badId tiered stray]
  exact stray

theorem faithful_of_cold (tiered : Tiered layer keepIds tier) (law : ReturnsLargest topk)
    (valid : ∀ entry ∈ call, layer.IsExpert entry.1) (cold : layer.coldIds keepIds ≠ [])
    (unkept : ∀ entry ∈ call, entry.1 ∉ keepIds) : Faithful topk layer keepIds tier call := by
  obtain ⟨warned, done⟩ := remap_ok topk tiered valid cold
  have selected := tiered.selected law (call.map Prod.fst)
  rw [Faithful, done]
  generalize (tier.select topk (call.map Prod.fst)).1 = sel at selected
  generalize (tier.select topk (call.map Prod.fst)).2 = n at selected
  dsimp only
  rw [List.forall₂_map_right_iff, List.forall₂_same]
  intro entry member
  obtain ⟨id, weight⟩ := entry
  obtain ⟨nonneg, inside⟩ := valid _ member
  obtain ⟨gid, rfl⟩ := Int.eq_ofNat_of_zero_le nonneg
  have absent := unkept _ member
  have routed := selected.route_cold tiered (Int.ofNat_lt.mp inside) absent keepIds.length weight
  rw [routed]
  exact ⟨fun weighted => absurd rfl weighted, fun kept => absurd kept absent, fun _ => Or.inl rfl⟩

theorem not_faithful_of_kept (tiered : Tiered layer keepIds tier) (law : ReturnsLargest topk)
    (valid : ∀ entry ∈ call, layer.IsExpert entry.1) (cold : layer.coldIds keepIds ≠ [])
    (kept : ∃ entry ∈ call, entry.1 ∈ keepIds) : ¬ Faithful topk layer keepIds tier call := by
  obtain ⟨answer, after, _, done, _, _, index, id, weight, keptId, asked, given⟩ := tiered.hijacks law valid cold kept
  rw [Faithful, done]
  intro answered
  obtain ⟨bound, same⟩ := List.getElem?_eq_some_iff.mp asked
  obtain ⟨bound', same'⟩ := List.getElem?_eq_some_iff.mp given
  have entry := answered.get bound bound'
  rw [List.get_eq_getElem, List.get_eq_getElem, same, same'] at entry
  -- the row behind the kept ones is no kept row
  obtain ⟨_, row, isRow, keptRow⟩ := entry.kept keptId
  have outside := (List.getElem?_eq_some_iff.mp keptRow).1
  have isRow : keepIds.length = row := Int.ofNat_inj.mp isRow
  omega

/-- The calls that a tier answers as asked. -/
def Allowed (layer : ExpertLayer) (keepIds : List Int) (call : List (Int × ω)) : Prop :=
  (∃ entry ∈ call, ¬ layer.IsExpert entry.1) ∨
    (∃ id, layer.IsExpert id ∧ id ∉ keepIds) ∧ ∀ entry ∈ call, entry.1 ∉ keepIds

omit [Zero ω] in
theorem coldIds_ne_nil : layer.coldIds keepIds ≠ [] ↔ ∃ id, layer.IsExpert id ∧ id ∉ keepIds := by
  constructor
  · intro some
    obtain ⟨gid, member⟩ := List.exists_mem_of_ne_nil _ some
    obtain ⟨inside, cold⟩ := mem_coldIds.mp member
    exact ⟨gid, ⟨Int.natCast_nonneg gid, Int.ofNat_lt.mpr inside⟩, cold⟩
  · intro found
    obtain ⟨id, ⟨nonneg, inside⟩, cold⟩ := found
    obtain ⟨gid, rfl⟩ := Int.eq_ofNat_of_zero_le nonneg
    exact List.ne_nil_of_mem (mem_coldIds.mpr ⟨Int.ofNat_lt.mp inside, cold⟩)

theorem faithful_iff (tiered : Tiered layer keepIds tier) (law : ReturnsLargest topk) (call : List (Int × ω)) :
    Faithful topk layer keepIds tier call ↔ Allowed layer keepIds call := by
  rw [Allowed, ← coldIds_ne_nil]
  by_cases stray : ∃ entry ∈ call, ¬ layer.IsExpert entry.1
  · exact iff_of_true (faithful_of_badId tiered stray) (Or.inl stray)
  · have valid : ∀ entry ∈ call, layer.IsExpert entry.1 := by
      intro entry member
      by_contra outside
      exact stray ⟨entry, member, outside⟩
    rw [or_iff_right stray]
    by_cases none : layer.coldIds keepIds = []
    · have raises : (tier.remap topk call).1 = .error .noRing := remap_noRing tiered valid none
      refine iff_of_false ?_ fun allowed => allowed.1 none
      rw [Faithful]
      split
      · exact stray
      · next answered =>
          rw [answered] at raises
          cases raises
    · by_cases kept : ∃ entry ∈ call, entry.1 ∈ keepIds
      · refine iff_of_false (not_faithful_of_kept tiered law valid none kept) ?_
        intro allowed
        obtain ⟨entry, member, keptId⟩ := kept
        exact allowed.2 entry member keptId
      · have unkept : ∀ entry ∈ call, entry.1 ∉ keepIds := fun entry member keptId => kept ⟨entry, member, keptId⟩
        exact iff_of_true (faithful_of_cold tiered law valid none unkept) ⟨none, unkept⟩

/-- Every call to a tier is answered as asked exactly if every call that is not
refused comes to a layer with a cold expert and has no kept id. -/
theorem remap_faithful_iff {κ : Type*} {argsort : List κ → List Nat} {counts : Option (List (List κ))}
    (built : init argsort counts layer keepIds = .ok tier) (law : ReturnsLargest topk) (calls : List (List (Int × ω))) :
    (machine topk).Meets (Faithful topk layer keepIds) tier calls ↔ ∀ call ∈ calls, Allowed layer keepIds call := by
  have preserved : ∀ tier (call : List (Int × ω)), Tiered layer keepIds tier →
      Tiered layer keepIds ((machine topk).step tier call).2 := fun _ _ tiered => tiered.remap
  exact Machine.meets_iff_forall preserved (fun _ call tiered => faithful_iff tiered law call) (init_tiered built)

end Faithful

/-- The indices of the largest values, the earlier of equal ones first. -/
def largestFirst (values : List Nat) (count : Nat) : List Nat :=
  (rankDown (fun index => values.getD index 0) (List.range values.length)).take count

theorem largestFirst_law : ReturnsLargest largestFirst where
  largest values count enough := by
    apply Largest.take (rankDown_pairwise _ _) (rankDown_nodup List.nodup_range) (fun index => mem_rankDown)
    rwa [rankDown, List.length_insertionSort, List.length_range]
  sorted values count _ := (rankDown_pairwise _ _).sublist (List.take_sublist _ _)

def smallLayer : ExpertLayer where
  layerId := some 0
  numLocalExperts := 3
  w13Weight := .batch .uint8 [1] [[10], [11], [12]]
  w2Weight := .batch .uint8 [1] [[20], [21], [22]]
  perExpert := Dict.empty

def seedOrder (counts : List Nat) : List Nat := largestFirst counts counts.length

/-- Expert 1 is kept, and the ring is seeded from the counts. -/
def smallTier : Except InitError LayerTier :=
  init seedOrder (some [[4, 9, 5]]) smallLayer [1]

theorem remap_faithful_iff_smallTier :
    ∃ tier, smallTier = .ok tier ∧
      (machine largestFirst).Meets (Faithful largestFirst smallLayer [1]) tier [[(0, 7), (2, 3)], [(2, 1)]] := by
  obtain ⟨tier, built⟩ : ∃ tier, smallTier = .ok tier := ⟨_, rfl⟩
  refine ⟨tier, built, (remap_faithful_iff built largestFirst_law _).mpr ?_⟩
  have cold : ∃ id, smallLayer.IsExpert id ∧ id ∉ ([1] : List Int) := ⟨0, by decide, by decide⟩
  intro call member
  refine Or.inr ⟨cold, ?_⟩
  revert call
  decide

/-- The kept expert 1 is sent to the ring row behind it, with the bytes of expert 0. -/
theorem remap_hijacks :
    ∃ tier after, smallTier = .ok tier ∧ tier.remap largestFirst [((1 : Int), 7)] = (.ok [(1, 7)], after) ∧
      after.pairs.map (fun pair => pair.rows[1]?) = [some [10], some [20]] ∧
      ¬ (machine largestFirst).Meets (Faithful largestFirst smallLayer [1]) tier [[(1, 7)]] := by
  refine ⟨_, _, rfl, rfl, rfl, ?_⟩
  intro meets
  have answered : List.Forall₂ (Answered smallLayer [1] _) [((1 : Int), 7)] [(1, 7)] := meets.1
  obtain ⟨_, row, isRow, keptRow⟩ := (List.forall₂_cons.mp answered).1.kept (by decide)
  have isRow : 1 = row := Int.ofNat_inj.mp isRow
  subst isRow
  cases keptRow

end FlashNext.ExpertTier
