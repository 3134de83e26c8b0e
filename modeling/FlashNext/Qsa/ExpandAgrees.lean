import FlashNext.Qsa.Expand

namespace FlashNext.Qsa

open FlashNext.Data

/-- The non-negative entries of a row stand before the others. -/
def PaddedLast (blocks : List Int) : Prop := blocks.Pairwise fun before after => 0 ≤ after → 0 ≤ before

instance (blocks : List Int) : Decidable (PaddedLast blocks) :=
  inferInstanceAs (Decidable (List.Pairwise _ _))

namespace Expansion

variable {call : Expansion} {blocks : List Int} {position length : Int}

theorem blockTokens_nonneg : ∀ token ∈ call.blockTokens blocks, 0 ≤ token := by
  intro token member
  obtain ⟨block, chosen, inside⟩ := List.mem_flatMap.mp (List.mem_of_mem_take member)
  obtain ⟨offset, _, rfl⟩ := List.mem_map.mp inside
  have nonneg : 0 ≤ block := of_decide_eq_true (List.mem_filter.mp chosen).2
  have scaled : 0 ≤ block * call.compressRatio := Int.mul_nonneg nonneg (Int.natCast_nonneg _)
  rw [if_pos nonneg]
  omega

theorem tailStart_nonneg (known : -1 ≤ position) :
    0 ≤ (position + 1) / call.compressRatio * (call.compressRatio : Int) :=
  Int.mul_nonneg (Int.ediv_nonneg (by omega) (Int.natCast_nonneg _)) (Int.natCast_nonneg _)

theorem tailCount_eq (position : Int) :
    position + 1 - (position + 1) / call.compressRatio * call.compressRatio =
      ((position + 1) % call.compressRatio).toNat := by
  have ratio : (0 : Int) < call.compressRatio := Int.natCast_pos.mpr call.positive
  have rest := Int.emod_nonneg (position + 1) (Int.ne_of_gt ratio)
  have split := Int.mul_ediv_add_emod (position + 1) call.compressRatio
  rw [Int.mul_comm] at split
  omega

theorem tailCount_lt (position : Int) : ((position + 1) % call.compressRatio).toNat ≤ call.compressRatio - 1 := by
  have ratio : (0 : Int) < call.compressRatio := Int.natCast_pos.mpr call.positive
  have rest := Int.emod_lt_of_pos (position + 1) ratio
  omega

theorem expandBlocks_uniform (blocks : List Int) :
    ∀ row ∈ blocks.map call.expandBlock, row.length = call.compressRatio := by
  intro row member
  obtain ⟨block, _, rfl⟩ := List.mem_map.mp member
  rw [expandBlock, List.length_map, List.length_range]

theorem length_flatMap_blocks (blocks : List Int) :
    (blocks.flatMap call.expandBlock).length = blocks.length * call.compressRatio := by
  rw [List.flatMap_def, flatten_uniform_length (expandBlocks_uniform blocks), List.length_map]

theorem length_blockTokens (call : Expansion) (blocks : List Int) :
    (call.blockTokens blocks).length = min ((blocks.filter (0 ≤ ·)).length * call.compressRatio) call.tokenTopk := by
  rw [blockTokens, List.length_take, length_flatMap_blocks, Nat.min_comm]

theorem tokenTopk_le (call : Expansion) : call.tokenTopk ≤ call.blockTopk * call.compressRatio := by
  have positive := call.positive
  have rounded := @Nat.lt_div_mul_add (call.tokenTopk + call.compressRatio - 1) _ positive
  rw [blockTopk]
  omega

theorem blockTopk_le (call : Expansion) : call.blockTopk ≤ call.finalTopk := by
  rw [blockTopk, finalTopk]
  exact Nat.div_le_self _ _

theorem length_tokens_le (call : Expansion) (blocks : List Int) (position : Int) :
    (call.tokens blocks position).length ≤ call.finalTopk := by
  have blockBound : (call.blockTokens blocks).length ≤ call.tokenTopk := List.length_take_le _ _
  have tailBound := @tailCount_lt call position
  have positive := call.positive
  rw [tokens, List.length_append, tailTokens, List.length_map, List.length_range, finalTopk]
  omega

theorem flatMap_padding {values : List Int} (negative : ∀ block ∈ values, block < 0) :
    values.flatMap call.expandBlock = List.replicate (values.length * call.compressRatio) (-1) := by
  rw [List.eq_replicate_iff]
  refine ⟨length_flatMap_blocks values, ?_⟩
  intro entry member
  obtain ⟨block, chosen, inside⟩ := List.mem_flatMap.mp member
  obtain ⟨offset, _, rfl⟩ := List.mem_map.mp inside
  have below := negative block chosen
  rw [if_neg (by omega)]

theorem expandBlocks_eq (padded : PaddedLast blocks) :
    ∃ count, call.expandBlocks blocks = call.blockTokens blocks ++ List.replicate count (-1) := by
  have leading : blocks.Pairwise fun before after => decide (0 ≤ after) → decide (0 ≤ before) := by
    simpa only [PaddedLast, decide_eq_true_eq] using padded
  have padding := @flatMap_padding call (blocks.filter fun block => !decide (0 ≤ block)) (by
    intro block chosen
    simpa using (List.mem_filter.mp chosen).2)
  have split : blocks.flatMap call.expandBlock = (blocks.filter (0 ≤ ·)).flatMap call.expandBlock ++
      List.replicate ((blocks.filter fun block => !decide (0 ≤ block)).length * call.compressRatio) (-1) := by
    rw [← padding, ← List.flatMap_append, ← split_of_leading leading]
  rw [expandBlocks, blockTokens, split, List.take_append, List.take_replicate]
  exact ⟨_, rfl⟩

theorem filter_expandBlocks (padded : PaddedLast blocks) :
    ((call.expandBlocks blocks).map fun token => if 0 ≤ token ∧ token < length then token else -1).filter (0 ≤ ·) =
      (call.blockTokens blocks).filter (· < length) := by
  obtain ⟨count, split⟩ := @expandBlocks_eq call blocks padded
  have none : (List.replicate count (-1 : Int)).filter (fun token => 0 ≤ token ∧ token < length) = [] := by
    rw [List.filter_eq_nil_iff]
    intro token member
    cases List.eq_of_mem_replicate member
    simp
  rw [filter_blanked fun _ _ kept => kept.1, List.map_id', split, List.filter_append, none, List.append_nil]
  apply List.filter_congr
  intro token member
  simp [@blockTokens_nonneg call blocks token member]

theorem filter_tailRow (known : -1 ≤ position) :
    (call.tailRow position length).filter (0 ≤ ·) = (call.tailTokens position).filter (· < length) := by
  have start := @tailStart_nonneg call position known
  have bound := @tailCount_lt call position
  have none (first count : Nat) : (((List.range count).map (first + ·)).filter fun (offset : Nat) =>
      (offset : Int) < first ∧
        (position + 1) / call.compressRatio * call.compressRatio + (offset : Int) < length) = [] := by
    rw [List.filter_eq_nil_iff]
    intro offset member
    obtain ⟨later, _, rfl⟩ := List.mem_map.mp member
    simp
  rw [tailRow, filter_blanked (by
    intro offset _ _
    omega), tailTokens, List.filter_map]
  congr 1
  rw [tailCount_eq, ← Nat.add_sub_cancel' bound, List.range_add, List.filter_append, none, List.append_nil]
  apply List.filter_congr
  intro offset member
  have inside := List.mem_range.mp member
  simp only [Function.comp_apply, Int.ofNat_lt.mpr inside, true_and]

theorem length_expandBlocks (width : blocks.length = call.blockTopk) :
    (call.expandBlocks blocks).length = call.tokenTopk := by
  rw [expandBlocks, List.length_take, length_flatMap_blocks, width, Nat.min_eq_left call.tokenTopk_le]

theorem torchRow_eq (width : blocks.length = call.blockTopk) (padded : PaddedLast blocks) (known : -1 ≤ position) :
    ∃ count, ((call.tokens blocks position).filter (· < length)).length + count = call.finalTopk ∧
      call.torchRow blocks position length =
        ((call.tokens blocks position).filter (· < length)).map int32 ++ List.replicate count (-1) := by
  set result := (call.expandBlocks blocks).map (fun token => if 0 ≤ token ∧ token < length then token else -1) ++
    call.tailRow position length with results
  have size : result.length = call.finalTopk := by
    have positive := call.positive
    rw [results, List.length_append, List.length_map, length_expandBlocks width, tailRow, List.length_map,
      List.length_range, finalTopk]
    omega
  have front : result.filter (0 ≤ ·) = (call.tokens blocks position).filter (· < length) := by
    rw [results, List.filter_append, filter_expandBlocks padded, filter_tailRow known, tokens, List.filter_append]
  have back : result.filter (fun entry => !decide (0 ≤ entry)) =
      List.replicate (result.filter fun entry => !decide (0 ≤ entry)).length (-1) := by
    rw [List.eq_replicate_iff]
    refine ⟨rfl, ?_⟩
    intro entry member
    obtain ⟨inside, negative⟩ := List.mem_filter.mp member
    have start := @tailStart_nonneg call position known
    have choice : 0 ≤ entry ∨ entry = -1 := by
      rcases List.mem_append.mp inside with expanded | tail
      · exact mem_blanked expanded fun _ _ kept => kept.1
      · exact mem_blanked tail fun _ _ _ => by omega
    simp only [Bool.not_eq_true', decide_eq_false_iff_not] at negative
    exact choice.resolve_left negative
  refine ⟨(result.filter fun entry => !decide (0 ≤ entry)).length, ?_, ?_⟩
  · rw [← front, ← size, ← List.length_append]
    exact (List.filter_append_perm _ result).length_eq
  · have sorted := map_validFirst (fun entry => decide (0 ≤ entry)) result 0
    change (validFirst (fun index => decide (0 ≤ result.getD index 0)) result.length).map
      (int32 ∘ (result.getD · 0)) = _
    rw [← List.map_map, sorted, front, List.map_append]
    congr 1
    rw [back, List.map_replicate, List.length_replicate]
    rfl

theorem le_nextPowerOf2 (value : Nat) : value ≤ nextPowerOf2 value := Nat.le_pow_clog Nat.one_lt_two _

theorem validBlockCount_eq (width : blocks.length = call.blockTopk) :
    call.validBlockCount blocks = (blocks.filter (0 ≤ ·)).length := by
  have room : blocks.length ≤ nextPowerOf2 call.finalTopk := width ▸ call.blockTopk_le.trans (le_nextPowerOf2 _)
  rw [← countP_getElem? room, validBlockCount]
  apply List.countP_congr
  intro col _
  rw [maskedLoad, List.getD_eq_getElem?_getD]
  by_cases inside : col < blocks.length
  · simp [inside]
  · simp [inside]

theorem filter_getElem? (padded : PaddedLast blocks) {index : Nat} {block : Int}
    (found : (blocks.filter (0 ≤ ·))[index]? = some block) : blocks[index]? = some block := by
  have leading : blocks.Pairwise fun before after => decide (0 ≤ after) → decide (0 ≤ before) := by
    simpa only [PaddedLast, decide_eq_true_eq] using padded
  rw [split_of_leading leading, List.getElem?_append_left (List.getElem?_eq_some_iff.mp found).1, found]

theorem blockTokens_getElem? {col : Nat} (inside : col < (call.blockTokens blocks).length) :
    ∃ block, (blocks.filter (0 ≤ ·))[col / call.compressRatio]? = some block ∧
      (call.blockTokens blocks)[col]? = some (block * call.compressRatio + (col % call.compressRatio : Nat)) := by
  rw [length_blockTokens] at inside
  have positive := call.positive
  have slot : col / call.compressRatio < (blocks.filter (0 ≤ ·)).length :=
    Nat.div_lt_of_lt_mul (by rw [Nat.mul_comm]; omega)
  have chosen := List.getElem?_eq_getElem slot
  refine ⟨_, chosen, ?_⟩
  have row := flatten_getElem? (@expandBlocks_uniform call (blocks.filter (0 ≤ ·)))
    (by rw [List.getElem?_map, chosen, Option.map_some]) (Nat.mod_lt col positive)
  rw [Nat.div_add_mod'] at row
  have nonneg := of_decide_eq_true (List.mem_filter.mp (List.getElem_mem slot)).2
  rw [blockTokens, List.getElem?_take_of_lt (by omega), List.flatMap_def, row, expandBlock, List.getElem?_map,
    List.getElem?_range (Nat.mod_lt col positive), Option.map_some, if_pos nonneg]

theorem kernelColumn_block (width : blocks.length = call.blockTopk) (padded : PaddedLast blocks) {col : Nat}
    (inside : col < (call.blockTokens blocks).length) : call.kernelColumn blocks position length col =
      ((call.blockTokens blocks)[col]?.map fun token => if token < length then token else -1).getD (-1) := by
  obtain ⟨block, chosen, token⟩ := blockTokens_getElem? inside
  have found := filter_getElem? padded chosen
  have slot := (List.getElem?_eq_some_iff.mp found).1
  have nonneg : 0 ≤ block := of_decide_eq_true (List.mem_filter.mp (List.mem_of_getElem? chosen)).2
  have scaled : 0 ≤ block * call.compressRatio := Int.mul_nonneg nonneg (Int.natCast_nonneg _)
  rw [length_blockTokens] at inside
  have early : col < call.tokenTopk := by omega
  have load : maskedLoad blocks (col < call.tokenTopk ∧ col / call.compressRatio < blocks.length)
      (col / call.compressRatio) = block := by
    rw [maskedLoad, if_pos ⟨early, slot⟩, List.getD_eq_getElem?_getD, found, Option.getD_some]
  rw [kernelColumn, validBlockCount_eq width, load, token, Option.map_some, Option.getD_some]
  by_cases below : block * call.compressRatio + (col % call.compressRatio : Nat) < length
  · rw [if_pos ⟨⟨early, nonneg, by omega, below⟩, inside⟩, if_pos below]
  · rw [if_neg fun kept => below kept.1.2.2.2, if_neg below, if_neg]
    intro holds
    obtain ⟨behind, _⟩ := holds
    omega

theorem kernelColumn_tail (width : blocks.length = call.blockTopk) (known : -1 ≤ position) {offset : Nat} :
    call.kernelColumn blocks position length ((call.blockTokens blocks).length + offset) =
      ((call.tailTokens position)[offset]?.map fun token => if token < length then token else -1).getD (-1) := by
  have visible : (position + 1).tdiv call.compressRatio = (position + 1) / call.compressRatio :=
    Int.tdiv_eq_ediv_of_nonneg (by omega)
  have bound := @tailCount_lt call position
  have positive := call.positive
  rw [kernelColumn, validBlockCount_eq width, ← length_blockTokens, visible, tailCount_eq, tailTokens]
  rw [if_neg fun kept => absurd kept.2 (by omega), List.getElem?_map, Int.natCast_add, add_sub_cancel_left]
  generalize ((position + 1) % call.compressRatio).toNat = tailCount at bound
  rcases Nat.lt_or_ge offset tailCount with inside | outside
  · rw [List.getElem?_range inside, Option.map_some, Option.map_some, Option.getD_some]
    have counts : (0 : Int) ≤ offset ∧ (offset : Int) < (call.compressRatio : Int) - 1 ∧ (offset : Int) < tailCount := by
      omega
    simp only [counts, true_and]
  · rw [List.getElem?_eq_none (by rwa [List.length_range]), if_neg]
    · rfl
    · intro holds
      obtain ⟨_, _, visible, _⟩ := holds
      omega

theorem kernelColumn_eq (width : blocks.length = call.blockTopk) (padded : PaddedLast blocks) (known : -1 ≤ position)
    (col : Nat) : call.kernelColumn blocks position length col =
      ((call.tokens blocks position)[col]?.map fun token => if token < length then token else -1).getD (-1) := by
  rcases Nat.lt_or_ge col (call.blockTokens blocks).length with inside | outside
  · rw [kernelColumn_block width padded inside, tokens, List.getElem?_append_left inside]
  · obtain ⟨offset, rfl⟩ := Nat.exists_eq_add_of_le outside
    rw [kernelColumn_tail width known, tokens, List.getElem?_append_right outside, Nat.add_sub_cancel_left]

theorem kernelRow_eq (width : blocks.length = call.blockTopk) (padded : PaddedLast blocks) (known : -1 ≤ position) :
    ((List.range call.finalTopk).map fun col => int32 (call.kernelColumn blocks position length col)) =
      ((call.tokens blocks position).map fun token => if token < length then int32 token else -1) ++
        List.replicate (call.finalTopk - (call.tokens blocks position).length) (-1) := by
  have fits := length_tokens_le call blocks position
  apply List.ext_getElem?
  intro col
  rcases Nat.lt_or_ge col call.finalTopk with inside | outside
  · rw [List.getElem?_map, List.getElem?_range inside, Option.map_some, kernelColumn_eq width padded known]
    rcases Nat.lt_or_ge col (call.tokens blocks position).length with token | behind
    · rw [List.getElem?_append_left (by rwa [List.length_map]), List.getElem?_map, List.getElem?_eq_getElem token,
        Option.map_some, Option.map_some, Option.getD_some, apply_ite int32]
      rfl
    · rw [List.getElem?_append_right (by rwa [List.length_map]), List.length_map, List.getElem?_replicate_of_lt (by omega),
        List.getElem?_eq_none behind]
      rfl
  · rw [List.getElem?_eq_none (by simpa using outside), List.getElem?_eq_none]
    rw [List.length_append, List.length_map, List.length_replicate]
    omega

theorem row_agrees_iff (width : blocks.length = call.blockTopk) (padded : PaddedLast blocks) (known : -1 ≤ position) :
    ((List.range call.finalTopk).map fun col => int32 (call.kernelColumn blocks position length col)) =
      call.torchRow blocks position length ↔ call.EndsLast blocks position length := by
  obtain ⟨padding, size, reference⟩ := @torchRow_eq call blocks position length width padded known
  have fits := length_tokens_le call blocks position
  have compaction := @compacted_eq_iff _ _ (fun token => decide (token < length)) int32 (-1)
    (call.tokens blocks position) padding (call.finalTopk - (call.tokens blocks position).length) (by omega)
  simp only [decide_eq_true_eq] at compaction
  rw [reference, kernelRow_eq width padded known, eq_comm]
  exact compaction

section Launch

variable {indices : IndexMatrix} {positions lengths : List Int} {order : List Nat}

theorem mem_kernelStores {program : Nat} {write : (Nat × Nat) × Int}
    (member : write ∈ call.kernelStores indices positions lengths program) :
    write.1.1 = program ∧ write.2 = int32 (call.kernelColumn (indices.rows.getD write.1.1 [])
      (positions.getD write.1.1 0) (lengths.getD write.1.1 0) write.1.2) := by
  obtain ⟨col, _, chosen⟩ := List.mem_filterMap.mp member
  split at chosen
  · cases chosen
    exact ⟨rfl, rfl⟩
  · cases chosen

theorem tritonExpand_eq (programs : order.Perm (List.range indices.rows.length)) (empty : Nat × Nat → Int) :
    call.tritonExpand indices positions lengths order empty = (List.range indices.rows.length).map fun row =>
      (List.range call.finalTopk).map fun col => int32 (call.kernelColumn (indices.rows.getD row [])
        (positions.getD row 0) (lengths.getD row 0) col) := by
  rw [tritonExpand]
  apply List.map_congr_left
  intro row inside
  apply List.map_congr_left
  intro col small
  apply storeAll_eq
  · intro write member same
    obtain ⟨program, _, written⟩ := List.mem_flatMap.mp member
    rw [(mem_kernelStores written).2, same]
  · refine ⟨_, List.mem_flatMap.mpr ⟨row, programs.symm.subset inside,
      List.mem_filterMap.mpr ⟨col, ?_, if_pos (List.mem_range.mp small)⟩⟩, rfl⟩
    exact List.mem_range.mpr ((List.mem_range.mp small).trans_le (le_nextPowerOf2 _))

theorem checkShapes_ok (shape : indices.width = call.blockTopk) (positionCount : positions.length = indices.rows.length)
    (lengthCount : lengths.length = indices.rows.length) : call.checkShapes indices positions lengths = .ok () := by
  rw [checkShapes, if_neg (not_not.mpr shape), if_neg (by omega)]

theorem torchExpand_ok (shape : indices.width = call.blockTopk) (positionCount : positions.length = indices.rows.length)
    (lengthCount : lengths.length = indices.rows.length) :
    call.torchExpand indices positions lengths = .ok ((List.range indices.rows.length).map fun row =>
      call.torchRow (indices.rows.getD row []) (positions.getD row 0) (lengths.getD row 0)) := by
  rw [torchExpand, checkShapes_ok shape positionCount lengthCount]
  rfl

theorem rows_getElem? {α : Type} {row : Nat} {blocks : List Int} {position length : Int}
    (blocksAt : indices.rows[row]? = some blocks) (positionAt : positions[row]? = some position)
    (lengthAt : lengths[row]? = some length) (compute : List Int → Int → Int → α) :
    ((List.range indices.rows.length).map fun row =>
      compute (indices.rows.getD row []) (positions.getD row 0) (lengths.getD row 0))[row]? =
        some (compute blocks position length) := by
  rw [List.getElem?_map, List.getElem?_range (List.getElem?_eq_some_iff.mp blocksAt).1, Option.map_some,
    List.getD_eq_getElem?_getD, blocksAt, List.getD_eq_getElem?_getD, positionAt, List.getD_eq_getElem?_getD, lengthAt]
  rfl

/-- The kernel returns the row of the reference, its tokens at the front in
order, exactly when no token past the sequence end stands before one below it. -/
theorem expand_agrees_iff (shape : indices.width = call.blockTopk) (positionCount : positions.length = indices.rows.length)
    (lengthCount : lengths.length = indices.rows.length) (programs : order.Perm (List.range indices.rows.length))
    (empty : Nat × Nat → Int) {row : Nat} {blocks : List Int} {position length : Int}
    (blocksAt : indices.rows[row]? = some blocks) (positionAt : positions[row]? = some position)
    (lengthAt : lengths[row]? = some length) (padded : PaddedLast blocks) (known : -1 ≤ position) :
    ∃ matrix padding, call.torchExpand indices positions lengths = .ok matrix ∧
      matrix[row]? = some (((call.blockTokens blocks).filter (· < length)).map int32 ++
        ((call.tailTokens position).filter (· < length)).map int32 ++ List.replicate padding (-1)) ∧
      ((call.tritonExpand indices positions lengths order empty)[row]? = matrix[row]? ↔
        call.EndsLast blocks position length) := by
  have width : blocks.length = call.blockTopk := (indices.shape _ (List.mem_of_getElem? blocksAt)).trans shape
  obtain ⟨padding, _, reference⟩ := @torchRow_eq call blocks position length width padded known
  have entry := rows_getElem? blocksAt positionAt lengthAt call.torchRow
  have launched := rows_getElem? blocksAt positionAt lengthAt fun blocks position length =>
    (List.range call.finalTopk).map fun col => int32 (call.kernelColumn blocks position length col)
  refine ⟨_, padding, torchExpand_ok shape positionCount lengthCount, ?_, ?_⟩
  · rw [entry, reference, tokens, List.filter_append, List.map_append]
  · rw [tritonExpand_eq programs, launched, entry, Option.some.injEq, row_agrees_iff width padded known]

/-- The dispatch returns the same on both devices exactly when this holds of
every row. -/
theorem expandQsaBlockIndices_cuda_iff (shape : indices.width = call.blockTopk)
    (positionCount : positions.length = indices.rows.length) (lengthCount : lengths.length = indices.rows.length)
    (programs : order.Perm (List.range indices.rows.length)) (empty : Nat × Nat → Int)
    (padded : ∀ blocks ∈ indices.rows, PaddedLast blocks) (known : ∀ position ∈ positions, -1 ≤ position) :
    call.expandQsaBlockIndices true indices positions lengths order empty =
        call.expandQsaBlockIndices false indices positions lengths order empty ↔
      ∀ row < indices.rows.length, call.EndsLast (indices.rows.getD row []) (positions.getD row 0) (lengths.getD row 0) := by
  have cuda : call.expandQsaBlockIndices true indices positions lengths order empty =
      .ok (call.tritonExpand indices positions lengths order empty) := by
    rw [expandQsaBlockIndices, checkShapes_ok shape positionCount lengthCount]
    rfl
  have elsewhere : call.expandQsaBlockIndices false indices positions lengths order empty =
      call.torchExpand indices positions lengths := by
    rw [expandQsaBlockIndices, checkShapes_ok shape positionCount lengthCount]
    rfl
  rw [cuda, elsewhere, torchExpand_ok shape positionCount lengthCount, Except.ok.injEq, tritonExpand_eq programs,
    List.map_inj_left]
  refine forall_congr' fun row => ?_
  rw [List.mem_range]
  refine forall_congr' fun inside => ?_
  have blocksAt : indices.rows.getD row [] ∈ indices.rows := by
    rw [List.getD_eq_getElem?_getD, List.getElem?_eq_getElem inside]
    exact List.getElem_mem _
  have positionAt : positions.getD row 0 ∈ positions := by
    rw [List.getD_eq_getElem?_getD, List.getElem?_eq_getElem (positionCount ▸ inside)]
    exact List.getElem_mem _
  exact row_agrees_iff ((indices.shape _ blocksAt).trans shape) (padded _ blocksAt) (known _ positionAt)

end Launch

def crossing : Expansion := ⟨4, 8, by decide⟩

def crossingIndices : IndexMatrix := ⟨2, [[1, 0], [0, 1]], by decide⟩

theorem expand_differs : (∀ blocks ∈ crossingIndices.rows, PaddedLast blocks) ∧
    crossing.torchExpand crossingIndices [7, 9] [6, 10] =
      .ok [[4, 5, 0, 1, 2, 3, -1, -1, -1, -1, -1], [0, 1, 2, 3, 4, 5, 6, 7, 8, 9, -1]] ∧
    crossing.tritonExpand crossingIndices [7, 9] [6, 10] [0, 1] (fun _ => 0) =
      [[4, 5, -1, -1, 0, 1, 2, 3, -1, -1, -1], [0, 1, 2, 3, 4, 5, 6, 7, 8, 9, -1]] ∧
    crossing.torchExpand crossingIndices [7, 9] [6, 10] ≠
      .ok (crossing.tritonExpand crossingIndices [7, 9] [6, 10] [0, 1] fun _ => 0) := by
  have reference : crossing.torchExpand crossingIndices [7, 9] [6, 10] =
      .ok [[4, 5, 0, 1, 2, 3, -1, -1, -1, -1, -1], [0, 1, 2, 3, 4, 5, 6, 7, 8, 9, -1]] := by decide +kernel
  have kernel : crossing.tritonExpand crossingIndices [7, 9] [6, 10] [0, 1] (fun _ => 0) =
      [[4, 5, -1, -1, 0, 1, 2, 3, -1, -1, -1], [0, 1, 2, 3, 4, 5, 6, 7, 8, 9, -1]] := by decide
  refine ⟨by decide, reference, kernel, ?_⟩
  rw [reference, kernel]
  decide

/-- The second row, where the blocks end with the sequence. -/
theorem expand_agrees_secondRow : ∃ matrix padding, crossing.torchExpand crossingIndices [7, 9] [6, 10] = .ok matrix ∧
    matrix[1]? = some (((crossing.blockTokens [0, 1]).filter (· < 10)).map int32 ++
      ((crossing.tailTokens 9).filter (· < 10)).map int32 ++ List.replicate padding (-1)) ∧
    ((crossing.tritonExpand crossingIndices [7, 9] [6, 10] [1, 0] fun _ => 0)[1]? = matrix[1]? ↔
      crossing.EndsLast [0, 1] 9 10) :=
  expand_agrees_iff rfl rfl rfl (by decide) _ rfl rfl rfl (by decide) (by decide)

end Expansion

end FlashNext.Qsa
