import FlashNext.NGram.HashBounds
import FlashNext.Ple.Prefetch

namespace FlashNext.Ple

open FlashNext.Data FlashNext.NGram

variable {pool : ReqToTokenPool} {inputIds : List Token} {forwardBatch : ForwardBatch} {mode : ForwardMode} {fast : Bool}
  {processed ngramSize : Nat} {laid : Layout} {batch : PleBatch} {eos : Token} {holds : Token → Prop}

theorem extendLayout_count (found : extendLayout forwardBatch mode processed = .ok laid) : laid.reqIndices.length = processed := by
  unfold extendLayout at found
  split at found
  · cases found
  split at found
  · cases found
  · cases found
    simp

theorem verifyLayout_count (found : verifyLayout forwardBatch processed = .ok laid) : laid.reqIndices.length = processed := by
  unfold verifyLayout at found
  split at found
  · cases found
  split at found
  · cases found
  dsimp only at found
  split at found <;> split at found <;> cases found <;> simp

theorem verifyLayout_rowWidth (found : verifyLayout forwardBatch processed = .ok laid) : 0 < laid.rowWidth := by
  unfold verifyLayout at found
  split at found
  · cases found
  split at found
  · cases found
  rename_i strides
  have wide : 0 < (_ : SpecInfo).draftTokenNum := not_le.mp (not_or.mp strides).1
  dsimp only at found
  split at found <;> split at found <;> cases found <;> dsimp only <;> omega

theorem layout_count (found : layout forwardBatch mode processed = .ok laid) : laid.reqIndices.length = processed := by
  cases mode with
  | targetVerify => exact verifyLayout_count found
  | decode =>
      cases found
      simp [decodeLayout]
  | extend => exact extendLayout_count found
  | idle => exact extendLayout_count found

/-- What `assemble` leaves, for a batch with n-gram histories. -/
structure Assembled (pool : ReqToTokenPool) (inputIds : List Token) (fast : Bool) (processed ngramSize : Nat) (laid : Layout)
    (eos : Token) (batch : PleBatch) : Prop where
  isFast : batch.useDecodeFastPath = fast
  isLayout : batch.toLayout = laid
  physical : batch.physicalTokens = inputIds.length
  width : pool.contextLen + 1 = ngramSize
  states : batch.stateIndices.length = laid.lengths.length
  inBounds : laid.InBounds
  context : batch.ngramContext = some (List.zipWith (· ++ ·) (batch.stateIndices.map pool.context)
    (padded laid fast (inputIds.take processed) batch.validTokens eos))

theorem assemble_assembled (made : assemble pool inputIds forwardBatch mode fast processed laid (some ngramSize) (some eos) =
    .ok batch) : Assembled pool inputIds fast processed ngramSize laid eos batch := by
  unfold assemble at made
  dsimp only at made
  split at made
  · cases made
  rename_i counts
  simp only [not_or, not_not] at counts
  unfold buildContext at made
  dsimp only at made
  by_cases inBounds : laid.InBounds
  · rw [if_neg (not_not.mpr inBounds)] at made
    by_cases width : pool.contextLen + 1 = ngramSize
    · rw [if_neg (not_not.mpr width)] at made
      cases made
      refine ⟨rfl, rfl, rfl, width, ?_, inBounds, rfl⟩
      rw [List.length_zipWith, counts.1, counts.2, Nat.min_self]
    · rw [if_pos width] at made
      cases made
  · rw [if_pos inBounds] at made
    cases made

/-- A token of the padded rows is one of the input, or EOS. -/
theorem mem_padded {tokens : List Token} {validTokens : List Bool} (known : ∀ token ∈ tokens, holds token) (ends : holds eos) :
    ∀ row ∈ padded laid fast tokens validTokens eos, ∀ token ∈ row, holds token := by
  intro row listed token member
  unfold padded at listed
  split at listed
  · obtain ⟨own, inside, rfl⟩ := List.mem_map.mp listed
    rw [List.mem_singleton] at member
    exact member ▸ known own inside
  · obtain ⟨_, _, rfl⟩ := List.mem_map.mp listed
    obtain ⟨_, _, rfl⟩ := List.mem_map.mp member
    refine storeAll_forall (fun _ => ends) (fun write written => ?_) _
    obtain ⟨place, inside⟩ := List.mem_iff_getElem?.mp (List.of_mem_zip written).2
    rw [List.getElem?_zipWith_eq_some] at inside
    obtain ⟨valid, own, -, here, same⟩ := inside
    rw [← same]
    split
    · exact known own (List.mem_of_getElem? here)
    · exact ends

namespace Assembled

variable (assembled : Assembled pool inputIds fast processed ngramSize laid eos batch)
  (sized : ∀ slot, (pool.context slot).length = pool.contextLen)

include assembled

theorem mem_context {rows : List (List Token)} (context : batch.ngramContext = some rows)
    (histories : ∀ slot, ∀ token ∈ pool.context slot, holds token) (inputs : ∀ token ∈ inputIds, holds token) (ends : holds eos) :
    ∀ row ∈ rows, ∀ token ∈ row, holds token := by
  cases context.symm.trans assembled.context
  intro row listed token member
  obtain ⟨place, found⟩ := List.mem_iff_getElem?.mp listed
  rw [List.getElem?_zipWith_eq_some] at found
  obtain ⟨history, tail, before, behind, rfl⟩ := found
  rcases List.mem_append.mp member with old | new
  · obtain ⟨slot, -, rfl⟩ := List.mem_map.mp (List.mem_of_getElem? before)
    exact histories slot token old
  · exact mem_padded (fun token inside => inputs token (List.mem_of_mem_take inside)) ends tail
      (List.mem_of_getElem? behind) token new

omit assembled in
theorem mem_windows {rows : List (List Token)} (known : ∀ row ∈ rows, ∀ token ∈ row, holds token) :
    ∀ window ∈ batch.windows ngramSize rows, ∀ token ∈ window, holds token := by
  intro window listed token member
  unfold PleBatch.windows at listed
  split at listed
  · exact known window listed token member
  · obtain ⟨place, found⟩ := List.mem_iff_getElem?.mp listed
    rw [List.getElem?_zipWith_eq_some] at found
    obtain ⟨row, offset, -, -, rfl⟩ := found
    have inRow := List.mem_of_mem_drop (List.mem_of_mem_take member)
    rw [List.getD_eq_getElem?_getD] at inRow
    cases here : rows[row]? with
    | none => simp [here] at inRow
    | some own =>
        rw [here, Option.getD_some] at inRow
        exact known own (List.mem_of_getElem? here) token inRow

include sized

/-- Every window is whole. -/
theorem windows_whole {rows : List (List Token)} (context : batch.ngramContext = some rows) :
    ∀ window ∈ batch.windows ngramSize rows, window.length = ngramSize := by
  cases context.symm.trans assembled.context
  intro window listed
  have width := assembled.width
  unfold PleBatch.windows at listed
  rw [assembled.isFast] at listed
  cases fast with
  | true =>
      rw [if_pos rfl] at listed
      obtain ⟨place, found⟩ := List.mem_iff_getElem?.mp listed
      rw [List.getElem?_zipWith_eq_some] at found
      obtain ⟨history, tail, before, behind, rfl⟩ := found
      obtain ⟨slot, -, rfl⟩ := List.mem_map.mp (List.mem_of_getElem? before)
      obtain ⟨token, -, rfl⟩ := List.mem_map.mp (List.mem_of_getElem? behind)
      rw [List.length_append, sized]
      exact width
  | false =>
      rw [if_neg Bool.false_ne_true] at listed
      obtain ⟨place, found⟩ := List.mem_iff_getElem?.mp listed
      rw [List.getElem?_zipWith_eq_some] at found
      obtain ⟨row, offset, isRow, isOffset, rfl⟩ := found
      have layout := assembled.isLayout
      have bounds := assembled.inBounds (row, offset) (by
        rw [← layout]
        exact List.mem_of_getElem? (List.getElem?_zip_eq_some.mpr ⟨isRow, isOffset⟩))
      have inStates : row < batch.stateIndices.length := by rw [assembled.states]; exact bounds.1
      have own : (List.zipWith (· ++ ·) (batch.stateIndices.map pool.context)
          (padded laid false (inputIds.take processed) batch.validTokens eos)).getD row [] =
          pool.context batch.stateIndices[row] ++ (padded laid false (inputIds.take processed) batch.validTokens eos).getD row [] := by
        have tail : (padded laid false (inputIds.take processed) batch.validTokens eos)[row]? =
            some ((padded laid false (inputIds.take processed) batch.validTokens eos).getD row []) := by
          rw [List.getD_eq_getElem?_getD, List.getElem?_eq_getElem (by simpa [padded, scatter] using bounds.1)]
          rfl
        rw [List.getD_eq_getElem?_getD, List.getElem?_zipWith_eq_some.mpr ⟨_, _, by
          rw [List.getElem?_map, List.getElem?_eq_getElem inStates]; rfl, tail, rfl⟩]
        rfl
      have tailWidth : ((padded laid false (inputIds.take processed) batch.validTokens eos).getD row []).length =
          laid.rowWidth := by
        rw [List.getD_eq_getElem?_getD, List.getElem?_eq_getElem (by simpa [padded, scatter] using bounds.1)]
        simp [padded, scatter]
      rw [own, window, List.length_take, List.length_drop, List.length_append, sized, tailWidth]
      have inside := bounds.2
      omega

omit sized in
theorem windows_count (count : laid.reqIndices.length = processed) {rows : List (List Token)}
    (context : batch.ngramContext = some rows) : (batch.windows ngramSize rows).length ≤ processed := by
  cases context.symm.trans assembled.context
  have layout := assembled.isLayout
  unfold PleBatch.windows
  rw [assembled.isFast]
  cases fast with
  | true =>
      rw [if_pos rfl, List.length_zipWith]
      refine (Nat.min_le_right _ _).trans ?_
      simp [padded]
  | false =>
      rw [if_neg Bool.false_ne_true, List.length_zipWith, layout, count]
      exact Nat.min_le_left _ _

end Assembled

theorem processedTokenCount_le {physicalTokens : Nat} (found : processedTokenCount forwardBatch physicalTokens = .ok processed) :
    processed ≤ physicalTokens := by
  unfold processedTokenCount at found
  dsimp only at found
  split at found
  · cases found
    exact le_rfl
  · split at found
    · cases found
      omega
    · cases found

/-- Whatever the mode: a batch that is prepared is assembled over a layout of the
tokens that it processes. -/
theorem prepare_assembled {fusion : Bool}
    (made : preparePleBatch fusion pool inputIds forwardBatch (some ngramSize) (some eos) = .ok (some batch)) :
    ∃ fast processed laid, processed ≤ inputIds.length ∧ laid.reqIndices.length = processed ∧
      pleForwardMode forwardBatch ≠ .idle ∧ layout forwardBatch (pleForwardMode forwardBatch) processed = .ok laid ∧
      Assembled pool inputIds fast processed ngramSize laid eos batch := by
  unfold preparePleBatch at made
  split at made
  · cases made
  split at made
  · cases made
  split at made
  · cases made
  by_cases idle : pleForwardMode forwardBatch = .idle
  · simp [idle] at made
  simp only [idle, if_false] at made
  cases counted : processedTokenCount forwardBatch inputIds.length with
  | error error => rw [counted] at made; cases made
  | ok processed =>
      cases placed : layout forwardBatch (pleForwardMode forwardBatch) processed with
      | error error => rw [counted] at made; simp only [placed] at made; cases made
      | ok laid =>
          rw [counted] at made
          simp only [placed] at made
          cases assembled : assemble pool inputIds forwardBatch (pleForwardMode forwardBatch)
            (fusion && decide (pleForwardMode forwardBatch = .decode)) processed laid (some ngramSize) (some eos) with
          | error error => rw [assembled] at made; cases made
          | ok other =>
              rw [assembled] at made
              cases made
              exact ⟨_, processed, laid, processedTokenCount_le counted, layout_count placed, idle, placed,
                assemble_assembled assembled⟩

/-- Only the rows of an extend pass can all be empty. -/
theorem layout_rowWidth (placed : layout forwardBatch mode processed = .ok laid) (extends_ : mode ≠ .extend)
    (idle : mode ≠ .idle) : 0 < laid.rowWidth := by
  cases mode with
  | extend => exact absurd rfl extends_
  | idle => exact absurd rfl idle
  | decode =>
      cases placed
      exact Nat.one_pos
  | targetVerify => exact verifyLayout_rowWidth placed

theorem prepare_unfolds {fusion : Bool}
    (made : preparePleBatch fusion pool inputIds forwardBatch (some ngramSize) (some eos) = .ok (some batch))
    (answered : pleForwardMode forwardBatch = .extend → 0 < batch.rowWidth) : batch.Unfolds pool.contextLen ngramSize := by
  obtain ⟨fast, processed, laid, -, -, busy, placed, assembled⟩ := prepare_assembled made
  have width : 0 < batch.rowWidth := by
    by_cases extends_ : pleForwardMode forwardBatch = .extend
    · exact answered extends_
    · rw [assembled.isLayout]
      exact layout_rowWidth placed extends_ busy
  exact .inr (by rw [← assembled.width]; omega)

variable {parallel : Parallel} {Value : Type} {groups : Groups parallel} {model : Model} {layer : PleLayer parallel Value}
  {config : NGramConfig} {vocab : Nat}

theorem inTable_zero (built : Built config (model.embedding layer.tables) vocab) : InTable vocab 0 := by
  have some_ : 0 < config.ngramHeads :=
    Nat.mul_pos (Nat.sub_pos_of_lt built.size) built.heads
  have fits := built.head_fits some_
  have positive := headSize_pos config 0
  exact ⟨le_rfl, by simp; omega⟩

/-- The ids of windows of the vocabulary are rows of the table. -/
theorem inTable_windowIds (built : Built config (model.embedding layer.tables) vocab)
    (vocabulary : config.unigramVocabSize ≤ maxLong) (ends : config.InVocabulary config.eosTokenId)
    {contexts : List (List Token)} (widths : ∀ window ∈ contexts, window.length = model.ngramSize)
    (tokens : ∀ window ∈ contexts, ∀ token ∈ window, config.InVocabulary token) :
    ∀ row ∈ contexts.map (model.embedding layer.tables).windowIds, ∀ id ∈ row, InTable vocab id := by
  intro row listed id member
  have ids : (model.embedding layer.tables).eagerIds _ contexts = _ := Embedding.eagerIds_eq widths
  rw [← ids] at listed
  obtain ⟨count, inside⟩ := built.idsInside vocabulary ends tokens row listed
  obtain ⟨head, found⟩ := List.mem_iff_getElem?.mp member
  have bound := (List.getElem?_eq_some_iff.mp found).1
  have offsets := built.complete.offsets
  have sizes := built.complete.sizes
  have sized : (model.embedding layer.tables).ngramHeadsVocabSizes[head]? = some _ :=
    List.getElem?_eq_getElem (by omega)
  have placed : (model.embedding layer.tables).ngramHeadsOffsets[head]? = some _ :=
    List.getElem?_eq_getElem (by omega)
  obtain ⟨_, same, low, high⟩ := inside head _ _ sized placed
  cases found.symm.trans same
  obtain ⟨start, -, end_⟩ := built.intervals.inside head _ _ sized placed
  exact ⟨by omega, by omega⟩

namespace Groups

theorem mem_brought {dp : Fin parallel.attnDpSize} (zero : InTable vocab 0)
    (given : ∀ row ∈ groups.given model layer dp, ∀ id ∈ row, InTable vocab id) :
    ∀ row ∈ groups.brought model layer dp, ∀ id ∈ row, InTable vocab id := by
  intro row listed id member
  rw [brought_eq] at listed
  rcases List.mem_append.mp listed with own | pad
  · exact given row own id member
  · rw [List.eq_of_mem_replicate pad] at member
    rw [List.eq_of_mem_replicate member]
    exact zero

theorem mem_lookup (zero : InTable vocab 0)
    (given : ∀ dp, ∀ row ∈ groups.given model layer dp, ∀ id ∈ row, InTable vocab id) :
    ∀ dp, ∀ row ∈ groups.lookup model layer dp, ∀ id ∈ row, InTable vocab id := by
  intro dp row listed
  rw [lookup] at listed
  split at listed
  · obtain ⟨rows, inside, own⟩ := List.mem_flatten.mp listed
    obtain ⟨other, -, rfl⟩ := List.mem_map.mp inside
    exact mem_brought zero (given other) row own
  · exact given dp row listed

end Groups

end FlashNext.Ple
