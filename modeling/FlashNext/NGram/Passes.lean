import FlashNext.NGram.Rows

namespace FlashNext.NGram

open FlashNext.Data

/-- Every row of a batch begins with the history of its slot and goes on with
its tokens. -/
structure Laid (pool : ReqToTokenPool) (batch : PleBatch) (slots : List Nat) (data : List (List Token))
    (spare : List Token) (rows : List (List Token)) : Prop where
  finds : batch.toLayout.Finds (data.map List.length)
  inBounds : batch.toLayout.InBounds
  eager : batch.useDecodeFastPath = false
  states : batch.stateIndices = slots
  stateCount : slots.length = data.length
  lengthCount : batch.lengths.length = data.length
  reqCount : batch.reqIndices.length = (data.flatten ++ spare).length
  processed : batch.processedTokens = (data.flatten ++ spare).length
  valid : batch.validTokens = List.zipWith (fun row offset => decide (offset < batch.lengths.getD row 0))
    batch.reqIndices batch.tokenOffsets
  eos : batch.ngramEosTokenId ≠ none
  context : batch.ngramContext = some rows
  rowCount : rows.length = data.length
  row : ∀ (index : Nat) (tokens : List Token) (state count : Nat), data[index]? = some tokens →
    slots[index]? = some state → count ≤ tokens.length → count ≤ batch.lengths.getD index 0 →
    count ≤ batch.rowWidth → ∃ filling, rows[index]? = some (pool.context state ++ tokens.take count ++ filling) ∧
      count + filling.length = batch.rowWidth

variable {pool : ReqToTokenPool} {inputIds : List Token} {forwardBatch : ForwardBatch} {layout : Layout}
  {slots : List Nat} {data : List (List Token)} {spare : List Token}

theorem assemble_laid {mode : ForwardMode} {processed ngramSize : Nat} {live : List Bool} {requests : List Nat} (eos : Token)
    (width : pool.contextLen + 1 = ngramSize) (tokens : inputIds.take processed = data.flatten ++ spare)
    (whole : processed = (data.flatten ++ spare).length) (finds : layout.Finds (data.map List.length))
    (inBounds : layout.InBounds) (reqCount : layout.reqIndices.length = processed)
    (count : layout.lengths.length = data.length)
    (places : (forwardBatch.reqPoolIndices.take data.length).map pool.mambaIndex = requests)
    (placeCount : requests.length = data.length) (valid : validRows forwardBatch mode false processed layout = live)
    (liveCount : live.length = data.length)
    (masked : List.zipWith (fun (valid : Bool) slot => if valid then slot else 0) live requests = slots) :
    ∃ batch rows, assemble pool inputIds forwardBatch mode false processed layout (some ngramSize) (some eos) = .ok batch ∧
      Laid pool batch slots data spare rows ∧ batch.toLayout = layout ∧ batch.mode = mode := by
  have stateCount : slots.length = data.length := by
    rw [← masked, List.length_zipWith, liveCount, placeCount, Nat.min_self]
  rw [assemble]
  simp only [valid, count, places, placeCount, liveCount, tokens, ne_eq, not_true, or_self, if_false, masked, buildContext,
    inBounds, width, Bool.false_eq_true]
  refine ⟨_, _, rfl, ⟨finds, inBounds, rfl, rfl, stateCount, count, reqCount.trans whole, whole, rfl, Option.some_ne_none _,
    rfl, ?_, ?_⟩, rfl, rfl⟩
  · rw [List.length_zipWith, List.length_map, stateCount, padded, if_neg Bool.false_ne_true, scatter, List.length_map,
      List.length_range, count, Nat.min_self]
  · intro index row state taken found slot carried within wide
    obtain ⟨filling, laid, fill⟩ := @padded_leading _ _ spare finds count eos _ _ _ found carried within wide
    refine ⟨filling, ?_, fill⟩
    rw [List.getElem?_zipWith, List.getElem?_map, slot, laid, List.append_assoc]
    rfl

/-- An extend pass that carries the given rows.  Spare tokens behind them come
without lengths on the host. -/
structure ExtendPass (pool : ReqToTokenPool) (inputIds : List Token) (forwardBatch : ForwardBatch)
    (pieces : List Piece) (spare : List Token) : Prop where
  whole : forwardBatch.tboParentTokenRange = none
  unspeculated : forwardBatch.ngramSpeculation = false
  topk : forwardBatch.specInfo.any (fun info => info.topk ≠ 1) = false
  rows : ExtendRows forwardBatch pieces
  room : spare.length ≠ 0 → forwardBatch.extendSeqLensCpu = none ∧ pieceLengths pieces ≠ []
  processed : processedTokenCount forwardBatch inputIds.length = .ok ((pieceLengths pieces).sum + spare.length)
  tokens : inputIds.take ((pieceLengths pieces).sum + spare.length) = pieces.flatMap Piece.tokens ++ spare
  slots : (forwardBatch.reqPoolIndices.take pieces.length).map pool.mambaIndex = pieces.map Piece.slot
  distinct : ((pieces.map Piece.state).filter (· ≠ 0)).Nodup

theorem Carries.extendPass {pieces : List Piece} (carries : Carries pool inputIds forwardBatch pieces)
    (rows : ExtendRows forwardBatch pieces) : ExtendPass pool inputIds forwardBatch pieces [] where
  whole := carries.whole
  unspeculated := carries.unspeculated
  topk := carries.topk
  rows := rows
  room := fun spared => absurd rfl spared
  processed := carries.processed
  tokens := by
    rw [List.append_nil]
    exact carries.tokens
  slots := carries.slots
  distinct := carries.distinct

theorem ExtendPass.prepare {pieces : List Piece} (pass : ExtendPass pool inputIds forwardBatch pieces spare)
    (fusion : Bool) {ngramSize : Nat} (eos : Token) (width : pool.contextLen + 1 = ngramSize) :
    ∃ batch rows, preparePleBatch fusion pool inputIds forwardBatch (some ngramSize) (some eos) = .ok (some batch) ∧
      Laid pool batch (pieces.map Piece.state) (pieces.map Piece.tokens) spare rows ∧ batch.mode = .extend ∧
      batch.lengths = pieceLengths pieces ∧ ∀ length ∈ pieceLengths pieces, length ≤ batch.rowWidth := by
  have strides : (pieces.map Piece.tokens).map List.length = pieceLengths pieces := List.map_map ..
  have count : (pieces.map Piece.tokens).length = pieces.length := List.length_map _
  obtain ⟨layout_, found, lengths, finds, fits, reqCount, inBounds⟩ :=
    extendLayout_finds pass.rows.lengths pass.rows.mirrored pass.room .extend
  have whole : (pieceLengths pieces).sum + spare.length = ((pieces.map Piece.tokens).flatten ++ spare).length := by
    rw [List.length_append, List.length_flatten, strides]
  have live := pass.rows.validRows_eq lengths ((pieceLengths pieces).sum + spare.length)
  have masked : List.zipWith (fun (valid : Bool) slot => if valid then slot else 0) (pieces.map Piece.live)
      (pieces.map Piece.slot) = pieces.map Piece.state := by
    rw [List.zipWith_map, List.zipWith_self]
    rfl
  obtain ⟨batch, rows, made, laid, sameLayout, mode⟩ := assemble_laid eos width
    (pass.tokens.trans (congrArg (· ++ spare) List.flatMap_def)) whole (by rw [strides]; exact finds) inBounds reqCount
    (by rw [lengths, count, pieceLengths, List.length_map]) (by rw [count]; exact pass.slots)
    (by rw [List.length_map, count]) live (by rw [List.length_map, count]) masked
  refine ⟨batch, rows, ?_, laid, mode, ?_, ?_⟩
  · rw [preparePleBatch]
    simp only [pass.whole, pass.unspeculated, pass.topk, Option.isSome_none, Bool.false_eq_true, if_false, pass.processed,
      pass.rows.mode, reduceCtorEq, decide_false, Bool.and_false, layout, found, made]
    rfl
  · rw [sameLayout, lengths]
  · rw [sameLayout]
    exact fits

/-- A row of draft tokens, of which the first ones are valid.  A padded row has
no cache location. -/
structure DraftRow where
  slot : Nat
  tokens : List Token
  length : Nat
  padded : Bool
deriving DecidableEq, Repr

def DraftRow.live (draft : DraftRow) : Bool := decide (draft.length ≠ 0) && !draft.padded

def DraftRow.state (draft : DraftRow) : Nat := if draft.live then draft.slot else 0

/-- A verify pass that carries the given rows. -/
structure VerifyPass (pool : ReqToTokenPool) (inputIds : List Token) (forwardBatch : ForwardBatch)
    (drafts : List DraftRow) (width : Nat) : Prop where
  whole : forwardBatch.tboParentTokenRange = none
  unspeculated : forwardBatch.ngramSpeculation = false
  mode : pleForwardMode forwardBatch = .targetVerify
  spec : ∃ info, forwardBatch.specInfo = some info ∧ info.topk = 1 ∧ info.draftTokenNum = width
  some_ : 0 < width
  stride : ∀ draft ∈ drafts, draft.tokens.length = width
  lengths : draftLengths forwardBatch drafts.length width = drafts.map DraftRow.length
  processed : processedTokenCount forwardBatch inputIds.length = .ok (drafts.length * width)
  tokens : inputIds.take (drafts.length * width) = drafts.flatMap DraftRow.tokens
  slots : (forwardBatch.reqPoolIndices.take drafts.length).map pool.mambaIndex = drafts.map DraftRow.slot
  real : forwardBatch.outCacheLoc = none → ∀ draft ∈ drafts, draft.padded = false
  placed : ∀ places, forwardBatch.outCacheLoc = some places →
    (reshape width drafts.length (places.take (drafts.length * width))).map (fun row => !row.any (· ≠ 0)) =
      drafts.map DraftRow.padded

variable {drafts : List DraftRow} {width : Nat}

theorem VerifyPass.strides (pass : VerifyPass pool inputIds forwardBatch drafts width) :
    (drafts.map DraftRow.tokens).map List.length = List.replicate drafts.length width := by
  rw [List.map_map, ← List.map_const']
  exact List.map_congr_left pass.stride

theorem VerifyPass.validRows_eq (pass : VerifyPass pool inputIds forwardBatch drafts width)
    (lengths : layout.lengths = drafts.map DraftRow.length) (stride : layout.rowWidth = width) :
    validRows forwardBatch .targetVerify false (drafts.length * width) layout = drafts.map DraftRow.live := by
  have count : layout.lengths.length = drafts.length := by rw [lengths, List.length_map]
  cases places : forwardBatch.outCacheLoc with
  | none =>
      have unmasked : validRows forwardBatch .targetVerify false (drafts.length * width) layout =
          layout.lengths.map fun length => decide (length ≠ 0) := by
        simp only [validRows, places]
      rw [unmasked, lengths, List.map_map]
      apply List.map_congr_left
      intro draft member
      rw [DraftRow.live, pass.real places draft member]
      simp
  | some places_ =>
      have masked := pass.placed places_ places
      have negated := congrArg (List.map fun padded => !padded) masked
      rw [List.map_map, List.map_map] at negated
      simp only [Function.comp_def, Bool.not_not] at negated
      have rows : validRows forwardBatch .targetVerify false (drafts.length * width) layout =
          List.zipWith (fun length present => decide (length ≠ 0) && present) (drafts.map DraftRow.length)
            ((reshape width drafts.length (places_.take (drafts.length * width))).map fun row => row.any (· ≠ 0)) := by
        simp only [validRows, places, lengths, stride, List.length_map, List.zipWith_map_right]
      rw [rows, negated, List.zipWith_map, List.zipWith_self]
      rfl

theorem VerifyPass.prepare (pass : VerifyPass pool inputIds forwardBatch drafts width) (fusion : Bool) {ngramSize : Nat}
    (eos : Token) (size : pool.contextLen + 1 = ngramSize) :
    ∃ batch rows, preparePleBatch fusion pool inputIds forwardBatch (some ngramSize) (some eos) = .ok (some batch) ∧
      Laid pool batch (drafts.map DraftRow.state) (drafts.map DraftRow.tokens) [] rows ∧ batch.mode = .targetVerify ∧
      batch.lengths = drafts.map DraftRow.length ∧ batch.rowWidth = width := by
  obtain ⟨info, spec, single, drafted⟩ := pass.spec
  have count : (drafts.map DraftRow.tokens).length = drafts.length := List.length_map _
  obtain ⟨layout_, found, lengths, stride, finds, reqCount, inBounds⟩ :=
    verifyLayout_finds spec drafted pass.some_ pass.lengths (List.length_map _)
  have whole : drafts.length * width = ((drafts.map DraftRow.tokens).flatten ++ []).length := by
    rw [List.append_nil, List.length_flatten, pass.strides, List.sum_replicate_nat]
  have live := pass.validRows_eq lengths stride
  have masked : List.zipWith (fun (valid : Bool) slot => if valid then slot else 0) (drafts.map DraftRow.live)
      (drafts.map DraftRow.slot) = drafts.map DraftRow.state := by
    rw [List.zipWith_map, List.zipWith_self]
    rfl
  have tokens : inputIds.take (drafts.length * width) = (drafts.map DraftRow.tokens).flatten ++ [] := by
    rw [List.append_nil, pass.tokens, List.flatMap_def]
  obtain ⟨batch, rows, made, laid, sameLayout, mode⟩ := assemble_laid eos size tokens whole
    (by rw [pass.strides]; exact finds) inBounds reqCount (by rw [lengths, count, List.length_map])
    (by rw [count]; exact pass.slots) (by rw [List.length_map, count]) live (by rw [List.length_map, count]) masked
  have topk : forwardBatch.specInfo.any (fun info => info.topk ≠ 1) = false := by
    rw [spec, Option.any_some, single]
    rfl
  refine ⟨batch, rows, ?_, laid, mode, ?_, ?_⟩
  · rw [preparePleBatch]
    simp only [pass.whole, pass.unspeculated, topk, Option.isSome_none, Bool.false_eq_true, if_false, pass.processed,
      pass.mode, reduceCtorEq, decide_false, Bool.and_false, layout, found, made]
    rfl
  · rw [sameLayout, lengths]
  · rw [sameLayout, stride]

end FlashNext.NGram
