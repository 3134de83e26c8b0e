import FlashNext.NGram.Layouts

namespace FlashNext.NGram

open FlashNext.Data

/-- One row: the state slot of its request and the tokens it carries.  A padded
row stands for no request. -/
structure Piece where
  slot : Nat
  tokens : List Token
  padded : Bool
deriving DecidableEq, Repr

def Piece.live (piece : Piece) : Bool := !piece.padded && !piece.tokens.isEmpty

/-- The state slot a row works on; slot 0 belongs to nobody. -/
def Piece.state (piece : Piece) : Nat := if piece.live then piece.slot else 0

def pieceLengths (pieces : List Piece) : List Nat := pieces.map fun piece => piece.tokens.length

/-- The metadata of an extend pass. -/
structure ExtendRows (forwardBatch : ForwardBatch) (pieces : List Piece) : Prop where
  mode : pleForwardMode forwardBatch = .extend
  lengths : forwardBatch.extendSeqLens = some (pieceLengths pieces)
  mirrored : ∀ lengths, forwardBatch.extendSeqLensCpu = some lengths → lengths = pieceLengths pieces
  padding : ∀ piece ∈ pieces, piece.padded → piece.tokens = []

/-- The metadata of a decode pass.  Padded rows have no cache location. -/
structure DecodeRows (forwardBatch : ForwardBatch) (pieces : List Piece) : Prop where
  mode : pleForwardMode forwardBatch = .decode
  single : ∀ piece ∈ pieces, piece.tokens.length = 1
  real : forwardBatch.outCacheLoc = none → ∀ piece ∈ pieces, piece.padded = false
  placed : ∀ places, forwardBatch.outCacheLoc = some places →
    (places.take pieces.length).map (fun place => decide (place = 0)) = pieces.map Piece.padded

/-- A pass carries the given rows: the processed tokens are theirs, one behind
the other, and no two of them work on one state slot. -/
structure Carries (pool : ReqToTokenPool) (inputIds : List Token) (forwardBatch : ForwardBatch)
    (pieces : List Piece) : Prop where
  whole : forwardBatch.tboParentTokenRange = none
  unspeculated : forwardBatch.ngramSpeculation = false
  topk : forwardBatch.specInfo.any (fun info => info.topk ≠ 1) = false
  processed : processedTokenCount forwardBatch inputIds.length = .ok (pieceLengths pieces).sum
  tokens : inputIds.take (pieceLengths pieces).sum = pieces.flatMap Piece.tokens
  slots : (forwardBatch.reqPoolIndices.take pieces.length).map pool.mambaIndex = pieces.map Piece.slot
  rows : ExtendRows forwardBatch pieces ∨ DecodeRows forwardBatch pieces
  distinct : ((pieces.map Piece.state).filter (· ≠ 0)).Nodup

/-- An extend pass with empty rows only, or with none. -/
def Tokenless (forwardBatch : ForwardBatch) (pieces : List Piece) : Prop :=
  pleForwardMode forwardBatch = .extend ∧ ∀ piece ∈ pieces, piece.tokens = []

variable {pool : ReqToTokenPool} {inputIds : List Token} {forwardBatch : ForwardBatch} {pieces : List Piece}
  {lengths : List Nat}

/-- A layout finds the row and the offset of every token. -/
structure Layout.Covers (layout : Layout) (lengths : List Nat) : Prop where
  same : layout.lengths = lengths
  fits : ∀ length ∈ lengths, length ≤ layout.rowWidth
  reqCount : layout.reqIndices.length = lengths.sum
  offsetCount : layout.tokenOffsets.length = lengths.sum
  place : ∀ row offset, offset < lengths.getD row 0 →
    layout.reqIndices[rowStart lengths row + offset]? = some row ∧
      layout.tokenOffsets[rowStart lengths row + offset]? = some offset

theorem decodeLayout_covers (count : Nat) : (decodeLayout count).Covers (List.replicate count 1) where
  same := rfl
  fits := fun _ member => (List.eq_of_mem_replicate member).le
  reqCount := by simp [decodeLayout]
  offsetCount := by simp [decodeLayout]
  place := by
    intro row offset inside
    have bound : row < count := by simpa using row_lt_of_offset inside
    have first : offset = 0 := by
      have one : (List.replicate count 1).getD row 0 = 1 := by simp [bound]
      omega
    rw [first, rowStart_replicate_one bound.le]
    simp [decodeLayout, bound]

theorem Layout.Covers.finds {layout : Layout} (covers : layout.Covers lengths) : layout.Finds lengths where
  counts := covers.reqCount.trans covers.offsetCount.symm
  place := covers.place
  only := by
    intro position row offset req column _
    have bound : position < lengths.sum := by
      rw [← covers.reqCount]
      exact (List.getElem?_eq_some_iff.mp req).1
    obtain ⟨own, place, inside, rfl⟩ := exists_row bound
    obtain ⟨ownReq, ownColumn⟩ := covers.place own place inside
    have sameRow := Option.some.inj (ownReq.symm.trans req)
    have samePlace := Option.some.inj (ownColumn.symm.trans column)
    rw [sameRow, samePlace]

theorem extendLayout_covers (given : forwardBatch.extendSeqLens = some lengths)
    (mirrored : ∀ cpu, forwardBatch.extendSeqLensCpu = some cpu → cpu = lengths) (mode : ForwardMode) :
    ∃ layout, extendLayout forwardBatch mode lengths.sum = .ok layout ∧ layout.Covers lengths := by
  obtain ⟨layout, found, same, finds, fits, reqCount, _⟩ :=
    @extendLayout_finds _ _ given mirrored 0 (fun spared => absurd rfl spared) mode
  exact ⟨layout, found, same, fits, reqCount, finds.counts.symm.trans reqCount, finds.place⟩

theorem extendLayout_rowWidth (given : forwardBatch.extendSeqLens = some lengths)
    (mirrored : ∀ cpu, forwardBatch.extendSeqLensCpu = some cpu → cpu = lengths) {mode : ForwardMode} {layout : Layout}
    (made : extendLayout forwardBatch mode lengths.sum = .ok layout) (empty : lengths.sum = 0) : layout.rowWidth = 0 := by
  rw [extendLayout, given] at made
  simp only [empty, ne_eq, not_true, and_false, if_false] at made
  cases made
  dsimp only
  cases cpu : forwardBatch.extendSeqLensCpu with
  | none => rfl
  | some copied =>
      dsimp only
      rw [mirrored copied cpu]
      cases largest : lengths.max? with
      | none => rfl
      | some length => exact List.sum_eq_zero_iff.mp empty length (List.max?_mem largest)

theorem pieceLengths_getD {row : Nat} {piece : Piece} (found : pieces[row]? = some piece) :
    (pieceLengths pieces).getD row 0 = piece.tokens.length := by
  simp [pieceLengths, found]

theorem length_whole (pieces : List Piece) : (pieces.flatMap Piece.tokens).length = (pieceLengths pieces).sum := by
  rw [List.length_flatMap, pieceLengths]

theorem whole_getElem? {row offset : Nat} {piece : Piece} (found : pieces[row]? = some piece)
    (inside : offset < piece.tokens.length) :
    (pieces.flatMap Piece.tokens)[rowStart (pieceLengths pieces) row + offset]? = piece.tokens[offset]? := by
  have tokens : (pieces.map Piece.tokens)[row]? = some piece.tokens := by rw [List.getElem?_map, found, Option.map_some]
  have entry := flatten_rowStart tokens inside
  rwa [List.map_map] at entry

theorem padded_row {layout : Layout} (covers : layout.Covers (pieceLengths pieces)) (eos : Token) {row : Nat}
    {piece : Piece} (found : pieces[row]? = some piece) :
    ∃ filling, (padded layout false (pieces.flatMap Piece.tokens)
      (List.zipWith (fun row offset => decide (offset < layout.lengths.getD row 0)) layout.reqIndices
        layout.tokenOffsets) eos)[row]? = some (piece.tokens ++ filling) ∧
      piece.tokens.length + filling.length = layout.rowWidth := by
  have strides : (pieces.map Piece.tokens).map List.length = pieceLengths pieces := List.map_map ..
  have count : layout.lengths.length = (pieces.map Piece.tokens).length := by
    rw [covers.same, pieceLengths, List.length_map, List.length_map]
  have tokens : (pieces.map Piece.tokens)[row]? = some piece.tokens := by rw [List.getElem?_map, found, Option.map_some]
  have own : piece.tokens.length ≤ layout.lengths.getD row 0 := by rw [covers.same, pieceLengths_getD found]
  have fits : piece.tokens.length ≤ layout.rowWidth :=
    covers.fits _ (List.mem_map.mpr ⟨piece, List.mem_of_getElem? found, rfl⟩)
  have leading := @padded_leading _ _ [] (by rw [strides]; exact covers.finds) count eos _ _ _ tokens (le_refl _) own fits
  rw [List.take_length, List.append_nil, ← List.flatMap_def] at leading
  exact leading

/-- The rows a batch works on: the history of each row's slot, its tokens, and
a filling. -/
structure Prepared (pool : ReqToTokenPool) (pieces : List Piece) (batch : PleBatch) (rows : List (List Token)) :
    Prop where
  covers : batch.toLayout.Covers (pieceLengths pieces)
  processed : batch.processedTokens = (pieceLengths pieces).sum
  notVerify : batch.mode ≠ .targetVerify
  states : batch.stateIndices = pieces.map Piece.state
  context : batch.ngramContext = some rows
  rowCount : rows.length = pieces.length
  row : ∀ (index : Nat) (piece : Piece), pieces[index]? = some piece → ∃ filling,
    rows[index]? = some (pool.context piece.state ++ piece.tokens ++ filling) ∧
      piece.tokens.length + filling.length = batch.rowWidth
  fast : batch.useDecodeFastPath = true → batch.rowWidth = 1 ∧ ∀ piece ∈ pieces, piece.tokens.length = 1

theorem inBounds_of_covers {layout : Layout} (covers : layout.Covers (pieceLengths pieces)) : layout.InBounds := by
  intro place member
  obtain ⟨position, found⟩ := List.mem_iff_getElem?.mp member
  rw [List.getElem?_zip_eq_some] at found
  have bound : position < (pieceLengths pieces).sum := by
    rw [← covers.reqCount]
    exact (List.getElem?_eq_some_iff.mp found.1).1
  obtain ⟨row, offset, inside, rfl⟩ := exists_row bound
  obtain ⟨req, column⟩ := covers.place row offset inside
  have rowBound := row_lt_of_offset inside
  have wide := covers.fits _ (List.getElem_mem rowBound)
  rw [List.getD_eq_getElem?_getD, List.getElem?_eq_getElem rowBound, Option.getD_some] at inside
  have first := Option.some.inj (req.symm.trans found.1)
  have second := Option.some.inj (column.symm.trans found.2)
  rw [← first, ← second, covers.same]
  exact ⟨rowBound, by omega⟩

theorem ExtendRows.validRows_eq (rows : ExtendRows forwardBatch pieces) {layout : Layout}
    (same : layout.lengths = pieceLengths pieces) (processed : Nat) :
    validRows forwardBatch .extend false processed layout = pieces.map Piece.live := by
  have unmasked : validRows forwardBatch .extend false processed layout =
      layout.lengths.map fun length => decide (length ≠ 0) := by
    cases places : forwardBatch.outCacheLoc <;> simp only [validRows]
  rw [unmasked, same, pieceLengths, List.map_map]
  apply List.map_congr_left
  intro piece member
  have padding := rows.padding piece member
  cases isPadded : piece.padded with
  | false => cases tokens : piece.tokens <;> simp [Piece.live, isPadded, tokens]
  | true => simp [Piece.live, padding isPadded]

theorem DecodeRows.live_eq (rows : DecodeRows forwardBatch pieces) {piece : Piece} (member : piece ∈ pieces) :
    piece.live = !piece.padded := by
  have one := rows.single piece member
  have some_ : piece.tokens ≠ [] := by
    intro none
    rw [none] at one
    contradiction
  simp [Piece.live, some_]

theorem DecodeRows.validRows_eq (rows : DecodeRows forwardBatch pieces) {layout : Layout}
    (covers : layout.Covers (pieceLengths pieces)) (fast : Bool) (processed : Nat) :
    validRows forwardBatch .decode fast processed layout = pieces.map Piece.live := by
  have count : layout.lengths.length = pieces.length := by rw [covers.same, pieceLengths, List.length_map]
  have ones : layout.lengths = pieces.map fun _ => 1 := by
    rw [covers.same]
    exact List.map_congr_left rows.single
  have live : pieces.map Piece.live = pieces.map fun piece => !piece.padded :=
    List.map_congr_left fun piece member => rows.live_eq member
  cases places : forwardBatch.outCacheLoc with
  | none =>
      have real : pieces.map (fun piece => !piece.padded) = pieces.map fun _ => true :=
        List.map_congr_left fun piece member => by rw [rows.real places piece member]; rfl
      rw [live, real]
      cases fast with
      | true => simp [validRows, places, count, List.map_const']
      | false => simp [validRows, places, ones]
  | some places_ =>
      have masked := rows.placed places_ places
      have stored : (places_.take pieces.length).map (fun place => decide (place ≠ 0)) =
          pieces.map fun piece => !piece.padded := by
        have negated := congrArg (List.map fun padded => !padded) masked
        rw [List.map_map, List.map_map] at negated
        simpa [Function.comp_def] using negated
      cases fast with
      | true => simp only [validRows, places, count, live, stored]
      | false =>
          rw [live, ← stored]
          have enough : pieces.length ≤ places_.length := by
            have lengths := congrArg List.length masked
            simpa using lengths
          simp only [validRows, places, ones]
          apply List.ext_getElem
          · simp [enough]
          · intro index left right
            simp

theorem fast_row {layout : Layout} {validTokens : List Bool} {eos : Token}
    (single : ∀ piece ∈ pieces, piece.tokens.length = 1) {row : Nat} {piece : Piece}
    (found : pieces[row]? = some piece) :
    (padded layout true (pieces.flatMap Piece.tokens) validTokens eos)[row]? = some piece.tokens := by
  have bound := (List.getElem?_eq_some_iff.mp found).1
  have one := single piece (List.mem_of_getElem? found)
  have ones : pieceLengths pieces = List.replicate pieces.length 1 := by
    rw [pieceLengths, ← List.map_const']
    exact List.map_congr_left single
  have place := @whole_getElem? pieces row 0 piece found (by omega)
  rw [ones, rowStart_replicate_one bound.le, Nat.add_zero] at place
  obtain ⟨token, only⟩ := List.length_eq_one_iff.mp one
  rw [padded, if_pos rfl, List.getElem?_map, place, only]
  rfl

theorem assemble_prepared (carries : Carries pool inputIds forwardBatch pieces) {ngramSize : Nat} (eos : Token)
    (width : pool.contextLen + 1 = ngramSize) {layout : Layout} (covers : layout.Covers (pieceLengths pieces))
    {mode : ForwardMode} (notVerify : mode ≠ .targetVerify) {fast : Bool}
    (fastRows : fast = true → layout.rowWidth = 1 ∧ ∀ piece ∈ pieces, piece.tokens.length = 1)
    (valid : validRows forwardBatch mode fast (pieceLengths pieces).sum layout = pieces.map Piece.live) :
    ∃ batch rows, assemble pool inputIds forwardBatch mode fast (pieceLengths pieces).sum layout (some ngramSize)
        (some eos) = .ok batch ∧ Prepared pool pieces batch rows ∧ batch.mode = mode ∧ batch.toLayout = layout ∧
      batch.useDecodeFastPath = fast := by
  have count : layout.lengths.length = pieces.length := by rw [covers.same, pieceLengths, List.length_map]
  have states : List.zipWith (fun (valid : Bool) slot => if valid then slot else 0) (pieces.map Piece.live)
      (pieces.map Piece.slot) = pieces.map Piece.state := by
    rw [List.zipWith_map, List.zipWith_self]
    rfl
  rw [assemble]
  simp only [valid, count, carries.slots, carries.tokens, List.length_map, ne_eq, not_true, or_self, if_false, states,
    buildContext, inBounds_of_covers covers, width]
  refine ⟨_, _, rfl, ⟨covers, rfl, notVerify, rfl, rfl, ?_, ?_, fastRows⟩, rfl, rfl, rfl⟩
  · rw [List.length_zipWith, List.length_map, List.length_map]
    cases fast with
    | true =>
        have whole := length_whole pieces
        have ones : pieceLengths pieces = List.replicate pieces.length 1 := by
          rw [pieceLengths, ← List.map_const']
          exact List.map_congr_left (fastRows rfl).2
        rw [ones, List.sum_replicate_nat, Nat.mul_one] at whole
        rw [padded, if_pos rfl, List.length_map, whole, Nat.min_self]
    | false =>
        rw [padded, if_neg Bool.false_ne_true, scatter, List.length_map, List.length_range, count, Nat.min_self]
  · intro row piece found
    have history : ((pieces.map Piece.state).map pool.context)[row]? = some (pool.context piece.state) := by
      rw [List.map_map, List.getElem?_map, found]
      rfl
    dsimp only
    cases fast with
    | true =>
        have one := (fastRows rfl).2 piece (List.mem_of_getElem? found)
        refine ⟨[], ?_, ?_⟩
        · rw [List.getElem?_zipWith, history, fast_row (fastRows rfl).2 found, List.append_nil]
        · rw [one, (fastRows rfl).1]
          rfl
    | false =>
        obtain ⟨filling, tokens, fill⟩ := padded_row covers eos found
        refine ⟨filling, ?_, fill⟩
        simp only [List.getElem?_zipWith, history, Bool.false_eq_true, if_false]
        rw [tokens, List.append_assoc]

theorem ExtendRows.tokenless_iff (rows : ExtendRows forwardBatch pieces) :
    Tokenless forwardBatch pieces ↔ (pieceLengths pieces).sum = 0 := by
  rw [Tokenless, and_iff_right rows.mode, List.sum_eq_zero_iff, pieceLengths, List.forall_mem_map]
  simp only [List.length_eq_zero_iff]

/-- A prepared pass has windows unless it is an extend pass without tokens. -/
theorem prepare_carries (carries : Carries pool inputIds forwardBatch pieces) (fusion : Bool) {ngramSize : Nat}
    (eos : Token) (width : pool.contextLen + 1 = ngramSize) :
    ∃ batch rows, preparePleBatch fusion pool inputIds forwardBatch (some ngramSize) (some eos) = .ok (some batch) ∧
      Prepared pool pieces batch rows ∧ batch.mode = pleForwardMode forwardBatch ∧
      (batch.Unfolds pool.contextLen ngramSize ↔ ¬ Tokenless forwardBatch pieces) := by
  rw [preparePleBatch]
  simp only [carries.whole, carries.unspeculated, carries.topk, Option.isSome_none, Bool.false_eq_true, if_false,
    carries.processed]
  rcases carries.rows with rows | rows
  · obtain ⟨layout_, found, covers⟩ := extendLayout_covers rows.lengths rows.mirrored .extend
    obtain ⟨batch, context, made, prepared, mode, laid, slow⟩ := @assemble_prepared _ _ _ _ carries _ eos width _ covers
      .extend (by decide) false (fun fast => absurd fast Bool.false_ne_true) (rows.validRows_eq covers.same _)
    refine ⟨batch, context, ?_, prepared, mode.trans rows.mode.symm, ?_⟩
    · simp only [rows.mode, reduceCtorEq, if_false, decide_false, Bool.and_false, layout, found, made]
      rfl
    · have narrow : batch.rowWidth = 0 ↔ (pieceLengths pieces).sum = 0 := by
        constructor
        · intro none
          refine List.sum_eq_zero_iff.mpr fun length member => Nat.le_zero.mp ?_
          exact none ▸ prepared.covers.fits length member
        · intro empty
          rw [laid]
          exact extendLayout_rowWidth rows.lengths rows.mirrored found empty
      rw [rows.tokenless_iff, ← narrow, PleBatch.Unfolds, slow]
      simp only [Bool.false_eq_true, false_or]
      omega
  · have ones : pieceLengths pieces = List.replicate pieces.length 1 := by
      rw [pieceLengths, ← List.map_const']
      exact List.map_congr_left rows.single
    have covers : (decodeLayout (pieceLengths pieces).sum).Covers (pieceLengths pieces) := by
      rw [ones, List.sum_replicate_nat, Nat.mul_one]
      exact decodeLayout_covers _
    obtain ⟨batch, context, made, prepared, mode, laid, -⟩ := @assemble_prepared _ _ _ _ carries _ eos width _ covers
      .decode (by decide) fusion (fun _ => ⟨rfl, rows.single⟩) (rows.validRows_eq covers fusion _)
    refine ⟨batch, context, ?_, prepared, mode.trans rows.mode.symm, ?_⟩
    · simp only [rows.mode, reduceCtorEq, if_false, decide_true, Bool.and_true, layout, made]
      rfl
    · have one : batch.rowWidth = 1 := congrArg Layout.rowWidth laid
      refine iff_of_true (Or.inr ?_) fun tokenless => ?_
      · rw [one, width]
      · rw [Tokenless, rows.mode] at tokenless
        cases tokenless.1

end FlashNext.NGram
