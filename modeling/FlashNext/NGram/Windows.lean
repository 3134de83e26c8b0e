import FlashNext.NGram.Rows

namespace FlashNext.NGram

open FlashNext.Data

/-- Every history has the width the model hashes with. -/
structure ReqToTokenPool.Sized (pool : ReqToTokenPool) (model : Model) : Prop where
  width : pool.contextLen + 1 = model.ngramSize
  context : ∀ slot, (pool.context slot).length = pool.contextLen

/-- The fused kernel hashes what the eager path hashes. -/
def FusedHash.Faithful (fused : FusedHash) : Prop :=
  ∀ embedding contexts ids, fused embedding contexts = some ids →
    ids = embedding.eagerIds (embedding.shiftedTokens contexts) contexts

/-- The tokens a pass carries for a state slot. -/
def carried (slot : Nat) (pieces : List Piece) : List Token :=
  (pieces.filter fun piece => piece.state = slot).flatMap Piece.tokens

def Untracked (forwardBatch : ForwardBatch) (slot : Nat) : Prop :=
  ∀ (indices : List Nat) (mask : List Bool), forwardBatch.mambaTrackIndices = some indices →
    forwardBatch.mambaTrackMask = some mask → ∀ row : Nat, mask[row]? = some true → indices[row]? ≠ some slot

variable {model : Model} {pool : ReqToTokenPool} {inputIds : List Token} {forwardBatch : ForwardBatch}
  {pieces : List Piece} {batch : PleBatch} {rows : List (List Token)} {fused : FusedHash} {slot : Nat}

theorem Prepared.windows_getElem? (prepared : Prepared pool pieces batch rows) (sized : pool.Sized model)
    {row offset : Nat} {piece : Piece} (found : pieces[row]? = some piece) (inside : offset < piece.tokens.length) :
    (batch.windows model.ngramSize rows)[rowStart (pieceLengths pieces) row + offset]? =
      some ((pool.context piece.state ++ piece.tokens.take (offset + 1)).rtake model.ngramSize) := by
  obtain ⟨filling, laid, fill⟩ := prepared.row row piece found
  have before : (pool.context piece.state).length + 1 = model.ngramSize := by rw [sized.context, sized.width]
  cases fast : batch.useDecodeFastPath with
  | false =>
      obtain ⟨req, column⟩ := prepared.covers.place row offset (by rwa [pieceLengths_getD found])
      simp only [PleBatch.windows, fast, Bool.false_eq_true, if_false]
      rw [List.getElem?_zipWith, req, column]
      dsimp only
      rw [List.getD_eq_getElem?_getD, laid, Option.getD_some, window_history before inside]
  | true =>
      obtain ⟨narrow, single⟩ := prepared.fast fast
      have one := single piece (List.mem_of_getElem? found)
      have ones : pieceLengths pieces = List.replicate pieces.length 1 := by
        rw [pieceLengths, ← List.map_const']
        exact List.map_congr_left single
      have first : offset = 0 := by omega
      have none : filling = [] := List.eq_nil_of_length_eq_zero (by omega)
      simp only [PleBatch.windows, fast, if_true]
      rw [ones, rowStart_replicate_one (List.getElem?_eq_some_iff.mp found).1.le, first, Nat.add_zero, laid, none,
        List.append_nil, Nat.zero_add, List.take_of_length_le (by omega),
        rtake_of_length (by rw [List.length_append]; omega)]

theorem Prepared.windows_length (prepared : Prepared pool pieces batch rows) (sized : pool.Sized model) :
    ∀ window ∈ batch.windows model.ngramSize rows, window.length = model.ngramSize := by
  intro window member
  obtain ⟨position, found⟩ := List.mem_iff_getElem?.mp member
  have bound : position < (pieceLengths pieces).sum := by
    have inside := (List.getElem?_eq_some_iff.mp found).1
    cases fast : batch.useDecodeFastPath with
    | false =>
        simp only [PleBatch.windows, fast, Bool.false_eq_true, if_false] at inside
        rw [List.length_zipWith, prepared.covers.reqCount, prepared.covers.offsetCount, Nat.min_self] at inside
        exact inside
    | true =>
        have ones : pieceLengths pieces = List.replicate pieces.length 1 := by
          rw [pieceLengths, ← List.map_const']
          exact List.map_congr_left (prepared.fast fast).2
        simp only [PleBatch.windows, fast, if_true] at inside
        rwa [ones, List.sum_replicate_nat, Nat.mul_one, ← prepared.rowCount]
  obtain ⟨row, offset, inside, rfl⟩ := exists_row bound
  have here : row < pieces.length := by simpa [pieceLengths] using row_lt_of_offset inside
  have piece : pieces[row]? = some pieces[row] := List.getElem?_eq_getElem here
  rw [pieceLengths_getD piece] at inside
  have entry := prepared.windows_getElem? sized piece inside
  cases found.symm.trans entry
  have width := sized.context pieces[row].state
  have size := sized.width
  rw [List.rtake, List.length_drop, List.length_append, List.length_take]
  omega

/-- The window cache holds nothing, or the windows of the batch and what the
first layer shifted. -/
def CacheFits (model : Model) (batch : PleBatch) (rows : List (List Token)) (pool : ReqToTokenPool) : Prop :=
  pool.pleWindowCache = none ∨ ∃ shifted, pool.pleWindowCache =
      some (batch, batch.windows model.ngramSize rows, shifted) ∧
    ∀ tokens tables, shifted = some tokens →
      tokens = (model.embedding tables).shiftedTokens (batch.windows model.ngramSize rows)

theorem hashContexts_eq (faithful : fused.Faithful) (large : 0 < model.ngramSize) (tables : LayerTables)
    {contexts : List (List Token)} {shifted : Option (List (List (List Token)))}
    (cached : pool.pleWindowCache = some (batch, contexts, shifted))
    (known : ∀ tokens tables, shifted = some tokens → tokens = (model.embedding tables).shiftedTokens contexts)
    (decodeSized : Bool) :
    ∃ cache, hashContexts fused (model.embedding tables) pool contexts decodeSized =
        .ok ((model.embedding tables).eagerIds ((model.embedding tables).shiftedTokens contexts) contexts,
          { pool with pleWindowCache := some (batch, contexts, cache) }) ∧
      ∀ tokens tables, cache = some tokens → tokens = (model.embedding tables).shiftedTokens contexts := by
  have kept : { pool with pleWindowCache := some (batch, contexts, shifted) } = pool := by rw [← cached]
  rw [hashContexts]
  cases route : if (model.embedding tables).enablePleFusion && decodeSized then
      fused (model.embedding tables) contexts else none with
  | some ids =>
      refine ⟨shifted, ?_, known⟩
      have hashed : fused (model.embedding tables) contexts = some ids := by
        split at route
        · exact route
        · contradiction
      rw [kept, faithful _ _ _ hashed]
  | none =>
      simp only [cached]
      cases shifted with
      | none =>
          refine ⟨some ((model.embedding tables).shiftedTokens contexts), by simp only [if_true], ?_⟩
          intro tokens other same
          cases same
          rfl
      | some tokens =>
          have same := known tokens tables rfl
          have length : tokens.length = (model.embedding tables).ngramSize := by
            rw [same, Embedding.shiftedTokens, List.length_cons, List.length_map, List.length_range']
            exact Nat.sub_add_cancel large
          refine ⟨some tokens, ?_, known⟩
          simp only [if_true, length, kept]
          rw [same]

theorem computeNgramIds_eq (faithful : fused.Faithful) (large : 0 < model.ngramSize)
    (context : batch.ngramContext = some rows) (unfolds : batch.Unfolds pool.contextLen model.ngramSize)
    (fits : CacheFits model batch rows pool)
    (widths : ∀ window ∈ batch.windows model.ngramSize rows, window.length = model.ngramSize) (tables : LayerTables) :
    ∃ next, computeNgramIds fused (model.embedding tables) pool batch =
        .ok ((batch.windows model.ngramSize rows).map (model.embedding tables).windowIds, next) ∧
      CacheFits model batch rows next ∧ next = { pool with pleWindowCache := next.pleWindowCache } := by
  have ids := @Embedding.eagerIds_eq (model.embedding tables) _ widths
  rw [computeNgramIds, context]
  rcases fits with empty | ⟨shifted, cached, known⟩
  · have fresh : ({ pool with pleWindowCache := some (batch, batch.windows model.ngramSize rows, none) } :
        ReqToTokenPool).pleWindowCache = some (batch, batch.windows model.ngramSize rows, none) := rfl
    obtain ⟨cache, hashed, known⟩ := hashContexts_eq faithful large tables fresh (by intro _ _ same; cases same)
      (batch.mode = .decode || batch.mode = .targetVerify)
    have wide : batch.Unfolds pool.contextLen (model.embedding tables).ngramSize := unfolds
    simp only [empty, hashWindows, if_pos wide]
    rw [ids] at hashed
    exact ⟨_, hashed, Or.inr ⟨cache, rfl, known⟩, rfl⟩
  · obtain ⟨cache, hashed, known⟩ := hashContexts_eq faithful large tables cached known
      (batch.mode = .decode || batch.mode = .targetVerify)
    simp only [cached, if_true]
    rw [ids] at hashed
    exact ⟨_, hashed, Or.inr ⟨cache, rfl, known⟩, rfl⟩

theorem computeAll_eq (faithful : fused.Faithful) (large : 0 < model.ngramSize)
    (context : batch.ngramContext = some rows)
    (widths : ∀ window ∈ batch.windows model.ngramSize rows, window.length = model.ngramSize)
    (calls : List LayerTables) (unfolds : calls ≠ [] → batch.Unfolds pool.contextLen model.ngramSize)
    (fits : CacheFits model batch rows pool) :
    ∃ next, computeAll fused model batch calls pool = .ok (calls.map fun tables =>
        (batch.windows model.ngramSize rows).map (model.embedding tables).windowIds, next) ∧
      next = { pool with pleWindowCache := next.pleWindowCache } := by
  induction calls generalizing pool with
  | nil => exact ⟨pool, rfl, rfl⟩
  | cons tables rest ih =>
      have wide := unfolds (List.cons_ne_nil tables rest)
      obtain ⟨hashed, first, kept, same⟩ := computeNgramIds_eq faithful large context wide fits widths tables
      obtain ⟨next, later, unchanged⟩ := ih (fun _ => by rwa [same]) kept
      refine ⟨next, ?_, ?_⟩
      · simp only [computeAll, first, later, List.map_cons]
      · rw [unchanged, same]

def nextHistories (pool : ReqToTokenPool) (pieces : List Piece) : List (List Token) :=
  pieces.map fun piece => (pool.context piece.state ++ piece.tokens).rtake pool.contextLen

theorem Prepared.gather_lengths (prepared : Prepared pool pieces batch rows) (sized : pool.Sized model) :
    gatherContexts pool.contextLen rows batch.lengths = nextHistories pool pieces := by
  apply List.ext_getElem?
  intro index
  have lengths : batch.lengths = pieceLengths pieces := prepared.covers.same
  cases found : pieces[index]? with
  | none =>
      have past : pieces.length ≤ index := List.getElem?_eq_none_iff.mp found
      rw [gatherContexts, nextHistories, List.getElem?_eq_none (by simp [prepared.rowCount, lengths, pieceLengths, past]),
        List.getElem?_eq_none (by simpa using past)]
  | some piece =>
      obtain ⟨filling, laid, _⟩ := prepared.row index piece found
      have width := sized.context piece.state
      have length : (pieceLengths pieces)[index]? = some piece.tokens.length := by
        rw [pieceLengths, List.getElem?_map, found, Option.map_some]
      rw [gatherContexts, nextHistories, List.getElem?_zipWith, laid, lengths, length, List.getElem?_map, found,
        Option.map_some, ← width]
      exact congrArg some window_next

theorem Prepared.drop_rowWidth (prepared : Prepared pool pieces batch rows) (sized : pool.Sized model)
    (fast : batch.useDecodeFastPath = true) :
    rows.map (·.drop batch.rowWidth) = nextHistories pool pieces := by
  obtain ⟨narrow, single⟩ := prepared.fast fast
  apply List.ext_getElem?
  intro index
  cases found : pieces[index]? with
  | none =>
      have past : pieces.length ≤ index := List.getElem?_eq_none_iff.mp found
      rw [nextHistories, List.getElem?_eq_none (by simpa [prepared.rowCount] using past),
        List.getElem?_eq_none (by simpa using past)]
  | some piece =>
      obtain ⟨filling, laid, fill⟩ := prepared.row index piece found
      have one := single piece (List.mem_of_getElem? found)
      have none : filling = [] := List.eq_nil_of_length_eq_zero (by omega)
      have width := sized.context piece.state
      rw [nextHistories, List.getElem?_map, laid, List.getElem?_map, found, Option.map_some, Option.map_some, narrow, none,
        List.append_nil, List.rtake, List.length_append, one, width, Nat.add_sub_cancel_left]

theorem length_nextHistories (sized : pool.Sized model) :
    ∀ history ∈ nextHistories pool pieces, history.length = pool.contextLen := by
  intro history member
  obtain ⟨piece, _, rfl⟩ := List.mem_map.mp member
  have width := sized.context piece.state
  rw [List.rtake, List.length_drop, List.length_append]
  omega

theorem Prepared.gather_width (prepared : Prepared pool pieces batch rows) (sized : pool.Sized model)
    {offsets : List Nat} (bounded : ∀ offset ∈ offsets, offset ≤ batch.rowWidth) :
    ∀ history ∈ gatherContexts pool.contextLen rows offsets, history.length = pool.contextLen := by
  intro history member
  obtain ⟨index, found⟩ := List.mem_iff_getElem?.mp member
  rw [gatherContexts, List.getElem?_zipWith] at found
  cases laid : rows[index]? with
  | none =>
      rw [laid] at found
      contradiction
  | some row =>
      cases place : offsets[index]? with
      | none =>
          rw [laid, place] at found
          contradiction
      | some offset =>
          rw [laid, place] at found
          cases found
          have inside : index < pieces.length := by
            rw [← prepared.rowCount]
            exact (List.getElem?_eq_some_iff.mp laid).1
          obtain ⟨filling, same, fill⟩ := prepared.row index pieces[index] (List.getElem?_eq_getElem inside)
          cases laid.symm.trans same
          have width := sized.context pieces[index].state
          have bound := bounded offset (List.mem_of_getElem? place)
          rw [window, List.length_take, List.length_drop, List.length_append, List.length_append]
          omega

theorem carried_cases (distinct : ((pieces.map Piece.state).filter (· ≠ 0)).Nodup) (real : slot ≠ 0) :
    (∀ piece ∈ pieces, piece.state ≠ slot) ∨ ∃ piece ∈ pieces, piece.state = slot ∧
      (pieces.filter fun piece => piece.state = slot) = [piece] := by
  induction pieces with
  | nil => exact Or.inl (by simp)
  | cons first rest ih =>
      by_cases here : first.state = slot
      · rw [List.map_cons, List.filter_cons_of_pos (by simpa [here] using real)] at distinct
        have alone : ∀ piece ∈ rest, ¬ piece.state = slot := by
          intro piece member same
          apply (List.nodup_cons.mp distinct).1
          rw [here, List.mem_filter]
          exact ⟨List.mem_map.mpr ⟨piece, member, same⟩, by simpa using real⟩
        refine Or.inr ⟨first, List.mem_cons_self, here, ?_⟩
        rw [List.filter_cons_of_pos (by simpa using here), List.filter_eq_nil_iff.mpr (by simpa using alone)]
      · have later : ((rest.map Piece.state).filter (· ≠ 0)).Nodup := by
          rw [List.map_cons] at distinct
          exact distinct.sublist ((List.sublist_cons_self _ _).filter _)
        rcases ih later with none | ⟨piece, member, same, only⟩
        · exact Or.inl (List.forall_mem_cons.mpr ⟨here, none⟩)
        · refine Or.inr ⟨piece, List.mem_cons_of_mem _ member, same, ?_⟩
          rw [List.filter_cons_of_neg (by simpa using here), only]

theorem setNgramContext_other {indices : List Nat} (contexts : List (List Token)) (absent : slot ∉ indices) :
    (pool.setNgramContext indices contexts).context slot = pool.context slot :=
  storeAll_zip_other contexts absent

theorem setNgramContext_length {indices : List Nat} {contexts : List (List Token)}
    (before : ∀ slot, (pool.context slot).length = pool.contextLen)
    (written : ∀ context ∈ contexts, context.length = pool.contextLen) :
    ∀ slot, ((pool.setNgramContext indices contexts).context slot).length = pool.contextLen :=
  @storeAll_forall _ _ _ pool.context (indices.zip contexts) (fun context => context.length = pool.contextLen) before
    fun _ member => written _ (List.of_mem_zip member).2

theorem setNgramContext_next (sized : pool.Sized model) (distinct : ((pieces.map Piece.state).filter (· ≠ 0)).Nodup)
    (real : slot ≠ 0) :
    (pool.setNgramContext (pieces.map Piece.state) (nextHistories pool pieces)).context slot =
      (pool.context slot ++ carried slot pieces).rtake pool.contextLen := by
  have writes : (pieces.map Piece.state).zip (nextHistories pool pieces) = pieces.map fun piece =>
      (piece.state, (pool.context piece.state ++ piece.tokens).rtake pool.contextLen) := by
    rw [nextHistories, List.zip_map']
  rw [ReqToTokenPool.setNgramContext, writes, carried]
  rcases carried_cases distinct real with none | ⟨piece, member, here, only⟩
  · rw [List.filter_eq_nil_iff.mpr (by simpa using none), List.flatMap_nil, List.append_nil,
      rtake_of_length (sized.context slot)]
    apply storeAll_of_not_mem
    intro write inside
    obtain ⟨piece, member, rfl⟩ := List.mem_map.mp inside
    exact none piece member
  · rw [only, List.flatMap_singleton]
    refine storeAll_eq ?_ ⟨_, List.mem_map.mpr ⟨piece, member, rfl⟩, here⟩
    intro write inside same
    obtain ⟨other, present, rfl⟩ := List.mem_map.mp inside
    have listed : other ∈ pieces.filter fun piece => piece.state = slot :=
      List.mem_filter.mpr ⟨present, decide_eq_true same⟩
    rw [only, List.mem_singleton] at listed
    rw [listed, here]

theorem not_mem_trackTargets (untracked : Untracked forwardBatch slot) (real : slot ≠ 0) {targets offsets : List Nat}
    (tracked : pleTrackTargets forwardBatch batch = some (targets, offsets)) : slot ∉ targets := by
  rw [pleTrackTargets] at tracked
  cases indices : forwardBatch.mambaTrackIndices with
  | none =>
      rw [indices] at tracked
      contradiction
  | some slots =>
      cases mask : forwardBatch.mambaTrackMask with
      | none =>
          rw [indices, mask] at tracked
          contradiction
      | some masked =>
          have same : targets = List.zipWith (fun (tracked : Bool) slot => if tracked then slot else 0)
              (masked.take batch.lengths.length) (slots.take batch.lengths.length) := by
            simp only [indices, mask] at tracked
            split at tracked
            · cases tracked
              rfl
            · obtain ⟨aligned, _, made⟩ := Option.map_eq_some_iff.mp tracked
              cases made
              rfl
          intro member
          rw [same] at member
          obtain ⟨row, found⟩ := List.mem_iff_getElem?.mp member
          rw [List.getElem?_zipWith_eq_some] at found
          obtain ⟨flag, place, flagged, placed, value⟩ := found
          cases flag with
          | false => exact real value.symm
          | true =>
              rw [List.getElem?_take] at flagged placed
              split at flagged
              · next inside =>
                  rw [if_pos inside] at placed
                  exact untracked slots masked indices mask row flagged (placed.trans (congrArg some value))
              · contradiction

theorem trackTargets_offsets (prepared : Prepared pool pieces batch rows) {targets offsets : List Nat}
    (tracked : pleTrackTargets forwardBatch batch = some (targets, offsets)) :
    ∀ offset ∈ offsets, offset ≤ batch.rowWidth := by
  have fits : ∀ length ∈ batch.lengths, length ≤ batch.rowWidth := by
    rw [prepared.covers.same]
    exact prepared.covers.fits
  rw [pleTrackTargets] at tracked
  split at tracked
  · simp only at tracked
    split at tracked
    · cases tracked
      exact fits
    · obtain ⟨aligned, _, made⟩ := Option.map_eq_some_iff.mp tracked
      cases made
      intro offset member
      obtain ⟨index, found⟩ := List.mem_iff_getElem?.mp member
      rw [List.getElem?_zipWith_eq_some] at found
      obtain ⟨length, boundary, listed, _, value⟩ := found
      have bound := fits length (List.mem_of_getElem? listed)
      omega
  · contradiction

structure Committed (model : Model) (pool : ReqToTokenPool) (forwardBatch : ForwardBatch) (pieces : List Piece)
    (next : ReqToTokenPool) : Prop where
  sized : next.Sized model
  mambaIndex : next.mambaIndex = pool.mambaIndex
  context : ∀ slot, slot ≠ 0 → Untracked forwardBatch slot →
    next.context slot = (pool.context slot ++ carried slot pieces).rtake pool.contextLen

theorem committed_of_set (sized : pool.Sized model) (distinct : ((pieces.map Piece.state).filter (· ≠ 0)).Nodup) :
    Committed model pool forwardBatch pieces
      (pool.setNgramContext (pieces.map Piece.state) (nextHistories pool pieces)) where
  sized := ⟨sized.width, setNgramContext_length sized.context (length_nextHistories sized)⟩
  mambaIndex := rfl
  context := fun _ real _ => setNgramContext_next sized distinct real

theorem Committed.track {next : ReqToTokenPool} (committed : Committed model pool forwardBatch pieces next)
    {targets offsets : List Nat} {snapshots : List (List Token)}
    (tracked : pleTrackTargets forwardBatch batch = some (targets, offsets))
    (width : ∀ snapshot ∈ snapshots, snapshot.length = next.contextLen) :
    Committed model pool forwardBatch pieces (next.setNgramContext targets snapshots) where
  sized := ⟨committed.sized.width, setNgramContext_length committed.sized.context width⟩
  mambaIndex := committed.mambaIndex
  context := by
    intro slot real untracked
    rw [setNgramContext_other snapshots (not_mem_trackTargets untracked real tracked),
      committed.context slot real untracked]

theorem carried_eq_nil (empty : (pieceLengths pieces).sum = 0) (real : slot ≠ 0) : carried slot pieces = [] := by
  rw [carried, List.filter_eq_nil_iff.mpr, List.flatMap_nil]
  intro piece member
  have none : piece.tokens.length = 0 :=
    List.sum_eq_zero_iff.mp empty _ (List.mem_map.mpr ⟨piece, member, rfl⟩)
  have idle : piece.state = 0 := by simp [Piece.state, Piece.live, List.eq_nil_of_length_eq_zero none]
  simpa [idle] using Ne.symm real

theorem commitPleBatch_eq (prepared : Prepared pool pieces batch rows) (sized : pool.Sized model)
    (distinct : ((pieces.map Piece.state).filter (· ≠ 0)).Nodup) (forwardBatch : ForwardBatch) :
    ∃ next, commitPleBatch pool batch forwardBatch = .ok next ∧ Committed model pool forwardBatch pieces next := by
  rw [commitPleBatch]
  simp only [prepared.context, prepared.processed, if_neg prepared.notVerify, prepared.states]
  by_cases empty : (pieceLengths pieces).sum = 0
  · rw [if_pos empty]
    refine ⟨pool, rfl, sized, rfl, fun slot real _ => ?_⟩
    rw [carried_eq_nil empty real, List.append_nil, rtake_of_length (sized.context slot)]
  rw [if_neg empty]
  have set := @committed_of_set model pool forwardBatch pieces sized distinct
  cases fast : batch.useDecodeFastPath with
  | true =>
      simp only [if_true, prepared.drop_rowWidth sized fast]
      cases tracked : pleTrackTargets forwardBatch batch with
      | none => exact ⟨_, rfl, set⟩
      | some track => exact ⟨_, rfl, set.track tracked (length_nextHistories sized)⟩
  | false =>
      have fits : ¬ ∃ length ∈ batch.lengths, batch.rowWidth < length := by
        intro wide
        obtain ⟨length, member, beyond⟩ := wide
        rw [prepared.covers.same] at member
        exact absurd (prepared.covers.fits length member) (Nat.not_le.mpr beyond)
      simp only [Bool.false_eq_true, if_false, if_neg fits, prepared.gather_lengths sized]
      cases tracked : pleTrackTargets forwardBatch batch with
      | none => exact ⟨_, rfl, set⟩
      | some track =>
          exact ⟨_, rfl, set.track tracked (prepared.gather_width sized (trackTargets_offsets prepared tracked))⟩

/-- A pass gives every layer the hash of every token's window and moves the
histories on by the tokens it carried. -/
theorem forward_carries (faithful : fused.Faithful) (large : 2 ≤ model.ngramSize) (sized : pool.Sized model)
    (carries : Carries pool inputIds forwardBatch pieces) (calls : List LayerTables)
    (answered : Tokenless forwardBatch pieces → calls = []) :
    ∃ (windows : List (List Token)) (next : ReqToTokenPool), forward fused model pool inputIds forwardBatch calls =
        .ok (calls.map fun tables => windows.map (model.embedding tables).windowIds, next) ∧
      Committed model pool forwardBatch pieces next ∧
      ∀ (row offset : Nat) (piece : Piece), pieces[row]? = some piece → offset < piece.tokens.length →
        windows[rowStart (pieceLengths pieces) row + offset]? =
          some ((pool.context piece.state ++ piece.tokens.take (offset + 1)).rtake model.ngramSize) := by
  have clean : Carries { pool with pleWindowCache := none } inputIds forwardBatch pieces :=
    { carries with slots := carries.slots }
  have cleanSized : ({ pool with pleWindowCache := none } : ReqToTokenPool).Sized model := ⟨sized.width, sized.context⟩
  obtain ⟨batch, rows, made, prepared, -, unfolds⟩ := prepare_carries clean model.fusion model.eosTokenId cleanSized.width
  have wide : calls ≠ [] → batch.Unfolds pool.contextLen model.ngramSize := by
    intro some_
    exact unfolds.mpr fun tokenless => some_ (answered tokenless)
  obtain ⟨hashed, ids, kept⟩ := @computeAll_eq model { pool with pleWindowCache := none } _ _ _ faithful (by omega)
    prepared.context (prepared.windows_length cleanSized) calls wide (Or.inl rfl)
  have hashedPrepared : Prepared hashed pieces batch rows := by
    rw [kept]
    exact { prepared with row := prepared.row }
  have hashedSized : hashed.Sized model := by
    rw [kept]
    exact ⟨sized.width, sized.context⟩
  obtain ⟨next, committed, moved⟩ := commitPleBatch_eq hashedPrepared hashedSized carries.distinct forwardBatch
  refine ⟨batch.windows model.ngramSize rows, next, ?_, ?_, ?_⟩
  · simp only [forward, made, ids, committed]
  · rw [kept] at moved
    exact ⟨moved.sized, moved.mambaIndex, moved.context⟩
  · exact fun row offset piece found inside => prepared.windows_getElem? cleanSized found inside

/-- An extend pass without tokens has a context as narrow as the histories, and
the first layer that asks for ids fails. -/
theorem forward_raises (sized : pool.Sized model) (carries : Carries pool inputIds forwardBatch pieces)
    (tokenless : Tokenless forwardBatch pieces) {calls : List LayerTables} (asked : calls ≠ []) :
    forward fused model pool inputIds forwardBatch calls = .error .shape := by
  have clean : Carries { pool with pleWindowCache := none } inputIds forwardBatch pieces :=
    { carries with slots := carries.slots }
  obtain ⟨batch, rows, made, prepared, -, unfolds⟩ := prepare_carries clean model.fusion model.eosTokenId sized.width
  have narrow : ¬ batch.Unfolds pool.contextLen model.ngramSize := fun wide => unfolds.mp wide tokenless
  obtain ⟨tables, rest, rfl⟩ := List.exists_cons_of_ne_nil asked
  have raised : computeNgramIds fused (model.embedding tables) { pool with pleWindowCache := none } batch =
      .error .shape := by
    rw [computeNgramIds, prepared.context]
    exact if_neg narrow
  simp only [forward, made, computeAll, raised]

end FlashNext.NGram
