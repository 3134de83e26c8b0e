import FlashNext.NGram.Passes
import FlashNext.NGram.ShortConv
import FlashNext.NGram.Windows

namespace FlashNext.NGram

open FlashNext.Data

def ReqToTokenPool.after (pool : ReqToTokenPool) (slot : Nat) (tokens : List Token) : List Token :=
  (pool.context slot ++ tokens).rtake pool.contextLen

section Layer

variable {α β : Type} {layer : ConvLayer α β} {cache : ConvCache β}

def ConvLayer.after (layer : ConvLayer α β) (state : ConvState β) (inputs : List (Nat → α)) : ConvState β :=
  fun channel column =>
    layer.store (if inputs.length + column < layer.stateLen then layer.load (state channel (inputs.length + column))
      else inputs.getD (inputs.length + column - layer.stateLen) (fun _ => layer.zero) channel)

def ConvLayer.Agree (layer : ConvLayer α β) (first second : ConvState β) : Prop :=
  ∀ channel column, column < layer.stateLen → first channel column = second channel column

/-- The states hold what was stored to them in the layer's dtype. -/
def ConvCache.Stored (cache : ConvCache β) (layer : ConvLayer α β) : Prop :=
  ∀ slot channel column, column < layer.stateLen → ∃ value, cache.state slot channel column = layer.store value

theorem ConvLayer.Agree.trans {first second third : ConvState β} (left : layer.Agree first second)
    (right : layer.Agree second third) : layer.Agree first third :=
  fun channel column inside => (left channel column inside).trans (right channel column inside)

theorem ConvLayer.Agree.symm {first second : ConvState β} (same : layer.Agree first second) : layer.Agree second first :=
  fun channel column inside => (same channel column inside).symm

theorem ConvCache.Stored.after_nil (stored : cache.Stored layer) (slot : Nat) :
    layer.Agree (layer.after (cache.state slot) []) (cache.state slot) := by
  intro channel column inside
  obtain ⟨value, same⟩ := stored slot channel column inside
  rw [ConvLayer.after, List.length_nil, Nat.zero_add, if_pos inside, same, layer.roundTrip]

/-- The state holds what was stored to it in the layer's dtype. -/
def ConvLayer.Holds (layer : ConvLayer α β) (state : ConvState β) : Prop :=
  ∀ channel column, column < layer.stateLen → ∃ value, state channel column = layer.store value

theorem gatherAt_holds {input : Nat → Nat → Nat → α} {offsets : List Nat} {state : ConvState β}
    (member : state ∈ layer.gatherAt input offsets) : layer.Holds state := by
  obtain ⟨row, _, same⟩ := List.mem_mapIdx.mp member
  intro channel column _
  exact ⟨_, (congrFun (congrFun same channel) column).symm⟩

theorem ConvCache.Stored.setState (stored : cache.Stored layer) (indices : List Nat) {states : List (ConvState β)}
    (held : ∀ state ∈ states, layer.Holds state) : (cache.setState indices states).Stored layer := by
  have slots : ∀ slot, layer.Holds (storeAll cache.state (indices.zip states) slot) :=
    storeAll_forall stored fun _ member => held _ (List.of_mem_zip member).2
  exact slots

/-- The fused kernel stores as the eager path does. -/
def FusedState.Stores (fused : FusedState α β) (layer : ConvLayer α β) : Prop :=
  ∀ memory indices x input state, fused memory indices x = some (input, state) →
    (∀ slot, layer.Holds (memory slot)) → ∀ slot, layer.Holds (state slot)

theorem ConvCache.Stored.shortConv {fused : FusedState α β} {x output : List (Nat → α)} {forwardBatch : ForwardBatch}
    {batch : PleBatch} {next : ConvCache β} (stored : cache.Stored layer) (stores : fused.Stores layer)
    (ran : shortConv layer fused cache x forwardBatch batch = .ok (output, next)) : next.Stored layer := by
  have gathered : ∀ (start : ConvCache β) (indices offsets : List Nat) (input : Nat → Nat → Nat → α),
      start.Stored layer → (start.setState indices (layer.gatherAt input offsets)).Stored layer :=
    fun start indices offsets input before => before.setState indices fun _ member => gatherAt_holds member
  unfold NGram.shortConv at ran
  split at ran
  · cases ran
    exact stored
  · split at ran
    · cases decoded : fused cache.state batch.stateIndices x with
      | none =>
          rw [decoded] at ran
          dsimp only at ran
          split at ran
          · cases ran
            exact gathered _ _ _ _ stored
          · cases ran
            exact gathered _ _ _ _ (gathered _ _ _ _ stored)
      | some result =>
          obtain ⟨input, state⟩ := result
          have kept : ConvCache.Stored { cache with state := state } layer := stores _ _ _ _ _ decoded stored
          rw [decoded] at ran
          dsimp only at ran
          split at ran
          · cases ran
            exact kept
          · cases ran
            exact gathered _ _ _ _ kept
    · split at ran
      · cases ran
      · dsimp only at ran
        split at ran
        · cases ran
          exact stored
        · split at ran
          · cases ran
          · split at ran
            · cases ran
              exact gathered _ _ _ _ stored
            · cases ran
              exact gathered _ _ _ _ (gathered _ _ _ _ stored)

theorem ConvCache.Stored.sidePass {fused : FusedState α β} {model : Model} {pool : ReqToTokenPool} {inputIds : List Token}
    {x : List (Nat → α)} {forwardBatch : ForwardBatch} {next : ReqToTokenPool × ConvCache β} (stored : cache.Stored layer)
    (stores : fused.Stores layer) (ran : sidePass layer fused model pool cache inputIds x forwardBatch = .ok next) :
    next.2.Stored layer := by
  unfold NGram.sidePass at ran
  split at ran
  · cases ran
  · cases ran
    exact stored
  · split at ran
    · cases ran
    · rename_i convolved
      split at ran
      · cases ran
      · cases ran
        exact stored.shortConv stores convolved

theorem ReqToTokenPool.after_nil {pool : ReqToTokenPool} {slot : Nat}
    (width : (pool.context slot).length = pool.contextLen) : pool.after slot [] = pool.context slot := by
  rw [ReqToTokenPool.after, List.append_nil, rtake_of_length width]

variable {pool : ReqToTokenPool} {inputIds : List Token} {forwardBatch : ForwardBatch} {batch : PleBatch}
  {slots : List Nat} {data rows : List (List Token)} {spare : List Token} {inputs : List (List (Nat → α))}
  {spareInputs : List (Nat → α)} {index state offset : Nat}

structure At (batch : PleBatch) (slots : List Nat) (data : List (List Token)) (index state offset : Nat)
    (tokens : List Token) : Prop where
  row : data[index]? = some tokens
  slot : slots[index]? = some state
  carried : offset ≤ tokens.length
  within : offset ≤ batch.lengths.getD index 0
  wide : offset ≤ batch.rowWidth

theorem Laid.window_at (laid : Laid pool batch slots data spare rows) (width : (pool.context state).length = pool.contextLen)
    {tokens : List Token} (place : At batch slots data index state offset tokens) :
    ∃ row, rows[index]? = some row ∧ window row offset pool.contextLen = pool.after state (tokens.take offset) := by
  obtain ⟨filling, row, _⟩ := laid.row index tokens state offset place.row place.slot place.carried place.within place.wide
  have length : (tokens.take offset).length = offset := by
    rw [List.length_take, Nat.min_eq_left place.carried]
  have gathered := @window_leading _ offset (pool.context state) (tokens.take offset) filling length.ge
  rw [width, List.take_take, Nat.min_self] at gathered
  exact ⟨_, row, gathered⟩

theorem Laid.gather_at (laid : Laid pool batch slots data spare rows) (width : (pool.context state).length = pool.contextLen)
    {tokens : List Token} (place : At batch slots data index state offset tokens) {offsets : List Nat}
    (given : offsets[index]? = some offset) :
    (gatherContexts pool.contextLen rows offsets)[index]? = some (pool.after state (tokens.take offset)) := by
  obtain ⟨row, found, gathered⟩ := laid.window_at width place
  rw [gatherContexts, List.getElem?_zipWith, found, given]
  exact congrArg some gathered

/-- The inputs of a pass, row by row as its tokens are. -/
structure Feeds (x : List (Nat → α)) (data : List (List Token)) (spare : List Token) (inputs : List (List (Nat → α)))
    (spareInputs : List (Nat → α)) : Prop where
  whole : x = inputs.flatten ++ spareInputs
  strides : inputs.map List.length = data.map List.length
  spare : spareInputs.length = spare.length

theorem Feeds.length {x : List (Nat → α)} (feeds : Feeds x data spare inputs spareInputs) {tokens : List Token}
    {values : List (Nat → α)} (found : data[index]? = some tokens) (fed : inputs[index]? = some values) :
    values.length = tokens.length := by
  have same := congrArg (fun lengths : List Nat => lengths[index]?) feeds.strides
  simp only [List.getElem?_map, found, fed, Option.map_some, Option.some_inj] at same
  exact same

theorem Feeds.ne_nil {x : List (Nat → α)} (feeds : Feeds x data spare inputs spareInputs) {tokens : List Token}
    {values : List (Nat → α)} (found : data[index]? = some tokens) (fed : inputs[index]? = some values)
    (some_ : tokens ≠ []) : x ≠ [] := by
  intro none
  rw [feeds.whole] at none
  have empty := List.flatten_eq_nil_iff.mp (List.append_eq_nil_iff.mp none).1 values (List.mem_of_getElem? fed)
  have length := feeds.length found fed
  rw [empty, List.length_nil] at length
  exact some_ (List.eq_nil_of_length_eq_zero length.symm)

theorem Laid.paddedSeq_at (laid : Laid pool batch slots data spare rows) {x : List (Nat → α)}
    (feeds : Feeds x data spare inputs spareInputs) {values : List (Nat → α)} (found : inputs[index]? = some values)
    {column : Nat} {value : Nat → α} (inside : values[column]? = some value) :
    layer.paddedSeq batch x index column = value := by
  have bound := (List.getElem?_eq_some_iff.mp inside).1
  have stride : (data.map List.length).getD index 0 = values.length := by
    rw [← feeds.strides, List.getD_eq_getElem?_getD, List.getElem?_map, found]
    rfl
  have position := flatten_rowStart found bound
  rw [inside, feeds.strides] at position
  apply laid.finds.stored (by rw [stride]; exact bound)
  rw [feeds.whole, List.getElem?_append_left (List.getElem?_eq_some_iff.mp position).1, position]

theorem Laid.convInput_at (laid : Laid pool batch slots data spare rows) {x : List (Nat → α)}
    (feeds : Feeds x data spare inputs spareInputs) {values : List (Nat → α)} (found : inputs[index]? = some values)
    (slot : slots[index]? = some state) (carried : offset ≤ values.length) :
    layer.Agree (fun channel column => layer.store (layer.convInput cache batch x index channel (offset + column)))
      (layer.after (cache.state state) (values.take offset)) := by
  intro channel column inside
  have length : (values.take offset).length = offset := by
    rw [List.length_take, Nat.min_eq_left carried]
  have own : batch.stateIndices.getD index 0 = state := by
    rw [laid.states, List.getD_eq_getElem?_getD, slot, Option.getD_some]
  dsimp only
  rw [ConvLayer.after, ConvLayer.convInput, own, length]
  by_cases before : offset + column < layer.stateLen
  · rw [if_pos before, if_pos before]
  · have early : offset + column - layer.stateLen < offset := by omega
    have listed : values[offset + column - layer.stateLen]? = some values[offset + column - layer.stateLen] :=
      List.getElem?_eq_getElem (by omega)
    rw [if_neg before, if_neg before, laid.paddedSeq_at feeds found listed, List.getD_eq_getElem?_getD,
      List.getElem?_take_of_lt early, listed, Option.getD_some]

end Layer

section Writes

variable {σ : Type} {memory : Nat → σ} {states : List Nat} {working : List σ} {track : Option (List Nat × List Nat)}
  {snapshots : List Nat → List σ} {slot row : Nat} {value : σ}

def afterWrites (memory : Nat → σ) (states : List Nat) (working : List σ) (track : Option (List Nat × List Nat))
    (snapshots : List Nat → List σ) : Nat → σ :=
  match track with
  | none => storeAll memory (states.zip working)
  | some (targets, offsets) => storeAll (storeAll memory (states.zip working)) (targets.zip (snapshots offsets))

theorem afterWrites_untracked (untracked : ∀ targets offsets, track = some (targets, offsets) → slot ∉ targets) :
    afterWrites memory states working track snapshots slot = storeAll memory (states.zip working) slot := by
  cases track with
  | none => rfl
  | some track =>
      obtain ⟨targets, offsets⟩ := track
      exact storeAll_zip_other _ (untracked targets offsets rfl)

theorem afterWrites_target {targets offsets : List Nat} (tracked : track = some (targets, offsets))
    (target : targets[row]? = some slot) (once : ∀ other : Nat, targets[other]? = some slot → other = row)
    (given : (snapshots offsets)[row]? = some value) :
    afterWrites memory states working track snapshots slot = value := by
  rw [tracked]
  exact storeAll_zip target given once

end Writes

section Track

variable {forwardBatch : ForwardBatch} {batch : PleBatch} {pieces : List Piece} {row target : Nat} {boundary : Int}

/-- The snapshot of a row goes to a slot of its own, from a boundary. -/
structure Tracks (forwardBatch : ForwardBatch) (row target : Nat) (boundary : Int) : Prop where
  real : target ≠ 0
  index : ∃ indices, forwardBatch.mambaTrackIndices = some indices ∧ indices[row]? = some target
  unmasked : ∃ mask, forwardBatch.mambaTrackMask = some mask ∧ mask[row]? = some true
  aligned : ∃ boundaries, forwardBatch.mambaTrackAlignedLens = some boundaries ∧ boundaries[row]? = some boundary
  alone : ∀ indices mask other, forwardBatch.mambaTrackIndices = some indices → forwardBatch.mambaTrackMask = some mask →
    mask[other]? = some true → indices[other]? = some target → other = row

theorem Tracks.targets (tracks : Tracks forwardBatch row target boundary) (mode : batch.mode = .extend) {length : Nat}
    (found : batch.lengths[row]? = some length) :
    ∃ targets offsets, pleTrackTargets forwardBatch batch = some (targets, offsets) ∧ targets[row]? = some target ∧
      (∀ other : Nat, targets[other]? = some target → other = row) ∧
      offsets[row]? = some (min (max boundary 0).toNat length) := by
  obtain ⟨indices, indexed, index⟩ := tracks.index
  obtain ⟨mask, masked, unmasked⟩ := tracks.unmasked
  obtain ⟨boundaries, aligned, place⟩ := tracks.aligned
  have inside := (List.getElem?_eq_some_iff.mp found).1
  have tracked : pleTrackTargets forwardBatch batch = some
      (List.zipWith (fun (tracked : Bool) slot => if tracked then slot else 0) (mask.take batch.lengths.length)
        (indices.take batch.lengths.length),
      List.zipWith (fun length boundary => min (max boundary 0).toNat length) batch.lengths
        (boundaries.take batch.lengths.length)) := by
    rw [pleTrackTargets, indexed, masked, aligned]
    simp only [mode, reduceCtorEq, if_false]
    rfl
  refine ⟨_, _, tracked, ?_, ?_, ?_⟩
  · rw [List.getElem?_zipWith, List.getElem?_take_of_lt inside, List.getElem?_take_of_lt inside, index, unmasked]
    rfl
  · intro other listed
    rw [List.getElem?_zipWith_eq_some] at listed
    obtain ⟨flag, slot, flagged, placed, value⟩ := listed
    cases flag with
    | false => exact absurd value.symm tracks.real
    | true =>
        have within : other < batch.lengths.length := by
          by_contra outside
          rw [List.getElem?_take_eq_none (by omega)] at flagged
          contradiction
        rw [List.getElem?_take_of_lt within] at flagged placed
        exact tracks.alone indices mask other indexed masked flagged (placed.trans (congrArg some value))
  · rw [List.getElem?_zipWith, found, List.getElem?_take_of_lt inside, place]

theorem state_once (distinct : ((pieces.map Piece.state).filter (· ≠ 0)).Nodup) {piece : Piece}
    (found : pieces[row]? = some piece) (real : piece.state ≠ 0) {other : Nat}
    (there : (pieces.map Piece.state)[other]? = some piece.state) : other = row := by
  have here : (pieces.map Piece.state)[row]? = some piece.state := by rw [List.getElem?_map, found, Option.map_some]
  exact index_unique distinct (decide_eq_true real) there here

end Track

section Pass

variable {α β : Type} {layer : ConvLayer α β} {fused : FusedState α β} {model : Model} {pool next : ReqToTokenPool}
  {cache left : ConvCache β} {inputIds : List Token} {forwardBatch : ForwardBatch} {batch : PleBatch} {slots : List Nat}
  {data rows : List (List Token)} {spare : List Token} {x output : List (Nat → α)} {inputs : List (List (Nat → α))}
  {spareInputs : List (Nat → α)}

theorem Laid.inputCount (laid : Laid pool batch slots data spare rows) (feeds : Feeds x data spare inputs spareInputs) :
    x.length = batch.processedTokens := by
  have strides := congrArg List.sum feeds.strides
  rw [← List.length_flatten, ← List.length_flatten] at strides
  rw [laid.processed, feeds.whole, List.length_append, List.length_append, strides, feeds.spare]

theorem Laid.busy (laid : Laid pool batch slots data spare rows) (feeds : Feeds x data spare inputs spareInputs)
    (some_ : x ≠ []) : batch.processedTokens ≠ 0 := by
  rw [← laid.inputCount feeds]
  exact fun empty => some_ (List.eq_nil_of_length_eq_zero empty)

theorem Laid.fitted (laid : Laid pool batch slots data spare rows) (feeds : Feeds x data spare inputs spareInputs) :
    ¬ (¬ batch.toLayout.InBounds ∨ x.length ≠ batch.reqIndices.length) := by
  rw [laid.reqCount, ← laid.processed, laid.inputCount feeds]
  simpa using laid.inBounds

variable (made : preparePleBatch model.fusion pool inputIds forwardBatch (some model.ngramSize) (some model.eosTokenId) =
  .ok (some batch))
include made

theorem Laid.sidePass_idle (laid : Laid pool batch slots data spare rows) (feeds : Feeds x data spare inputs spareInputs)
    (none : x = []) : sidePass layer fused model pool cache inputIds x forwardBatch = .ok (pool, cache) := by
  have idle : batch.processedTokens = 0 := by rw [← laid.inputCount feeds, none, List.length_nil]
  rw [sidePass, made]
  dsimp only
  rw [shortConv, none, List.isEmpty_nil, if_pos rfl]
  dsimp only
  rw [commitPleBatch, laid.context]
  simp only [idle, if_true]

theorem sidePass_eq (convolved : shortConv layer fused cache x forwardBatch batch = .ok (output, left))
    (committed : commitPleBatch pool batch forwardBatch = .ok next) :
    sidePass layer fused model pool cache inputIds x forwardBatch = .ok (next, left) := by
  rw [sidePass, made]
  dsimp only
  rw [convolved]
  dsimp only
  rw [committed]

end Pass

section Extend

variable {α β : Type} {layer : ConvLayer α β} {fused : FusedState α β} {model : Model} {pool : ReqToTokenPool}
  {cache : ConvCache β} {inputIds : List Token} {forwardBatch : ForwardBatch} {pieces : List Piece} {spare : List Token}
  {x : List (Nat → α)} {inputs : List (List (Nat → α))} {spareInputs : List (Nat → α)}

/-- The histories after an extend pass with these rows. -/
def historiesAfter (pool : ReqToTokenPool) (forwardBatch : ForwardBatch) (batch : PleBatch) (rows : List (List Token)) :
    ReqToTokenPool :=
  { pool with
    context := afterWrites pool.context batch.stateIndices (gatherContexts pool.contextLen rows batch.lengths)
      (pleTrackTargets forwardBatch batch) (gatherContexts pool.contextLen rows) }

def ConvLayer.statesAfter (layer : ConvLayer α β) (cache : ConvCache β) (forwardBatch : ForwardBatch) (batch : PleBatch)
    (x : List (Nat → α)) : ConvCache β :=
  { cache with
    state := afterWrites cache.state batch.stateIndices
      (layer.gatherAt (layer.convInput cache batch x) batch.lengths)
      (pleTrackTargets forwardBatch batch) (layer.gatherAt (layer.convInput cache batch x)) }

theorem ExtendPass.run (pass : ExtendPass pool inputIds forwardBatch pieces spare) (sized : pool.Sized model)
    (feeds : Feeds x (pieces.map Piece.tokens) spare inputs spareInputs) :
    ∃ batch rows, Laid pool batch (pieces.map Piece.state) (pieces.map Piece.tokens) spare rows ∧ batch.mode = .extend ∧
      batch.lengths = pieceLengths pieces ∧ (∀ length ∈ pieceLengths pieces, length ≤ batch.rowWidth) ∧
      sidePass layer fused model pool cache inputIds x forwardBatch =
        if x = [] then .ok (pool, cache)
        else .ok (historiesAfter pool forwardBatch batch rows, layer.statesAfter cache forwardBatch batch x) := by
  obtain ⟨batch, rows, made, laid, mode, lengths, fits⟩ := pass.prepare model.fusion model.eosTokenId sized.width
  refine ⟨batch, rows, laid, mode, lengths, fits, ?_⟩
  have narrow : ¬ ∃ length ∈ batch.lengths, batch.rowWidth < length := by
    intro wide
    obtain ⟨length, member, beyond⟩ := wide
    rw [lengths] at member
    exact absurd (fits length member) (Nat.not_le.mpr beyond)
  by_cases none : x = []
  · rw [if_pos none, laid.sidePass_idle made feeds none]
  · have some_ : x.isEmpty = false := by simpa using none
    have convolved : ∃ output, shortConv layer fused cache x forwardBatch batch =
        .ok (output, layer.statesAfter cache forwardBatch batch x) := by
      rw [shortConv, some_]
      simp only [laid.eager, Bool.false_eq_true, if_false, laid.fitted feeds, mode, reduceCtorEq, narrow]
      cases track : pleTrackTargets forwardBatch batch with
      | none =>
          rw [ConvLayer.statesAfter, track]
          exact ⟨_, rfl⟩
      | some targets =>
          rw [ConvLayer.statesAfter, track]
          exact ⟨_, rfl⟩
    have committed : commitPleBatch pool batch forwardBatch = .ok (historiesAfter pool forwardBatch batch rows) := by
      rw [commitPleBatch, laid.context]
      simp only [laid.busy feeds none, if_false, mode, reduceCtorEq, laid.eager, Bool.false_eq_true, narrow]
      cases track : pleTrackTargets forwardBatch batch with
      | none =>
          rw [historiesAfter, track]
          rfl
      | some targets =>
          rw [historiesAfter, track]
          rfl
    obtain ⟨output, convolved⟩ := convolved
    rw [if_neg none, sidePass_eq made convolved committed]

theorem ExtendPass.returns (pass : ExtendPass pool inputIds forwardBatch pieces spare) (sized : pool.Sized model)
    (feeds : Feeds x (pieces.map Piece.tokens) spare inputs spareInputs) :
    ∃ next, sidePass layer fused model pool cache inputIds x forwardBatch = .ok next := by
  obtain ⟨batch, rows, _, _, _, _, ran⟩ := pass.run sized feeds
  rw [ran]
  split
  · exact ⟨_, rfl⟩
  · exact ⟨_, rfl⟩

theorem gatherAt_getElem? {input : Nat → Nat → Nat → α} {offsets : List Nat} {row offset : Nat}
    (given : offsets[row]? = some offset) :
    (layer.gatherAt input offsets)[row]? =
      some fun channel column => layer.store (input row channel (offset + column)) := by
  rw [ConvLayer.gatherAt, List.getElem?_mapIdx, given, Option.map_some]

theorem lengths_getElem? {row : Nat} {piece : Piece} (found : pieces[row]? = some piece) :
    (pieceLengths pieces)[row]? = some piece.tokens.length := by
  rw [pieceLengths, List.getElem?_map, found, Option.map_some]

theorem at_row {batch : PleBatch} {row offset : Nat} {piece : Piece} (lengths : batch.lengths = pieceLengths pieces)
    (fits : ∀ length ∈ pieceLengths pieces, length ≤ batch.rowWidth) (found : pieces[row]? = some piece)
    (bound : offset ≤ piece.tokens.length) :
    At batch (pieces.map Piece.state) (pieces.map Piece.tokens) row piece.state offset piece.tokens where
  row := by rw [List.getElem?_map, found, Option.map_some]
  slot := by rw [List.getElem?_map, found, Option.map_some]
  carried := bound
  within := by rwa [lengths, pieceLengths_getD found]
  wide := bound.trans (fits _ (List.mem_of_getElem? (lengths_getElem? found)))

variable {row target : Nat} {boundary : Int} {piece : Piece} {values : List (Nat → α)}
  {next : ReqToTokenPool × ConvCache β}

section Row

variable (pass : ExtendPass pool inputIds forwardBatch pieces spare) (sized : pool.Sized model)
  (feeds : Feeds x (pieces.map Piece.tokens) spare inputs spareInputs)
  (ran : sidePass layer fused model pool cache inputIds x forwardBatch = .ok next)
include pass sized feeds ran

theorem ExtendPass.snapshot (found : pieces[row]? = some piece) (fed : inputs[row]? = some values)
    (some_ : piece.tokens ≠ []) (tracks : Tracks forwardBatch row target boundary) :
    next.1.context target =
        pool.after piece.state (piece.tokens.take (min (max boundary 0).toNat piece.tokens.length)) ∧
      layer.Agree (next.2.state target) (layer.after (cache.state piece.state)
        (values.take (min (max boundary 0).toNat piece.tokens.length))) := by
  obtain ⟨batch, rows, laid, mode, lengths, fits, done⟩ := pass.run sized feeds
  have bound : min (max boundary 0).toNat piece.tokens.length ≤ piece.tokens.length := min_le_right _ _
  have position := at_row lengths fits found bound
  rw [done, if_neg (feeds.ne_nil position.row fed some_)] at ran
  cases ran
  obtain ⟨targets, offsets, tracked, index, once, place⟩ := tracks.targets mode (lengths ▸ lengths_getElem? found)
  constructor
  · exact afterWrites_target tracked index once (laid.gather_at (sized.context _) position place)
  · have state : (layer.statesAfter cache forwardBatch batch x).state target = _ :=
      afterWrites_target tracked index once (gatherAt_getElem? place)
    dsimp only
    rw [state]
    exact laid.convInput_at feeds fed position.slot (by rw [feeds.length position.row fed]; exact bound)

theorem ExtendPass.working (found : pieces[row]? = some piece) (fed : inputs[row]? = some values)
    (real : piece.state ≠ 0) (untracked : Untracked forwardBatch piece.state) :
    next.1.context piece.state = pool.after piece.state piece.tokens ∧
      layer.Agree (next.2.state piece.state) (layer.after (cache.state piece.state) values) := by
  obtain ⟨batch, rows, laid, mode, lengths, fits, done⟩ := pass.run sized feeds
  have some_ : piece.tokens ≠ [] := by
    intro none
    simp [Piece.state, Piece.live, none] at real
  have position := at_row lengths fits found (le_refl _)
  rw [done, if_neg (feeds.ne_nil position.row fed some_)] at ran
  cases ran
  have length := lengths ▸ lengths_getElem? found
  have apart : ∀ targets offsets, pleTrackTargets forwardBatch batch = some (targets, offsets) →
      piece.state ∉ targets := fun targets offsets tracked => not_mem_trackTargets untracked real tracked
  have slot : batch.stateIndices[row]? = some piece.state := by
    rw [laid.states]
    exact position.slot
  have once : ∀ other : Nat, batch.stateIndices[other]? = some piece.state → other = row := by
    rw [laid.states]
    exact fun other there => state_once pass.distinct found real there
  constructor
  · have gathered := laid.gather_at (sized.context _) position length
    rw [List.take_length] at gathered
    exact (afterWrites_untracked apart).trans (storeAll_zip slot gathered once)
  · have gathered : layer.Agree (fun channel column =>
        layer.store (layer.convInput cache batch x row channel (piece.tokens.length + column)))
        (layer.after (cache.state piece.state) (values.take piece.tokens.length)) :=
      laid.convInput_at feeds fed position.slot (feeds.length position.row fed).ge
    have state : (layer.statesAfter cache forwardBatch batch x).state piece.state = _ :=
      (afterWrites_untracked apart).trans (storeAll_zip slot (gatherAt_getElem? length) once)
    rw [List.take_of_length_le (feeds.length position.row fed).le] at gathered
    dsimp only
    rw [state]
    exact gathered

theorem ExtendPass.idle {slot : Nat} (real : slot ≠ 0) (free : ∀ piece ∈ pieces, piece.state ≠ slot)
    (untracked : Untracked forwardBatch slot) :
    next.1.context slot = pool.context slot ∧ next.2.state slot = cache.state slot := by
  obtain ⟨batch, rows, laid, mode, lengths, fits, done⟩ := pass.run sized feeds
  rw [done] at ran
  split at ran
  · cases ran
    exact ⟨rfl, rfl⟩
  · cases ran
    have apart : ∀ targets offsets, pleTrackTargets forwardBatch batch = some (targets, offsets) → slot ∉ targets :=
      fun targets offsets tracked => not_mem_trackTargets untracked real tracked
    have absent : slot ∉ batch.stateIndices := by
      rw [laid.states]
      intro member
      obtain ⟨piece, listed, same⟩ := List.mem_map.mp member
      exact free piece listed same
    constructor
    · exact (afterWrites_untracked apart).trans (storeAll_zip_other _ absent)
    · exact (afterWrites_untracked apart).trans (storeAll_zip_other _ absent)

end Row

def Piece.truncate (offset : Nat) (piece : Piece) : Piece := { piece with tokens := piece.tokens.take offset }

theorem ExtendPass.state_eq (pass : ExtendPass pool inputIds forwardBatch pieces spare)
    (found : pieces[row]? = some piece) (some_ : piece.tokens ≠ []) : piece.state = piece.slot := by
  have unpadded : piece.padded = false := by
    by_contra padded
    exact some_ (pass.rows.padding piece (List.mem_of_getElem? found) (by simpa using padded))
  simp [Piece.state, Piece.live, unpadded, some_]

theorem truncate_row (offset : Nat) (found : pieces[row]? = some piece) :
    (pieces.modify row (Piece.truncate offset))[row]? = some (piece.truncate offset) := by
  rw [List.getElem?_modify, found]
  simp

theorem ExtendPass.free_of_empty (pass : ExtendPass pool inputIds forwardBatch pieces spare)
    (found : pieces[row]? = some piece) (some_ : piece.tokens ≠ []) (real : piece.slot ≠ 0) :
    ∀ other ∈ pieces.modify row (Piece.truncate 0), other.state ≠ piece.slot := by
  intro other member same
  have own := pass.state_eq found some_
  obtain ⟨index, listed⟩ := List.mem_iff_getElem?.mp member
  rw [List.getElem?_modify] at listed
  by_cases here : row = index
  · subst here
    rw [found] at listed
    simp only [if_true, Option.map_eq_map, Option.map_some, Option.some_inj] at listed
    rw [← listed] at same
    simp [Piece.truncate, Piece.state, Piece.live] at same
    exact real same.symm
  · simp only [if_neg here, Option.map_eq_map, Option.map_id'] at listed
    have there : (pieces.map Piece.state)[index]? = some piece.state := by
      rw [List.getElem?_map, listed, Option.map_some, same, own]
    exact here (state_once pass.distinct found (own ▸ real) there).symm

variable {inputIds' : List Token} {forwardBatch' : ForwardBatch} {spare' : List Token} {x' : List (Nat → α)}
  {spareInputs' : List (Nat → α)} {next' : ReqToTokenPool × ConvCache β}

theorem ExtendPass.truncated {offset : Nat} (pass : ExtendPass pool inputIds forwardBatch pieces spare)
    (sized : pool.Sized model) (stored : cache.Stored layer) (found : pieces[row]? = some piece)
    (fed : inputs[row]? = some values) (some_ : piece.tokens ≠ []) (real : piece.slot ≠ 0)
    (pass' : ExtendPass pool inputIds' forwardBatch' (pieces.modify row (Piece.truncate offset)) spare')
    (feeds' : Feeds x' ((pieces.modify row (Piece.truncate offset)).map Piece.tokens) spare'
      (inputs.modify row (List.take offset)) spareInputs')
    (untracked : Untracked forwardBatch' piece.slot)
    (ran' : sidePass layer fused model pool cache inputIds' x' forwardBatch' = .ok next') :
    next'.1.context piece.slot = pool.after piece.slot (piece.tokens.take offset) ∧
      layer.Agree (next'.2.state piece.slot) (layer.after (cache.state piece.slot) (values.take offset)) := by
  by_cases none : offset = 0
  · subst none
    obtain ⟨context, state⟩ := pass'.idle sized feeds' ran' real (pass.free_of_empty found some_ real) untracked
    rw [List.take_zero, List.take_zero, context, state, ReqToTokenPool.after_nil (sized.context _)]
    exact ⟨rfl, (stored.after_nil piece.slot).symm⟩
  · have row' := truncate_row offset found
    have fed' : (inputs.modify row (List.take offset))[row]? = some (values.take offset) := by
      rw [List.getElem?_modify, fed]
      simp
    have kept : (piece.truncate offset).tokens ≠ [] := by
      rw [Piece.truncate]
      intro empty
      rcases List.take_eq_nil_iff.mp empty with zero | nothing
      · exact none zero
      · exact some_ nothing
    have own : (piece.truncate offset).state = piece.slot := pass'.state_eq row' kept
    have working := pass'.working sized feeds' ran' row' fed' (own.symm ▸ real) (own.symm ▸ untracked)
    rw [own] at working
    exact working

end Extend

section Verify

variable {α β : Type} {layer : ConvLayer α β} {fused : FusedState α β} {model : Model} {pool : ReqToTokenPool}
  {cache : ConvCache β} {inputIds : List Token} {forwardBatch : ForwardBatch} {drafts : List DraftRow} {width : Nat}
  {x : List (Nat → α)} {inputs : List (List (Nat → α))} {batch : PleBatch} {rows : List (List Token)}

theorem Laid.valid_at {slots : List Nat} {data : List (List Token)} {spare : List Token} {count row step : Nat}
    (laid : Laid pool batch slots data spare rows) (strides : data.map List.length = List.replicate count width)
    (lengths : batch.lengths.length = count) (stride : batch.rowWidth = width) (inside : row < count)
    (narrow : step < width) :
    ((reshape batch.rowWidth batch.lengths.length batch.validTokens).getD row []).getD step false =
      decide (step < batch.lengths.getD row 0) := by
  have bound : step < (data.map List.length).getD row 0 := by
    rw [strides, List.getD_eq_getElem?_getD, List.getElem?_replicate, if_pos inside, Option.getD_some]
    exact narrow
  obtain ⟨req, column⟩ := laid.finds.place row step bound
  rw [strides, rowStart_replicate inside.le] at req column
  have chunk : (reshape batch.rowWidth batch.lengths.length batch.validTokens).getD row [] =
      (batch.validTokens.drop (row * width)).take width := by
    rw [List.getD_eq_getElem?_getD, stride, lengths, reshape_getElem? _ inside, Option.getD_some]
  have entry : ((batch.validTokens.drop (row * width)).take width)[step]? =
      some (decide (step < batch.lengths.getD row 0)) := by
    rw [List.getElem?_take_of_lt narrow, List.getElem?_drop, laid.valid, List.getElem?_zipWith, req, column]
  rw [chunk, List.getD_eq_getElem?_getD, entry, Option.getD_some]

theorem Laid.stepContexts_at {slots : List Nat} {data : List (List Token)} {spare tokens : List Token} {row step state : Nat}
    (laid : Laid pool batch slots data spare rows) (size : (pool.context state).length = pool.contextLen)
    (position : At batch slots data row state (step + 1) tokens) (eos : Token)
    (flag : ((reshape batch.rowWidth batch.lengths.length batch.validTokens).getD row []).getD step false = true) :
    ((stepContexts batch pool.contextLen eos rows)[row]?.bind (·[step]?)) =
      some (pool.after state (tokens.take (step + 1))) := by
  obtain ⟨context, here, gathered⟩ := laid.window_at size position
  have inside : row < batch.lengths.length := by
    rw [laid.lengthCount]
    exact (List.getElem?_eq_some_iff.mp position.row).1
  have steps : (stepContexts batch pool.contextLen eos rows)[row]? = some ((List.range batch.rowWidth).map fun step =>
      if ((reshape batch.rowWidth batch.lengths.length batch.validTokens).getD row []).getD step false then
        window context (step + 1) pool.contextLen
      else List.replicate pool.contextLen eos) := by
    have chunk := @reshape_getElem? _ batch.rowWidth batch.lengths.length row batch.validTokens inside
    rw [stepContexts, List.getElem?_zipWith, here, List.getD_eq_getElem?_getD, chunk]
    rfl
  rw [steps, Option.bind_some, List.getElem?_map, List.getElem?_range position.wide, Option.map_some, if_pos flag, gathered]

theorem Laid.intermediateState_at {slots : List Nat} {data : List (List Token)} {spare : List Token}
    {spareInputs values : List (Nat → α)} {row step state : Nat} (laid : Laid pool batch slots data spare rows)
    (feeds : Feeds x data spare inputs spareInputs) (fed : inputs[row]? = some values) (slot : slots[row]? = some state)
    (carried : step + 1 ≤ values.length)
    (flag : ((reshape batch.rowWidth batch.lengths.length batch.validTokens).getD row []).getD step false = true) :
    layer.Agree (layer.intermediateState batch (layer.convInput cache batch x) row step)
      (layer.after (cache.state state) (values.take (step + 1))) := by
  have gathered : layer.Agree (fun channel column =>
      layer.store (layer.convInput cache batch x row channel (step + 1 + column)))
      (layer.after (cache.state state) (values.take (step + 1))) := laid.convInput_at feeds fed slot carried
  intro channel column low
  rw [ConvLayer.intermediateState, if_pos flag]
  exact gathered channel column low

def ConvLayer.stepsAfter (layer : ConvLayer α β) (cache : ConvCache β) (batch : PleBatch) (x : List (Nat → α)) :
    ConvCache β :=
  { cache with
    intermediate := cache.intermediate.map fun old row step =>
      if row < batch.lengths.length ∧ step < batch.rowWidth then
        layer.intermediateState batch (layer.convInput cache batch x) row step
      else old row step }

theorem VerifyPass.run (pass : VerifyPass pool inputIds forwardBatch drafts width) (sized : pool.Sized model)
    (feeds : Feeds x (drafts.map DraftRow.tokens) [] inputs []) :
    ∃ batch rows eos, Laid pool batch (drafts.map DraftRow.state) (drafts.map DraftRow.tokens) [] rows ∧
      batch.lengths = drafts.map DraftRow.length ∧ batch.rowWidth = width ∧
      sidePass layer fused model pool cache inputIds x forwardBatch =
        if x = [] then .ok (pool, cache)
        else .ok ({ pool with intermediate := stepContexts batch pool.contextLen eos rows },
          layer.stepsAfter cache batch x) := by
  obtain ⟨batch, rows, made, laid, mode, lengths, stride⟩ := pass.prepare model.fusion model.eosTokenId sized.width
  obtain ⟨eos, named⟩ := Option.ne_none_iff_exists'.mp laid.eos
  refine ⟨batch, rows, eos, laid, lengths, stride, ?_⟩
  by_cases none : x = []
  · rw [if_pos none, laid.sidePass_idle made feeds none]
  · have some_ : x.isEmpty = false := by simpa using none
    have convolved : ∃ output, shortConv layer fused cache x forwardBatch batch =
        .ok (output, layer.stepsAfter cache batch x) := by
      rw [shortConv, some_]
      simp only [laid.eager, Bool.false_eq_true, if_false, laid.fitted feeds, mode, if_true]
      exact ⟨_, rfl⟩
    have committed : commitPleBatch pool batch forwardBatch =
        .ok { pool with intermediate := stepContexts batch pool.contextLen eos rows } := by
      rw [commitPleBatch, laid.context]
      simp only [laid.busy feeds none, if_false, mode, if_true, named]
    obtain ⟨output, convolved⟩ := convolved
    rw [if_neg none, sidePass_eq made convolved committed]

theorem VerifyPass.returns (pass : VerifyPass pool inputIds forwardBatch drafts width) (sized : pool.Sized model)
    (feeds : Feeds x (drafts.map DraftRow.tokens) [] inputs []) :
    ∃ next, sidePass layer fused model pool cache inputIds x forwardBatch = .ok next := by
  obtain ⟨batch, rows, eos, _, _, _, ran⟩ := pass.run sized feeds
  rw [ran]
  split
  · exact ⟨_, rfl⟩
  · exact ⟨_, rfl⟩

theorem VerifyPass.step (pass : VerifyPass pool inputIds forwardBatch drafts width) (sized : pool.Sized model)
    (feeds : Feeds x (drafts.map DraftRow.tokens) [] inputs []) {next : ReqToTokenPool × ConvCache β}
    (ran : sidePass layer fused model pool cache inputIds x forwardBatch = .ok next) {row step : Nat} {draft : DraftRow}
    {values : List (Nat → α)} (found : drafts[row]? = some draft) (fed : inputs[row]? = some values)
    (narrow : step < width) (valid : step < draft.length) :
    (next.1.intermediate[row]?.bind (·[step]?)) = some (pool.after draft.state (draft.tokens.take (step + 1))) ∧
      ∀ buffer, next.2.intermediate = some buffer →
        layer.Agree (buffer row step) (layer.after (cache.state draft.state) (values.take (step + 1))) := by
  obtain ⟨batch, rows, eos, laid, lengths, stride, done⟩ := pass.run sized feeds
  have full := pass.stride draft (List.mem_of_getElem? found)
  have inside : row < drafts.length := (List.getElem?_eq_some_iff.mp found).1
  have count : batch.lengths.length = drafts.length := by rw [lengths, List.length_map]
  have own : batch.lengths.getD row 0 = draft.length := by
    rw [lengths, List.getD_eq_getElem?_getD, List.getElem?_map, found]
    rfl
  have flag := laid.valid_at pass.strides count stride inside narrow
  rw [own, decide_eq_true valid] at flag
  have position : At batch (drafts.map DraftRow.state) (drafts.map DraftRow.tokens) row draft.state (step + 1)
      draft.tokens := by
    refine ⟨?_, ?_, ?_, ?_, ?_⟩
    · rw [List.getElem?_map, found, Option.map_some]
    · rw [List.getElem?_map, found, Option.map_some]
    · rw [full]
      exact narrow
    · rw [own]
      exact valid
    · rw [stride]
      exact narrow
  have length := feeds.length position.row fed
  have some_ : draft.tokens ≠ [] := by
    intro none
    rw [none, List.length_nil] at full
    omega
  rw [done, if_neg (feeds.ne_nil position.row fed some_)] at ran
  cases ran
  constructor
  · exact laid.stepContexts_at (sized.context _) position eos flag
  · intro buffer kept
    have held : (layer.stepsAfter cache batch x).intermediate = some buffer := kept
    rw [ConvLayer.stepsAfter] at held
    obtain ⟨old, _, rfl⟩ := Option.map_eq_some_iff.mp held
    have place : row < batch.lengths.length ∧ step < batch.rowWidth := by omega
    dsimp only
    rw [if_pos place]
    exact laid.intermediateState_at feeds fed position.slot (length ▸ position.carried) flag

end Verify

end FlashNext.NGram
