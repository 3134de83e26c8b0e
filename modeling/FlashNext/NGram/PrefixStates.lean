import FlashNext.NGram.Tracked

namespace FlashNext.NGram

open FlashNext.Data

section Laws

variable {α β : Type} (fused : FusedState α β) (layer : ConvLayer α β) (model : Model) (pool : ReqToTokenPool)
  (cache : ConvCache β)

def trackOffset (boundary : Int) (length : Nat) : Nat := min (max boundary 0).toNat length

/-- What a pass over the same pool leaves that carries the given rows and no
snapshot for the slot. -/
def LeftBy (pieces : List Piece) (inputs : List (List (Nat → α))) (slot : Nat) (next : ReqToTokenPool × ConvCache β) : Prop :=
  ∃ inputIds forwardBatch spare x spareInputs, ExtendPass pool inputIds forwardBatch pieces spare ∧
    Feeds x (pieces.map Piece.tokens) spare inputs spareInputs ∧ Untracked forwardBatch slot ∧
    sidePass layer fused model pool cache inputIds x forwardBatch = .ok next

/-- What is left by a pass in which one row works on the slot, with the given
tokens. -/
def LeftByRow (slot : Nat) (tokens : List Token) (values : List (Nat → α)) (next : ReqToTokenPool × ConvCache β) : Prop :=
  ∃ (pieces : List Piece) (inputs : List (List (Nat → α))) (row : Nat), pieces[row]? = some ⟨slot, tokens, false⟩ ∧
    inputs[row]? = some values ∧ LeftBy fused layer model pool cache pieces inputs slot next

/-- Every snapshot of a non-empty row is what the row's working slot holds after
a pass in which the row ends at the snapshot's offset. -/
def SnapshotsExact (forwardBatch : ForwardBatch) (pieces : List Piece) (inputs : List (List (Nat → α)))
    (next : ReqToTokenPool × ConvCache β) : Prop :=
  ∀ (row : Nat) (piece : Piece) (values : List (Nat → α)) (target : Nat) (boundary : Int), pieces[row]? = some piece →
    inputs[row]? = some values → piece.tokens ≠ [] → piece.slot ≠ 0 → Tracks forwardBatch row target boundary →
    let offset := trackOffset boundary piece.tokens.length
    let pieces' := pieces.modify row (Piece.truncate offset)
    let inputs' := inputs.modify row (List.take offset)
    (∃ next', LeftBy fused layer model pool cache pieces' inputs' piece.slot next') ∧
      ∀ next', LeftBy fused layer model pool cache pieces' inputs' piece.slot next' →
        next.1.context target = next'.1.context piece.slot ∧
          layer.Agree (next.2.state target) (next'.2.state piece.slot)

/-- In a slot that no unmasked row is tracked to, slot 0 apart, a pass leaves
what it leaves without tracking. -/
def MaskedRowsSilent (inputIds : List Token) (x : List (Nat → α)) (forwardBatch : ForwardBatch)
    (next : ReqToTokenPool × ConvCache β) : Prop :=
  ∀ slot, slot ≠ 0 → Untracked forwardBatch slot →
    ∃ next', sidePass layer fused model pool cache inputIds x { forwardBatch with mambaTrackMask := none } = .ok next' ∧
      next.1.context slot = next'.1.context slot ∧ layer.Agree (next.2.state slot) (next'.2.state slot)

/-- What is stored for a valid step of a live row is what the row's working slot
holds after a pass that carries the tokens up to that step. -/
def StepsExact (drafts : List DraftRow) (width : Nat) (inputs : List (List (Nat → α)))
    (next : ReqToTokenPool × ConvCache β) : Prop :=
  ∀ (row step : Nat) (draft : DraftRow) (values : List (Nat → α)), drafts[row]? = some draft →
    inputs[row]? = some values → draft.live = true → draft.slot ≠ 0 → step < width → step < draft.length →
    let tokens := draft.tokens.take (step + 1)
    let values' := values.take (step + 1)
    (∃ next', LeftByRow fused layer model pool cache draft.slot tokens values' next') ∧
      ∀ next', LeftByRow fused layer model pool cache draft.slot tokens values' next' →
        (next.1.intermediate[row]?.bind (·[step]?)) = some (next'.1.context draft.slot) ∧
          ∀ buffer, next.2.intermediate = some buffer → layer.Agree (buffer row step) (next'.2.state draft.slot)

end Laws

def untrackedBatch (requests lengths : List Nat) : ForwardBatch where
  forwardMode := .extend
  originalForwardMode := none
  tboParentTokenRange := none
  ngramSpeculation := false
  specInfo := none
  numTokenNonPaddedCpu := none
  extendSeqLens := some lengths
  extendSeqLensCpu := none
  reqPoolIndices := requests
  outCacheLoc := none
  mambaTrackIndices := none
  mambaTrackMask := none
  mambaTrackAlignedLens := none

section Proofs

variable {α β : Type} {fused : FusedState α β} {layer : ConvLayer α β} {model : Model} {pool : ReqToTokenPool}
  {cache : ConvCache β} {inputIds : List Token} {forwardBatch : ForwardBatch} {pieces : List Piece} {spare : List Token}
  {x : List (Nat → α)} {inputs : List (List (Nat → α))} {spareInputs : List (Nat → α)}
  {next : ReqToTokenPool × ConvCache β} {drafts : List DraftRow} {width : Nat}

theorem extendPass_untracked {requests : List Nat} (padding : ∀ piece ∈ pieces, piece.padded → piece.tokens = [])
    (slots : requests.map pool.mambaIndex = pieces.map Piece.slot)
    (distinct : ((pieces.map Piece.state).filter (· ≠ 0)).Nodup) :
    ExtendPass pool (pieces.flatMap Piece.tokens) (untrackedBatch requests (pieceLengths pieces)) pieces [] where
  whole := rfl
  unspeculated := rfl
  topk := rfl
  rows := ⟨rfl, rfl, by simp [untrackedBatch], padding⟩
  room := fun spared => absurd rfl spared
  processed := by
    rw [length_whole]
    rfl
  tokens := by
    rw [List.length_nil, Nat.add_zero, ← length_whole, List.take_length, List.append_nil]
  slots := by
    have count : requests.length = pieces.length := by simpa using congrArg List.length slots
    rw [untrackedBatch, ← count, List.take_length, slots]
  distinct := distinct

theorem exists_leftBy (sized : pool.Sized model) {requests : List Nat}
    (padding : ∀ piece ∈ pieces, piece.padded → piece.tokens = [])
    (slots : requests.map pool.mambaIndex = pieces.map Piece.slot)
    (distinct : ((pieces.map Piece.state).filter (· ≠ 0)).Nodup)
    (strides : inputs.map List.length = (pieces.map Piece.tokens).map List.length) (slot : Nat) :
    ∃ next, LeftBy fused layer model pool cache pieces inputs slot next := by
  have pass := extendPass_untracked padding slots distinct
  have feeds : Feeds (inputs.flatten ++ []) (pieces.map Piece.tokens) [] inputs [] := ⟨rfl, strides, rfl⟩
  have untracked : Untracked (untrackedBatch requests (pieceLengths pieces)) slot := by
    intro indices mask indexed
    cases indexed
  obtain ⟨next, ran⟩ := pass.returns sized feeds
  exact ⟨next, _, _, _, _, _, pass, feeds, untracked, ran⟩

theorem truncate_slots (row offset : Nat) :
    (pieces.modify row (Piece.truncate offset)).map Piece.slot = pieces.map Piece.slot := by
  induction pieces generalizing row with
  | nil => rw [List.modify_nil]
  | cons piece rest ih =>
      cases row with
      | zero => rfl
      | succ row => exact congrArg (piece.slot :: ·) (ih row)

theorem truncate_state (offset : Nat) (piece : Piece) :
    (piece.truncate offset).state = piece.state ∨ (piece.truncate offset).state = 0 := by
  cases live : (piece.truncate offset).live with
  | false => exact Or.inr (if_neg (by rw [live]; exact Bool.false_ne_true))
  | true =>
      have before : piece.live = true := by
        simp only [Piece.truncate, Piece.live, Bool.and_eq_true, Bool.not_eq_true', List.isEmpty_eq_false_iff] at live ⊢
        refine ⟨live.1, ?_⟩
        intro none
        exact live.2 (by rw [none, List.take_nil])
      left
      rw [Piece.state, Piece.state, if_pos live, if_pos before]
      rfl

theorem truncate_states (row offset : Nat) :
    (((pieces.modify row (Piece.truncate offset)).map Piece.state).filter (· ≠ 0)).Sublist
      ((pieces.map Piece.state).filter (· ≠ 0)) := by
  induction pieces generalizing row with
  | nil => rw [List.modify_nil]
  | cons piece rest ih =>
      cases row with
      | zero =>
          rw [List.modify_zero_cons, List.map_cons, List.map_cons]
          rcases truncate_state offset piece with same | none
          · rw [same]
          · rw [none, List.filter_cons_of_neg (by simp)]
            exact (List.sublist_cons_self _ _).filter _
      | succ row =>
          rw [List.modify_succ_cons, List.map_cons, List.map_cons, List.filter_cons, List.filter_cons]
          split
          · exact (ih row).cons_cons _
          · exact ih row

theorem truncate_padding (padding : ∀ piece ∈ pieces, piece.padded → piece.tokens = []) (row offset : Nat) :
    ∀ piece ∈ pieces.modify row (Piece.truncate offset), piece.padded → piece.tokens = [] := by
  intro piece member padded
  obtain ⟨index, listed⟩ := List.mem_iff_getElem?.mp member
  rw [List.getElem?_modify] at listed
  obtain ⟨source, found, same⟩ := Option.map_eq_some_iff.mp listed
  have own := padding source (List.mem_of_getElem? found)
  split at same
  · subst same
    rw [Piece.truncate, own padded, List.take_nil]
  · subst same
    exact own padded

theorem truncate_strides (strides : inputs.map List.length = (pieces.map Piece.tokens).map List.length) (row offset : Nat) :
    (inputs.modify row (List.take offset)).map List.length =
      ((pieces.modify row (Piece.truncate offset)).map Piece.tokens).map List.length := by
  apply List.ext_getElem?
  intro index
  have same := congrArg (fun lengths : List Nat => lengths[index]?) strides
  simp only [List.getElem?_map, List.getElem?_modify] at same ⊢
  cases found : pieces[index]? with
  | none =>
      rw [found] at same
      cases fed : inputs[index]? with
      | none => rfl
      | some values =>
          rw [fed] at same
          cases same
  | some piece =>
      rw [found] at same
      cases fed : inputs[index]? with
      | none =>
          rw [fed] at same
          cases same
      | some values =>
          rw [fed] at same
          have length : values.length = piece.tokens.length := Option.some.inj same
          by_cases here : row = index
          · simp [here, Piece.truncate, length]
          · simp [here, length]

theorem ExtendPass.exists_truncated (pass : ExtendPass pool inputIds forwardBatch pieces spare) (sized : pool.Sized model)
    (feeds : Feeds x (pieces.map Piece.tokens) spare inputs spareInputs) (row offset slot : Nat) :
    ∃ next, LeftBy fused layer model pool cache (pieces.modify row (Piece.truncate offset))
      (inputs.modify row (List.take offset)) slot next :=
  exists_leftBy sized (truncate_padding pass.rows.padding row offset) (pass.slots.trans (truncate_slots row offset).symm)
    (pass.distinct.sublist (truncate_states row offset)) (truncate_strides feeds.strides row offset) slot

theorem VerifyPass.exists_step (pass : VerifyPass pool inputIds forwardBatch drafts width) (sized : pool.Sized model)
    (feeds : Feeds x (drafts.map DraftRow.tokens) [] inputs []) {row : Nat} {draft : DraftRow} {values : List (Nat → α)}
    (found : drafts[row]? = some draft) (fed : inputs[row]? = some values) (count : Nat) :
    ∃ next, LeftByRow fused layer model pool cache draft.slot (draft.tokens.take count) (values.take count) next := by
  have slot : (drafts.map DraftRow.slot)[row]? = some draft.slot := by rw [List.getElem?_map, found, Option.map_some]
  rw [← pass.slots, List.getElem?_map] at slot
  obtain ⟨request, _, mapped⟩ := Option.map_eq_some_iff.mp slot
  have row' : (drafts.map DraftRow.tokens)[row]? = some draft.tokens := by rw [List.getElem?_map, found, Option.map_some]
  have length := feeds.length row' fed
  have distinct : (([⟨draft.slot, draft.tokens.take count, false⟩].map Piece.state).filter (· ≠ 0)).Nodup :=
    (List.nodup_cons.mpr ⟨List.not_mem_nil, List.nodup_nil⟩).sublist List.filter_sublist
  have left : ∃ next, LeftBy fused layer model pool cache [⟨draft.slot, draft.tokens.take count, false⟩]
      [values.take count] draft.slot next :=
    @exists_leftBy _ _ _ _ _ _ _ _ _ sized [request] (by simp) (by simp [mapped]) distinct (by simp [length]) draft.slot
  obtain ⟨next, left⟩ := left
  exact ⟨next, _, _, 0, rfl, rfl, left⟩

theorem ExtendPass.snapshots (pass : ExtendPass pool inputIds forwardBatch pieces spare) (sized : pool.Sized model)
    (stored : cache.Stored layer) (feeds : Feeds x (pieces.map Piece.tokens) spare inputs spareInputs)
    (ran : sidePass layer fused model pool cache inputIds x forwardBatch = .ok next) :
    SnapshotsExact fused layer model pool cache forwardBatch pieces inputs next := by
  intro row piece values target boundary found fed some_ real tracks offset pieces' inputs'
  refine ⟨pass.exists_truncated sized feeds row offset piece.slot, ?_⟩
  intro next' left
  obtain ⟨inputIds', forwardBatch', spare', x', spareInputs', pass', feeds', untracked, ran'⟩ := left
  obtain ⟨context, state⟩ := pass.snapshot sized feeds ran found fed some_ tracks
  obtain ⟨context', state'⟩ := pass.truncated sized stored found fed some_ real pass' feeds' untracked ran'
  rw [pass.state_eq found some_] at context state
  exact ⟨context.trans context'.symm, state.trans state'.symm⟩

theorem ExtendPass.withoutTracking (pass : ExtendPass pool inputIds forwardBatch pieces spare) :
    ExtendPass pool inputIds { forwardBatch with mambaTrackMask := none } pieces spare :=
  { pass with rows := { pass.rows with mode := pass.rows.mode } }

theorem ExtendPass.masked (pass : ExtendPass pool inputIds forwardBatch pieces spare) (sized : pool.Sized model)
    (feeds : Feeds x (pieces.map Piece.tokens) spare inputs spareInputs)
    (ran : sidePass layer fused model pool cache inputIds x forwardBatch = .ok next) :
    MaskedRowsSilent fused layer model pool cache inputIds x forwardBatch next := by
  intro slot real untracked
  obtain ⟨next', ran'⟩ := pass.withoutTracking.returns sized feeds
  have idle : Untracked { forwardBatch with mambaTrackMask := none } slot := by
    intro indices mask _ none
    cases none
  refine ⟨next', ran', ?_⟩
  by_cases free : ∀ piece ∈ pieces, piece.state ≠ slot
  · obtain ⟨context, state⟩ := pass.idle sized feeds ran real free untracked
    obtain ⟨context', state'⟩ := pass.withoutTracking.idle sized feeds ran' real free idle
    rw [context, context', state, state']
    exact ⟨rfl, fun _ _ _ => rfl⟩
  · push Not at free
    obtain ⟨piece, member, rfl⟩ := free
    obtain ⟨row, found⟩ := List.mem_iff_getElem?.mp member
    have counts : inputs.length = pieces.length := by
      have strides := congrArg List.length feeds.strides
      simpa using strides
    have inside : row < inputs.length := by
      rw [counts]
      exact (List.getElem?_eq_some_iff.mp found).1
    have fed : inputs[row]? = some inputs[row] := List.getElem?_eq_getElem inside
    obtain ⟨context, state⟩ := pass.working sized feeds ran found fed real untracked
    obtain ⟨context', state'⟩ := pass.withoutTracking.working sized feeds ran' found fed real idle
    exact ⟨context.trans context'.symm, state.trans state'.symm⟩

theorem VerifyPass.steps (pass : VerifyPass pool inputIds forwardBatch drafts width) (sized : pool.Sized model)
    (feeds : Feeds x (drafts.map DraftRow.tokens) [] inputs [])
    (ran : sidePass layer fused model pool cache inputIds x forwardBatch = .ok next) :
    StepsExact fused layer model pool cache drafts width inputs next := by
  intro row step draft values found fed live real narrow valid tokens values'
  refine ⟨pass.exists_step sized feeds found fed (step + 1), ?_⟩
  intro next' left
  obtain ⟨pieces', inputs', row', found', fed', inputIds', forwardBatch', spare', x', spareInputs', pass', feeds', untracked,
    ran'⟩ := left
  obtain ⟨context, states⟩ := pass.step sized feeds ran found fed narrow valid
  have some_ : draft.tokens.take (step + 1) ≠ [] := by
    have full := pass.stride draft (List.mem_of_getElem? found)
    intro none
    have length := congrArg List.length none
    rw [List.length_take, full, List.length_nil] at length
    omega
  have own := pass'.state_eq found' some_
  obtain ⟨context', state'⟩ := pass'.working sized feeds' ran' found' fed' (own.symm ▸ real) (own.symm ▸ untracked)
  rw [own] at context' state'
  have slot : draft.state = draft.slot := by rw [DraftRow.state, if_pos live]
  rw [slot] at context states
  rw [context, context']
  exact ⟨rfl, fun buffer kept => (states buffer kept).trans state'.symm⟩

end Proofs

/-- For every extend pass the snapshots are states after a prefix and masked
rows write nothing outside slot 0; for every verify pass the stored steps are
states after a prefix. -/
theorem snapshots_exact {α β : Type} (fused : FusedState α β) (layer : ConvLayer α β) (model : Model)
    (pool : ReqToTokenPool) (sized : pool.Sized model) (cache : ConvCache β) (stored : cache.Stored layer)
    (inputIds : List Token) (forwardBatch : ForwardBatch) (x : List (Nat → α)) :
    (∀ pieces spare inputs spareInputs, ExtendPass pool inputIds forwardBatch pieces spare →
      Feeds x (pieces.map Piece.tokens) spare inputs spareInputs →
      ∃ next, sidePass layer fused model pool cache inputIds x forwardBatch = .ok next ∧
        SnapshotsExact fused layer model pool cache forwardBatch pieces inputs next ∧
        MaskedRowsSilent fused layer model pool cache inputIds x forwardBatch next) ∧
      ∀ drafts width inputs, VerifyPass pool inputIds forwardBatch drafts width →
        Feeds x (drafts.map DraftRow.tokens) [] inputs [] →
        ∃ next, sidePass layer fused model pool cache inputIds x forwardBatch = .ok next ∧
          StepsExact fused layer model pool cache drafts width inputs next := by
  constructor
  · intro pieces spare inputs spareInputs pass feeds
    obtain ⟨next, ran⟩ := pass.returns sized feeds
    exact ⟨next, ran, pass.snapshots sized stored feeds ran, pass.masked sized feeds ran⟩
  · intro drafts width inputs pass feeds
    obtain ⟨next, ran⟩ := pass.returns sized feeds
    exact ⟨next, ran, pass.steps sized feeds ran⟩

section Passes

def convModel : Model := ⟨3, 9, false⟩

def zeroLayer : ConvLayer Int Int where
  stateLen := 2
  load := id
  store := id
  zero := 0
  conv1d := fun _ _ _ => 0
  silu := id
  roundTrip := fun _ => rfl

def eagerConv : FusedState Int Int := fun _ _ _ => none

def convPool : ReqToTokenPool := ⟨id, 2, fun slot => [9, BitVec.ofNat 64 slot], [], none⟩

def convCache : ConvCache Int := ⟨fun slot _ column => 10 * slot + column, some fun _ _ _ _ => 0⟩

/-- Two rows, with a snapshot of the first one after its first token. -/
def trackedBatch : ForwardBatch :=
  { untrackedBatch [1, 2] [2, 1] with
    mambaTrackIndices := some [3, 4]
    mambaTrackMask := some [true, false]
    mambaTrackAlignedLens := some [1, 0] }

def trackedPieces : List Piece := [⟨1, [5, 6], false⟩, ⟨2, [8], false⟩]

def trackedInputs : List (List (Nat → Int)) := [[fun _ => 50, fun _ => 60], [fun _ => 80]]

/-- The pass in which the first row ends there. -/
def shortBatch : ForwardBatch := untrackedBatch [1, 2] [1, 1]

def shortInputs : List (List (Nat → Int)) := [[fun _ => 50], [fun _ => 80]]

def draftBatch : ForwardBatch :=
  { untrackedBatch [1, 2] [] with forwardMode := .targetVerify, specInfo := some ⟨1, 2⟩, extendSeqLens := none }

def draftRows : List DraftRow := [⟨1, [5, 6], 2, false⟩, ⟨2, [8, 8], 2, false⟩]

def draftInputs : List (List (Nat → Int)) := [[fun _ => 50, fun _ => 60], [fun _ => 80, fun _ => 80]]

theorem tracked_extendPass : ExtendPass convPool [5, 6, 8] trackedBatch trackedPieces [] where
  whole := rfl
  unspeculated := rfl
  topk := rfl
  rows := ⟨rfl, rfl, by simp [trackedBatch, untrackedBatch], by simp [trackedPieces]⟩
  room := fun spared => absurd rfl spared
  processed := rfl
  tokens := rfl
  slots := rfl
  distinct := by decide

theorem short_extendPass :
    ExtendPass convPool [5, 8] shortBatch (trackedPieces.modify 0 (Piece.truncate 1)) [] where
  whole := rfl
  unspeculated := rfl
  topk := rfl
  rows := ⟨rfl, rfl, by simp [shortBatch, untrackedBatch], by simp [trackedPieces, Piece.truncate]⟩
  room := fun spared => absurd rfl spared
  processed := rfl
  tokens := rfl
  slots := rfl
  distinct := by decide

theorem draft_verifyPass : VerifyPass convPool [5, 6, 8, 8] draftBatch draftRows 2 where
  whole := rfl
  unspeculated := rfl
  mode := rfl
  spec := ⟨⟨1, 2⟩, rfl, rfl, rfl⟩
  some_ := by decide
  stride := by simp [draftRows]
  lengths := rfl
  processed := rfl
  tokens := rfl
  slots := rfl
  real := by simp [draftRows]
  placed := by simp [draftBatch, untrackedBatch]

theorem trackedBatch_tracks : Tracks trackedBatch 0 3 1 where
  real := by decide
  index := ⟨_, rfl, rfl⟩
  unmasked := ⟨_, rfl, rfl⟩
  aligned := ⟨_, rfl, rfl⟩
  alone := by
    intro indices mask other indexed masked flagged placed
    cases indexed
    cases masked
    rcases other with _ | _ | other
    · rfl
    · cases flagged
    · cases flagged

theorem snapshots_exact_trigrams :
    (∃ next next', sidePass zeroLayer eagerConv convModel convPool convCache [5, 6, 8] trackedInputs.flatten trackedBatch =
        .ok next ∧
      sidePass zeroLayer eagerConv convModel convPool convCache [5, 8] shortInputs.flatten shortBatch = .ok next' ∧
      next.1.context 3 = next'.1.context 1 ∧ zeroLayer.Agree (next.2.state 3) (next'.2.state 1)) ∧
    ∃ next next', sidePass zeroLayer eagerConv convModel convPool convCache [5, 6, 8, 8] draftInputs.flatten draftBatch =
        .ok next ∧
      sidePass zeroLayer eagerConv convModel convPool convCache [5, 8] shortInputs.flatten shortBatch = .ok next' ∧
      (next.1.intermediate[0]?.bind (·[0]?)) = some (next'.1.context 1) := by
  have sized : convPool.Sized convModel := ⟨rfl, fun _ => rfl⟩
  have stored : convCache.Stored zeroLayer := fun _ _ _ _ => ⟨_, rfl⟩
  have fed : Feeds shortInputs.flatten ((trackedPieces.modify 0 (Piece.truncate 1)).map Piece.tokens) []
      (trackedInputs.modify 0 (List.take 1)) [] := ⟨rfl, rfl, rfl⟩
  have alone : Untracked shortBatch 1 := by
    intro indices mask indexed
    cases indexed
  have runs : ∃ next', sidePass zeroLayer eagerConv convModel convPool convCache [5, 8] shortInputs.flatten shortBatch =
      .ok next' := short_extendPass.returns sized fed
  obtain ⟨next', ran'⟩ := runs
  constructor
  · obtain ⟨next, ran, exact_, _⟩ := (snapshots_exact eagerConv zeroLayer convModel convPool sized convCache stored
      [5, 6, 8] trackedBatch trackedInputs.flatten).1 trackedPieces [] trackedInputs [] tracked_extendPass
      ⟨(List.append_nil _).symm, rfl, rfl⟩
    have left := (exact_ 0 _ _ 3 1 rfl rfl (by decide) (by decide) trackedBatch_tracks).2 next'
      ⟨_, _, _, _, _, short_extendPass, fed, alone, ran'⟩
    exact ⟨next, next', ran, ran', left⟩
  · obtain ⟨next, ran, steps⟩ := (snapshots_exact eagerConv zeroLayer convModel convPool sized convCache stored
      [5, 6, 8, 8] draftBatch draftInputs.flatten).2 draftRows 2 draftInputs draft_verifyPass
      ⟨(List.append_nil _).symm, rfl, rfl⟩
    have step := (steps 0 0 _ _ rfl rfl rfl (by decide) (by decide) (by decide)).2 next'
      ⟨_, _, 0, rfl, rfl, _, _, _, _, _, short_extendPass, fed, alone, ran'⟩
    exact ⟨next, next', ran, ran', step.1⟩

/-- A row without tokens beside one with a token, both with a snapshot. -/
def emptyBatch : ForwardBatch :=
  { untrackedBatch [1, 2] [1, 0] with
    mambaTrackIndices := some [3, 4]
    mambaTrackMask := some [true, true]
    mambaTrackAlignedLens := some [1, 0] }

def emptyPieces : List Piece := [⟨1, [5], false⟩, ⟨2, [], false⟩]

/-- The snapshot of a row without tokens is taken from slot 0, while the row's
own slot stays as it is. -/
theorem emptyRow_snapshot :
    ExtendPass convPool [5] emptyBatch emptyPieces [] ∧ emptyPieces[1]? = some ⟨2, [], false⟩ ∧
      Tracks emptyBatch 1 4 0 ∧
      ∃ next, sidePass zeroLayer eagerConv convModel convPool convCache [5] [fun _ => 50] emptyBatch = .ok next ∧
        next.1.context 2 = convPool.context 2 ∧ next.1.context 4 ≠ next.1.context 2 ∧
        next.2.state 2 = convCache.state 2 ∧ ¬ zeroLayer.Agree (next.2.state 4) (next.2.state 2) := by
  have pass : ExtendPass convPool [5] emptyBatch emptyPieces [] :=
    ⟨rfl, rfl, rfl, ⟨rfl, rfl, by simp [emptyBatch, untrackedBatch], by simp [emptyPieces]⟩, fun spared => absurd rfl spared,
      rfl, rfl, rfl, by decide⟩
  have tracks : Tracks emptyBatch 1 4 0 := by
    refine ⟨by decide, ⟨_, rfl, rfl⟩, ⟨_, rfl, rfl⟩, ⟨_, rfl, rfl⟩, ?_⟩
    intro indices mask other indexed masked flagged placed
    cases indexed
    cases masked
    rcases other with _ | _ | other
    · cases placed
    · rfl
    · cases flagged
  refine ⟨pass, rfl, tracks, _, rfl, rfl, by decide, rfl, ?_⟩
  intro agree
  have first := agree 0 0 (by decide)
  revert first
  decide

end Passes

end FlashNext.NGram
