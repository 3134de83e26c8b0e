import FlashNext.NGram.Batch

namespace FlashNext.NGram

open FlashNext.Data

/-! `Qwen4ExpPLELayer._short_conv` works on the rows of the PLE batch: the state of
a row's slot with the row's own inputs behind it, channel by channel.  A tensor
is a function of its indices. -/

abbrev ConvState (β : Type) := Nat → Nat → β

/-- A layer with inputs of type `α` and states kept as `β`.  `load` and `store`
are the conversions between the two dtypes: what was stored once is stored
again as it is. -/
structure ConvLayer (α β : Type) where
  stateLen : Nat
  load : β → α
  store : α → β
  zero : α
  conv1d : Nat → (Nat → α) → Nat → α
  silu : α → α
  roundTrip : ∀ value, store (load (store value)) = store value

/-- The states of the slots, and those after each draft token, where the pool
keeps them. -/
structure ConvCache (β : Type) where
  state : Nat → ConvState β
  intermediate : Option (Nat → Nat → ConvState β)

/-- `fused_qwen4_short_conv_state`, for the inputs that
`can_fuse_qwen4_short_conv_state` accepts: its rows, and the states it leaves. -/
abbrev FusedState (α β : Type) :=
  (Nat → ConvState β) → List Nat → List (Nat → α) → Option ((Nat → Nat → Nat → α) × (Nat → ConvState β))

section Layer

variable {α β : Type} (layer : ConvLayer α β)

/-- `conv_state[indices] = states`. -/
def ConvCache.setState (cache : ConvCache β) (indices : List Nat) (states : List (ConvState β)) : ConvCache β :=
  { cache with state := storeAll cache.state (indices.zip states) }

/-- `padded_seq`: the inputs in rows, zero elsewhere. -/
def ConvLayer.paddedSeq (batch : PleBatch) (x : List (Nat → α)) (row column : Nat) : Nat → α :=
  storeAll (fun _ _ => layer.zero) ((batch.reqIndices.zip batch.tokenOffsets).zip x) (row, column)

/-- `torch.cat([state, padded_seq.transpose(1, 2)], dim=-1)`. -/
def ConvLayer.convInput (cache : ConvCache β) (batch : PleBatch) (x : List (Nat → α)) (row channel column : Nat) : α :=
  if column < layer.stateLen then layer.load (cache.state (batch.stateIndices.getD row 0) channel column)
  else layer.paddedSeq batch x row (column - layer.stateLen) channel

def ConvLayer.decodeInput (cache : ConvCache β) (batch : PleBatch) (x : List (Nat → α)) (row channel column : Nat) : α :=
  if column < layer.stateLen then layer.load (cache.state (batch.stateIndices.getD row 0) channel column)
  else x.getD row (fun _ => layer.zero) channel

/-- `_gather_at`, in the dtype of the states. -/
def ConvLayer.gatherAt (input : Nat → Nat → Nat → α) (offsets : List Nat) : List (ConvState β) :=
  offsets.mapIdx fun row offset channel column => layer.store (input row channel (offset + column))

def ConvLayer.intermediateState (batch : PleBatch) (input : Nat → Nat → Nat → α) (row step : Nat) : ConvState β :=
  fun channel column =>
    let valid := ((reshape batch.rowWidth batch.lengths.length batch.validTokens).getD row []).getD step false
    layer.store (if valid then input row channel (step + 1 + column) else layer.zero)

/-- `F.silu(conv_output[req_indices, token_offsets])`. -/
def ConvLayer.convOutput (batch : PleBatch) (input : Nat → Nat → Nat → α) : List (Nat → α) :=
  List.zipWith (fun row offset channel => layer.silu (layer.conv1d channel (input row channel) offset))
    batch.reqIndices batch.tokenOffsets

/-- `_short_conv`. -/
def shortConv (fused : FusedState α β) (cache : ConvCache β) (x : List (Nat → α)) (forwardBatch : ForwardBatch)
    (batch : PleBatch) : Except PleError (List (Nat → α) × ConvCache β) :=
  if x.isEmpty then .ok (x, cache)
  else if batch.useDecodeFastPath then
    let decoded := fused cache.state batch.stateIndices x
    let input := (decoded.map Prod.fst).getD (layer.decodeInput cache batch x)
    let nextState := layer.gatherAt input (List.replicate batch.lengths.length batch.rowWidth)
    let cache := match decoded with
      | some (_, state) => { cache with state := state }
      | none => cache.setState batch.stateIndices nextState
    let output := (List.range x.length).map fun row channel => layer.silu (layer.conv1d channel (input row channel) 0)
    match pleTrackTargets forwardBatch batch with
    | none => .ok (output, cache)
    | some (targets, _) => .ok (output, cache.setState targets nextState)
  else if ¬ batch.toLayout.InBounds ∨ x.length ≠ batch.reqIndices.length then .error .shape
  else
    let input := layer.convInput cache batch x
    let output := layer.convOutput batch input
    if batch.mode = .targetVerify then
      .ok (output, { cache with
        intermediate := cache.intermediate.map fun old row step =>
          if row < batch.lengths.length ∧ step < batch.rowWidth then layer.intermediateState batch input row step
          else old row step })
    else if ∃ length ∈ batch.lengths, batch.rowWidth < length then .error .shape
    else
      let committed := cache.setState batch.stateIndices (layer.gatherAt input batch.lengths)
      match pleTrackTargets forwardBatch batch with
      | none => .ok (output, committed)
      | some (targets, offsets) => .ok (output, committed.setState targets (layer.gatherAt input offsets))

/-- The side states of a pass, with one layer: the convolution, then the commit
of the histories. -/
def sidePass (fused : FusedState α β) (model : Model) (pool : ReqToTokenPool) (cache : ConvCache β)
    (inputIds : List Token) (x : List (Nat → α)) (forwardBatch : ForwardBatch) :
    Except PleError (ReqToTokenPool × ConvCache β) :=
  match preparePleBatch model.fusion pool inputIds forwardBatch (some model.ngramSize) (some model.eosTokenId) with
  | .error error => .error error
  | .ok none => .ok (pool, cache)
  | .ok (some batch) =>
      match shortConv layer fused cache x forwardBatch batch with
      | .error error => .error error
      | .ok (_, cache) =>
          match commitPleBatch pool batch forwardBatch with
          | .error error => .error error
          | .ok pool => .ok (pool, cache)

end Layer

end FlashNext.NGram
