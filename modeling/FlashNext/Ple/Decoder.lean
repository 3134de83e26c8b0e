import FlashNext.Ple.Prefetch

namespace FlashNext.Ple

open FlashNext.Data FlashNext.Collective FlashNext.NGram

variable {parallel : Parallel} {Value : Type} {experts : Nat → (parallel.Rank → Rows Value) → parallel.Rank → Rows Value}

/-- A decoder layer.  What a rank computes between the collectives gives a row for
each row. -/
structure DecoderLayer (parallel : Parallel) (Value : Type) where
  ple : Option (PleLayer parallel Value)
  addPle : Rows Value → Rows Value → Rows Value
  mixAttn : Rows Value → Rows Value × Rows Value
  attention : parallel.Rank → Rows Value → Rows Value
  combineAttn : Rows Value → Rows Value → Rows Value
  mixMlp : Rows Value → Rows Value × Rows Value
  combineMlp : Rows Value → Rows Value → Rows Value
  addPle_length : ∀ hidden embeddings, (addPle hidden embeddings).length = hidden.length
  mixAttn_length : ∀ hidden, (mixAttn hidden).1.length = hidden.length
  attention_length : ∀ rank hidden, (attention rank hidden).length = hidden.length
  combineAttn_length : ∀ hidden residual, (combineAttn hidden residual).length = hidden.length
  mixMlp_length : ∀ hidden, (mixMlp hidden).1.length = hidden.length
  combineMlp_length : ∀ hidden residual, (combineMlp hidden residual).length = hidden.length

/-- What a forward pass is given: for each group its input and its batch, for each
rank its pool, its device and its hidden states. -/
structure Pass (parallel : Parallel) (Value : Type) where
  inputIds : Fin parallel.attnDpSize → List Token
  forwardBatch : Fin parallel.attnDpSize → ForwardBatch
  sizes : Option (List Nat)
  pool : parallel.Rank → ReqToTokenPool
  device : parallel.Rank → Device Value
  hiddenStates : parallel.Rank → Rows Value

section Code

variable [Zero Value] [Add Value] [Mul Value] (cells : Cells Value) (fused : FusedHash) (model : Model)

/-- `tensor_split`: the first chunks are one longer where the rows do not divide. -/
def tensorSplit (chunks : Nat) (rows : Rows Value) (chunk : Nat) : Rows Value :=
  let longer := rows.length % chunks
  let start := chunk * (rows.length / chunks) + min chunk longer
  (rows.drop start).take (rows.length / chunks + if chunk < longer then 1 else 0)

/-- `_run_qwen4_exp_mlp`, of a model with experts. -/
def runMlp (index : Nat) (rank : parallel.Rank) (sizes : Option (List Nat)) (hidden : Rows Value) :
    RankProgram experts (Rows Value) :=
  if parallel.useDpMoeGather then do
    let global : Rows Value ← enter .gatherHidden hidden
    let output : Rows Value ← enter (.experts index) global
    if parallel.dpReduceScatterv then enter (.reduceScatterv (sizes.getD [])) output
    else return segment (sizes.getD []) output rank.1
  else if hidden.length = 0 && !parallel.moeA2a then return hidden
  else if parallel.useAttnTpA2aScatter then do
    let output : Rows Value ← enter (.experts index) (tensorSplit parallel.attnTpSize hidden rank.2)
    let chunks : List (Rows Value) ← enter (.attnAllGather rank.1) output
    return chunks.flatten
  else enter (.experts index) hidden

/-- `_prepare_qwen4_exp_attn` up to the mix, with the embeddings that it used. -/
def preparePle (layer : DecoderLayer parallel Value) (rank : parallel.Rank) (sizes : Option (List Nat))
    (forwardBatch : ForwardBatch) (inputTokens : Nat) (batch : Option PleBatch) (pool : ReqToTokenPool)
    (state : PleState Value) (hidden : Rows Value) :
    RankProgram experts (Rows Value × Option (Rows Value) × ReqToTokenPool × PleState Value) :=
  match layer.ple with
  | none => return (hidden, none, pool, state)
  | some ple =>
      match batch with
      | none =>
          if pleForwardMode forwardBatch ≠ .idle then .raised .missingBatch
          else do
            let state ← pleForwardIdle cells model ple rank sizes inputTokens state
            return (hidden, none, pool, state)
      | some batch => do
          let (embeddings, pool, state) ← pleForward cells fused model ple rank sizes batch pool state
          return (layer.addPle hidden embeddings, some embeddings, pool, state)

def attend (layer : DecoderLayer parallel Value) (rank : parallel.Rank) (forwardBatch : ForwardBatch) (hidden : Rows Value) :
    RankProgram experts (Rows Value) :=
  if forwardBatch.forwardMode = .idle then return hidden
  else enter (.attnAllReduce rank.1) (layer.attention rank hidden)

def decoderLayer (index : Nat) (layer : DecoderLayer parallel Value) (rank : parallel.Rank) (sizes : Option (List Nat))
    (forwardBatch : ForwardBatch) (inputTokens : Nat) (batch : Option PleBatch) (pool : ReqToTokenPool)
    (state : PleState Value) (hidden : Rows Value) :
    RankProgram experts (Rows Value × Option (Rows Value) × ReqToTokenPool × PleState Value) := do
  let (hidden, used, pool, state) ← preparePle cells fused model layer rank sizes forwardBatch inputTokens batch pool state hidden
  let mixed := layer.mixAttn hidden
  let attended ← attend layer rank forwardBatch mixed.1
  let mixed := layer.mixMlp (layer.combineAttn attended mixed.2)
  let output ← runMlp index rank sizes mixed.1
  return (layer.combineMlp output mixed.2, used, pool, state)

/-- The prefetch for the layer behind the current one, if it has embeddings. -/
def prefetchNext (index : Nat) (rest : List (DecoderLayer parallel Value)) (rank : parallel.Rank) (device : Device Value)
    (sizes : Option (List Nat)) (inputTokens : Nat) (batch : Option PleBatch) (pool : ReqToTokenPool)
    (states : Nat → PleState Value) : RankProgram experts (ReqToTokenPool × (Nat → PleState Value)) :=
  match rest.head?.bind DecoderLayer.ple with
  | none => return (pool, states)
  | some next => do
      let (pool, state) ← startPrefetch cells fused model next rank device (index + 1) sizes inputTokens batch pool
        (states (index + 1))
      return (pool, Function.update states (index + 1) state)

/-- The loop of `Qwen4ExpModel.forward`, from a layer on. -/
def forwardLayers (rank : parallel.Rank) (device : Device Value) (sizes : Option (List Nat)) (forwardBatch : ForwardBatch)
    (inputTokens : Nat) (batch : Option PleBatch) : (layers : List (DecoderLayer parallel Value)) → (index : Nat) →
    ReqToTokenPool → (Nat → PleState Value) → Rows Value →
    RankProgram experts (Rows Value × List (Option (Rows Value)) × (Nat → PleState Value))
  | [], _, _, states, hidden => return (hidden, [], states)
  | layer :: rest, index, pool, states, hidden => do
      let (pool, states) ← prefetchNext cells fused model index rest rank device sizes inputTokens batch pool states
      let (hidden, used, pool, state) ← decoderLayer cells fused model index layer rank sizes forwardBatch inputTokens batch pool
        (states index) hidden
      let (hidden, later, states) ← forwardLayers rank device sizes forwardBatch inputTokens batch rest (index + 1) pool
        (Function.update states index state) hidden
      return (hidden, used :: later, states)

/-- `Qwen4ExpModel.forward` on a rank, up to the commit of the histories; it gives the
embeddings that each layer used. -/
def forwardPass (layers : List (DecoderLayer parallel Value)) (rank : parallel.Rank) (pass : Pass parallel Value)
    (states : Nat → PleState Value) : RankProgram experts (List (Option (Rows Value)) × (Nat → PleState Value)) := do
  let pool := { pass.pool rank with pleWindowCache := none }
  let batch ← Program.ofExcept ((preparePleBatch model.fusion pool (pass.inputIds rank.1) (pass.forwardBatch rank.1)
    (some model.ngramSize) (some model.eosTokenId)).mapError .ple)
  let (_, used, states) ← forwardLayers cells fused model rank (pass.device rank) pass.sizes (pass.forwardBatch rank.1)
    (pass.inputIds rank.1).length batch layers 0 pool states (pass.hiddenStates rank)
  return (used, states)

/-- One pass after another, with the buffers and prefetches that each leaves behind. -/
def forwardPasses (layers : List (DecoderLayer parallel Value)) (rank : parallel.Rank) :
    List (Pass parallel Value) → (Nat → PleState Value) →
    RankProgram experts (List (List (Option (Rows Value))) × (Nat → PleState Value))
  | [], states => return ([], states)
  | pass :: rest, states => do
      let (used, states) ← forwardPass cells fused model layers rank pass states
      let (later, states) ← forwardPasses layers rank rest states
      return (used :: later, states)

end Code

end FlashNext.Ple
