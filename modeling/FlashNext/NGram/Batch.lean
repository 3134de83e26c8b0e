import FlashNext.Data.Chunks
import FlashNext.Data.Ragged
import FlashNext.Data.Stores
import FlashNext.NGram.Hash

namespace FlashNext.NGram

open FlashNext.Data

/-- `extend` stands for every mode that has no branch of its own. -/
inductive ForwardMode where
  | extend
  | decode
  | targetVerify
  | idle
deriving DecidableEq, Repr

structure SpecInfo where
  topk : Int
  draftTokenNum : Int

structure ForwardBatch where
  forwardMode : ForwardMode
  originalForwardMode : Option ForwardMode
  tboParentTokenRange : Option (Nat × Nat)
  ngramSpeculation : Bool
  specInfo : Option SpecInfo
  numTokenNonPaddedCpu : Option Int
  extendSeqLens : Option (List Nat)
  extendSeqLensCpu : Option (List Nat)
  reqPoolIndices : List Nat
  outCacheLoc : Option (List Nat)
  mambaTrackIndices : Option (List Nat)
  mambaTrackMask : Option (List Bool)
  mambaTrackAlignedLens : Option (List Int)

/-- What is raised; `shape` is an assert, an index or a shape that torch refuses. -/
inductive PleError where
  | twoBatchOverlap
  | ngramSpeculation
  | speculationTopk
  | tokenCounts (processedTokens : Int) (physicalTokens : Nat)
  | draftStrides (processedTokens : Nat) (rowWidth : Int)
  | verifyLengths (lengths sequenceCount : Nat)
  | sequenceLengths (mode : ForwardMode)
  | contextWidth (width ngramSize : Nat)
  | shape
deriving DecidableEq, Repr

def PleError.message (modeRepr : ForwardMode → String) : PleError → Option String
  | .twoBatchOverlap => some "Qwen4 PLE is not compatible with two-batch overlap"
  | .ngramSpeculation => some "Qwen4 PLE does not support NGRAM speculation"
  | .speculationTopk => some "Qwen4 PLE speculative decoding supports only topk=1"
  | .tokenCounts processed physical =>
      some s!"invalid PLE token counts: processed_tokens={processed}, physical_tokens={physical}"
  | .draftStrides processed width =>
      some s!"target verify rows must contain complete draft strides: processed_tokens={processed} row_width={width}"
  | .verifyLengths lengths count =>
      some s!"target verify length metadata does not match its fixed rows: lengths.shape[0]={lengths} sequence_count={count}"
  | .sequenceLengths mode => some ("PLE requires sequence lengths in " ++ modeRepr mode)
  | .contextWidth width size =>
      some s!"Qwen4 PLE N-gram cache has the wrong context width: history.shape[1]={width} ngram_size={size}"
  | .shape => none

/-- `_get_ple_forward_mode`. -/
def pleForwardMode (forwardBatch : ForwardBatch) : ForwardMode :=
  forwardBatch.originalForwardMode.getD forwardBatch.forwardMode

/-- `_get_processed_token_count`. -/
def processedTokenCount (forwardBatch : ForwardBatch) (physicalTokens : Nat) : Except PleError Nat :=
  let processed := forwardBatch.numTokenNonPaddedCpu <|>
    forwardBatch.extendSeqLensCpu.map fun lengths => (lengths.sum : Int)
  match processed with
  | none => .ok physicalTokens
  | some processed =>
      if 0 ≤ processed ∧ processed ≤ physicalTokens then .ok processed.toNat
      else .error (.tokenCounts processed physicalTokens)

structure Layout where
  lengths : List Nat
  rowWidth : Nat
  reqIndices : List Nat
  tokenOffsets : List Nat
deriving DecidableEq, Repr

/-- Rows of one draft stride each. -/
def verifyLayout (forwardBatch : ForwardBatch) (processed : Nat) : Except PleError Layout :=
  match forwardBatch.specInfo with
  | none => .error .shape
  | some info =>
      if info.draftTokenNum ≤ 0 ∨ processed % info.draftTokenNum.toNat ≠ 0 then
        .error (.draftStrides processed info.draftTokenNum)
      else
        let rowWidth := info.draftTokenNum.toNat
        let sequenceCount := processed / rowWidth
        let lengths :=
          match forwardBatch.forwardMode, forwardBatch.extendSeqLens with
          | .targetVerify, some lengths => lengths.take sequenceCount
          | _, _ => List.replicate sequenceCount rowWidth
        if lengths.length ≠ sequenceCount then .error (.verifyLengths lengths.length sequenceCount)
        else .ok {
          lengths := lengths
          rowWidth := rowWidth
          reqIndices := (List.range processed).map (· / rowWidth)
          tokenOffsets := (List.range processed).map fun position => position - position / rowWidth * rowWidth }

def decodeLayout (processed : Nat) : Layout where
  lengths := List.replicate processed 1
  rowWidth := 1
  reqIndices := List.range processed
  tokenOffsets := List.replicate processed 0

/-- Rows of the given lengths, found again by a search in their starts. -/
def extendLayout (forwardBatch : ForwardBatch) (mode : ForwardMode) (processed : Nat) : Except PleError Layout :=
  match forwardBatch.extendSeqLens with
  | none => .error (.sequenceLengths mode)
  | some lengths =>
      if lengths = [] ∧ processed ≠ 0 then .error .shape else
      let rowWidth := match forwardBatch.extendSeqLensCpu with
        | some lengths => lengths.max?.getD 0
        | none => processed
      let reqIndices := (List.range processed).map fun position =>
        min (searchsortedRight (rowStarts lengths) position - 1) (lengths.length - 1)
      .ok {
        lengths := lengths
        rowWidth := rowWidth
        reqIndices := reqIndices
        tokenOffsets := List.zipWith (fun position row => position - (rowStarts lengths).getD row 0)
          (List.range processed) reqIndices }

def layout (forwardBatch : ForwardBatch) (mode : ForwardMode) (processed : Nat) : Except PleError Layout :=
  match mode with
  | .targetVerify => verifyLayout forwardBatch processed
  | .decode => .ok (decodeLayout processed)
  | .extend | .idle => extendLayout forwardBatch mode processed

/-- The rows whose state slot is their request's own.  CUDA graph padding has
no cache location. -/
def validRows (forwardBatch : ForwardBatch) (mode : ForwardMode) (fast : Bool) (processed : Nat)
    (layout : Layout) : List Bool :=
  let sequenceCount := layout.lengths.length
  match fast, mode, forwardBatch.outCacheLoc with
  | true, _, none => List.replicate sequenceCount true
  | true, _, some places => (places.take sequenceCount).map (· ≠ 0)
  | false, .decode, some places =>
      List.zipWith (fun length place => length ≠ 0 && place ≠ 0) layout.lengths (places.take sequenceCount)
  | false, .targetVerify, some places =>
      List.zipWith (fun length row => length ≠ 0 && row.any (· ≠ 0)) layout.lengths
        (reshape layout.rowWidth sequenceCount (places.take processed))
  | false, _, _ => layout.lengths.map (· ≠ 0)

structure PleBatch extends Layout where
  mode : ForwardMode
  useDecodeFastPath : Bool
  physicalTokens : Nat
  processedTokens : Nat
  validTokens : List Bool
  stateIndices : List Nat
  ngramContext : Option (List (List Token))
  ngramEosTokenId : Option Token
deriving DecidableEq, Repr

/-- What PLE uses of `HybridReqToTokenPool`: the state slot of a request, the
history of a slot, and the window cache of the current forward pass, which
names the batch it is for. -/
structure ReqToTokenPool where
  mambaIndex : Nat → Nat
  contextLen : Nat
  context : Nat → List Token
  intermediate : List (List (List Token))
  pleWindowCache : Option (PleBatch × List (List Token) × Option (List (List (List Token))))

def ReqToTokenPool.setNgramContext (pool : ReqToTokenPool) (indices : List Nat) (contexts : List (List Token)) :
    ReqToTokenPool :=
  { pool with context := storeAll pool.context (indices.zip contexts) }

/-- `new_full((count, width), fill)` after an indexed assignment. -/
def scatter (count width : Nat) (fill : Token) (writes : List ((Nat × Nat) × Token)) : List (List Token) :=
  (List.range count).map fun row => (List.range width).map fun column => storeAll (fun _ => fill) writes (row, column)

/-- The tokens in rows, the rest of a row filled with EOS. -/
def padded (layout : Layout) (fast : Bool) (tokens : List Token) (validTokens : List Bool) (eos : Token) :
    List (List Token) :=
  if fast then tokens.map fun token => [token] else
  scatter layout.lengths.length layout.rowWidth eos ((layout.reqIndices.zip layout.tokenOffsets).zip
    (List.zipWith (fun valid token => if valid then token else eos) validTokens tokens))

/-- Every token has a place in the rows. -/
def Layout.InBounds (layout : Layout) : Prop :=
  ∀ place ∈ layout.reqIndices.zip layout.tokenOffsets, place.1 < layout.lengths.length ∧ place.2 < layout.rowWidth

instance (layout : Layout) : Decidable layout.InBounds := inferInstanceAs (Decidable (∀ place ∈ _, _))

/-- The histories with the tokens of the pass behind them. -/
def buildContext (pool : ReqToTokenPool) (layout : Layout) (fast : Bool) (tokens : List Token)
    (validTokens : List Bool) (stateIndices : List Nat) (ngramSize : Option Nat) (eos : Option Token) :
    Except PleError (Option (List (List Token))) :=
  match ngramSize, eos with
  | none, _ => .ok none
  | some _, none => .error .shape
  | some ngramSize, some eos =>
      if ¬ layout.InBounds then .error .shape else
      if pool.contextLen + 1 ≠ ngramSize then .error (.contextWidth pool.contextLen ngramSize) else
      .ok (some (List.zipWith (· ++ ·) (stateIndices.map pool.context)
        (padded layout fast tokens validTokens eos)))

/-- The batch for a layout. -/
def assemble (pool : ReqToTokenPool) (inputIds : List Token) (forwardBatch : ForwardBatch) (mode : ForwardMode)
    (fast : Bool) (processed : Nat) (layout : Layout) (ngramSize : Option Nat) (eos : Option Token) :
    Except PleError PleBatch :=
  let tokens := inputIds.take processed
  let sequenceCount := layout.lengths.length
  let validTokens :=
    if fast then List.replicate processed true
    else List.zipWith (fun row offset => offset < layout.lengths.getD row 0) layout.reqIndices layout.tokenOffsets
  let slots := (forwardBatch.reqPoolIndices.take sequenceCount).map pool.mambaIndex
  let valid := validRows forwardBatch mode fast processed layout
  if slots.length ≠ sequenceCount ∨ valid.length ≠ sequenceCount then .error .shape else
  let stateIndices := List.zipWith (fun valid slot => if valid then slot else 0) valid slots
  match buildContext pool layout fast tokens validTokens stateIndices ngramSize eos with
  | .error error => .error error
  | .ok ngramContext => .ok {
      toLayout := layout
      mode := mode
      useDecodeFastPath := fast
      physicalTokens := inputIds.length
      processedTokens := processed
      validTokens := validTokens
      stateIndices := stateIndices
      ngramContext := ngramContext
      ngramEosTokenId := eos }

/-- `_prepare_ple_batch`; an idle pass has no batch. -/
def preparePleBatch (fusion : Bool) (pool : ReqToTokenPool) (inputIds : List Token) (forwardBatch : ForwardBatch)
    (ngramSize : Option Nat) (eos : Option Token) : Except PleError (Option PleBatch) :=
  if forwardBatch.tboParentTokenRange.isSome then .error .twoBatchOverlap else
  if forwardBatch.ngramSpeculation then .error .ngramSpeculation else
  if forwardBatch.specInfo.any (·.topk ≠ 1) then .error .speculationTopk else
  let mode := pleForwardMode forwardBatch
  if mode = .idle then .ok none else
  let fast := fusion && decide (mode = .decode)
  match processedTokenCount forwardBatch inputIds.length with
  | .error error => .error error
  | .ok processed =>
      match layout forwardBatch mode processed with
      | .error error => .error error
      | .ok layout =>
          (assemble pool inputIds forwardBatch mode fast processed layout ngramSize eos).map some

/-- What the layers of one model share. -/
structure Model where
  ngramSize : Nat
  eosTokenId : Token
  fusion : Bool

structure LayerTables where
  headsPerNgram : Nat
  layerMultipliers : List Token
  ngramHeadsVocabSizes : List Token
  ngramHeadsOffsets : List Token

def Model.embedding (model : Model) (tables : LayerTables) : Embedding where
  ngramSize := model.ngramSize
  headsPerNgram := tables.headsPerNgram
  eosTokenId := model.eosTokenId
  enablePleFusion := model.fusion
  layerMultipliers := tables.layerMultipliers
  ngramHeadsVocabSizes := tables.ngramHeadsVocabSizes
  ngramHeadsOffsets := tables.ngramHeadsOffsets

/-- `fused_qwen4_ngram_hash`, for the contexts that `can_fuse_qwen4_ngram_hash`
accepts. -/
abbrev FusedHash := Embedding → List (List Token) → Option (List (List Token))

/-- `_hash_contexts`.  The shifted tokens are kept for the other layers. -/
def hashContexts (fused : FusedHash) (embedding : Embedding) (pool : ReqToTokenPool) (contexts : List (List Token))
    (decodeSized : Bool) : Except PleError (List (List Token) × ReqToTokenPool) :=
  match if embedding.enablePleFusion && decodeSized then fused embedding contexts else none with
  | some ids => .ok (ids, pool)
  | none =>
      match pool.pleWindowCache with
      | some (_, cached, some shifted) =>
          if cached = contexts then
            if shifted.length = embedding.ngramSize then .ok (embedding.eagerIds shifted contexts, pool)
            else .error .shape
          else .ok (embedding.eagerIds (embedding.shiftedTokens contexts) contexts, pool)
      | some (batch, cached, none) =>
          let shifted := embedding.shiftedTokens contexts
          .ok (embedding.eagerIds shifted contexts,
            if cached = contexts then { pool with pleWindowCache := some (batch, contexts, some shifted) } else pool)
      | none => .ok (embedding.eagerIds (embedding.shiftedTokens contexts) contexts, pool)

/-- The window that ends in each token of the pass. -/
def PleBatch.windows (batch : PleBatch) (ngramSize : Nat) (context : List (List Token)) : List (List Token) :=
  if batch.useDecodeFastPath then context else
  List.zipWith (fun row offset => window (context.getD row []) offset ngramSize) batch.reqIndices batch.tokenOffsets

/-- Whether there are windows at all: `unfold` refuses a context that is narrower
than one, whatever is read of it. -/
def PleBatch.Unfolds (batch : PleBatch) (contextLen ngramSize : Nat) : Prop :=
  batch.useDecodeFastPath ∨ ngramSize ≤ contextLen + batch.rowWidth

instance (batch : PleBatch) (contextLen ngramSize : Nat) : Decidable (batch.Unfolds contextLen ngramSize) :=
  inferInstanceAs (Decidable (_ ∨ _))

/-- The windows of a batch that the window cache is not for. -/
def hashWindows (fused : FusedHash) (embedding : Embedding) (pool : ReqToTokenPool) (batch : PleBatch)
    (context : List (List Token)) (decodeSized : Bool) : Except PleError (List (List Token) × ReqToTokenPool) :=
  if batch.Unfolds pool.contextLen embedding.ngramSize then
    let contexts := batch.windows embedding.ngramSize context
    hashContexts fused embedding { pool with pleWindowCache := some (batch, contexts, none) } contexts decodeSized
  else .error .shape

def computeNgramIds (fused : FusedHash) (embedding : Embedding) (pool : ReqToTokenPool) (batch : PleBatch) :
    Except PleError (List (List Token) × ReqToTokenPool) :=
  match batch.ngramContext with
  | none => .error .shape
  | some context =>
      let decodeSized := batch.mode = .decode || batch.mode = .targetVerify
      match pool.pleWindowCache with
      | some (cachedBatch, contexts, _) =>
          if cachedBatch = batch then hashContexts fused embedding pool contexts decodeSized
          else hashWindows fused embedding pool batch context decodeSized
      | none => hashWindows fused embedding pool batch context decodeSized

/-- `_ple_track_targets`: the slots of the snapshots and the offset of each. -/
def pleTrackTargets (forwardBatch : ForwardBatch) (batch : PleBatch) : Option (List Nat × List Nat) :=
  match forwardBatch.mambaTrackIndices, forwardBatch.mambaTrackMask with
  | some indices, some mask =>
      let rows := batch.lengths.length
      let targets := List.zipWith (fun tracked slot => if tracked then slot else 0) (mask.take rows) (indices.take rows)
      if batch.mode = .decode then some (targets, batch.lengths) else
      forwardBatch.mambaTrackAlignedLens.map fun aligned =>
        (targets, List.zipWith (fun length boundary => min (max boundary 0).toNat length) batch.lengths
          (aligned.take rows))
  | _, _ => none

/-- `context.gather` of `contextLen` columns from each row's offset on. -/
def gatherContexts (contextLen : Nat) (context : List (List Token)) (offsets : List Nat) : List (List Token) :=
  List.zipWith (fun row offset => window row offset contextLen) context offsets

/-- The context after each draft token, EOS where the row has no token. -/
def stepContexts (batch : PleBatch) (contextLen : Nat) (eos : Token) (context : List (List Token)) :
    List (List (List Token)) :=
  List.zipWith (fun row valid => (List.range batch.rowWidth).map fun step =>
      if valid.getD step false then window row (step + 1) contextLen else List.replicate contextLen eos)
    context (reshape batch.rowWidth batch.lengths.length batch.validTokens)

def commitPleBatch (pool : ReqToTokenPool) (batch : PleBatch) (forwardBatch : ForwardBatch) :
    Except PleError ReqToTokenPool :=
  match batch.ngramContext with
  | none => .ok pool
  | some context =>
      if batch.processedTokens = 0 then .ok pool else
      if batch.mode = .targetVerify then
        match batch.ngramEosTokenId with
        | none => .error .shape
        | some eos => .ok { pool with intermediate := stepContexts batch pool.contextLen eos context }
      else if batch.useDecodeFastPath then
        let nextContext := context.map (·.drop batch.rowWidth)
        let committed := pool.setNgramContext batch.stateIndices nextContext
        match pleTrackTargets forwardBatch batch with
        | none => .ok committed
        | some (targets, _) => .ok (committed.setNgramContext targets nextContext)
      else if ∃ length ∈ batch.lengths, batch.rowWidth < length then .error .shape
      else
        let committed := pool.setNgramContext batch.stateIndices (gatherContexts pool.contextLen context batch.lengths)
        match pleTrackTargets forwardBatch batch with
        | none => .ok committed
        | some (targets, offsets) =>
            .ok (committed.setNgramContext targets (gatherContexts pool.contextLen context offsets))

/-- The layers ask for their ids in some order, prefetches included. -/
def computeAll (fused : FusedHash) (model : Model) (batch : PleBatch) :
    List LayerTables → ReqToTokenPool → Except PleError (List (List (List Token)) × ReqToTokenPool)
  | [], pool => .ok ([], pool)
  | tables :: rest, pool =>
      match computeNgramIds fused (model.embedding tables) pool batch with
      | .error error => .error error
      | .ok (ids, pool) =>
          match computeAll fused model batch rest pool with
          | .error error => .error error
          | .ok (later, pool) => .ok (ids :: later, pool)

/-- One pass: the batch is prepared once, the layers hash, the histories move on. -/
def forward (fused : FusedHash) (model : Model) (pool : ReqToTokenPool) (inputIds : List Token)
    (forwardBatch : ForwardBatch) (calls : List LayerTables) :
    Except PleError (List (List (List Token)) × ReqToTokenPool) :=
  let pool := { pool with pleWindowCache := none }
  match preparePleBatch model.fusion pool inputIds forwardBatch (some model.ngramSize) (some model.eosTokenId) with
  | .error error => .error error
  | .ok none => .ok ([], pool)
  | .ok (some batch) =>
      match computeAll fused model batch calls pool with
      | .error error => .error error
      | .ok (ids, pool) =>
          match commitPleBatch pool batch forwardBatch with
          | .error error => .error error
          | .ok pool => .ok (ids, pool)

end FlashNext.NGram
