import FlashNext.Data.Chunks
import FlashNext.Ple.Lookup

namespace FlashNext.Ple

open FlashNext.Data FlashNext.Collective FlashNext.NGram

variable {parallel : Parallel} {Value : Type} {experts : Nat → (parallel.Rank → Rows Value) → parallel.Rank → Rows Value}

/-- The n-gram part of a `Qwen4ExpPLELayer`, with the table of each rank. -/
structure PleLayer (parallel : Parallel) (Value : Type) where
  tables : LayerTables
  offload : Bool
  host : parallel.Rank → PinnedHostEmbedding Value

/-- What a pass finds on a rank's device: whether a graph is being captured, what
new memory contains, and whether the prefetch stream is through with its gather
before the layer in front of it is. -/
structure Device (Value : Type) where
  capture : Bool
  empty : Nat → Rows Value
  early : Nat → Bool
  empty_length : ∀ count, (empty count).length = count

/-- `_prefetch_state`: a view of the first rows of a buffer, and the gather into it
while the stream has yet to run it. -/
structure Prefetched where
  graph : Bool
  lookupTokens : Nat
  semanticTokens : Nat
  queued : Option (List (List Token))

structure PleState (Value : Type) where
  graphPrefetchBuffers : Nat → Option (Rows Value)
  eagerPrefetchBuffer : Option (Rows Value)
  prefetchState : Option Prefetched

section Code

namespace PleState

def init : PleState Value where
  graphPrefetchBuffers := fun _ => none
  eagerPrefetchBuffer := none
  prefetchState := none

/-- `_get_prefetch_buffer`, which may leave a new buffer behind. -/
def allocate (state : PleState Value) (device : Device Value) (lookupTokens : Nat) : PleState Value :=
  if device.capture then
    match state.graphPrefetchBuffers lookupTokens with
    | some _ => state
    | none =>
        { state with graphPrefetchBuffers :=
            Function.update state.graphPrefetchBuffers lookupTokens (some (device.empty lookupTokens)) }
  else if state.eagerPrefetchBuffer.any fun buffer => lookupTokens ≤ buffer.length then state
  else { state with eagerPrefetchBuffer := some (device.empty lookupTokens) }

def buffer (state : PleState Value) (prefetched : Prefetched) : Rows Value :=
  if prefetched.graph then (state.graphPrefetchBuffers prefetched.lookupTokens).getD []
  else state.eagerPrefetchBuffer.getD []

def setBuffer (state : PleState Value) (prefetched : Prefetched) (rows : Rows Value) : PleState Value :=
  if prefetched.graph then
    { state with graphPrefetchBuffers :=
        Function.update state.graphPrefetchBuffers prefetched.lookupTokens (some rows) }
  else { state with eagerPrefetchBuffer := some rows }

/-- The prefetch stream runs the gather that it has been given. -/
def runStream [Zero Value] (cells : Cells Value) (host : PinnedHostEmbedding Value) (state : PleState Value) : PleState Value :=
  match state.prefetchState with
  | none => state
  | some prefetched =>
      match prefetched.queued with
      | none => state
      | some ids =>
          { state.setBuffer prefetched (splice (state.buffer prefetched) 0 (gather cells host ids)) with
            prefetchState := some { prefetched with queued := none } }

end PleState

variable [Zero Value] [Add Value] [Mul Value] (cells : Cells Value) (fused : FusedHash) (model : Model)

def PleLayer.heads (layer : PleLayer parallel Value) : Nat := (model.ngramSize - 1) * layer.tables.headsPerNgram

def idleIds (layer : PleLayer parallel Value) (tokens : Nat) : List (List Token) :=
  List.replicate tokens (List.replicate (layer.heads model) 0)

def computeIds (layer : PleLayer parallel Value) (pool : ReqToTokenPool) (batch : PleBatch) :
    RankProgram experts (List (List Token) × ReqToTokenPool) :=
  Program.ofExcept ((computeNgramIds fused (model.embedding layer.tables) pool batch).mapError .ple)

/-- The second half of `start_prefetch`; `index` is the layer's. -/
def launch (layer : PleLayer parallel Value) (rank : parallel.Rank) (device : Device Value) (index : Nat)
    (sizes : Option (List Nat)) (ids : List (List Token)) (physicalTokens : Nat) (state : PleState Value) :
    RankProgram experts (PleState Value) := do
  let (lookupIds, semanticTokens) ← prepareEmbeddingLookup (layer.heads model) sizes ids physicalTokens
  if lookupIds.length = 0 then return state
  else
    let launched := { state.allocate device lookupIds.length with
      prefetchState := some ⟨device.capture, lookupIds.length, semanticTokens, some lookupIds⟩ }
    return if device.early index then launched.runStream cells (layer.host rank) else launched

def startPrefetch (layer : PleLayer parallel Value) (rank : parallel.Rank) (device : Device Value) (index : Nat)
    (sizes : Option (List Nat)) (inputTokens : Nat) (batch : Option PleBatch) (pool : ReqToTokenPool)
    (state : PleState Value) : RankProgram experts (ReqToTokenPool × PleState Value) :=
  if !layer.offload then return (pool, state)
  else if state.prefetchState.isSome then .raised .notConsumed
  else
    match batch with
    | none =>
        if !parallel.gatherDpTokens then return (pool, state)
        else do
          let state ← launch cells model layer rank device index sizes (idleIds model layer inputTokens) inputTokens state
          return (pool, state)
    | some batch => do
        let (ids, pool) ← computeIds fused model layer pool batch
        let state ← launch cells model layer rank device index sizes ids batch.physicalTokens state
        return (pool, state)

/-- `_consume_prefetched_embeddings`, which waits for the stream. -/
def consumePrefetched (layer : PleLayer parallel Value) (rank : parallel.Rank) (sizes : Option (List Nat))
    (state : PleState Value) : RankProgram experts (Rows Value × PleState Value) :=
  let waited := state.runStream cells (layer.host rank)
  match waited.prefetchState with
  | none => .raised .missingState
  | some prefetched => do
      let embeddings ← reduce rank ((waited.buffer prefetched).take prefetched.lookupTokens)
      return (finishEmbeddingLookup rank sizes (scaled (layer.host rank) embeddings) prefetched.semanticTokens,
        { waited with prefetchState := none })

/-- The embeddings that `forward` computes with. -/
def pleForward (layer : PleLayer parallel Value) (rank : parallel.Rank) (sizes : Option (List Nat)) (batch : PleBatch)
    (pool : ReqToTokenPool) (state : PleState Value) :
    RankProgram experts (Rows Value × ReqToTokenPool × PleState Value) :=
  if state.prefetchState.isSome then do
    let (embeddings, state) ← consumePrefetched cells layer rank sizes state
    return (embeddings, pool, state)
  else do
    let (ids, pool) ← computeIds fused model layer pool batch
    let embeddings ← embedNgramIds cells (layer.host rank) rank (layer.heads model) sizes ids batch.physicalTokens
    return (embeddings, pool, state)

/-- `forward_idle`: the other groups need this rank in their collectives. -/
def pleForwardIdle (layer : PleLayer parallel Value) (rank : parallel.Rank) (sizes : Option (List Nat))
    (inputTokens : Nat) (state : PleState Value) : RankProgram experts (PleState Value) :=
  if state.prefetchState.isSome then do
    let (_, state) ← consumePrefetched cells layer rank sizes state
    return state
  else if !parallel.gatherDpTokens then return state
  else do
    let _ ← embedNgramIds cells (layer.host rank) rank (layer.heads model) sizes (idleIds model layer inputTokens) inputTokens
    return state

end Code

/-- One pass: the batch of each group, or none, the length of its input, and the DP
token layout that all groups know. -/
structure Groups (parallel : Parallel) where
  batch : Fin parallel.attnDpSize → Option PleBatch
  inputTokens : Fin parallel.attnDpSize → Nat
  sizes : Option (List Nat)

/-- The batch of a group has windows, and the window cache of the pool fits it. -/
def PoolFits (model : Model) (batch : Option PleBatch) (pool : ReqToTokenPool) : Prop :=
  ∀ prepared ∈ batch, prepared.Unfolds pool.contextLen model.ngramSize ∧
    ∀ rows, prepared.ngramContext = some rows → CacheFits model prepared rows pool

namespace Groups

variable (groups : Groups parallel) (model : Model) (layer : PleLayer parallel Value)

/-- A pass is laid out: every token of a batch has its window, and the layout has
the input lengths. -/
structure Laid : Prop where
  sizes : parallel.gatherDpTokens → groups.sizes = some ((List.finRange parallel.attnDpSize).map groups.inputTokens)
  context : ∀ dp, ∀ batch ∈ groups.batch dp, ∃ rows, batch.ngramContext = some rows ∧
    (∀ window ∈ batch.windows model.ngramSize rows, window.length = model.ngramSize) ∧
    batch.physicalTokens = groups.inputTokens dp ∧ (batch.windows model.ngramSize rows).length ≤ groups.inputTokens dp

/-- The ids of a batch, by its windows. -/
def batchIds (batch : PleBatch) : List (List Token) :=
  (batch.windows model.ngramSize (batch.ngramContext.getD [])).map (model.embedding layer.tables).windowIds

def given (dp : Fin parallel.attnDpSize) : List (List Token) :=
  match groups.batch dp with
  | none => idleIds model layer (groups.inputTokens dp)
  | some batch => batchIds model layer batch

def brought (dp : Fin parallel.attnDpSize) : List (List Token) :=
  padTokenRows (layer.heads model) (groups.given model layer dp) (groups.inputTokens dp)

def lookup (dp : Fin parallel.attnDpSize) : List (List Token) :=
  if parallel.gatherDpTokens then ((List.finRange parallel.attnDpSize).map (groups.brought model layer)).flatten
  else groups.given model layer dp

/-- A group looks rows up where it has a batch, or others need it. -/
def active (dp : Fin parallel.attnDpSize) : Bool := parallel.gatherDpTokens || (groups.batch dp).isSome

variable {groups model layer} {dp : Fin parallel.attnDpSize}

theorem given_fits (laid : groups.Laid model) (dp : Fin parallel.attnDpSize) :
    (groups.given model layer dp).length ≤ groups.inputTokens dp := by
  cases found : groups.batch dp with
  | none => simp [given, found, idleIds]
  | some batch =>
      obtain ⟨rows, context, -, -, fits⟩ := laid.context dp batch found
      simpa [given, found, batchIds, context] using fits

theorem brought_eq (dp : Fin parallel.attnDpSize) :
    groups.brought model layer dp = groups.given model layer dp ++
      List.replicate (groups.inputTokens dp - (groups.given model layer dp).length)
        (List.replicate (layer.heads model) 0) := by
  rw [brought, padTokenRows]
  split
  · rename_i whole
    rw [whole, Nat.sub_self, List.replicate_zero, List.append_nil]
  · rfl

theorem length_brought (laid : groups.Laid model) (dp : Fin parallel.attnDpSize) :
    (groups.brought model layer dp).length = groups.inputTokens dp := by
  rw [brought_eq, List.length_append, List.length_replicate]
  have fits : (groups.given model layer dp).length ≤ _ := given_fits laid dp
  omega

theorem one_group (wide : parallel.useAttnTpNgram = false) (lone : parallel.gatherDpTokens = false)
    (dp other : Fin parallel.attnDpSize) : dp = other := by
  have one : parallel.attnDpSize ≤ 1 := by
    cases attention : parallel.dpAttention with
    | false => exact (parallel.single attention).le
    | true =>
        rw [Parallel.gatherDpTokens, attention, wide] at lone
        simpa using lone
  exact Fin.ext (by omega)

/-- Where groups share the reduction, they look the same rows up. -/
theorem lookup_shared (wide : parallel.useAttnTpNgram = false) (dp other : Fin parallel.attnDpSize) :
    groups.lookup model layer dp = groups.lookup model layer other := by
  cases gathers : parallel.gatherDpTokens with
  | true => simp [lookup, gathers]
  | false => rw [one_group wide gathers dp other]

end Groups

section Enters

variable [AddZeroClass Value] [Mul Value] (cells : Cells Value) (groups : Groups parallel) (model : Model)
  (layer : PleLayer parallel Value)

def gatherMeetings : List (Meeting (interface experts)) :=
  if parallel.gatherDpTokens then [⟨.gatherIds, fun rank part => part = groups.brought model layer rank.1⟩] else []

def reduceMeetings : List (Meeting (interface experts)) :=
  let promises (rank : parallel.Rank) (part : Rows Value) :=
    part = gather cells (layer.host rank) (groups.lookup model layer rank.1)
  if !reduces parallel then []
  else if parallel.useAttnTpNgram then
    ((List.finRange parallel.attnDpSize).filter (groups.active ·)).map fun dp => ⟨.attnAllReduce dp, promises⟩
  else if (List.finRange parallel.attnDpSize).any (groups.active ·) then [⟨.allReduce, promises⟩] else []

/-- The rows of the whole table, before they are scaled. -/
def wholeRows (dtype : TableDtype) (row : Nat → Row) (ids : List (List Token)) : Rows Value :=
  ids.map fun tokenIds => tokenIds.flatMap fun id => cells dtype (row id.toInt.toNat)

variable {cells groups model layer} {dtype : TableDtype} {scale : Value} {row : Nat → Row} {vocab dim : Nat}
  {rank : parallel.Rank}

omit [Mul Value] in
theorem reduce_follows (cut : Cut cells dtype scale row vocab dim layer.host) (whole : parallel.inputScattered = false)
    (known : ∀ dp, ∀ row ∈ groups.lookup model layer dp, ∀ id ∈ row, InTable vocab id) (active : groups.active rank.1) :
    Follows rank (· = wholeRows cells dtype row (groups.lookup model layer rank.1)) (reduceMeetings cells groups model layer)
      (reduce rank (gather cells (layer.host rank) (groups.lookup model layer rank.1)) : RankProgram experts (Rows Value)) := by
  cases reducing : reduces parallel with
  | false =>
      have alone : parallel.embeddingTpSize ≤ 1 := by simpa [reduces, whole] using reducing
      simp only [reduceMeetings, reduce, reducing, Bool.not_false, if_true, Bool.false_eq_true, if_false]
      exact Follows.pure (cut.gather_alone alone (known rank.1))
  | true =>
      cases narrow : parallel.useAttnTpNgram with
      | true =>
          simp only [reduceMeetings, reduce, reducing, narrow, Bool.not_true, if_true, Bool.false_eq_true, if_false]
          refine Follows.among ((List.nodup_finRange _).filter _) (List.mem_filter.mpr ⟨List.mem_finRange rank.1, active⟩)
            (fun other _ apart => decide_eq_false fun same => apart same.symm) ?_
          refine Follows.join (decide_eq_true rfl) rfl fun parts _ kept => ?_
          have call : (reduceCall rank.1 : RankCall parallel) = .attnAllReduce rank.1 := by rw [reduceCall, if_pos narrow]
          refine Eq.trans ?_ (cut.sumRows_gathered rank.1 (known rank.1))
          rw [call]
          refine congrArg sumRows (List.map_congr_left fun member listed => ?_)
          have joined := mem_members.mp listed
          have same : member.1 = rank.1 := of_decide_eq_true joined
          exact (kept member joined).trans (by rw [same])
      | false =>
          have someone : (List.finRange parallel.attnDpSize).any (groups.active ·) = true :=
            List.any_eq_true.mpr ⟨rank.1, List.mem_finRange _, active⟩
          simp only [reduceMeetings, reduce, reducing, narrow, someone, Bool.not_true, if_true, Bool.false_eq_true, if_false]
          refine Follows.join rfl rfl fun parts _ kept => ?_
          have call : (reduceCall rank.1 : RankCall parallel) = .allReduce := by
            rw [reduceCall, narrow]
            rfl
          have everyone : (RankCall.allReduce : RankCall parallel).members = parallel.ranks := List.filter_true _
          refine Eq.trans ?_ (cut.sumRows_gathered rank.1 (known rank.1))
          rw [call, everyone]
          refine congrArg sumRows (List.map_congr_left fun member _ => ?_)
          exact (kept member rfl).trans (by rw [Groups.lookup_shared narrow member.1 rank.1])

omit [Mul Value] in
theorem prepare_follows (laid : groups.Laid model) (rank : parallel.Rank) :
    Follows rank (· = (groups.lookup model layer rank.1, (groups.given model layer rank.1).length))
      (gatherMeetings groups model layer)
      (prepareEmbeddingLookup (layer.heads model) groups.sizes (groups.given model layer rank.1)
        (groups.inputTokens rank.1) : RankProgram experts (List (List Token) × Nat)) := by
  cases gathers : parallel.gatherDpTokens with
  | false =>
      simp only [gatherMeetings, prepareEmbeddingLookup, gathers, Bool.false_eq_true, if_false]
      refine Follows.pure ?_
      rw [Groups.lookup, gathers]
      rfl
  | true =>
      simp only [gatherMeetings, prepareEmbeddingLookup, gathers, if_true, laid.sizes gathers]
      have entered : Follows rank (· = groups.lookup model layer rank.1)
          ([⟨.gatherIds, fun rank part => part = groups.brought model layer rank.1⟩] : List (Meeting (interface experts)))
          (enter .gatherIds (groups.brought model layer rank.1) : RankProgram experts (List (List Token))) := by
        refine Follows.join rfl rfl fun parts _ kept => ?_
        rw [Groups.lookup, if_pos gathers]
        exact gathered_eq fun member => kept member rfl
      refine Follows.bind entered fun globalIds gathered => ?_
      subst gathered
      exact Follows.pure rfl

omit [AddZeroClass Value] in
theorem finish_lookup (laid : groups.Laid model) (cut : Cut cells dtype scale row vocab dim layer.host) (rank : parallel.Rank) :
    finishEmbeddingLookup rank groups.sizes
        (scaled (layer.host rank) (wholeRows cells dtype row (groups.lookup model layer rank.1)))
        (groups.given model layer rank.1).length =
      (groups.given model layer rank.1).map (wholeRow cells dtype scale row) := by
  have rows (ids : List (List Token)) :
      scaled (layer.host rank) (wholeRows cells dtype row ids) = ids.map (wholeRow cells dtype scale row) := by
    rw [scaled, wholeRows, List.map_map, cut.sameScale]
    rfl
  rw [rows, finishEmbeddingLookup, Groups.lookup]
  split
  · rename_i gathers
    have lengths : (List.finRange parallel.attnDpSize).map groups.inputTokens =
        ((List.finRange parallel.attnDpSize).map fun dp =>
          (groups.brought model layer dp).map (wholeRow cells dtype scale row)).map List.length := by
      rw [List.map_map]
      exact List.map_congr_left fun dp _ => by simp [Groups.length_brought laid]
    have mine : ((List.finRange parallel.attnDpSize).map fun dp =>
        (groups.brought model layer dp).map (wholeRow cells dtype scale row))[rank.1.val]? =
        some ((groups.brought model layer rank.1).map (wholeRow cells dtype scale row)) := by
      rw [List.getElem?_map, List.getElem?_eq_getElem (by simp), List.getElem_finRange]
      rfl
    rw [laid.sizes gathers, Option.getD_some, List.map_flatten, List.map_map, lengths]
    refine (congrArg (List.take _) (segment_flatten mine)).trans ?_
    rw [Groups.brought_eq, List.map_append, List.take_left' (List.length_map _)]
  · rfl

omit [Mul Value] in
/-- A group without a batch that nobody waits for stays out. -/
theorem reduceMeetings_absent (passive : groups.active rank.1 = false) :
    ∀ meeting ∈ (reduceMeetings cells groups model layer : List (Meeting (interface experts))),
      (interface experts).joins meeting.call rank = false := by
  intro meeting listed
  rw [reduceMeetings] at listed
  split at listed
  · cases listed
  split at listed
  · obtain ⟨dp, inside, rfl⟩ := List.mem_map.mp listed
    refine decide_eq_false fun same => ?_
    have active := (List.mem_filter.mp inside).2
    rw [← same, passive] at active
    cases active
  · rename_i wide
    split at listed
    · rename_i someone
      obtain ⟨dp, -, active⟩ := List.any_eq_true.mp someone
      have lone : parallel.gatherDpTokens = false := by
        cases gathers : parallel.gatherDpTokens with
        | false => rfl
        | true => rw [Groups.active, gathers] at passive; cases passive
      have same := Groups.one_group (by simpa using wide) lone dp rank.1
      rw [same, passive] at active
      cases active
    · cases listed

theorem embed_follows (laid : groups.Laid model) (cut : Cut cells dtype scale row vocab dim layer.host)
    (whole : parallel.inputScattered = false)
    (known : ∀ dp, ∀ row ∈ groups.lookup model layer dp, ∀ id ∈ row, InTable vocab id) (active : groups.active rank.1) :
    Follows rank (· = (groups.given model layer rank.1).map (wholeRow cells dtype scale row))
      (gatherMeetings groups model layer ++ reduceMeetings cells groups model layer)
      (embedNgramIds cells (layer.host rank) rank (layer.heads model) groups.sizes (groups.given model layer rank.1)
        (groups.inputTokens rank.1) : RankProgram experts (Rows Value)) := by
  refine Follows.bind (prepare_follows laid rank) fun prepared found => ?_
  subst found
  rw [← List.append_nil (reduceMeetings cells groups model layer)]
  refine Follows.bind (reduce_follows cut whole known active) fun embeddings found => ?_
  subst found
  exact Follows.pure (finish_lookup laid cut rank)

/-- A prefetch under way, its rows in the buffer or about to be written there. -/
structure Pending (cells : Cells Value) (groups : Groups parallel) (model : Model) (layer : PleLayer parallel Value)
    (rank : parallel.Rank) (state : PleState Value) (prefetched : Prefetched) : Prop where
  started : state.prefetchState = some prefetched
  lookupTokens : prefetched.lookupTokens = (groups.lookup model layer rank.1).length
  semanticTokens : prefetched.semanticTokens = (groups.given model layer rank.1).length
  rows : (prefetched.queued = some (groups.lookup model layer rank.1) ∧
      prefetched.lookupTokens ≤ (state.buffer prefetched).length) ∨
    (prefetched.queued = none ∧
      (state.buffer prefetched).take prefetched.lookupTokens = gather cells (layer.host rank) (groups.lookup model layer rank.1))

namespace PleState

/-- The buffers that graphs were captured with have the sizes they are kept under. -/
def Kept (state : PleState Value) : Prop :=
  ∀ count rows, state.graphPrefetchBuffers count = some rows → rows.length = count

variable {state : PleState Value} {prefetched : Prefetched}

omit [AddZeroClass Value] [Mul Value]

theorem buffer_setBuffer (rows : Rows Value) : (state.setBuffer prefetched rows).buffer prefetched = rows := by
  cases graph : prefetched.graph <;> simp [setBuffer, buffer, graph]

theorem allocate_enough (device : Device Value) (graph : prefetched.graph = device.capture) (kept : state.Kept) :
    prefetched.lookupTokens ≤ ((state.allocate device prefetched.lookupTokens).buffer prefetched).length := by
  cases capture : device.capture with
  | true =>
      cases found : state.graphPrefetchBuffers prefetched.lookupTokens with
      | none => simp [allocate, buffer, graph, capture, found, device.empty_length]
      | some rows => simp [allocate, buffer, graph, capture, found, kept _ rows found]
  | false =>
      by_cases large : state.eagerPrefetchBuffer.any fun buffer => prefetched.lookupTokens ≤ buffer.length
      · have same : state.allocate device prefetched.lookupTokens = state := by
          rw [allocate, capture, if_neg Bool.false_ne_true, if_pos large]
        obtain ⟨rows, found, enough⟩ := (Option.any_eq_true _ _).mp large
        rw [same, buffer, graph, capture, if_neg Bool.false_ne_true, found, Option.getD_some]
        simpa using enough
      · simp [allocate, buffer, graph, capture, large, device.empty_length]

theorem allocate_kept (device : Device Value) (lookupTokens : Nat) (kept : state.Kept) :
    (state.allocate device lookupTokens).Kept := by
  rw [allocate]
  split
  · split
    · exact kept
    · intro count rows found
      by_cases here : count = lookupTokens
      · subst here
        simp only [Function.update_self, Option.some.injEq] at found
        rw [← found, device.empty_length]
      · simp only [Function.update_of_ne here] at found
        exact kept count rows found
  · split <;> exact kept

theorem setBuffer_kept {rows : Rows Value} (kept : state.Kept)
    (sized : prefetched.graph = true → rows.length = prefetched.lookupTokens) : (state.setBuffer prefetched rows).Kept := by
  rw [setBuffer]
  split
  · rename_i graph
    intro count other found
    by_cases here : count = prefetched.lookupTokens
    · subst here
      simp only [Function.update_self, Option.some.injEq] at found
      rw [← found, sized graph]
    · simp only [Function.update_of_ne here] at found
      exact kept count other found
  · exact kept

end PleState

omit [Mul Value] in
/-- Once the stream is through, the rows are in the buffer, over whatever it had. -/
theorem Pending.runStream {state : PleState Value} {prefetched : Prefetched}
    (pending : Pending cells groups model layer rank state prefetched) (kept : state.Kept) :
    (state.runStream cells (layer.host rank)).Kept ∧
      Pending cells groups model layer rank (state.runStream cells (layer.host rank)) { prefetched with queued := none } := by
  obtain ⟨started, lookupTokens, semanticTokens, ⟨queued, enough⟩ | ⟨queued, written⟩⟩ := pending
  · have count : (gather cells (layer.host rank) (groups.lookup model layer rank.1)).length = prefetched.lookupTokens := by
      rw [gather, List.length_map, lookupTokens]
    have fits : 0 + (gather cells (layer.host rank) (groups.lookup model layer rank.1)).length ≤
        (state.buffer prefetched).length := by omega
    have ran : state.runStream cells (layer.host rank) =
        { state.setBuffer prefetched (splice (state.buffer prefetched) 0
            (gather cells (layer.host rank) (groups.lookup model layer rank.1))) with
          prefetchState := some { prefetched with queued := none } } := by
      rw [PleState.runStream, started]
      simp only [queued]
    rw [ran]
    refine ⟨PleState.setBuffer_kept kept fun graph => ?_, rfl, lookupTokens, semanticTokens, .inr ⟨rfl, ?_⟩⟩
    · rw [splice_length fits]
      cases found : state.graphPrefetchBuffers prefetched.lookupTokens with
      | none =>
          have short : (state.buffer prefetched).length = 0 := by simp [PleState.buffer, graph, found]
          omega
      | some rows => simpa [PleState.buffer, graph, found] using kept _ rows found
    · have first := @splice_take _ (state.buffer prefetched)
        (gather cells (layer.host rank) (groups.lookup model layer rank.1)) 0 (Nat.zero_le _)
      rw [Nat.zero_add, count, List.take_zero, List.nil_append] at first
      exact (congrArg _ (PleState.buffer_setBuffer _)).trans first
  · have ran : state.runStream cells (layer.host rank) = state := by
      rw [PleState.runStream, started]
      simp only [queued]
    rw [ran]
    refine ⟨kept, ?_, lookupTokens, semanticTokens, .inr ⟨rfl, written⟩⟩
    rw [started, ← queued]

/-- After a layer's turn to prefetch: something is under way where it was tried and
the group has rows to look up. -/
def After (cells : Cells Value) (groups : Groups parallel) (model : Model) (layer : PleLayer parallel Value)
    (rank : parallel.Rank) (tried : Bool) (state : PleState Value) : Prop :=
  state.Kept ∧
    if tried && layer.offload && groups.active rank.1 && decide ((groups.lookup model layer rank.1).length ≠ 0) then
      ∃ prefetched, Pending cells groups model layer rank state prefetched
    else state.prefetchState = none

omit [Mul Value] in
theorem launch_follows (laid : groups.Laid model) (device : Device Value) (index : Nat) {state : PleState Value}
    (kept : state.Kept) (idle : state.prefetchState = none) :
    Follows rank (fun after => after.Kept ∧
        if (groups.lookup model layer rank.1).length = 0 then after.prefetchState = none
        else ∃ prefetched, Pending cells groups model layer rank after prefetched)
      (gatherMeetings groups model layer)
      (launch cells model layer rank device index groups.sizes (groups.given model layer rank.1)
        (groups.inputTokens rank.1) state : RankProgram experts (PleState Value)) := by
  rw [← List.append_nil (gatherMeetings groups model layer)]
  refine Follows.bind (prepare_follows laid rank) fun prepared found => ?_
  subst found
  dsimp only
  split
  · exact Follows.pure ⟨kept, idle⟩
  · have enough := @PleState.allocate_enough _ state ⟨device.capture, (groups.lookup model layer rank.1).length,
      (groups.given model layer rank.1).length, some (groups.lookup model layer rank.1)⟩ device rfl kept
    have allocated := PleState.allocate_kept device (groups.lookup model layer rank.1).length kept
    have pending : Pending cells groups model layer rank
        { state.allocate device (groups.lookup model layer rank.1).length with
          prefetchState := some ⟨device.capture, (groups.lookup model layer rank.1).length,
            (groups.given model layer rank.1).length, some (groups.lookup model layer rank.1)⟩ }
        ⟨device.capture, (groups.lookup model layer rank.1).length,
          (groups.given model layer rank.1).length, some (groups.lookup model layer rank.1)⟩ :=
      ⟨rfl, rfl, rfl, .inl ⟨rfl, enough⟩⟩
    refine Follows.pure ?_
    split
    · have ran := pending.runStream allocated
      exact ⟨ran.1, _, ran.2⟩
    · exact ⟨allocated, _, pending⟩

omit [Mul Value] in
theorem computeIds_eq {fused : FusedHash} {batch : PleBatch} {pool : ReqToTokenPool} (faithful : fused.Faithful)
    (large : 0 < model.ngramSize) (laid : groups.Laid model) (found : groups.batch rank.1 = some batch)
    (fits : PoolFits model (some batch) pool) :
    ∃ next, (computeIds fused model layer pool batch : RankProgram experts _) =
        .done (groups.given model layer rank.1, next) ∧ PoolFits model (some batch) next := by
  obtain ⟨rows, context, widths, -, -⟩ := laid.context rank.1 batch found
  obtain ⟨unfolds, cached⟩ := fits batch rfl
  obtain ⟨next, hashed, kept, same⟩ := computeNgramIds_eq faithful large context unfolds (cached rows context) widths layer.tables
  refine ⟨next, ?_, ?_⟩
  · rw [computeIds, hashed]
    simp only [Except.mapError, Program.ofExcept, Groups.given, found, Groups.batchIds, context, Option.getD_some]
  · intro prepared found
    cases Option.mem_some_iff.mp found
    refine ⟨by rwa [same], fun other held => ?_⟩
    cases context.symm.trans held
    exact kept

omit [Mul Value] in
theorem start_follows {fused : FusedHash} {pool : ReqToTokenPool} (faithful : fused.Faithful) (large : 0 < model.ngramSize)
    (laid : groups.Laid model) (fits : PoolFits model (groups.batch rank.1) pool) (device : Device Value) (index : Nat)
    {state : PleState Value} (kept : state.Kept) (idle : state.prefetchState = none) :
    Follows rank (fun after => PoolFits model (groups.batch rank.1) after.1 ∧ After cells groups model layer rank true after.2)
      (if layer.offload then gatherMeetings groups model layer else [])
      (startPrefetch cells fused model layer rank device index groups.sizes (groups.inputTokens rank.1) (groups.batch rank.1)
        pool state : RankProgram experts (ReqToTokenPool × PleState Value)) := by
  unfold startPrefetch
  cases offload : layer.offload with
  | false => exact Follows.pure ⟨fits, kept, by simpa [offload] using idle⟩
  | true =>
      simp only [idle, Option.isSome_none, Bool.not_true, Bool.false_eq_true, if_false, if_true]
      cases found : groups.batch rank.1 with
      | none =>
          dsimp only
          split
          · rename_i lone
            have alone : parallel.gatherDpTokens = false := by simpa using lone
            have passive : groups.active rank.1 = false := by simp [Groups.active, alone, found]
            rw [gatherMeetings, alone]
            exact Follows.pure ⟨nofun, kept, by simpa [passive] using idle⟩
          · rename_i gathers
            have active : groups.active rank.1 = true := by simp_all [Groups.active]
            have given : groups.given model layer rank.1 = idleIds model layer (groups.inputTokens rank.1) := by
              simp only [Groups.given, found]
            rw [← given, ← List.append_nil (gatherMeetings groups model layer)]
            refine Follows.bind (launch_follows laid device index kept idle) fun after started => ?_
            refine Follows.pure ⟨nofun, started.1, ?_⟩
            simpa [offload, active] using started.2
      | some batch =>
          dsimp only
          obtain ⟨next, hashed, nextFits⟩ := @computeIds_eq parallel Value experts _ groups model layer rank fused batch pool
            faithful large laid found (found ▸ fits)
          obtain ⟨-, -, -, physical, -⟩ := laid.context rank.1 batch found
          have active : groups.active rank.1 = true := by simp [Groups.active, found]
          rw [hashed, Program.done_bind, physical, ← List.append_nil (gatherMeetings groups model layer)]
          refine Follows.bind (launch_follows laid device index kept idle) fun after started => ?_
          refine Follows.pure ⟨nextFits, started.1, ?_⟩
          simpa [offload, active] using started.2

theorem consume_follows (laid : groups.Laid model) (cut : Cut cells dtype scale row vocab dim layer.host)
    (whole : parallel.inputScattered = false)
    (known : ∀ dp, ∀ row ∈ groups.lookup model layer dp, ∀ id ∈ row, InTable vocab id) (active : groups.active rank.1)
    {state : PleState Value} {prefetched : Prefetched} (kept : state.Kept)
    (pending : Pending cells groups model layer rank state prefetched) :
    Follows rank (fun after => after.1 = (groups.given model layer rank.1).map (wholeRow cells dtype scale row) ∧
        after.2.Kept ∧ after.2.prefetchState = none)
      (reduceMeetings cells groups model layer)
      (consumePrefetched cells layer rank groups.sizes state : RankProgram experts (Rows Value × PleState Value)) := by
  obtain ⟨waited, ran⟩ := pending.runStream kept
  obtain ⟨queued, -⟩ | ⟨-, rows⟩ := ran.rows
  · cases queued
  · unfold consumePrefetched
    simp only [ran.started]
    rw [rows, ← List.append_nil (reduceMeetings cells groups model layer)]
    refine Follows.bind (reduce_follows cut whole known active) fun embeddings found => ?_
    subst found
    refine Follows.pure ⟨?_, waited, rfl⟩
    rw [ran.semanticTokens]
    exact finish_lookup laid cut rank

/-- What all ranks enter for a layer's embeddings. -/
def pleMeetings (cells : Cells Value) (groups : Groups parallel) (model : Model) (layer : PleLayer parallel Value) (tried : Bool) :
    List (Meeting (interface experts)) :=
  (if tried && layer.offload &&
      (List.finRange parallel.attnDpSize).any fun dp => (groups.lookup model layer dp).length ≠ 0
    then [] else gatherMeetings groups model layer) ++ reduceMeetings cells groups model layer

omit [Mul Value] in
theorem pleMeetings_started {tried : Bool} {dp : Fin parallel.attnDpSize}
    (started : tried && layer.offload && decide ((groups.lookup model layer dp).length ≠ 0)) :
    (pleMeetings cells groups model layer tried : List (Meeting (interface experts))) =
      reduceMeetings cells groups model layer := by
  simp only [Bool.and_eq_true] at started
  obtain ⟨⟨tried, offload⟩, some_⟩ := started
  have someone : (List.finRange parallel.attnDpSize).any (fun dp => (groups.lookup model layer dp).length ≠ 0) = true :=
    List.any_eq_true.mpr ⟨dp, List.mem_finRange _, some_⟩
  rw [pleMeetings, tried, offload, someone]
  rfl

omit [Mul Value] in
theorem pleMeetings_direct {tried : Bool} {dp : Fin parallel.attnDpSize}
    (direct : (tried && layer.offload && decide ((groups.lookup model layer dp).length ≠ 0)) = false) :
    (pleMeetings cells groups model layer tried : List (Meeting (interface experts))) =
      gatherMeetings groups model layer ++ reduceMeetings cells groups model layer := by
  rw [pleMeetings]
  split
  · rename_i someone
    simp only [Bool.and_eq_true, List.any_eq_true] at someone
    obtain ⟨⟨tried, offload⟩, other, -, some_⟩ := someone
    -- only groups that look their own rows up can differ in whether they have some
    cases gathers : parallel.gatherDpTokens with
    | false => simp [gatherMeetings, gathers]
    | true =>
        have same : groups.lookup model layer dp = groups.lookup model layer other := by simp [Groups.lookup, gathers]
        rw [tried, offload, same, some_] at direct
        cases direct
  · rfl

/-- With a batch, a rank ends up with its rows of the whole table, prefetched or not. -/
theorem pleForward_follows {fused : FusedHash} {batch : PleBatch} {pool : ReqToTokenPool} (faithful : fused.Faithful)
    (large : 0 < model.ngramSize) (laid : groups.Laid model) (cut : Cut cells dtype scale row vocab dim layer.host)
    (whole : parallel.inputScattered = false)
    (known : ∀ dp, ∀ row ∈ groups.lookup model layer dp, ∀ id ∈ row, InTable vocab id)
    (found : groups.batch rank.1 = some batch) (fits : PoolFits model (some batch) pool) {tried : Bool}
    {state : PleState Value} (after : After cells groups model layer rank tried state) :
    Follows rank (fun out => out.1 = (groups.given model layer rank.1).map (wholeRow cells dtype scale row) ∧
        PoolFits model (some batch) out.2.1 ∧ out.2.2.Kept ∧ out.2.2.prefetchState = none)
      (pleMeetings cells groups model layer tried)
      (pleForward cells fused model layer rank groups.sizes batch pool state :
        RankProgram experts (Rows Value × ReqToTokenPool × PleState Value)) := by
  obtain ⟨kept, state_⟩ := after
  have active : groups.active rank.1 = true := by simp [Groups.active, found]
  rw [active, Bool.and_true] at state_
  unfold pleForward
  split at state_
  · rename_i started
    obtain ⟨prefetched, pending⟩ := state_
    rw [pending.started, Option.isSome_some, if_pos rfl, pleMeetings_started started,
      ← List.append_nil (reduceMeetings cells groups model layer)]
    refine Follows.bind (consume_follows laid cut whole known active kept pending) fun out ended => ?_
    exact Follows.pure ⟨ended.1, fits, ended.2⟩
  · rename_i direct
    obtain ⟨next, hashed, nextFits⟩ := @computeIds_eq parallel Value experts _ groups model layer rank fused batch pool
      faithful large laid found fits
    obtain ⟨-, -, -, physical, -⟩ := laid.context rank.1 batch found
    rw [state_, Option.isSome_none, if_neg Bool.false_ne_true, hashed, Program.done_bind, physical,
      pleMeetings_direct (by simpa using direct), ← List.append_nil (_ ++ _)]
    refine Follows.bind (embed_follows laid cut whole known active) fun embeddings looked => ?_
    exact Follows.pure ⟨looked, nextFits, kept, state_⟩

/-- Without one it takes part where others wait for it. -/
theorem pleForwardIdle_follows (laid : groups.Laid model) (cut : Cut cells dtype scale row vocab dim layer.host)
    (whole : parallel.inputScattered = false)
    (known : ∀ dp, ∀ row ∈ groups.lookup model layer dp, ∀ id ∈ row, InTable vocab id)
    (found : groups.batch rank.1 = none) {tried : Bool} {state : PleState Value}
    (after : After cells groups model layer rank tried state) :
    Follows rank (fun out => out.Kept ∧ out.prefetchState = none) (pleMeetings cells groups model layer tried)
      (pleForwardIdle cells model layer rank groups.sizes (groups.inputTokens rank.1) state :
        RankProgram experts (PleState Value)) := by
  obtain ⟨kept, state_⟩ := after
  unfold pleForwardIdle
  cases gathers : parallel.gatherDpTokens with
  | true =>
      have active : groups.active rank.1 = true := by simp [Groups.active, gathers]
      have given : groups.given model layer rank.1 = idleIds model layer (groups.inputTokens rank.1) := by
        simp only [Groups.given, found]
      rw [active, Bool.and_true] at state_
      split at state_
      · rename_i started
        obtain ⟨prefetched, pending⟩ := state_
        rw [pending.started, Option.isSome_some, if_pos rfl, pleMeetings_started started,
          ← List.append_nil (reduceMeetings cells groups model layer)]
        refine Follows.bind (consume_follows laid cut whole known active kept pending) fun out ended => ?_
        exact Follows.pure ended.2
      · rename_i direct
        rw [state_, Option.isSome_none, if_neg Bool.false_ne_true, if_neg (by simp), ← given,
          pleMeetings_direct (by simpa using direct), ← List.append_nil (_ ++ _)]
        refine Follows.bind (embed_follows laid cut whole known active) fun _ _ => ?_
        exact Follows.pure ⟨kept, state_⟩
  | false =>
      have passive : groups.active rank.1 = false := by simp [Groups.active, gathers, found]
      have alone : (gatherMeetings groups model layer : List (Meeting (interface experts))) = [] := by
        rw [gatherMeetings, gathers]
        rfl
      have meetings : (pleMeetings cells groups model layer tried : List (Meeting (interface experts))) =
          reduceMeetings cells groups model layer := by
        rw [pleMeetings, alone, ite_self, List.nil_append]
      rw [passive, Bool.and_false, Bool.false_and, if_neg Bool.false_ne_true] at state_
      rw [state_, Option.isSome_none, if_neg Bool.false_ne_true, if_pos (by simp), meetings]
      exact (Follows.pure ⟨kept, state_⟩).append (reduceMeetings_absent passive)

end Enters

end FlashNext.Ple
