import FlashNext.Ple.Batches
import FlashNext.Ple.Decoder

namespace FlashNext.Ple

open FlashNext.Data FlashNext.Collective FlashNext.NGram

variable {parallel : Parallel} {Value : Type} {experts : Nat → (parallel.Rank → Rows Value) → parallel.Rank → Rows Value}

/-- Nothing but the rows of its one group keeps a model from skipping its experts. -/
def Parallel.skips (parallel : Parallel) : Bool := !parallel.useDpMoeGather && !parallel.moeA2a

def Counted (tokens : Fin parallel.attnDpSize → Nat) (rank : parallel.Rank) (hidden : Rows Value) : Prop :=
  parallel.skips → hidden.length = tokens rank.1

theorem Counted.of_length {tokens : Fin parallel.attnDpSize → Nat} {rank : parallel.Rank} {hidden after : Rows Value}
    (counted : Counted tokens rank hidden) (same : after.length = hidden.length) : Counted tokens rank after :=
  fun skips => same.trans (counted skips)

section Layer

variable [AddZeroClass Value] [Mul Value] {rank : parallel.Rank}

def attnMeetings (tokens : Fin parallel.attnDpSize → Nat) (attends : Fin parallel.attnDpSize → Bool) :
    List (Meeting (interface experts)) :=
  ((List.finRange parallel.attnDpSize).filter (attends ·)).map fun dp => ⟨.attnAllReduce dp, Counted tokens⟩

def mlpMeetings (tokens : Fin parallel.attnDpSize → Nat) (sizes : Option (List Nat)) (index : Nat) :
    List (Meeting (interface experts)) :=
  let any (_ : parallel.Rank) (_ : Rows Value) := True
  if parallel.useDpMoeGather then
    ⟨.gatherHidden, any⟩ :: ⟨.experts index, any⟩ ::
      if parallel.dpReduceScatterv then [⟨.reduceScatterv (sizes.getD []), any⟩] else []
  else if ((List.finRange parallel.attnDpSize).all fun dp => tokens dp = 0) && !parallel.moeA2a then []
  else if parallel.useAttnTpA2aScatter then
    ⟨.experts index, any⟩ :: (List.finRange parallel.attnDpSize).map fun dp => ⟨.attnAllGather dp, any⟩
  else [⟨.experts index, Counted tokens⟩]

variable {tokens : Fin parallel.attnDpSize → Nat} {hidden : Rows Value}

omit [Mul Value] in
theorem attend_follows (layer : DecoderLayer parallel Value) (forwardBatch : ForwardBatch)
    {attends : Fin parallel.attnDpSize → Bool} (agrees : attends rank.1 = decide (forwardBatch.forwardMode ≠ .idle))
    (counted : Counted tokens rank hidden) :
    Follows rank (Counted tokens rank) (attnMeetings tokens attends)
      (attend layer rank forwardBatch hidden : RankProgram experts (Rows Value)) := by
  unfold attend
  by_cases idle : forwardBatch.forwardMode = .idle
  · rw [if_pos idle]
    have absent : ∀ meeting ∈ (attnMeetings tokens attends : List (Meeting (interface experts))),
        (interface experts).joins meeting.call rank = false := by
      intro meeting listed
      obtain ⟨dp, inside, rfl⟩ := List.mem_map.mp listed
      refine decide_eq_false fun same => ?_
      have attending := (List.mem_filter.mp inside).2
      rw [← same, agrees, idle] at attending
      cases attending
    exact (Follows.pure counted).append absent
  · rw [if_neg idle]
    refine Follows.among ((List.nodup_finRange _).filter _)
      (List.mem_filter.mpr ⟨List.mem_finRange rank.1, by simp [agrees, idle]⟩)
      (fun other _ apart => decide_eq_false fun same => apart same.symm) ?_
    refine Follows.join (decide_eq_true rfl) (counted.of_length (layer.attention_length rank hidden)) fun parts own kept skips => ?_
    have listed : rank ∈ (RankCall.attnAllReduce rank.1 : RankCall parallel).members := mem_members.mpr (decide_eq_true rfl)
    refine length_sumRows (List.ne_nil_of_mem (List.mem_map_of_mem listed)) fun rows member => ?_
    obtain ⟨other, inside, rfl⟩ := List.mem_map.mp member
    have joined := mem_members.mp inside
    have same : other.1 = rank.1 := of_decide_eq_true joined
    exact (kept other joined skips).trans (congrArg tokens same)

omit [Mul Value] in
theorem runMlp_follows (rowwise : ∀ layer parts rank, (experts layer parts rank).length = (parts rank).length)
    (sizes : Option (List Nat)) (index : Nat) (counted : Counted tokens rank hidden) :
    Follows rank (Counted tokens rank) (mlpMeetings tokens sizes index)
      (runMlp index rank sizes hidden : RankProgram experts (Rows Value)) := by
  unfold runMlp mlpMeetings
  cases gathers : parallel.useDpMoeGather with
  | true =>
      have wide (rows : Rows Value) : Counted tokens rank rows := fun skips => by simp [Parallel.skips, gathers] at skips
      simp only [if_true]
      cases parallel.dpReduceScatterv with
      | true =>
          refine ⟨_, _, rfl, trivial, fun _ _ _ => ⟨_, _, rfl, trivial, fun _ _ _ => ⟨_, _, rfl, trivial, fun _ _ _ => ?_⟩⟩⟩
          exact ⟨_, rfl, wide _⟩
      | false =>
          refine ⟨_, _, rfl, trivial, fun _ _ _ => ⟨_, _, rfl, trivial, fun _ _ _ => ?_⟩⟩
          exact ⟨_, rfl, wide _⟩
  | false =>
      simp only [Bool.false_eq_true, if_false]
      cases a2a : parallel.moeA2a with
      | true =>
          have wide (rows : Rows Value) : Counted tokens rank rows := fun skips => by simp [Parallel.skips, a2a] at skips
          simp only [Bool.not_true, Bool.and_false, Bool.false_eq_true, if_false]
          cases scatters : parallel.useAttnTpA2aScatter with
          | true =>
            simp only [if_true]
            refine ⟨_, _, rfl, trivial, fun _ _ _ => ?_⟩
            refine Follows.among (List.nodup_finRange _) (List.mem_finRange rank.1)
              (fun other _ apart => decide_eq_false fun same => apart same.symm) ?_
            refine (if_pos (decide_eq_true rfl)).mpr ⟨_, _, rfl, trivial, fun _ _ _ => ⟨_, rfl, wide _⟩⟩
          | false =>
            simp only [Bool.false_eq_true, if_false]
            exact Follows.join rfl (wide _) fun _ _ _ => wide _
      | false =>
          have skips : parallel.skips = true := by simp [Parallel.skips, gathers, a2a]
          have one : parallel.attnDpSize ≤ 1 := by
            rw [Parallel.useDpMoeGather, a2a] at gathers
            simpa using gathers
          have all : ((List.finRange parallel.attnDpSize).all fun dp => tokens dp = 0) = decide (hidden.length = 0) := by
            rw [counted skips, Bool.eq_iff_iff]
            simp only [List.all_eq_true, List.mem_finRange, forall_const, decide_eq_true_eq]
            refine ⟨fun zero => zero _, fun zero dp => ?_⟩
            rwa [show dp = rank.1 from Fin.ext (by omega)]
          simp only [all, Bool.not_false, Bool.and_true, decide_eq_true_eq]
          split
          · exact Follows.pure counted
          · have whole : parallel.useAttnTpA2aScatter = false := by simp [Parallel.useAttnTpA2aScatter, a2a]
            simp only [whole, Bool.false_eq_true, if_false]
            refine Follows.join rfl counted fun parts own _ => ?_
            exact counted.of_length ((rowwise index parts rank).trans (congrArg _ own))

end Layer

structure Table (Value : Type) where
  dtype : TableDtype
  scale : Value
  row : Nat → Row
  vocab : Nat
  dim : Nat

section Layers

variable [AddZeroClass Value] [Mul Value] (cells : Cells Value) (groups : Groups parallel) (model : Model)

/-- The tables of the layers from an index on are cut over the ranks, and the pass
asks for ids that they have. -/
def Served (tables : Nat → Table Value) (index : Nat) (layers : List (DecoderLayer parallel Value)) : Prop :=
  ∀ place layer ple, layers[place]? = some layer → layer.ple = some ple →
    Cut cells (tables (index + place)).dtype (tables (index + place)).scale (tables (index + place)).row
      (tables (index + place)).vocab (tables (index + place)).dim ple.host ∧
    ∀ dp, ∀ row ∈ groups.lookup model ple dp, ∀ id ∈ row, InTable (tables (index + place)).vocab id

/-- The rows of the whole table for the tokens of a group's batch. -/
def usedBy (table : Table Value) (layer : DecoderLayer parallel Value) (dp : Fin parallel.attnDpSize) : Option (Rows Value) :=
  layer.ple.bind fun ple => (groups.batch dp).map fun _ =>
    (groups.given model ple dp).map (wholeRow cells table.dtype table.scale table.row)

def usedByAll (tables : Nat → Table Value) (dp : Fin parallel.attnDpSize) :
    Nat → List (DecoderLayer parallel Value) → List (Option (Rows Value))
  | _, [] => []
  | index, layer :: rest => usedBy cells groups model (tables index) layer dp :: usedByAll tables dp (index + 1) rest

def startMeetings (rest : List (DecoderLayer parallel Value)) : List (Meeting (interface experts)) :=
  match rest.head?.bind DecoderLayer.ple with
  | none => []
  | some ple => if ple.offload then gatherMeetings groups model ple else []

def embeddingMeetings (layer : DecoderLayer parallel Value) (tried : Bool) : List (Meeting (interface experts)) :=
  match layer.ple with
  | none => []
  | some ple => pleMeetings cells groups model ple tried

/-- What all ranks enter from a layer on. -/
def loopMeetings (attends : Fin parallel.attnDpSize → Bool) :
    Nat → Bool → List (DecoderLayer parallel Value) → List (Meeting (interface experts))
  | _, _, [] => []
  | index, tried, layer :: rest =>
      startMeetings groups model rest ++ ((embeddingMeetings cells groups model layer tried ++
        (attnMeetings groups.inputTokens attends ++ mlpMeetings groups.inputTokens groups.sizes index)) ++
        loopMeetings attends (index + 1) true rest)

/-- No prefetch is under way. -/
def PleState.Idle (state : PleState Value) : Prop := state.Kept ∧ state.prefetchState = none

/-- The state of a layer when its turn comes. -/
def AtLayer (rank : parallel.Rank) (layer : DecoderLayer parallel Value) (tried : Bool) (state : PleState Value) : Prop :=
  match layer.ple with
  | none => state.Idle
  | some ple => After cells groups model ple rank tried state

def AtHead (rank : parallel.Rank) (layers : List (DecoderLayer parallel Value)) (tried : Bool) (state : PleState Value) : Prop :=
  match layers with
  | [] => state.Idle
  | layer :: _ => AtLayer cells groups model rank layer tried state

variable {cells groups model} {fused : FusedHash} {tables : Nat → Table Value} {rank : parallel.Rank} {index : Nat}
  {layer : DecoderLayer parallel Value} {rest : List (DecoderLayer parallel Value)} {hidden : Rows Value}
  {pool : ReqToTokenPool} {tried : Bool} {forwardBatch : ForwardBatch}

omit [AddZeroClass Value] [Mul Value] in
theorem Served.tail (served : Served cells groups model tables index (layer :: rest)) :
    Served cells groups model tables (index + 1) rest := by
  intro place other ple found has
  have shifted := served (place + 1) other ple (by simpa using found) has
  rwa [show index + (place + 1) = index + 1 + place by omega] at shifted

omit [Mul Value] in
theorem After.untried {ple : PleLayer parallel Value} {state : PleState Value} (idle : state.Idle) :
    After cells groups model ple rank false state :=
  ⟨idle.1, by simpa using idle.2⟩

theorem preparePle_follows (faithful : fused.Faithful) (large : 0 < model.ngramSize) (laid : groups.Laid model)
    (whole : parallel.inputScattered = false) (served : Served cells groups model tables index (layer :: rest))
    (quiet : groups.batch rank.1 = none → pleForwardMode forwardBatch = .idle)
    (fits : PoolFits model (groups.batch rank.1) pool) (counted : Counted groups.inputTokens rank hidden)
    {state : PleState Value} (atLayer : AtLayer cells groups model rank layer tried state) :
    Follows rank (fun out => Counted groups.inputTokens rank out.1 ∧
        out.2.1 = usedBy cells groups model (tables index) layer rank.1 ∧
        PoolFits model (groups.batch rank.1) out.2.2.1 ∧ out.2.2.2.Idle)
      (embeddingMeetings cells groups model layer tried)
      (preparePle cells fused model layer rank groups.sizes forwardBatch (groups.inputTokens rank.1) (groups.batch rank.1)
        pool state hidden :
        RankProgram experts (Rows Value × Option (Rows Value) × ReqToTokenPool × PleState Value)) := by
  unfold preparePle embeddingMeetings
  rw [AtLayer] at atLayer
  cases has : layer.ple with
  | none =>
      rw [has] at atLayer
      exact Follows.pure ⟨counted, by rw [usedBy, has]; rfl, fits, atLayer⟩
  | some ple =>
      rw [has] at atLayer
      dsimp only at atLayer ⊢
      obtain ⟨cut, known⟩ := served 0 layer ple rfl has
      cases found : groups.batch rank.1 with
      | none =>
          dsimp only
          rw [if_neg (not_not.mpr (quiet found)), ← List.append_nil (pleMeetings cells groups model ple tried)]
          refine Follows.bind (pleForwardIdle_follows laid cut whole known found atLayer) fun state idle => ?_
          exact Follows.pure ⟨counted, by simp [usedBy, has, found], nofun, idle⟩
      | some batch =>
          dsimp only
          rw [← List.append_nil (pleMeetings cells groups model ple tried)]
          refine Follows.bind (pleForward_follows faithful large laid cut whole known found (found ▸ fits) atLayer)
            fun out ended => ?_
          obtain ⟨embeddings, pool, state⟩ := out
          obtain ⟨rows, nextFits, idle⟩ := ended
          dsimp only at rows nextFits idle ⊢
          subst rows
          exact Follows.pure ⟨counted.of_length (layer.addPle_length _ _), by simp [usedBy, has, found], nextFits, idle⟩

theorem decoderLayer_follows (rowwise : ∀ layer parts rank, (experts layer parts rank).length = (parts rank).length)
    (faithful : fused.Faithful) (large : 0 < model.ngramSize) (laid : groups.Laid model)
    (whole : parallel.inputScattered = false) (served : Served cells groups model tables index (layer :: rest))
    (quiet : groups.batch rank.1 = none → pleForwardMode forwardBatch = .idle)
    {attends : Fin parallel.attnDpSize → Bool} (agrees : attends rank.1 = decide (forwardBatch.forwardMode ≠ .idle))
    (fits : PoolFits model (groups.batch rank.1) pool) (counted : Counted groups.inputTokens rank hidden)
    {state : PleState Value} (atLayer : AtLayer cells groups model rank layer tried state) :
    Follows rank (fun out => Counted groups.inputTokens rank out.1 ∧
        out.2.1 = usedBy cells groups model (tables index) layer rank.1 ∧
        PoolFits model (groups.batch rank.1) out.2.2.1 ∧ out.2.2.2.Idle)
      (embeddingMeetings cells groups model layer tried ++
        (attnMeetings groups.inputTokens attends ++ mlpMeetings groups.inputTokens groups.sizes index))
      (decoderLayer cells fused model index layer rank groups.sizes forwardBatch (groups.inputTokens rank.1)
        (groups.batch rank.1) pool state hidden :
        RankProgram experts (Rows Value × Option (Rows Value) × ReqToTokenPool × PleState Value)) := by
  refine Follows.bind (preparePle_follows faithful large laid whole served quiet fits counted atLayer) fun out prepared => ?_
  obtain ⟨hidden, used, pool, state⟩ := out
  obtain ⟨counted, used, fits, idle⟩ := prepared
  dsimp only at counted used fits idle ⊢
  refine Follows.bind (attend_follows layer forwardBatch agrees (counted.of_length (layer.mixAttn_length hidden)))
    fun attended counted => ?_
  rw [← List.append_nil (mlpMeetings _ _ _)]
  refine Follows.bind (runMlp_follows rowwise groups.sizes index
    (counted.of_length ((layer.mixMlp_length _).trans (layer.combineAttn_length _ _)))) fun output counted => ?_
  exact Follows.pure ⟨counted.of_length (layer.combineMlp_length _ _), used, fits, idle⟩

omit [Mul Value] in
theorem prefetchNext_follows (faithful : fused.Faithful) (large : 0 < model.ngramSize) (laid : groups.Laid model)
    (fits : PoolFits model (groups.batch rank.1) pool) (device : Device Value) {states : Nat → PleState Value}
    (idle : (states (index + 1)).Idle) :
    Follows rank (fun out => PoolFits model (groups.batch rank.1) out.1 ∧
        (∀ other, other ≠ index + 1 → out.2 other = states other) ∧
        AtHead cells groups model rank rest true (out.2 (index + 1)))
      (startMeetings groups model rest)
      (prefetchNext cells fused model index rest rank device groups.sizes (groups.inputTokens rank.1) (groups.batch rank.1)
        pool states : RankProgram experts (ReqToTokenPool × (Nat → PleState Value))) := by
  unfold prefetchNext startMeetings
  cases rest with
  | nil => exact Follows.pure ⟨fits, fun _ _ => rfl, idle⟩
  | cons layer rest =>
      rw [List.head?_cons, Option.bind_some]
      cases has : layer.ple with
      | none =>
          refine Follows.pure ⟨fits, fun _ _ => rfl, ?_⟩
          rwa [AtHead, AtLayer, has]
      | some ple =>
          dsimp only
          rw [← List.append_nil (ite _ _ _)]
          refine Follows.bind (start_follows faithful large laid fits device (index + 1) idle.1 idle.2) fun out started => ?_
          refine Follows.pure ⟨started.1, fun other apart => Function.update_of_ne apart _ _, ?_⟩
          rw [AtHead, AtLayer, has]
          simpa using started.2

theorem forwardLayers_follows (rowwise : ∀ layer parts rank, (experts layer parts rank).length = (parts rank).length)
    (faithful : fused.Faithful) (large : 0 < model.ngramSize) (laid : groups.Laid model)
    (whole : parallel.inputScattered = false) {layers : List (DecoderLayer parallel Value)}
    (served : Served cells groups model tables index layers)
    (quiet : groups.batch rank.1 = none → pleForwardMode forwardBatch = .idle)
    {attends : Fin parallel.attnDpSize → Bool} (agrees : attends rank.1 = decide (forwardBatch.forwardMode ≠ .idle))
    (fits : PoolFits model (groups.batch rank.1) pool) (counted : Counted groups.inputTokens rank hidden)
    (device : Device Value) {states : Nat → PleState Value}
    (idle : ∀ other, other ≠ index → (states other).Idle)
    (atHead : AtHead cells groups model rank layers tried (states index)) :
    Follows rank (fun out => out.2.1 = usedByAll cells groups model tables rank.1 index layers ∧ ∀ other, (out.2.2 other).Idle)
      (loopMeetings cells groups model attends index tried layers)
      (forwardLayers cells fused model rank device groups.sizes forwardBatch (groups.inputTokens rank.1)
        (groups.batch rank.1) layers index pool states hidden :
        RankProgram experts (Rows Value × List (Option (Rows Value)) × (Nat → PleState Value))) := by
  induction layers generalizing index pool states hidden tried with
  | nil =>
      refine Follows.pure ⟨rfl, fun other => ?_⟩
      by_cases here : other = index
      · exact here ▸ atHead
      · exact idle other here
  | cons layer rest ih =>
      rw [loopMeetings, forwardLayers]
      refine Follows.bind (prefetchNext_follows faithful large laid fits device (idle _ (Nat.succ_ne_self index)))
        fun out started => ?_
      obtain ⟨pool, after⟩ := out
      obtain ⟨fits, kept, next⟩ := started
      dsimp only at fits kept next ⊢
      have mine : after index = states index := kept index (Nat.succ_ne_self index).symm
      refine Follows.bind (decoderLayer_follows rowwise faithful large laid whole served quiet agrees fits counted
        (mine ▸ atHead)) fun out ran => ?_
      obtain ⟨hidden, used, pool, state⟩ := out
      obtain ⟨counted, used, fits, ended⟩ := ran
      dsimp only at counted used fits ended ⊢
      subst used
      have idleAfter (other : Nat) (apart : other ≠ index + 1) : (Function.update after index state other).Idle := by
        by_cases here : other = index
        · rw [here, Function.update_self]
          exact ended
        · rw [Function.update_of_ne here, kept other apart]
          exact idle other here
      have later : Function.update after index state (index + 1) = after (index + 1) :=
        Function.update_of_ne (Nat.succ_ne_self index) _ _
      rw [← List.append_nil (loopMeetings _ _ _ _ _ _ _)]
      refine Follows.bind (ih served.tail fits counted idleAfter (later ▸ next)) fun out ended => ?_
      exact Follows.pure ⟨by rw [usedByAll, ← ended.1], ended.2⟩

end Layers

/-- The groups of a pass with the batches that they prepare. -/
def Pass.groups (pass : Pass parallel Value) (batch : Fin parallel.attnDpSize → Option PleBatch) : Groups parallel where
  batch := batch
  inputTokens dp := (pass.inputIds dp).length
  sizes := pass.sizes

def Pass.attends (pass : Pass parallel Value) (dp : Fin parallel.attnDpSize) : Bool :=
  decide ((pass.forwardBatch dp).forwardMode ≠ .idle)

section Passes

variable [AddZeroClass Value] [Mul Value] (cells : Cells Value) (model : Model) (tables : Nat → Table Value)
  (layers : List (DecoderLayer parallel Value))

/-- Each layer hashes into a table that its constructor laid out for the vocabulary,
and the ranks hold the rows of that table. -/
structure Sharded (vocabulary : Nat) : Prop where
  large : 0 < model.ngramSize
  long : vocabulary ≤ maxLong
  eos : InTable vocabulary model.eosTokenId
  laidOut : ∀ index layer ple, layers[index]? = some layer → layer.ple = some ple → ∃ config : NGramConfig,
    config.init = .ok (model.embedding ple.tables, (tables index).vocab) ∧ config.unigramVocabSize = vocabulary
  cut : ∀ index layer ple, layers[index]? = some layer → layer.ple = some ple →
    Cut cells (tables index).dtype (tables index).scale (tables index).row (tables index).vocab (tables index).dim ple.host

/-- All ranks of a group prepare its batch, of tokens of the vocabulary, and know the
input lengths of all groups.  No group extends rows of which none has a token. -/
structure Pass.Ready (pass : Pass parallel Value) (batch : Fin parallel.attnDpSize → Option PleBatch) (vocabulary : Nat) :
    Prop where
  prepared : ∀ rank, preparePleBatch model.fusion { pass.pool rank with pleWindowCache := none } (pass.inputIds rank.1)
    (pass.forwardBatch rank.1) (some model.ngramSize) (some model.eosTokenId) = .ok (batch rank.1)
  answered : ∀ dp, pleForwardMode (pass.forwardBatch dp) = .extend → ∀ prepared ∈ batch dp, 0 < prepared.rowWidth
  sizes : parallel.gatherDpTokens → pass.sizes = some ((List.finRange parallel.attnDpSize).map fun dp => (pass.inputIds dp).length)
  sized : ∀ rank slot, ((pass.pool rank).context slot).length = (pass.pool rank).contextLen
  histories : ∀ rank slot, ∀ token ∈ (pass.pool rank).context slot, InTable vocabulary token
  inputs : ∀ dp, ∀ token ∈ pass.inputIds dp, InTable vocabulary token
  hidden : ∀ rank, (pass.hiddenStates rank).length = (pass.inputIds rank.1).length

/-- What the layers of each pass use on the ranks of a group. -/
def usedByPasses (dp : Fin parallel.attnDpSize) (passes : List (Pass parallel Value × (Fin parallel.attnDpSize → Option PleBatch))) :
    List (List (Option (Rows Value))) :=
  passes.map fun pass => usedByAll cells (pass.1.groups pass.2) model tables dp 0 layers

/-- The rank's program is through, every layer used those rows, and no prefetch is left. -/
def EndsWell (passes : List (Pass parallel Value × (Fin parallel.attnDpSize → Option PleBatch))) (rank : parallel.Rank)
    (program : RankProgram experts (List (List (Option (Rows Value))) × (Nat → PleState Value))) : Prop :=
  ∃ result, program = .done result ∧ result.1 = usedByPasses cells model tables layers rank.1 passes ∧
    ∀ index, (result.2 index).prefetchState = none

/-- All ranks before the first pass. -/
def startPasses (fused : FusedHash) (passes : List (Pass parallel Value × (Fin parallel.attnDpSize → Option PleBatch)))
    (rank : parallel.Rank) : RankProgram experts (List (List (Option (Rows Value))) × (Nat → PleState Value)) :=
  forwardPasses cells fused model layers rank (passes.map Prod.fst) fun _ => PleState.init

def passMeetings (passes : List (Pass parallel Value × (Fin parallel.attnDpSize → Option PleBatch))) :
    List (Meeting (interface experts)) :=
  passes.flatMap fun pass => loopMeetings cells (pass.1.groups pass.2) model pass.1.attends 0 false layers

variable {cells model tables layers} {fused : FusedHash} {rank : parallel.Rank} {pass : Pass parallel Value}
  {batch : Fin parallel.attnDpSize → Option PleBatch} {states : Nat → PleState Value} {vocabulary : Nat}

omit [AddZeroClass Value] [Mul Value] in
theorem Pass.Ready.laid (ready : pass.Ready model batch vocabulary) : (pass.groups batch).Laid model := by
  refine ⟨ready.sizes, fun dp found batched => ?_⟩
  have mine := (ready.prepared (dp, ⟨0, parallel.attnTp_pos⟩)).trans (congrArg Except.ok batched)
  obtain ⟨fast, processed, laid, fits, count, _, _, assembled⟩ := prepare_assembled mine
  have sized := ready.sized (dp, ⟨0, parallel.attnTp_pos⟩)
  exact ⟨_, assembled.context, assembled.windows_whole sized assembled.context, assembled.physical,
    (assembled.windows_count count assembled.context).trans fits⟩

omit [AddZeroClass Value] [Mul Value] in
theorem Pass.Ready.served (sharded : Sharded cells model tables layers vocabulary) (ready : pass.Ready model batch vocabulary) :
    Served cells (pass.groups batch) model tables 0 layers := by
  intro index layer ple found has
  rw [Nat.zero_add]
  refine ⟨sharded.cut index layer ple found has, ?_⟩
  obtain ⟨config, made, rfl⟩ := sharded.laidOut index layer ple found has
  have built := init_built made
  have ends : config.eosTokenId = model.eosTokenId := built.eos.symm
  have zero := inTable_zero built
  refine Groups.mem_lookup zero fun dp => ?_
  cases batched : batch dp with
  | none =>
      intro row listed id member
      simp only [Groups.given, Pass.groups, batched, idleIds] at listed
      rw [List.eq_of_mem_replicate listed] at member
      rw [List.eq_of_mem_replicate member]
      exact zero
  | some prepared =>
      have mine := (ready.prepared (dp, ⟨0, parallel.attnTp_pos⟩)).trans (congrArg Except.ok batched)
      obtain ⟨fast, processed, laid, fits, count, _, _, assembled⟩ := prepare_assembled mine
      have given : (pass.groups batch).given model ple dp = Groups.batchIds model ple prepared := by
        simp only [Groups.given, Pass.groups, batched]
      rw [given, Groups.batchIds, assembled.context, Option.getD_some]
      refine inTable_windowIds built sharded.long (ends ▸ sharded.eos)
        (assembled.windows_whole (ready.sized _) assembled.context) ?_
      exact Assembled.mem_windows (assembled.mem_context assembled.context (ready.histories _) (ready.inputs dp) sharded.eos)

theorem quiet_of_prepared {fusion : Bool} {pool : ReqToTokenPool} {inputIds : List Token} {forwardBatch : ForwardBatch}
    {ngramSize : Option Nat} {eos : Option Token}
    (made : preparePleBatch fusion pool inputIds forwardBatch ngramSize eos = .ok none) : pleForwardMode forwardBatch = .idle := by
  unfold preparePleBatch at made
  split at made
  · cases made
  split at made
  · cases made
  split at made
  · cases made
  by_contra busy
  simp only [busy, if_false] at made
  split at made
  · cases made
  split at made
  · cases made
  · rename_i layout _
    cases assembled : assemble pool inputIds forwardBatch (pleForwardMode forwardBatch)
      (fusion && decide (pleForwardMode forwardBatch = .decode)) _ layout ngramSize eos with
    | error error => rw [assembled] at made; cases made
    | ok batch => rw [assembled] at made; cases made

theorem forwardPass_follows (rowwise : ∀ layer parts rank, (experts layer parts rank).length = (parts rank).length)
    (faithful : fused.Faithful) (whole : parallel.inputScattered = false)
    (sharded : Sharded cells model tables layers vocabulary) (ready : pass.Ready model batch vocabulary)
    (idle : ∀ index, (states index).Idle) :
    Follows rank (fun out => out.1 = usedByAll cells (pass.groups batch) model tables rank.1 0 layers ∧ ∀ index, (out.2 index).Idle)
      (loopMeetings cells (pass.groups batch) model pass.attends 0 false layers)
      (forwardPass cells fused model layers rank pass states :
        RankProgram experts (List (Option (Rows Value)) × (Nat → PleState Value))) := by
  have prepared := ready.prepared rank
  have fits : PoolFits model (batch rank.1) { pass.pool rank with pleWindowCache := none } := fun batched found =>
    ⟨prepare_unfolds (prepared.trans (congrArg Except.ok found))
      fun extends_ => ready.answered rank.1 extends_ batched found, fun _ _ => .inl rfl⟩
  have atHead : AtHead cells (pass.groups batch) model rank layers false (states 0) := by
    cases layers with
    | nil => exact idle 0
    | cons layer rest =>
        rw [AtHead, AtLayer]
        split
        · exact idle 0
        · exact After.untried (idle 0)
  have quiet (none_ : (pass.groups batch).batch rank.1 = none) : pleForwardMode (pass.forwardBatch rank.1) = .idle :=
    quiet_of_prepared (prepared.trans (congrArg Except.ok none_))
  have counted : Counted (pass.groups batch).inputTokens rank (pass.hiddenStates rank) := fun _ => ready.hidden rank
  unfold forwardPass
  simp only [prepared, Except.mapError, Program.ofExcept, Program.done_bind]
  rw [← List.append_nil (loopMeetings _ _ _ _ _ _ _)]
  refine Follows.bind (forwardLayers_follows rowwise faithful sharded.large ready.laid whole (ready.served sharded) quiet rfl
    fits counted (pass.device rank) (fun other _ => idle other) atHead) fun out ended => ?_
  exact Follows.pure ended

theorem forwardPasses_follows (rowwise : ∀ layer parts rank, (experts layer parts rank).length = (parts rank).length)
    (faithful : fused.Faithful) (whole : parallel.inputScattered = false)
    (sharded : Sharded cells model tables layers vocabulary)
    {passes : List (Pass parallel Value × (Fin parallel.attnDpSize → Option PleBatch))}
    (ready : ∀ pass ∈ passes, pass.1.Ready model pass.2 vocabulary) (idle : ∀ index, (states index).Idle) :
    Follows rank (fun out => out.1 = usedByPasses cells model tables layers rank.1 passes ∧ ∀ index, (out.2 index).Idle)
      (passMeetings cells model layers passes)
      (forwardPasses cells fused model layers rank (passes.map Prod.fst) states :
        RankProgram experts (List (List (Option (Rows Value))) × (Nat → PleState Value))) := by
  induction passes generalizing states with
  | nil => exact Follows.pure ⟨rfl, idle⟩
  | cons pass rest ih =>
      rw [List.map_cons, forwardPasses, passMeetings, List.flatMap_cons]
      refine Follows.bind (forwardPass_follows rowwise faithful whole sharded (ready pass List.mem_cons_self) idle)
        fun out ended => ?_
      obtain ⟨used, idle⟩ := ended
      rw [← List.append_nil (List.flatMap _ _)]
      refine Follows.bind (ih (fun later member => ready later (List.mem_cons_of_mem _ member)) idle) fun later ended => ?_
      exact Follows.pure ⟨by rw [used, ended.1]; rfl, ended.2⟩

/-- Whatever groups are idle, whatever is prefetched, and in whatever order the
collectives complete: no run is longer than the schedule, and a run that cannot go
on has ended on every rank, with the rows of the whole table and no prefetch left. -/
theorem passes_complete (rowwise : ∀ layer parts rank, (experts layer parts rank).length = (parts rank).length)
    (faithful : fused.Faithful) (whole : parallel.inputScattered = false)
    (sharded : Sharded cells model tables layers vocabulary)
    {passes : List (Pass parallel Value × (Fin parallel.attnDpSize → Option PleBatch))}
    (ready : ∀ pass ∈ passes, pass.1.Ready model pass.2 vocabulary) :
    (∀ count (final : parallel.Rank → RankProgram experts (List (List (Option (Rows Value))) × (Nat → PleState Value))),
      Steps count (startPasses cells model layers fused passes) final →
        count ≤ (passMeetings cells model layers passes : List (Meeting (interface experts))).length ∧
          ((∀ rank, EndsWell cells model tables layers passes rank (final rank)) ∨ ∃ next, Step final next)) ∧
    ∃ count, ∃ final : parallel.Rank → RankProgram experts (List (List (Option (Rows Value))) × (Nat → PleState Value)),
      Steps count (startPasses cells model layers fused passes) final ∧
        ∀ rank, EndsWell cells model tables layers passes rank (final rank) := by
  have idle (index : Nat) : ((fun _ => PleState.init : Nat → PleState Value) index).Idle := ⟨nofun, rfl⟩
  have follows (rank : parallel.Rank) := @forwardPasses_follows _ _ experts _ _ cells model tables layers fused rank _ _ rowwise
    faithful whole sharded passes ready idle
  have ended (final : parallel.Rank → RankProgram experts (List (List (Option (Rows Value))) × (Nat → PleState Value)))
      (done : ∀ rank, ∃ result, final rank = .done result ∧ result.1 = usedByPasses cells model tables layers rank.1 passes ∧
        ∀ index, (result.2 index).Idle) (rank : parallel.Rank) : EndsWell cells model tables layers passes rank (final rank) := by
    obtain ⟨result, here, used, left⟩ := done rank
    exact ⟨result, here, used, fun index => (left index).2⟩
  constructor
  · intro count final steps
    exact (steps.completes follows).imp_right (Or.imp_left (ended final))
  · obtain ⟨count, final, steps, done⟩ := exists_completion follows
    exact ⟨count, final, steps, ended final done⟩

end Passes

abbrev twoGroups : Parallel where
  attnDpSize := 2
  attnTpSize := 1
  dpAttention := true
  attnTpNgram := false
  inputScattered := false
  moeA2a := false
  dpReduceScatterv := false
  attnDp_pos := by decide
  attnTp_pos := by decide
  single := by decide

def byteCells : Cells Nat := fun _ row => row.map UInt8.toNat

def twoGroupsModel : Model where
  ngramSize := 3
  eosTokenId := 2
  fusion := false

def halfTable (rank : twoGroups.Rank) : PinnedHostEmbedding Nat where
  unquantized := true
  dtype := .float8_e4m3fn
  numAddedEmbeddings := 0
  numEmbeddingsPerPartition := 8
  embeddingDim := 1
  orgVocabSize := 16
  orgVocabStartIndex := rank.1 * 8
  orgVocabEndIndex := rank.1 * 8 + 8
  weight := (List.range 8).map fun place => [UInt8.ofNat (10 + (rank.1 * 8 + place))]
  weightScale := 3

def plainLayer : DecoderLayer twoGroups Nat where
  ple := none
  addPle := fun hidden _ => hidden
  mixAttn := fun hidden => (hidden, hidden)
  attention := fun _ hidden => hidden
  combineAttn := fun hidden _ => hidden
  mixMlp := fun hidden => (hidden, hidden)
  combineMlp := fun hidden _ => hidden
  addPle_length := fun _ _ => rfl
  mixAttn_length := fun _ => rfl
  attention_length := fun _ _ => rfl
  combineAttn_length := fun _ _ => rfl
  mixMlp_length := fun _ => rfl
  combineMlp_length := fun _ _ => rfl

def offloadedPle : PleLayer twoGroups Nat where
  tables := ⟨1, twoHeadsTables.layerMultipliers, [5, 7], [0, 5]⟩
  offload := true
  host := halfTable

def twoLayers : List (DecoderLayer twoGroups Nat) := [plainLayer, { plainLayer with ple := some offloadedPle }]

def wholeTable : Table Nat where
  dtype := .float8_e4m3fn
  scale := 3
  row := fun global => [UInt8.ofNat (10 + global)]
  vocab := 16
  dim := 1

def twoGroupsBatch (mode : ForwardMode) : ForwardBatch where
  forwardMode := mode
  originalForwardMode := none
  tboParentTokenRange := none
  ngramSpeculation := false
  specInfo := none
  numTokenNonPaddedCpu := none
  extendSeqLens := none
  extendSeqLensCpu := none
  reqPoolIndices := [1]
  outCacheLoc := some [3]
  mambaTrackIndices := none
  mambaTrackMask := none
  mambaTrackAlignedLens := none

/-- One token of one group, while the other has none. -/
def lonePass (busy : Fin twoGroups.attnDpSize) (token : Token) : Pass twoGroups Nat where
  inputIds := fun dp => if dp = busy then [token] else []
  forwardBatch := fun dp => twoGroupsBatch (if dp = busy then .decode else .idle)
  sizes := some [if 0 = busy then 1 else 0, if 1 = busy then 1 else 0]
  pool := fun _ => twoHeadsPool
  device := fun _ => ⟨false, fun count => List.replicate count [], fun _ => busy = 0, by simp⟩
  hiddenStates := fun rank => if rank.1 = busy then [[1]] else []

def loneBatch (busy : Fin twoGroups.attnDpSize) (token : Token) (dp : Fin twoGroups.attnDpSize) : Option PleBatch :=
  if dp = busy then some {
    lengths := [1]
    rowWidth := 1
    reqIndices := [0]
    tokenOffsets := [0]
    mode := .decode
    useDecodeFastPath := false
    physicalTokens := 1
    processedTokens := 1
    validTokens := [true]
    stateIndices := [1]
    ngramContext := some [[2, 2, token]]
    ngramEosTokenId := some 2 } else none

def lonePasses : List (Pass twoGroups Nat × (Fin twoGroups.attnDpSize → Option PleBatch)) :=
  [(lonePass 0 7, loneBatch 0 7), (lonePass 1 99, loneBatch 1 99)]

theorem lonePass_ready (busy : Fin twoGroups.attnDpSize) {token : Token} (known : InTable 100 token) :
    (lonePass busy token).Ready twoGroupsModel (loneBatch busy token) 100 := by
  refine ⟨fun rank => ?_, fun dp extends_ => ?_, fun _ => ?_, fun _ _ => rfl, fun _ _ other member => ?_,
    fun dp other member => ?_, fun rank => ?_⟩
  · by_cases mine : rank.1 = busy
    · simp only [lonePass, loneBatch, mine, if_true]
      rfl
    · simp only [lonePass, loneBatch, mine, if_false]
      rfl
  · by_cases mine : dp = busy
    · simp only [lonePass, mine, if_true] at extends_
      cases extends_
    · simp only [lonePass, mine, if_false] at extends_
      cases extends_
  · obtain rfl | rfl := @Fin.exists_fin_two (busy = ·) |>.mp ⟨busy, rfl⟩
    · rfl
    · rfl
  · rcases List.mem_pair.mp member with rfl | rfl
    · decide
    · decide
  · by_cases mine : dp = busy
    · simp only [lonePass, mine, if_true, List.mem_singleton] at member
      exact member ▸ known
    · simp [lonePass, mine] at member
  · by_cases mine : rank.1 = busy
    · simp [lonePass, mine]
    · simp [lonePass, mine]

theorem twoLayers_sharded : Sharded byteCells twoGroupsModel (fun _ => wholeTable) twoLayers 100 := by
  have only {index : Nat} {layer : DecoderLayer twoGroups Nat} {ple : PleLayer twoGroups Nat}
      (found : twoLayers[index]? = some layer) (has : layer.ple = some ple) : ple = offloadedPle := by
    have listed := List.mem_of_getElem? found
    simp only [twoLayers, List.mem_cons, List.not_mem_nil, or_false] at listed
    rcases listed with rfl | rfl
    · cases has
    · cases has
      rfl
  refine ⟨by decide, by decide, by decide, fun index layer ple found has => ?_, fun index layer ple found has => ?_⟩
  · cases only found has
    exact ⟨twoHeads, twoHeads_init, rfl⟩
  · cases only found has
    refine ⟨fun _ => rfl, fun _ => rfl, fun _ => rfl, fun _ _ => rfl, fun rank global inside => ?_, fun dp global known => ?_⟩
    · obtain ⟨low, high⟩ := inside
      change rank.1 * 8 ≤ global at low
      change global < rank.1 * 8 + 8 at high
      change ((List.range 8).map fun place => [UInt8.ofNat (10 + (rank.1 * 8 + place))])[global - rank.1 * 8]? = _
      rw [List.getElem?_map, List.getElem?_range (by omega), Option.map_some, Nat.add_sub_cancel' low]
      rfl
    · change global < 16 at known
      have place : global / 8 < 2 := by omega
      refine ⟨(⟨global / 8, place⟩, 0), mem_members.mpr rfl, ?_, ?_⟩
      · change global / 8 * 8 ≤ global ∧ global < global / 8 * 8 + 8
        omega
      · rintro ⟨group, tp⟩ - ⟨low, high⟩
        change group * 8 ≤ global at low
        change global < group * 8 + 8 at high
        have same : group.val = global / 8 := by omega
        exact Prod.ext (Fin.ext same) (@Subsingleton.elim (Fin 1) _ _ _)

/-- Both groups end, each with the row of its own token. -/
theorem passes_complete_lonePasses : ∃ count, ∃ final : twoGroups.Rank → RankProgram (fun _ parts rank => parts rank)
      (List (List (Option (Rows Nat))) × (Nat → PleState Nat)),
    Steps count (startPasses byteCells twoGroupsModel twoLayers (fun _ _ => none) lonePasses) final ∧
      (∃ result, final (0, 0) = .done result ∧ result.1 = [[none, some [[42, 57]]], [none, none]]) ∧
      ∃ result, final (1, 0) = .done result ∧ result.1 = [[none, none], [none, some [[30, 51]]]] := by
  have faithful : FusedHash.Faithful fun _ _ => none := by
    intro _ _ _ found
    cases found
  have ready : ∀ pass ∈ lonePasses, pass.1.Ready twoGroupsModel pass.2 100 := by
    intro pass member
    rcases List.mem_pair.mp member with rfl | rfl
    · exact lonePass_ready 0 (by decide)
    · exact lonePass_ready 1 (by decide)
  obtain ⟨-, count, final, steps, ended⟩ := @passes_complete _ _ (fun _ parts rank => parts rank) _ _ byteCells twoGroupsModel
    (fun _ => wholeTable) twoLayers (fun _ _ => none) 100 (fun _ _ _ => rfl) faithful rfl twoLayers_sharded lonePasses ready
  obtain ⟨first, here, used, -⟩ := ended (0, 0)
  obtain ⟨second, there, other, -⟩ := ended (1, 0)
  exact ⟨count, final, steps, ⟨first, here, used.trans (by decide)⟩, ⟨second, there, other.trans (by decide)⟩⟩

end FlashNext.Ple
