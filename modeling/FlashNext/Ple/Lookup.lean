import FlashNext.Ple.Arrival
import FlashNext.Ple.Ranks

namespace FlashNext.Ple

open FlashNext.Data FlashNext.Collective FlashNext.NGram

variable {parallel : Parallel} {Value : Type} {experts : Nat → (parallel.Rank → Rows Value) → parallel.Rank → Rows Value}

/-- What the gather reads of a `Qwen4ExpPinnedHostEmbedding`. -/
structure PinnedHostEmbedding (Value : Type) extends Embedding where
  weight : List Row
  weightScale : Value

/-- The elements of a row, as the kernel converts them to bfloat16. -/
abbrev Cells (Value : Type) := TableDtype → Row → List Value

section Code

variable [Zero Value] [Add Value] [Mul Value] (cells : Cells Value)

/-- One program of `_gather_ple_embedding_from_pinned_kernel`. -/
def gatherRow (host : PinnedHostEmbedding Value) (globalIdx : Token) : List Value :=
  let inRange := (host.orgVocabStartIndex : Int) ≤ globalIdx.toInt ∧ globalIdx.toInt < host.orgVocabEndIndex
  let localIdx := if inRange then (globalIdx.toInt - host.orgVocabStartIndex).toNat else 0
  let values := cells host.dtype (host.weight.getD localIdx [])
  if inRange then values else List.replicate host.embeddingDim 0

/-- `gather`, the rows of a token's ids one behind the other. -/
def gather (host : PinnedHostEmbedding Value) (ids : List (List Token)) : Rows Value :=
  ids.map fun row => row.flatMap (gatherRow cells host)

inductive PrefetchFault where
  | ple (error : PleError)
  | missingLayout
  | notConsumed
  | missingState
  | missingBatch
deriving DecidableEq, Repr

def PrefetchFault.message (modeRepr : ForwardMode → String) : PrefetchFault → Option String
  | .ple error => error.message modeRepr
  | .missingLayout => some ("global-TP Qwen4 N-gram lookup under DP attention requires a " ++
      "DP token layout; set SGLANG_USE_ATTN_TP_NGRAM=1 to shard the table within each attention-TP group")
  | .notConsumed => some "PLE prefetch state was not consumed before reuse"
  | .missingState => some "PLE prefetch state is missing"
  | .missingBatch => some "non-idle Qwen4 PLE forward is missing its batch"

abbrev RankProgram (experts : Nat → (parallel.Rank → Rows Value) → parallel.Rank → Rows Value) (Result : Type) :=
  Program (interface experts) PrefetchFault Result

def enter (call : RankCall parallel) (part : call.Part Value) : RankProgram experts (call.Answer Value) :=
  @Program.join _ (interface experts) _ call part

/-- The collective over which a group's table is cut into shards. -/
def reduceCall (dp : Fin parallel.attnDpSize) : RankCall parallel :=
  if parallel.useAttnTpNgram then .attnAllReduce dp else .allReduce

def reduces (parallel : Parallel) : Bool := decide (1 < parallel.embeddingTpSize) && !parallel.inputScattered

def reduce (rank : parallel.Rank) (output : Rows Value) : RankProgram experts (Rows Value) :=
  if reduces parallel then
    if parallel.useAttnTpNgram then enter (.attnAllReduce rank.1) output else enter .allReduce output
  else pure output

def padTokenRows (heads : Nat) (ids : List (List Token)) (totalTokens : Nat) : List (List Token) :=
  if ids.length = totalTokens then ids
  else ids ++ List.replicate (totalTokens - ids.length) (List.replicate heads 0)

/-- `_prepare_embedding_lookup`.  The DP token layout gives the rows of each group. -/
def prepareEmbeddingLookup (heads : Nat) (sizes : Option (List Nat)) (ids : List (List Token)) (physicalTokens : Nat) :
    RankProgram experts (List (List Token) × Nat) :=
  if parallel.gatherDpTokens then
    match sizes with
    | none => .raised .missingLayout
    | some _ => do
        let globalIds : List (List Token) ← enter .gatherIds (padTokenRows heads ids physicalTokens)
        return (globalIds, ids.length)
  else return (ids, ids.length)

/-- `_finish_embedding_lookup`: `dp_scatter` leaves a rank the rows of its group. -/
def finishEmbeddingLookup (rank : parallel.Rank) (sizes : Option (List Nat)) (embeddings : Rows Value)
    (semanticTokens : Nat) : Rows Value :=
  if parallel.gatherDpTokens then (segment (sizes.getD []) embeddings rank.1).take semanticTokens else embeddings

def scaled (host : PinnedHostEmbedding Value) (embeddings : Rows Value) : Rows Value :=
  embeddings.map fun row => row.map (· * host.weightScale)

/-- `_embed_ngram_ids`, of a table that is offloaded or not. -/
def embedNgramIds (host : PinnedHostEmbedding Value) (rank : parallel.Rank) (heads : Nat) (sizes : Option (List Nat))
    (ids : List (List Token)) (physicalTokens : Nat) : RankProgram experts (Rows Value) := do
  let (lookupIds, semanticTokens) ← prepareEmbeddingLookup heads sizes ids physicalTokens
  let embeddings ← reduce rank (gather cells host lookupIds)
  return finishEmbeddingLookup rank sizes (scaled host embeddings) semanticTokens

/-- The scaled row of a token in the whole table. -/
def wholeRow (dtype : TableDtype) (scale : Value) (row : Nat → Row) (ids : List Token) : List Value :=
  (ids.flatMap fun id => cells dtype (row id.toInt.toNat)).map (· * scale)

end Code

def InTable (vocab : Nat) (id : Token) : Prop := 0 ≤ id.toInt ∧ id.toInt < vocab

instance (vocab : Nat) (id : Token) : Decidable (InTable vocab id) := inferInstanceAs (Decidable (_ ∧ _))

/-- The ranks of a group hold the rows of one table, each row on one of them. -/
structure Cut (cells : Cells Value) (dtype : TableDtype) (scale : Value) (row : Nat → Row) (vocab dim : Nat)
    (hosts : parallel.Rank → PinnedHostEmbedding Value) : Prop where
  sameDtype : ∀ rank, (hosts rank).dtype = dtype
  sameDim : ∀ rank, (hosts rank).embeddingDim = dim
  sameScale : ∀ rank, (hosts rank).weightScale = scale
  width : ∀ global < vocab, (cells dtype (row global)).length = dim
  holds : ∀ rank global, (hosts rank).InWindow global →
    (hosts rank).weight[global - (hosts rank).orgVocabStartIndex]? = some (row global)
  holder : ∀ dp, ∀ global < vocab, ∃ holder ∈ (reduceCall dp : RankCall parallel).members, (hosts holder).InWindow global ∧
    ∀ other ∈ (reduceCall dp : RankCall parallel).members, (hosts other).InWindow global → other = holder

section Cut

variable [AddZeroClass Value] {cells : Cells Value} {dtype : TableDtype} {scale : Value} {row : Nat → Row} {vocab dim : Nat}
  {hosts : parallel.Rank → PinnedHostEmbedding Value} {rank : parallel.Rank} {id : Token} {ids : List (List Token)}

omit [AddZeroClass Value] in
theorem inRange_iff {host : PinnedHostEmbedding Value} (known : InTable vocab id) :
    ((host.orgVocabStartIndex : Int) ≤ id.toInt ∧ id.toInt < host.orgVocabEndIndex) ↔ host.InWindow id.toInt.toNat := by
  obtain ⟨low, -⟩ := known
  rw [Embedding.InWindow]
  omega

namespace Cut

theorem gatherRow_own (cut : Cut cells dtype scale row vocab dim hosts) (known : InTable vocab id)
    (inside : (hosts rank).InWindow id.toInt.toNat) :
    gatherRow cells (hosts rank) id = cells dtype (row id.toInt.toNat) := by
  have place : (id.toInt - (hosts rank).orgVocabStartIndex).toNat = id.toInt.toNat - (hosts rank).orgVocabStartIndex := by
    have low := known.1
    omega
  simp only [gatherRow, (inRange_iff known).mpr inside, and_self, if_true]
  rw [place, List.getD_eq_getElem?_getD, cut.holds rank _ inside, Option.getD_some, cut.sameDtype]

theorem gatherRow_other (cut : Cut cells dtype scale row vocab dim hosts) (known : InTable vocab id)
    (outside : ¬ (hosts rank).InWindow id.toInt.toNat) : gatherRow cells (hosts rank) id = List.replicate dim 0 := by
  have apart := mt (inRange_iff known).mp outside
  simp only [gatherRow, apart, if_false, cut.sameDim]

theorem length_gatherRow (cut : Cut cells dtype scale row vocab dim hosts) (known : InTable vocab id) :
    (gatherRow cells (hosts rank) id).length = dim := by
  by_cases inside : (hosts rank).InWindow id.toInt.toNat
  · rw [cut.gatherRow_own known inside]
    obtain ⟨low, high⟩ := known
    exact cut.width _ (by omega)
  · rw [cut.gatherRow_other known inside, List.length_replicate]

theorem sumRow_gathered (cut : Cut cells dtype scale row vocab dim hosts) (dp : Fin parallel.attnDpSize)
    (known : InTable vocab id) :
    sumRow ((reduceCall dp : RankCall parallel).members.map fun member => gatherRow cells (hosts member) id) =
      cells dtype (row id.toInt.toNat) := by
  have inTable : id.toInt.toNat < vocab := by
    obtain ⟨low, high⟩ := known
    omega
  obtain ⟨holder, listed, inside, only⟩ := cut.holder dp _ inTable
  rw [← cut.gatherRow_own known inside]
  refine @sumRow_holder _ _ _ dim (fun member => gatherRow cells (hosts member) id) holder _ (cut.length_gatherRow known)
    (ranks_nodup.filter _) listed fun other member apart => ?_
  exact cut.gatherRow_other known fun within => apart (only other member within)

/-- What the members of a group gathered adds up to rows of the whole table. -/
theorem sumRows_gathered (cut : Cut cells dtype scale row vocab dim hosts) (dp : Fin parallel.attnDpSize)
    (known : ∀ row ∈ ids, ∀ id ∈ row, InTable vocab id) :
    sumRows ((reduceCall dp : RankCall parallel).members.map fun member => gather cells (hosts member) ids) =
      ids.map fun tokenIds => tokenIds.flatMap fun id => cells dtype (row id.toInt.toNat) := by
  have some_ : (reduceCall dp : RankCall parallel).members ≠ [] := by
    refine List.ne_nil_of_mem (mem_members.mpr (?_ : (reduceCall dp).joins (dp, ⟨0, parallel.attnTp_pos⟩) = true))
    unfold reduceCall
    split <;> simp [RankCall.joins]
  refine (sumRows_map some_ (fun member tokenIds => tokenIds.flatMap (gatherRow cells (hosts member))) ids).trans ?_
  refine List.map_congr_left fun tokenIds listed => ?_
  rw [sumRow_flatMap fun member _ id inside => cut.length_gatherRow (known tokenIds listed id inside)]
  exact List.flatMap_congr fun id inside => cut.sumRow_gathered dp (known tokenIds listed id inside)

/-- Where a group has one rank, there is nothing to add up. -/
theorem gather_alone (cut : Cut cells dtype scale row vocab dim hosts) (alone : parallel.embeddingTpSize ≤ 1)
    (known : ∀ row ∈ ids, ∀ id ∈ row, InTable vocab id) :
    gather cells (hosts rank) ids = ids.map fun tokenIds => tokenIds.flatMap fun id => cells dtype (row id.toInt.toNat) := by
  refine List.map_congr_left fun tokenIds listed => List.flatMap_congr fun id inside => ?_
  have inTable := known tokenIds listed id inside
  obtain ⟨holder, member, within, -⟩ := cut.holder rank.1 id.toInt.toNat (by obtain ⟨low, high⟩ := inTable; omega)
  suffices holder = rank by
    subst this
    exact cut.gatherRow_own inTable within
  have group := mem_members.mp member
  unfold reduceCall at group
  unfold Parallel.embeddingTpSize at alone
  have tp : parallel.attnTpSize ≤ 1 ∧ (holder.1 = rank.1) := by
    split at group
    · rename_i narrow
      rw [if_pos narrow] at alone
      exact ⟨alone, by simpa [RankCall.joins] using group⟩
    · rename_i wide
      rw [if_neg wide, Parallel.tpSize] at alone
      have dpOne := Nat.le_trans (Nat.le_mul_of_pos_right _ parallel.attnTp_pos) alone
      have tpOne := Nat.le_trans (Nat.le_mul_of_pos_left _ parallel.attnDp_pos) alone
      exact ⟨tpOne, Fin.ext (by omega)⟩
  refine Prod.ext tp.2 (Fin.ext ?_)
  have small := tp.1
  omega

end Cut

end Cut

end FlashNext.Ple
