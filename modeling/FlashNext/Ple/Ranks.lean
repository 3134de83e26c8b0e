import FlashNext.Data.Ragged
import FlashNext.Data.Reduction
import FlashNext.Machine.Collective
import FlashNext.NGram.Windows
import Mathlib.Data.List.FinRange
import Mathlib.Data.List.Nodup

namespace FlashNext.Ple

open FlashNext.Data FlashNext.Collective FlashNext.NGram

abbrev Rows (Value : Type) := List (List Value)

/-- What a forward pass reads of the parallel state, the environment and the MoE
backend. -/
structure Parallel where
  attnDpSize : Nat
  attnTpSize : Nat
  dpAttention : Bool
  attnTpNgram : Bool
  inputScattered : Bool
  moeA2a : Bool
  dpReduceScatterv : Bool
  attnDp_pos : 0 < attnDpSize
  attnTp_pos : 0 < attnTpSize
  single : dpAttention = false → attnDpSize = 1

namespace Parallel

variable (parallel : Parallel)

/-- A rank by its attention-DP and its attention-TP rank. -/
abbrev Rank := Fin parallel.attnDpSize × Fin parallel.attnTpSize

def tpSize : Nat := parallel.attnDpSize * parallel.attnTpSize

/-- The ranks in the order of their numbers. -/
def ranks : List parallel.Rank :=
  (List.finRange parallel.attnDpSize).flatMap fun dp => (List.finRange parallel.attnTpSize).map (dp, ·)

def useAttnTpNgram : Bool := parallel.dpAttention && parallel.attnTpNgram

def gatherDpTokens : Bool := parallel.dpAttention && decide (1 < parallel.attnDpSize) && !parallel.useAttnTpNgram

/-- `tp_size` of a `VocabParallelEmbedding` in the group it is made for. -/
def embeddingTpSize : Nat := if parallel.useAttnTpNgram then parallel.attnTpSize else parallel.tpSize

def useDpMoeGather : Bool := decide (1 < parallel.attnDpSize) && !parallel.moeA2a

def useAttnTpA2aScatter : Bool := decide (1 < parallel.attnTpSize) && parallel.moeA2a

end Parallel

variable {parallel : Parallel} {Value : Type}

/-- The collectives; those of the experts are what the MoE does inside. -/
inductive RankCall (parallel : Parallel) where
  | gatherIds
  | allReduce
  | attnAllReduce (dp : Fin parallel.attnDpSize)
  | gatherHidden
  | experts (layer : Nat)
  | reduceScatterv (sizes : List Nat)
  | attnAllGather (dp : Fin parallel.attnDpSize)

namespace RankCall

def joins : RankCall parallel → parallel.Rank → Bool
  | .attnAllReduce dp, rank | .attnAllGather dp, rank => decide (rank.1 = dp)
  | _, _ => true

abbrev Part (Value : Type) : RankCall parallel → Type
  | .gatherIds => List (List Token)
  | _ => Rows Value

abbrev Answer (Value : Type) : RankCall parallel → Type
  | .gatherIds => List (List Token)
  | .attnAllGather _ => List (Rows Value)
  | _ => Rows Value

def members (call : RankCall parallel) : List parallel.Rank := parallel.ranks.filter (call.joins ·)

/-- `dp_gather_replicate`: the rows of every group, which its first rank brings. -/
def gathered {Row : Type} (parts : parallel.Rank → List Row) : List Row :=
  (List.finRange parallel.attnDpSize).flatMap fun dp => parts (dp, ⟨0, parallel.attnTp_pos⟩)

def combine [Add Value] (experts : Nat → (parallel.Rank → Rows Value) → parallel.Rank → Rows Value) :
    (call : RankCall parallel) → (parallel.Rank → call.Part Value) → parallel.Rank → call.Answer Value
  | .gatherIds, parts, _ => gathered parts
  | .allReduce, parts, _ => sumRows (parallel.ranks.map parts)
  | .attnAllReduce dp, parts, _ => sumRows ((members (.attnAllReduce dp)).map parts)
  | .gatherHidden, parts, _ => gathered parts
  | .experts layer, parts, rank => experts layer parts rank
  | .reduceScatterv sizes, parts, rank => segment sizes (sumRows (parallel.ranks.map parts)) rank.1
  | .attnAllGather dp, parts, _ => (members (.attnAllGather dp)).map parts

end RankCall

def interface [Add Value] (experts : Nat → (parallel.Rank → Rows Value) → parallel.Rank → Rows Value) :
    Interface parallel.Rank where
  Call := RankCall parallel
  joins := RankCall.joins
  Part := RankCall.Part Value
  Answer := RankCall.Answer Value
  combine := RankCall.combine experts

theorem mem_ranks (rank : parallel.Rank) : rank ∈ parallel.ranks := by
  simp [Parallel.ranks]

theorem ranks_nodup : parallel.ranks.Nodup := by
  rw [Parallel.ranks, List.nodup_flatMap]
  refine ⟨fun dp _ => (List.nodup_finRange _).map fun _ _ same => (Prod.mk.inj same).2, ?_⟩
  refine (List.nodup_finRange _).imp fun {first second} apart => ?_
  change List.Disjoint _ _
  rw [List.disjoint_left]
  rintro rank inFirst inSecond
  obtain ⟨_, _, rfl⟩ := List.mem_map.mp inFirst
  obtain ⟨_, _, same⟩ := List.mem_map.mp inSecond
  exact apart (Prod.mk.inj same).1.symm

theorem mem_members {call : RankCall parallel} {rank : parallel.Rank} : rank ∈ call.members ↔ call.joins rank := by
  rw [RankCall.members, List.mem_filter]
  exact and_iff_right (mem_ranks rank)

theorem gathered_eq {Row : Type} {parts : parallel.Rank → List Row} {rows : Fin parallel.attnDpSize → List Row}
    (brought : ∀ rank : parallel.Rank, parts rank = rows rank.1) :
    RankCall.gathered parts = ((List.finRange parallel.attnDpSize).map rows).flatten := by
  rw [RankCall.gathered, ← List.flatMap_def]
  exact List.flatMap_congr fun dp _ => brought _

end FlashNext.Ple
