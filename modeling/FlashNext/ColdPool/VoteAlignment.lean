import FlashNext.ColdPool.Votes
import FlashNext.ColdPool.Recency
import Mathlib.Tactic.Linarith

namespace FlashNext.ColdPool

open FlashNext.Data

/-- An id of an expert of the layer.  Padding is negative, fused-shared columns
come after the experts. -/
def isDemand (width : Nat) (id : Int) : Bool := decide (0 ≤ id ∧ id < width)

/-- The stride at which `stash_demand` samples the tokens of a step. -/
def sampleStride (count : Nat) : Nat := if stashRows < count then (count + stashRows - 1) / stashRows else 1

def sampledTokens (preMask : Grid ℚ) (topkIds : Grid Int) : List (List ℚ × List Int) :=
  strided (sampleStride topkIds.rows.length) (preMask.rows.zip topkIds.rows)

/-- The ids a step stashes, in the order of the buffer. -/
def sampledIds (topkIds : Grid Int) : List Int :=
  (strided (sampleStride topkIds.rows.length) topkIds.rows).flatten

def demandRow (width : Nat) (token : List ℚ × List Int) : DemandRow :=
  ⟨token.1, (token.2.filter (isDemand width)).map Int.toNat⟩

/-- The tokens that are not padding. -/
def votingRows (width : Nat) (tokens : List (List ℚ × List Int)) : List DemandRow :=
  (tokens.map (demandRow width)).filter fun row => !row.ids.isEmpty

/-- Every token is padding or has exactly `k` experts, and some sampled one is
not padding. -/
structure WellPadded (width k : Nat) (topkIds : Grid Int) : Prop where
  whole : ∀ row ∈ topkIds.rows, row.countP (isDemand width) = 0 ∨ row.countP (isDemand width) = k
  voter : ∃ id ∈ sampledIds topkIds, isDemand width id

/-- No padding and no fused-shared column comes before an expert. -/
def DemandLeads (width : Nat) (topkIds : Grid Int) : Prop :=
  (sampledIds topkIds).Pairwise fun before after => isDemand width after → isDemand width before

instance (width : Nat) (topkIds : Grid Int) : Decidable (DemandLeads width topkIds) :=
  inferInstanceAs (Decidable (List.Pairwise _ _))

/-- What `stash_demand` needs to write a stash for a layer: logits of every
token over the experts of the layer, at most as many ids as the caller
announces, and a buffer that was made for as many. -/
structure Stashes (state : State) (layer passed : Nat) (preMask : Grid ℚ) (topkIds : Grid Int) (ctx : Ctx) : Prop where
  armed : state.dynamic = true
  managed : state.ctx? layer = some ctx
  experts : preMask.width = ctx.pool.experts
  paired : preMask.rows.length = topkIds.rows.length
  columns : topkIds.width ≤ passed
  room : ∀ buffer, state.stash.get? layer = some buffer → buffer.ids.length = stashRows * passed

/-- The tick of a layer counts exactly the votes of the given rows; an expert
below the band in every row gets none. -/
def CountsRowwise (sigmoid : ℚ → ℚ) (config : HookConfig) (faults : Faults) (state : State) (layer : Nat)
    (rows : List DemandRow) : Prop :=
  ∃ tick, layerTick config faults state layer = some tick ∧ tick.Fits ∧
    (tick.voted sigmoid).pool.need = rowwiseNeed sigmoid config tick.ctx.pool rows ∧
    ∀ gid < tick.ctx.pool.need.length,
      (∀ row ∈ rows, ¬ row.inBand sigmoid config.strongAlpha tick.ctx.pool gid) →
      (tick.voted sigmoid).pool.need.getD gid 0 = tick.ctx.pool.need.getD gid 0 * config.emaDecay

variable {sigmoid : ℚ → ℚ} {width k passed layer : Nat} {preMask : Grid ℚ} {topkIds : Grid Int}
  {state : State} {ctx : Ctx} {config : HookConfig} {faults : Faults}

def spread (tokens : List (List ℚ × List Int)) : List (List ℚ × Int) :=
  tokens.flatMap fun token => token.2.map fun id => (token.1, id)

theorem demandId_nonneg (width : Nat) (id : Int) : (0 ≤ demandId width id) ↔ isDemand width id := by
  simp only [demandId, isDemand, decide_eq_true_eq]
  split <;> omega

theorem demandId_of_isDemand {id : Int} (demand : isDemand width id) : demandId width id = id := by
  have inside := of_decide_eq_true demand
  rw [demandId, if_neg (by omega)]

theorem spread_ids (tokens : List (List ℚ × List Int)) (width : Nat) :
    (tokens.map fun token => token.2.map (demandId width)).flatten =
      (spread tokens).map fun entry => demandId width entry.2 := by
  rw [spread, List.map_flatMap, List.flatMap]
  congr 1
  apply List.map_congr_left
  intro token _
  rw [List.map_map]
  rfl

theorem spread_scores (sigmoid : ℚ → ℚ) (tokens : List (List ℚ × List Int)) (width : Nat) :
    (tokens.map fun token => token.2.map (demandScore sigmoid width token.1)).flatten =
      (spread tokens).map fun entry => demandScore sigmoid width entry.1 entry.2 := by
  rw [spread, List.map_flatMap, List.flatMap]
  congr 1
  apply List.map_congr_left
  intro token _
  rw [List.map_map]
  rfl

theorem votingRows_flatMap {β : Type} (tokens : List (List ℚ × List Int)) (width : Nat)
    (view : DemandRow → List β) (padding : ∀ row : DemandRow, row.ids = [] → view row = []) :
    (votingRows width tokens).flatMap view = tokens.flatMap fun token => view (demandRow width token) := by
  induction tokens with
  | nil => rfl
  | cons token rest ih =>
      rw [votingRows] at ih
      rw [votingRows, List.map_cons, List.flatMap_cons]
      by_cases empty : (demandRow width token).ids = []
      · rw [List.filter_cons_of_neg (by simp [empty]), ih, padding _ empty, List.nil_append]
      · rw [List.filter_cons_of_pos (by simpa using empty), List.flatMap_cons, ih]

theorem spread_filter {β : Type} (tokens : List (List ℚ × List Int)) (width : Nat) (view : List ℚ → Nat → β) :
    ((spread tokens).filter fun entry => isDemand width entry.2).map (fun entry => view entry.1 entry.2.toNat) =
      (votingRows width tokens).flatMap fun row => row.ids.map (view row.logits) := by
  rw [votingRows_flatMap tokens width _ (by simp), spread, List.filter_flatMap, List.map_flatMap]
  congr 1
  funext token
  rw [demandRow, List.filter_map, List.map_map, List.map_map]
  rfl

theorem zip_tokens {preMask : Grid ℚ} {topkIds : Grid Int} (paired : preMask.rows.length = topkIds.rows.length) :
    (preMask.rows.zip topkIds.rows).map Prod.fst = preMask.rows ∧
      (preMask.rows.zip topkIds.rows).map Prod.snd = topkIds.rows :=
  ⟨List.map_fst_zip (by omega), List.map_snd_zip (by omega)⟩

theorem sampledIds_eq (paired : preMask.rows.length = topkIds.rows.length) :
    sampledIds topkIds = (spread (sampledTokens preMask topkIds)).map Prod.snd := by
  have columns := (zip_tokens paired).2
  rw [sampledIds, spread, sampledTokens, List.map_flatMap, List.flatMap]
  nth_rewrite 2 [← columns]
  rw [strided_map]
  congr 1
  apply List.map_congr_left
  intro token _
  rw [List.map_map]
  exact (List.map_id _).symm

theorem sampleStride_rows (tokens : List (List ℚ × List Int)) :
    (strided (sampleStride tokens.length) tokens).length ≤ stashRows := by
  by_cases large : stashRows < tokens.length
  · have positive : 0 < (tokens.length + stashRows - 1) / stashRows :=
      Nat.div_pos (by omega) (by decide)
    rw [sampleStride, if_pos large, length_strided positive]
    apply Nat.le_of_lt_succ
    apply (Nat.div_lt_iff_lt_mul positive).mpr
    have covered := Nat.lt_mul_div_succ (tokens.length + stashRows - 1) (by decide : 0 < stashRows)
    simp only [stashRows] at *
    omega
  · rw [sampleStride, if_neg large, length_strided Nat.one_pos, Nat.add_sub_cancel, Nat.div_one]
    omega

/-- The buffer a stash leaves behind: all sampled ids and scores in order, and
the logits of the tokens that are not padding. -/
structure Holds (buffer : StashBuffer) (sigmoid : ℚ → ℚ) (width : Nat) (tokens : List (List ℚ × List Int)) : Prop where
  ids : buffer.validIds = (votingRows width tokens).flatMap DemandRow.ids
  scores : ∃ rest, buffer.scores =
    (spread tokens).map (fun entry => demandScore sigmoid width entry.1 entry.2) ++ rest
  logits : buffer.logits = some ((votingRows width tokens).map DemandRow.logits)
  logitsN : buffer.logitsN = (votingRows width tokens).length

theorem filter_demandId (tokens : List (List ℚ × List Int)) (width : Nat) :
    (((spread tokens).map fun entry => demandId width entry.2).filter (0 ≤ ·)).map Int.toNat =
      (votingRows width tokens).flatMap DemandRow.ids := by
  have same : ((spread tokens).filter fun entry => decide (0 ≤ demandId width entry.2)) =
      (spread tokens).filter fun entry => isDemand width entry.2 := by
    apply List.filter_congr
    intro entry _
    exact Bool.eq_iff_iff.mpr (by simp [demandId_nonneg])
  have plain := spread_filter tokens width fun _ gid => gid
  simp only [List.map_id'] at plain
  rw [List.filter_map, List.map_map]
  simp only [Function.comp_def]
  rw [same]
  refine Eq.trans (List.map_congr_left fun entry member => ?_) plain
  rw [demandId_of_isDemand (List.mem_filter.mp member).2]

theorem votingRows_logits (tokens : List (List ℚ × List Int)) (width : Nat) :
    ((tokens.map fun token => (token.1, token.2.map (demandId width))).filter fun entry =>
      entry.2.any (0 ≤ ·)).map Prod.fst = (votingRows width tokens).map DemandRow.logits := by
  have same (token : List ℚ × List Int) : (token.2.map (demandId width)).any (fun id => decide (0 ≤ id)) =
      !(demandRow width token).ids.isEmpty := by
    apply Bool.eq_iff_iff.mpr
    simp [demandRow, demandId_nonneg]
  rw [votingRows, List.filter_map, List.filter_map, List.map_map, List.map_map]
  simp only [Function.comp_def, same]
  rfl

theorem spread_length (paired : preMask.rows.length = topkIds.rows.length) :
    (spread (sampledTokens preMask topkIds)).length ≤ stashRows * topkIds.width := by
  have uniform : ∀ row ∈ (sampledTokens preMask topkIds).map Prod.snd, row.length = topkIds.width := by
    intro row member
    obtain ⟨token, sampled, rfl⟩ := List.mem_map.mp member
    exact topkIds.rect _ (List.of_mem_zip (strided_mem sampled)).2
  have total := flatten_uniform_length uniform
  have count : (spread (sampledTokens preMask topkIds)).length =
      ((sampledTokens preMask topkIds).map Prod.snd).flatten.length := by
    simp [spread, List.length_flatMap, List.length_flatten, Function.comp_def]
  have rows := sampleStride_rows (preMask.rows.zip topkIds.rows)
  rw [List.length_zip, paired, Nat.min_self] at rows
  rw [count, total, List.length_map]
  exact Nat.mul_le_mul_right _ rows

theorem stashDemand_holds (sigmoid : ℚ → ℚ) (stashes : Stashes state layer passed preMask topkIds ctx)
    (voter : ∃ id ∈ sampledIds topkIds, isDemand preMask.width id) :
    ∃ buffer, (stashDemand sigmoid state (some layer) false preMask topkIds passed).stash.get? layer = some buffer ∧
      Holds buffer sigmoid preMask.width (sampledTokens preMask topkIds) := by
  obtain ⟨id, inside, demand⟩ := voter
  have wide : preMask.width ≠ 0 := by
    have bound := of_decide_eq_true demand
    omega
  have some_ : topkIds.rows.length ≠ 0 := by
    intro none
    rw [List.length_eq_zero_iff] at none
    rw [sampledIds, none] at inside
    contradiction
  have ⟨left, right⟩ := zip_tokens stashes.paired
  have idRows : topkIds.rows.map (·.map (demandId preMask.width)) =
      (preMask.rows.zip topkIds.rows).map fun token => token.2.map (demandId preMask.width) := by
    nth_rewrite 1 [← right]
    rw [List.map_map]
    rfl
  have scoreRows : List.zipWith (fun logits row => row.map (demandScore sigmoid preMask.width logits))
      preMask.rows topkIds.rows =
      (preMask.rows.zip topkIds.rows).map fun token => token.2.map (demandScore sigmoid preMask.width token.1) :=
    (List.map_zip_eq_zipWith (f := fun token : List ℚ × List Int =>
      token.2.map (demandScore sigmoid preMask.width token.1))).symm
  have stride : (if stashRows < topkIds.rows.length then (topkIds.rows.length + stashRows - 1) / stashRows else 1) =
      sampleStride topkIds.rows.length := rfl
  have logitRows : strided (sampleStride topkIds.rows.length) preMask.rows =
      (sampledTokens preMask topkIds).map Prod.fst := by
    rw [sampledTokens, ← strided_map, left]
  simp only [stashDemand, stashes.armed, Bool.not_true, Bool.false_eq_true, or_self, if_false, some_, stashes.paired,
    ne_eq, not_true, wide, stride, idRows, scoreRows, strided_map, logitRows]
  have tokens : strided (sampleStride topkIds.rows.length) (preMask.rows.zip topkIds.rows) =
      sampledTokens preMask topkIds := rfl
  have fits := Nat.le_trans (spread_length stashes.paired) (Nat.mul_le_mul_left stashRows stashes.columns)
  simp only [tokens, spread_ids, spread_scores, List.length_map, Nat.min_eq_left fits, List.zip_map', votingRows_logits]
  generalize kept : (state.stash.get? layer).getD ⟨_, _, none, 0⟩ = buffer
  have room : buffer.ids.length = stashRows * passed := by
    cases before : state.stash.get? layer with
    | none =>
        rw [← kept, before]
        exact List.length_replicate
    | some old =>
        rw [← kept, before]
        exact stashes.room old before
  rw [if_neg (by omega)]
  have whole {β : Type} (view : List ℚ × Int → β) :
      ((spread (sampledTokens preMask topkIds)).map view).take (spread (sampledTokens preMask topkIds)).length =
        (spread (sampledTokens preMask topkIds)).map view := List.take_of_length_le (List.length_map _).le
  simp only [whole]
  refine ⟨_, by rw [Dict.get?_set, if_pos rfl], ?_, ⟨_, rfl⟩, rfl, ?_⟩
  · rw [StashBuffer.validIds, List.filter_append, List.map_append, filter_demandId,
      List.filter_eq_nil_iff.mpr (by simp), List.map_nil, List.append_nil]
  · have lengths := congrArg List.length (votingRows_logits (sampledTokens preMask topkIds) preMask.width)
    rwa [List.length_map, List.length_map] at lengths

theorem stashDemand_ctx (sigmoid : ℚ → ℚ) (other : Nat) :
    (stashDemand sigmoid state (some layer) false preMask topkIds passed).ctx? other = state.ctx? other := by
  obtain ⟨stash, dirty, same⟩ := stashDemand_eq sigmoid state (some layer) false preMask topkIds passed
  rw [same]
  rfl

theorem HookConfig.k_pos (config : HookConfig) : 0 < config.k := by
  rw [HookConfig.k]
  split <;> omega

theorem votingRows_whole (padded : WellPadded preMask.width k topkIds) {row : DemandRow}
    (member : row ∈ votingRows preMask.width (sampledTokens preMask topkIds)) : row.ids.length = k := by
  obtain ⟨made, voting⟩ := List.mem_filter.mp member
  obtain ⟨token, sampled, rfl⟩ := List.mem_map.mp made
  have length : (demandRow preMask.width token).ids.length = token.2.countP (isDemand preMask.width) := by
    rw [demandRow, List.length_map, List.countP_eq_length_filter]
  cases padded.whole token.2 (List.of_mem_zip (strided_mem sampled)).2 with
  | inl padding =>
      rw [padding, List.length_eq_zero_iff] at length
      rw [length] at voting
      contradiction
  | inr full => exact length.trans full

theorem readBallot_holds {buffer : StashBuffer} {tokens : List (List ℚ × List Int)}
    (holds : Holds buffer sigmoid width tokens) (whole : ∀ row ∈ votingRows width tokens, row.ids.length = config.k)
    (voters : votingRows width tokens ≠ []) :
    readBallot config buffer = some ⟨(votingRows width tokens).map DemandRow.ids,
      reshape config.k (votingRows width tokens).length buffer.scores,
      (votingRows width tokens).map DemandRow.logits⟩ := by
  have uniform : ∀ ids ∈ (votingRows width tokens).map DemandRow.ids, ids.length = config.k := by
    intro ids member
    obtain ⟨row, inside, rfl⟩ := List.mem_map.mp member
    exact whole row inside
  have valid : (buffer.ids.filter (0 ≤ ·)).map Int.toNat = ((votingRows width tokens).map DemandRow.ids).flatten :=
    holds.ids
  have count := flatten_uniform_length uniform
  rw [List.length_map] at count
  have positive := List.length_pos_iff.mpr voters
  rw [readBallot]
  simp only [valid, count, Nat.mul_div_cancel _ config.k_pos, Nat.ne_of_gt positive, if_false, holds.logits,
    holds.logitsN, Option.getD_some, Nat.min_self, reshape_flatten uniform (List.length_map _)]
  rw [List.take_of_length_le (List.length_map _).le]

theorem voters_of_padded (paired : preMask.rows.length = topkIds.rows.length)
    (voter : ∃ id ∈ sampledIds topkIds, isDemand preMask.width id) :
    votingRows preMask.width (sampledTokens preMask topkIds) ≠ [] := by
  obtain ⟨id, inside, demand⟩ := voter
  intro none
  have ids := spread_filter (sampledTokens preMask topkIds) preMask.width fun _ gid => gid
  rw [none, List.flatMap_nil, List.map_eq_nil_iff] at ids
  rw [sampledIds_eq paired] at inside
  obtain ⟨entry, member, rfl⟩ := List.mem_map.mp inside
  exact List.filter_eq_nil_iff.mp ids entry member demand

theorem WellPadded.pos (padded : WellPadded width k topkIds) : 0 < k := by
  obtain ⟨id, inside, demand⟩ := padded.voter
  obtain ⟨row, sampled, here⟩ := List.mem_flatten.mp inside
  have some_ := List.countP_pos_iff.mpr ⟨id, here, demand⟩
  cases padded.whole row (strided_mem sampled) with
  | inl padding => omega
  | inr full => omega

theorem length_demand {tokens : List (List ℚ × List Int)} (whole : ∀ row ∈ votingRows width tokens, row.ids.length = k) :
    ((spread tokens).filter fun entry => isDemand width entry.2).length = (votingRows width tokens).length * k := by
  have uniform : ∀ ids ∈ (votingRows width tokens).map DemandRow.ids, ids.length = k := by
    intro ids member
    obtain ⟨row, inside, rfl⟩ := List.mem_map.mp member
    exact whole row inside
  have flat := congrArg List.length (spread_filter tokens width fun _ gid => gid)
  simp only [List.map_id', List.length_map] at flat
  rw [flat, List.flatMap, flatten_uniform_length uniform, List.length_map]

/-- The ballot of a stash: ids and logits by row, the scores as they stand. -/
def stashBallot (sigmoid : ℚ → ℚ) (width k : Nat) (tokens : List (List ℚ × List Int)) : Ballot where
  flat := (votingRows width tokens).map DemandRow.ids
  scores := reshape k (votingRows width tokens).length
    ((spread tokens).map fun entry => demandScore sigmoid width entry.1 entry.2)
  logits := (votingRows width tokens).map DemandRow.logits

theorem stashBallot_fits (stashes : Stashes state layer passed preMask topkIds ctx) :
    (stashBallot sigmoid preMask.width k (sampledTokens preMask topkIds)).Fits ctx.pool.experts := by
  constructor
  · intro gid member
    obtain ⟨ids, inside, chosen⟩ := List.mem_flatten.mp member
    obtain ⟨row, voting, rfl⟩ := List.mem_map.mp inside
    obtain ⟨token, _, rfl⟩ := List.mem_map.mp (List.mem_filter.mp voting).1
    obtain ⟨id, valid, rfl⟩ := List.mem_map.mp chosen
    have bounds := of_decide_eq_true (List.mem_filter.mp valid).2
    have experts := stashes.experts
    omega
  · intro logits member
    obtain ⟨row, voting, rfl⟩ := List.mem_map.mp member
    obtain ⟨token, sampled, rfl⟩ := List.mem_map.mp (List.mem_filter.mp voting).1
    rw [← stashes.experts]
    exact preMask.rect _ (List.of_mem_zip (strided_mem sampled)).1

theorem countsRowwise_iff (stashes : Stashes state layer passed preMask topkIds ctx)
    (padded : WellPadded preMask.width config.k topkIds) :
    CountsRowwise sigmoid config faults (stashDemand sigmoid state (some layer) false preMask topkIds passed) layer
        (votingRows preMask.width (sampledTokens preMask topkIds)) ↔
      (castVotes sigmoid config ctx.tickUp.pool
        (stashBallot sigmoid preMask.width config.k (sampledTokens preMask topkIds))).1 =
        rowwiseNeed sigmoid config ctx.tickUp.pool (votingRows preMask.width (sampledTokens preMask topkIds)) := by
  obtain ⟨buffer, stored, holds⟩ := stashDemand_holds sigmoid stashes padded.voter
  have whole : ∀ row ∈ votingRows preMask.width (sampledTokens preMask topkIds), row.ids.length = config.k :=
    fun row member => votingRows_whole padded member
  have voters := voters_of_padded stashes.paired padded.voter
  obtain ⟨rest, scores⟩ := holds.scores
  have enough := (length_demand whole).symm.trans_le (List.length_filter_le _ _)
  have ballot : readBallot config buffer =
      some (stashBallot sigmoid preMask.width config.k (sampledTokens preMask topkIds)) := by
    rw [readBallot_holds holds whole voters, scores, reshape_append (by rwa [List.length_map])]
    rfl
  have ticked : layerTick config faults
      (stashDemand sigmoid state (some layer) false preMask topkIds passed) layer = some ⟨layer, config, faults,
        degradeEnabled config (stashDemand sigmoid state (some layer) false preMask topkIds passed), ctx.tickUp,
        buffer.validIds, stashBallot sigmoid preMask.width config.k (sampledTokens preMask topkIds)⟩ := by
    simp only [layerTick, stored, stashDemand_ctx, stashes.managed, ballot, Option.map_some]
  have fits : (stashBallot sigmoid preMask.width config.k (sampledTokens preMask topkIds)).Fits
      ctx.pool.experts := stashBallot_fits stashes
  constructor
  · intro counts
    obtain ⟨tick, made, _, counted, _⟩ := counts
    cases ticked.symm.trans made
    exact counted
  · intro counted
    refine ⟨_, ticked, fits, counted, fun gid bound below => ?_⟩
    exact (congrArg (·.getD gid 0) counted).trans (rowwiseNeed_outOfBand bound below)

theorem stashBallot_aligned {tokens : List (List ℚ × List Int)}
    (whole : ∀ row ∈ votingRows width tokens, row.ids.length = k)
    (leading : (spread tokens).Pairwise fun before after => isDemand width after.2 → isDemand width before.2) :
    stashBallot sigmoid width k tokens = alignedBallot sigmoid (votingRows width tokens) := by
  have front := @take_filter_of_leading _ (fun entry : List ℚ × Int => isDemand width entry.2) _ leading
  have own : ((spread tokens).filter fun entry => isDemand width entry.2).map
      (fun entry => demandScore sigmoid width entry.1 entry.2) =
      ((votingRows width tokens).map fun row => row.ids.map (row.score sigmoid)).flatten := by
    have view := spread_filter tokens width fun logits gid => sigmoid (logits.getD gid 0)
    refine Eq.trans (List.map_congr_left fun entry member => ?_) view
    have bounds := of_decide_eq_true (List.mem_filter.mp member).2
    rw [demandScore, if_neg (by omega)]
  have uniform : ∀ scores ∈ (votingRows width tokens).map fun row => row.ids.map (row.score sigmoid),
      scores.length = k := by
    intro scores member
    obtain ⟨row, inside, rfl⟩ := List.mem_map.mp member
    exact (List.length_map _).trans (whole row inside)
  have split : (spread tokens).map (fun entry => demandScore sigmoid width entry.1 entry.2) =
      ((votingRows width tokens).map fun row => row.ids.map (row.score sigmoid)).flatten ++
        ((spread tokens).drop ((spread tokens).filter fun entry => isDemand width entry.2).length).map
          fun entry => demandScore sigmoid width entry.1 entry.2 := by
    have parts := List.take_append_drop ((spread tokens).filter fun entry => isDemand width entry.2).length
      (spread tokens)
    rw [front] at parts
    rw [← own, ← List.map_append, parts]
  rw [stashBallot, split, reshape_append (by rw [flatten_uniform_length uniform, List.length_map]),
    reshape_flatten uniform (List.length_map _)]
  rfl

theorem countsRowwise_of_leading (positive : ∀ logit, 0 < sigmoid logit)
    (stashes : Stashes state layer passed preMask topkIds ctx) (padded : WellPadded preMask.width config.k topkIds)
    (leads : DemandLeads preMask.width topkIds) :
    CountsRowwise sigmoid config faults (stashDemand sigmoid state (some layer) false preMask topkIds passed) layer
      (votingRows preMask.width (sampledTokens preMask topkIds)) := by
  apply (countsRowwise_iff stashes padded).mpr
  rw [DemandLeads, sampledIds_eq stashes.paired, List.pairwise_map] at leads
  rw [stashBallot_aligned (fun row member => votingRows_whole padded member) leads]
  exact castVotes_aligned positive config _ _

def lonelyPool (width cold : Nat) : Pool :=
  Pool.init 0 ((List.range width).filter (· ≠ cold)) [cold] 1 0 width

def lonelyState (width cold : Nat) : State :=
  { State.fresh starvedModel.modules with
    dynamic := true
    shrunk := true
    layers := Dict.empty.set 0 (lonelyPool width cold) }

def lonelyConfig (k : Nat) : HookConfig := { pairConfig with topK := k, strongAlpha := 4, emaDecay := 1 }

theorem lonelyConfig_k (positive : 0 < k) : (lonelyConfig k).k = k := by
  simp only [HookConfig.k, lonelyConfig, Nat.ne_of_gt positive, if_false]

def flatLogits (width count : Nat) : Grid ℚ where
  width := width
  rows := List.replicate count (List.replicate width 0)
  rect := fun _ member => List.eq_of_mem_replicate member ▸ List.length_replicate

theorem isCold_lonelyPool {cold gid : Nat} (inside : cold < width) :
    isCold (lonelyPool width cold) gid = decide (gid = cold) := by
  rw [isCold, lonelyPool, Pool.init]
  by_cases bound : gid < width
  · simp [bound]
  · simp [bound]
    omega

theorem flat_outOfBand (positive : ∀ logit, 0 < sigmoid logit) {row : DemandRow}
    (flat : ∀ gid, row.logits.getD gid 0 = 0) (pool : Pool) (gid : Nat) : ¬ row.inBand sigmoid 4 pool gid := by
  have score (gid : Nat) : row.score sigmoid gid = sigmoid 0 := by rw [DemandRow.score, flat]
  rw [DemandRow.inBand]
  cases least : row.hotMin sigmoid pool with
  | none => simp [inBand]
  | some value =>
      obtain ⟨other, _, rfl⟩ := List.mem_map.mp (List.min?_mem least)
      have above := positive 0
      simp only [inBand, score, decide_eq_true_eq, not_le]
      exact lt_mul_of_one_lt_left above (by decide)

theorem hotMin_stray {pool : Pool} {ids : List Nat} {scores : List ℚ} {index gid : Nat}
    (id : ids[index]? = some gid) (score : scores[index]? = some (-1)) (hot : isCold pool gid = false) :
    ∃ least, hotMin pool ids scores = some least ∧ least ≤ -1 := by
  have member : -1 ∈ ((ids.zip scores).filter fun entry => !isCold pool entry.1).map Prod.snd := by
    refine List.mem_map.mpr ⟨(gid, -1), List.mem_filter.mpr ⟨?_, by simp [hot]⟩, rfl⟩
    exact List.mem_of_getElem? (List.getElem?_zip_eq_some.mpr ⟨id, score⟩)
  cases least : hotMin pool ids scores with
  | none =>
      rw [hotMin, List.min?_eq_none_iff] at least
      rw [least] at member
      contradiction
  | some value => exact ⟨value, rfl, (List.min?_eq_some_iff.mp least).2 _ member⟩

theorem probeRow_stray (positive : ∀ logit, 0 < sigmoid logit) {pool : Pool} {cold : Nat}
    (lone : ∀ gid, isCold pool gid = decide (gid = cold)) (absent : cold ∉ pool.gidRow.keys) {least : ℚ}
    (below : least ≤ -1) {logits : List ℚ} (inside : cold < logits.length) :
    probeRow sigmoid 4 pool (some least) logits = some cold := by
  have score (gid : Nat) : 0 < sigmoid (logits.getD gid 0) := positive _
  have band (gid : Nat) : inBand 4 (some least) (sigmoid (logits.getD gid 0)) = true := by
    have above := score gid
    simp only [inBand, decide_eq_true_eq]
    linarith
  have gated := @firstBest_gated Nat (fun gid => inBand 4 (some least) (sigmoid (logits.getD gid 0)) && isCold pool gid &&
    !decide (gid ∈ pool.gidRow.keys)) (fun gid => sigmoid (logits.getD gid 0)) score (List.range logits.length)
  refine Eq.trans gated ?_
  have only : ∀ gid ∈ (List.range logits.length).filter (fun gid =>
      inBand 4 (some least) (sigmoid (logits.getD gid 0)) && isCold pool gid &&
        !decide (gid ∈ pool.gidRow.keys)), gid = cold := by
    intro gid member
    have kept := (List.mem_filter.mp member).2
    simp only [lone, Bool.and_eq_true, decide_eq_true_eq] at kept
    exact kept.1.2
  cases winner : firstBest (fun gid best => decide (sigmoid (logits.getD best 0) ≤ sigmoid (logits.getD gid 0)))
      ((List.range logits.length).filter fun gid =>
        inBand 4 (some least) (sigmoid (logits.getD gid 0)) && isCold pool gid &&
          !decide (gid ∈ pool.gidRow.keys)) with
  | none =>
      have empty := List.filter_eq_nil_iff.mp (firstBest_eq_none_iff.mp winner) cold (List.mem_range.mpr inside)
      rw [band, lone, decide_eq_true rfl, decide_eq_false absent] at empty
      exact absurd rfl empty
  | some gid => rw [only gid (firstBest_mem winner)]

/-- A gap among the first `k` ids for each voting row becomes the score of an
expert. -/
theorem stashBallot_stray {tokens : List (List ℚ × List Int)} (positive : 0 < k)
    (whole : ∀ row ∈ votingRows width tokens, row.ids.length = k)
    (gap : ¬ (spread tokens).Pairwise fun before after => isDemand width after.2 → isDemand width before.2) :
    ∃ (index column : Nat) (row : DemandRow) (scores : List ℚ) (gid : Nat), (votingRows width tokens)[index]? = some row ∧ row.ids[column]? = some gid ∧
      (stashBallot sigmoid width k tokens).scores[index]? = some scores ∧ scores[column]? = some (-1) := by
  have stray : ¬ ∀ entry ∈ (spread tokens).take ((spread tokens).filter fun entry => isDemand width entry.2).length,
      isDemand width entry.2 := fun front => gap (leading_of_take front)
  obtain ⟨entry, fails⟩ := not_forall.mp stray
  obtain ⟨early, invalid⟩ := Classical.not_imp.mp fails
  rw [length_demand whole] at early
  obtain ⟨place, taken⟩ := List.getElem?_of_mem early
  rw [List.getElem?_take] at taken
  split at taken
  · next bound =>
      have index : place / k < (votingRows width tokens).length := (Nat.div_lt_iff_lt_mul positive).mpr bound
      have column := Nat.mod_lt place positive
      have row := List.getElem_mem index
      refine ⟨place / k, place % k, _, _, _, List.getElem?_eq_getElem index,
        List.getElem?_eq_getElem (by rw [whole _ row]; exact column), reshape_getElem? _ index, ?_⟩
      rw [List.getElem?_take_of_lt column, List.getElem?_drop, Nat.mul_comm, Nat.div_add_mod, List.getElem?_map, taken,
        Option.map_some, demandScore, if_pos]
      have outside : ¬ (0 ≤ entry.2 ∧ entry.2 < width) := fun inside => invalid (decide_eq_true inside)
      omega
  · contradiction

theorem castVotes_stray (positive : ∀ logit, 0 < sigmoid logit) {pool : Pool} {cold : Nat}
    (lone : ∀ gid, isCold pool gid = decide (gid = cold)) (absent : cold ∉ pool.gidRow.keys)
    (fresh : pool.need.getD cold 0 = 0) (bound : cold < pool.need.length) {ballot : Ballot} {index column gid : Nat}
    {ids : List Nat} {scores logits : List ℚ} (flat : ballot.flat[index]? = some ids) (id : ids[column]? = some gid)
    (row : ballot.scores[index]? = some scores) (score : scores[column]? = some (-1)) (other : gid ≠ cold)
    (probed : ballot.logits[index]? = some logits) (inside : cold < logits.length) :
    0 < (castVotes sigmoid (lonelyConfig k) pool ballot).1.getD cold 0 := by
  obtain ⟨least, found, below⟩ := hotMin_stray id score (by rw [lone]; exact decide_eq_false other)
  have voted : cold ∈ (List.zipWith (probeRow sigmoid 4 pool)
      (List.zipWith (hotMin pool) ballot.flat ballot.scores) ballot.logits).filterMap fun vote => vote := by
    refine List.mem_filterMap.mpr ⟨some cold, @List.mem_of_getElem? _ _ index _ ?_, rfl⟩
    rw [List.getElem?_zipWith, List.getElem?_zipWith, flat, row, probed]
    exact congrArg some ((congrArg (fun least => probeRow sigmoid 4 pool least logits) found).trans
      (probeRow_stray positive lone absent below inside))
  have count := List.count_pos_iff.mpr voted
  have counted := addVotes_decayed pool.need ((List.zipWith (probeRow sigmoid 4 pool)
    (List.zipWith (hotMin pool) ballot.flat ballot.scores) ballot.logits).filterMap fun vote => vote)
    (List.zipWith (strongRow 4 pool) ballot.flat ballot.scores).flatten 1 bound
  rw [fresh, zero_add, mul_one] at counted
  refine lt_of_lt_of_eq ?_ counted.symm
  exact add_pos_of_pos_of_nonneg (Nat.cast_pos.mpr count) (Nat.cast_nonneg _)

theorem lonelyState_ctx (width cold : Nat) :
    ∃ ctx, (lonelyState width cold).ctx? 0 = some ctx ∧ ctx.pool = lonelyPool width cold :=
  ⟨_, rfl, rfl⟩

theorem flatLogits_rows {count : Nat} {row : DemandRow}
    (member : row ∈ votingRows width (sampledTokens (flatLogits width count) topkIds)) :
    row.logits = List.replicate width 0 := by
  obtain ⟨token, sampled, rfl⟩ := List.mem_map.mp (List.mem_filter.mp member).1
  exact List.eq_of_mem_replicate (List.of_mem_zip (strided_mem sampled)).1

theorem flatLogits_getD {count : Nat} {row : DemandRow}
    (member : row ∈ votingRows width (sampledTokens (flatLogits width count) topkIds)) (gid : Nat) :
    row.logits.getD gid 0 = 0 := by
  rw [flatLogits_rows member]
  by_cases bound : gid < width <;> simp [bound]

/-- Wherever there is a gap before an expert, some layer counts a vote that no
token casts. -/
theorem not_countsRowwise_of_gap (positive : ∀ logit, 0 < sigmoid logit) (several : 1 < width) (some_ : 0 < k)
    (padded : WellPadded width k topkIds) (gap : ¬ DemandLeads width topkIds) :
    ∃ cold ctx, Stashes (lonelyState width cold) 0 topkIds.width (flatLogits width topkIds.rows.length) topkIds ctx ∧
      ¬ CountsRowwise sigmoid (lonelyConfig k) .none (stashDemand sigmoid (lonelyState width cold) (some 0) false
        (flatLogits width topkIds.rows.length) topkIds topkIds.width) 0
        (votingRows width (sampledTokens (flatLogits width topkIds.rows.length) topkIds)) := by
  have paired : (flatLogits width topkIds.rows.length).rows.length = topkIds.rows.length := List.length_replicate
  have pick := lonelyConfig_k some_
  have whole : ∀ row ∈ votingRows width (sampledTokens (flatLogits width topkIds.rows.length) topkIds),
      row.ids.length = k :=
    fun row member => @votingRows_whole k (flatLogits width topkIds.rows.length) topkIds padded row member
  rw [DemandLeads, sampledIds_eq paired, List.pairwise_map] at gap
  obtain ⟨index, column, row, scores, gid, voting, id, own, score⟩ :=
    @stashBallot_stray sigmoid width k _ some_ whole gap
  obtain ⟨cold, inside, other⟩ : ∃ cold < width, gid ≠ cold := by
    by_cases zero : gid = 0
    · exact ⟨1, several, by omega⟩
    · exact ⟨0, by omega, zero⟩
  obtain ⟨ctx, managed, pool⟩ := lonelyState_ctx width cold
  have stashes : Stashes (lonelyState width cold) 0 topkIds.width (flatLogits width topkIds.rows.length) topkIds ctx :=
    ⟨rfl, managed, by rw [pool]; rfl, paired, Nat.le_refl _, fun buffer stored => by contradiction⟩
  refine ⟨cold, ctx, stashes, fun counts => ?_⟩
  have need : ctx.tickUp.pool.need = List.replicate width 0 := by
    rw [Ctx.tickUp, pool]
    rfl
  have size : ctx.tickUp.pool.need.length = width := by rw [need, List.length_replicate]
  have equal := (countsRowwise_iff stashes (pick.symm ▸ padded)).mp counts
  have quiet := @rowwiseNeed_outOfBand sigmoid ctx.tickUp.pool (lonelyConfig k) cold
    (votingRows width (sampledTokens (flatLogits width topkIds.rows.length) topkIds)) (size.symm ▸ inside)
    fun row member => flat_outOfBand positive (flatLogits_getD member) ctx.tickUp.pool cold
  have lone (gid : Nat) : isCold ctx.tickUp.pool gid = decide (gid = cold) := by
    rw [Ctx.tickUp, pool]
    exact isCold_lonelyPool inside
  have absent : cold ∉ ctx.tickUp.pool.gidRow.keys := by
    rw [Ctx.tickUp, pool]
    exact List.not_mem_nil
  have fresh : ctx.tickUp.pool.need.getD cold 0 = 0 := by
    rw [need]
    simp [inside]
  have stray := @castVotes_stray sigmoid k positive ctx.tickUp.pool cold lone absent fresh (size.symm ▸ inside)
    (stashBallot sigmoid width k (sampledTokens (flatLogits width topkIds.rows.length) topkIds)) index column gid
    row.ids scores row.logits (by rw [stashBallot, List.getElem?_map, voting]; rfl) id own score other
    (by rw [stashBallot, List.getElem?_map, voting]; rfl)
    (by rw [flatLogits_rows (List.mem_of_getElem? voting), List.length_replicate]; exact inside)
  rw [pick] at equal
  have zero : (rowwiseNeed sigmoid (lonelyConfig k) ctx.tickUp.pool
      (votingRows width (sampledTokens (flatLogits width topkIds.rows.length) topkIds))).getD cold 0 = 0 := by
    rw [quiet, fresh, zero_mul]
  have counter := congrArg (·.getD cold 0) equal
  exact absurd (counter.trans zero) (ne_of_gt stray)

/-- For every way the ids of a step are padded: a stash of them is counted row
by row, whatever the logits, the layer and the settings, exactly when no
padding and no fused-shared column comes before an expert. -/
theorem votes_rowwise_iff (sigmoid : ℚ → ℚ) (positive : ∀ logit, 0 < sigmoid logit) (width k : Nat)
    (several : 1 < width) (topkIds : Grid Int) (padded : WellPadded width k topkIds) :
    (∀ (config : HookConfig) (faults : Faults) (state : State) (layer passed : Nat) (preMask : Grid ℚ) (ctx : Ctx),
      config.k = k → preMask.width = width → Stashes state layer passed preMask topkIds ctx →
      CountsRowwise sigmoid config faults (stashDemand sigmoid state (some layer) false preMask topkIds passed) layer
        (votingRows width (sampledTokens preMask topkIds))) ↔
      DemandLeads width topkIds := by
  constructor
  · intro counts
    refine by_contra fun gap => ?_
    obtain ⟨cold, ctx, stashes, differs⟩ := not_countsRowwise_of_gap positive several padded.pos padded gap
    exact differs (counts _ _ _ _ _ _ ctx (lonelyConfig_k padded.pos) rfl stashes)
  · intro leads config faults state layer passed preMask ctx pick wide stashes
    subst wide pick
    exact countsRowwise_of_leading positive stashes padded leads

def paddedIds (first second : Int) : Grid Int := ⟨1, [[first], [second]], by simp⟩

theorem paddedIds_padded : WellPadded 2 1 (paddedIds 0 (-1)) ∧ WellPadded 2 1 (paddedIds (-1) 0) :=
  ⟨⟨by decide, 0, by decide, by decide⟩, ⟨by decide, 0, by decide, by decide⟩⟩

theorem votes_rowwise_iff_paddedIds :
    (∀ (config : HookConfig) (faults : Faults) (state : State) (layer passed : Nat) (preMask : Grid ℚ) (ctx : Ctx),
      config.k = 1 → preMask.width = 2 → Stashes state layer passed preMask (paddedIds 0 (-1)) ctx →
      CountsRowwise (fun _ => 1 / 2) config faults
        (stashDemand (fun _ => 1 / 2) state (some layer) false preMask (paddedIds 0 (-1)) passed) layer
        (votingRows 2 (sampledTokens preMask (paddedIds 0 (-1))))) ↔
      DemandLeads 2 (paddedIds 0 (-1)) :=
  votes_rowwise_iff (fun _ => 1 / 2) (fun _ => by decide +kernel) 2 1 (by decide) (paddedIds 0 (-1)) paddedIds_padded.1

/-- A token picks the hot expert 0; expert 1 is cold and far below the band. -/
def weakLogits : Grid ℚ := ⟨2, [[0, 0], [4, -9]], by simp⟩

def halfConfig : HookConfig := { lonelyConfig 1 with strongAlpha := 1 / 2 }

def stepSigmoid (logit : ℚ) : ℚ := if 0 ≤ logit then 3 / 4 else 1 / 8

theorem stepSigmoid_pos (logit : ℚ) : 0 < stepSigmoid logit := by
  rw [stepSigmoid]
  split <;> decide +kernel

/-- With a padding row in front, the cold expert gets a vote: the hot expert is
taken to have the score of the padding. -/
theorem votes_not_rowwise : ¬ ∀ (sigmoid : ℚ → ℚ) (width k : Nat) (topkIds : Grid Int) (config : HookConfig)
    (faults : Faults) (state : State) (layer passed : Nat) (preMask : Grid ℚ) (ctx : Ctx),
    (∀ logit, 0 < sigmoid logit) → 1 < width → WellPadded width k topkIds → config.k = k → preMask.width = width →
    Stashes state layer passed preMask topkIds ctx →
    CountsRowwise sigmoid config faults (stashDemand sigmoid state (some layer) false preMask topkIds passed) layer
      (votingRows width (sampledTokens preMask topkIds)) := by
  intro claim
  obtain ⟨ctx, managed, pool⟩ := lonelyState_ctx 2 1
  have stashes : Stashes (lonelyState 2 1) 0 1 weakLogits (paddedIds (-1) 0) ctx :=
    ⟨rfl, managed, by rw [pool]; rfl, rfl, Nat.le_refl _, fun buffer stored => by contradiction⟩
  have counts := claim stepSigmoid 2 1 (paddedIds (-1) 0) halfConfig .none (lonelyState 2 1) 0 1 weakLogits ctx
    stepSigmoid_pos (by decide) paddedIds_padded.2 rfl rfl stashes
  have padded : WellPadded weakLogits.width halfConfig.k (paddedIds (-1) 0) := paddedIds_padded.2
  have equal := (countsRowwise_iff stashes padded).mp counts
  have ticked : ctx.tickUp.pool = { lonelyPool 2 1 with tick := 1 } := by
    rw [Ctx.tickUp, pool]
    rfl
  rw [ticked] at equal
  exact absurd equal (by decide +kernel)

end FlashNext.ColdPool
