import FlashNext.Data.Ranking
import FlashNext.Qsa.ExpandAgrees
import FlashNext.Qsa.Logits

namespace FlashNext.Qsa

open FlashNext.Data

/-! `qsa_fast_topk` takes the blocks with the largest logits in each row's window.
Expanded, with the unfinished block behind them, they are what the sparse
attention reads.  The two top-k operators are parameters. -/

/-- `torch` is an error of torch's own. -/
inductive TopkError where
  | unsupported (topk : Nat)
  | torch
deriving DecidableEq, Repr

def TopkError.message : TopkError → Option String
  | .unsupported topk => some s!"Unsupported topk {topk}. Supported: (512, 2048)"
  | .torch => none

/-- `torch.topk(values, k).indices`, and a row of `top_k_ragged_transform` for
offsets of zero. -/
structure TopkOps (α : Type*) where
  topk : List α → Nat → List Nat
  ragged : List α → Int → Nat → Int → List Int

/-- A bound of a Python slice. -/
def sliceBound (size : Nat) (bound : Int) : Nat :=
  if bound < 0 then (bound + size).toNat else min bound.toNat size

def pySlice {α : Type*} (values : List α) (start stop : Int) : List α :=
  (values.take (sliceBound values.length stop)).drop (sliceBound values.length start)

section Code

variable {α : Type*} (ops : TopkOps α)

/-- A tensor of the width. -/
def toMatrix (width : Nat) (rows : List (List Int)) : Except TopkError IndexMatrix :=
  if shape : ∀ row ∈ rows, row.length = width then .ok ⟨width, rows, shape⟩ else .error .torch

def supportedK : List Nat := [512, 2048]

def fastTopk (logits : List (List α)) (lengths : List Int) (topk : Nat) (rowStarts : List Int) :
    Except TopkError (List (List Int)) :=
  if topk ∈ supportedK then
    .ok ((logits.zip (lengths.zip rowStarts)).map fun (row, length, start) => ops.ragged row length topk start)
  else .error (.unsupported topk)

/-- One row of the loop on a CPU. -/
def referenceTopk (topk : Nat) (row : List α) (start length : Int) : Except TopkError (List Int) :=
  let width := min length topk
  if width = 0 then .ok (List.replicate topk (-1))
  else
    let window := pySlice row start (start + length)
    if width < 0 ∨ window.length < width then .error .torch
    else .ok ((ops.topk window width.toNat).map Int.ofNat ++ List.replicate (topk - width.toNat) (-1))

def qsaFastTopk (isCuda : Bool) (logits : List (List α)) (rowStarts rowEnds : List Int) (topk : Nat) :
    Except TopkError IndexMatrix := do
  let lengths := List.zipWith (fun rowEnd rowStart => int32 (rowEnd - rowStart)) rowEnds rowStarts
  let starts := rowStarts.map int32
  if isCuda then
    let rows ← fastTopk ops logits lengths topk starts
    toMatrix topk rows
  else
    let rows ← (logits.zip (lengths.zip starts)).mapM fun (row, length, start) => referenceTopk ops topk row start length
    toMatrix topk rows

/-- `qsa_mqa_prefill`, as a matrix. -/
def qsaMqaPrefill (call : Prefill) (scoring : Scoring α) (isCuda hasTilelang : Bool) (order : List (Nat × Nat)) : List (List α) :=
  (List.range call.rows).map fun row => (List.range call.keys).map fun column =>
    if isCuda && hasTilelang then call.tilelangPrefill scoring order row column else call.torchPrefill scoring row column

end Code

variable {α : Type*} [LinearOrder α] [OrderBot α] {ops : TopkOps α} {row : List α} {start length topk : Nat} {picked : List Int}

/-- The largest of a window, relative to its start, and padding behind them. -/
def Picks (row : List α) (start length topk : Nat) (picked : List Int) : Prop :=
  ∃ chosen : List Nat, picked = chosen.map Int.ofNat ++ List.replicate (topk - chosen.length) (-1) ∧
    Largest (fun index => row.getD (start + index) ⊥) (min length topk) (List.range length) chosen

/-- What the operators promise for a window inside a row. -/
structure TopkOps.Lawful (ops : TopkOps α) : Prop where
  topk : ∀ (values : List α) count, count ≤ values.length →
    Largest (fun index => values.getD index ⊥) count (List.range values.length) (ops.topk values count)
  ragged : ∀ (row : List α) (start length count : Nat), start + length ≤ row.length →
    Picks row start length count (ops.ragged row length count start)

omit [LinearOrder α] [OrderBot α] in
theorem pySlice_inside (inside : start + length ≤ row.length) :
    pySlice row start (start + length : Nat) = (row.drop start).take length := by
  have first : sliceBound row.length start = start := by
    rw [sliceBound, if_neg (by omega)]
    omega
  have last : sliceBound row.length (start + length : Nat) = start + length := by
    rw [sliceBound, if_neg (by omega)]
    omega
  rw [pySlice, first, last, List.drop_take, Nat.add_sub_cancel_left]

theorem Picks.length_eq (picks : Picks row start length topk picked) : picked.length = topk := by
  obtain ⟨chosen, rfl, largest⟩ := picks
  have size := largest.size
  rw [List.length_append, List.length_map, List.length_replicate]
  omega

theorem referenceTopk_picks (law : ops.Lawful) (inside : start + length ≤ row.length) :
    ∃ picked, referenceTopk ops topk row start length = .ok picked ∧ Picks row start length topk picked := by
  have width : min (length : Int) topk = (min length topk : Nat) := by omega
  have window : pySlice row start ((start : Int) + length) = (row.drop start).take length := by
    rw [← Int.natCast_add]
    exact pySlice_inside inside
  have size : ((row.drop start).take length).length = length := by
    rw [List.length_take, List.length_drop]
    omega
  unfold referenceTopk
  simp only [width, window, size, Int.toNat_natCast]
  by_cases none : min length topk = 0
  · rw [if_pos (by omega)]
    refine ⟨_, rfl, [], by simp, List.nodup_nil, by simp, by simp [none], by simp⟩
  · rw [if_neg (by omega), if_neg (by omega)]
    have largest := law.topk ((row.drop start).take length) (min length topk) (by omega)
    rw [size] at largest
    refine ⟨_, rfl, _, by rw [largest.size], largest.distinct, largest.listed, largest.size, ?_⟩
    intro value member other present absent
    have entry (index : Nat) (below : index < length) :
        ((row.drop start).take length).getD index ⊥ = row.getD (start + index) ⊥ := by
      rw [List.getD_eq_getElem?_getD, List.getD_eq_getElem?_getD, List.getElem?_take_of_lt below, List.getElem?_drop]
    have better := largest.largest value member other present absent
    rwa [entry _ (List.mem_range.mp present), entry _ (List.mem_range.mp (largest.listed value member))] at better

omit [LinearOrder α] [OrderBot α] in
theorem mapM_ok {β : Type*} {γ ε : Type} {compute : β → Except ε γ} {values : List β} {property : β → γ → Prop}
    (every : ∀ value ∈ values, ∃ result, compute value = .ok result ∧ property value result) :
    ∃ results, values.mapM compute = .ok results ∧ List.Forall₂ property values results := by
  induction values with
  | nil => exact ⟨[], rfl, .nil⟩
  | cons head rest ih =>
      obtain ⟨first, computed, holds⟩ := every head List.mem_cons_self
      obtain ⟨later, mapped, all⟩ := ih fun value member => every value (List.mem_cons_of_mem _ member)
      refine ⟨first :: later, ?_, .cons holds all⟩
      rw [List.mapM_cons, computed, mapped]
      rfl

/-- A row of the logits with its window, the query's position and the length of its
sequence. -/
structure Query (α : Type*) where
  logits : List α
  rowStart : Int
  rowEnd : Int
  position : Int
  length : Int

namespace Query

variable {call : Expansion} {query : Query α} {queries : List (Query α)}

/-- The complete blocks before and at the query's position. -/
def blocks (query : Query α) (call : Expansion) : Nat := ((query.position + 1) / call.compressRatio).toNat

/-- The window is that of the complete blocks. -/
structure Windowed (query : Query α) (call : Expansion) : Prop where
  start : 0 ≤ query.rowStart
  window : query.rowEnd = query.rowStart + query.blocks call
  inside : query.rowEnd ≤ query.logits.length
  row : query.logits.length < 2 ^ 31
  known : -1 ≤ query.position
  visible : query.position < query.length
  small : query.position < 2 ^ 31

end Query

section Pick

variable {call : Expansion} {queries : List (Query α)}

theorem qsaFastTopk_picks (law : ops.Lawful) (isCuda : Bool) (supported : isCuda → topk ∈ supportedK)
    (windowed : ∀ query ∈ queries, query.Windowed call) :
    ∃ indices : IndexMatrix, qsaFastTopk ops isCuda (queries.map Query.logits) (queries.map Query.rowStart)
        (queries.map Query.rowEnd) topk = .ok indices ∧ indices.width = topk ∧
      List.Forall₂ (fun query picked => Picks query.logits query.rowStart.toNat (query.blocks call) topk picked) queries indices.rows := by
  have bounds (query : Query α) (member : query ∈ queries) : int32 (query.rowEnd - query.rowStart) = query.blocks call ∧
      int32 query.rowStart = query.rowStart.toNat ∧ query.rowStart.toNat + query.blocks call ≤ query.logits.length := by
    obtain ⟨start, window, inside, row, -, -, -⟩ := windowed query member
    refine ⟨?_, ?_, ?_⟩
    · rw [int32_eq (by omega) (by omega)]
      omega
    · rw [int32_eq (by omega) (by omega)]
      omega
    · omega
  have matrix {rows : List (List Int)}
      (picks : List.Forall₂ (fun query picked => Picks query.logits query.rowStart.toNat (query.blocks call) topk picked)
        queries rows) : ∃ shape, toMatrix topk rows = .ok ⟨topk, rows, shape⟩ := by
    have shape : ∀ row ∈ rows, row.length = topk := by
      intro row member
      obtain ⟨place, inside, rfl⟩ := List.getElem_of_mem member
      exact (picks.get (picks.length_eq ▸ inside) inside).length_eq
    exact ⟨shape, dif_pos shape⟩
  have triples : (queries.map Query.logits).zip ((List.zipWith (fun rowEnd rowStart => int32 (rowEnd - rowStart))
      (queries.map Query.rowEnd) (queries.map Query.rowStart)).zip ((queries.map Query.rowStart).map int32)) =
      queries.map fun query => (query.logits, (query.blocks call : Int), (query.rowStart.toNat : Int)) := by
    rw [List.map_map, List.zipWith_map, List.zipWith_self, List.zip_map', List.zip_map']
    refine List.map_congr_left fun query member => ?_
    obtain ⟨count, start, -⟩ := bounds query member
    rw [count, Function.comp_apply, start]
  cases isCuda with
  | true =>
      have picks : List.Forall₂ (fun query picked => Picks query.logits query.rowStart.toNat (query.blocks call) topk picked) queries
          (queries.map fun query => ops.ragged query.logits (query.blocks call) topk query.rowStart.toNat) := by
        rw [List.forall₂_map_right_iff, List.forall₂_same]
        exact fun query member => law.ragged _ _ _ _ (bounds query member).2.2
      obtain ⟨shape, made⟩ := matrix picks
      refine ⟨⟨topk, _, shape⟩, ?_, rfl, picks⟩
      rw [qsaFastTopk, if_pos rfl, fastTopk, if_pos (supported rfl), triples, List.map_map]
      exact made
  | false =>
      have every (query : Query α) (member : query ∈ queries) :
          ∃ picked, referenceTopk ops topk query.logits query.rowStart.toNat (query.blocks call) = .ok picked ∧
            Picks query.logits query.rowStart.toNat (query.blocks call) topk picked :=
        referenceTopk_picks law (bounds query member).2.2
      obtain ⟨rows, mapped, picks⟩ := mapM_ok every
      obtain ⟨shape, made⟩ := matrix picks
      refine ⟨⟨topk, _, shape⟩, ?_, rfl, picks⟩
      rw [qsaFastTopk, if_neg Bool.false_ne_true, triples, List.mapM_map]
      change (queries.mapM (fun query : Query α => referenceTopk ops topk query.logits query.rowStart.toNat (query.blocks call)) >>=
        toMatrix topk) = _
      rw [mapped]
      exact made

end Pick

namespace Expansion

variable {call : Expansion} {chosen : List Nat} {position length : Int} {blocks : Nat} {token : Int}

/-- Of a query's row: its tokens stand first, each once, none behind the query, and
they are as many as there is room for.  The unfinished block is there, and no
complete block that is missing has a larger logit than one that is there. -/
structure Reads (call : Expansion) (logit : Nat → α) (blocks : Nat) (position : Int) (row : List Int) : Prop where
  packed : ∃ tokens padding, row = tokens ++ List.replicate padding (-1) ∧ tokens.Nodup ∧
    (∀ token ∈ tokens, 0 ≤ token ∧ token ≤ position) ∧
    (tokens.length : Int) = min (blocks * call.compressRatio) call.tokenTopk + (position + 1 - blocks * call.compressRatio)
  width : row.length = call.finalTopk
  unfinished : ∀ token : Int, blocks * call.compressRatio ≤ token → token ≤ position → token ∈ row
  best : ∀ block < blocks, ∀ other < blocks, (∃ token ∈ row, token / call.compressRatio = block) →
    (∀ token ∈ row, token / call.compressRatio ≠ other) → logit other ≤ logit block

theorem filter_ofNat (chosen : List Nat) : (chosen.map Int.ofNat).filter (0 ≤ ·) = chosen.map Int.ofNat := by simp

theorem filter_picked (chosen : List Nat) (padding : Nat) :
    (chosen.map Int.ofNat ++ List.replicate padding (-1)).filter (0 ≤ ·) = chosen.map Int.ofNat := by
  rw [List.filter_append, List.filter_eq_self.mpr, List.filter_eq_nil_iff.mpr, List.append_nil]
  · intro block member
    rw [List.eq_of_mem_replicate member]
    decide
  · intro block member
    obtain ⟨index, -, rfl⟩ := List.mem_map.mp member
    simp

theorem paddedLast_picked (chosen : List Nat) (padding : Nat) : PaddedLast (chosen.map Int.ofNat ++ List.replicate padding (-1)) := by
  refine List.pairwise_append.mpr ⟨?_, ?_, ?_⟩
  · exact List.pairwise_map.mpr (List.pairwise_of_forall fun _ _ _ => Int.natCast_nonneg _)
  · exact List.pairwise_replicate.mpr (.inr (by simp))
  · intro before _ after member
    rw [List.eq_of_mem_replicate member]
    intro impossible
    exact absurd impossible (by decide)

theorem expandBlock_natCast (block : Nat) :
    call.expandBlock (block : Int) = (List.range call.compressRatio).map fun (offset : Nat) =>
      (block * call.compressRatio + offset : Int) := by
  rw [expandBlock]
  exact List.map_congr_left fun offset _ => if_pos (Int.natCast_nonneg block)

/-- A token of a block that was expanded. -/
theorem mem_expandBlock {block : Nat} : token ∈ call.expandBlock (block : Int) ↔ 0 ≤ token ∧ token / call.compressRatio = block := by
  have positive : (0 : Int) < call.compressRatio := Int.natCast_pos.mpr call.positive
  rw [expandBlock_natCast, List.mem_map]
  constructor
  · rintro ⟨offset, inside, rfl⟩
    have below := List.mem_range.mp inside
    have scaled : (0 : Int) ≤ block * call.compressRatio := Int.mul_nonneg (Int.natCast_nonneg _) (Int.natCast_nonneg _)
    refine ⟨by omega, ?_⟩
    rw [Int.add_comm, Int.add_mul_ediv_right _ _ positive.ne', Int.ediv_eq_zero_of_lt (by omega) (by omega), Int.zero_add]
  · rintro ⟨nonneg, rfl'⟩
    have split := Int.mul_ediv_add_emod token call.compressRatio
    have low := Int.emod_nonneg token positive.ne'
    have high := Int.emod_lt_of_pos token positive
    refine ⟨(token % call.compressRatio).toNat, List.mem_range.mpr (by omega), ?_⟩
    rw [← rfl', Int.mul_comm]
    omega

theorem expanded_nodup (distinct : chosen.Nodup) : ((chosen.map Int.ofNat).flatMap call.expandBlock).Nodup := by
  rw [List.flatMap_map, List.nodup_flatMap]
  refine ⟨fun block _ => ?_, distinct.imp fun {first second} apart => ?_⟩
  · change (call.expandBlock (block : Int)).Nodup
    rw [expandBlock_natCast]
    exact List.nodup_range.map fun _ _ same => by simpa using same
  · change List.Disjoint _ _
    rw [List.disjoint_left]
    intro token inFirst inSecond
    have one := (mem_expandBlock.mp inFirst).2
    have other := (mem_expandBlock.mp inSecond).2
    exact apart (by omega)

section Row

omit [OrderBot α]

variable {logit : Nat → α} (largest : Largest logit (min blocks call.blockTopk) (List.range blocks) chosen)
  (visible : blocks = ((position + 1) / call.compressRatio).toNat) (known : -1 ≤ position)

include visible known in
theorem blocks_eq : (blocks : Int) * call.compressRatio = (position + 1) / call.compressRatio * call.compressRatio ∧
    (blocks : Int) * call.compressRatio ≤ position + 1 := by
  have positive : (0 : Int) < call.compressRatio := Int.natCast_pos.mpr call.positive
  have nonneg : 0 ≤ (position + 1) / (call.compressRatio : Int) := Int.ediv_nonneg (by omega) (by omega)
  have same : (blocks : Int) = (position + 1) / call.compressRatio := by omega
  rw [same]
  exact ⟨rfl, Int.ediv_mul_le _ positive.ne'⟩

include largest in
/-- No block that is picked is cut off altogether. -/
theorem cut_inside {index : Nat} (inside : index < chosen.length) : index * call.compressRatio < call.tokenTopk := by
  have size := largest.size
  have count : index + 1 ≤ call.blockTopk := by omega
  have positive := call.positive
  rw [blockTopk, Nat.le_div_iff_mul_le positive] at count
  rw [Nat.add_mul] at count
  omega

theorem mem_blockTokens_expanded (member : token ∈ call.blockTokens (chosen.map Int.ofNat)) :
    ∃ block ∈ chosen, 0 ≤ token ∧ token / call.compressRatio = block := by
  obtain ⟨block, listed, inside⟩ := List.mem_flatMap.mp (List.mem_of_mem_take member)
  obtain ⟨index, picked, rfl⟩ := List.mem_map.mp (List.mem_filter.mp listed).1
  exact ⟨index, picked, mem_expandBlock.mp inside⟩

include largest in
theorem exists_blockToken {block : Nat} (picked : block ∈ chosen) :
    ∃ token ∈ call.blockTokens (chosen.map Int.ofNat), token / call.compressRatio = block := by
  obtain ⟨index, inside, rfl⟩ := List.getElem_of_mem picked
  have positive := call.positive
  have cut : index * call.compressRatio < (call.blockTokens (chosen.map Int.ofNat)).length := by
    have room := cut_inside largest inside
    have below := Nat.mul_lt_mul_of_pos_right inside positive
    rw [length_blockTokens, filter_ofNat, List.length_map]
    omega
  obtain ⟨block, found, token⟩ := blockTokens_getElem? cut
  rw [filter_ofNat, Nat.mul_div_cancel _ positive, List.getElem?_map, List.getElem?_eq_getElem inside] at found
  cases found
  refine ⟨_, List.mem_of_getElem? token, ?_⟩
  have first : (0 : Int) < call.compressRatio := Int.natCast_pos.mpr positive
  rw [Nat.mul_mod_left, Int.natCast_zero, Int.add_zero, Int.mul_ediv_cancel _ first.ne']
  rfl

theorem mem_tailTokens (tail : (blocks : Int) * call.compressRatio = (position + 1) / call.compressRatio * call.compressRatio) :
    token ∈ call.tailTokens position ↔ blocks * call.compressRatio ≤ token ∧ token ≤ position := by
  have count := @tailCount_eq call position
  rw [tailTokens, List.mem_map, ← tail]
  constructor
  · rintro ⟨offset, inside, rfl⟩
    have small := List.mem_range.mp inside
    omega
  · rintro ⟨low, high⟩
    exact ⟨(token - blocks * call.compressRatio).toNat, List.mem_range.mpr (by omega), by omega⟩

include largest visible known in
/-- The tokens that a row of picked blocks stands for. -/
theorem tokens_reads (padding : Nat) : ∃ tokens,
    call.tokens (chosen.map Int.ofNat ++ List.replicate padding (-1)) position = tokens ∧ tokens.Nodup ∧
    (∀ token ∈ tokens, 0 ≤ token ∧ token ≤ position) ∧
    (tokens.length : Int) = min (blocks * call.compressRatio) call.tokenTopk + (position + 1 - blocks * call.compressRatio) ∧
    (∀ token : Int, blocks * call.compressRatio ≤ token → token ≤ position → token ∈ tokens) ∧
    ∀ block < blocks, ((∃ token ∈ tokens, token / call.compressRatio = block) ↔ block ∈ chosen) := by
  obtain ⟨tail, below⟩ := blocks_eq visible known
  have positive : (0 : Int) < call.compressRatio := Int.natCast_pos.mpr call.positive
  have same : call.blockTokens (chosen.map Int.ofNat ++ List.replicate padding (-1)) = call.blockTokens (chosen.map Int.ofNat) := by
    rw [blockTokens, filter_picked, blockTokens, filter_ofNat]
  have early (token : Int) (member : token ∈ call.blockTokens (chosen.map Int.ofNat)) :
      0 ≤ token ∧ token < blocks * call.compressRatio := by
    obtain ⟨block, listed, nonneg, divided⟩ := mem_blockTokens_expanded member
    have inside := List.mem_range.mp (largest.listed block listed)
    refine ⟨nonneg, Int.lt_mul_of_ediv_lt positive ?_⟩
    omega
  refine ⟨_, rfl, ?_, ?_, ?_, ?_, ?_⟩
  · rw [tokens, same, List.nodup_append]
    refine ⟨?_, ?_, ?_⟩
    · rw [blockTokens, filter_ofNat]
      exact (expanded_nodup largest.distinct).sublist (List.take_sublist _ _)
    · exact List.nodup_range.map fun _ _ equal => by simpa using equal
    · intro token inBlock other inTail equal
      have before := early token inBlock
      have behind := (mem_tailTokens tail).mp inTail
      omega
  · intro token member
    rw [tokens, same] at member
    rcases List.mem_append.mp member with inBlock | inTail
    · have before := early token inBlock
      omega
    · have behind := (mem_tailTokens tail).mp inTail
      have scaled : (0 : Int) ≤ blocks * call.compressRatio := Int.mul_nonneg (Int.natCast_nonneg _) (Int.natCast_nonneg _)
      omega
  · have room := call.tokenTopk_le
    have cut : (call.blockTokens (chosen.map Int.ofNat)).length = min (blocks * call.compressRatio) call.tokenTopk := by
      rw [length_blockTokens, filter_ofNat, List.length_map, largest.size, ← Nat.mul_min_mul_right]
      omega
    have count := @tailCount_eq call position
    rw [tokens, same, List.length_append, cut, tailTokens, List.length_map, List.length_range]
    push_cast
    omega
  · intro token low high
    exact List.mem_append_right _ ((mem_tailTokens tail).mpr ⟨low, high⟩)
  · intro block inside
    rw [tokens, same]
    constructor
    · rintro ⟨token, member, divided⟩
      rcases List.mem_append.mp member with inBlock | inTail
      · obtain ⟨other, listed, -, equal⟩ := mem_blockTokens_expanded inBlock
        have one : block = other := by omega
        exact one ▸ listed
      · have behind := ((mem_tailTokens tail).mp inTail).1
        have reached := Int.le_ediv_of_mul_le positive behind
        omega
    · intro listed
      obtain ⟨token, member, divided⟩ := exists_blockToken largest listed
      exact ⟨token, List.mem_append_left _ member, divided⟩

include largest visible known in
/-- A row of picked blocks, expanded. -/
theorem torchRow_reads {padding : Nat} (size : chosen.length + padding = call.blockTopk) (shown : position < length)
    (small : position < 2 ^ 31) :
    call.Reads logit blocks position (call.torchRow (chosen.map Int.ofNat ++ List.replicate padding (-1)) position length) ∧
      call.EndsLast (chosen.map Int.ofNat ++ List.replicate padding (-1)) position length := by
  obtain ⟨tokens, same, distinct, inside, count, unfinished, blocked⟩ := tokens_reads largest visible known padding
  have width : (chosen.map Int.ofNat ++ List.replicate padding (-1)).length = call.blockTopk := by
    rw [List.length_append, List.length_map, List.length_replicate, size]
  obtain ⟨behind, total, row⟩ := @torchRow_eq call _ position length width (paddedLast_picked chosen padding) known
  have whole : tokens.filter (· < length) = tokens := by
    rw [List.filter_eq_self]
    intro token member
    have bound := (inside token member).2
    exact decide_eq_true (by omega)
  have words : tokens.map int32 = tokens := by
    refine (List.map_congr_left fun token member => ?_).trans (List.map_id _)
    have bound := inside token member
    exact int32_eq (by omega) (by omega)
  rw [same, whole] at total
  rw [same, whole, words] at row
  refine ⟨⟨⟨tokens, behind, row, distinct, inside, count⟩, ?_, ?_, ?_⟩, ?_⟩
  · rw [row, List.length_append, List.length_replicate, total]
  · intro token low high
    rw [row]
    exact List.mem_append_left _ (unfinished token low high)
  · intro block early other late there missing
    rw [row] at there missing
    have picked : block ∈ chosen := by
      obtain ⟨token, member, divided⟩ := there
      rcases List.mem_append.mp member with own | pad
      · exact (blocked block early).mp ⟨token, own, divided⟩
      · have positive : (0 : Int) < call.compressRatio := Int.natCast_pos.mpr call.positive
        rw [List.eq_of_mem_replicate pad, Int.neg_one_ediv, Int.sign_eq_one_of_pos positive] at divided
        omega
    have left : other ∉ chosen := by
      intro listed
      obtain ⟨token, member, divided⟩ := (blocked other late).mpr listed
      exact missing token (List.mem_append_left _ member) divided
    exact largest.largest block picked other (List.mem_range.mpr late) left
  · rw [EndsLast, same]
    refine List.pairwise_of_forall_mem_list fun before member after _ _ _ => ?_
    have bound := (inside before member).2
    omega

end Row

section Matrix

variable {queries : List (Query α)}

/-- Each query's row, on either device. -/
theorem select_reads (law : ops.Lawful) (isCuda : Bool) (supported : isCuda → call.blockTopk ∈ supportedK)
    (windowed : ∀ query ∈ queries, query.Windowed call) {programs : List Nat}
    (launched : programs.Perm (List.range queries.length)) (empty : Nat × Nat → Int) :
    ∃ indices matrix, qsaFastTopk ops isCuda (queries.map Query.logits) (queries.map Query.rowStart)
        (queries.map Query.rowEnd) call.blockTopk = .ok indices ∧
      call.expandQsaBlockIndices isCuda indices (queries.map Query.position) (queries.map Query.length) programs empty = .ok matrix ∧
      matrix.length = queries.length ∧ ∀ (row : Nat) (query : Query α), queries[row]? = some query → ∃ tokens, matrix[row]? = some tokens ∧
        call.Reads (fun block => query.logits.getD (query.rowStart.toNat + block) ⊥) (query.blocks call) query.position tokens := by
  obtain ⟨indices, picked, shape, picks⟩ := qsaFastTopk_picks law isCuda supported windowed
  have count : indices.rows.length = queries.length := picks.length_eq.symm
  have positions : (queries.map Query.position).length = indices.rows.length := by rw [List.length_map, count]
  have lengths : (queries.map Query.length).length = indices.rows.length := by rw [List.length_map, count]
  -- what one row of the indices is expanded to
  have row (index : Nat) (query : Query α) (found : queries[index]? = some query) :
      ∃ blocks, indices.rows[index]? = some blocks ∧ blocks.length = call.blockTopk ∧ PaddedLast blocks ∧ -1 ≤ query.position ∧
        call.EndsLast blocks query.position query.length ∧
        call.Reads (fun block => query.logits.getD (query.rowStart.toNat + block) ⊥) (query.blocks call) query.position
          (call.torchRow blocks query.position query.length) := by
    obtain ⟨inside, rfl⟩ := List.getElem?_eq_some_iff.mp found
    have within : index < indices.rows.length := count ▸ inside
    obtain ⟨chosen, same, largest⟩ := picks.get inside within
    obtain ⟨-, -, -, -, known, visible, small⟩ := windowed _ (List.getElem_mem inside)
    have size := largest.size
    have read := torchRow_reads largest rfl known (by omega : chosen.length + (call.blockTopk - chosen.length) = call.blockTopk)
      visible small
    have width := indices.shape _ (List.getElem_mem within)
    change indices.rows[index] = _ at same
    rw [← same] at read
    exact ⟨_, List.getElem?_eq_getElem within, width.trans shape, same ▸ paddedLast_picked _ _, known, read.2, read.1⟩
  have reference : call.expandQsaBlockIndices isCuda indices (queries.map Query.position) (queries.map Query.length) programs
      empty = .ok ((List.range indices.rows.length).map fun row => call.torchRow (indices.rows.getD row [])
        ((queries.map Query.position).getD row 0) ((queries.map Query.length).getD row 0)) := by
    rw [expandQsaBlockIndices, checkShapes_ok shape positions lengths]
    cases isCuda with
    | false => exact torchExpand_ok shape positions lengths
    | true =>
        refine congrArg Except.ok ((tritonExpand_eq (count ▸ launched) empty).trans (List.map_congr_left fun index inside => ?_))
        have within : index < queries.length := count ▸ List.mem_range.mp inside
        obtain ⟨blocks, found, width, padded, known, ends, -⟩ := row index _ (List.getElem?_eq_getElem within)
        rw [List.getD_eq_getElem?_getD, found, List.getD_eq_getElem?_getD, List.getElem?_map, List.getElem?_eq_getElem within,
          List.getD_eq_getElem?_getD, List.getElem?_map, List.getElem?_eq_getElem within]
        exact (row_agrees_iff width padded known).mpr ends
  refine ⟨indices, _, picked, reference, by rw [List.length_map, List.length_range, count], fun index query found => ?_⟩
  obtain ⟨blocks, listed, -, -, -, -, reads⟩ := row index query found
  refine ⟨_, rows_getElem? listed ?_ ?_ call.torchRow, reads⟩
  · rw [List.getElem?_map, found, Option.map_some]
  · rw [List.getElem?_map, found, Option.map_some]

end Matrix

omit [OrderBot α]

theorem Reads.congr {logit other : Nat → α} {row : List Int} (reads : call.Reads logit blocks position row)
    (same : ∀ block < blocks, logit block = other block) : call.Reads other blocks position row where
  packed := reads.packed
  width := reads.width
  unfinished := reads.unfinished
  best := fun block early missing late there left => by
    rw [← same block early, ← same missing late]
    exact reads.best block early missing late there left

/-- As long as the complete blocks fit, nothing that the query may read is missing. -/
theorem Reads.all {logit : Nat → α} {row : List Int} (reads : call.Reads logit blocks position row) (known : -1 ≤ position)
    (short : blocks * call.compressRatio ≤ call.tokenTopk)
    (nonneg : 0 ≤ token) (early : token ≤ position) : token ∈ row := by
  obtain ⟨tokens, padding, rfl, distinct, inside, count⟩ := reads.packed
  refine List.mem_append_left _ ?_
  -- as many distinct tokens as there are
  have within : tokens ⊆ (List.range (position + 1).toNat).map Int.ofNat := by
    intro other member
    have bound := inside other member
    exact List.mem_map.mpr ⟨other.toNat, List.mem_range.mpr (by omega), by simp; omega⟩
  have sub := List.subperm_of_subset distinct within
  have size : ((List.range (position + 1).toNat).map Int.ofNat).length ≤ tokens.length := by
    rw [List.length_map, List.length_range]
    have fits : (blocks : Int) * call.compressRatio = (blocks * call.compressRatio : Nat) := by push_cast; rfl
    omega
  refine (sub.perm_of_length_le size).symm.subset (List.mem_map.mpr ⟨token.toNat, List.mem_range.mpr (by omega), ?_⟩)
  simp
  omega

end Expansion

section Prefill

variable {call : Expansion} {prefill : Prefill} {scoring : Scoring α} {positions lengths : List Int}

/-- A row's window holds the complete blocks that its query may read. -/
structure Serves (call : Expansion) (prefill : Prefill) (position length : Int) (row : Nat) : Prop where
  window : prefill.rowEnds.getD row 0 = prefill.rowStarts.getD row 0 + (position + 1) / call.compressRatio
  inside : prefill.rowEnds.getD row 0 ≤ prefill.keys
  known : -1 ≤ position
  visible : position < length
  small : position < 2 ^ 31

theorem map_getD_range {β : Type*} {values : List β} {count : Nat} (size : values.length = count) (default : β) :
    (List.range count).map (values.getD · default) = values := by
  refine List.ext_getElem (by simp [size]) fun index _ inside => ?_
  rw [List.getElem_map, List.getElem_range, List.getD_eq_getElem?_getD, List.getElem?_eq_getElem inside, Option.getD_some]

omit [LinearOrder α] [OrderBot α] in
theorem qsaMqaPrefill_window (fits : prefill.Fits) {order : List (Nat × Nat)} (launched : order.Perm prefill.grid)
    (isCuda hasTilelang : Bool) {row column : Nat} (row_lt : row < prefill.rows) (column_lt : column < prefill.keys)
    (lower : prefill.rowStarts.getD row 0 ≤ column) (upper : (column : Int) < prefill.rowEnds.getD row 0) :
    ∃ logits, (qsaMqaPrefill prefill scoring isCuda hasTilelang order)[row]? = some logits ∧
      logits[column]? = some (scoring.scaled (scoring.score row column)) := by
  refine ⟨_, by rw [qsaMqaPrefill, List.getElem?_map, List.getElem?_range row_lt]; rfl, ?_⟩
  rw [List.getElem?_map, List.getElem?_range column_lt, Option.map_some]
  refine congrArg some ?_
  split
  · have starts := Prefill.starts_eq fits row_lt
    have ends := Prefill.ends_eq fits row_lt
    rw [Prefill.tilelangPrefill_unmasked row_lt column_lt (by omega) (by omega),
      Prefill.prefillKernel_window fits launched row_lt column_lt lower upper]
  · exact if_pos ⟨lower, upper⟩

/-- The rows of a prefill call. -/
def rowQuery (prefill : Prefill) (logits : List (List α)) (positions lengths : List Int) (row : Nat) : Query α :=
  ⟨logits.getD row [], prefill.rowStarts.getD row 0, prefill.rowEnds.getD row 0, positions.getD row 0, lengths.getD row 0⟩

theorem rowStart_nonneg (fits : prefill.Fits) {row : Nat} (inside : row < prefill.rows) : 0 ≤ prefill.rowStarts.getD row 0 := by
  have first := fits.startsNonneg _ (List.getElem_mem (prefill.startsShape.symm ▸ inside))
  simpa [List.getD_eq_getElem?_getD, prefill.startsShape, inside] using first

omit [LinearOrder α] [OrderBot α] in
theorem rowQuery_windowed (fits : prefill.Fits) {logits : List (List α)} {row : Nat} (inside : row < prefill.rows)
    (width : (logits.getD row []).length = prefill.keys)
    (serves : Serves call prefill (positions.getD row 0) (lengths.getD row 0) row) :
    (rowQuery prefill logits positions lengths row).Windowed call := by
  obtain ⟨window, within, known, visible, small⟩ := serves
  have keys := fits.keysBound
  have nonneg : 0 ≤ (positions.getD row 0 + 1) / (call.compressRatio : Int) := Int.ediv_nonneg (by omega) (by omega)
  refine ⟨rowStart_nonneg fits inside, ?_, ?_, ?_, known, visible, small⟩
  · change prefill.rowEnds.getD row 0 = prefill.rowStarts.getD row 0 + (((positions.getD row 0 + 1) / call.compressRatio).toNat : Int)
    rw [window, Int.toNat_of_nonneg nonneg]
  · change prefill.rowEnds.getD row 0 ≤ (logits.getD row []).length
    rwa [width]
  · change (logits.getD row []).length < _
    omega

/-- Whatever the device and the operators: a query reads the unfinished block and,
of the complete ones, those with the largest scores, or all where they fit. -/
theorem prefill_reads (law : ops.Lawful) (fits : prefill.Fits) {order : List (Nat × Nat)} (ordered : order.Perm prefill.grid)
    (isCuda hasTilelang : Bool) (supported : isCuda → call.blockTopk ∈ supportedK) (positionCount : positions.length = prefill.rows)
    (lengthCount : lengths.length = prefill.rows)
    (serves : ∀ row < prefill.rows, Serves call prefill (positions.getD row 0) (lengths.getD row 0) row)
    {programs : List Nat} (launched : programs.Perm (List.range prefill.rows)) (empty : Nat × Nat → Int) :
    ∃ indices matrix, qsaFastTopk ops isCuda (qsaMqaPrefill prefill scoring isCuda hasTilelang order) prefill.rowStarts
        prefill.rowEnds call.blockTopk = .ok indices ∧
      call.expandQsaBlockIndices isCuda indices positions lengths programs empty = .ok matrix ∧ matrix.length = prefill.rows ∧
      ∀ row < prefill.rows, ∃ tokens, matrix[row]? = some tokens ∧
        call.Reads (fun block => scoring.scaled (scoring.score row ((prefill.rowStarts.getD row 0).toNat + block)))
          ((positions.getD row 0 + 1) / call.compressRatio).toNat (positions.getD row 0) tokens ∧
        (((positions.getD row 0 + 1) / call.compressRatio).toNat * call.compressRatio ≤ call.tokenTopk →
          ∀ token, 0 ≤ token → token ≤ positions.getD row 0 → token ∈ tokens) := by
  set logits := qsaMqaPrefill prefill scoring isCuda hasTilelang order with computed
  have rows : logits.length = prefill.rows := by simp [computed, qsaMqaPrefill]
  have width (row : Nat) (inside : row < prefill.rows) : (logits.getD row []).length = prefill.keys := by
    simp [computed, qsaMqaPrefill, List.getD_eq_getElem?_getD, List.getElem?_range inside]
  have windowed : ∀ query ∈ (List.range prefill.rows).map (rowQuery prefill logits positions lengths), query.Windowed call := by
    intro query member
    obtain ⟨row, inside, rfl⟩ := List.mem_map.mp member
    have below := List.mem_range.mp inside
    exact rowQuery_windowed fits below (width row below) (serves row below)
  have spread : programs.Perm (List.range ((List.range prefill.rows).map (rowQuery prefill logits positions lengths)).length) := by
    rwa [List.length_map, List.length_range]
  obtain ⟨indices, matrix, picked, expanded, count, reads⟩ := Expansion.select_reads law isCuda supported windowed spread empty
  simp only [List.map_map] at picked expanded
  change qsaFastTopk ops isCuda ((List.range prefill.rows).map (logits.getD · []))
    ((List.range prefill.rows).map (prefill.rowStarts.getD · 0)) ((List.range prefill.rows).map (prefill.rowEnds.getD · 0))
    call.blockTopk = _ at picked
  change call.expandQsaBlockIndices isCuda indices ((List.range prefill.rows).map (positions.getD · 0))
    ((List.range prefill.rows).map (lengths.getD · 0)) programs empty = _ at expanded
  rw [map_getD_range rows, map_getD_range prefill.startsShape, map_getD_range prefill.endsShape] at picked
  rw [map_getD_range positionCount, map_getD_range lengthCount] at expanded
  refine ⟨indices, matrix, picked, expanded, by simpa using count, fun row inside => ?_⟩
  obtain ⟨tokens, found, read⟩ := reads row (rowQuery prefill logits positions lengths row)
    (by rw [List.getElem?_map, List.getElem?_range inside, Option.map_some])
  obtain ⟨window, within, known, -, -⟩ := serves row inside
  have nonneg : 0 ≤ (positions.getD row 0 + 1) / (call.compressRatio : Int) := Int.ediv_nonneg (by omega) (by omega)
  refine ⟨tokens, found, read.congr fun block early => ?_, fun short token low high => read.all known short low high⟩
  change block < ((positions.getD row 0 + 1) / call.compressRatio).toNat at early
  have start := rowStart_nonneg fits inside
  obtain ⟨own, at_, logit⟩ := @qsaMqaPrefill_window _ prefill scoring fits _ ordered isCuda hasTilelang row
    ((prefill.rowStarts.getD row 0).toNat + block) inside (by omega) (by omega) (by omega)
  have mine : (rowQuery prefill logits positions lengths row).logits = own := by
    rw [rowQuery, List.getD_eq_getElem?_getD, computed, at_, Option.getD_some]
  rw [mine, List.getD_eq_getElem?_getD]
  exact congrArg (Option.getD · ⊥) logit

def sortingOps (α : Type*) [LinearOrder α] [OrderBot α] : TopkOps α where
  topk := fun values count => (rankDown (values.getD · ⊥) (List.range values.length)).take count
  ragged := fun row length count start =>
    let chosen := (rankDown (fun index => row.getD (start.toNat + index) ⊥) (List.range length.toNat)).take count
    chosen.map Int.ofNat ++ List.replicate (count - chosen.length) (-1)

omit [OrderBot α] in
theorem largest_rankDown (key : Nat → α) {size count : Nat} (enough : count ≤ size) :
    Largest key count (List.range size) ((rankDown key (List.range size)).take count) :=
  Largest.take (rankDown_pairwise key _) (rankDown_nodup List.nodup_range) (fun _ => mem_rankDown)
    (by rwa [rankDown, List.length_insertionSort, List.length_range])

theorem sortingOps_lawful : (sortingOps α).Lawful where
  topk := fun values count enough => largest_rankDown _ enough
  ragged := fun row start length count inside => by
    refine ⟨_, rfl, ?_⟩
    have sorted : (rankDown (fun index => row.getD (start + index) ⊥) (List.range length)).take count =
        (rankDown (fun index => row.getD (start + index) ⊥) (List.range length)).take (min length count) := by
      have whole : (rankDown (fun index => row.getD (start + index) ⊥) (List.range length)).length = length := by
        rw [rankDown, List.length_insertionSort, List.length_range]
      rw [Nat.min_comm, ← List.take_take, List.take_of_length_le whole.le]
    change Largest _ _ _ ((rankDown (fun index => row.getD (start + index) ⊥) (List.range length)).take count)
    rw [sorted]
    exact largest_rankDown _ (Nat.min_le_left _ _)

def twoWindows : Prefill := ⟨2, 6, 64, 1, [0, 3], [3, 6], rfl, rfl⟩

def oddScoring : Scoring Nat := ⟨fun row column => 7 * column % 5 + row, id, 0, 0⟩

/-- Three blocks of two tokens, of which two fit, and one token behind them. -/
theorem prefill_reads_twoWindows : ∃ indices matrix, qsaFastTopk (sortingOps Nat) false
      (qsaMqaPrefill twoWindows oddScoring false true twoWindows.grid.reverse) [0, 3] [3, 6] 2 = .ok indices ∧
    Expansion.expandQsaBlockIndices ⟨2, 4, by decide⟩ false indices [6, 5] [7, 9] [1, 0] (fun _ => 0) = .ok matrix ∧
    ∃ tokens, matrix[0]? = some tokens ∧ tokens.length = 5 ∧ 6 ∈ tokens := by
  have fits : twoWindows.Fits :=
    { keysPos := by decide, keysBound := by decide, splitPos := by decide, products := by decide, startsNonneg := by decide,
      endsNonneg := by decide, startsBound := by decide, endsBound := by decide }
  have serves : ∀ row < twoWindows.rows, Serves ⟨2, 4, by decide⟩ twoWindows ([6, 5].getD row 0) ([7, 9].getD row 0) row := by
    intro row inside
    obtain rfl | rfl : row = 0 ∨ row = 1 := by change row < 2 at inside; omega
    · exact ⟨by decide, by decide, by decide, by decide, by decide⟩
    · exact ⟨by decide, by decide, by decide, by decide, by decide⟩
  obtain ⟨indices, matrix, picked, expanded, -, reads⟩ := @prefill_reads Nat _ _ (sortingOps Nat) ⟨2, 4, by decide⟩ twoWindows
    oddScoring [6, 5] [7, 9] sortingOps_lawful fits _ twoWindows.grid.reverse_perm false true nofun rfl rfl serves
    [1, 0] (by decide) fun _ => 0
  obtain ⟨tokens, found, read, -⟩ := reads 0 (by decide)
  exact ⟨indices, matrix, picked, expanded, tokens, found, read.width, read.unfinished 6 (by decide) (by decide)⟩

end Prefill

end FlashNext.Qsa
