import Mathlib.Data.List.Basic
import Mathlib.Order.MinMax
import Mathlib.Tactic.Common

namespace FlashNext.NGram

/-- An entry of a `torch.long` tensor. -/
abbrev Token := BitVec 64

structure Embedding where
  ngramSize : Nat
  headsPerNgram : Nat
  eosTokenId : Token
  enablePleFusion : Bool
  layerMultipliers : List Token
  ngramHeadsVocabSizes : List Token
  ngramHeadsOffsets : List Token

/-- `torch.cummax` after a value. -/
def cummaxFrom : Int → List Int → List Int
  | _, [] => []
  | top, value :: rest => max top value :: cummaxFrom (max top value) rest

/-- `torch.cummax(...).values`. -/
def cummax (values : List Int) : List Int := cummaxFrom (values.headD 0) values

/-- `torch.remainder`, with the sign of the divisor. -/
def remainder (value divisor : Token) : Token := BitVec.ofInt 64 (value.toInt.fmod divisor.toInt)

/-- The position of the latest EOS strictly before each column, or -1. -/
def prevEos (eos : Token) (row : List Token) : List Int :=
  -1 :: (cummax (row.mapIdx fun (index : Nat) token => if token = eos then (index : Int) else -1)).dropLast

/-- One row of `_shift_right_ignore_eos`. -/
def shiftRow (eos : Token) (n : Nat) (row : List Token) : List Token :=
  row.mapIdx fun (index : Nat) _ =>
    let segmentStart := (prevEos eos row).getD index (-1) + 1
    let posInSegment := (index : Int) - segmentStart
    let srcIdx := (index : Int) - n
    if n ≤ posInSegment ∧ 0 ≤ srcIdx then row.getD (max srcIdx 0).toNat eos else eos

namespace Embedding

variable (embedding : Embedding)

def shiftRightIgnoreEos (tensor : List (List Token)) (n : Nat) : List (List Token) :=
  if n = 0 then tensor else tensor.map (shiftRow embedding.eosTokenId n)

def shiftedTokens (contexts : List (List Token)) : List (List (List Token)) :=
  contexts :: (List.range' 1 (embedding.ngramSize - 1)).map (embedding.shiftRightIgnoreEos contexts)

/-- The head sizes and offsets of one n-gram order. -/
def heads (ngram : Nat) : List (Token × Token) :=
  let startIdx := (ngram - 2) * embedding.headsPerNgram
  ((embedding.ngramHeadsVocabSizes.drop startIdx).take embedding.headsPerNgram).zip
    ((embedding.ngramHeadsOffsets.drop startIdx).take embedding.headsPerNgram)

/-- The products of one row of the tokens shifted by `pos`. -/
def product (shifted : List (List (List Token))) (row pos : Nat) : List Token :=
  ((shifted.getD pos []).getD row []).map (· * embedding.layerMultipliers.getD pos 0)

def mix (shifted : List (List (List Token))) (row ngram : Nat) : List Token :=
  (List.range' 1 (ngram - 1)).foldl
    (fun mixed pos => List.zipWith (· ^^^ ·) mixed (embedding.product shifted row pos))
    (embedding.product shifted row 0)

def rowIds (shifted : List (List (List Token))) (row : Nat) : List Token :=
  (List.range' 2 (embedding.ngramSize - 1)).flatMap fun ngram =>
    (embedding.heads ngram).map fun head =>
      remainder ((embedding.mix shifted row ngram).getLastD 0) head.1 + head.2

def eagerIds (shifted : List (List (List Token))) (contexts : List (List Token)) : List (List Token) :=
  (List.range contexts.length).map (embedding.rowIds shifted)

/-- A window with every token up to its latest earlier EOS replaced by EOS. -/
def masked (window : List Token) : List Token :=
  window.mapIdx fun index token =>
    if embedding.eosTokenId ∈ (window.drop index).dropLast then embedding.eosTokenId else token

/-- The masked tokens from the last one backwards, mixed. -/
def windowMix (window : List Token) (ngram : Nat) : Token :=
  (List.range ngram).foldl
    (fun mixed pos => mixed ^^^
      ((embedding.masked window).getD (embedding.ngramSize - 1 - pos) 0 * embedding.layerMultipliers.getD pos 0)) 0

def windowIds (window : List Token) : List Token :=
  (List.range' 2 (embedding.ngramSize - 1)).flatMap fun ngram =>
    (embedding.heads ngram).map fun head => remainder (embedding.windowMix window ngram) head.1 + head.2

end Embedding

theorem le_cummaxFrom {least top default : Int} {values : List Int} {index : Nat} (bound : index < values.length) :
    least ≤ (cummaxFrom top values).getD index default ↔
      least ≤ top ∨ ∃ earlier ≤ index, least ≤ values.getD earlier default := by
  induction values generalizing top index with
  | nil => cases bound
  | cons value rest ih =>
      cases index with
      | zero => simp [cummaxFrom]
      | succ index =>
          have inside : index < rest.length := by simpa using bound
          change least ≤ (cummaxFrom (max top value) rest).getD index default ↔ _
          rw [ih inside, le_max_iff, or_assoc]
          apply or_congr_right
          constructor
          · intro cases_
            rcases cases_ with here | ⟨earlier, before, above⟩
            · exact ⟨0, by omega, here⟩
            · exact ⟨earlier + 1, by omega, above⟩
          · intro ⟨earlier, before, above⟩
            cases earlier with
            | zero => exact Or.inl above
            | succ earlier => exact Or.inr ⟨earlier, by omega, above⟩

theorem le_cummax {least default : Int} {values : List Int} {index : Nat} (bound : index < values.length) :
    least ≤ (cummax values).getD index default ↔ ∃ earlier ≤ index, least ≤ values.getD earlier default := by
  rw [cummax, le_cummaxFrom bound]
  constructor
  · intro cases_
    rcases cases_ with first | found
    · refine ⟨0, Nat.zero_le _, ?_⟩
      cases values with
      | nil => cases bound
      | cons value rest => exact first
    · exact found
  · exact Or.inr

theorem length_cummaxFrom (top : Int) (values : List Int) : (cummaxFrom top values).length = values.length := by
  induction values generalizing top with
  | nil => rfl
  | cons value rest ih => simp [cummaxFrom, ih]

theorem length_cummax (values : List Int) : (cummax values).length = values.length :=
  length_cummaxFrom _ values

theorem le_prevEos {eos : Token} {row : List Token} {position index : Nat} (bound : index < row.length) :
    (position : Int) ≤ (prevEos eos row).getD index (-1) ↔
      ∃ earlier < index, position ≤ earlier ∧ row[earlier]? = some eos := by
  cases index with
  | zero =>
      simp [prevEos]
      omega
  | succ index =>
      set eosPos := row.mapIdx fun (index : Nat) token => if token = eos then (index : Int) else -1 with positions
      have length : eosPos.length = row.length := by simp [positions]
      have shorten : (prevEos eos row).getD (index + 1) (-1) = (cummax eosPos).getD index (-1) := by
        have inside : index < (cummax eosPos).length - 1 := by
          rw [length_cummax, length]
          omega
        rw [prevEos, List.getD_cons_succ, List.getD_eq_getElem?_getD, List.getD_eq_getElem?_getD,
          List.getElem?_dropLast, if_pos inside]
      rw [shorten, le_cummax (by omega)]
      constructor
      · intro ⟨earlier, before, above⟩
        have small : earlier < row.length := by omega
        simp only [positions, List.getD_eq_getElem?_getD, List.getElem?_mapIdx,
          List.getElem?_eq_getElem small, Option.map_some, Option.getD_some] at above
        split at above
        · next hit => exact ⟨earlier, by omega, by omega, by rw [List.getElem?_eq_getElem small, hit]⟩
        · omega
      · intro ⟨earlier, before, after, hit⟩
        refine ⟨earlier, by omega, ?_⟩
        simp only [positions, List.getD_eq_getElem?_getD, List.getElem?_mapIdx, hit, Option.map_some,
          Option.getD_some, if_true]
        omega

section Windows

variable {embedding : Embedding} {window : List Token}

theorem mem_dropLast_drop {token : Token} {position : Nat} :
    token ∈ (window.drop position).dropLast ↔
      ∃ earlier, earlier + 1 < window.length ∧ position ≤ earlier ∧ window[earlier]? = some token := by
  rw [List.mem_iff_getElem?]
  constructor
  · intro ⟨index, hit⟩
    rw [List.getElem?_dropLast] at hit
    split at hit
    · next inside =>
        rw [List.getElem?_drop] at hit
        rw [List.length_drop] at inside
        exact ⟨position + index, by omega, by omega, hit⟩
    · cases hit
  · intro ⟨earlier, before, after, hit⟩
    refine ⟨earlier - position, ?_⟩
    rw [List.getElem?_dropLast, List.length_drop, if_pos (by omega), List.getElem?_drop,
      Nat.add_sub_cancel' after]
    exact hit

theorem shift_valid_iff {eos : Token} {pos : Nat} (small : pos < window.length) :
    (pos : Int) ≤ (window.length - 1 : Nat) - ((prevEos eos window).getD (window.length - 1) (-1) + 1) ↔
      eos ∉ (window.drop (window.length - 1 - pos)).dropLast := by
  have reach := @le_prevEos eos window (window.length - 1 - pos) (window.length - 1) (by omega)
  rw [mem_dropLast_drop]
  constructor
  · intro valid ⟨earlier, before, after, hit⟩
    have blocked := reach.mpr ⟨earlier, by omega, after, hit⟩
    omega
  · intro kept
    by_contra invalid
    obtain ⟨earlier, before, after, hit⟩ := reach.mp (by omega)
    exact kept ⟨earlier, by omega, after, hit⟩

/-- The last column of the window shifted by `pos` is the masked token there. -/
theorem shift_last {pos : Nat} (small : pos < window.length) :
    (if pos = 0 then window else shiftRow embedding.eosTokenId pos window)[window.length - 1]? =
      (embedding.masked window)[window.length - 1 - pos]? := by
  have last : window.length - 1 < window.length := by omega
  have inside : window.length - 1 - pos < window.length := by omega
  rw [Embedding.masked, List.getElem?_mapIdx, List.getElem?_eq_getElem inside, Option.map_some]
  split
  · next none_ =>
      cases none_
      rw [if_neg, List.getElem?_eq_getElem last]
      · rfl
      · rw [mem_dropLast_drop]
        intro ⟨earlier, before, after, _⟩
        omega
  · have source : (max (((window.length - 1 : Nat) : Int) - pos) 0).toNat = window.length - 1 - pos := by omega
    have reaches : (0 : Int) ≤ (window.length - 1 : Nat) - pos := by omega
    rw [shiftRow, List.getElem?_mapIdx, List.getElem?_eq_getElem last, Option.map_some]
    simp only [shift_valid_iff small, reaches, and_true, source, ite_not]
    rw [List.getD_eq_getElem?_getD, List.getElem?_eq_getElem inside, Option.getD_some]

end Windows

section Mix

variable {rows : Nat → List Token} {values : Nat → Token}

theorem foldl_xor_getElem? {column : Nat} {positions : List Nat} {first : List Token} {value : Token}
    (start : first[column]? = some value) (columns : ∀ pos ∈ positions, (rows pos)[column]? = some (values pos)) :
    (positions.foldl (fun mixed pos => List.zipWith (· ^^^ ·) mixed (rows pos)) first)[column]? =
      some (positions.foldl (fun mixed pos => mixed ^^^ values pos) value) := by
  induction positions generalizing first value with
  | nil => exact start
  | cons pos rest ih =>
      have here := columns pos (by simp)
      refine ih ?_ fun later member => columns later (by simp [member])
      rw [List.getElem?_zipWith, start, here]

theorem length_foldl_xor {size : Nat} {positions : List Nat} {first : List Token} (start : first.length = size)
    (lengths : ∀ pos ∈ positions, (rows pos).length = size) :
    (positions.foldl (fun mixed pos => List.zipWith (· ^^^ ·) mixed (rows pos)) first).length = size := by
  induction positions generalizing first with
  | nil => exact start
  | cons pos rest ih =>
      have here := lengths pos (by simp)
      refine ih ?_ fun later member => lengths later (by simp [member])
      rw [List.length_zipWith, start, here, Nat.min_self]

end Mix

namespace Embedding

variable {embedding : Embedding} {contexts : List (List Token)} {row : Nat} {window : List Token}

theorem shiftedTokens_getD (contexts : List (List Token)) {pos : Nat} (small : pos < embedding.ngramSize) :
    (embedding.shiftedTokens contexts).getD pos [] = embedding.shiftRightIgnoreEos contexts pos := by
  cases pos with
  | zero => rfl
  | succ pos =>
      have inside : pos < embedding.ngramSize - 1 := by omega
      rw [shiftedTokens, List.getD_cons_succ, List.getD_eq_getElem?_getD, List.getElem?_map,
        List.getElem?_range' inside, Option.map_some, Option.getD_some]
      congr 1
      omega

theorem product_eq (found : contexts[row]? = some window) {pos : Nat} (small : pos < embedding.ngramSize) :
    embedding.product (embedding.shiftedTokens contexts) row pos =
      (if pos = 0 then window else shiftRow embedding.eosTokenId pos window).map
        (· * embedding.layerMultipliers.getD pos 0) := by
  have pick : (embedding.shiftRightIgnoreEos contexts pos).getD row [] =
      if pos = 0 then window else shiftRow embedding.eosTokenId pos window := by
    rw [shiftRightIgnoreEos, List.getD_eq_getElem?_getD]
    split
    · rw [found, Option.getD_some]
    · rw [List.getElem?_map, found, Option.map_some, Option.getD_some]
  rw [product, shiftedTokens_getD contexts small, pick]

theorem length_product (found : contexts[row]? = some window) {pos : Nat} (small : pos < embedding.ngramSize) :
    (embedding.product (embedding.shiftedTokens contexts) row pos).length = window.length := by
  rw [product_eq found small, List.length_map]
  split
  · rfl
  · rw [shiftRow, List.length_mapIdx]

theorem product_last (found : contexts[row]? = some window) (width : window.length = embedding.ngramSize)
    {pos : Nat} (small : pos < embedding.ngramSize) :
    (embedding.product (embedding.shiftedTokens contexts) row pos)[window.length - 1]? =
      some ((embedding.masked window).getD (embedding.ngramSize - 1 - pos) 0 *
        embedding.layerMultipliers.getD pos 0) := by
  have inside : embedding.ngramSize - 1 - pos < (embedding.masked window).length := by
    rw [masked, List.length_mapIdx]
    omega
  have entry : (embedding.masked window).getD (embedding.ngramSize - 1 - pos) 0 =
      (embedding.masked window)[embedding.ngramSize - 1 - pos] := by
    rw [List.getD_eq_getElem?_getD, List.getElem?_eq_getElem inside, Option.getD_some]
  rw [product_eq found small, List.getElem?_map, shift_last (by omega), width, entry,
    List.getElem?_eq_getElem inside, Option.map_some]

theorem mix_last (found : contexts[row]? = some window) (width : window.length = embedding.ngramSize)
    {ngram : Nat} (positive : 0 < ngram) (small : ngram ≤ embedding.ngramSize) :
    (embedding.mix (embedding.shiftedTokens contexts) row ngram).getLastD 0 = embedding.windowMix window ngram := by
  have length : (embedding.mix (embedding.shiftedTokens contexts) row ngram).length = window.length := by
    apply length_foldl_xor (length_product found (by omega))
    intro pos member
    rw [List.mem_range'_1] at member
    exact length_product found (by omega)
  have nonempty : 0 < embedding.ngramSize := by omega
  have columns : ∀ pos ∈ List.range' 1 (ngram - 1), _ := fun pos member => by
    rw [List.mem_range'_1] at member
    exact @product_last _ _ _ _ found width pos (by omega)
  have last := foldl_xor_getElem? (product_last found width nonempty) columns
  have order : List.range ngram = 0 :: List.range' 1 (ngram - 1) := by
    cases ngram with
    | zero => omega
    | succ ngram => rw [List.range_eq_range', List.range'_succ, Nat.add_sub_cancel]
  rw [List.getLastD_eq_getLast?, List.getLast?_eq_getElem?, length, mix, last, windowMix, order, List.foldl_cons,
    Option.getD_some]
  congr 1
  exact BitVec.zero_xor.symm

theorem eagerIds_eq (widths : ∀ window ∈ contexts, window.length = embedding.ngramSize) :
    embedding.eagerIds (embedding.shiftedTokens contexts) contexts = contexts.map embedding.windowIds := by
  apply List.ext_getElem
  · simp [eagerIds]
  · intro row left right
    have inside : row < contexts.length := by simpa using right
    have found : contexts[row]? = some contexts[row] := List.getElem?_eq_getElem inside
    have width := widths contexts[row] (List.getElem_mem inside)
    simp only [eagerIds, List.getElem_map, List.getElem_range]
    rw [rowIds, windowIds]
    apply List.flatMap_congr
    intro ngram member
    rw [List.mem_range'_1] at member
    rw [mix_last found width (by omega) (by omega)]

end Embedding

end FlashNext.NGram
