import FlashNext.NGram.Batch
import Mathlib.Algebra.Order.BigOperators.Group.List
import Mathlib.Algebra.Order.Ring.Nat

namespace FlashNext.NGram

open FlashNext.Data

variable {lengths : List Nat} {layout : Layout} {forwardBatch : ForwardBatch}

/-- A layout places the tokens of rows of the given strides, and no other
token in front of a row's end. -/
structure Layout.Finds (layout : Layout) (strides : List Nat) : Prop where
  counts : layout.reqIndices.length = layout.tokenOffsets.length
  place : ∀ row offset, offset < strides.getD row 0 →
    layout.reqIndices[rowStart strides row + offset]? = some row ∧
      layout.tokenOffsets[rowStart strides row + offset]? = some offset
  only : ∀ position row offset : Nat, layout.reqIndices[position]? = some row →
    layout.tokenOffsets[position]? = some offset → offset < strides.getD row 0 → position = rowStart strides row + offset

theorem Layout.Finds.stored {α : Type} {memory : Nat × Nat → α} (finds : layout.Finds lengths) {values : List α}
    {row offset : Nat} {value : α} (inside : offset < lengths.getD row 0)
    (given : values[rowStart lengths row + offset]? = some value) :
    storeAll memory ((layout.reqIndices.zip layout.tokenOffsets).zip values) (row, offset) = value := by
  obtain ⟨req, column⟩ := finds.place row offset inside
  apply storeAll_zip (List.getElem?_zip_eq_some.mpr ⟨req, column⟩) given
  intro other found
  obtain ⟨reqOther, columnOther⟩ := List.getElem?_zip_eq_some.mp found
  exact finds.only other row offset reqOther columnOther inside

/-- Every position has a row that starts at it or before, and the positions of a
row's own tokens have that row. -/
structure Layout.Places (layout : Layout) (strides : List Nat) (count : Nat) (rowOf : Nat → Nat) : Prop where
  req : layout.reqIndices = (List.range count).map rowOf
  column : layout.tokenOffsets = (List.range count).map fun position => position - rowStart strides (rowOf position)
  started : ∀ position < count, rowStart strides (rowOf position) ≤ position
  own : ∀ row offset, offset < strides.getD row 0 →
    rowStart strides row + offset < count ∧ rowOf (rowStart strides row + offset) = row

variable {count : Nat} {rowOf : Nat → Nat}

theorem Layout.Places.at (places : layout.Places lengths count rowOf) {position : Nat} (bound : position < count) :
    layout.reqIndices[position]? = some (rowOf position) ∧
      layout.tokenOffsets[position]? = some (position - rowStart lengths (rowOf position)) := by
  rw [places.req, places.column, List.getElem?_map, List.getElem?_map, List.getElem?_range bound]
  exact ⟨rfl, rfl⟩

theorem Layout.Places.reqCount (places : layout.Places lengths count rowOf) : layout.reqIndices.length = count := by
  rw [places.req, List.length_map, List.length_range]

theorem Layout.Places.position (places : layout.Places lengths count rowOf) {position row offset : Nat}
    (req : layout.reqIndices[position]? = some row) (column : layout.tokenOffsets[position]? = some offset) :
    position < count ∧ rowOf position = row ∧ position - rowStart lengths row = offset := by
  have bound : position < count := by
    rw [← places.reqCount]
    exact (List.getElem?_eq_some_iff.mp req).1
  obtain ⟨found, place⟩ := places.at bound
  have same := Option.some.inj (found.symm.trans req)
  rw [same] at place
  exact ⟨bound, same, Option.some.inj (place.symm.trans column)⟩

theorem Layout.Places.finds (places : layout.Places lengths count rowOf) : layout.Finds lengths where
  counts := by rw [places.req, places.column, List.length_map, List.length_map]
  place := by
    intro row offset inside
    obtain ⟨bound, own⟩ := places.own row offset inside
    obtain ⟨req, column⟩ := places.at bound
    rw [own] at req column
    rw [Nat.add_sub_cancel_left] at column
    exact ⟨req, column⟩
  only := by
    intro position row offset req column _
    obtain ⟨bound, same, rest⟩ := places.position req column
    have started := places.started position bound
    rw [same] at started
    omega

theorem Layout.Places.inBounds (places : layout.Places lengths count rowOf)
    (inside : ∀ position < count, rowOf position < layout.lengths.length ∧
      position - rowStart lengths (rowOf position) < layout.rowWidth) : layout.InBounds := by
  intro place member
  obtain ⟨position, listed⟩ := List.mem_iff_getElem?.mp member
  obtain ⟨req, column⟩ := List.getElem?_zip_eq_some.mp listed
  obtain ⟨bound, same, rest⟩ := places.position req column
  obtain ⟨row, offset⟩ := inside position bound
  rw [same] at row offset
  rw [rest] at offset
  exact ⟨row, offset⟩

theorem padded_leading {data : List (List Token)} {spare : List Token}
    (finds : layout.Finds (data.map List.length)) (count : layout.lengths.length = data.length)
    (eos : Token) {index valid : Nat} {tokens : List Token} (found : data[index]? = some tokens)
    (carried : valid ≤ tokens.length) (within : valid ≤ layout.lengths.getD index 0) (wide : valid ≤ layout.rowWidth) :
    ∃ filling, (padded layout false (data.flatten ++ spare) (List.zipWith (fun row offset =>
      decide (offset < layout.lengths.getD row 0)) layout.reqIndices layout.tokenOffsets) eos)[index]? =
        some (tokens.take valid ++ filling) ∧ valid + filling.length = layout.rowWidth := by
  have bound : index < layout.lengths.length := by
    rw [count]
    exact (List.getElem?_eq_some_iff.mp found).1
  have stride : (data.map List.length).getD index 0 = tokens.length := by
    rw [List.getD_eq_getElem?_getD, List.getElem?_map, found]
    rfl
  rw [padded, if_neg Bool.false_ne_true, scatter, List.getElem?_map, List.getElem?_range bound, Option.map_some]
  generalize content : (List.range layout.rowWidth).map (fun column => storeAll (fun _ => eos)
    ((layout.reqIndices.zip layout.tokenOffsets).zip (List.zipWith (fun valid token => if valid then token else eos)
      (List.zipWith (fun row offset => decide (offset < layout.lengths.getD row 0)) layout.reqIndices
        layout.tokenOffsets) (data.flatten ++ spare))) (index, column)) = row
  have size : row.length = layout.rowWidth := by
    rw [← content, List.length_map, List.length_range]
  have taken : row.take valid = tokens.take valid := by
    apply List.ext_getElem?
    intro column
    by_cases inside : column < valid
    · have owned : column < tokens.length := by omega
      obtain ⟨req, offset⟩ := finds.place index column (by rw [stride]; exact owned)
      have position := flatten_rowStart found owned
      rw [List.getElem?_eq_getElem owned] at position
      have placed := (List.getElem?_eq_some_iff.mp position).1
      rw [List.getElem?_take_of_lt inside, List.getElem?_take_of_lt inside, ← content, List.getElem?_map,
        List.getElem?_range (by omega), Option.map_some, List.getElem?_eq_getElem owned]
      congr 1
      apply finds.stored (by rw [stride]; exact owned)
      rw [List.getElem?_zipWith, List.getElem?_zipWith, req, offset, List.getElem?_append_left placed, position]
      have lower : column < layout.lengths.getD index 0 := by omega
      simp only [lower, decide_true, if_true]
    · rw [List.getElem?_take_eq_none (by omega), List.getElem?_take_eq_none (by omega)]
  refine ⟨row.drop valid, ?_, ?_⟩
  · rw [← taken, List.take_append_drop]
  · rw [List.length_drop, size]
    omega

theorem le_max_getD {value : Nat} {values : List Nat} (member : value ∈ values) : value ≤ values.max?.getD 0 := by
  cases top : values.max? with
  | none =>
      rw [List.max?_eq_none_iff] at top
      rw [top] at member
      contradiction
  | some most => exact (List.max?_eq_some_iff.mp top).2 value member

theorem mem_le_sum {value : Nat} {values : List Nat} (member : value ∈ values) : value ≤ values.sum :=
  List.single_le_sum (fun _ _ => Nat.zero_le _) value member

theorem rowStarts_getElem? {row : Nat} (bound : row ≤ lengths.length) :
    (rowStarts lengths)[row]? = some (rowStart lengths row) := by
  rw [rowStarts, List.getElem?_map, List.getElem?_range (by omega), Option.map_some]

theorem rowStarts_getD {row : Nat} (bound : row ≤ lengths.length) :
    (rowStarts lengths).getD row 0 = rowStart lengths row := by
  rw [List.getD_eq_getElem?_getD, rowStarts_getElem? bound, Option.getD_some]

theorem rowStart_le_of_search {row position : Nat} (before : row < searchsortedRight (rowStarts lengths) position)
    (bound : row ≤ lengths.length) : rowStart lengths row ≤ position := by
  have inside : row < (rowStarts lengths).length := by
    rw [rowStarts, List.length_map, List.length_range]
    omega
  have started := List.not_of_lt_findIdx before
  have entry := rowStarts_getElem? bound
  rw [List.getElem?_eq_getElem inside, Option.some_inj] at entry
  rw [entry] at started
  simpa using started

theorem search_pos (lengths : List Nat) (position : Nat) : 0 < searchsortedRight (rowStarts lengths) position := by
  have first : rowStarts lengths = 0 :: (rowStarts lengths).tail := by
    rw [rowStarts, List.range_succ_eq_map]
    rfl
  rw [searchsortedRight, first, List.findIdx_cons]
  simp

def extendRow (lengths : List Nat) (position : Nat) : Nat :=
  min (searchsortedRight (rowStarts lengths) position - 1) (lengths.length - 1)

theorem extendRow_start (lengths : List Nat) (position : Nat) :
    rowStart lengths (extendRow lengths position) ≤ position := by
  have some_ := search_pos lengths position
  have before : extendRow lengths position ≤ searchsortedRight (rowStarts lengths) position - 1 := min_le_left _ _
  have inRows : extendRow lengths position ≤ lengths.length := (min_le_right _ _).trans (Nat.sub_le _ _)
  exact rowStart_le_of_search (by omega) inRows

theorem extendRow_eq {row offset : Nat} (inside : offset < lengths.getD row 0) :
    extendRow lengths (rowStart lengths row + offset) = row := by
  have bound := row_lt_of_offset inside
  rw [extendRow, searchsortedRight_rowStarts inside, Nat.add_sub_cancel]
  omega

theorem extendRow_places {processed : Nat} (fits : lengths.sum ≤ processed) (width : Nat) :
    Layout.Places {
        lengths := lengths
        rowWidth := width
        reqIndices := (List.range processed).map (extendRow lengths)
        tokenOffsets := List.zipWith (fun position row => position - (rowStarts lengths).getD row 0)
          (List.range processed) ((List.range processed).map (extendRow lengths)) } lengths processed (extendRow lengths) where
  req := rfl
  column := by
    rw [List.zipWith_map_right, List.zipWith_self]
    apply List.map_congr_left
    intro position _
    exact congrArg (position - ·) (rowStarts_getD ((min_le_right _ _).trans (Nat.sub_le _ _)))
  started := fun position _ => extendRow_start lengths position
  own := by
    intro row offset inside
    have before := row_end_le inside
    exact ⟨by omega, extendRow_eq inside⟩

/-- Rows of the given lengths are as wide as the longest, and as the whole pass
where there are no lengths on the host. -/
theorem extendLayout_places (given : forwardBatch.extendSeqLens = some lengths)
    (mirrored : ∀ cpu, forwardBatch.extendSeqLensCpu = some cpu → cpu = lengths) {processed : Nat}
    (nonempty : ¬ (lengths = [] ∧ processed ≠ 0)) (fits : lengths.sum ≤ processed) (mode : ForwardMode) :
    ∃ layout, extendLayout forwardBatch mode processed = .ok layout ∧ layout.lengths = lengths ∧
      layout.Places lengths processed (extendRow lengths) ∧ (∀ length ∈ lengths, length ≤ layout.rowWidth) ∧
      (forwardBatch.extendSeqLensCpu = none → layout.rowWidth = processed) := by
  rw [extendLayout, given]
  simp only [if_neg nonempty]
  refine ⟨_, rfl, rfl, extendRow_places fits _, ?_⟩
  dsimp only
  cases cpu : forwardBatch.extendSeqLensCpu with
  | none => exact ⟨fun length member => (mem_le_sum member).trans fits, fun _ => rfl⟩
  | some copy =>
      rw [mirrored copy cpu]
      refine ⟨fun length member => le_max_getD member, ?_⟩
      intro none
      cases none

theorem extendLayout_finds (given : forwardBatch.extendSeqLens = some lengths)
    (mirrored : ∀ cpu, forwardBatch.extendSeqLensCpu = some cpu → cpu = lengths) {spare : Nat}
    (room : spare ≠ 0 → forwardBatch.extendSeqLensCpu = none ∧ lengths ≠ []) (mode : ForwardMode) :
    ∃ layout, extendLayout forwardBatch mode (lengths.sum + spare) = .ok layout ∧ layout.lengths = lengths ∧
      layout.Finds lengths ∧ (∀ length ∈ lengths, length ≤ layout.rowWidth) ∧
      layout.reqIndices.length = lengths.sum + spare ∧ layout.InBounds := by
  have nonempty : ¬ (lengths = [] ∧ lengths.sum + spare ≠ 0) := by
    intro bad
    obtain ⟨none, some_⟩ := bad
    by_cases bare : spare = 0
    · rw [none, bare] at some_
      exact some_ rfl
    · exact (room bare).2 none
  obtain ⟨layout, made, same, places, wide, whole⟩ :=
    extendLayout_places given mirrored nonempty (Nat.le_add_right _ spare) mode
  refine ⟨layout, made, same, places.finds, wide, places.reqCount, places.inBounds ?_⟩
  intro position bound
  have rows : 0 < lengths.length := by
    by_contra none
    have empty := List.eq_nil_of_length_eq_zero (Nat.eq_zero_of_not_pos none)
    exact nonempty ⟨empty, by omega⟩
  constructor
  · rw [same]
    exact Nat.lt_of_le_of_lt (min_le_right _ _) (Nat.sub_lt rows Nat.one_pos)
  · by_cases own : position < lengths.sum
    · obtain ⟨row, offset, inside, rfl⟩ := exists_row own
      have bounded := wide _ (List.getElem_mem (row_lt_of_offset inside))
      rw [extendRow_eq inside, Nat.add_sub_cancel_left]
      rw [List.getD_eq_getElem?_getD, List.getElem?_eq_getElem (row_lt_of_offset inside), Option.getD_some] at inside
      exact Nat.lt_of_lt_of_le inside bounded
    · rw [whole (room (by omega)).1]
      omega

def draftLengths (forwardBatch : ForwardBatch) (count width : Nat) : List Nat :=
  match forwardBatch.forwardMode, forwardBatch.extendSeqLens with
  | .targetVerify, some lengths => lengths.take count
  | _, _ => List.replicate count width

theorem stride_lt {width count row offset : Nat} (inside : offset < (List.replicate count width).getD row 0) :
    row < count ∧ offset < width := by
  have bound : row < count := by simpa using row_lt_of_offset inside
  rw [List.getD_eq_getElem?_getD, List.getElem?_replicate, if_pos bound, Option.getD_some] at inside
  exact ⟨bound, inside⟩

theorem draftRow_places (lengths : List Nat) {width : Nat} (some_ : 0 < width) (count : Nat) :
    Layout.Places {
        lengths := lengths
        rowWidth := width
        reqIndices := (List.range (count * width)).map (· / width)
        tokenOffsets := (List.range (count * width)).map fun position => position - position / width * width }
      (List.replicate count width) (count * width) (· / width) where
  req := rfl
  column := by
    apply List.map_congr_left
    intro position member
    have quotient : position / width < count := (Nat.div_lt_iff_lt_mul some_).mpr (List.mem_range.mp member)
    rw [rowStart_replicate quotient.le]
  started := by
    intro position bound
    have quotient : position / width < count := (Nat.div_lt_iff_lt_mul some_).mpr bound
    rw [rowStart_replicate quotient.le]
    exact Nat.div_mul_le_self position width
  own := by
    intro row offset inside
    obtain ⟨bound, narrow⟩ := stride_lt inside
    have last : (row + 1) * width ≤ count * width := Nat.mul_le_mul_right _ bound
    rw [Nat.succ_mul] at last
    rw [rowStart_replicate bound.le]
    refine ⟨by omega, ?_⟩
    rw [Nat.mul_comm, Nat.mul_add_div some_, Nat.div_eq_of_lt narrow, Nat.add_zero]

theorem verifyLayout_finds {width count : Nat} {info : SpecInfo} (spec : forwardBatch.specInfo = some info)
    (drafts : info.draftTokenNum = width) (some_ : 0 < width)
    (given : draftLengths forwardBatch count width = lengths) (rows : lengths.length = count) :
    ∃ layout, verifyLayout forwardBatch (count * width) = .ok layout ∧ layout.lengths = lengths ∧
      layout.rowWidth = width ∧ layout.Finds (List.replicate count width) ∧
      layout.reqIndices.length = count * width ∧ layout.InBounds := by
  have toNat : info.draftTokenNum.toNat = width := by omega
  have whole : ¬ (info.draftTokenNum ≤ 0 ∨ count * width % info.draftTokenNum.toNat ≠ 0) := by
    rw [toNat, Nat.mul_mod_left]
    omega
  have sequences : count * width / width = count := Nat.mul_div_cancel _ some_
  have places := draftRow_places lengths some_ count
  refine ⟨_, ?_, rfl, rfl, places.finds, places.reqCount, places.inBounds ?_⟩
  · rw [verifyLayout, spec]
    dsimp only
    rw [if_neg whole, toNat, sequences]
    subst given
    exact if_neg (not_not.mpr rows)
  · intro position bound
    have quotient : position / width < count := (Nat.div_lt_iff_lt_mul some_).mpr bound
    have remainder := Nat.mod_lt position some_
    have split := Nat.div_add_mod' position width
    dsimp only
    rw [rowStart_replicate quotient.le]
    exact ⟨quotient.trans_eq rows.symm, by omega⟩

end FlashNext.NGram
