import Mathlib.Algebra.BigOperators.Group.List.Basic
import Mathlib.Algebra.GroupWithZero.Nat
import Mathlib.Data.List.DropRight

namespace FlashNext.Data

variable {α : Type*}

def rowStart (lengths : List Nat) (row : Nat) : Nat := (lengths.take row).sum

/-- `torch.cat([0, torch.cumsum(lengths)])`. -/
def rowStarts (lengths : List Nat) : List Nat :=
  (List.range (lengths.length + 1)).map (rowStart lengths)

/-- `torch.searchsorted(sorted, value, right=True)`. -/
def searchsortedRight (sorted : List Nat) (value : Nat) : Nat := sorted.findIdx (value < ·)

def segment (lengths : List Nat) (whole : List α) (row : Nat) : List α :=
  (whole.drop (rowStart lengths row)).take (lengths.getD row 0)

/-- A window of a row, `row[offset : offset + size]`. -/
def window (row : List α) (offset size : Nat) : List α := (row.drop offset).take size

variable {lengths : List Nat} {row offset : Nat}

theorem row_lt_of_offset (inside : offset < lengths.getD row 0) : row < lengths.length := by
  by_contra outside
  rw [List.getD_eq_getElem?_getD, List.getElem?_eq_none (by omega)] at inside
  exact Nat.not_lt_zero _ inside

theorem rowStart_succ (bound : row < lengths.length) :
    rowStart lengths (row + 1) = rowStart lengths row + lengths.getD row 0 := by
  rw [rowStart, rowStart, List.take_add_one, List.sum_append, List.getElem?_eq_getElem bound,
    List.getD_eq_getElem?_getD, List.getElem?_eq_getElem bound]
  exact congrArg _ List.sum_singleton

theorem rowStart_mono {first second : Nat} (le : first ≤ second) :
    rowStart lengths first ≤ rowStart lengths second := by
  have split : second = first + (second - first) := by omega
  rw [rowStart, rowStart, split, List.take_add, List.sum_append]
  exact Nat.le_add_right _ _

theorem rowStart_length (lengths : List Nat) : rowStart lengths lengths.length = lengths.sum := by
  simp [rowStart]

theorem row_end_le (inside : offset < lengths.getD row 0) :
    rowStart lengths row + lengths.getD row 0 ≤ lengths.sum := by
  have bound := row_lt_of_offset inside
  rw [← rowStart_succ bound, ← rowStart_length]
  exact rowStart_mono bound

theorem exists_row {position : Nat} (bound : position < lengths.sum) :
    ∃ row offset, offset < lengths.getD row 0 ∧ position = rowStart lengths row + offset := by
  induction lengths generalizing position with
  | nil => simp at bound
  | cons length rest ih =>
      rw [List.sum_cons] at bound
      rcases Nat.lt_or_ge position length with first | later
      · exact ⟨0, position, by simpa using first, by simp [rowStart]⟩
      · obtain ⟨row, offset, inside, place⟩ := @ih (position - length) (by omega)
        refine ⟨row + 1, offset, by simpa using inside, ?_⟩
        rw [rowStart, List.take_succ_cons, List.sum_cons]
        change position = length + rowStart rest row + offset
        omega

theorem searchsortedRight_rowStarts (inside : offset < lengths.getD row 0) :
    searchsortedRight (rowStarts lengths) (rowStart lengths row + offset) = row + 1 := by
  have bound := row_lt_of_offset inside
  have entry : ∀ index (small : index < (rowStarts lengths).length),
      (rowStarts lengths)[index] = rowStart lengths index := by simp [rowStarts]
  have size : row + 1 < (rowStarts lengths).length := by
    simp only [rowStarts, List.length_map, List.length_range]
    omega
  rw [searchsortedRight, List.findIdx_eq size]
  constructor
  · rw [entry, rowStart_succ bound]
    exact decide_eq_true (by omega)
  · intro earlier before
    rw [entry]
    have below := @rowStart_mono lengths earlier row (by omega)
    exact decide_eq_false (by omega)

theorem rowStart_replicate_one {count : Nat} (bound : row ≤ count) :
    rowStart (List.replicate count 1) row = row := by
  simp [rowStart, List.take_replicate, Nat.min_eq_left bound]

theorem rowStart_replicate {count width : Nat} (bound : row ≤ count) :
    rowStart (List.replicate count width) row = row * width := by
  simp [rowStart, List.take_replicate, Nat.min_eq_left bound]

theorem flatten_rowStart {rows : List (List α)} {values : List α} (found : rows[row]? = some values)
    (inside : offset < values.length) :
    rows.flatten[rowStart (rows.map List.length) row + offset]? = values[offset]? := by
  induction rows generalizing row with
  | nil => cases found
  | cons first rest ih =>
      rw [List.flatten_cons]
      cases row with
      | zero =>
          cases found
          rw [rowStart, List.take_zero, List.sum_nil, Nat.zero_add, List.getElem?_append_left inside]
      | succ row =>
          have start : rowStart ((first :: rest).map List.length) (row + 1) =
              first.length + rowStart (rest.map List.length) row := by
            rw [rowStart, List.map_cons, List.take_succ_cons, List.sum_cons]
            rfl
          have place : first.length + rowStart (rest.map List.length) row + offset =
              first.length + (rowStart (rest.map List.length) row + offset) := Nat.add_assoc ..
          rw [start, place, List.getElem?_append_right (Nat.le_add_right _ _), Nat.add_sub_cancel_left]
          exact ih found

theorem segment_flatten {rows : List (List α)} {values : List α} (found : rows[row]? = some values) :
    segment (rows.map List.length) rows.flatten row = values := by
  induction rows generalizing row with
  | nil => cases found
  | cons first rest ih =>
      cases row with
      | zero =>
          cases found
          simp [segment, rowStart]
      | succ row =>
          rw [← ih found, segment, segment, rowStart, List.map_cons, List.take_succ_cons, List.sum_cons, List.flatten_cons,
            List.getD_cons_succ, List.drop_length_add_append]
          rfl

theorem window_append {left right : List α} {size : Nat} (fits : offset + size ≤ left.length) :
    window (left ++ right) offset size = window left offset size := by
  rw [window, window, List.drop_append_of_le_length (by omega),
    List.take_append_of_le_length (by rw [List.length_drop]; omega)]

theorem rtake_append_eq_drop {left right : List α} {size : Nat} :
    left.rtake size ++ right = (left ++ right).drop (left.length - size) :=
  (List.drop_append_of_le_length (Nat.sub_le _ _)).symm

theorem rtake_rtake_append {left right : List α} {kept size : Nat} (enough : size ≤ kept + right.length) :
    (left.rtake kept ++ right).rtake size = (left ++ right).rtake size := by
  rw [rtake_append_eq_drop, List.rtake, List.rtake, List.drop_drop, List.length_drop, List.length_append]
  congr 1
  omega

theorem rtake_of_length {values : List α} {size : Nat} (length : values.length = size) : values.rtake size = values := by
  rw [List.rtake, length, Nat.sub_self, List.drop_zero]

/-- In a row that begins with the `size - 1` elements before its own, the window
at an offset ends in the element there. -/
theorem window_history {history tokens filling : List α} {size : Nat} (before : history.length + 1 = size)
    (inside : offset < tokens.length) :
    window (history ++ tokens ++ filling) offset size = (history ++ tokens.take (offset + 1)).rtake size := by
  have shorter : history ++ tokens.take (offset + 1) = (history ++ tokens).take (size + offset) := by
    rw [List.take_append, List.take_of_length_le (by omega : history.length ≤ size + offset)]
    congr 2
    omega
  have length : (history ++ tokens.take (offset + 1)).length = size + offset := by
    rw [List.length_append, List.length_take]
    omega
  rw [window_append (by rw [List.length_append]; omega), List.rtake, length, shorter, Nat.add_sub_cancel_left,
    window, List.drop_take, Nat.add_sub_cancel]

theorem window_next {history tokens filling : List α} :
    window (history ++ tokens ++ filling) tokens.length history.length = (history ++ tokens).rtake history.length := by
  rw [window_append (by rw [List.length_append]; omega), List.rtake, List.length_append, Nat.add_sub_cancel_left, window,
    List.take_of_length_le (by rw [List.length_drop, List.length_append]; omega)]

theorem window_leading {history tokens filling : List α} (inside : offset ≤ tokens.length) :
    window (history ++ tokens ++ filling) offset history.length = (history ++ tokens.take offset).rtake history.length := by
  have length : (tokens.take offset).length = offset := by
    rw [List.length_take]
    omega
  have parts : history ++ tokens ++ filling = history ++ tokens.take offset ++ (tokens.drop offset ++ filling) := by
    rw [List.append_assoc, List.append_assoc, ← List.append_assoc (tokens.take offset), List.take_append_drop]
  have next := @window_next _ history (tokens.take offset) (tokens.drop offset ++ filling)
  rw [length] at next
  rw [parts, next]

end FlashNext.Data
