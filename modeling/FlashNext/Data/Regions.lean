import FlashNext.Data.Chunks

namespace FlashNext.Data

variable {α : Type*} {buffer : List α} {regions : List (Nat × List α)} {region : Nat × List α} {place : Nat}

def writeRegions : List (Nat × List α) → List α → List α
  | [], buffer => buffer
  | region :: rest, buffer => writeRegions rest (splice buffer region.1 region.2)

theorem splice_nil (buffer : List α) (offset : Nat) : splice buffer offset [] = buffer := by
  rw [splice, List.append_nil, List.length_nil, Nat.add_zero, List.take_append_drop]

/-- Two writes, one behind the other. -/
theorem splice_splice {first second : List α} {offset count : Nat} (width : first.length = count) (fits : offset + count ≤ buffer.length) :
    splice (splice buffer offset first) (offset + count) second = splice buffer offset (first ++ second) := by
  subst width
  have start : offset ≤ buffer.length := by omega
  rw [splice, splice_take start, splice_drop start, splice, List.length_append, Nat.add_assoc, List.append_assoc, List.append_assoc,
    List.append_assoc, List.append_assoc]

theorem writeRegions_outside (fits : ∀ region ∈ regions, region.1 + region.2.length ≤ buffer.length)
    (outside : ∀ region ∈ regions, place < region.1 ∨ region.1 + region.2.length ≤ place) :
    (writeRegions regions buffer)[place]? = buffer[place]? := by
  induction regions generalizing buffer with
  | nil => rfl
  | cons region rest ih =>
      obtain ⟨here, later⟩ := List.forall_mem_cons.mp fits
      obtain ⟨apart, others⟩ := List.forall_mem_cons.mp outside
      have width := splice_length here
      rw [writeRegions, ih (fun other member => width.symm ▸ later other member) others, splice_getElem? here, if_neg (by omega)]

theorem writeRegions_inside (ordered : regions.Pairwise fun earlier later => earlier.1 + earlier.2.length ≤ later.1)
    (fits : ∀ region ∈ regions, region.1 + region.2.length ≤ buffer.length) (member : region ∈ regions) {index : Nat}
    (bound : index < region.2.length) : (writeRegions regions buffer)[region.1 + index]? = region.2[index]? := by
  induction regions generalizing buffer with
  | nil => cases member
  | cons first rest ih =>
      obtain ⟨here, later⟩ := List.forall_mem_cons.mp fits
      obtain ⟨behind, ordered⟩ := List.pairwise_cons.mp ordered
      have width := splice_length here
      have fits' : ∀ other ∈ rest, other.1 + other.2.length ≤ (splice buffer first.1 first.2).length :=
        fun other member => width.symm ▸ later other member
      rcases List.mem_cons.mp member with rfl | inRest
      · rw [writeRegions, writeRegions_outside fits' fun other member => .inl (by have := behind other member; omega),
          splice_getElem? here, if_pos (by omega), Nat.add_sub_cancel_left]
      · exact ih ordered fits' inRest

/-- The pages that rows take. -/
def pagesOf (pageSize count : Nat) : Nat := (count + pageSize - 1) / pageSize

/-- Each list of rows starts at a page of its own. -/
def pageRegions (pageSize : Nat) : Nat → List (List α) → List (Nat × List α)
  | _, [] => []
  | page, rows :: rest => (page * pageSize, rows) :: pageRegions pageSize (page + pagesOf pageSize rows.length) rest

section Pages

variable {pageSize page : Nat} {batch : List (List α)}

theorem pagesOf_enough (positive : 0 < pageSize) (count : Nat) : count ≤ pagesOf pageSize count * pageSize := by
  have above := Nat.lt_div_mul_add positive (a := count + pageSize - 1)
  rw [pagesOf]
  omega

/-- The page after rows that start at a page. -/
theorem next_page (positive : 0 < pageSize) (page count : Nat) :
    (page * pageSize + count + pageSize - 1) / pageSize * pageSize = (page + pagesOf pageSize count) * pageSize := by
  have shifted : page * pageSize + count + pageSize - 1 = count + pageSize - 1 + page * pageSize := by omega
  rw [shifted, Nat.add_mul_div_right _ _ positive, pagesOf, Nat.add_comm]

theorem pageRegions_getElem? (page index : Nat) (batch : List (List α)) : (pageRegions pageSize page batch)[index]? =
    batch[index]?.map fun rows =>
      ((page + ((batch.take index).map fun rows => pagesOf pageSize rows.length).sum) * pageSize, rows) := by
  induction batch generalizing page index with
  | nil => rfl
  | cons rows rest ih =>
      cases index with
      | zero => simp [pageRegions]
      | succ index =>
          rw [pageRegions, List.getElem?_cons_succ, ih, List.getElem?_cons_succ, List.take_succ_cons, List.map_cons, List.sum_cons,
            Nat.add_assoc]

theorem pageRegions_from (member : region ∈ pageRegions pageSize page batch) : page * pageSize ≤ region.1 := by
  obtain ⟨index, found⟩ := List.getElem?_of_mem member
  rw [pageRegions_getElem?] at found
  obtain ⟨rows, -, rfl⟩ := Option.map_eq_some_iff.mp found
  exact Nat.mul_le_mul_right pageSize (Nat.le_add_right ..)

theorem pageRegions_ordered (positive : 0 < pageSize) (page : Nat) (batch : List (List α)) :
    (pageRegions pageSize page batch).Pairwise fun earlier later => earlier.1 + earlier.2.length ≤ later.1 := by
  induction batch generalizing page with
  | nil => exact .nil
  | cons rows rest ih =>
      refine List.pairwise_cons.mpr ⟨fun later member => ?_, ih _⟩
      have behind := pageRegions_from member
      rw [Nat.add_mul] at behind
      have enough := pagesOf_enough positive rows.length
      dsimp only
      omega

/-- Room for all the pages is room for each region. -/
theorem pageRegions_fit (positive : 0 < pageSize) {room : Nat}
    (enough : (page + (batch.map fun rows => pagesOf pageSize rows.length).sum) * pageSize ≤ room) :
    ∀ region ∈ pageRegions pageSize page batch, region.1 + region.2.length ≤ room := by
  induction batch generalizing page with
  | nil => exact nofun
  | cons rows rest ih =>
      rw [List.map_cons, List.sum_cons] at enough
      refine List.forall_mem_cons.mpr ⟨?_, ih (by rwa [Nat.add_assoc])⟩
      have width := pagesOf_enough positive rows.length
      have most : (page + pagesOf pageSize rows.length) * pageSize ≤ room :=
        (Nat.mul_le_mul_right pageSize (by omega)).trans enough
      rw [Nat.add_mul] at most
      dsimp only
      omega

end Pages

end FlashNext.Data
