import FlashNext.Data.Storage

namespace FlashNext.Kv

open FlashNext.Data

variable {Cell : Type}

/-- `MXFP8_SCALE_BLOCK_SIZE`. -/
def mxfp8ScaleBlockSize : Nat := 32

/-- Where the scales of an offset stand in the interleaved layout of a page. -/
def ipos (pageSize off : Nat) : Nat :=
  off % mxfp8ScaleBlockSize * (pageSize / mxfp8ScaleBlockSize) + off / mxfp8ScaleBlockSize

inductive Buffer (Cell : Type) where
  -- `[slot, head]`
  | nhd (rows : List (List Cell))
  -- `[page, head, offset]`
  | hnd (pages : List (List (List Cell)))
  -- `[page, offset, head]`
  | pageMajor (pages : List (List (List Cell)))
  -- `[page, head, position]`
  | interleaved (pages : List (List (List Cell)))
deriving DecidableEq

def readHeads (pages : List (List (List Cell))) (page position : Nat) : List Cell :=
  (pages.getD page []).filterMap (·[position]?)

def writeHeads (pages : List (List (List Cell))) (page position : Nat) (row : List Cell) : List (List (List Cell)) :=
  pages.modify page fun heads => List.zipWith (fun head cell => head.set position cell) heads row

namespace Buffer

def read (pageSize : Nat) : Buffer Cell → Nat → List Cell
  | nhd rows, loc => rows.getD loc []
  | hnd pages, loc => readHeads pages (loc / pageSize) (loc % pageSize)
  | pageMajor pages, loc => (pages.getD (loc / pageSize) []).getD (loc % pageSize) []
  | interleaved pages, loc => readHeads pages (loc / pageSize) (ipos pageSize (loc % pageSize))

def write (pageSize : Nat) : Buffer Cell → Nat → List Cell → Buffer Cell
  | nhd rows, loc, row => nhd (rows.set loc row)
  | hnd pages, loc, row => hnd (writeHeads pages (loc / pageSize) (loc % pageSize) row)
  | pageMajor pages, loc, row => pageMajor (pages.modify (loc / pageSize) (·.set (loc % pageSize) row))
  | interleaved pages, loc, row => interleaved (writeHeads pages (loc / pageSize) (ipos pageSize (loc % pageSize)) row)

def storage (pageSize : Nat) : Storage (Buffer Cell) Nat (List Cell) := ⟨read pageSize, write pageSize⟩

/-- A buffer of `size` slots. -/
def Shaped (pageSize size heads : Nat) : Buffer Cell → Prop
  | nhd rows => rows.length = size ∧ ∀ row ∈ rows, row.length = heads
  | hnd pages => pages.length * pageSize = size ∧ ∀ page ∈ pages, page.length = heads ∧ ∀ head ∈ page, head.length = pageSize
  | pageMajor pages =>
      pages.length * pageSize = size ∧ ∀ page ∈ pages, page.length = pageSize ∧ ∀ row ∈ page, row.length = heads
  | interleaved pages =>
      mxfp8ScaleBlockSize ∣ pageSize ∧ pages.length * pageSize = size ∧
        ∀ page ∈ pages, page.length = heads ∧ ∀ head ∈ page, head.length = pageSize

end Buffer

section Positions

variable {pageSize size left right loc : Nat}

theorem ipos_lt (whole : mxfp8ScaleBlockSize ∣ pageSize) (bound : left < pageSize) : ipos pageSize left < pageSize := by
  obtain ⟨chunk, rfl⟩ := whole
  have block : 0 < mxfp8ScaleBlockSize := by decide
  rw [ipos, Nat.mul_div_cancel_left chunk block]
  have within : left / mxfp8ScaleBlockSize < chunk := Nat.div_lt_of_lt_mul bound
  calc left % mxfp8ScaleBlockSize * chunk + left / mxfp8ScaleBlockSize
      < left % mxfp8ScaleBlockSize * chunk + chunk := by omega
    _ = (left % mxfp8ScaleBlockSize + 1) * chunk := by rw [Nat.add_mul, Nat.one_mul]
    _ ≤ mxfp8ScaleBlockSize * chunk := Nat.mul_le_mul_right chunk (Nat.mod_lt left block)

/-- No two offsets of a page share a position. -/
theorem ipos_inj (whole : mxfp8ScaleBlockSize ∣ pageSize) (inLeft : left < pageSize) (inRight : right < pageSize)
    (same : ipos pageSize left = ipos pageSize right) : left = right := by
  obtain ⟨chunk, rfl⟩ := whole
  have block : 0 < mxfp8ScaleBlockSize := by decide
  rw [ipos, ipos, Nat.mul_div_cancel_left chunk block] at same
  have leftWithin : left / mxfp8ScaleBlockSize < chunk := Nat.div_lt_of_lt_mul inLeft
  have rightWithin : right / mxfp8ScaleBlockSize < chunk := Nat.div_lt_of_lt_mul inRight
  have quotient (value : Nat) (within : value / mxfp8ScaleBlockSize < chunk) :
      (value % mxfp8ScaleBlockSize * chunk + value / mxfp8ScaleBlockSize) / chunk = value % mxfp8ScaleBlockSize := by
    rw [Nat.mul_comm, Nat.mul_add_div (Nat.zero_lt_of_lt within), Nat.div_eq_of_lt within, Nat.add_zero]
  have remainders : left % mxfp8ScaleBlockSize = right % mxfp8ScaleBlockSize := by
    rw [← quotient left leftWithin, same, quotient right rightWithin]
  have quotients : left / mxfp8ScaleBlockSize = right / mxfp8ScaleBlockSize := by
    rw [remainders] at same
    exact Nat.add_left_cancel same
  rw [← Nat.div_add_mod left mxfp8ScaleBlockSize, quotients, remainders, Nat.div_add_mod]

theorem page_lt {pages : Nat} (whole : pages * pageSize = size) (bound : loc < size) : loc / pageSize < pages :=
  Nat.div_lt_of_lt_mul (by rwa [Nat.mul_comm, whole])

theorem pageSize_pos {pages : Nat} (whole : pages * pageSize = size) (bound : loc < size) : 0 < pageSize := by
  apply Nat.pos_of_ne_zero
  rintro rfl
  rw [Nat.mul_zero] at whole
  omega

theorem loc_eq (page : left / pageSize = right / pageSize) (offset : left % pageSize = right % pageSize) : left = right := by
  rw [← Nat.div_add_mod left pageSize, page, offset, Nat.div_add_mod]

end Positions

section Heads

variable {pages : List (List (List Cell))} {page position other : Nat} {row : List Cell}

theorem getD_modify_self {α : Type} {rows : List (List α)} {index : Nat} (change : List α → List α) (bound : index < rows.length) :
    (rows.modify index change).getD index [] = change (rows.getD index []) := by
  simp [List.getD_eq_getElem?_getD, bound]

theorem getD_modify_ne {α : Type} {rows : List (List α)} {index other : Nat} (change : List α → List α) (apart : index ≠ other) :
    (rows.modify index change).getD other [] = rows.getD other [] := by
  rw [List.getD_eq_getElem?_getD, List.getElem?_modify_ne _ _ apart, List.getD_eq_getElem?_getD]

theorem getD_mem {α : Type} {rows : List (List α)} {index : Nat} (bound : index < rows.length) : rows.getD index [] ∈ rows := by
  rw [List.getD_eq_getElem?_getD, List.getElem?_eq_getElem bound]
  exact List.getElem_mem bound

theorem getD_set {α : Type} {rows : List (List α)} {index : Nat} (bound : index < rows.length) (row : List α) (other : Nat) :
    (rows.set index row).getD other [] = if other = index then row else rows.getD other [] := by
  rw [List.getD_eq_getElem?_getD, List.getD_eq_getElem?_getD]
  by_cases same : other = index
  · rw [same, List.getElem?_set_self bound, if_pos rfl]
    rfl
  · rw [List.getElem?_set_ne (Ne.symm same), if_neg same]

theorem forall_modify {α : Type} {rows : List α} {holds : α → Prop} {change : α → α} (all : ∀ row ∈ rows, holds row)
    (kept : ∀ row, holds row → holds (change row)) (index : Nat) : ∀ row ∈ rows.modify index change, holds row := by
  intro row member
  obtain ⟨place, found⟩ := List.getElem?_of_mem member
  rw [List.getElem?_modify] at found
  obtain ⟨before, here, rfl⟩ := Option.map_eq_some_iff.mp found
  have member := all before (List.mem_of_getElem? here)
  split
  · exact kept before member
  · exact member

theorem read_set_self {heads : List (List Cell)} (same : row.length = heads.length) (inside : ∀ head ∈ heads, position < head.length) :
    (List.zipWith (fun head cell => head.set position cell) heads row).filterMap (·[position]?) = row := by
  induction heads generalizing row with
  | nil => exact (List.eq_nil_of_length_eq_zero same).symm
  | cons head rest ih =>
      cases row with
      | nil => cases same
      | cons cell later =>
          obtain ⟨here, inside⟩ := List.forall_mem_cons.mp inside
          rw [List.zipWith_cons_cons, List.filterMap_cons, List.getElem?_set_self here, ih (Nat.succ.inj same) inside]

theorem read_set_ne {heads : List (List Cell)} (same : row.length = heads.length) (apart : position ≠ other) :
    (List.zipWith (fun head cell => head.set position cell) heads row).filterMap (·[other]?) = heads.filterMap (·[other]?) := by
  induction heads generalizing row with
  | nil => rfl
  | cons head rest ih =>
      cases row with
      | nil => cases same
      | cons cell later =>
          rw [List.zipWith_cons_cons, List.filterMap_cons, List.getElem?_set_ne apart, ih (Nat.succ.inj same), List.filterMap_cons]

theorem length_readHeads {heads : List (List Cell)} (inside : ∀ head ∈ heads, position < head.length) :
    (heads.filterMap (·[position]?)).length = heads.length := by
  induction heads with
  | nil => rfl
  | cons head rest ih =>
      obtain ⟨here, inside⟩ := List.forall_mem_cons.mp inside
      rw [List.filterMap_cons, List.getElem?_eq_getElem here, List.length_cons, ih inside, List.length_cons]

variable {heads width : Nat} (shaped : ∀ page ∈ pages, page.length = heads ∧ ∀ head ∈ page, head.length = width)

include shaped

theorem fits_readHeads (inPages : page < pages.length) (inWidth : position < width) :
    (readHeads pages page position).length = heads := by
  obtain ⟨count, widths⟩ := shaped _ (getD_mem inPages)
  rw [readHeads, length_readHeads fun head member => (widths head member).symm ▸ inWidth, count]

theorem shaped_writeHeads (page position : Nat) (fit : row.length = heads) :
    ∀ page' ∈ writeHeads pages page position row, page'.length = heads ∧ ∀ head ∈ page', head.length = width := by
  refine forall_modify shaped (fun before ⟨count, widths⟩ => ⟨?_, fun head member => ?_⟩) page
  · rw [List.length_zipWith, count, fit, Nat.min_self]
  · obtain ⟨index, found⟩ := List.getElem?_of_mem member
    obtain ⟨into, cell, inBefore, -, rfl⟩ := List.getElem?_zipWith_eq_some.mp found
    rw [List.length_set]
    exact widths into (List.mem_of_getElem? inBefore)

theorem readHeads_writeHeads {page' : Nat} (inPages : page < pages.length) (inWidth : position < width) (fit : row.length = heads) :
    readHeads (writeHeads pages page position row) page' other =
      if page' = page ∧ other = position then row else readHeads pages page' other := by
  rw [readHeads, writeHeads, readHeads]
  by_cases samePage : page = page'
  · subst samePage
    obtain ⟨count, widths⟩ := shaped _ (getD_mem inPages)
    rw [getD_modify_self _ inPages]
    by_cases samePosition : position = other
    · subst samePosition
      rw [if_pos ⟨rfl, rfl⟩, read_set_self (fit.trans count.symm) fun head member => (widths head member).symm ▸ inWidth]
    · rw [if_neg fun both => samePosition both.2.symm, read_set_ne (fit.trans count.symm) samePosition]
  · rw [if_neg fun both => samePage both.1.symm, getD_modify_ne _ samePage]

end Heads

theorem storage_lawful (pageSize size heads : Nat) :
    (Buffer.storage pageSize : Storage (Buffer Cell) Nat (List Cell)).Lawful (Buffer.Shaped pageSize size heads) (· < size)
      (·.length = heads) where
  fits_read buffer loc shaped bound := by
    cases buffer with
    | nhd rows => exact shaped.2 _ (getD_mem (shaped.1 ▸ bound))
    | hnd pages => exact fits_readHeads shaped.2 (page_lt shaped.1 bound) (Nat.mod_lt _ (pageSize_pos shaped.1 bound))
    | pageMajor pages =>
        obtain ⟨offsets, rows⟩ := shaped.2 _ (getD_mem (page_lt shaped.1 bound))
        exact rows _ (getD_mem (offsets.symm ▸ Nat.mod_lt _ (pageSize_pos shaped.1 bound)))
    | interleaved pages =>
        exact fits_readHeads shaped.2.2 (page_lt shaped.2.1 bound) (ipos_lt shaped.1 (Nat.mod_lt _ (pageSize_pos shaped.2.1 bound)))
  sound_write buffer loc row shaped bound fit := by
    cases buffer with
    | nhd rows =>
        refine ⟨(List.length_set ..).trans shaped.1, fun other member => ?_⟩
        rcases List.mem_or_eq_of_mem_set member with kept | rfl
        · exact shaped.2 other kept
        · exact fit
    | hnd pages => exact ⟨(congrArg (· * pageSize) (List.length_modify ..)).trans shaped.1, shaped_writeHeads shaped.2 _ _ fit⟩
    | pageMajor pages =>
        refine ⟨(congrArg (· * pageSize) (List.length_modify ..)).trans shaped.1, ?_⟩
        refine forall_modify shaped.2 (fun before ⟨offsets, rows⟩ => ⟨(List.length_set ..).trans offsets, fun other member => ?_⟩) _
        rcases List.mem_or_eq_of_mem_set member with kept | rfl
        · exact rows other kept
        · exact fit
    | interleaved pages =>
        exact ⟨shaped.1, (congrArg (· * pageSize) (List.length_modify ..)).trans shaped.2.1, shaped_writeHeads shaped.2.2 _ _ fit⟩
  read_write buffer loc row other shaped bound fit room := by
    rw [Function.update_apply]
    cases buffer with
    | nhd rows => exact getD_set (shaped.1 ▸ bound) row other
    | hnd pages =>
        have offset := Nat.mod_lt loc (pageSize_pos shaped.1 bound)
        refine (readHeads_writeHeads shaped.2 (page_lt shaped.1 bound) offset fit).trans (if_congr ?_ rfl rfl)
        exact ⟨fun both => loc_eq both.1 both.2, fun same => same ▸ ⟨rfl, rfl⟩⟩
    | pageMajor pages =>
        have inPages := page_lt shaped.1 bound
        simp only [Buffer.storage, Buffer.write, Buffer.read]
        by_cases page : loc / pageSize = other / pageSize
        · obtain ⟨offsets, -⟩ := shaped.2 _ (getD_mem inPages)
          rw [← page, getD_modify_self _ inPages, getD_set (offsets.symm ▸ Nat.mod_lt _ (pageSize_pos shaped.1 bound))]
          exact if_congr ⟨fun offset => loc_eq page.symm offset, fun same => same ▸ rfl⟩ rfl rfl
        · rw [getD_modify_ne _ page, if_neg fun same : other = loc => page (same ▸ rfl)]
    | interleaved pages =>
        have positive := pageSize_pos shaped.2.1 bound
        refine (readHeads_writeHeads shaped.2.2 (page_lt shaped.2.1 bound) (ipos_lt shaped.1 (Nat.mod_lt _ positive)) fit).trans
          (if_congr ?_ rfl rfl)
        exact ⟨fun both => loc_eq both.1 (ipos_inj shaped.1 (Nat.mod_lt _ positive) (Nat.mod_lt _ positive) both.2),
          fun same => same ▸ ⟨rfl, rfl⟩⟩

end FlashNext.Kv
