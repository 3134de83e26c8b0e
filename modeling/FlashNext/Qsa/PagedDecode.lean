import FlashNext.Qsa.Decode

namespace FlashNext.Qsa

open FlashNext.Data

theorem int32_natCast {value : Nat} (small : value < 2 ^ 31) : int32 value = value :=
  int32_nonneg (Int.natCast_nonneg value) (by omega)

namespace Decode

/-- What a caller serves: pages that pack a tile, context lengths within the
page table, and page numbers for the positions below them. -/
structure Served (call : Decode) : Prop where
  validated : call.validate = .ok ()
  packed : call.pageSize = 8 ∨ call.pageSize = 16 ∨ call.pageSize = 32 ∨ call.pageSize = 64
  lengths : ∀ row < call.batch, call.contextLens row ≤ call.maxPages * call.pageSize
  covered : ∀ row < call.batch, ∀ index : Nat, (index * call.pageSize : Nat) < call.contextLens row →
    0 ≤ call.pageTable row index ∧ call.pageTable row index < call.pages

/-- The other entries of the table are below the page count as well, and the
sizes fit the kernel's integers. -/
structure Fits (call : Decode) : Prop extends call.Served where
  readable : ∀ row < call.batch, ∀ index < call.maxPages, call.clamped row index < call.pages
  lengthsInt : ∀ row < call.batch, -2 ^ 31 ≤ call.contextLens row ∧ call.contextLens row < 2 ^ 31
  pagesInt : call.pages ≤ 2 ^ 31
  positionsInt : call.maxPages * call.pageSize ≤ 2 ^ 32

variable {call : Decode} {κ α : Type} {scoring : HeadScoring κ α} {cache : Nat → Nat → κ}
  {outside : Int → Nat → κ} {stale : Nat × Nat → Nat → Nat → κ}

theorem ceilDiv_natCast {value block : Nat} (blockPos : 0 < block) (small : value + block ≤ 2 ^ 31) :
    ceilDiv value block = ((value + (block - 1)) / block : Nat) := by
  have sum : (value : Int) + (block - 1) = (value + (block - 1) : Nat) := by omega
  rw [ceilDiv, sum, int32_natCast (by omega), Int.natCast_ediv]

/-- The CTAs of a row, one for each group of its table. -/
def groups (call : Decode) : Nat := (call.maxPages + (call.subPages - 1)) / call.subPages

theorem subPages_eq (fits : call.Served) : call.subPages * call.pageSize = 64 := by
  rcases fits.packed with size | size | size | size <;> simp only [subPages, groupRows, size]

theorem blocks_eq (fits : call.Fits) :
    (ceilDiv (ceilDiv call.maxPages call.subPages) groupsPerCta).toNat = call.groups := by
  have positions := fits.positionsInt
  have packing := subPages_eq fits.toServed
  have bounds : 0 < call.subPages ∧ call.maxPages + call.subPages ≤ 2 ^ 31 := by
    rcases fits.packed with size | size | size | size <;> rw [size] at positions packing <;> omega
  have fewer : call.groups ≤ call.maxPages + (call.subPages - 1) := Nat.div_le_self _ _
  rw [ceilDiv_natCast bounds.1 bounds.2, ← groups, groupsPerCta, ceilDiv_natCast (by omega) (by omega),
    Int.toNat_natCast, Nat.div_one, Nat.sub_self, Nat.add_zero]

theorem mem_grid (fits : call.Fits) {row groupBlock : Nat} :
    (row, groupBlock) ∈ call.grid ↔ row < call.batch ∧ groupBlock < call.groups := by
  simp only [grid, List.mem_flatMap, List.mem_map, List.mem_range, blocks_eq fits, Prod.mk.injEq]
  constructor
  · intro holds
    obtain ⟨bx, inside, block, bound, rfl, rfl⟩ := holds
    exact ⟨inside, bound⟩
  · intro holds
    obtain ⟨inside, bound⟩ := holds
    exact ⟨row, inside, groupBlock, bound, rfl, rfl⟩

theorem lt_groups_iff (fits : call.Served) {groupBlock : Nat} :
    groupBlock < call.groups ↔ groupBlock * 64 < call.total := by
  have packing := subPages_eq fits
  rw [total, groups]
  rcases fits.packed with size | size | size | size <;> rw [size] at packing ⊢
  · have narrow : call.subPages = 8 := by omega
    rw [narrow]
    omega
  · have narrow : call.subPages = 4 := by omega
    rw [narrow]
    omega
  · have narrow : call.subPages = 2 := by omega
    rw [narrow]
    omega
  · have narrow : call.subPages = 1 := by omega
    rw [narrow]
    omega

/-- Where a token of a CTA's tile stores to. -/
def tokenPosition (groupBlock token : Nat) : Int := int32 (int32 (group groupBlock 0 * groupRows) + token)

theorem tokenPosition_eq {groupBlock token : Nat} (small : groupBlock * 64 < 2 ^ 32) (inside : token < 64)
    (nonneg : 0 ≤ tokenPosition groupBlock token) : tokenPosition groupBlock token = (groupBlock * 64 + token : Nat) := by
  simp only [tokenPosition, group, groupsPerCta, groupRows, int32] at nonneg ⊢
  omega

section Tile

variable {row sp token : Nat} {group : Int} {shared : Nat → κ}

def Loaded (call : Decode) (row : Nat) (group : Int) (sp : Nat) : Prop :=
  int32 (call.tableIndex group sp * call.pageSize) < call.contextLen row

def loadedKey (call : Decode) (cache : Nat → Nat → κ) (outside : Int → Nat → κ) (row : Nat) (group : Int)
    (sp slot : Nat) : κ :=
  call.loadKey cache outside (int32 (call.pageTable row (call.tableIndex group sp).toNat)) slot

theorem subPage_iff (pagePos : 0 < call.pageSize) :
    token / call.pageSize = sp ↔ sp * call.pageSize ≤ token ∧ token < (sp + 1) * call.pageSize := by
  rw [Nat.div_eq_iff pagePos, Nat.succ_mul]
  omega

theorem copySubPage_own (pagePos : 0 < call.pageSize) (own : token / call.pageSize = sp)
    (loaded : call.Loaded row group sp) :
    call.copySubPage cache outside row group shared sp token =
      call.loadedKey cache outside row group sp (token % call.pageSize) := by
  have guard : int32 (call.tableIndex group sp * call.pageSize) < call.contextLen row := loaded
  have rows := (subPage_iff pagePos).mp own
  have slot : token - sp * call.pageSize = token % call.pageSize := by
    rw [← own, Nat.mod_eq_sub, Nat.mul_comm]
  rw [copySubPage, if_pos guard, if_pos rows, slot, loadedKey]

theorem copySubPage_other (pagePos : 0 < call.pageSize) (other : token / call.pageSize ≠ sp) :
    call.copySubPage cache outside row group shared sp token = shared token := by
  have rows : ¬(sp * call.pageSize ≤ token ∧ token < (sp + 1) * call.pageSize) := fun inside =>
    other ((subPage_iff pagePos).mpr inside)
  rw [copySubPage]
  split
  · exact if_neg rows
  · rfl

theorem sharedKeys_own (pagePos : 0 < call.pageSize) (inside : token / call.pageSize < call.subPages)
    (loaded : call.Loaded row group (token / call.pageSize)) :
    call.sharedKeys cache outside row group shared token =
      call.loadedKey cache outside row group (token / call.pageSize) (token % call.pageSize) := by
  have copied : ∀ count, token / call.pageSize < count →
      (List.range count).foldl (call.copySubPage cache outside row group) shared token =
        call.loadedKey cache outside row group (token / call.pageSize) (token % call.pageSize) := by
    intro count
    induction count with
    | zero =>
        intro below
        exact absurd below (Nat.not_lt_zero _)
    | succ count ih =>
        intro below
        rw [List.range_succ, List.foldl_append]
        by_cases own : token / call.pageSize = count
        · rw [← own]
          exact copySubPage_own pagePos rfl loaded
        · have earlier := ih (by omega)
          rw [← earlier]
          exact copySubPage_other pagePos own
  exact copied call.subPages inside

end Tile

theorem contextLen_eq (fits : call.Fits) {row : Nat} (inside : row < call.batch) :
    call.contextLen row = call.contextLens row := by
  have int := fits.lengthsInt row inside
  exact int32_eq int.1 int.2

section Position

variable (fits : call.Fits) {row : Nat} (inside : row < call.batch) {position : Nat}
  (below : position < call.contextLens row)
include fits inside below

theorem position_lt : position < 2 ^ 31 ∧ position < call.total := by
  have int := fits.lengthsInt row inside
  have cap := fits.lengths row inside
  have total : (call.total : Int) = call.maxPages * call.pageSize := Int.natCast_mul _ _
  omega

theorem group_eq : group (position / 64) 0 = (position / 64 : Nat) := by
  have small := (position_lt fits inside below).1
  have block : int32 ((position / 64 : Nat) * (groupsPerCta : Nat)) = (position / 64 : Nat) := by
    rw [groupsPerCta, Int.natCast_one, Int.mul_one]
    exact int32_natCast (by omega)
  rw [group, block, Int.natCast_zero, Int.add_zero]
  exact int32_natCast (by omega)

theorem tableIndex_eq :
    call.tableIndex (group (position / 64) 0) (position % 64 / call.pageSize) = (position / call.pageSize : Nat) := by
  have small := (position_lt fits inside below).1
  have index : position / 64 * call.subPages + position % 64 / call.pageSize = position / call.pageSize := by
    rcases fits.packed with size | size | size | size <;> simp only [subPages, groupRows, size] <;> omega
  have pages : position / call.pageSize ≤ position := Nat.div_le_self _ _
  have first : position / 64 * call.subPages ≤ position / call.pageSize := by
    rw [← index]
    exact Nat.le_add_right _ _
  rw [tableIndex, group_eq fits inside below, ← Int.natCast_mul, int32_natCast (by omega), ← Int.natCast_add, index]
  exact int32_natCast (by omega)

theorem loaded_position : call.Loaded row (group (position / 64) 0) (position % 64 / call.pageSize) := by
  have small := (position_lt fits inside below).1
  have start := Nat.div_mul_le_self position call.pageSize
  rw [Loaded, tableIndex_eq fits inside below, contextLen_eq fits inside, ← Int.natCast_mul,
    int32_natCast (by omega)]
  omega

theorem clamped_eq :
    call.clamped row (position / call.pageSize) = call.pageTable row (position / call.pageSize) ∧
      0 ≤ call.pageTable row (position / call.pageSize) ∧
      call.pageTable row (position / call.pageSize) < call.pages := by
  have start : ((position / call.pageSize * call.pageSize : Nat) : Int) < call.contextLens row := by
    have le := Nat.div_mul_le_self position call.pageSize
    omega
  have valid := fits.covered row inside (position / call.pageSize) start
  exact ⟨max_eq_left valid.1, valid⟩

theorem sharedKeys_position (before : Nat → κ) :
    call.sharedKeys cache outside row (group (position / 64) 0) before (position % 64) =
      cache (call.clamped row (position / call.pageSize)).toNat (position % call.pageSize) := by
  have pagePos : 0 < call.pageSize := by
    rcases fits.packed with size | size | size | size <;> omega
  have subPage : position % 64 / call.pageSize < call.subPages ∧
      position % 64 % call.pageSize = position % call.pageSize := by
    rcases fits.packed with size | size | size | size <;> simp only [subPages, groupRows, size] <;> omega
  obtain ⟨clamp, nonneg, valid⟩ := clamped_eq fits inside below
  have pagesInt := fits.pagesInt
  have page : int32 (call.pageTable row (position / call.pageSize)) = call.pageTable row (position / call.pageSize) :=
    int32_nonneg nonneg (by omega)
  rw [sharedKeys_own pagePos subPage.1 (loaded_position fits inside below), loadedKey,
    tableIndex_eq fits inside below, Int.toNat_natCast, page, subPage.2, loadKey, if_pos ⟨nonneg, valid⟩, clamp]

end Position

/-- The padded heads are heads of zeros, after the others. -/
theorem reducedScore_eq (row : Nat) (key : κ) :
    call.reducedScore scoring row key =
      scoring.scaled (scoring.sum ((List.range call.heads).map fun head => scoring.relu (scoring.score row head key))) := by
  have padded : call.kernelHeads = call.heads + (call.kernelHeads - call.heads) := by
    rw [kernelHeads]
    omega
  have own : (List.range call.heads).map (fun head =>
      scoring.relu (if head < call.heads then scoring.score row head key else scoring.zero)) =
      (List.range call.heads).map fun head => scoring.relu (scoring.score row head key) := by
    apply List.map_congr_left
    intro head member
    rw [if_pos (List.mem_range.mp member)]
  have zeros : ((List.range (call.kernelHeads - call.heads)).map (call.heads + ·)).map (fun head =>
      scoring.relu (if head < call.heads then scoring.score row head key else scoring.zero)) =
      List.replicate (call.kernelHeads - call.heads) scoring.zero := by
    rw [List.map_map, List.eq_replicate_iff]
    refine ⟨by simp, ?_⟩
    intro value member
    obtain ⟨head, _, rfl⟩ := List.mem_map.mp member
    rw [Function.comp_apply, if_neg (by omega), scoring.relu_zero]
  rw [reducedScore, padded, List.range_add, List.map_append, own, zeros, scoring.sum_zeros]

section Cta

variable {cta : Nat × Nat} {write : (Nat × Int) × α}

theorem mem_ctaStores :
    write ∈ call.ctaStores scoring cache outside stale cta ↔
      int32 (group cta.2 0 * groupRows) < call.contextLen cta.1 ∧
      ∃ token < 64, tokenPosition cta.2 token < call.contextLen cta.1 ∧
        write = ((cta.1, tokenPosition cta.2 token), call.reducedScore scoring cta.1
          (call.sharedKeys cache outside cta.1 (group cta.2 0) (stale cta 0) token)) := by
  have one : List.range groupsPerCta = [0] := rfl
  simp only [ctaStores, one, List.flatMap_cons, List.flatMap_nil, List.append_nil]
  split
  · rename_i guard
    simp only [List.mem_filterMap, List.mem_range]
    constructor
    · intro holds
      obtain ⟨token, inside, kept⟩ := holds
      obtain ⟨below, same⟩ := Option.ite_none_right_eq_some.mp kept
      exact ⟨guard, token, inside, below, (Option.some_inj.mp same).symm⟩
    · intro holds
      obtain ⟨_, token, inside, below, rfl⟩ := holds
      exact ⟨token, inside, if_pos below⟩
  · constructor
    · intro member
      cases member
    · intro holds
      obtain ⟨guard, _⟩ := holds
      contradiction

theorem torchEntry_eq (fits : call.Fits) {row column : Nat} (inside : row < call.batch)
    (within : column < call.maxModelLen) (below : column < call.contextLens row) :
    call.torchEntry scoring cache row column = call.torchScore scoring cache row column := by
  have total := (position_lt fits inside below).2
  rw [torchEntry, if_pos (lt_min total within), if_neg (not_le.mpr below)]

theorem store_value (fits : call.Fits) (placed : cta ∈ call.grid)
    (member : write ∈ call.ctaStores scoring cache outside stale cta) (kept : call.inShape write.1) :
    ∃ column : Nat, write.1 = (cta.1, (column : Int)) ∧ column < call.contextLens cta.1 ∧
      write.2 = call.torchEntry scoring cache cta.1 column := by
  obtain ⟨row, groupBlock⟩ := cta
  obtain ⟨inside, block⟩ := (mem_grid fits).mp placed
  have small : groupBlock * 64 < 2 ^ 32 := by
    have positions := fits.positionsInt
    have table := (lt_groups_iff fits.toServed).mp block
    rw [total] at table
    omega
  obtain ⟨_, token, lane, below, rfl⟩ := mem_ctaStores.mp member
  have shape : 0 ≤ tokenPosition groupBlock token ∧ tokenPosition groupBlock token < call.maxModelLen :=
    (of_decide_eq_true kept).2
  have position : tokenPosition groupBlock token = (groupBlock * 64 + token : Nat) :=
    tokenPosition_eq small lane shape.1
  have context : (groupBlock * 64 + token : Nat) < call.contextLens row := by
    have length := contextLen_eq fits inside
    rw [← position, ← length]
    exact below
  have tile : (groupBlock * 64 + token) / 64 = groupBlock := by omega
  have row_ : (groupBlock * 64 + token) % 64 = token := by omega
  have key := @sharedKeys_position _ _ cache outside fits row inside _ context (stale (row, groupBlock) 0)
  rw [tile, row_] at key
  refine ⟨groupBlock * 64 + token, ?_, context, ?_⟩
  · rw [← position]
  · have within : groupBlock * 64 + token < call.maxModelLen := by omega
    rw [torchEntry_eq fits inside within context, torchScore, key, reducedScore_eq]

theorem exists_store (fits : call.Fits) {row column : Nat} (inside : row < call.batch)
    (below : column < call.contextLens row) :
    (row, column / 64) ∈ call.grid ∧
      ∃ write ∈ call.ctaStores scoring cache outside stale (row, column / 64), write.1 = (row, (column : Int)) := by
  obtain ⟨small, total⟩ := position_lt fits inside below
  have length := contextLen_eq fits inside
  have group := group_eq fits inside below
  have start : int32 ((column / 64 : Nat) * (groupRows : Nat)) = (column / 64 * 64 : Nat) := by
    rw [← Int.natCast_mul]
    exact int32_natCast (by rw [groupRows]; omega)
  have position : tokenPosition (column / 64) (column % 64) = column := by
    rw [tokenPosition, group, start, ← Int.natCast_add, Nat.div_add_mod']
    exact int32_natCast small
  constructor
  · rw [mem_grid fits, lt_groups_iff fits.toServed]
    exact ⟨inside, by omega⟩
  · refine ⟨_, mem_ctaStores.mpr ⟨?_, column % 64, Nat.mod_lt _ (by omega), ?_, rfl⟩, ?_⟩
    · rw [group, start, length]
      omega
    · rw [position, length]
      exact below
    · rw [position]

end Cta

theorem torchDecode_ok (validated : call.validate = .ok ())
    (readable : ∀ row < call.batch, ∀ index < call.maxPages, call.clamped row index < call.pages) :
    call.torchDecode scoring cache = .ok (call.torchEntry scoring cache) := by
  have gathered : ¬∃ row < call.batch, ∃ index < call.maxPages, call.pages ≤ call.clamped row index := by
    intro holds
    obtain ⟨row, inside, index, bound, past⟩ := holds
    have valid := readable row inside index bound
    omega
  rw [torchDecode, validated]
  exact if_neg gathered

theorem torchDecode_raises (validated : call.validate = .ok ())
    (missing : ∃ row < call.batch, ∃ index < call.maxPages, call.pages ≤ call.clamped row index) :
    call.torchDecode scoring cache = .error .indexError := by
  simp only [torchDecode, validated, missing]
  rfl

theorem Served.packs (served : call.Served) : ¬(call.pageSize < 8 ∨ 64 % call.pageSize ≠ 0) := by
  rcases served.packed with size | size | size | size <;> simp [size]

theorem tilelangDecode_ok (served : call.Served) (nonempty : ¬(call.batch = 0 ∨ call.maxModelLen = 0))
    (order : List (Nat × Nat)) :
    call.tilelangDecode scoring cache true outside stale order =
      .ok fun row column => call.decodeKernel scoring cache outside stale order (row, (column : Int)) := by
  have packs := served.packs
  simp only [tilelangDecode, served.validated, packs, nonempty]
  rfl

section Launch

variable (fits : call.Fits) {order : List (Nat × Nat)} (launched : order.Perm call.grid)
include fits launched

theorem decodeKernel_eq {row column : Nat} (inside : row < call.batch) (within : column < call.maxModelLen) :
    call.decodeKernel scoring cache outside stale order (row, (column : Int)) =
      call.torchEntry scoring cache row column := by
  have value : ∀ write ∈ (order.flatMap (call.ctaStores scoring cache outside stale)).filter (fun write =>
      call.inShape write.1), ∃ row column : Nat, write.1 = (row, (column : Int)) ∧
        column < call.contextLens row ∧ write.2 = call.torchEntry scoring cache row column := by
    intro write member
    obtain ⟨launchedWrite, kept⟩ := List.mem_filter.mp member
    obtain ⟨cta, placed, stored⟩ := List.mem_flatMap.mp launchedWrite
    obtain ⟨column, at_, below, same⟩ := store_value fits (launched.mem_iff.mp placed) stored kept
    exact ⟨cta.1, column, at_, below, same⟩
  by_cases below : column < call.contextLens row
  · apply storeAll_eq
    · intro write member same
      obtain ⟨row', column', at_, _, stored⟩ := value write member
      rw [at_, Prod.mk.injEq, Int.natCast_inj] at same
      rw [stored, same.1, same.2]
    · obtain ⟨placed, write, stored, at_⟩ :=
        @exists_store _ _ _ scoring cache outside stale fits row column inside below
      have kept : call.inShape write.1 = true := by
        rw [at_]
        exact decide_eq_true ⟨inside, Int.natCast_nonneg column, by omega⟩
      exact ⟨write, List.mem_filter.mpr ⟨List.mem_flatMap.mpr ⟨_, launched.mem_iff.mpr placed, stored⟩, kept⟩, at_⟩
  · have untouched := @storeAll_of_not_mem _ _ _ (fun _ => scoring.negInf)
      ((order.flatMap (call.ctaStores scoring cache outside stale)).filter fun write => call.inShape write.1)
      (row, (column : Int))
    rw [decodeKernel, untouched]
    · rw [torchEntry]
      split
      · rw [if_pos (not_lt.mp below)]
      · rfl
    · intro write member same
      obtain ⟨row', column', at_, short, _⟩ := value write member
      rw [at_, Prod.mk.injEq, Int.natCast_inj] at same
      rw [same.1, same.2] at short
      exact below short

/-- The launch and the reference return the same matrix, whatever the tiles and
the memory outside the cache held. -/
theorem tilelangDecode_eq (outside : Int → Nat → κ) (stale : Nat × Nat → Nat → Nat → κ) :
    ∃ reference logits : Nat → Nat → α,
      call.torchDecode scoring cache = .ok reference ∧
      call.tilelangDecode scoring cache true outside stale order = .ok logits ∧
      ∀ row < call.batch, ∀ column < call.maxModelLen, logits row column = reference row column := by
  have reference : call.torchDecode scoring cache = .ok (call.torchEntry scoring cache) :=
    torchDecode_ok fits.validated fits.readable
  by_cases empty : call.batch = 0 ∨ call.maxModelLen = 0
  · have packs := fits.packs
    refine ⟨_, fun _ _ => scoring.negInf, reference, ?_, ?_⟩
    · simp only [tilelangDecode, fits.validated, packs, empty]
      rfl
    · intro row inside column within
      omega
  · refine ⟨_, _, reference, tilelangDecode_ok fits.toServed empty order, ?_⟩
    intro row inside column within
    exact decodeKernel_eq fits launched inside within

end Launch

def keyScoring : HeadScoring Nat Int where
  score _ _ key := key
  relu := max 0
  sum := List.sum
  scaled := id
  zero := 0
  negInf := -1
  relu_zero := rfl
  sum_zeros values count := by simp

def narrowPages : Decode where
  batch := 2
  heads := 3
  headDim := 4
  pages := 3
  pageSize := 8
  cacheHeads := 1
  cacheDim := 4
  tableRows := 2
  maxPages := 3
  lengthCount := 2
  maxModelLen := 20
  pageTable row index := if row = 0 then 2 - index else -1
  contextLens row := if row = 0 then 17 else 0

theorem narrowPages_fits : narrowPages.Fits where
  validated := rfl
  packed := by simp [narrowPages]
  lengths := by decide
  covered := by
    intro row inside index below
    simp only [narrowPages] at inside below ⊢
    split at below <;> split <;> omega
  readable := by decide
  lengthsInt := by decide
  pagesInt := by decide
  positionsInt := by decide

theorem narrowPages_decode :
    ∃ reference logits : Nat → Nat → Int,
      narrowPages.torchDecode keyScoring (fun page slot => page * 8 + slot) = .ok reference ∧
      narrowPages.tilelangDecode keyScoring (fun page slot => page * 8 + slot) true (fun _ _ => 0) (fun _ _ _ => 99)
        narrowPages.grid.reverse = .ok logits ∧
      ∀ row < narrowPages.batch, ∀ column < narrowPages.maxModelLen, logits row column = reference row column :=
  tilelangDecode_eq narrowPages_fits narrowPages.grid.reverse_perm _ _

def onePosition : Decode where
  batch := 1
  heads := 1
  headDim := 1
  pages := 2
  pageSize := 64
  cacheHeads := 1
  cacheDim := 1
  tableRows := 1
  maxPages := 1
  lengthCount := 1
  maxModelLen := 1
  pageTable _ _ := 0
  contextLens _ := 1

def staleEntry : Decode := { onePosition with maxPages := 2, pageTable := fun _ index => if index = 0 then 0 else 2 }

def longContext : Decode := { onePosition with maxPages := 2 ^ 25, contextLens := fun _ => 2 ^ 31 }

def farPage : Decode := { onePosition with pages := 2 ^ 31 + 1, pageTable := fun _ _ => 2 ^ 31 }

def longTable : Decode :=
  { onePosition with maxPages := 2 ^ 26 + 1, pageTable := fun _ index => if index = 0 then 0 else 1 }

/-- The kernel of a call over keys that are their page numbers, its CTAs in the
order of the grid. -/
def pageLogits (call : Decode) (row column : Nat) : Int :=
  call.decodeKernel keyScoring (fun page _ => page) (fun _ _ => 0) (fun _ _ _ => 0) call.grid (row, column)

theorem longContext_stores (cta : Nat × Nat) :
    longContext.ctaStores keyScoring (fun page _ => page) (fun _ _ => 0) (fun _ _ _ => 0) cta = [] := by
  rw [List.eq_nil_iff_forall_not_mem]
  intro write member
  obtain ⟨guard, _⟩ := mem_ctaStores.mp member
  have least : longContext.contextLen cta.1 = -2 ^ 31 := rfl
  rw [least, int32] at guard
  omega

theorem longContext_logits : longContext.pageLogits 0 0 = -1 := by
  have nothing : longContext.grid.flatMap
      (longContext.ctaStores keyScoring (fun page _ => page) (fun _ _ => 0) (fun _ _ _ => 0)) = [] := by
    rw [List.flatMap_eq_nil_iff]
    intro cta _
    exact longContext_stores cta
  rw [pageLogits, decodeKernel, nothing]
  rfl

theorem farPage_logits : farPage.pageLogits 0 0 = 0 := by decide +kernel

theorem longTable_logits : longTable.pageLogits 0 0 = 1 := by
  have groups : (ceilDiv (ceilDiv longTable.maxPages longTable.subPages) groupsPerCta).toNat = 2 ^ 26 + 1 := by
    decide +kernel
  have last : longTable.grid = (List.range (2 ^ 26)).map (fun groupBlock => (0, groupBlock)) ++ [(0, 2 ^ 26)] := by
    rw [grid, groups, List.range_succ]
    simp [longTable, onePosition]
  have stores : (longTable.ctaStores keyScoring (fun page _ => page) (fun _ _ => 0) (fun _ _ _ => 0) (0, 2 ^ 26)).filter
      (fun write => longTable.inShape write.1) = [((0, 0), 1)] := by
    decide +kernel
  rw [pageLogits, decodeKernel, last, List.flatMap_append, List.filter_append, List.flatMap_singleton, stores, storeAll,
    List.foldl_append]
  rfl

/-- A stale entry past the context fails the reference only; a context length, a
page number or a table beyond the int32 range gives other logits. -/
theorem tilelangDecode_ne :
    (staleEntry.Served ∧ staleEntry.torchDecode keyScoring (fun page _ => page) = .error .indexError ∧
      ∃ logits, staleEntry.tilelangDecode keyScoring (fun page _ => page) true (fun _ _ => 0) (fun _ _ _ => 0)
        staleEntry.grid = .ok logits) ∧
      ∀ call ∈ [longContext, farPage, longTable], call.Served ∧ ∃ reference logits : Nat → Nat → Int,
        call.torchDecode keyScoring (fun page _ => page) = .ok reference ∧
        call.tilelangDecode keyScoring (fun page _ => page) true (fun _ _ => 0) (fun _ _ _ => 0) call.grid = .ok logits ∧
        logits 0 0 ≠ reference 0 0 := by
  have served : ∀ call ∈ [staleEntry, longContext, farPage, longTable], call.Served := by
    intro call member
    simp only [List.mem_cons, List.not_mem_nil, or_false] at member
    rcases member with rfl | rfl | rfl | rfl
    all_goals
      refine ⟨rfl, by decide, by decide, ?_⟩
      intro row inside index below
      simp only [staleEntry, longContext, farPage, longTable, onePosition] at below ⊢
      try split
      all_goals omega
  have readable : ∀ call ∈ [longContext, farPage, longTable], ∀ row < call.batch, ∀ index < call.maxPages,
      call.clamped row index < call.pages := by
    intro call member row inside index bound
    simp only [List.mem_cons, List.not_mem_nil, or_false] at member
    rcases member with rfl | rfl | rfl
    all_goals
      simp only [clamped, longContext, farPage, longTable, onePosition]
      try split
      all_goals omega
  have differs : ∀ call ∈ [longContext, farPage, longTable],
      call.pageLogits 0 0 ≠ call.torchEntry keyScoring (fun page _ => page) 0 0 := by
    intro call member
    simp only [List.mem_cons, List.not_mem_nil, or_false] at member
    rcases member with rfl | rfl | rfl
    · rw [longContext_logits]
      decide +kernel
    · rw [farPage_logits]
      decide +kernel
    · rw [longTable_logits]
      decide +kernel
  constructor
  · have valid := served staleEntry (by simp)
    have raised := @torchDecode_raises _ _ _ keyScoring (fun page _ => page) valid.validated
      ⟨0, by decide, 1, by decide, by decide⟩
    exact ⟨valid, raised, _, tilelangDecode_ok valid (by decide) staleEntry.grid⟩
  · intro call member
    have valid := served call (List.mem_cons_of_mem _ member)
    have nonempty : ¬(call.batch = 0 ∨ call.maxModelLen = 0) := by
      simp only [List.mem_cons, List.not_mem_nil, or_false] at member
      rcases member with rfl | rfl | rfl <;> decide
    exact ⟨valid, _, _, torchDecode_ok valid.validated (readable call member),
      tilelangDecode_ok valid nonempty call.grid, differs call member⟩

end Decode

end FlashNext.Qsa
