import FlashNext.Qsa.SplitK
import Mathlib.Data.List.Perm.Basic

namespace FlashNext.Qsa

open FlashNext.Data

namespace Prefill

variable {call : Prefill} {α : Type*} {scoring : Scoring α}

theorem mem_maskStores {bx : Nat} {write : (Nat × Int) × α} (member : write ∈ call.maskStores scoring bx) :
    write.1.1 = bx ∧ (write.1.2 < call.starts.getD bx 0 ∨ call.ends.getD bx 0 ≤ write.1.2) ∧
      write.2 = scoring.negInf := by
  simp only [maskStores, List.mem_flatMap, List.mem_filterMap] at member
  obtain ⟨block, _, item, _, tx, _, same⟩ := member
  split at same
  · next outside =>
      cases same
      exact ⟨rfl, outside, rfl⟩
  · cases same

theorem maskStores_covers {bx column : Nat} (bound : call.keys ≤ 2 ^ 31 - 4096) (inside : column < call.keys)
    (outside : (column : Int) < call.starts.getD bx 0 ∨ call.ends.getD bx 0 ≤ column) :
    ((bx, (column : Int)), scoring.negInf) ∈ call.maskStores scoring bx := by
  have blocks : ceilDiv call.keys 4096 = (call.keys + 4095) / 4096 := by
    rw [ceilDiv, int32_eq (by omega) (by omega)]
    rfl
  have offset : int32 ((column / 4096 : Nat) * 4096) = (column / 4096 : Nat) * 4096 :=
    int32_eq (by omega) (by omega)
  have place : int32 (int32 ((column / 4096 : Nat) * 4096) + (column % 4096 / 512 : Nat) * 512 +
      (column % 512 : Nat)) = column := by
    rw [offset, int32_eq (by omega) (by omega)]
    omega
  simp only [maskStores, List.mem_flatMap, List.mem_filterMap, List.mem_range]
  refine ⟨column / 4096, ?_, column % 4096 / 512, by omega, column % 512, by omega, ?_⟩
  · rw [blocks]
    omega
  · rw [place, if_pos outside]

theorem tilelangPrefill_masked {order : List (Nat × Nat)} {row column : Nat} (row_lt : row < call.rows)
    (bound : call.keys ≤ 2 ^ 31 - 4096) (column_lt : column < call.keys)
    (outside : (column : Int) < call.starts.getD row 0 ∨ call.ends.getD row 0 ≤ column) :
    call.tilelangPrefill scoring order row column = scoring.negInf := by
  have shape : ¬ (call.rows = 0 ∨ call.keys = 0) := by omega
  rw [tilelangPrefill, if_neg shape]
  apply @storeAll_of_mem _ _ _ _ _ _ fun _ => scoring.negInf
  · intro write member
    obtain ⟨bx, _, stored⟩ := List.mem_flatMap.mp (List.mem_filter.mp member).1
    exact (mem_maskStores stored).2.2
  · refine ⟨((row, (column : Int)), scoring.negInf), ?_, rfl⟩
    refine List.mem_filter.mpr ⟨?_, by simp [inShape, row_lt, column_lt]⟩
    exact List.mem_flatMap.mpr ⟨row, List.mem_range.mpr row_lt, maskStores_covers bound column_lt outside⟩

theorem tilelangPrefill_unmasked {order : List (Nat × Nat)} {row column : Nat} (row_lt : row < call.rows)
    (column_lt : column < call.keys) (lower : call.starts.getD row 0 ≤ column)
    (upper : (column : Int) < call.ends.getD row 0) :
    call.tilelangPrefill scoring order row column =
      scoring.scaled (call.prefillKernel scoring order (row, (column : Int))) := by
  have shape : ¬ (call.rows = 0 ∨ call.keys = 0) := by omega
  rw [tilelangPrefill, if_neg shape]
  apply storeAll_of_not_mem
  intro write member same
  obtain ⟨bx, _, stored⟩ := List.mem_flatMap.mp (List.mem_filter.mp member).1
  obtain ⟨rowBlock, outside, _⟩ := mem_maskStores stored
  rw [same] at rowBlock outside
  cases rowBlock
  dsimp only at outside
  omega

def Stores (call : Prefill) (scoring : Scoring α) (cta : Nat × Nat) (position : Nat × Int) : Prop :=
  ∃ write ∈ call.ctaStores scoring cta, write.1 = position

theorem mem_grid {cta : Nat × Nat} :
    cta ∈ call.grid ↔ cta.1 < (call.paddedRows + call.blockQ - 1) / call.blockQ ∧ cta.2 < call.split := by
  obtain ⟨bx, by_⟩ := cta
  simp [grid]

theorem block_lt_grid {row : Nat} (row_lt : row < call.rows) :
    row / call.blockQ < (call.paddedRows + call.blockQ - 1) / call.blockQ := by
  have positive := call.blockQ_pos
  rw [Nat.div_lt_iff_lt_mul positive]
  have whole := Nat.div_add_mod' (call.paddedRows + call.blockQ - 1) call.blockQ
  have rest := Nat.mod_lt (call.paddedRows + call.blockQ - 1) positive
  have padded : call.rows ≤ call.paddedRows := Nat.le_add_right _ _
  omega

section Window

variable (fits : call.Fits)
include fits

theorem stores_unique {first second : Nat × Nat} {position : Nat × Int} (left : first ∈ call.grid)
    (right : second ∈ call.grid) (one : call.Stores scoring first position)
    (other : call.Stores scoring second position) : first = second := by
  obtain ⟨bx, by_⟩ := first
  obtain ⟨bx', by'⟩ := second
  obtain ⟨write, stored, rfl⟩ := one
  obtain ⟨write', stored', same⟩ := other
  have bound : by_ < call.split := (mem_grid.mp left).2
  have bound' : by' < call.split := (mem_grid.mp right).2
  obtain ⟨block, lower, upper, _⟩ := (mem_ctaStores fits bound).mp stored
  obtain ⟨block', lower', upper', _⟩ := (mem_ctaStores fits bound').mp stored'
  rw [same] at block' lower' upper'
  cases block.symm.trans block'
  rw [loT_eq fits bx bound] at lower
  rw [hiT_eq fits bx bound] at upper
  rw [loT_eq fits bx bound'] at lower'
  rw [hiT_eq fits bx bound'] at upper'
  rw [share_unique ⟨lower, upper⟩ ⟨lower', upper'⟩]

theorem stores_window {row column : Nat} (row_lt : row < call.rows) (column_lt : column < call.keys)
    (lower : call.rowStarts.getD row 0 ≤ column) (upper : (column : Int) < call.rowEnds.getD row 0) :
    ∃ cta ∈ call.grid, call.Stores scoring cta (row, (column : Int)) := by
  obtain ⟨startMin_le, le_endMax⟩ := window_of_row fits row_lt
  have count := tiles_eq fits (row / call.blockQ)
  obtain ⟨by_, bound, share⟩ := @exists_share (call.tiles (row / call.blockQ)) call.split fits.splitPos
    (((column : Int) - call.startMin (row / call.blockQ)) / 64) (by omega) (by omega)
  rw [← loT_eq fits _ bound, ← hiT_eq fits _ bound] at share
  refine ⟨(row / call.blockQ, by_), mem_grid.mpr ⟨block_lt_grid row_lt, bound⟩, ?_⟩
  refine ⟨((row, (column : Int)), call.reduced scoring row column), ?_, rfl⟩
  rw [mem_ctaStores fits bound]
  exact ⟨rfl, share.1, share.2, rfl⟩

theorem prefillKernel_window {order : List (Nat × Nat)} (launched : order.Perm call.grid) {row column : Nat}
    (row_lt : row < call.rows) (column_lt : column < call.keys)
    (lower : call.rowStarts.getD row 0 ≤ column) (upper : (column : Int) < call.rowEnds.getD row 0) :
    call.prefillKernel scoring order (row, (column : Int)) = scoring.score row column := by
  have padded : row < call.paddedRows := Nat.lt_of_lt_of_le row_lt (Nat.le_add_right _ _)
  have stored : call.prefillKernel scoring order (row, (column : Int)) = call.reduced scoring row column := by
    rw [prefillKernel]
    refine @storeAll_of_mem _ _ _ _ _ (row, (column : Int))
      (fun position => call.reduced scoring position.1 position.2) ?_ ?_
    · intro write member
      obtain ⟨⟨bx, by_⟩, runs, stored⟩ := List.mem_flatMap.mp (List.mem_filter.mp member).1
      have bound : by_ < call.split := (mem_grid.mp (launched.subset runs)).2
      exact ((mem_ctaStores fits bound).mp stored).2.2.2
    · obtain ⟨cta, runs, write, stored, same⟩ := @stores_window _ _ scoring fits _ _ row_lt column_lt lower upper
      refine ⟨write, List.mem_filter.mpr ⟨?_, ?_⟩, same⟩
      · exact List.mem_flatMap.mpr ⟨cta, launched.mem_iff.mpr runs, stored⟩
      · simp [same, inShape, padded, column_lt]
  rw [stored, reduced, if_pos ⟨row_lt, by omega, by omega⟩, Int.toNat_natCast]

/-- The launch computes the reference, its CTAs run in any order.  Outside a
window this needs the mask kernel's block count to fit as well. -/
theorem tilelangPrefill_eq {order : List (Nat × Nat)} (launched : order.Perm call.grid) (scoring : Scoring α) :
    (∀ row < call.rows, ∀ column < call.keys,
      (call.keys ≤ 2 ^ 31 - 4096 ∨
        (call.rowStarts.getD row 0 ≤ column ∧ (column : Int) < call.rowEnds.getD row 0)) →
      call.tilelangPrefill scoring order row column = call.torchPrefill scoring row column) ∧
    (∀ first ∈ call.grid, ∀ second ∈ call.grid, ∀ position, call.Stores scoring first position →
      call.Stores scoring second position → first = second) ∧
    (∀ row < call.rows, ∀ column < call.keys, call.rowStarts.getD row 0 ≤ column →
      (column : Int) < call.rowEnds.getD row 0 → ∃ cta ∈ call.grid, call.Stores scoring cta (row, (column : Int))) ∧
    (∀ first second position, (∃ write ∈ call.maskStores scoring first, write.1 = position) →
      (∃ write ∈ call.maskStores scoring second, write.1 = position) → first = second) ∧
    (∀ cta ∈ call.grid, int32 (call.tiles cta.1 * cta.2) = call.tiles cta.1 * cta.2 ∧
      int32 (call.tiles cta.1 * int32 (cta.2 + 1)) = call.tiles cta.1 * (cta.2 + 1) ∧
      ∀ ni < (call.hiT cta.1 cta.2 - call.loT cta.1 cta.2).toNat,
        int32 (int32 (call.loT cta.1 cta.2 + ni) * blockN) = (call.loT cta.1 cta.2 + ni) * blockN) := by
  refine ⟨?_, ?_, ?_, ?_, ?_⟩
  · intro row row_lt column column_lt fitting
    have starts := starts_eq fits row_lt
    have ends := ends_eq fits row_lt
    unfold torchPrefill
    split
    · next window =>
        rw [tilelangPrefill_unmasked row_lt column_lt (by omega) (by omega),
          prefillKernel_window fits launched row_lt column_lt window.1 window.2]
    · next outside =>
        rcases fitting with bound | window
        · exact tilelangPrefill_masked row_lt bound column_lt (by omega)
        · exact absurd window outside
  · intro first left second right position
    exact stores_unique fits left right
  · intro row row_lt column column_lt
    exact stores_window fits row_lt column_lt
  · intro first second position one other
    obtain ⟨write, stored, rfl⟩ := one
    obtain ⟨write', stored', same⟩ := other
    rw [← (mem_maskStores stored).1, ← (mem_maskStores stored').1, same]
  · intro cta runs
    have bound := (mem_grid.mp runs).2
    have before := product_fits fits cta.1 (Nat.le_of_lt bound)
    have after := product_fits fits cta.1 (Nat.succ_le_of_lt bound)
    refine ⟨int32_eq before.1 before.2, ?_, ?_⟩
    · rw [program_fits fits bound]
      exact int32_eq after.1 after.2
    · intro ni tile
      exact offset_eq fits cta.1 bound tile

end Window

def unitScoring : Scoring Int := ⟨fun _ _ => 1, id, 0, -1⟩

def smallPrefill : Prefill := ⟨2, 70, 64, 2, [0, 68], [66, 90], rfl, rfl⟩

theorem smallPrefill_eq :
    smallPrefill.tilelangPrefill unitScoring smallPrefill.grid.reverse 1 69 =
      smallPrefill.torchPrefill unitScoring 1 69 := by
  have fits : smallPrefill.Fits :=
    { keysPos := by decide, keysBound := by decide, splitPos := by decide, products := by decide,
      startsNonneg := by decide, endsNonneg := by decide, startsBound := by decide, endsBound := by decide }
  have launched : smallPrefill.grid.reverse.Perm smallPrefill.grid := List.reverse_perm _
  exact (tilelangPrefill_eq fits launched unitScoring).1 1 (by decide) 69 (by decide) (Or.inl (by decide))

def wrappedEnd : Prefill := ⟨1, 1, 128, 1, [0], [2 ^ 31], rfl, rfl⟩

/-- An empty window over more keys than the mask kernel can count blocks of. -/
def longKeys : Prefill := ⟨1, 2 ^ 31 - 64, 128, 1, [0], [0], rfl, rfl⟩

/-- The one entry is masked, the other stays zero. -/
theorem tilelangPrefill_ne :
    (wrappedEnd.Launchable ∧ wrappedEnd.tilelangPrefill unitScoring wrappedEnd.grid 0 0 ≠
      wrappedEnd.torchPrefill unitScoring 0 0) ∧
    (longKeys.Launchable ∧ longKeys.tilelangPrefill unitScoring longKeys.grid 0 0 ≠
      longKeys.torchPrefill unitScoring 0 0) := by
  refine ⟨⟨?_, ?_⟩, ?_, ?_⟩
  · exact { keysPos := by decide, keysBound := by decide, splitPos := by decide, products := by decide,
            startsNonneg := by decide, endsNonneg := by decide }
  · rw [tilelangPrefill_masked (by decide) (by decide) (by decide) (Or.inr (by decide))]
    decide
  · exact { keysPos := by decide, keysBound := by decide, splitPos := by decide, products := by decide,
            startsNonneg := by decide, endsNonneg := by decide }
  · decide +kernel

end Prefill

end FlashNext.Qsa
