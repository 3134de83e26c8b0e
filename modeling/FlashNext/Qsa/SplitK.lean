import FlashNext.Qsa.Prefill
import Mathlib.Tactic.Linarith

namespace FlashNext.Qsa

open FlashNext.Data

theorem int32_eq {value : Int} (lower : -2 ^ 31 ≤ value) (upper : value < 2 ^ 31) : int32 value = value := by
  unfold int32
  omega

theorem int32_nonneg {value : Int} (lower : 0 ≤ value) (upper : value < 2 ^ 31) : int32 value = value :=
  int32_eq (by omega) upper

section Folds

variable {β : Type*} {measure : β → Int} {entries : List β}

theorem foldl_min_le (init : Int) :
    entries.foldl (fun least entry => min least (measure entry)) init ≤ init ∧
      ∀ entry ∈ entries, entries.foldl (fun least entry => min least (measure entry)) init ≤ measure entry := by
  induction entries generalizing init with
  | nil => simp
  | cons head rest ih =>
      obtain ⟨below, members⟩ := ih (min init (measure head))
      simp only [List.foldl_cons, List.mem_cons, forall_eq_or_imp]
      exact ⟨by omega, by omega, members⟩

theorem le_foldl_min {bound init : Int} (start : bound ≤ init) (all : ∀ entry ∈ entries, bound ≤ measure entry) :
    bound ≤ entries.foldl (fun least entry => min least (measure entry)) init := by
  induction entries generalizing init with
  | nil => exact start
  | cons head rest ih =>
      have first := all head (by simp)
      exact ih (le_min start first) fun entry member => all entry (by simp [member])

theorem le_foldl_max (init : Int) :
    init ≤ entries.foldl (fun most entry => max most (measure entry)) init ∧
      ∀ entry ∈ entries, measure entry ≤ entries.foldl (fun most entry => max most (measure entry)) init := by
  induction entries generalizing init with
  | nil => simp
  | cons head rest ih =>
      obtain ⟨above, members⟩ := ih (max init (measure head))
      simp only [List.foldl_cons, List.mem_cons, forall_eq_or_imp]
      exact ⟨by omega, by omega, members⟩

theorem foldl_max_le {bound init : Int} (start : init ≤ bound) (all : ∀ entry ∈ entries, measure entry ≤ bound) :
    entries.foldl (fun most entry => max most (measure entry)) init ≤ bound := by
  induction entries generalizing init with
  | nil => exact start
  | cons head rest ih =>
      have first := all head (by simp)
      exact ih (max_le start first) fun entry member => all entry (by simp [member])

end Folds

namespace Prefill

/-- Calls whose shapes and tile products fit in 32 bits. -/
structure Launchable (call : Prefill) : Prop where
  keysPos : 1 ≤ call.keys
  keysBound : call.keys ≤ 2 ^ 31 - 64
  splitPos : 1 ≤ call.split
  products : ((call.keys + 63) / 64) * call.split < 2 ^ 31
  startsNonneg : ∀ bound ∈ call.rowStarts, 0 ≤ bound
  endsNonneg : ∀ bound ∈ call.rowEnds, 0 ≤ bound

/-- The window bounds fit too: the launch casts them to int32. -/
structure Fits (call : Prefill) : Prop extends call.Launchable where
  startsBound : ∀ bound ∈ call.rowStarts, bound < 2 ^ 31
  endsBound : ∀ bound ∈ call.rowEnds, bound < 2 ^ 31

variable {call : Prefill}

theorem Fits.starts (fits : call.Fits) : ∀ bound ∈ call.rowStarts, 0 ≤ bound ∧ bound < 2 ^ 31 :=
  fun bound member => ⟨fits.startsNonneg bound member, fits.startsBound bound member⟩

theorem Fits.ends (fits : call.Fits) : ∀ bound ∈ call.rowEnds, 0 ≤ bound ∧ bound < 2 ^ 31 :=
  fun bound member => ⟨fits.endsNonneg bound member, fits.endsBound bound member⟩

theorem blockQ_pos (call : Prefill) : 0 < call.blockQ := by
  unfold blockQ
  omega

theorem padded_getD {bounds : List Int} {row : Nat}
    (int : ∀ bound ∈ bounds, 0 ≤ bound ∧ bound < 2 ^ 31) (inside : row < bounds.length) :
    (call.padded bounds).getD row 0 = bounds.getD row 0 := by
  have member : bounds[row] ∈ bounds := List.getElem_mem inside
  have fits := int bounds[row] member
  have mapped : row < (bounds.map int32).length := by simpa using inside
  simp [padded, List.getD_eq_getElem?_getD, List.getElem?_append_left mapped, inside,
    int32_nonneg fits.1 fits.2]

theorem padded_nonneg {bounds : List Int} (int : ∀ bound ∈ bounds, 0 ≤ bound ∧ bound < 2 ^ 31) (row : Nat) :
    0 ≤ (call.padded bounds).getD row 0 := by
  have mapped : ∀ value ∈ bounds.map int32, 0 ≤ value := by
    intro value member
    obtain ⟨bound, inside, rfl⟩ := List.mem_map.mp member
    have fits := int bound inside
    rw [int32_nonneg fits.1 fits.2]
    exact fits.1
  have last : 0 ≤ (bounds.map int32).getLast?.getD 0 := by
    cases found : (bounds.map int32).getLast? with
    | none => simp
    | some value => exact mapped value (List.mem_of_getLast? found)
  rw [List.getD_eq_getElem?_getD]
  cases found : (call.padded bounds)[row]? with
  | none => simp
  | some value =>
      have member := List.mem_of_getElem? found
      rcases List.mem_append.mp member with own | repeated
      · exact mapped value own
      · exact (List.eq_of_mem_replicate repeated).symm ▸ last

section Window

variable (fits : call.Fits)
include fits

theorem starts_nonneg (row : Nat) : 0 ≤ call.starts.getD row 0 := padded_nonneg fits.starts row

theorem ends_nonneg (row : Nat) : 0 ≤ call.ends.getD row 0 := padded_nonneg fits.ends row

theorem starts_eq {row : Nat} (inside : row < call.rows) :
    call.starts.getD row 0 = call.rowStarts.getD row 0 :=
  padded_getD fits.starts (call.startsShape.symm ▸ inside)

theorem ends_eq {row : Nat} (inside : row < call.rows) : call.ends.getD row 0 = call.rowEnds.getD row 0 :=
  padded_getD fits.ends (call.endsShape.symm ▸ inside)

theorem startMin_bounds (bx : Nat) : 0 ≤ call.startMin bx ∧ call.startMin bx ≤ call.keys := by
  have first := (@foldl_min_le Nat (fun qi => min (call.starts.getD (bx * call.blockQ + qi) 0) call.keys)
    (List.range call.blockQ) 2147483647).2 0 (List.mem_range.mpr call.blockQ_pos)
  constructor
  · apply le_foldl_min (by omega)
    intro qi _
    have nonneg := starts_nonneg fits (bx * call.blockQ + qi)
    omega
  · exact first.trans (min_le_right _ _)

theorem endMax_bounds (bx : Nat) : 0 ≤ call.endMax bx ∧ call.endMax bx ≤ call.keys := by
  have first := (@le_foldl_max Nat (fun qi => min (call.ends.getD (bx * call.blockQ + qi) 0) call.keys)
    (List.range call.blockQ) (-2147483648)).2 0 (List.mem_range.mpr call.blockQ_pos)
  have nonneg := ends_nonneg fits (bx * call.blockQ + 0)
  constructor
  · refine le_trans ?_ first
    omega
  · apply foldl_max_le (by omega)
    intro qi _
    exact min_le_right _ _

theorem window_of_row {row : Nat} (inside : row < call.rows) :
    call.startMin (row / call.blockQ) ≤ min (call.rowStarts.getD row 0) call.keys ∧
      min (call.rowEnds.getD row 0) call.keys ≤ call.endMax (row / call.blockQ) := by
  have place : row / call.blockQ * call.blockQ + row % call.blockQ = row := Nat.div_add_mod' row call.blockQ
  have lane : row % call.blockQ ∈ List.range call.blockQ :=
    List.mem_range.mpr (Nat.mod_lt row call.blockQ_pos)
  have least := (@foldl_min_le Nat (fun qi =>
    min (call.starts.getD (row / call.blockQ * call.blockQ + qi) 0) call.keys)
    (List.range call.blockQ) 2147483647).2 _ lane
  have most := (@le_foldl_max Nat (fun qi =>
    min (call.ends.getD (row / call.blockQ * call.blockQ + qi) 0) call.keys)
    (List.range call.blockQ) (-2147483648)).2 _ lane
  rw [place, starts_eq fits inside] at least
  rw [place, ends_eq fits inside] at most
  exact ⟨least, most⟩

theorem tiles_eq (bx : Nat) : call.tiles bx = (call.endMax bx - call.startMin bx + 63) / 64 := by
  obtain ⟨startLower, startUpper⟩ := startMin_bounds fits bx
  obtain ⟨endLower, endUpper⟩ := endMax_bounds fits bx
  have keysBound := fits.keysBound
  have width : int32 (call.endMax bx - call.startMin bx) = call.endMax bx - call.startMin bx :=
    int32_eq (by omega) (by omega)
  simp only [tiles, ceilDiv, blockN, width]
  rw [int32_eq (by omega) (by omega)]
  rfl

theorem product_fits (bx : Nat) {program : Nat} (bound : program ≤ call.split) :
    -2 ^ 31 ≤ call.tiles bx * program ∧ call.tiles bx * program < 2 ^ 31 := by
  obtain ⟨startLower, startUpper⟩ := startMin_bounds fits bx
  obtain ⟨endLower, endUpper⟩ := endMax_bounds fits bx
  have products := fits.products
  -- the tile count of any window is at most that of all keys, either way
  have upper : call.tiles bx ≤ ((call.keys + 63) / 64 : Nat) := by
    rw [tiles_eq fits]
    omega
  have lower : -((call.keys + 63) / 64 : Nat) ≤ call.tiles bx := by
    rw [tiles_eq fits]
    omega
  have count : (0 : Int) ≤ ((call.keys + 63) / 64 : Nat) := Int.natCast_nonneg _
  have share : (((call.keys + 63) / 64 : Nat) : Int) * program ≤ ((call.keys + 63) / 64 : Nat) * call.split :=
    Int.mul_le_mul_of_nonneg_left (by omega) count
  have most : call.tiles bx * program ≤ ((call.keys + 63) / 64 : Nat) * program :=
    Int.mul_le_mul_of_nonneg_right upper (Int.natCast_nonneg program)
  have least : -((call.keys + 63) / 64 : Nat) * (program : Int) ≤ call.tiles bx * program :=
    Int.mul_le_mul_of_nonneg_right lower (Int.natCast_nonneg program)
  rw [Int.neg_mul] at least
  have room : (((call.keys + 63) / 64 : Nat) : Int) * call.split < 2 ^ 31 := by exact_mod_cast products
  omega

theorem program_fits {by_ : Nat} (bound : by_ < call.split) : int32 ((by_ : Int) + 1) = (by_ + 1 : Nat) := by
  have products := fits.products
  have keysPos := fits.keysPos
  have some_ : 1 ≤ (call.keys + 63) / 64 := by omega
  have splitBound : call.split < 2 ^ 31 :=
    Nat.lt_of_le_of_lt (Nat.le_mul_of_pos_left call.split some_) products
  exact int32_eq (by omega) (by omega)

theorem loT_eq (bx : Nat) {by_ : Nat} (bound : by_ < call.split) :
    call.loT bx by_ = cut (call.tiles bx) call.split by_ := by
  obtain ⟨lower, upper⟩ := product_fits fits bx (Nat.le_of_lt bound)
  rw [loT, int32_eq lower upper, cut]

theorem hiT_eq (bx : Nat) {by_ : Nat} (bound : by_ < call.split) :
    call.hiT bx by_ = cut (call.tiles bx) call.split (by_ + 1) := by
  obtain ⟨lower, upper⟩ := product_fits fits bx (Nat.succ_le_of_lt bound)
  rw [hiT, program_fits fits bound, int32_eq lower upper, cut]

theorem tile_bounds (bx : Nat) {by_ ni : Nat} (bound : by_ < call.split)
    (tile : ni < (call.hiT bx by_ - call.loT bx by_).toNat) :
    0 ≤ call.loT bx by_ ∧ call.loT bx by_ + ni < call.tiles bx := by
  have lo := loT_eq fits bx bound
  have hi := hiT_eq fits bx bound
  have share : cut (call.tiles bx) call.split by_ < cut (call.tiles bx) call.split (by_ + 1) := by omega
  have nonneg := nonneg_of_share (le_refl _) share
  have first : cut (call.tiles bx) call.split 0 ≤ cut (call.tiles bx) call.split by_ :=
    cut_mono nonneg (Nat.zero_le _)
  have last : cut (call.tiles bx) call.split (by_ + 1) ≤ cut (call.tiles bx) call.split call.split :=
    cut_mono nonneg (Nat.succ_le_of_lt bound)
  rw [cut_zero] at first
  rw [cut_last fits.splitPos] at last
  omega

theorem offset_eq (bx : Nat) {by_ ni : Nat} (bound : by_ < call.split)
    (tile : ni < (call.hiT bx by_ - call.loT bx by_).toNat) :
    int32 (int32 (call.loT bx by_ + ni) * 64) = (call.loT bx by_ + ni) * 64 := by
  obtain ⟨startLower, _⟩ := startMin_bounds fits bx
  obtain ⟨_, endUpper⟩ := endMax_bounds fits bx
  obtain ⟨lower, upper⟩ := tile_bounds fits bx bound tile
  have keysBound := fits.keysBound
  have count := tiles_eq fits bx
  have step : int32 (call.loT bx by_ + ni) = call.loT bx by_ + ni := int32_eq (by omega) (by omega)
  rw [step]
  exact int32_eq (by omega) (by omega)

theorem column_eq (bx : Nat) {by_ ni n : Nat} (bound : by_ < call.split)
    (tile : ni < (call.hiT bx by_ - call.loT bx by_).toNat) (lane : n < 64) :
    int32 (call.tileStart bx by_ ni + n) = call.startMin bx + (call.loT bx by_ + ni) * 64 + n := by
  obtain ⟨startLower, _⟩ := startMin_bounds fits bx
  obtain ⟨_, endUpper⟩ := endMax_bounds fits bx
  obtain ⟨lower, upper⟩ := tile_bounds fits bx bound tile
  have keysBound := fits.keysBound
  have count := tiles_eq fits bx
  have start : call.tileStart bx by_ ni = call.startMin bx + (call.loT bx by_ + ni) * 64 := by
    calc call.tileStart bx by_ ni
        = int32 (call.startMin bx + (call.loT bx by_ + ni) * 64) :=
          congrArg int32 (congrArg (call.startMin bx + ·) (offset_eq fits bx bound tile))
      _ = call.startMin bx + (call.loT bx by_ + ni) * 64 := int32_eq (by omega) (by omega)
  rw [start]
  exact int32_eq (by omega) (by omega)

theorem mem_ctaStores {α : Type*} {scoring : Scoring α} {bx by_ : Nat} (bound : by_ < call.split)
    {write : (Nat × Int) × α} :
    write ∈ call.ctaStores scoring (bx, by_) ↔
      write.1.1 / call.blockQ = bx ∧ call.loT bx by_ ≤ (write.1.2 - call.startMin bx) / 64 ∧
        (write.1.2 - call.startMin bx) / 64 < call.hiT bx by_ ∧
        write.2 = call.reduced scoring write.1.1 write.1.2 := by
  obtain ⟨⟨row, column⟩, value⟩ := write
  constructor
  · intro member
    simp only [ctaStores] at member
    split at member
    · simp only [List.mem_flatMap, List.mem_map, List.mem_range, blockN] at member
      obtain ⟨ni, tile, qi, inBlock, n, lane, same⟩ := member
      have exact_ := column_eq fits bx bound tile lane
      rw [exact_] at same
      cases same
      dsimp only
      refine ⟨?_, by omega, by omega, rfl⟩
      apply Nat.div_eq_of_lt_le
      · omega
      · rw [Nat.succ_mul]
        omega
    · cases member
  · intro holds
    obtain ⟨rowBlock, lower, upper, same⟩ := holds
    dsimp only at rowBlock lower upper same
    simp only [ctaStores]
    rw [if_pos (by omega)]
    simp only [List.mem_flatMap, List.mem_map, List.mem_range, blockN]
    have tile : ((column - call.startMin bx) / 64 - call.loT bx by_).toNat <
        (call.hiT bx by_ - call.loT bx by_).toNat := by omega
    have lane : ((column - call.startMin bx) % 64).toNat < 64 := by omega
    have exact_ := column_eq fits bx bound tile lane
    have place : bx * call.blockQ + row % call.blockQ = row := by
      rw [← rowBlock]
      exact Nat.div_add_mod' row call.blockQ
    have key : int32 (call.tileStart bx by_ ((column - call.startMin bx) / 64 - call.loT bx by_).toNat +
        ((column - call.startMin bx) % 64).toNat) = column := by
      rw [exact_]
      omega
    refine ⟨_, tile, row % call.blockQ, Nat.mod_lt row call.blockQ_pos, _, lane, ?_⟩
    rw [place, key, ← same]

end Window

end Prefill

end FlashNext.Qsa
