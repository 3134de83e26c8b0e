import FlashNext.ColdPool.Tables

namespace FlashNext.ColdPool

open FlashNext.Data

/-- `(id << 16) | low`, as an int32 word. -/
def packWord (id : Int) (low : BitVec 16) : BitVec 32 := (BitVec.ofInt 32 id <<< 16) ||| low.zeroExtend 32

def packedIndex (table : List Nat) (word : BitVec 32) : Nat :=
  min (word.sshiftRight 16 &&& 0xFFFF#32).toNat (table.length - 1)

def plainIndex (table : List Nat) (id : Int) : Nat := min (max id 0).toNat (table.length - 1)

section Words

variable {id other : Nat} {low : BitVec 16}

theorem packWord_toNat (small : id < 2 ^ 15) : (packWord id low).toNat = id * 2 ^ 16 + low.toNat := by
  have lowBound := low.isLt
  have high : (BitVec.ofInt 32 (id : Int) <<< 16).toNat = id <<< 16 := by
    simp only [BitVec.ofInt_natCast, BitVec.toNat_shiftLeft, BitVec.toNat_ofNat, Nat.shiftLeft_eq]
    omega
  have lowSame : (low.zeroExtend 32).toNat = low.toNat := by
    rw [BitVec.toNat_setWidth]
    exact Nat.mod_eq_of_lt (by omega)
  rw [packWord, BitVec.toNat_or, high, lowSame, ← Nat.shiftLeft_add_eq_or_of_lt lowBound, Nat.shiftLeft_eq]

theorem packWord_nonneg (small : id < 2 ^ 15) : (0 : Int) ≤ (packWord id low).toInt := by
  have lowBound := low.isLt
  have value := @packWord_toNat id low small
  rw [BitVec.toInt_eq_toNat_cond, if_pos (by omega)]
  exact Int.natCast_nonneg _

theorem packWord_high (small : id < 2 ^ 15) :
    ((packWord id low).sshiftRight 16 &&& 0xFFFF#32).toNat = id := by
  have lowBound := low.isLt
  have value := @packWord_toNat id low small
  have sign : (packWord id low).msb = false := by
    rw [BitVec.msb_eq_decide]
    exact decide_eq_false (by omega)
  rw [BitVec.sshiftRight_eq_of_msb_false sign, BitVec.toNat_and, BitVec.toNat_ushiftRight, value]
  have mask : (0xFFFF#32).toNat = 2 ^ 16 - 1 := rfl
  rw [mask, Nat.and_two_pow_sub_one_eq_mod, Nat.shiftRight_eq_div_pow]
  omega

theorem packWord_low (small : id < 2 ^ 15) : packWord id low &&& 0xFFFF#32 = low.zeroExtend 32 := by
  have lowBound := low.isLt
  apply BitVec.eq_of_toNat_eq
  have mask : (0xFFFF#32).toNat = 2 ^ 16 - 1 := rfl
  rw [BitVec.toNat_and, packWord_toNat small, mask, Nat.and_two_pow_sub_one_eq_mod, BitVec.toNat_setWidth]
  omega

theorem packWord_inj (small : id < 2 ^ 15) (otherSmall : other < 2 ^ 15)
    (same : packWord id low = packWord other low) : id = other := by
  have numbers := congrArg BitVec.toNat same
  rw [packWord_toNat small, packWord_toNat otherSmall] at numbers
  omega

theorem packWord_padding (low : BitVec 16) : (packWord (-1) low).toInt < 0 := by
  have sign : (packWord (-1) low).msb = true := by
    rw [packWord, BitVec.msb_or]
    have high : (BitVec.ofInt 32 (-1) <<< 16 : BitVec 32).msb = true := by decide
    rw [high, Bool.true_or]
  rw [BitVec.toInt_eq_msb_cond, if_pos sign]
  have bound := (packWord (-1) low).isLt
  omega

end Words

/-- A device's table of a shrunk layer, its rows below 2^15. -/
structure Laned (tables : Tables) (layer device : Nat) (table : List Nat) : Prop where
  found : tables.remap.get? layer = some ⟨device, table⟩
  nonempty : table ≠ []
  small : ∀ row ∈ table, row < 2 ^ 15

/-- A router id, padding or an id that fits in the high half. -/
def LaneId (id : Int) : Prop := id = -1 ∨ (0 ≤ id ∧ id < 2 ^ 15)

/-- What the lanes agree on: an id the table covers, padding, and an id past its
end that is the last row. -/
def Symmetric (table : List Nat) (id : Int) : Prop :=
  id < table.length ∨ id = (table.getD (table.length - 1) 0 : Nat)

instance (table : List Nat) (id : Int) : Decidable (Symmetric table id) :=
  inferInstanceAs (Decidable (_ ∨ _))

variable {tables : Tables} {layer device : Nat} {table : List Nat}

theorem Laned.remapOrNone (laned : Laned tables layer device table) :
    remapOrNone true tables layer device = some table := by
  simp [ColdPool.remapOrNone, laned.found]

theorem Laned.row_lt (laned : Laned tables layer device table) (index : Nat) : table.getD index 0 < 2 ^ 15 := by
  rw [List.getD_eq_getElem?_getD]
  cases found : table[index]? with
  | none => exact Nat.two_pow_pos 15
  | some row => exact laned.small row (List.mem_of_getElem? found)

theorem remapTopkIds_single (laned : Laned tables layer device table) (id : Int) :
    remapTopkIds true tables (some layer) device [id] =
      [if 0 ≤ id ∧ id < table.length then ((table.getD id.toNat 0 : Nat) : Int) else id] := by
  have positive := List.length_pos_iff.mpr laned.nonempty
  simp only [remapTopkIds, Option.bind_some, laned.remapOrNone, List.map_cons, List.map_nil]
  congr 1
  by_cases covered : 0 ≤ id ∧ id < table.length
  · have place : (max id 0).toNat = id.toNat := by omega
    have clamped : min id.toNat (table.length - 1) = id.toNat := by omega
    rw [if_pos covered, if_pos (by omega), place, clamped, List.getD_eq_getElem?_getD]
  · rw [if_neg covered, if_neg (by omega)]

theorem remapPackedIds_single (laned : Laned tables layer device table) {id : Nat} (small : id < 2 ^ 15)
    (low : BitVec 16) :
    remapPackedIds true tables (some layer) device [packWord id low] =
      [packWord (table.getD (min id (table.length - 1)) 0 : Nat) low] := by
  simp only [remapPackedIds, Option.bind_some, laned.remapOrNone, List.map_cons, List.map_nil]
  rw [if_pos (packWord_nonneg small), packWord_high small, packWord_low small, packWord,
    BitVec.ofInt_natCast, List.getD_eq_getElem?_getD]

theorem remapPackedIds_padding (tables : Tables) (layer : Option Nat) (device : Nat) (low : BitVec 16) :
    remapPackedIds true tables layer device [packWord (-1) low] = [packWord (-1) low] := by
  have negative := packWord_padding low
  unfold remapPackedIds
  split
  · rfl
  · rw [List.map_cons, List.map_nil, if_neg (by omega)]

/-- The lanes send an id to the same row exactly when it is symmetric, and
neither reads outside the table. -/
theorem lanes_agree_iff (laned : Laned tables layer device table) {id : Int} (fits : LaneId id)
    (low : BitVec 16) :
    (remapPackedIds true tables (some layer) device [packWord id low] =
        (remapTopkIds true tables (some layer) device [id]).map (packWord · low) ↔ Symmetric table id) ∧
      packedIndex table (packWord id low) < table.length ∧ plainIndex table id < table.length := by
  have positive := List.length_pos_iff.mpr laned.nonempty
  refine ⟨?_, ?_, ?_⟩
  · rw [remapTopkIds_single laned]
    rcases fits with rfl | ⟨nonneg, small⟩
    · rw [remapPackedIds_padding, if_neg (by omega)]
      exact ⟨fun _ => Or.inl (by omega), fun _ => rfl⟩
    · obtain ⟨id, rfl⟩ := Int.eq_ofNat_of_zero_le nonneg
      have idSmall : id < 2 ^ 15 := by omega
      rw [remapPackedIds_single laned idSmall, List.map_cons, List.map_nil, List.cons.injEq,
        and_iff_left rfl, Symmetric]
      by_cases covered : (id : Int) < table.length
      · have clamped : min id (table.length - 1) = id := by omega
        rw [if_pos ⟨nonneg, covered⟩, clamped]
        exact ⟨fun _ => Or.inl covered, fun _ => rfl⟩
      · have clamped : min id (table.length - 1) = table.length - 1 := by omega
        rw [if_neg (fun both => covered both.2), clamped]
        constructor
        · intro same
          exact Or.inr (congrArg Int.ofNat (packWord_inj (laned.row_lt _) idSmall same).symm)
        · intro symmetric
          rcases symmetric with inside | last
          · exact absurd inside covered
          · rw [← last]
  · exact Nat.lt_of_le_of_lt (Nat.min_le_right _ _) (by omega)
  · exact Nat.lt_of_le_of_lt (Nat.min_le_right _ _) (by omega)

def pairTables : Tables := ⟨.empty, ⟨[(0, ⟨0, [0, 1]⟩)], by decide⟩⟩

theorem pairTables_laned : Laned pairTables 0 0 [0, 1] where
  found := by decide
  nonempty := by decide
  small := by decide

theorem lanes_agree_covered :
    remapPackedIds true pairTables (some 0) 0 [packWord 1 5] =
      (remapTopkIds true pairTables (some 0) 0 [1]).map (packWord · 5) :=
  (lanes_agree_iff pairTables_laned (Or.inr ⟨by decide, by decide⟩) 5).1.mpr (by decide)

/-- The first fused-shared id is passed through by one lane and sent to row 1
by the other. -/
theorem lanes_differ :
    ¬ ∀ (tables : Tables) (layer device : Nat) (table : List Nat), Laned tables layer device table →
      ∀ (id : Int), LaneId id → ∀ low : BitVec 16,
        remapPackedIds true tables (some layer) device [packWord id low] =
          (remapTopkIds true tables (some layer) device [id]).map (packWord · low) := by
  intro agree
  have same := agree pairTables 0 0 [0, 1] pairTables_laned 2 (Or.inr ⟨by decide, by decide⟩) 0
  exact absurd same (by decide)

end FlashNext.ColdPool
