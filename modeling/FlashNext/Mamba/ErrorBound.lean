import FlashNext.Mamba.Snapshots
import Mathlib.Algebra.Order.Floor.Ring
import Mathlib.Data.Rat.Floor
import Mathlib.Tactic.FieldSimp
import Mathlib.Tactic.Linarith

namespace FlashNext.Mamba

/-- `torch.round`: to the nearest integer, ties to even. -/
def roundHalfEven (value : ℚ) : Int :=
  let below := ⌊value⌋
  if value - below < 1 / 2 then below else
  if 1 / 2 < value - below then below + 1 else
  if below % 2 = 0 then below else below + 1

/-- Exact arithmetic but for the format of the scales. -/
def exactArith (rounded : ℚ → ℚ) : Arithmetic ℚ where
  toFloat32 := id
  toState := rounded
  toScale := rounded
  toOut := id
  toInt8 value := ⌊value⌋
  ofInt value := value
  abs := abs
  max := max
  min := min
  div value divisor := value / divisor
  mul value factor := value * factor
  round value := roundHalfEven value
  tiny := 1 / 10 ^ 8

/-- The largest magnitude in a channel of a head, at least `1e-8`. -/
def channelMax (head : List (List ℚ)) (channel : Nat) : ℚ :=
  head.foldr (fun row most => max |row.getD channel 0| most) (1 / 10 ^ 8)

def entry {α : Type} (state : List (List (List α))) (head row channel : Nat) : Option α :=
  state[head]?.bind fun rows => rows[row]?.bind fun values => values[channel]?

theorem abs_sub_roundHalfEven (value : ℚ) : |value - roundHalfEven value| ≤ 1 / 2 := by
  have low := Int.floor_le value
  have high := Int.lt_floor_add_one value
  rw [abs_le]
  simp only [roundHalfEven]
  split
  · constructor <;> linarith
  · split
    · push_cast
      constructor <;> linarith
    · split
      · constructor <;> linarith
      · push_cast
        constructor <;> linarith

theorem roundHalfEven_zero : roundHalfEven 0 = 0 := by
  simp [roundHalfEven]

/-- What is less than half above a whole number does not round past it. -/
theorem abs_roundHalfEven_le {value : ℚ} {bound : Int} (near : |value| < bound + 1 / 2) : |roundHalfEven value| ≤ bound := by
  have close := abs_le.mp (abs_sub_roundHalfEven value)
  have inside := abs_lt.mp near
  have above : (roundHalfEven value : ℚ) < bound + 1 := by linarith
  have below : -((bound : ℚ) + 1) < roundHalfEven value := by linarith
  have upper : roundHalfEven value < bound + 1 := by exact_mod_cast above
  have lower : -(bound + 1) < roundHalfEven value := by exact_mod_cast below
  rw [abs_le]
  omega

section Channel

variable {rounded : ℚ → ℚ} {head : List (List ℚ)} {channel : Nat}

theorem foldl_max_channel (rows : List (List ℚ)) (most least : ℚ) :
    max (rows.foldl (fun most row => max most |row.getD channel 0|) most) least =
      max most (rows.foldr (fun row most => max |row.getD channel 0| most) least) := by
  induction rows generalizing most with
  | nil => rfl
  | cons row rest ih => rw [List.foldl_cons, ih, List.foldr_cons, max_assoc]

theorem foldl_amax (rows : List (List ℚ)) (wide : ∀ row ∈ rows, channel < row.length) {found : List ℚ} {most : ℚ}
    (here : found[channel]? = some most) :
    (rows.foldl (fun most row => List.zipWith max most (row.map abs)) found)[channel]? =
      some (rows.foldl (fun most row => max most |row.getD channel 0|) most) := by
  induction rows generalizing found most with
  | nil => exact here
  | cons row rest ih =>
      have value := List.getElem?_eq_getElem (wide row List.mem_cons_self)
      apply ih fun row member => wide row (List.mem_cons_of_mem _ member)
      simp [List.getElem?_zipWith, here, value, List.getD_eq_getElem?_getD]

theorem scaleRow_exact (some_ : head ≠ []) (wide : ∀ row ∈ head, channel < row.length) :
    (scaleRow (exactArith rounded) head)[channel]? = some (rounded (channelMax head channel / 127)) := by
  cases head with
  | nil => exact absurd rfl some_
  | cons first rest =>
      have value := List.getElem?_eq_getElem (wide first List.mem_cons_self)
      have start : (first.map abs)[channel]? = some |first.getD channel 0| := by
        rw [List.getElem?_map, value, List.getD_eq_getElem?_getD, value]
        rfl
      have all := foldl_amax rest (fun row member => wide row (List.mem_cons_of_mem _ member)) start
      have most := @foldl_max_channel channel rest |first.getD channel 0| (1 / 10 ^ 8)
      have same : (first :: rest).map (·.map (exactArith rounded).toFloat32) = first :: rest := by
        simp [exactArith]
      rw [scaleRow, same, List.getElem?_map]
      change Option.map _ (rest.foldl (fun most row => List.zipWith max most (row.map abs)) (first.map abs))[channel]? = _
      rw [all, Option.map_some]
      change some (rounded (max _ (1 / 10 ^ 8) / ((127 : Int) : ℚ))) = _
      rw [most]
      rfl

theorem le_channelMax {row : List ℚ} (member : row ∈ head) : |row.getD channel 0| ≤ channelMax head channel := by
  induction head with
  | nil => cases member
  | cons first rest ih =>
      rw [channelMax, List.foldr_cons]
      cases List.mem_cons.mp member with
      | inl here => exact here ▸ le_max_left _ _
      | inr later => exact (ih later).trans (le_max_right _ _)

theorem channelMax_pos (head : List (List ℚ)) (channel : Nat) : 0 < channelMax head channel := by
  induction head with
  | nil =>
      rw [channelMax, List.foldr_nil]
      norm_num
  | cons first rest ih => exact lt_max_of_lt_right ih

end Channel

theorem quotient_lt {most scale value : ℚ} (positive : 0 < most) (bounded : |value| ≤ most)
    (stored : |scale - most / 127| ≤ most / 127 / 256) : 0 < scale ∧ |value / scale| < 127 + 1 / 2 := by
  have near := abs_le.mp stored
  have scalePos : 0 < scale := by linarith
  refine ⟨scalePos, ?_⟩
  rw [abs_div, abs_of_pos scalePos, div_lt_iff₀ scalePos]
  linarith

theorem restored_near {scale : ℚ} (positive : 0 < scale) (value : ℚ) :
    |roundHalfEven (value / scale) * scale - value| ≤ scale / 2 := by
  have whole : value = value / scale * scale := (div_mul_cancel₀ value (ne_of_gt positive)).symm
  calc |roundHalfEven (value / scale) * scale - value|
      = |value / scale - roundHalfEven (value / scale)| * scale := by
        rw [← abs_of_pos positive, ← abs_mul, abs_of_pos positive, abs_sub_comm, sub_mul, ← whole]
    _ ≤ 1 / 2 * scale := mul_le_mul_of_nonneg_right (abs_sub_roundHalfEven _) (le_of_lt positive)
    _ = scale / 2 := by ring

section Elements

variable {Value : Type} {arith : Arithmetic Value} {state : TemporalState Value} {rows : List (List Value)}
  {row : List Value} {value scale : Value} {head index channel : Nat}

theorem entry_cases (found : state[head]? = some rows) (here : entry state head index channel = some value) :
    ∃ row, rows[index]? = some row ∧ row[channel]? = some value := by
  rw [entry, found, Option.bind_some] at here
  exact Option.bind_eq_some_iff.mp here

theorem quantize_entry (found : state[head]? = some rows) (inRows : rows[index]? = some row)
    (inRow : row[channel]? = some value) (scaled : (scaleRow arith rows)[channel]? = some scale) :
    (quantize arith state).2[head]?.bind (·[channel]?) = some scale ∧
      entry (quantize arith state).1 head index channel = some (code arith value scale) ∧
      entry (dequantize arith (quantize arith state).1 (quantize arith state).2) head index channel =
        some (arith.toOut (arith.mul (arith.ofInt (code arith value scale)) (arith.toFloat32 scale))) := by
  simp [entry, quantize, dequantize, List.getElem?_zipWith, found, inRows, inRow, scaled]

end Elements

theorem code_exact {rounded : ℚ → ℚ} {value scale : ℚ} (near : |value / scale| < 127 + 1 / 2) :
    code (exactArith rounded) value scale = roundHalfEven (value / scale) := by
  have inside := abs_le.mp (abs_roundHalfEven_le (show |value / scale| < ((127 : Int) : ℚ) + 1 / 2 by exact_mod_cast near))
  have low : ((-127 : Int) : ℚ) ≤ roundHalfEven (value / scale) := by exact_mod_cast inside.1
  have high : (roundHalfEven (value / scale) : ℚ) ≤ ((127 : Int) : ℚ) := by exact_mod_cast inside.2
  change ⌊min (max (roundHalfEven (value / scale) : ℚ) ((-127 : Int) : ℚ)) ((127 : Int) : ℚ)⌋ = _
  rw [max_eq_left low, min_eq_left high, Int.floor_intCast]

/-- Where the stored scale of a channel is off by at most a 256th, every
element comes back within half a scale, no code is clamped, and zeros come
back as zeros. -/
theorem int8_error_bound (rounded : ℚ → ℚ) {state : TemporalState ℚ} {rows : List (List ℚ)} {head channel : Nat}
    (found : state[head]? = some rows) (wide : ∀ row ∈ rows, channel < row.length)
    (stored : |rounded (channelMax rows channel / 127) - channelMax rows channel / 127| ≤
      channelMax rows channel / 127 / 256) :
    let arith := exactArith rounded
    let quantized := quantize arith state
    let scale := rounded (channelMax rows channel / 127)
    ∀ index value, entry state head index channel = some value →
      quantized.2[head]?.bind (·[channel]?) = some scale ∧
      entry quantized.1 head index channel = some (roundHalfEven (value / scale)) ∧
      |roundHalfEven (value / scale)| ≤ 127 ∧
      ∃ restored, entry (dequantize arith quantized.1 quantized.2) head index channel = some restored ∧
        |restored - value| ≤ scale / 2 ∧ ((∀ row ∈ rows, row.getD channel 0 = 0) → restored = 0) := by
  intro arith quantized scale index value here
  obtain ⟨row, inRows, inRow⟩ := entry_cases found here
  have member := List.mem_of_getElem? inRows
  have scaled : (scaleRow arith rows)[channel]? = some scale :=
    scaleRow_exact (List.ne_nil_of_mem member) wide
  obtain ⟨scales, codes, back⟩ := quantize_entry found inRows inRow scaled
  have same : row.getD channel 0 = value := by rw [List.getD_eq_getElem?_getD, inRow, Option.getD_some]
  have bounded : |value| ≤ channelMax rows channel := same ▸ le_channelMax member
  obtain ⟨positive, near⟩ := quotient_lt (channelMax_pos rows channel) bounded stored
  have unclamped := @code_exact rounded value scale near
  rw [unclamped] at codes back
  refine ⟨scales, codes, ?_, _, back, restored_near positive value, ?_⟩
  · exact abs_roundHalfEven_le (by exact_mod_cast near)
  · intro zero
    have none : value = 0 := same ▸ zero row member
    change (roundHalfEven (value / scale) : ℚ) * scale = 0
    rw [none, zero_div, roundHalfEven_zero, Int.cast_zero, zero_mul]

/-- A channel with the entries 127 and -1, its scale rounded down: the quotient
of 127 is above 127. -/
theorem int8_error_bound_roundedDown :
    entry (quantize (exactArith fun _ => 255 / 256) [[[127], [-1]]]).1 0 0 0 = some 127 ∧
      ∃ restored, entry (dequantize (exactArith fun _ => 255 / 256)
          (quantize (exactArith fun _ => 255 / 256) [[[127], [-1]]]).1
          (quantize (exactArith fun _ => 255 / 256) [[[127], [-1]]]).2) 0 0 0 = some restored ∧
        |restored - 127| ≤ 255 / 256 / 2 := by
  have most : channelMax [[127], [-1]] 0 = 127 := by
    norm_num [channelMax]
  have code : roundHalfEven (127 / (255 / 256)) = 127 := by
    norm_num [roundHalfEven]
  obtain ⟨-, codes, -, restored, back, near, -⟩ := @int8_error_bound (fun _ => 255 / 256) [[[127], [-1]]] [[127], [-1]] 0 0
    rfl (by decide) (by rw [most]; norm_num) 0 127 rfl
  rw [code] at codes
  exact ⟨codes, restored, back, near⟩

end FlashNext.Mamba
