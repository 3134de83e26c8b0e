import FlashNext.Data.Compaction
import FlashNext.Data.Stores
import FlashNext.Qsa.Prefill
import Mathlib.Data.Nat.Log

namespace FlashNext.Qsa

open FlashNext.Data

structure IndexMatrix where
  width : Nat
  rows : List (List Int)
  shape : ∀ row ∈ rows, row.length = width

structure Expansion where
  compressRatio : Nat
  tokenTopk : Nat
  positive : 0 < compressRatio

inductive ExpandError where
  | blockShape (blockTopk rows width : Nat)
  | rowCounts
deriving DecidableEq, Repr

def ExpandError.message : ExpandError → String
  | .blockShape blockTopk rows width => s!"expected block indices [M, {blockTopk}], got ({rows}, {width})"
  | .rowCounts => "query positions and sequence lengths must match top-k rows"

namespace Expansion

variable (call : Expansion)

def blockTopk : Nat := (call.tokenTopk + call.compressRatio - 1) / call.compressRatio

def finalTopk : Nat := call.tokenTopk + call.compressRatio - 1

def checkShapes (indices : IndexMatrix) (positions lengths : List Int) : Except ExpandError Unit :=
  if indices.width ≠ call.blockTopk then .error (.blockShape call.blockTopk indices.rows.length indices.width)
  else if positions.length ≠ indices.rows.length ∨ lengths.length ≠ indices.rows.length then .error .rowCounts
  else .ok ()

def expandBlock (block : Int) : List Int :=
  (List.range call.compressRatio).map fun (offset : Nat) =>
    if 0 ≤ block then block * call.compressRatio + offset else -1

/-- `expanded[:, :token_topk]`, one row. -/
def expandBlocks (blocks : List Int) : List Int := (blocks.flatMap call.expandBlock).take call.tokenTopk

def tailRow (position length : Int) : List Int :=
  let visibleTokens := position + 1
  let tailStart := visibleTokens / call.compressRatio * call.compressRatio
  let tailCount := visibleTokens - tailStart
  (List.range (call.compressRatio - 1)).map fun (offset : Nat) =>
    if (offset : Int) < tailCount ∧ tailStart + offset < length then tailStart + offset else -1

def torchRow (blocks : List Int) (position length : Int) : List Int :=
  let expanded := (call.expandBlocks blocks).map fun token => if 0 ≤ token ∧ token < length then token else -1
  let result := expanded ++ call.tailRow position length
  let order := validFirst (fun index => 0 ≤ result.getD index 0) result.length
  order.map fun index => int32 (result.getD index 0)

def torchExpand (indices : IndexMatrix) (positions lengths : List Int) : Except ExpandError (List (List Int)) := do
  call.checkShapes indices positions lengths
  return (List.range indices.rows.length).map fun row =>
    call.torchRow (indices.rows.getD row []) (positions.getD row 0) (lengths.getD row 0)

/-- `triton.next_power_of_2`. -/
def nextPowerOf2 (value : Nat) : Nat := 2 ^ Nat.clog 2 value

/-- `tl.load(..., mask, other=-1)` of a row. -/
def maskedLoad (values : List Int) (mask : Prop) [Decidable mask] (index : Nat) : Int :=
  if mask then values.getD index (-1) else -1

def validBlockCount (blocks : List Int) : Nat :=
  (List.range (nextPowerOf2 call.finalTopk)).countP fun col =>
    col < blocks.length ∧ 0 ≤ maskedLoad blocks (col < blocks.length) col

def kernelColumn (blocks : List Int) (position length : Int) (col : Nat) : Int :=
  let sourceBlockCol := col / call.compressRatio
  let block := maskedLoad blocks (col < call.tokenTopk ∧ sourceBlockCol < blocks.length) sourceBlockCol
  let expanded := block * call.compressRatio + (col % call.compressRatio : Nat)
  let expandedValid := col < call.tokenTopk ∧ 0 ≤ block ∧ 0 ≤ expanded ∧ expanded < length
  let validTokenCount := min (call.validBlockCount blocks * call.compressRatio) call.tokenTopk
  let visibleTokens := position + 1
  let tailStart := visibleTokens.tdiv call.compressRatio * call.compressRatio
  let tailOffset := (col : Int) - validTokenCount
  let tailCount := visibleTokens - tailStart
  let tail := tailStart + tailOffset
  let tailValid := 0 ≤ tailOffset ∧ tailOffset < call.compressRatio - 1 ∧ tailOffset < tailCount ∧ tail < length
  if expandedValid ∧ col < validTokenCount then expanded else if tailValid then tail else -1

/-- The stores of one program into the int32 output. -/
def kernelStores (indices : IndexMatrix) (positions lengths : List Int) (row : Nat) : List ((Nat × Nat) × Int) :=
  (List.range (nextPowerOf2 call.finalTopk)).filterMap fun col =>
    if col < call.finalTopk then
      some ((row, col), int32 (call.kernelColumn (indices.rows.getD row []) (positions.getD row 0) (lengths.getD row 0) col))
    else none

/-- `triton_expand_qsa_block_indices`, its programs run in the given order;
`empty` is what the output held. -/
def tritonExpand (indices : IndexMatrix) (positions lengths : List Int) (order : List Nat) (empty : Nat × Nat → Int) :
    List (List Int) :=
  let output := storeAll empty (order.flatMap (call.kernelStores indices positions lengths))
  (List.range indices.rows.length).map fun row => (List.range call.finalTopk).map fun col => output (row, col)

/-- `expand_qsa_block_indices`. -/
def expandQsaBlockIndices (isCuda : Bool) (indices : IndexMatrix) (positions lengths : List Int) (order : List Nat)
    (empty : Nat × Nat → Int) : Except ExpandError (List (List Int)) := do
  call.checkShapes indices positions lengths
  if isCuda then return call.tritonExpand indices positions lengths order empty
  call.torchExpand indices positions lengths

/-- The tokens of the selected blocks, cut at `token_topk`. -/
def blockTokens (blocks : List Int) : List Int :=
  ((blocks.filter (0 ≤ ·)).flatMap call.expandBlock).take call.tokenTopk

def tailTokens (position : Int) : List Int :=
  (List.range ((position + 1) % call.compressRatio).toNat).map fun (offset : Nat) =>
    (position + 1) / call.compressRatio * call.compressRatio + offset

def tokens (blocks : List Int) (position : Int) : List Int := call.blockTokens blocks ++ call.tailTokens position

/-- No token past the sequence end stands before one below it, those aside whose
int32 is the padding. -/
def EndsLast (blocks : List Int) (position length : Int) : Prop :=
  (call.tokens blocks position).Pairwise fun before after => after < length → int32 after ≠ -1 → before < length

end Expansion

end FlashNext.Qsa
