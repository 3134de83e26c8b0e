import FlashNext.Data.Stores
import Mathlib.Algebra.Group.Int.Defs
import Mathlib.Data.List.Perm.Lattice

namespace FlashNext.Qsa

open FlashNext.Data

/-! `torch_qsa_mqa_prefill` and `tilelang_qsa_mqa_prefill`.  The score of a query
row and a key is a parameter, the same in both; the kernels' tile arithmetic is
in 32-bit integers, and a store outside the logits tensor is dropped. -/

/-- The value of a 32-bit signed integer. -/
def int32 (value : Int) : Int := (value + 2 ^ 31) % 2 ^ 32 - 2 ^ 31

def ceilDiv (value block : Int) : Int := int32 (value + (block - 1)) / block

/-- Entries of the logits: the score of a row and a key, summed over the heads,
the division by the scale, and the two constants. -/
structure Scoring (α : Type*) where
  score : Nat → Nat → α
  scaled : α → α
  zero : α
  negInf : α

/-- The shapes and windows of a call; `split` is the launch's second extent. -/
structure Prefill where
  rows : Nat
  keys : Nat
  heads : Nat
  split : Nat
  rowStarts : List Int
  rowEnds : List Int
  startsShape : rowStarts.length = rows
  endsShape : rowEnds.length = rows

namespace Prefill

variable (call : Prefill)

/-- `max(1, 128 // heads)`. -/
def blockQ : Nat := max 1 (128 / call.heads)

def blockN : Nat := 64

/-- `(-rows) % block_q`. -/
def padding : Nat := (-(call.rows : Int) % call.blockQ).toNat

def paddedRows : Nat := call.rows + call.padding

/-- The int32 window bounds, the last one repeated for the padded rows. -/
def padded (bounds : List Int) : List Int :=
  bounds.map int32 ++ List.replicate call.padding ((bounds.map int32).getLast?.getD 0)

def starts : List Int := call.padded call.rowStarts

def ends : List Int := call.padded call.rowEnds

def startMin (bx : Nat) : Int :=
  (List.range call.blockQ).foldl
    (fun least qi => min least (min (call.starts.getD (bx * call.blockQ + qi) 0) call.keys)) 2147483647

def endMax (bx : Nat) : Int :=
  (List.range call.blockQ).foldl
    (fun most qi => max most (min (call.ends.getD (bx * call.blockQ + qi) 0) call.keys)) (-2147483648)

def tiles (bx : Nat) : Int := ceilDiv (int32 (call.endMax bx - call.startMin bx)) blockN

def loT (bx by_ : Nat) : Int := int32 (call.tiles bx * by_) / call.split

def hiT (bx by_ : Nat) : Int := int32 (call.tiles bx * int32 (by_ + 1)) / call.split

def tileStart (bx by_ ni : Nat) : Int :=
  int32 (call.startMin bx + int32 (int32 (call.loT bx by_ + ni) * blockN))

section Kernel

variable {α : Type*} (scoring : Scoring α)

/-- `reduced[n, qi]`: padded rows and keys outside the tensor are zero. -/
def reduced (row : Nat) (column : Int) : α :=
  if row < call.rows ∧ 0 ≤ column ∧ column < call.keys then scoring.score row column.toNat else scoring.zero

def ctaStores (cta : Nat × Nat) : List ((Nat × Int) × α) :=
  let bx := cta.1
  let by_ := cta.2
  if call.loT bx by_ < call.hiT bx by_ then
    (List.range (call.hiT bx by_ - call.loT bx by_).toNat).flatMap fun (ni : Nat) =>
      (List.range call.blockQ).flatMap fun (qi : Nat) =>
        (List.range blockN).map fun (n : Nat) =>
          let row := bx * call.blockQ + qi
          let column := int32 (call.tileStart bx by_ ni + n)
          ((row, column), call.reduced scoring row column)
  else []

def inShape (rows : Nat) (position : Nat × Int) : Bool :=
  position.1 < rows ∧ 0 ≤ position.2 ∧ position.2 < call.keys

/-- `(T.ceildiv(rows, block_q), split)`. -/
def grid : List (Nat × Nat) :=
  (List.range ((call.paddedRows + call.blockQ - 1) / call.blockQ)).flatMap fun bx =>
    (List.range call.split).map fun by_ => (bx, by_)

def prefillKernel (order : List (Nat × Nat)) : Nat × Int → α :=
  storeAll (fun _ => scoring.zero)
    ((order.flatMap (call.ctaStores scoring)).filter fun write => call.inShape call.paddedRows write.1)

/-- The stores of one CTA of the mask kernel, over blocks of 4096 keys and 512
threads. -/
def maskStores (bx : Nat) : List ((Nat × Int) × α) :=
  (List.range (ceilDiv call.keys 4096).toNat).flatMap fun (block : Nat) =>
    (List.range (4096 / 512)).flatMap fun (item : Nat) =>
      (List.range 512).filterMap fun (tx : Nat) =>
        let column := int32 (int32 (block * 4096) + item * 512 + tx)
        if column < call.starts.getD bx 0 ∨ call.ends.getD bx 0 ≤ column then
          some ((bx, column), scoring.negInf)
        else none

/-- `tilelang_qsa_mqa_prefill`, one entry of the logits. -/
def tilelangPrefill (order : List (Nat × Nat)) (row column : Nat) : α :=
  if call.rows = 0 ∨ call.keys = 0 then scoring.negInf else
  let logits := call.prefillKernel scoring order
  storeAll (fun position => scoring.scaled (logits position))
    (((List.range call.rows).flatMap (call.maskStores scoring)).filter
      fun write => call.inShape call.rows write.1) (row, column)

/-- `torch_qsa_mqa_prefill`, one entry of the logits. -/
def torchPrefill (row column : Nat) : α :=
  if call.rowStarts.getD row 0 ≤ column ∧ column < call.rowEnds.getD row 0 then
    scoring.scaled (scoring.score row column)
  else scoring.negInf

end Kernel

end Prefill

end FlashNext.Qsa
