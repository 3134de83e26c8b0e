import FlashNext.Qsa.SplitK

namespace FlashNext.Qsa

open FlashNext.Data

/-! `torch_qsa_mqa_decode` and `tilelang_qsa_mqa_decode`.  A tensor is a function of
its indices beside its shape.  The score of a query head and a key is a
parameter, the same in both; the kernel's arithmetic is in 32-bit integers, and
a store outside the logits tensor is dropped. -/

/-- Scores of a row, a head and a key, and how the heads of a row become one
entry of the logits.  Heads of zeros add nothing to the sum. -/
structure HeadScoring (κ α : Type) where
  score : Nat → Nat → κ → α
  relu : α → α
  sum : List α → α
  scaled : α → α
  zero : α
  negInf : α
  relu_zero : relu zero = zero
  sum_zeros : ∀ values count, sum (values ++ List.replicate count zero) = sum values

structure Decode where
  batch : Nat
  heads : Nat
  headDim : Nat
  pages : Nat
  pageSize : Nat
  cacheHeads : Nat
  cacheDim : Nat
  tableRows : Nat
  maxPages : Nat
  lengthCount : Nat
  maxModelLen : Nat
  pageTable : Nat → Nat → Int
  contextLens : Nat → Int

/-- `indexError` is raised by torch. -/
inductive DecodeError where
  | queryShape (tokens heads headDim : Nat)
  | cacheShape (pages pageSize cacheHeads cacheDim : Nat)
  | headDims
  | tableRows
  | lengthCount
  | indexError
  | unavailable
  | pagePacking (size : Nat)
deriving DecidableEq, Repr

def DecodeError.message : DecodeError → Option String
  | .queryShape tokens heads headDim =>
      some s!"QSA requires q [tokens, heads, head_dim], got torch.Size([{tokens}, {heads}, {headDim}])"
  | .cacheShape pages pageSize cacheHeads cacheDim =>
      some s!"QSA decode cache must be [pages, page_size, 1, head_dim], got ({pages}, {pageSize}, {cacheHeads}, {cacheDim})"
  | .headDims => some "QSA query and key head dimensions must match"
  | .tableRows => some "QSA decode page table must have one row per query"
  | .lengthCount => some "QSA decode context lengths must have one entry per query"
  | .indexError => none
  | .unavailable => some "TileLang is unavailable"
  | .pagePacking size =>
      some s!"TileLang QSA decode requires a compressed page size of 8/16/32/64 (64-row GEMM sub-page packing), got {size}"

namespace Decode

variable (call : Decode)

/-- `_validate_decode_inputs`. -/
def validate : Except DecodeError Unit :=
  if call.heads = 0 ∨ call.headDim = 0 then .error (.queryShape call.batch call.heads call.headDim)
  else if call.cacheHeads ≠ 1 then .error (.cacheShape call.pages call.pageSize call.cacheHeads call.cacheDim)
  else if call.cacheDim ≠ call.headDim then .error .headDims
  else if call.tableRows ≠ call.batch then .error .tableRows
  else if call.lengthCount ≠ call.batch then .error .lengthCount
  else .ok ()

section Reference

variable {κ α : Type} (scoring : HeadScoring κ α) (cache : Nat → Nat → κ)

/-- `page_table.long().clamp_min(0)`. -/
def clamped (row index : Nat) : Int := max (call.pageTable row index) 0

def total : Nat := call.maxPages * call.pageSize

/-- `scores[row, position]` before the mask. -/
def torchScore (row position : Nat) : α :=
  let key := cache (call.clamped row (position / call.pageSize)).toNat (position % call.pageSize)
  scoring.scaled (scoring.sum ((List.range call.heads).map fun head => scoring.relu (scoring.score row head key)))

def torchEntry (row column : Nat) : α :=
  if column < min call.total call.maxModelLen then
    if call.contextLens row ≤ column then scoring.negInf else call.torchScore scoring cache row column
  else scoring.negInf

/-- `torch_qsa_mqa_decode`: a page number past the cache is an index error. -/
def torchDecode : Except DecodeError (Nat → Nat → α) := do
  call.validate
  if ∃ row < call.batch, ∃ index < call.maxPages, call.pages ≤ call.clamped row index then .error .indexError
  else return call.torchEntry scoring cache

end Reference

def groupRows : Nat := 64

def subPages : Nat := groupRows / call.pageSize

def groupsPerCta : Nat := 1

/-- `max(8, ((query_heads + 7) // 8) * 8)`. -/
def kernelHeads : Nat := max 8 ((call.heads + 7) / 8 * 8)

def contextLen (row : Nat) : Int := int32 (call.contextLens row)

def group (groupBlock gi : Nat) : Int := int32 (int32 (groupBlock * groupsPerCta) + gi)

/-- `group * sub_pages + sp`. -/
def tableIndex (group : Int) (sp : Nat) : Int := int32 (int32 (group * call.subPages) + sp)

section Kernel

variable {κ α : Type} (scoring : HeadScoring κ α) (cache : Nat → Nat → κ)

/-- A copy from the cache; `outside` is what one from outside it leaves. -/
def loadKey (outside : Int → Nat → κ) (page : Int) (slot : Nat) : κ :=
  if 0 ≤ page ∧ page < call.pages then cache page.toNat slot else outside page slot

/-- The copy of one sub-page into its rows of the tile. -/
def copySubPage (outside : Int → Nat → κ) (row : Nat) (group : Int) (shared : Nat → κ) (sp : Nat) : Nat → κ :=
  if int32 (call.tableIndex group sp * call.pageSize) < call.contextLen row then
    fun token =>
      if sp * call.pageSize ≤ token ∧ token < (sp + 1) * call.pageSize then
        call.loadKey cache outside (int32 (call.pageTable row (call.tableIndex group sp).toNat)) (token - sp * call.pageSize)
      else shared token
  else shared

/-- `k_shared` of one iteration, `stale` being what it held before. -/
def sharedKeys (outside : Int → Nat → κ) (row : Nat) (group : Int) (stale : Nat → κ) : Nat → κ :=
  (List.range call.subPages).foldl (call.copySubPage cache outside row group) stale

/-- `reduced[token] / Scale`: the padded heads are zero. -/
def reducedScore (row : Nat) (key : κ) : α :=
  scoring.scaled (scoring.sum ((List.range call.kernelHeads).map fun head =>
    scoring.relu (if head < call.heads then scoring.score row head key else scoring.zero)))

/-- The stores of one CTA; `stale` gives what the shared tile held at the start
of each iteration. -/
def ctaStores (outside : Int → Nat → κ) (stale : Nat × Nat → Nat → Nat → κ) (cta : Nat × Nat) :
    List ((Nat × Int) × α) :=
  (List.range groupsPerCta).flatMap fun gi =>
    let group := group cta.2 gi
    if int32 (group * groupRows) < call.contextLen cta.1 then
      let shared := call.sharedKeys cache outside cta.1 group (stale cta gi)
      (List.range groupRows).filterMap fun (token : Nat) =>
        let position := int32 (int32 (group * groupRows) + token)
        if position < call.contextLen cta.1 then
          some ((cta.1, position), call.reducedScore scoring cta.1 (shared token))
        else none
    else []

def inShape (position : Nat × Int) : Bool :=
  position.1 < call.batch ∧ 0 ≤ position.2 ∧ position.2 < call.maxModelLen

/-- `(batch, T.ceildiv(T.ceildiv(max_pages, sub_pages), groups_per_cta))`. -/
def grid : List (Nat × Nat) :=
  (List.range call.batch).flatMap fun bx =>
    (List.range (ceilDiv (ceilDiv call.maxPages call.subPages) groupsPerCta).toNat).map fun groupBlock => (bx, groupBlock)

/-- The logits after the kernel, its CTAs run in the given order. -/
def decodeKernel (outside : Int → Nat → κ) (stale : Nat × Nat → Nat → Nat → κ) (order : List (Nat × Nat)) :
    Nat × Int → α :=
  storeAll (fun _ => scoring.negInf)
    ((order.flatMap (call.ctaStores scoring cache outside stale)).filter fun write => call.inShape write.1)

/-- `tilelang_qsa_mqa_decode`. -/
def tilelangDecode (hasTilelang : Bool) (outside : Int → Nat → κ) (stale : Nat × Nat → Nat → Nat → κ)
    (order : List (Nat × Nat)) : Except DecodeError (Nat → Nat → α) := do
  if !hasTilelang then throw .unavailable
  call.validate
  if call.pageSize < 8 ∨ 64 % call.pageSize ≠ 0 then throw (.pagePacking call.pageSize)
  if call.batch = 0 ∨ call.maxModelLen = 0 then return fun _ _ => scoring.negInf
  return fun row column => call.decodeKernel scoring cache outside stale order (row, column)

end Kernel

end Decode

end FlashNext.Qsa
