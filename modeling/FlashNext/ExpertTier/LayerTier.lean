import FlashNext.ColdPool.State
import FlashNext.Data.Ranking
import FlashNext.Data.Slots
import FlashNext.Machine.Run

namespace FlashNext.ExpertTier

open FlashNext.Data FlashNext.ColdPool

/-! A `LayerTier` of `expert_tier.py` keeps the rows of the kept experts on the GPU
with ring rows behind them, and the rows of the cold experts in pinned host
memory.  Outside graph capture its `remap` fills ring rows and sends the ids of
a step to rows. -/

/-- `_RING`. -/
def ringSize : Nat := 16

/-- The fused module a tier is built for, with the side tensors that
`named_per_expert_tensors` names. -/
structure ExpertLayer where
  layerId : Option Int
  numLocalExperts : Nat
  w13Weight : Tensor
  w2Weight : Tensor
  perExpert : Dict String Tensor

namespace ExpertLayer

/-- The tensors that are replaced, `main` before `sides`. -/
def tensors (layer : ExpertLayer) : List (String × Tensor) :=
  ("w13_weight", layer.w13Weight) :: ("w2_weight", layer.w2Weight) :: layer.perExpert.entries

def IsExpert (layer : ExpertLayer) (id : Int) : Prop := 0 ≤ id ∧ id < layer.numLocalExperts

instance (layer : ExpertLayer) (id : Int) : Decidable (layer.IsExpert id) := inferInstanceAs (Decidable (_ ∧ _))

def coldIds (layer : ExpertLayer) (keepIds : List Int) : List Nat :=
  (List.range layer.numLocalExperts).filter fun gid : Nat => decide ((gid : Int) ∉ keepIds)

end ExpertLayer

/-- What `LayerTier.__init__` raises. -/
inductive InitError where
  | unexpectedShape (shape : List Nat) (name : String)
  | index
deriving DecidableEq, Repr

def InitError.message : InitError → String
  | .unexpectedShape shape name => "expert_tier: unexpected shape " ++ tupleText shape ++ " for " ++ name
  | .index => "index out of range in self"

/-- An entry of `pairs`: the rows of the replaced tensor and of its pinned pool. -/
structure TierPair where
  elem : ElemType
  trailing : List Nat
  rows : List Row
  pool : List Row
deriving DecidableEq, Repr

structure LayerTier where
  layerId : Int
  pairs : List TierPair
  keepLookup : List Int
  coldRankCpu : List Nat
  keepMask : List Bool
  nKeep : Nat
  nCold : Nat
  numExperts : Nat
  warnedOverflow : Bool
  ringK : Nat
  ringDsts : List Nat
deriving DecidableEq, Repr

/-- `rows.index_select(0, ids)`. -/
def indexSelect (rows : List Row) (ids : List Int) : Except InitError (List Row) :=
  if ids.all fun id => decide (0 ≤ id ∧ id < rows.length) then .ok (takeSlots (ids.map Int.toNat) rows)
  else .error .index

/-- `counts[index]`; a negative index counts from the end. -/
def pick {κ : Type*} (counts : List (List κ)) (index : Int) : Option (List κ) :=
  if 0 ≤ index then counts[index.toNat]?
  else if 0 ≤ index + counts.length then counts[(index + counts.length).toNat]? else none

/-- `seed_ranks`; `argsort` is the descending one of torch. -/
def seedRanks {κ : Type*} (argsort : List κ → List Nat) (counts : Option (List (List κ))) (layer : ExpertLayer)
    (coldIds : List Nat) : Except InitError (Option (List Nat)) :=
  match counts with
  | none => .ok none
  | some counts =>
      let layerId := layer.layerId.getD (-1)
      if ¬ (counts.length : Int) > layerId then .ok none
      else match pick counts layerId with
        | none => .error .index
        | some row =>
            if row.length = layer.numLocalExperts then .ok (some ((argsort (takeSlots coldIds row)).take ringSize))
            else .ok none

def ringRows (zero : Row) (coldPart : List Row) : Option (List Nat) → Except InitError (List Row)
  | none => .ok (List.replicate ringSize zero)
  | some ranks =>
      match indexSelect coldPart (ranks.map Int.ofNat) with
      | .error error => .error error
      | .ok seeds => .ok (putSlots (List.range ranks.length) seeds (List.replicate ringSize zero))

def pairOf (layer : ExpertLayer) (keepIds : List Int) (seeds : Option (List Nat)) (name : String) :
    Tensor → Except InitError TierPair
  | .scalar _ _ => .error (.unexpectedShape [] name)
  | .batch elem trailing rows =>
      if rows.length ≠ layer.numLocalExperts then .error (.unexpectedShape (rows.length :: trailing) name)
      else match indexSelect rows keepIds with
        | .error error => .error error
        | .ok keepPart =>
            let coldPart := takeSlots (layer.coldIds keepIds) rows
            match ringRows (List.replicate (trailing.prod * elem.elementSize) 0) coldPart seeds with
            | .error error => .error error
            | .ok ring => .ok ⟨elem, trailing, keepPart ++ ring, coldPart⟩

def pairsOf (layer : ExpertLayer) (keepIds : List Int) (seeds : Option (List Nat)) :
    List (String × Tensor) → Except InitError (List TierPair)
  | [] => .ok []
  | (name, tensor) :: rest =>
      match pairOf layer keepIds seeds name tensor with
      | .error error => .error error
      | .ok pair =>
          match pairsOf layer keepIds seeds rest with
          | .error error => .error error
          | .ok pairs => .ok (pair :: pairs)

/-- The tables of a tier.  Where an id is kept twice the later row stays in the
lookup; both rows are copies of the same one. -/
def tierOf (layer : ExpertLayer) (keepIds : List Int) (pairs : List TierPair) : LayerTier :=
  let keepIdx := keepIds.map Int.toNat
  let coldIds := layer.coldIds keepIds
  let ringK := min ringSize coldIds.length
  { layerId := layer.layerId.getD (-1)
    pairs := pairs
    keepLookup := putSlots keepIdx ((List.range keepIds.length).map Int.ofNat)
      (List.replicate layer.numLocalExperts (-1))
    coldRankCpu := putSlots coldIds (List.range coldIds.length) (List.replicate layer.numLocalExperts 0)
    keepMask := putSlots keepIdx (List.replicate keepIds.length false) (List.replicate layer.numLocalExperts true)
    nKeep := keepIds.length
    nCold := coldIds.length
    numExperts := layer.numLocalExperts
    warnedOverflow := false
    ringK := ringK
    ringDsts := List.range' keepIds.length ringK }

/-- `LayerTier(layer, keep_ids)`. -/
def init {κ : Type*} (argsort : List κ → List Nat) (counts : Option (List (List κ))) (layer : ExpertLayer)
    (keepIds : List Int) : Except InitError LayerTier :=
  match seedRanks argsort counts layer (layer.coldIds keepIds) with
  | .error error => .error error
  | .ok seeds =>
      match pairsOf layer keepIds seeds layer.tensors with
      | .error error => .error error
      | .ok pairs => .ok (tierOf layer keepIds pairs)

/-- `num_local_experts` of the layer once its tensors are replaced. -/
def LayerTier.rows (tier : LayerTier) : Nat := tier.nKeep + ringSize

/-- What torch documents of `torch.topk`: the indices of the `count` largest
values, the largest first. -/
structure ReturnsLargest (topk : List Nat → Nat → List Nat) : Prop where
  largest : ∀ values count, count ≤ values.length →
    Largest (fun index => values.getD index 0) count (List.range values.length) (topk values count)
  sorted : ∀ values count, count ≤ values.length →
    (topk values count).Pairwise fun left right => values.getD right 0 ≤ values.getD left 0

/-- `torch.bincount(ids, minlength=size)` on ids below `size`. -/
def bincount (ids : List Int) (size : Nat) : List Nat := (List.range size).map fun gid : Nat => ids.count (gid : Int)

inductive RemapError where
  | badId
  | noRing
deriving DecidableEq, Repr

namespace LayerTier

/-- `cnt * (~keep_mask)`. -/
def coldCnt (tier : LayerTier) (ids : List Int) : List Nat :=
  List.zipWith (fun count masked => count * (!masked).toNat) (bincount ids tier.numExperts) tier.keepMask

/-- `sel` and `n`; `topk` gives the indices that `torch.topk` returns, the values are
the entries at them. -/
def select (topk : List Nat → Nat → List Nat) (tier : LayerTier) (ids : List Int) : List Nat × Nat :=
  let sel := topk (tier.coldCnt ids) tier.ringK
  (sel, (takeSlots sel (tier.coldCnt ids)).countP fun value => decide (0 < value))

def lookup (tier : LayerTier) (sel : List Nat) (n : Nat) : List Int :=
  putSlots (sel.take n) ((tier.ringDsts.take n).map Int.ofNat) tier.keepLookup

/-- The copies from the pinned pools into the ring rows. -/
def fillRing (tier : LayerTier) (sel : List Nat) (n : Nat) : LayerTier :=
  let ords := takeSlots (sel.take n) tier.coldRankCpu
  { tier with
    pairs := tier.pairs.map fun pair =>
      { pair with rows := putSlots (tier.ringDsts.take n) (takeSlots ords pair.pool) pair.rows } }

/-- The row and the weight an id is sent to; `missRow` is `ring_dsts[0]`. -/
def route {ω : Type*} [Zero ω] (lookup : List Int) (missRow : Nat) (entry : Int × ω) : Int × ω :=
  match lookup[entry.1.toNat]? with
  | none => ((missRow : Int), 0)
  | some mapped => if mapped < 0 then ((missRow : Int), 0) else (mapped, entry.2)

/-- `remap` outside graph capture, on the entries of `ids` and `weights`.  An id
that is no expert's is refused by `bincount`, by the product with the mask or by
the lookup; nothing has been written by then. -/
def remap {ω : Type*} [Zero ω] (topk : List Nat → Nat → List Nat) (tier : LayerTier) (call : List (Int × ω)) :
    Except RemapError (List (Int × ω)) × LayerTier :=
  if ¬ call.all (fun entry => decide (0 ≤ entry.1 ∧ entry.1 < tier.numExperts)) then (.error .badId, tier)
  else
    let selected := tier.select topk (call.map Prod.fst)
    let lookup := tier.lookup selected.1 selected.2
    let filled := tier.fillRing selected.1 selected.2
    match tier.ringDsts with
    | [] => (.error .noRing, filled)
    | missRow :: _ =>
        (.ok (call.map (route lookup missRow)),
          { filled with warnedOverflow := tier.warnedOverflow || decide (tier.ringK ≤ selected.2) })

end LayerTier

/-- A tier that answers one call after the other. -/
def machine {ω : Type*} [Zero ω] (topk : List Nat → Nat → List Nat) : Machine LayerTier (List (Int × ω)) where
  step tier call := ([], (tier.remap topk call).2)

end FlashNext.ExpertTier
