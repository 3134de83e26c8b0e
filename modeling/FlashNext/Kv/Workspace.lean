import FlashNext.Data.Regions
import FlashNext.Kv.Runs

namespace FlashNext.Kv

open FlashNext.Data KVPool

variable {Cell Row : Type}

/-- `dequantize_prev_kv`, row by row. -/
structure QuantMethod (Cell Row : Type) where
  dequantizeKey : Nat → List Cell → List Cell → Row
  dequantizeValue : Nat → List Cell → List Cell → Row

structure RawKV (Cell : Type) where
  k : Buffer Cell
  v : Buffer Cell
  kScale : Buffer Cell
  vScale : Buffer Cell

structure Workspace (Row : Type) where
  k : List Row
  v : List Row

structure ExtendReq where
  reqIdx : Nat
  prefixLen : Nat
  extendLen : Nat

namespace KVPool

variable (pool : KVPool Cell)

/-- `none` for a pool without scales, or without the layer. -/
def getRawKvBuffer (layer : Nat) : Option (RawKV Cell) := do
  let kScale ← pool.kScaleBuffer
  let vScale ← pool.vScaleBuffer
  return ⟨← pool.kBuffer[layer]?, ← pool.vBuffer[layer]?, ← kScale[layer]?, ← vScale[layer]?⟩

variable (method : QuantMethod Cell Row)

def dequantizePrev (globalLayer : Nat) (raw : RawKV Cell) (indices : List Nat) : List Row × List Row :=
  (indices.map fun slot => method.dequantizeKey globalLayer (raw.k.read pool.pageSize slot) (raw.kScale.read pool.pageSize slot),
    indices.map fun slot => method.dequantizeValue globalLayer (raw.v.read pool.pageSize slot) (raw.vScale.read pool.pageSize slot))

/-- One request of the loop: the workspace, and where the current tokens go on. -/
def extendRequest (globalLayer : Nat) (raw : RawKV Cell) (reqToToken : List (List Nat)) (cur : Option (List Row × List Row))
    (req : ExtendReq) (curBatchStartLoc curTokenIdx : Nat) (dq : Workspace Row) : Workspace Row × Nat :=
  let prevIndices := (reqToToken.getD req.reqIdx []).take req.prefixLen
  let dq : Workspace Row :=
    if 0 < req.prefixLen then
      let prev := pool.dequantizePrev method globalLayer raw prevIndices
      ⟨splice dq.k curTokenIdx prev.1, splice dq.v curTokenIdx prev.2⟩
    else dq
  match cur with
  | none => (dq, curBatchStartLoc)
  | some (kCur, vCur) =>
      let start := curTokenIdx + req.prefixLen
      (⟨splice dq.k start ((kCur.drop curBatchStartLoc).take req.extendLen),
        splice dq.v start ((vCur.drop curBatchStartLoc).take req.extendLen)⟩, curBatchStartLoc + req.extendLen)

def extendLoop (globalLayer : Nat) (raw : RawKV Cell) (reqToToken : List (List Nat)) (pageSize : Nat)
    (cur : Option (List Row × List Row)) : List ExtendReq → Nat → Nat → Workspace Row → Workspace Row
  | [], _, _, dq => dq
  | req :: rest, curBatchStartLoc, curTokenIdx, dq =>
      let (dq, curBatchStartLoc) := pool.extendRequest method globalLayer raw reqToToken cur req curBatchStartLoc curTokenIdx dq
      let workspaceLen := req.prefixLen + if cur.isSome then req.extendLen else 0
      extendLoop globalLayer raw reqToToken pageSize cur rest curBatchStartLoc
        ((curTokenIdx + workspaceLen + pageSize - 1) / pageSize * pageSize) dq

/-- The first page of the workspace is left to padding. -/
def prepareDequantExtendWorkspace (layer globalLayer : Nat) (reqToToken : List (List Nat)) (reqs : List ExtendReq) (pageSize : Nat)
    (cur : Option (List Row × List Row)) (dq : Workspace Row) : Option (Workspace Row) :=
  (pool.getRawKvBuffer layer).map fun raw => pool.extendLoop method globalLayer raw reqToToken pageSize cur reqs 0 pageSize dq

/-- One request of a decode batch. -/
def decodeRequest (globalLayer : Nat) (raw : RawKV Cell) (reqToToken : List (List Nat)) (dq : Workspace Row) (req : Nat × Nat) :
    Workspace Row :=
  if req.2 = 0 then dq
  else
    let kvIndices := (reqToToken.getD req.1 []).take req.2
    let prev := pool.dequantizePrev method globalLayer raw kvIndices
    ⟨putSlots kvIndices prev.1 dq.k, putSlots kvIndices prev.2 dq.v⟩

def prepareDequantDecodeWorkspace (layer globalLayer : Nat) (reqToToken : List (List Nat)) (reqPoolIndices seqLens : List Nat)
    (dq : Workspace Row) : Option (Workspace Row) :=
  (pool.getRawKvBuffer layer).map fun raw =>
    (reqPoolIndices.zip seqLens).foldl (pool.decodeRequest method globalLayer raw reqToToken) dq

end KVPool

section Extend

variable {pool : KVPool Cell} {method : QuantMethod Cell Row} {globalLayer pageSize page : Nat} {raw : RawKV Cell}
  {reqToToken : List (List Nat)} {cur : Option (List Row × List Row)} {req : ExtendReq} {reqs : List ExtendReq} {loc : Nat}
  {dq : Workspace Row}

/-- The current tokens of a request. -/
def currentRows (cur : Option (List Row × List Row)) (loc extendLen : Nat) : List Row × List Row :=
  match cur with
  | none => ([], [])
  | some (kCur, vCur) => ((kCur.drop loc).take extendLen, (vCur.drop loc).take extendLen)

/-- What a request has in the workspace: its prefix, then its current tokens. -/
def requestRows (pool : KVPool Cell) (method : QuantMethod Cell Row) (globalLayer : Nat) (raw : RawKV Cell) (reqToToken : List (List Nat))
    (cur : Option (List Row × List Row)) (req : ExtendReq) (loc : Nat) : List Row × List Row :=
  let prev := pool.dequantizePrev method globalLayer raw ((reqToToken.getD req.reqIdx []).take req.prefixLen)
  let current := currentRows cur loc req.extendLen
  (prev.1 ++ current.1, prev.2 ++ current.2)

/-- Each request goes on where the one before it has ended. -/
def batchRows (pool : KVPool Cell) (method : QuantMethod Cell Row) (globalLayer : Nat) (raw : RawKV Cell) (reqToToken : List (List Nat))
    (cur : Option (List Row × List Row)) : List ExtendReq → Nat → List (List Row × List Row)
  | [], _ => []
  | req :: rest, loc =>
      requestRows pool method globalLayer raw reqToToken cur req loc ::
        batchRows pool method globalLayer raw reqToToken cur rest (if cur.isSome then loc + req.extendLen else loc)

def ExtendReq.workspaceLen (cur : Option (List Row × List Row)) (req : ExtendReq) : Nat :=
  req.prefixLen + if cur.isSome then req.extendLen else 0

/-- Prefixes have their tokens, and the batch its current ones. -/
structure Batched (reqToToken : List (List Nat)) (cur : Option (List Row × List Row)) (reqs : List ExtendReq) (loc : Nat) : Prop where
  prefixes : ∀ req ∈ reqs, req.prefixLen ≤ (reqToToken.getD req.reqIdx []).length
  current : ∀ rows ∈ cur, loc + (reqs.map ExtendReq.extendLen).sum ≤ rows.1.length ∧ loc + (reqs.map ExtendReq.extendLen).sum ≤ rows.2.length

theorem Batched.tail (batched : Batched reqToToken cur (req :: reqs) loc) :
    Batched reqToToken cur reqs (if cur.isSome then loc + req.extendLen else loc) where
  prefixes other member := batched.prefixes other (List.mem_cons_of_mem _ member)
  current rows here := by
    have room := batched.current rows here
    rw [List.map_cons, List.sum_cons, ← Nat.add_assoc] at room
    cases here
    exact room

theorem length_prefix (batched : Batched reqToToken cur (req :: reqs) loc) :
    ((reqToToken.getD req.reqIdx []).take req.prefixLen).length = req.prefixLen :=
  List.length_take_of_le (batched.prefixes req List.mem_cons_self)

theorem length_requestRows (batched : Batched reqToToken cur (req :: reqs) loc) :
    (requestRows pool method globalLayer raw reqToToken cur req loc).1.length = req.workspaceLen cur ∧
      (requestRows pool method globalLayer raw reqToToken cur req loc).2.length = req.workspaceLen cur := by
  simp only [requestRows, dequantizePrev, List.length_append, List.length_map, length_prefix batched, ExtendReq.workspaceLen]
  cases cur with
  | none => exact ⟨rfl, rfl⟩
  | some rows =>
      have room := batched.current rows rfl
      rw [List.map_cons, List.sum_cons] at room
      simp only [currentRows, List.length_take, List.length_drop, Option.isSome_some, if_true]
      omega

theorem extendRequest_eq (batched : Batched reqToToken cur (req :: reqs) loc) {start : Nat}
    (inK : start + req.workspaceLen cur ≤ dq.k.length) (inV : start + req.workspaceLen cur ≤ dq.v.length) :
    (pool.extendRequest method globalLayer raw reqToToken cur req loc start dq).1 =
      ⟨splice dq.k start (requestRows pool method globalLayer raw reqToToken cur req loc).1,
        splice dq.v start (requestRows pool method globalLayer raw reqToToken cur req loc).2⟩ := by
  have size := length_prefix batched
  have prefixed : (if 0 < req.prefixLen then
        ⟨splice dq.k start (pool.dequantizePrev method globalLayer raw ((reqToToken.getD req.reqIdx []).take req.prefixLen)).1,
          splice dq.v start (pool.dequantizePrev method globalLayer raw ((reqToToken.getD req.reqIdx []).take req.prefixLen)).2⟩
      else dq : Workspace Row) =
        ⟨splice dq.k start (pool.dequantizePrev method globalLayer raw ((reqToToken.getD req.reqIdx []).take req.prefixLen)).1,
          splice dq.v start (pool.dequantizePrev method globalLayer raw ((reqToToken.getD req.reqIdx []).take req.prefixLen)).2⟩ := by
    split
    · rfl
    · rename_i none
      have empty : (reqToToken.getD req.reqIdx []).take req.prefixLen = [] :=
        List.eq_nil_of_length_eq_zero (size.trans (Nat.eq_zero_of_not_pos none))
      rw [empty]
      exact (congrArg₂ Workspace.mk (splice_nil _ _) (splice_nil _ _)).symm
  have fits : start + req.prefixLen ≤ dq.k.length ∧ start + req.prefixLen ≤ dq.v.length := by
    rw [ExtendReq.workspaceLen] at inK inV
    omega
  unfold extendRequest
  simp only [prefixed]
  cases cur with
  | none => simp [requestRows, currentRows]
  | some rows =>
      exact congrArg₂ Workspace.mk (splice_splice ((List.length_map _).trans size) fits.1)
        (splice_splice ((List.length_map _).trans size) fits.2)

theorem extendLoop_eq (positive : 0 < pageSize) (batched : Batched reqToToken cur reqs loc)
    (inK : (page + (reqs.map fun req => pagesOf pageSize (req.workspaceLen cur)).sum) * pageSize ≤ dq.k.length)
    (inV : (page + (reqs.map fun req => pagesOf pageSize (req.workspaceLen cur)).sum) * pageSize ≤ dq.v.length) :
    pool.extendLoop method globalLayer raw reqToToken pageSize cur reqs loc (page * pageSize) dq =
      ⟨writeRegions (pageRegions pageSize page ((batchRows pool method globalLayer raw reqToToken cur reqs loc).map Prod.fst)) dq.k,
        writeRegions (pageRegions pageSize page ((batchRows pool method globalLayer raw reqToToken cur reqs loc).map Prod.snd)) dq.v⟩ := by
  induction reqs generalizing loc page dq with
  | nil => rfl
  | cons req rest ih =>
      obtain ⟨keys, values⟩ := @length_requestRows _ _ pool method globalLayer raw _ _ _ _ _ batched
      have width := pagesOf_enough positive (req.workspaceLen cur)
      rw [List.map_cons, List.sum_cons] at inK inV
      have here : page * pageSize + req.workspaceLen cur ≤ dq.k.length ∧ page * pageSize + req.workspaceLen cur ≤ dq.v.length := by
        rw [Nat.add_mul, Nat.add_mul] at inK inV
        omega
      have step := @extendRequest_eq _ _ pool method globalLayer raw _ _ _ _ _ _ batched _ here.1 here.2
      have next : (pool.extendRequest method globalLayer raw reqToToken cur req loc (page * pageSize) dq).2 =
          if cur.isSome then loc + req.extendLen else loc := by
        cases cur <;> rfl
      have kept : (splice dq.k (page * pageSize) (requestRows pool method globalLayer raw reqToToken cur req loc).1).length =
            dq.k.length ∧
          (splice dq.v (page * pageSize) (requestRows pool method globalLayer raw reqToToken cur req loc).2).length = dq.v.length :=
        ⟨splice_length (keys.symm ▸ here.1), splice_length (values.symm ▸ here.2)⟩
      have later := @ih (page + pagesOf pageSize (req.workspaceLen cur)) _
        ⟨splice dq.k (page * pageSize) (requestRows pool method globalLayer raw reqToToken cur req loc).1,
          splice dq.v (page * pageSize) (requestRows pool method globalLayer raw reqToToken cur req loc).2⟩ batched.tail
        (by rw [kept.1, Nat.add_assoc]; exact inK) (by rw [kept.2, Nat.add_assoc]; exact inV)
      simp only [extendLoop]
      rw [step, next]
      have start := next_page positive page (req.workspaceLen cur)
      rw [ExtendReq.workspaceLen] at start
      rw [start]
      refine later.trans ?_
      simp only [batchRows, List.map_cons, pageRegions, writeRegions, keys, values]

theorem batchRows_getElem? (index : Nat) : (batchRows pool method globalLayer raw reqToToken cur reqs loc)[index]? =
    reqs[index]?.map fun req => requestRows pool method globalLayer raw reqToToken cur req
      (if cur.isSome then loc + ((reqs.take index).map ExtendReq.extendLen).sum else loc) := by
  induction reqs generalizing loc index with
  | nil => rfl
  | cons req rest ih =>
      cases index with
      | zero => simp [batchRows]
      | succ index =>
          rw [batchRows, List.getElem?_cons_succ, ih, List.getElem?_cons_succ, List.take_succ_cons, List.map_cons, List.sum_cons]
          cases cur with
          | none => rfl
          | some rows => simp only [Option.isSome_some, if_true, Nat.add_assoc]

/-- Where the region of a request starts. -/
def workspaceStart (pageSize : Nat) (cur : Option (List Row × List Row)) (reqs : List ExtendReq) (index : Nat) : Nat :=
  (1 + ((reqs.take index).map fun req => pagesOf pageSize (req.workspaceLen cur)).sum) * pageSize

/-- A workspace with pages for the padding and for each request. -/
def Roomy (pageSize : Nat) (cur : Option (List Row × List Row)) (reqs : List ExtendReq) (dq : List Row) : Prop :=
  workspaceStart pageSize cur reqs reqs.length ≤ dq.length

instance (pageSize : Nat) (cur : Option (List Row × List Row)) (reqs : List ExtendReq) (dq : List Row) : Decidable (Roomy pageSize cur reqs dq) :=
  inferInstanceAs (Decidable (_ ≤ _))

theorem batch_lengths (batched : Batched reqToToken cur reqs loc) :
    (batchRows pool method globalLayer raw reqToToken cur reqs loc).map (fun rows => rows.1.length) = reqs.map (·.workspaceLen cur) ∧
      (batchRows pool method globalLayer raw reqToToken cur reqs loc).map (fun rows => rows.2.length) =
        reqs.map (·.workspaceLen cur) := by
  induction reqs generalizing loc with
  | nil => exact ⟨rfl, rfl⟩
  | cons req rest ih =>
      obtain ⟨keys, values⟩ := @length_requestRows _ _ pool method globalLayer raw _ _ _ _ _ batched
      obtain ⟨laterKeys, laterValues⟩ := ih batched.tail
      exact ⟨congrArg₂ List.cons keys laterKeys, congrArg₂ List.cons values laterValues⟩

/-- One side of the workspace: each request has its rows where its pages start,
and the padding page is as it was. -/
theorem regions_read (positive : 0 < pageSize) {batch : List (List Row)} {side : List Row}
    (lengths : batch.map List.length = reqs.map (·.workspaceLen cur)) (roomy : Roomy pageSize cur reqs side) :
    (∀ index rows place, batch[index]? = some rows → place < rows.length →
      (writeRegions (pageRegions pageSize 1 batch) side)[workspaceStart pageSize cur reqs index + place]? = rows[place]?) ∧
    ∀ place < pageSize, (writeRegions (pageRegions pageSize 1 batch) side)[place]? = side[place]? := by
  have pages (index : Nat) : ((batch.take index).map fun rows => pagesOf pageSize rows.length) =
      (reqs.take index).map fun req => pagesOf pageSize (req.workspaceLen cur) := by
    have taken := congrArg (fun widths => (widths.take index).map (pagesOf pageSize)) lengths
    simpa only [← List.map_take, List.map_map, Function.comp_def] using taken
  have fits := @pageRegions_fit Row pageSize 1 batch positive side.length (by
    have whole := pages batch.length
    have count : batch.length = reqs.length := by simpa using congrArg List.length lengths
    rw [List.take_length, count] at whole
    rw [whole]
    exact roomy)
  refine ⟨fun index rows place found bound => ?_, fun place bound => ?_⟩
  · have region := @pageRegions_getElem? Row pageSize 1 index batch
    rw [found, pages] at region
    exact writeRegions_inside (pageRegions_ordered positive 1 batch) fits (List.mem_of_getElem? region) bound
  · refine writeRegions_outside fits fun region member => .inl ?_
    have behind := pageRegions_from member
    omega

/-- A side of the loop's workspace, by requests. -/
theorem extendLoop_reads (positive : 0 < pageSize) (batched : Batched reqToToken cur reqs 0) (roomK : Roomy pageSize cur reqs dq.k)
    (roomV : Roomy pageSize cur reqs dq.v) :
    let after := pool.extendLoop method globalLayer raw reqToToken pageSize cur reqs 0 pageSize dq
    (∀ place < pageSize, after.k[place]? = dq.k[place]? ∧ after.v[place]? = dq.v[place]?) ∧
      ∀ (index : Nat) (req : ExtendReq), reqs[index]? = some req →
        let mine := requestRows pool method globalLayer raw reqToToken cur req
          (if cur.isSome then ((reqs.take index).map ExtendReq.extendLen).sum else 0)
        (∀ place < mine.1.length, after.k[workspaceStart pageSize cur reqs index + place]? = mine.1[place]?) ∧
          ∀ place < mine.2.length, after.v[workspaceStart pageSize cur reqs index + place]? = mine.2[place]? := by
  have loop := @extendLoop_eq _ _ pool method globalLayer pageSize 1 raw reqToToken cur reqs 0 dq positive batched
    (by rw [← List.take_length (l := reqs)]; exact roomK) (by rw [← List.take_length (l := reqs)]; exact roomV)
  rw [Nat.one_mul] at loop
  obtain ⟨keys, values⟩ := @batch_lengths _ _ pool method globalLayer raw _ _ _ _ batched
  obtain ⟨readK, padK⟩ := regions_read positive ((List.map_map ..).trans keys) roomK
  obtain ⟨readV, padV⟩ := regions_read positive ((List.map_map ..).trans values) roomV
  intro after
  rw [show after = _ from loop]
  refine ⟨fun place bound => ⟨padK place bound, padV place bound⟩, fun index req listed => ?_⟩
  intro mine
  have rows := @batchRows_getElem? _ _ pool method globalLayer raw reqToToken cur reqs 0 index
  rw [listed, Option.map_some, Nat.zero_add] at rows
  exact ⟨fun place => readK index mine.1 place (by rw [List.getElem?_map, rows]; rfl),
    fun place => readV index mine.2 place (by rw [List.getElem?_map, rows]; rfl)⟩

/-- What is read at a place of a prefix, and behind it. -/
theorem prefix_reads {side rest : List Row} {start place slot : Nat} {slots : List Nat} {value : Nat → Row}
    (reads : ∀ place < (slots.map value ++ rest).length, side[start + place]? = (slots.map value ++ rest)[place]?)
    (token : slots[place]? = some slot) : side[start + place]? = some (value slot) := by
  have bound : place < (slots.map value).length := (List.length_map _).symm ▸ (List.getElem?_eq_some_iff.mp token).1
  rw [reads place (by rw [List.length_append]; omega), List.getElem?_append_left bound, List.getElem?_map, token]
  rfl

theorem joined_reads {side before given : List Row} {start skipped count : Nat} (room : skipped + count ≤ given.length)
    (reads : ∀ place < (before ++ (given.drop skipped).take count).length,
      side[start + place]? = (before ++ (given.drop skipped).take count)[place]?) {place : Nat} (bound : place < count) :
    side[start + (before.length + place)]? = given[skipped + place]? := by
  have inside : before.length + place < (before ++ (given.drop skipped).take count).length := by
    rw [List.length_append, List.length_take, List.length_drop]
    omega
  rw [reads _ inside, List.getElem?_append_right (Nat.le_add_right _ _), Nat.add_sub_cancel_left, List.getElem?_take_of_lt bound,
    List.getElem?_drop]

end Extend

section Reads

variable {copyKernel : Buffer Cell → List Nat → List Nat → Buffer Cell} {size : Nat} {heads : Component → Nat} {pool : KVPool Cell}
  {method : QuantMethod Cell Row} {layer globalLayer pageSize : Nat} {raw : RawKV Cell} {reqToToken : List (List Nat)}
  {cur : Option (List Row × List Row)} {reqs : List ExtendReq} {dq : Workspace Row}

/-- A token's key and value in one layer, dequantised by their own scales. -/
def tokenRows (method : QuantMethod Cell Row) (layer globalLayer : Nat) (token : Token Cell) : Row × Row :=
  (method.dequantizeKey globalLayer ((token .k).getD layer []) ((token .kScale).getD layer []),
    method.dequantizeValue globalLayer ((token .v).getD layer []) ((token .vScale).getD layer []))

theorem raw_rows (found : pool.getRawKvBuffer layer = some raw) (slot : Nat) :
    (method.dequantizeKey globalLayer (raw.k.read pool.pageSize slot) (raw.kScale.read pool.pageSize slot),
      method.dequantizeValue globalLayer (raw.v.read pool.pageSize slot) (raw.vScale.read pool.pageSize slot)) =
      tokenRows method layer globalLayer (pool.token slot) := by
  simp only [getRawKvBuffer, Option.bind_eq_bind, Option.bind_eq_some_iff, Option.pure_def, Option.some.injEq] at found
  obtain ⟨kScale, scalesK, vScale, scalesV, k, inK, v, inV, ks, inKs, vs, inVs, rfl⟩ := found
  have row {component : Component} {buffer : Buffer Cell} (here : (pool.component component)[layer]? = some buffer) :
      (pool.token slot component).getD layer [] = buffer.read pool.pageSize slot := by
    rw [token, List.getD_eq_getElem?_getD, List.getElem?_map, here]
    rfl
  have keyScale : (pool.component .kScale)[layer]? = some ks := by rw [KVPool.component, scalesK]; exact inKs
  have valueScale : (pool.component .vScale)[layer]? = some vs := by rw [KVPool.component, scalesV]; exact inVs
  have key : (pool.component .k)[layer]? = some k := inK
  have value : (pool.component .v)[layer]? = some v := inV
  rw [tokenRows, row key, row value, row keyScale, row valueScale]

theorem extend_sum_le {index : Nat} {req : ExtendReq} (found : ∃ bound : index < reqs.length, reqs[index] = req) :
    ((reqs.take index).map ExtendReq.extendLen).sum + req.extendLen ≤ (reqs.map ExtendReq.extendLen).sum := by
  obtain ⟨bound, rfl⟩ := found
  have split := congrArg (fun reqs => (reqs.map ExtendReq.extendLen).sum) (List.take_append_drop index reqs)
  rw [List.drop_eq_getElem_cons bound, List.map_append, List.sum_append, List.map_cons, List.sum_cons] at split
  omega

end Reads

section Decode

variable {copyKernel : Buffer Cell → List Nat → List Nat → Buffer Cell} {size : Nat} {heads : Component → Nat} {pool : KVPool Cell}
  {method : QuantMethod Cell Row} {layer globalLayer : Nat} {raw : RawKV Cell} {reqToToken : List (List Nat)} {dq : Workspace Row}

theorem getElem?_putMapped {slots : List Nat} {rows : List Row} (value : Nat → Row) {slot : Nat} (bound : slot < rows.length) :
    (putSlots slots (slots.map value) rows)[slot]? = if slot ∈ slots then some (value slot) else rows[slot]? := by
  rw [getElem?_putSlots (List.length_map _) bound, List.map_map]
  exact assign_map (some ∘ value) slots (fun place => rows[place]?) slot

/-- The slot is one of a request's. -/
def Listed (reqToToken : List (List Nat)) (slot : Nat) (req : Nat × Nat) : Prop := slot ∈ (reqToToken.getD req.1 []).take req.2

instance (reqToToken : List (List Nat)) (slot : Nat) : DecidablePred (Listed reqToToken slot) := fun _ =>
  inferInstanceAs (Decidable (slot ∈ _))

theorem decodeRequest_length (req : Nat × Nat) :
    (pool.decodeRequest method globalLayer raw reqToToken dq req).k.length = dq.k.length ∧
      (pool.decodeRequest method globalLayer raw reqToToken dq req).v.length = dq.v.length := by
  unfold decodeRequest
  split
  · exact ⟨rfl, rfl⟩
  · exact ⟨length_putSlots .., length_putSlots ..⟩

theorem decodeRequest_read (found : pool.getRawKvBuffer layer = some raw) (req : Nat × Nat) {slot : Nat} (inK : slot < dq.k.length)
    (inV : slot < dq.v.length) : let rows := tokenRows method layer globalLayer (pool.token slot)
    (pool.decodeRequest method globalLayer raw reqToToken dq req).k[slot]? =
        (if Listed reqToToken slot req then some rows.1 else dq.k[slot]?) ∧
      (pool.decodeRequest method globalLayer raw reqToToken dq req).v[slot]? =
        if Listed reqToToken slot req then some rows.2 else dq.v[slot]? := by
  have rows := @raw_rows Cell Row pool method layer globalLayer raw found slot
  rw [← rows]
  unfold decodeRequest
  split
  · rename_i none
    have absent : ¬Listed reqToToken slot req := by
      rw [Listed, none, List.take_zero]
      exact List.not_mem_nil
    dsimp only
    rw [if_neg absent, if_neg absent]
    exact ⟨rfl, rfl⟩
  · exact ⟨getElem?_putMapped _ inK, getElem?_putMapped _ inV⟩

theorem decodeLoop_read (found : pool.getRawKvBuffer layer = some raw) (batch : List (Nat × Nat)) {slot : Nat} (inK : slot < dq.k.length)
    (inV : slot < dq.v.length) : let rows := tokenRows method layer globalLayer (pool.token slot)
    (batch.foldl (pool.decodeRequest method globalLayer raw reqToToken) dq).k[slot]? =
        (if ∃ req ∈ batch, Listed reqToToken slot req then some rows.1 else dq.k[slot]?) ∧
      (batch.foldl (pool.decodeRequest method globalLayer raw reqToToken) dq).v[slot]? =
        if ∃ req ∈ batch, Listed reqToToken slot req then some rows.2 else dq.v[slot]? := by
  induction batch generalizing dq with
  | nil => exact ⟨(if_neg (by simp)).symm, (if_neg (by simp)).symm⟩
  | cons req rest ih =>
      obtain ⟨keys, values⟩ := @decodeRequest_length _ _ pool method globalLayer raw reqToToken dq req
      obtain ⟨laterK, laterV⟩ := ih (keys.symm ▸ inK) (values.symm ▸ inV)
      obtain ⟨hereK, hereV⟩ := @decodeRequest_read _ _ pool method layer globalLayer raw reqToToken dq found req slot inK inV
      rw [List.foldl_cons]
      simp only [List.exists_mem_cons_iff]
      by_cases later : ∃ req ∈ rest, Listed reqToToken slot req
      · rw [if_pos later] at laterK laterV
        rw [if_pos (.inr later), if_pos (.inr later)]
        exact ⟨laterK, laterV⟩
      · rw [if_neg later] at laterK laterV
        simp only [later, or_false]
        exact ⟨laterK.trans hereK, laterV.trans hereV⟩

end Decode

section SmallBatch

/-- The payload with its scales. -/
def pairedMethod : QuantMethod Nat (List Nat) := ⟨fun _ row scale => row ++ scale, fun _ row scale => row ++ scale⟩

def movedSlots : KVPool Nat := ((Serving.machine rowsKernel).run ⟨fourSlots .mha false, none⟩ storeAndMove).pool

theorem fourSlots_raw : movedSlots.getRawKvBuffer 0 =
    some ⟨.nhd [[10], [1], [1], [10]], .nhd [[20], [2], [2], [20]], .nhd [[30], [3], [3], [30]], .nhd [[40], [4], [4], [40]]⟩ :=
  rfl

/-- Two requests, with pages of two; the second has a token that has moved. -/
def smallBatch : List ExtendReq := [⟨0, 1, 1⟩, ⟨1, 2, 1⟩]

end SmallBatch

end FlashNext.Kv
