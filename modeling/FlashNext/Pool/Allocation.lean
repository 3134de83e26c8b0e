import FlashNext.Pool.Requests

namespace FlashNext.Pool

open FlashNext.Data

def rowsUpTo (size : Nat) : Multiset Nat := List.range' 1 size

def slotsUpTo (size : Nat) : Multiset Int := (List.range' 1 size).map Int.ofNat

theorem rowsUpTo_nodup (size : Nat) : (rowsUpTo size).Nodup := List.nodup_range'

theorem slotsUpTo_nodup (size : Nat) : (slotsUpTo size).Nodup :=
  (List.nodup_map_iff fun _ _ => Int.ofNat.inj).mpr List.nodup_range'

theorem slotsUpTo_ne {size : Nat} : ∀ slot ∈ slotsUpTo size, slot ≠ -1 := by
  intro slot member
  obtain ⟨index, -, rfl⟩ := List.mem_map.mp (Multiset.mem_coe.mp member)
  exact nofun

/-- `-1` stands for a slot that is not there. -/
def real (entries : List Int) : List Int := entries.filter (· ≠ -1)

namespace Req

def row (req : Req) : Multiset Nat := req.reqPoolIdx.toList

def slots (req : Req) : Multiset Int :=
  (req.mambaPoolIdx.toList : Multiset Int) + real (req.mambaPingPongTrackBuffer.getD [])

end Req

namespace ReqToTokenPool

/-- How a request leaves the loop of `alloc`. -/
def Assigned (before after : Req) : Prop :=
  after = { before with reqPoolIdx := after.reqPoolIdx } ∧ after.reqPoolIdx.isSome ∧
    (before.reqPoolIdx.isSome → after = before)

variable {reqs : List Req} {selected generation : List Nat}

theorem assign_generation (reqs : List Req) (enough : selected.length = reqs.countP (·.reqPoolIdx.isNone)) :
    (assign reqs selected generation).2 = selected.foldl (fun counts row => counts.modify row (· + 1)) generation := by
  induction reqs generalizing selected generation with
  | nil =>
      cases List.eq_nil_of_length_eq_zero enough
      rfl
  | cons req rest ih =>
      cases held : req.reqPoolIdx with
      | some row =>
          rw [List.countP_cons_of_neg (by simp [held])] at enough
          simp only [assign, held]
          exact ih enough
      | none =>
          rw [List.countP_cons_of_pos (by simp [held])] at enough
          cases selected with
          | nil => cases enough
          | cons row later =>
              simp only [assign, held]
              exact ih (Nat.succ.inj enough)

theorem assign_reqs (reqs : List Req) (generation : List Nat) (enough : selected.length = reqs.countP (·.reqPoolIdx.isNone)) :
    List.Forall₂ Assigned reqs (assign reqs selected generation).1 ∧
      total Req.row (assign reqs selected generation).1 = total Req.row reqs + selected := by
  induction reqs generalizing selected generation with
  | nil =>
      cases List.eq_nil_of_length_eq_zero enough
      exact ⟨.nil, rfl⟩
  | cons req rest ih =>
      cases held : req.reqPoolIdx with
      | some row =>
          rw [List.countP_cons_of_neg (by simp [held])] at enough
          simp only [assign, held]
          obtain ⟨each, moved⟩ := ih generation enough
          refine ⟨.cons ⟨rfl, by simp [held], fun _ => rfl⟩ each, ?_⟩
          rw [total_cons, total_cons, moved, add_assoc]
      | none =>
          rw [List.countP_cons_of_pos (by simp [held])] at enough
          cases selected with
          | nil => cases enough
          | cons row later =>
              simp only [assign, held]
              obtain ⟨each, moved⟩ := ih (generation.modify row (· + 1)) (Nat.succ.inj enough)
              refine ⟨.cons ⟨rfl, rfl, by simp [held]⟩ each, ?_⟩
              have here : Req.row { req with reqPoolIdx := some row } = {row} := rfl
              have empty : req.row = 0 := by rw [Req.row, held]; rfl
              rw [total_cons, total_cons, moved, here, empty, zero_add, ← Multiset.cons_coe, ← Multiset.singleton_add,
                add_left_comm]

/-- What `alloc` has done once it answers: the rows of the batch, taken from the free ones. -/
structure Taken (pool : ReqToTokenPool) (reqs : List Req) (rows : List Nat) (base : ReqToTokenPool)
    (after : List Req) : Prop where
  size : base.size = pool.size
  answered : rows = after.filterMap (·.reqPoolIdx)
  each : List.Forall₂ Assigned reqs after
  moved : (base.freeSlots : Multiset Nat) + total Req.row after = pool.freeSlots + total Req.row reqs
  counted : ∃ selected, selected <:+ pool.freeSlots ∧ total Req.row after = total Req.row reqs + selected ∧
    base.reqGeneration = selected.foldl (fun counts row => counts.modify row (· + 1)) pool.reqGeneration

theorem countP_isNone (reqs : List Req) :
    reqs.countP (·.reqPoolIdx.isNone) = reqs.length - (reqs.filter (·.reqPoolIdx.isSome)).length := by
  have split := List.length_eq_countP_add_countP (l := reqs) fun req => req.reqPoolIdx.isSome
  have flipped : reqs.countP (·.reqPoolIdx.isNone) = reqs.countP (fun req => ¬req.reqPoolIdx.isSome) :=
    List.countP_congr fun req _ => by simp
  rw [flipped, ← List.countP_eq_length_filter]
  omega

theorem alloc_taken {pool base : ReqToTokenPool} {rows : List Nat} {after : List Req}
    (answered : pool.alloc reqs = .ok (some (rows, base, after))) : Taken pool reqs rows base after := by
  simp only [alloc] at answered
  split at answered
  · split at answered
    · cases answered
    · rename_i room
      simp only [Except.ok.injEq, Option.some.injEq, Prod.mk.injEq] at answered
      obtain ⟨rfl, rfl, rfl⟩ := answered
      have enough : (pool.freeSlots.drop (pool.freeSlots.length -
          (reqs.length - (reqs.filter (·.reqPoolIdx.isSome)).length))).length =
          reqs.countP (·.reqPoolIdx.isNone) := by
        rw [countP_isNone, List.length_drop]
        omega
      obtain ⟨each, moved⟩ := assign_reqs reqs pool.reqGeneration enough
      refine ⟨rfl, rfl, each, ?_, _, List.drop_suffix _ _, moved, assign_generation reqs enough⟩
      dsimp only
      rw [moved, add_comm (total Req.row reqs), ← add_assoc, Multiset.coe_add, List.take_append_drop]
  · cases answered

end ReqToTokenPool

/-- What is known of the allocator: its free slots, and all that it was built with. -/
structure Accounts {Slots : Type} (allocator : MambaSlotAllocator Slots) where
  free : Slots → Multiset Int
  all : Slots → Multiset Int
  built : ∀ size, free (allocator.init size) = slotsUpTo size ∧ all (allocator.init size) = slotsUpTo size
  served : ∀ {slots rest n taken}, allocator.alloc slots n = (some taken, rest) →
    taken.length = n ∧ (taken : Multiset Int) + free rest = free slots ∧ all rest = all slots
  refused : ∀ {slots rest n}, allocator.alloc slots n = (none, rest) → free rest = free slots ∧ all rest = all slots
  freed : ∀ slots taken, free (allocator.free slots taken) = free slots + (taken : Multiset Int) ∧
    all (allocator.free slots taken) = all slots
  cleared : ∀ slots, free (allocator.clear slots) = all slots ∧ all (allocator.clear slots) = all slots

variable {Slots : Type} {allocator : MambaSlotAllocator Slots} {accounts : Accounts allocator}
  {pool : HybridReqToTokenPool Slots} {req : Req} {left later : Left Slots}

/-- A track buffer has its size; only lazy ones have gaps. -/
def Shaped (pool : HybridReqToTokenPool Slots) (req : Req) : Prop :=
  ∀ buffer, req.mambaPingPongTrackBuffer = some buffer → pool.enableMambaExtraBuffer ∧
    buffer.length = pool.mambaPingPongTrackBufferSize ∧ (pool.enableMambaExtraBufferLazy = false → -1 ∉ buffer)

/-- Slots have moved from the allocator to a request, and nothing else has changed. -/
structure Served (accounts : Accounts allocator) (pool : HybridReqToTokenPool Slots) (req : Req)
    (left : Left Slots) : Prop where
  rest : left.pool = { pool with mambaAllocator := left.pool.mambaAllocator, replaySSM := left.pool.replaySSM }
  all : accounts.all left.pool.mambaAllocator = accounts.all pool.mambaAllocator
  moved : accounts.free left.pool.mambaAllocator + left.req.slots = accounts.free pool.mambaAllocator + req.slots
  fewer : accounts.free left.pool.mambaAllocator ≤ accounts.free pool.mambaAllocator
  row : left.req.reqPoolIdx = req.reqPoolIdx
  shaped : Shaped pool req → Shaped pool left.req

theorem Served.refl (accounts : Accounts allocator) (pool : HybridReqToTokenPool Slots) (req : Req) (fault : Option Fault) :
    Served accounts pool req ⟨fault, pool, req⟩ := ⟨rfl, rfl, rfl, le_rfl, rfl, id⟩

theorem Shaped.congr {other : HybridReqToTokenPool Slots} (extra : other.enableMambaExtraBuffer = pool.enableMambaExtraBuffer)
    (size : other.mambaPingPongTrackBufferSize = pool.mambaPingPongTrackBufferSize)
    (isLazy : other.enableMambaExtraBufferLazy = pool.enableMambaExtraBufferLazy) (shaped : Shaped pool req) :
    Shaped other req := by
  intro buffer held
  rw [extra, size, isLazy]
  exact shaped buffer held

theorem Served.trans (first : Served accounts pool req left) (second : Served accounts left.pool left.req later) :
    Served accounts pool req later where
  rest := by rw [second.rest, first.rest]
  all := second.all.trans first.all
  moved := second.moved.trans first.moved
  fewer := second.fewer.trans first.fewer
  row := second.row.trans first.row
  shaped shaped := by
    have agree := first.rest
    have here := second.shaped ((first.shaped shaped).congr (by rw [agree]) (by rw [agree]) (by rw [agree]))
    exact here.congr (by rw [agree]) (by rw [agree]) (by rw [agree])

theorem real_of_mem {entries : List Int} (present : ∀ entry ∈ entries, entry ≠ -1) : real entries = entries :=
  List.filter_eq_self.mpr fun entry member => by simpa using present entry member

theorem real_append_gaps (entries : List Int) (gaps : Nat) : real (entries ++ List.replicate gaps (-1)) = real entries := by
  rw [real, List.filter_append, List.filter_replicate_of_neg (by simp), List.append_nil, real]

open HybridReqToTokenPool

theorem allocMambaSlot_served (accounts : Accounts allocator) (pool : HybridReqToTokenPool Slots) (req : Req) :
    Served accounts pool req (allocMambaSlot allocator pool req) := by
  unfold allocMambaSlot
  cases held : req.mambaPoolIdx with
  | some slot => exact .refl _ _ _ _
  | none =>
      cases answered : allocator.alloc pool.mambaAllocator 1 with
      | mk taken rest =>
          cases taken with
          | none =>
              obtain ⟨same, kept⟩ := accounts.refused answered
              exact ⟨rfl, kept, congrArg (· + req.slots) same, same.le, rfl, id⟩
          | some taken =>
              obtain ⟨count, moved, kept⟩ := accounts.served answered
              cases taken with
              | nil => cases count
              | cons slot more =>
                  cases List.eq_nil_of_length_eq_zero (Nat.succ.inj count)
                  refine ⟨rfl, kept, ?_, moved ▸ Multiset.le_add_left _ _, rfl, id⟩
                  rw [Req.slots, Req.slots, held, ← moved]
                  simp only [Option.toList_some, Option.toList_none, Multiset.coe_nil, zero_add]
                  rw [← add_assoc, add_comm (accounts.free rest)]

theorem allocPingPongBuffer_served (accounts : Accounts allocator) (extra : pool.enableMambaExtraBuffer = true)
    (sized : 0 < pool.mambaPingPongTrackBufferSize) (missing : req.mambaPingPongTrackBuffer = none)
    (present : ∀ slot ∈ accounts.free pool.mambaAllocator, slot ≠ -1) :
    Served accounts pool req (allocPingPongBuffer allocator pool req) := by
  unfold allocPingPongBuffer
  dsimp only
  generalize wanted : (if pool.enableMambaExtraBufferLazy then 1 else pool.mambaPingPongTrackBufferSize) = n
  cases answered : allocator.alloc pool.mambaAllocator n with
  | mk taken rest =>
      cases taken with
      | none =>
          obtain ⟨same, kept⟩ := accounts.refused answered
          exact ⟨rfl, kept, congrArg (· + req.slots) same, same.le, rfl, id⟩
      | some taken =>
          obtain ⟨count, moved, kept⟩ := accounts.served answered
          have slots : ∀ slot ∈ taken, slot ≠ -1 := fun slot member =>
            present slot (moved ▸ Multiset.mem_add.mpr (.inl (Multiset.mem_coe.mpr member)))
          refine ⟨rfl, kept, ?_, moved ▸ Multiset.le_add_left _ _, rfl, ?_⟩
          · rw [Req.slots, Req.slots, missing, ← moved]
            have nothing : real [] = [] := rfl
            simp only [Option.getD_some, Option.getD_none, real_append_gaps, real_of_mem slots, nothing, Multiset.coe_nil,
              add_zero]
            rw [add_comm (taken : Multiset Int), add_assoc, add_comm (taken : Multiset Int)]
          · intro _ buffer held
            cases held
            have fits : n ≤ pool.mambaPingPongTrackBufferSize := by
              rw [← wanted]
              split
              · exact sized
              · exact le_rfl
            refine ⟨extra, by rw [List.length_append, List.length_replicate, count, Nat.add_sub_cancel' fits], ?_⟩
            intro eager member
            rw [if_neg (by simp [eager])] at wanted
            rw [← wanted, Nat.sub_self, List.replicate_zero, List.append_nil] at member
            exact slots _ member rfl

theorem allocFor_served (accounts : Accounts allocator) (pool : HybridReqToTokenPool Slots) (req : Req)
    (sized : 0 < pool.mambaPingPongTrackBufferSize)
    (present : ∀ slot ∈ accounts.free pool.mambaAllocator, slot ≠ -1) :
    Served accounts pool req (allocFor allocator pool req) := by
  have first := allocMambaSlot_served accounts pool req
  unfold allocFor
  dsimp only
  split
  · rename_i proceed
    have agree := first.rest
    refine first.trans (allocPingPongBuffer_served accounts (by simpa using proceed.2.1) ?_ proceed.2.2 ?_)
    · rw [agree]
      exact sized
    · exact fun slot member => present slot (Multiset.mem_of_le first.fewer member)
  · exact first

/-- A served request has its mamba slot and, where these are used, its track buffer. -/
def Complete (pool : HybridReqToTokenPool Slots) (req : Req) : Prop :=
  req.mambaPoolIdx.isSome ∧ (pool.enableMambaExtraBuffer → req.mambaPingPongTrackBuffer.isSome)

theorem allocFor_complete (served : (allocFor allocator pool req).fault = none) :
    Complete pool (allocFor allocator pool req).req := by
  have slot (left : Left Slots) (same : allocMambaSlot allocator pool req = left) (fine : left.fault = none) :
      left.req.mambaPoolIdx.isSome ∧ left.pool.enableMambaExtraBuffer = pool.enableMambaExtraBuffer := by
    subst same
    unfold allocMambaSlot at fine ⊢
    cases held : req.mambaPoolIdx with
    | some slot => exact ⟨by simp [held], rfl⟩
    | none =>
        rw [held] at fine
        dsimp only at fine ⊢
        split at fine
        · exact ⟨rfl, rfl⟩
        · cases fine
  unfold allocFor at served ⊢
  dsimp only at served ⊢
  split at served
  · rename_i proceed
    rw [if_pos proceed]
    obtain ⟨owned, -⟩ := slot _ rfl proceed.1
    unfold allocPingPongBuffer at served ⊢
    dsimp only at served ⊢
    split at served
    · exact ⟨owned, fun _ => rfl⟩
    · cases served
  · rename_i stop
    rw [if_neg stop]
    obtain ⟨owned, extra⟩ := slot _ rfl served
    refine ⟨owned, fun enabled => ?_⟩
    by_contra missing
    exact stop ⟨served, by rw [extra]; exact enabled, by simpa using missing⟩

/-- What the loop over a batch leaves: each request served in turn, the later
ones untouched after a failed assertion. -/
structure BatchServed (accounts : Accounts allocator) (pool : HybridReqToTokenPool Slots) (reqs : List Req)
    (fault : Option Fault) (after : HybridReqToTokenPool Slots) (served : List Req) : Prop where
  rest : after = { pool with mambaAllocator := after.mambaAllocator, replaySSM := after.replaySSM }
  all : accounts.all after.mambaAllocator = accounts.all pool.mambaAllocator
  moved : accounts.free after.mambaAllocator + total Req.slots served =
    accounts.free pool.mambaAllocator + total Req.slots reqs
  rows : served.map (·.reqPoolIdx) = reqs.map (·.reqPoolIdx)
  shaped : (∀ req ∈ reqs, Shaped pool req) → ∀ req ∈ served, Shaped pool req
  complete : fault = none → ∀ req ∈ served, Complete pool req

theorem allocEach_served (accounts : Accounts allocator) (pool : HybridReqToTokenPool Slots) (reqs : List Req)
    (sized : 0 < pool.mambaPingPongTrackBufferSize)
    (present : ∀ slot ∈ accounts.free pool.mambaAllocator, slot ≠ -1) :
    BatchServed accounts pool reqs (allocEach allocator pool reqs).1 (allocEach allocator pool reqs).2.1
      (allocEach allocator pool reqs).2.2 := by
  induction reqs generalizing pool with
  | nil => exact ⟨rfl, rfl, rfl, rfl, fun _ => nofun, fun _ => nofun⟩
  | cons req rest ih =>
      have first := allocFor_served accounts pool req sized present
      have whole := @allocFor_complete _ allocator pool req
      have agree := first.rest
      unfold allocEach
      dsimp only
      cases outcome : (allocFor allocator pool req).fault with
      | some fault =>
          refine ⟨agree, first.all, ?_, by simp [first.row], ?_, nofun⟩
          · rw [total_cons, total_cons, ← add_assoc, ← add_assoc, first.moved]
          · intro shaped
            obtain ⟨here, others⟩ := List.forall_mem_cons.mp shaped
            exact List.forall_mem_cons.mpr ⟨first.shaped here, others⟩
      | none =>
          have others := ih (allocFor allocator pool req).pool (by rw [agree]; exact sized)
            fun slot member => present slot (Multiset.mem_of_le first.fewer member)
          have extra : (allocFor allocator pool req).pool.enableMambaExtraBuffer = pool.enableMambaExtraBuffer := by rw [agree]
          have shape {other : Req} : Shaped (allocFor allocator pool req).pool other ↔ Shaped pool other :=
            ⟨Shaped.congr (by rw [agree]) (by rw [agree]) (by rw [agree]),
              Shaped.congr (by rw [agree]) (by rw [agree]) (by rw [agree])⟩
          refine ⟨others.rest.trans (by rw [agree]), others.all.trans first.all, ?_, ?_, ?_, ?_⟩
          · rw [total_cons, total_cons, add_left_comm, others.moved, add_left_comm, ← add_assoc, first.moved, add_assoc]
          · rw [List.map_cons, List.map_cons, first.row, others.rows]
          · intro shaped
            obtain ⟨here, tail⟩ := List.forall_mem_cons.mp shaped
            have moved := others.shaped fun req member => shape.mpr (tail req member)
            exact List.forall_mem_cons.mpr ⟨first.shaped here, fun req member => shape.mp (moved req member)⟩
          · intro fine
            have done := others.complete fine
            refine List.forall_mem_cons.mpr ⟨whole outcome, fun req member => ?_⟩
            obtain ⟨slot, buffer⟩ := done req member
            exact ⟨slot, fun enabled => buffer (extra ▸ enabled)⟩

end FlashNext.Pool
