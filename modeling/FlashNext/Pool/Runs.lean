import FlashNext.Pool.Ownership

namespace FlashNext.Pool

open FlashNext.Data HybridReqToTokenPool Serving

variable {Slots : Type} {allocator : MambaSlotAllocator Slots} {accounts : Accounts allocator} {numRows numSlots : Nat}
  {pool next : HybridReqToTokenPool Slots} {req : Req} {state : Serving Slots} {event : Event}

theorem call_sound {id : Nat} {act : Req → Serving Slots} (sound : Sound accounts numRows numSlots state)
    (each : ∀ req, state.requests[id]? = some req → Sound accounts numRows numSlots (act req)) :
    Sound accounts numRows numSlots (state.call id act) := by
  unfold call
  cases found : state.requests[id]? with
  | none => exact sound
  | some req => exact each req found

theorem perform_sound (sound : Sound accounts numRows numSlots state) (running : state.halted = false)
    (permitted : Permitted state event) : Sound accounts numRows numSlots (perform allocator state event) := by
  cases event with
  | arrive => exact arrive_sound sound
  | progress id chunks committed => exact withReq_sound sound running id _ (fun _ => rfl) (fun _ => rfl) fun _ => rfl
  | track id next last => exact withReq_sound sound running id _ (fun _ => rfl) (fun _ => rfl) fun _ => rfl
  | reserve count => exact reserve_sound sound count
  | release slots => exact release_sound sound permitted
  | adopt id slot =>
      obtain ⟨given, req, found, without, rowless⟩ := permitted
      exact adopt_sound sound running given found without rowless
  | alloc ids => exact alloc_sound sound running permitted.1 permitted.2
  | setPingPongSlot id idx value =>
      exact call_sound sound fun req found => setMambaPingPongSlot_sound sound running _ found permitted.1
  | donate id newSlot => exact call_sound sound fun req found => donate_sound sound running found permitted.1
  | freeMambaCache id keep =>
      exact call_sound sound fun req found => freeMambaCache_sound sound running found (permitted req found)
  | free id => exact call_sound sound fun req found => free_sound sound running found
  | clear => exact clear_sound sound permitted

theorem step_sound (sound : Sound accounts numRows numSlots state) (permitted : Permitted state event) :
    Sound accounts numRows numSlots ((machine allocator).step state event).2 := by
  cases running : state.halted with
  | true => simpa only [machine, running, if_true] using sound
  | false => simpa [machine, running] using perform_sound sound running permitted

theorem run_sound {events : List Event} (sound : Sound accounts numRows numSlots state)
    (permitted : (machine allocator).Meets Permitted state events) :
    ∀ seen ∈ (machine allocator).settled state events, Sound accounts numRows numSlots seen :=
  Machine.settled_invariant (fun _ _ => step_sound) sound permitted

structure Handles (state : Serving Slots) : Prop where
  once : state.handed.Nodup
  counted : ∀ handle ∈ state.handed, handle.2 ≤ state.pool.base.reqGeneration.getD handle.1 0

section Counting

variable {selected generation : List Nat} {row : Nat}

theorem count_other (absent : row ∉ selected) :
    (selected.foldl (fun counts row => counts.modify row (· + 1)) generation).getD row 0 = generation.getD row 0 := by
  induction selected generalizing generation with
  | nil => rfl
  | cons first rest ih =>
      have apart : row ≠ first := fun same => absent (by simp [same])
      rw [List.foldl_cons, ih fun later => absent (by simp [later]), List.getD_eq_getElem?_getD, List.getElem?_modify_ne _ _ (Ne.symm apart),
        ← List.getD_eq_getElem?_getD]

theorem count_selected (distinct : selected.Nodup) (listed : row ∈ selected) (bound : row < generation.length) :
    (selected.foldl (fun counts row => counts.modify row (· + 1)) generation).getD row 0 = generation.getD row 0 + 1 := by
  induction selected generalizing generation with
  | nil => cases listed
  | cons first rest ih =>
      obtain ⟨once, distinct⟩ := List.nodup_cons.mp distinct
      rw [List.foldl_cons]
      by_cases here : row = first
      · subst here
        rw [count_other once, List.getD_eq_getElem?_getD, List.getElem?_modify_eq, List.getD_eq_getElem?_getD,
          List.getElem?_eq_getElem bound]
        rfl
      · rw [ih distinct ((List.mem_cons.mp listed).resolve_left here) (by rwa [List.length_modify]),
          List.getD_eq_getElem?_getD, List.getElem?_modify_ne _ _ (Ne.symm here), ← List.getD_eq_getElem?_getD]

end Counting

theorem handouts_congr {reqs before served : List Req} {generation : List Nat}
    (same : served.map (·.reqPoolIdx) = before.map (·.reqPoolIdx)) :
    handouts reqs served generation = handouts reqs before generation := by
  have views (after : List Req) : handouts reqs after generation =
      ((reqs.map (·.reqPoolIdx)).zip (after.map (·.reqPoolIdx))).filterMap fun pair =>
        if pair.1 = none then pair.2.map fun row => (row, generation.getD row 0) else none := by
    rw [List.zip_map, List.filterMap_map]
    rfl
  rw [views, views, same]

theorem handouts_cons (req after : Req) (reqs before : List Req) (generation : List Nat) :
    handouts (req :: reqs) (after :: before) generation =
      (if req.reqPoolIdx = none then after.reqPoolIdx.map fun row => (row, generation.getD row 0) else none).toList ++
        handouts reqs before generation := by
  rw [handouts, List.zip_cons_cons, List.filterMap_cons]
  dsimp only
  generalize (if req.reqPoolIdx = none then after.reqPoolIdx.map fun row => (row, generation.getD row 0) else none) = first
  cases first <;> rfl

theorem handouts_self (reqs : List Req) (generation : List Nat) : handouts reqs reqs generation = [] := by
  induction reqs with
  | nil => rfl
  | cons req rest ih =>
      rw [handouts_cons, ih]
      cases held : req.reqPoolIdx with
      | none => rfl
      | some row => rfl

theorem mem_handouts {reqs before : List Req} {generation : List Nat} {handle : Nat × Nat}
    (member : handle ∈ handouts reqs before generation) : handle.2 = generation.getD handle.1 0 := by
  obtain ⟨pair, -, given⟩ := List.mem_filterMap.mp member
  split at given
  · obtain ⟨row, -, rfl⟩ := Option.map_eq_some_iff.mp given
    rfl
  · cases given

/-- The rows handed out are those that the batch did not have. -/
theorem handouts_rows {reqs before : List Req} (each : List.Forall₂ ReqToTokenPool.Assigned reqs before)
    (generation : List Nat) :
    total Req.row before = total Req.row reqs + ((handouts reqs before generation).map Prod.fst : List Nat) := by
  induction each with
  | nil => rfl
  | @cons req after _ _ one _ ih =>
      obtain ⟨row, rowed⟩ := Option.isSome_iff_exists.mp one.2.1
      rw [total_cons, total_cons, ih, Req.row, Req.row, handouts_cons]
      cases held : req.reqPoolIdx with
      | some old =>
          rw [one.2.2 (by simp [held]), held, if_neg (by simp), add_assoc]
          rfl
      | none =>
          have empty : ((none : Option Nat).toList : Multiset Nat) = 0 := rfl
          rw [rowed, if_pos rfl, Option.map_some, List.map_append, ← Multiset.coe_add, empty, zero_add]
          exact add_left_comm _ _ _

theorem perform_counts (counting : ∀ ids, event ≠ .alloc ids) (kept : event ≠ .clear) :
    (perform allocator state event).handed = state.handed ∧
      (perform allocator state event).pool.base.reqGeneration = state.pool.base.reqGeneration := by
  have called (id : Nat) (left : Req → Left Slots) (gives takes : Req → List Int)
      (same : ∀ req, (left req).pool.base.reqGeneration = state.pool.base.reqGeneration) :
      (state.call id fun req => state.after id (left req) (gives req) (takes req)).handed = state.handed ∧
      (state.call id fun req => state.after id (left req) (gives req) (takes req)).pool.base.reqGeneration =
        state.pool.base.reqGeneration := by
    unfold call
    split
    · exact ⟨rfl, rfl⟩
    · exact ⟨rfl, same _⟩
  have set (req : Req) (idx : Nat) (value : Int) :
      (state.pool.setMambaPingPongSlot req idx value).pool.base.reqGeneration = state.pool.base.reqGeneration := by
    unfold setMambaPingPongSlot
    split
    · split <;> rfl
    · rfl
    · rfl
  cases event with
  | alloc ids => exact absurd rfl (counting ids)
  | clear => exact absurd rfl kept
  | setPingPongSlot id idx value => exact called id _ _ _ fun req => set req idx value
  | donate id newSlot =>
      refine called id _ _ _ fun req => ?_
      unfold donateMambaPingPongSlot
      split
      · exact set _ _ _
      · rfl
  | freeMambaCache id keep =>
      refine called id _ _ _ fun req => ?_
      unfold freeMambaCache
      dsimp only
      split
      · rfl
      · split
        · split
          · rfl
          · split <;> rfl
        · rfl
  | free id =>
      refine called id _ _ _ fun req => ?_
      unfold HybridReqToTokenPool.free ReqToTokenPool.free
      cases req.reqPoolIdx <;> rfl
  | _ => exact ⟨rfl, rfl⟩

/-- Whatever comes of the loop over a batch, its new rows are counted. -/
theorem batch_handles (sound : Sound accounts numRows numSlots state) (handles : Handles state) {ids rows : List Nat}
    {base : ReqToTokenPool} {before served : List Req} {fault : Option Fault}
    (batch : BatchLeft accounts state ids rows base before fault next served) (requests : List Req) (halted : Bool) :
    Handles {
      pool := settled fault next rows served, requests, held := state.held, halted
      handed := state.handed ++ handouts (takeSlots ids state.requests) served next.base.reqGeneration } := by
  obtain ⟨selected, suffix, moved, counted⟩ := batch.taken.counted
  have generation : next.base.reqGeneration = base.reqGeneration := by rw [batch.loop.rest]
  have settledGeneration : (settled fault next rows served).base.reqGeneration = next.base.reqGeneration := by
    cases fault <;> rfl
  have given : ((handouts (takeSlots ids state.requests) served next.base.reqGeneration).map Prod.fst : Multiset Nat) =
      selected := by
    rw [handouts_congr batch.loop.rows]
    exact add_left_cancel ((handouts_rows batch.taken.each _).symm.trans moved)
  have free {row : Nat} (listed : row ∈ selected) : row ∈ rowsUpTo numRows := by
    rw [← sound.rows]
    exact Multiset.mem_add.mpr (.inl (Multiset.mem_coe.mpr (suffix.subset listed)))
  have distinct : selected.Nodup := by
    have rowsDistinct : (state.pool.base.freeSlots : Multiset Nat).Nodup :=
      Multiset.nodup_of_le (Multiset.le_add_right _ _) (sound.rows ▸ rowsUpTo_nodup numRows)
    exact (Multiset.coe_nodup.mp rowsDistinct).sublist suffix.sublist
  have bumped {row : Nat} (listed : row ∈ selected) : next.base.reqGeneration.getD row 0 =
      state.pool.base.reqGeneration.getD row 0 + 1 := by
    rw [generation, counted]
    refine count_selected distinct listed ?_
    have bounds := List.mem_range'_1.mp (Multiset.mem_coe.mp (free listed))
    rw [sound.built.generations]
    omega
  have grows (row : Nat) : state.pool.base.reqGeneration.getD row 0 ≤ next.base.reqGeneration.getD row 0 := by
    by_cases listed : row ∈ selected
    · exact (Nat.le_succ _).trans_eq (bumped listed).symm
    · rw [generation, counted, count_other listed]
  have fresh {handle : Nat × Nat}
      (member : handle ∈ handouts (takeSlots ids state.requests) served next.base.reqGeneration) :
      handle.1 ∈ selected := by
    have row : handle.1 ∈ ((handouts (takeSlots ids state.requests) served next.base.reqGeneration).map Prod.fst :
        Multiset Nat) := Multiset.mem_coe.mpr (List.mem_map_of_mem member)
    rw [given] at row
    exact Multiset.mem_coe.mp row
  refine ⟨List.nodup_append.mpr ⟨handles.once, ?_, ?_⟩, ?_⟩
  · exact List.Nodup.of_map Prod.fst (Multiset.coe_nodup.mp (given ▸ Multiset.coe_nodup.mpr distinct))
  · rintro old before _ member rfl
    have bound := handles.counted old before
    rw [mem_handouts member, bumped (fresh member)] at bound
    omega
  · intro handle member
    rw [settledGeneration]
    rcases List.mem_append.mp member with old | new
    · exact (handles.counted handle old).trans (grows _)
    · exact (mem_handouts new).le

theorem alloc_handles (sound : Sound accounts numRows numSlots state) (handles : Handles state) {ids : List Nat}
    (distinct : ids.Nodup) (inside : ∀ id ∈ ids, id < state.requests.length) :
    Handles (perform allocator state (.alloc ids)) := by
  have unchanged (requests : List Req) (halted : Bool) : Handles
      { state with
        requests, halted
        handed := state.handed ++ handouts (takeSlots ids state.requests) (takeSlots ids state.requests)
          state.pool.base.reqGeneration } := by
    rw [handouts_self, List.append_nil]
    exact ⟨handles.once, handles.counted⟩
  have sized : 0 < state.pool.mambaPingPongTrackBufferSize := by
    rcases sound.built.trackSize with one | two <;> omega
  simp only [perform, HybridReqToTokenPool.alloc]
  cases answered : state.pool.base.alloc (takeSlots ids state.requests) with
  | error fault => exact unchanged _ _
  | ok answer =>
      cases answer with
      | none => exact unchanged _ _
      | some answer =>
          obtain ⟨rows, base, before⟩ := answer
          have taken := ReqToTokenPool.alloc_taken answered
          have loop := allocEach_served accounts { state.pool with base } before sized sound.free_real
          dsimp only
          generalize allocEach allocator { state.pool with base } before = left at loop ⊢
          obtain ⟨fault, next, served⟩ := left
          have batch : BatchLeft accounts state ids rows base before fault next served := ⟨distinct, inside, taken, loop⟩
          have whole := batch_handles sound handles batch (putSlots ids served state.requests)
          cases fault with
          | some fault => exact whole true
          | none =>
              cases served with
              | nil =>
                  obtain rfl : rows = [] := batch.answered
                  simp only [settled, register_nil] at whole
                  exact whole true
              | cons req rest => exact whole false

theorem quiet_handles (handles : Handles state) (counting : ∀ ids, event ≠ .alloc ids) (kept : event ≠ .clear) :
    Handles (perform allocator state event) := by
  have kept : (perform allocator state event).handed = _ ∧ _ := perform_counts counting kept
  obtain ⟨handed, generation⟩ := kept
  refine ⟨handed ▸ handles.once, fun handle member => ?_⟩
  rw [generation]
  exact handles.counted handle (handed ▸ member)

theorem step_handles (sound : Sound accounts numRows numSlots state) (handles : Handles state)
    (permitted : Permitted state event) : Handles ((machine allocator).step state event).2 := by
  have done : Handles (perform allocator state event) := by
    cases event with
    | alloc ids => exact alloc_handles sound handles permitted.1 permitted.2
    | clear => exact ⟨List.nodup_nil, nofun⟩
    | _ => exact quiet_handles handles nofun nofun
  cases running : state.halted with
  | true => simpa only [machine, running, if_true] using handles
  | false => simpa [machine, running] using done

section FromTheStart

variable (accounts) (numRows numSlots) (extra isLazy overlap : Bool) (replaySSM : ReplayCursors)

theorem init_sound : Sound accounts numRows numSlots (.init allocator numRows numSlots extra isLazy overlap replaySSM) where
  built := {
    size := rfl
    trackSize := by
      cases overlap with
      | false => exact .inl rfl
      | true => exact .inr rfl
    mapping := List.length_replicate
    trackMapping := List.length_replicate
    generations := List.length_replicate }
  all := (accounts.built numSlots).2
  slots := (add_zero _).trans ((add_zero _).trans (accounts.built numSlots).1)
  rows := add_zero _
  shaped := nofun
  registered := fun _ => nofun

/-- In every state that a run reaches, also after a failed assertion, each mamba
slot is free, or held by the cache, or a request's own, or in one track buffer,
and never two of these. -/
theorem mambaSlots_conserved (events : List Event) (permitted : (machine allocator).Meets Permitted
      (.init allocator numRows numSlots extra isLazy overlap replaySSM) events) :
    ∀ seen ∈ (machine allocator).settled (.init allocator numRows numSlots extra isLazy overlap replaySSM) events,
      accounts.free seen.pool.mambaAllocator + seen.held + total Req.slots seen.requests = slotsUpTo numSlots :=
  fun seen reached =>
    (run_sound (init_sound accounts numRows numSlots extra isLazy overlap replaySSM) permitted seen reached).slots

/-- What the device reads for a batch are the slots of its requests, and no other
request of the batch, no free list and no cache has any of them. -/
theorem device_shows_requests (events : List Event) (permitted : (machine allocator).Meets Permitted
      (.init allocator numRows numSlots extra isLazy overlap replaySSM) events) :
    ∀ seen ∈ (machine allocator).settled (.init allocator numRows numSlots extra isLazy overlap replaySSM) events,
      seen.halted = false → ∀ ids : List Nat, ids.Nodup →
      (∀ id ∈ ids, ∃ req ∈ seen.requests[id]?, req.reqPoolIdx.isSome ∧ req.mambaPoolIdx.isSome) →
      ∀ batch, batch = takeSlots ids seen.requests →
        seen.pool.getMambaIndices (batch.filterMap (·.reqPoolIdx)) = batch.filterMap (·.mambaPoolIdx) ∧
        (seen.pool.enableMambaExtraBuffer →
          takeSlots (batch.filterMap (·.reqPoolIdx)) seen.pool.reqIndexToMambaPingPongTrackBufferMapping =
            batch.filterMap (·.mambaPingPongTrackBuffer)) ∧
        (accounts.free seen.pool.mambaAllocator + seen.held + total Req.slots batch).Nodup := by
  intro seen reached running ids distinct live batch taken
  have sound := run_sound (init_sound accounts numRows numSlots extra isLazy overlap replaySSM) permitted seen reached
  have inside : ∀ id ∈ ids, id < seen.requests.length := fun id member => by
    obtain ⟨req, found, -⟩ := live id member
    exact (List.getElem?_eq_some_iff.mp found).1
  have served : ∀ req ∈ batch, ∃ row slot, req.reqPoolIdx = some row ∧ req.mambaPoolIdx = some slot ∧
      Mirrored seen.pool req row := by
    intro req member
    rw [taken] at member
    obtain ⟨id, listed, found⟩ := List.mem_filterMap.mp member
    obtain ⟨other, atId, rowed, owned⟩ := live id listed
    cases Option.some.inj (found.symm.trans atId)
    obtain ⟨row, rowed⟩ := Option.isSome_iff_exists.mp rowed
    obtain ⟨slot, owned⟩ := Option.isSome_iff_exists.mp owned
    exact ⟨row, slot, rowed, owned, sound.registered running req (List.mem_of_getElem? found) row rowed⟩
  refine ⟨?_, fun tracking => ?_, ?_⟩
  · rw [getMambaIndices, takeSlots, List.filterMap_filterMap]
    refine List.filterMap_congr fun req member => ?_
    obtain ⟨row, slot, rowed, owned, mirrored⟩ := served req member
    rw [rowed, owned]
    exact mirrored.slot slot owned
  · rw [takeSlots, List.filterMap_filterMap]
    refine List.filterMap_congr fun req member => ?_
    obtain ⟨row, slot, rowed, owned, mirrored⟩ := served req member
    obtain ⟨buffer, buffered⟩ := Option.isSome_iff_exists.mp (mirrored.tracked tracking (by simp [owned]))
    rw [rowed, buffered]
    exact mirrored.buffer buffer buffered
  · have part : total Req.slots batch ≤ total Req.slots seen.requests := taken ▸ total_takeSlots_le distinct inside
    refine Multiset.nodup_of_le (add_le_add_right part _) ?_
    rw [sound.slots]
    exact slotsUpTo_nodup numSlots

include accounts in
/-- Each row of the token table but the first is free or one request's, and a row
and its generation are handed out together at most once before a reset. -/
theorem rows_conserved (events : List Event) (permitted : (machine allocator).Meets Permitted
      (.init allocator numRows numSlots extra isLazy overlap replaySSM) events) :
    ∀ seen ∈ (machine allocator).settled (.init allocator numRows numSlots extra isLazy overlap replaySSM) events,
      (seen.pool.base.freeSlots : Multiset Nat) + total Req.row seen.requests = rowsUpTo numRows ∧ seen.handed.Nodup := by
  intro seen reached
  have start := init_sound accounts numRows numSlots extra isLazy overlap replaySSM
  have kept : ∀ seen ∈ (machine allocator).settled
      (.init allocator numRows numSlots extra isLazy overlap replaySSM) events,
      Sound accounts numRows numSlots seen ∧ Handles seen :=
    Machine.settled_invariant
      (fun _ _ sound permitted => ⟨step_sound sound.1 permitted, step_handles sound.1 sound.2 permitted⟩)
      ⟨start, List.nodup_nil, nofun⟩ permitted
  obtain ⟨sound, handles⟩ := kept seen reached
  exact ⟨sound.rows, handles.once⟩

end FromTheStart

section SlotList

/-- All slots and the free ones, which are taken from the front. -/
def slotList : MambaSlotAllocator (List Int × List Int) where
  init size := ((List.range' 1 size).map Int.ofNat, (List.range' 1 size).map Int.ofNat)
  alloc slots n :=
    if n ≤ slots.2.length then (some (slots.2.take n), slots.1, slots.2.drop n) else (none, slots)
  free slots taken := (slots.1, slots.2 ++ taken)
  clear slots := (slots.1, slots.1)

def slotListAccounts : Accounts slotList where
  free slots := slots.2
  all slots := slots.1
  built size := ⟨rfl, rfl⟩
  served {slots rest n taken} answered := by
    simp only [slotList] at answered
    split at answered
    · rename_i enough
      cases answered
      refine ⟨List.length_take_of_le enough, ?_, rfl⟩
      rw [Multiset.coe_add, List.take_append_drop]
    · cases answered
  refused {slots rest n} answered := by
    simp only [slotList] at answered
    split at answered
    · cases answered
    · cases answered
      exact ⟨rfl, rfl⟩
  freed slots taken := ⟨(Multiset.coe_add _ _).symm, rfl⟩
  cleared slots := ⟨rfl, rfl⟩

/-- Two requests are allocated, the first donates a tracked slot, and gives up
the others but the one that it keeps. -/
def donation : List Event :=
  [.arrive, .arrive, .alloc [0, 1], .reserve 1, .donate 0 7, .freeMambaCache 0 (some 1), .free 0, .release [3]]

theorem mambaSlots_conserved_donation :
    slotListAccounts.free ((machine slotList).run (.init slotList 2 8 true false true ⟨none, none⟩) donation).pool.mambaAllocator +
        ((machine slotList).run (.init slotList 2 8 true false true ⟨none, none⟩) donation).held +
        total Req.slots ((machine slotList).run (.init slotList 2 8 true false true ⟨none, none⟩) donation).requests =
      slotsUpTo 8 :=
  mambaSlots_conserved slotListAccounts 2 8 true false true ⟨none, none⟩ donation (by decide +kernel) _
    (Machine.run_mem_settled _ _ _)

theorem rows_conserved_donation :
    (((machine slotList).run (.init slotList 2 8 true false true ⟨none, none⟩) donation).pool.base.freeSlots : Multiset Nat) +
        total Req.row ((machine slotList).run (.init slotList 2 8 true false true ⟨none, none⟩) donation).requests = rowsUpTo 2 ∧
      ((machine slotList).run (.init slotList 2 8 true false true ⟨none, none⟩) donation).handed.Nodup :=
  rows_conserved slotListAccounts 2 8 true false true ⟨none, none⟩ donation (by decide +kernel) _
    (Machine.run_mem_settled _ _ _)

theorem device_shows_requests_donation :
    ((machine slotList).run (.init slotList 2 8 true false true ⟨none, none⟩) donation).pool.getMambaIndices [2] = [4] ∧
      takeSlots [2] ((machine slotList).run (.init slotList 2 8 true false true ⟨none, none⟩)
        donation).pool.reqIndexToMambaPingPongTrackBufferMapping = [[5, 6]] := by
  have shown := device_shows_requests slotListAccounts 2 8 true false true ⟨none, none⟩ donation (by decide +kernel) _
    (Machine.run_mem_settled _ _ _) (by decide +kernel) [1] (by decide) (by decide +kernel) _ rfl
  exact ⟨shown.1, shown.2.1 rfl⟩

end SlotList

end FlashNext.Pool
