import FlashNext.Pool.Serving
import Mathlib.Tactic.Abel

namespace FlashNext.Pool

open FlashNext.Data HybridReqToTokenPool Serving

variable {Slots : Type} {allocator : MambaSlotAllocator Slots} {accounts : Accounts allocator} {numRows numSlots : Nat}
  {pool next : HybridReqToTokenPool Slots} {req : Req} {state : Serving Slots}

/-- The device mappings show what a request has. -/
structure Mirrored (pool : HybridReqToTokenPool Slots) (req : Req) (row : Nat) : Prop where
  slot : ∀ slot ∈ req.mambaPoolIdx, pool.reqIndexToMambaIndexMapping[row]? = some slot
  buffer : ∀ buffer ∈ req.mambaPingPongTrackBuffer,
    pool.reqIndexToMambaPingPongTrackBufferMapping[row]? = some buffer
  tracked : pool.enableMambaExtraBuffer → req.mambaPoolIdx.isSome → req.mambaPingPongTrackBuffer.isSome

def Registered (pool : HybridReqToTokenPool Slots) (req : Req) : Prop := ∀ row ∈ req.reqPoolIdx, Mirrored pool req row

/-- What no call changes of a pool. -/
structure Built (numRows : Nat) (pool : HybridReqToTokenPool Slots) : Prop where
  size : pool.base.size = numRows
  trackSize : pool.mambaPingPongTrackBufferSize = 1 ∨ pool.mambaPingPongTrackBufferSize = 2
  mapping : pool.reqIndexToMambaIndexMapping.length = numRows + 1
  trackMapping : pool.reqIndexToMambaPingPongTrackBufferMapping.length = numRows + 1
  generations : pool.base.reqGeneration.length = numRows + 1

structure Sound (accounts : Accounts allocator) (numRows numSlots : Nat) (state : Serving Slots) : Prop where
  built : Built numRows state.pool
  all : accounts.all state.pool.mambaAllocator = slotsUpTo numSlots
  slots : accounts.free state.pool.mambaAllocator + state.held + total Req.slots state.requests = slotsUpTo numSlots
  rows : (state.pool.base.freeSlots : Multiset Nat) + total Req.row state.requests = rowsUpTo numRows
  shaped : ∀ req ∈ state.requests, Shaped state.pool req
  registered : state.halted = false → ∀ req ∈ state.requests, Registered state.pool req

namespace Sound

variable (sound : Sound accounts numRows numSlots state)
include sound

theorem rows_distinct : (total Req.row state.requests).Nodup :=
  Multiset.nodup_of_le (Multiset.le_add_left _ _) (sound.rows ▸ rowsUpTo_nodup numRows)

theorem free_real : ∀ slot ∈ accounts.free state.pool.mambaAllocator, slot ≠ -1 := by
  intro slot member
  apply @slotsUpTo_ne numSlots
  rw [← sound.slots, add_assoc]
  exact Multiset.mem_add.mpr (.inl member)

theorem held_real : ∀ slot ∈ state.held, slot ≠ -1 := by
  intro slot member
  apply @slotsUpTo_ne numSlots
  rw [← sound.slots]
  exact Multiset.mem_add.mpr (.inl (Multiset.mem_add.mpr (.inr (Multiset.mem_coe.mpr member))))

theorem row_inside {row : Nat} (member : req ∈ state.requests) (held : req.reqPoolIdx = some row) : row ≤ numRows := by
  have listed : row ∈ rowsUpTo numRows := by
    rw [← sound.rows]
    exact Multiset.mem_add.mpr (.inr (mem_total.mpr ⟨req, member, by simp [Req.row, held]⟩))
  have bounds := List.mem_range'_1.mp (Multiset.mem_coe.mp listed)
  omega

theorem row_unique {left right row : Nat} {one other : Req} (atLeft : state.requests[left]? = some one)
    (atRight : state.requests[right]? = some other) (inOne : one.reqPoolIdx = some row)
    (inOther : other.reqPoolIdx = some row) : left = right :=
  position_unique sound.rows_distinct row atLeft atRight (by simp [Req.row, inOne]) (by simp [Req.row, inOther])

end Sound

/-- A change of one request, which moves slots and rows between it, the
allocator and the cache. -/
structure Change (accounts : Accounts allocator) (numRows : Nat) (state : Serving Slots) (req : Req)
    (next : Serving Slots) (after : Req) : Prop where
  built : Built numRows state.pool → Built numRows next.pool
  all : accounts.all next.pool.mambaAllocator = accounts.all state.pool.mambaAllocator
  slots : accounts.free next.pool.mambaAllocator + next.held + after.slots =
    accounts.free state.pool.mambaAllocator + state.held + req.slots
  rows : (next.pool.base.freeSlots : Multiset Nat) + after.row = state.pool.base.freeSlots + req.row
  shaped : ∀ other, Shaped state.pool other → Shaped next.pool other
  changed : Shaped state.pool req → Shaped state.pool after
  others : ∀ other row, req.reqPoolIdx ≠ some row → Mirrored state.pool other row → Mirrored next.pool other row
  registered : next.halted = false → Registered state.pool req → Registered next.pool after

theorem Change.sound {id : Nat} {next : Serving Slots} (after : Req) (sound : Sound accounts numRows numSlots state)
    (running : state.halted = false) (found : state.requests[id]? = some req)
    (change : Change accounts numRows state req next after) (listed : next.requests = state.requests.set id after) :
    Sound accounts numRows numSlots next where
  built := change.built sound.built
  all := change.all.trans sound.all
  slots := by
    rw [listed, set_conserves found change.slots]
    exact sound.slots
  rows := by
    rw [listed, set_conserves found change.rows]
    exact sound.rows
  shaped := by
    rw [listed]
    intro other member
    rcases List.mem_or_eq_of_mem_set member with member | rfl
    · exact change.shaped _ (sound.shaped other member)
    · exact change.shaped _ (change.changed (sound.shaped req (List.mem_of_getElem? found)))
  registered := by
    intro fine other member
    rw [listed] at member
    obtain ⟨position, atOther⟩ := List.getElem?_of_mem member
    by_cases here : id = position
    · subst here
      rw [List.getElem?_set_self (List.getElem?_eq_some_iff.mp found).1] at atOther
      cases atOther
      exact change.registered fine (sound.registered running req (List.mem_of_getElem? found))
    · rw [List.getElem?_set_ne here] at atOther
      intro row held
      apply change.others
      · exact fun same => here (sound.row_unique found atOther same held)
      · exact sound.registered running other (List.mem_of_getElem? atOther) row held

theorem arrive_sound (sound : Sound accounts numRows numSlots state) :
    Sound accounts numRows numSlots (perform allocator state .arrive) where
  built := sound.built
  all := sound.all
  slots := by
    rw [← sound.slots]
    exact congrArg _ ((total_append _ _ _).trans (add_zero _))
  rows := by
    rw [← sound.rows]
    exact congrArg _ ((total_append _ _ _).trans (add_zero _))
  shaped req member := by
    rcases List.mem_append.mp member with member | member
    · exact sound.shaped req member
    · cases List.mem_singleton.mp member
      exact nofun
  registered fine req member := by
    rcases List.mem_append.mp member with member | member
    · exact sound.registered fine req member
    · cases List.mem_singleton.mp member
      exact nofun

/-- A request is rewritten without its row and its slots. -/
theorem withReq_sound (sound : Sound accounts numRows numSlots state) (running : state.halted = false) (id : Nat)
    (change : Req → Req) (row : ∀ req, (change req).reqPoolIdx = req.reqPoolIdx)
    (slot : ∀ req, (change req).mambaPoolIdx = req.mambaPoolIdx)
    (buffer : ∀ req, (change req).mambaPingPongTrackBuffer = req.mambaPingPongTrackBuffer) :
    Sound accounts numRows numSlots (state.withReq id change) := by
  cases found : state.requests[id]? with
  | none =>
      have same : state.withReq id change = state := by
        rw [withReq, List.modify_eq_self (List.getElem?_eq_none_iff.mp found)]
      rw [same]
      exact sound
  | some req =>
      refine Change.sound (change req) sound running found
        ⟨fun built => built, rfl, ?_, ?_, fun _ shaped => shaped, ?_, fun _ _ _ mirrored => mirrored, ?_⟩ ?_
      · rw [Req.slots, Req.slots, slot, buffer]
        rfl
      · rw [Req.row, Req.row, row]
        rfl
      · intro shaped held
        rw [buffer]
        exact shaped held
      · intro _ registered index held
        rw [row] at held
        have mirrored := registered index held
        exact ⟨by rw [slot]; exact mirrored.slot, by rw [buffer]; exact mirrored.buffer,
          by rw [slot, buffer]; exact mirrored.tracked⟩
      · rw [withReq, List.modify_eq_set_getElem?, found]
        rfl

theorem Built.congr (built : Built numRows pool) {slots : Slots} {cursors : ReplayCursors} :
    Built numRows { pool with mambaAllocator := slots, replaySSM := cursors } := { built with }

theorem Mirrored.congr {row : Nat} (extra : next.enableMambaExtraBuffer = pool.enableMambaExtraBuffer)
    (mapping : next.reqIndexToMambaIndexMapping[row]? = pool.reqIndexToMambaIndexMapping[row]?)
    (tracking : next.reqIndexToMambaPingPongTrackBufferMapping[row]? =
      pool.reqIndexToMambaPingPongTrackBufferMapping[row]?) (mirrored : Mirrored pool req row) : Mirrored next req row where
  slot := by rw [mapping]; exact mirrored.slot
  buffer := by rw [tracking]; exact mirrored.buffer
  tracked := by rw [extra]; exact mirrored.tracked

/-- The cache trades with the allocator. -/
theorem trade_sound (sound : Sound accounts numRows numSlots state) {slots : Slots} {held : List Int}
    (all : accounts.all slots = accounts.all state.pool.mambaAllocator)
    (moved : accounts.free slots + (held : Multiset Int) = accounts.free state.pool.mambaAllocator + state.held) :
    Sound accounts numRows numSlots { state with pool := { state.pool with mambaAllocator := slots }, held } where
  built := sound.built.congr
  all := all.trans sound.all
  slots := by
    rw [← sound.slots, ← moved]
  rows := sound.rows
  shaped req member := sound.shaped req member
  registered running req member row held :=
    have mirrored := sound.registered running req member row held
    ⟨mirrored.slot, mirrored.buffer, mirrored.tracked⟩

theorem reserve_sound (sound : Sound accounts numRows numSlots state) (count : Nat) :
    Sound accounts numRows numSlots (perform allocator state (.reserve count)) := by
  cases answered : allocator.alloc state.pool.mambaAllocator count with
  | mk taken rest =>
      cases taken with
      | none =>
          obtain ⟨same, all⟩ := accounts.refused answered
          simp only [perform, answered]
          exact trade_sound sound all (by rw [same, Option.getD_none, List.append_nil])
      | some taken =>
          obtain ⟨-, moved, all⟩ := accounts.served answered
          simp only [perform, answered]
          exact trade_sound sound all (by
            rw [← moved, Option.getD_some, ← Multiset.coe_add, add_left_comm, add_comm, add_comm (taken : Multiset Int), add_assoc])

theorem release_sound (sound : Sound accounts numRows numSlots state) {slots : List Int}
    (given : (slots : Multiset Int) ≤ state.held) :
    Sound accounts numRows numSlots (perform allocator state (.release slots)) := by
  obtain ⟨moved, all⟩ := accounts.freed state.pool.mambaAllocator slots
  refine trade_sound sound all ?_
  rw [moved, ← Multiset.coe_sub, add_assoc, add_comm (slots : Multiset Int), Multiset.sub_add_cancel given]

theorem adopt_sound (sound : Sound accounts numRows numSlots state) (running : state.halted = false) {id : Nat} {slot : Int}
    (given : slot ∈ state.held) (found : state.requests[id]? = some req) (without : req.mambaPoolIdx = none)
    (rowless : req.reqPoolIdx = none) : Sound accounts numRows numSlots (perform allocator state (.adopt id slot)) := by
  refine Change.sound { req with mambaPoolIdx := some slot } sound running found
    ⟨fun built => built, rfl, ?_, rfl, fun _ shaped => shaped, fun shaped => shaped, fun _ _ _ mirrored => mirrored, ?_⟩ ?_
  · have taken : (state.held : Multiset Int) = slot ::ₘ (state.held.erase slot : Multiset Int) := by
      rw [← Multiset.coe_erase, Multiset.cons_erase (Multiset.mem_coe.mpr given)]
    rw [Req.slots, Req.slots, without, taken]
    simp only [Option.toList_some, Option.toList_none, Multiset.coe_nil, zero_add, Multiset.coe_singleton]
    rw [← Multiset.singleton_add, ← add_assoc, ← add_assoc]
    congr 1
    rw [add_right_comm]
    rfl
  · intro _ _ row held
    rw [rowless] at held
    cases held
  · simp only [perform, withReq, List.modify_eq_set_getElem?, found]
    rfl

theorem real_cons (entry : Int) (entries : List Int) : real (entry :: entries) = real [entry] ++ real entries :=
  List.filter_append [entry] entries

theorem total_real (entries : List Int) : total (fun entry => (real [entry] : Multiset Int)) entries = real entries := by
  induction entries with
  | nil => rfl
  | cons entry rest ih =>
      rw [total_cons, ih, Multiset.coe_add]
      exact congrArg _ (real_cons entry rest).symm

theorem real_set {entries : List Int} {position : Nat} {entry : Int} (found : entries[position]? = some entry)
    (value : Int) : (real (entries.set position value) : Multiset Int) + real [entry] = real entries + real [value] := by
  rw [← total_real, ← total_real entries]
  exact total_set found value

/-- What is freed of a row and what is kept of it make up the row. -/
theorem trackBufferToFree_splits {row toFree : List Int} {keep : Option Nat}
    (trackSize : pool.mambaPingPongTrackBufferSize = 1 ∨ pool.mambaPingPongTrackBufferSize = 2)
    (whole : row.length = pool.mambaPingPongTrackBufferSize) (answered : pool.trackBufferToFree row keep = .ok toFree)
    (buffered : req.mambaPingPongTrackBuffer = some row) :
    (real toFree : Multiset Int) + kept req keep = real row ∧ ∀ entry ∈ toFree, entry ∈ row := by
  cases keep with
  | none =>
      cases answered
      exact ⟨add_zero _, fun _ member => member⟩
  | some keep =>
      simp only [trackBufferToFree] at answered
      simp only [kept, buffered, Option.getD_some]
      split at answered
      · rename_i either
        rcases trackSize with one | two
        · rw [one] at whole answered
          rw [if_neg (by decide)] at answered
          obtain ⟨entry, rfl⟩ := List.length_eq_one_iff.mp whole
          split at answered
          · rename_i first
            cases answered
            exact ⟨by rw [first]; exact zero_add _, by simp⟩
          · cases answered
        · rw [two] at whole answered
          rw [if_pos rfl, Except.ok.injEq] at answered
          obtain ⟨first, second, rfl⟩ := List.length_eq_two.mp whole
          rcases either with rfl | rfl
          · cases answered
            refine ⟨?_, by simp⟩
            rw [real_cons first, ← Multiset.coe_add, add_comm]
            rfl
          · cases answered
            refine ⟨?_, by simp⟩
            rw [real_cons first, ← Multiset.coe_add]
            rfl
      · cases answered

theorem raised_change (accounts : Accounts allocator) (numRows : Nat) (state : Serving Slots) (req : Req) (id : Nat)
    (fault : Fault) (gives takes : List Int) :
    Change accounts numRows state req (state.after id ⟨some fault, state.pool, req⟩ gives takes) req :=
  ⟨fun built => built, rfl, rfl, rfl, fun _ shaped => shaped, fun shaped => shaped, fun _ _ _ mirrored => mirrored, nofun⟩

theorem real_available {value : Int}
    (given : value ∈ state.held ∨ value = -1 ∧ state.pool.enableMambaExtraBufferLazy) :
    (real [value] : Multiset Int) ≤ state.held := by
  rcases given with listed | ⟨rfl, -⟩
  · refine le_trans (Multiset.coe_le.mpr (List.filter_sublist.subperm)) ?_
    exact Multiset.singleton_le.mpr listed
  · exact Multiset.zero_le _

theorem setMambaPingPongSlot_sound (sound : Sound accounts numRows numSlots state) (running : state.halted = false)
    {id : Nat} (idx : Nat) {value : Int} (found : state.requests[id]? = some req)
    (given : value ∈ state.held ∨ value = -1 ∧ state.pool.enableMambaExtraBufferLazy) :
    Sound accounts numRows numSlots (state.after id (state.pool.setMambaPingPongSlot req idx value) (real [value])
      (real (req.mambaPingPongTrackBuffer.getD [])[idx]?.toList)) := by
  have member := List.mem_of_getElem? found
  refine Change.sound _ sound running found ?_ rfl
  unfold setMambaPingPongSlot
  split
  · rename_i buffer row buffered rowed
    split
    · rename_i inside
      have old := List.getElem?_eq_getElem inside
      refine ⟨fun built => { built with trackMapping := List.length_set.trans built.trackMapping }, rfl, ?_, rfl,
        fun _ shaped => shaped, ?_, ?_, ?_⟩
      · have moved := real_set old value
        have held := Multiset.sub_add_cancel (real_available given)
        rw [Multiset.coe_sub] at held
        simp only [after, Req.slots, buffered, Option.getD_some, old, Option.toList_some, if_pos, ← Multiset.coe_add]
        rw [← held, add_assoc, add_assoc (accounts.free state.pool.mambaAllocator), add_assoc, add_assoc]
        congr 2
        rw [add_left_comm, add_comm (real [buffer[idx]] : Multiset Int), moved, add_left_comm,
          add_comm (real buffer : Multiset Int), add_assoc, add_left_comm]
      · intro shaped next held
        cases held
        obtain ⟨extra, sized, full⟩ := shaped buffer buffered
        refine ⟨extra, by rw [List.length_set, sized], fun eager gap => ?_⟩
        rcases List.mem_or_eq_of_mem_set gap with gap | rfl
        · exact full eager gap
        · rcases given with listed | ⟨-, isLazy⟩
          · exact sound.held_real _ listed rfl
          · rw [eager] at isLazy
            cases isLazy
      · intro other index apart mirrored
        rw [rowed] at apart
        exact ⟨mirrored.slot, fun buffer held =>
          (List.getElem?_set_ne fun same => apart (congrArg some same)).trans (mirrored.buffer buffer held), mirrored.tracked⟩
      · intro _ registered index held
        have mirrored := registered index held
        rw [rowed] at held
        cases held
        refine ⟨mirrored.slot, fun next held => ?_, fun _ _ => rfl⟩
        cases held
        have bound := sound.row_inside member rowed
        exact List.getElem?_set_self (by rw [sound.built.trackMapping]; omega)
    · exact raised_change _ _ _ _ _ _ _ _
  · exact raised_change _ _ _ _ _ _ _ _
  · exact raised_change _ _ _ _ _ _ _ _

theorem donate_sound (sound : Sound accounts numRows numSlots state) (running : state.halted = false) {id : Nat}
    {newSlot : Int} (found : state.requests[id]? = some req) (given : newSlot ∈ state.held) :
    Sound accounts numRows numSlots (state.after id (state.pool.donateMambaPingPongSlot req newSlot).2 [newSlot]
      (real (state.pool.donateMambaPingPongSlot req newSlot).1.toList)) := by
  have present : real [newSlot] = [newSlot] := real_of_mem (by simpa using sound.held_real newSlot given)
  unfold donateMambaPingPongSlot
  split
  · rename_i donateIdx buffer _ buffered
    have stored := setMambaPingPongSlot_sound sound running donateIdx found (.inl given)
    rw [buffered, present] at stored
    exact stored
  · exact (raised_change _ _ _ _ _ _ _ _).sound _ sound running found rfl

/-- A request without its mamba slot, and perhaps without its track buffer. -/
theorem surrender_sound (held : List Int) (sound : Sound accounts numRows numSlots state) (running : state.halted = false) {id : Nat}
    (found : state.requests[id]? = some req) {slots : Slots} {after : Req} {halted : Bool}
    (all : accounts.all slots = accounts.all state.pool.mambaAllocator)
    (moved : accounts.free slots + (held : Multiset Int) + after.slots =
      accounts.free state.pool.mambaAllocator + state.held + req.slots)
    (row : after.reqPoolIdx = req.reqPoolIdx) (without : after.mambaPoolIdx = none)
    (buffer : ∀ buffer ∈ after.mambaPingPongTrackBuffer, req.mambaPingPongTrackBuffer = some buffer) :
    Sound accounts numRows numSlots
      { state with
        pool := { state.pool with mambaAllocator := slots }
        requests := state.requests.set id after
        held, halted } := by
  refine Change.sound after sound running found
    ⟨fun built => built.congr, all, moved, ?_, fun _ shaped => shaped, ?_,
      fun _ _ _ mirrored => ⟨mirrored.slot, mirrored.buffer, mirrored.tracked⟩, ?_⟩ rfl
  · rw [Req.row, Req.row, row]
  · intro shaped entries here
    exact shaped entries (buffer entries here)
  · intro _ registered index here
    rw [row] at here
    refine ⟨?_, fun entries same => (registered index here).buffer entries (buffer entries same), ?_⟩
    · simp [without]
    · simp [without]

/-- The slot alone goes back, whatever becomes of the track buffer. -/
theorem slot_returned {slot : Int} {slots : Slots} (owned : req.mambaPoolIdx = some slot)
    (freed : accounts.free slots = accounts.free state.pool.mambaAllocator + ([slot] : List Int)) :
    accounts.free slots + (state.held : Multiset Int) + Req.slots { req with mambaPoolIdx := none } =
      accounts.free state.pool.mambaAllocator + state.held + req.slots := by
  rw [freed, Req.slots, Req.slots, owned, Option.toList_some, Option.toList_none, Multiset.coe_nil, zero_add,
    add_right_comm _ ([slot] : Multiset Int), add_assoc]

theorem freeMambaCache_sound (sound : Sound accounts numRows numSlots state) (running : state.halted = false) {id : Nat}
    {keep : Option Nat} (found : state.requests[id]? = some req) (rowed : req.reqPoolIdx.isSome) :
    Sound accounts numRows numSlots
      (state.after id (state.pool.freeMambaCache allocator req keep) [] (kept req keep)) := by
  have member := List.mem_of_getElem? found
  have shaped := sound.shaped req member
  obtain ⟨row, rowed⟩ := Option.isSome_iff_exists.mp rowed
  have mirrored := sound.registered running req member row rowed
  unfold freeMambaCache
  cases owned : req.mambaPoolIdx with
  | none => exact (raised_change _ _ _ _ _ _ _ _).sound _ sound running found rfl
  | some slot =>
      obtain ⟨freed, all⟩ := accounts.freed state.pool.mambaAllocator [slot]
      have returned := slot_returned owned freed
      dsimp only
      by_cases extra : state.pool.enableMambaExtraBuffer = true
      · obtain ⟨buffer, buffered⟩ := Option.isSome_iff_exists.mp (mirrored.tracked extra (by simp [owned]))
        obtain ⟨-, sized, full⟩ := shaped buffer buffered
        rw [if_pos extra, rowed, Option.bind_some, mirrored.buffer buffer buffered]
        dsimp only
        cases answered : trackBufferToFree { state.pool with
            mambaAllocator := allocator.free state.pool.mambaAllocator [slot] } buffer keep with
        | error fault =>
            -- the position to keep does not exist, but the slot is gone
            exact surrender_sound _ sound running found all returned rowed.symm rfl fun _ same => same
        | ok toFree =>
            obtain ⟨splits, inRow⟩ := trackBufferToFree_splits sound.built.trackSize sized answered buffered
            dsimp only
            generalize given : (if state.pool.enableMambaExtraBufferLazy then toFree.filter (· ≠ -1) else toFree) = slots
            have whole : (slots : Multiset Int) = real toFree := by
              rw [← given]
              cases isLazy : state.pool.enableMambaExtraBufferLazy with
              | true => rfl
              | false => exact congrArg _ (real_of_mem fun entry inside gap => full isLazy (gap ▸ inRow entry inside)).symm
            obtain ⟨more, still⟩ := accounts.freed (allocator.free state.pool.mambaAllocator [slot]) slots
            refine surrender_sound (state.held ++ kept req keep) sound running found (still.trans all) ?_ rowed.symm rfl
              nofun
            have empty : Req.slots { req with
                mambaPoolIdx := none, mambaPingPongTrackBuffer := none, mambaNextTrackIdx := none,
                mambaLastTrackIdx := none } = 0 := rfl
            rw [rowed] at empty
            rw [more, whole, freed, empty, Req.slots, owned, buffered, Option.toList_some, Option.getD_some, ← splits,
              ← Multiset.coe_add]
            abel
      · have without : req.mambaPingPongTrackBuffer = none := by
          by_contra some
          obtain ⟨buffer, buffered⟩ := Option.ne_none_iff_exists'.mp some
          exact extra (shaped buffer buffered).1
        rw [if_neg extra]
        refine surrender_sound (state.held ++ kept req keep) sound running found all ?_ rfl rfl fun _ same => same
        have nothing : kept req keep = [] := by
          cases keep with
          | none => rfl
          | some keep =>
              rw [kept, without, Option.getD_none, List.drop_nil, List.take_nil]
              rfl
        rw [nothing, List.append_nil]
        exact returned

theorem free_sound (sound : Sound accounts numRows numSlots state) (running : state.halted = false) {id : Nat}
    (found : state.requests[id]? = some req) :
    Sound accounts numRows numSlots (state.after id (state.pool.free req) [] []) := by
  unfold HybridReqToTokenPool.free ReqToTokenPool.free
  cases rowed : req.reqPoolIdx with
  | none => exact (raised_change _ _ _ _ _ _ _ _).sound _ sound running found rfl
  | some row =>
      dsimp only
      refine Change.sound { req with reqPoolIdx := none } sound running found
        ⟨fun built => { built with }, rfl, ?_, ?_, fun _ shaped => shaped, fun shaped => shaped,
          fun _ _ _ mirrored => ⟨mirrored.slot, mirrored.buffer, mirrored.tracked⟩, fun _ _ => nofun⟩ rfl
      · simp only [after, if_true, List.diff_nil, List.append_nil]
        rfl
      · simp only [after, Req.row, rowed, ← Multiset.coe_add]
        exact add_zero _

theorem clear_sound (sound : Sound accounts numRows numSlots state)
    (idle : ∀ req ∈ state.requests, req.reqPoolIdx = none ∧ req.mambaPoolIdx = none ∧ req.mambaPingPongTrackBuffer = none) :
    Sound accounts numRows numSlots (perform allocator state .clear) := by
  obtain ⟨whole, all⟩ := accounts.cleared state.pool.mambaAllocator
  have noSlots : total Req.slots state.requests = 0 := total_zero fun req member => by
    obtain ⟨-, slot, buffer⟩ := idle req member
    rw [Req.slots, slot, buffer]
    rfl
  have noRows : total Req.row state.requests = 0 := total_zero fun req member => by
    rw [Req.row, (idle req member).1]
    rfl
  exact {
    built := {
      size := sound.built.size
      trackSize := sound.built.trackSize
      mapping := (List.length_map _).trans sound.built.mapping
      trackMapping := by
        simp only [perform, HybridReqToTokenPool.clear]
        split
        · exact (List.length_map _).trans sound.built.trackMapping
        · exact sound.built.trackMapping
      generations := (List.length_map _).trans sound.built.generations }
    all := all.trans sound.all
    slots := by
      rw [← sound.all, ← whole]
      exact (congrArg _ noSlots).trans ((add_zero _).trans (add_zero _))
    rows := by
      rw [← sound.built.size]
      exact (congrArg _ noRows).trans (add_zero _)
    shaped := fun req member => sound.shaped req member
    registered := fun _ req member row held => by
      rw [Option.mem_def, (idle req member).1] at held
      cases held }

section Batch

variable {ids : List Nat} {reqs requests : List Req}

/-- Where a request of the batch is put, no other request has its row. -/
theorem batch_rows (distinct : ids.Nodup) (inside : ∀ id ∈ ids, id < requests.length) (same : reqs.length = ids.length)
    (rows : (total Req.row (putSlots ids reqs requests)).Nodup) {index position row : Nat} {one other : Req}
    (inBatch : reqs[index]? = some one) (there : (putSlots ids reqs requests)[position]? = some other)
    (rowOne : one.reqPoolIdx = some row) (rowOther : other.reqPoolIdx = some row) : ids[index]? = some position := by
  have bound := (List.getElem?_eq_some_iff.mp inBatch).1
  have here := List.getElem?_eq_getElem (same ▸ bound : index < ids.length)
  have put := putSlots_target distinct here inBatch (inside _ (List.getElem_mem _))
  rw [here, position_unique rows row put there (by simp [Req.row, rowOne]) (by simp [Req.row, rowOther])]

theorem batch_rows_nodup (distinct : ids.Nodup) (inside : ∀ id ∈ ids, id < requests.length)
    (same : reqs.length = ids.length) (rows : (total Req.row (putSlots ids reqs requests)).Nodup)
    (rowed : ∀ req ∈ reqs, req.reqPoolIdx.isSome) : (reqs.filterMap (·.reqPoolIdx)).Nodup := by
  rw [List.nodup_iff_getElem?_ne_getElem?]
  intro left right before bound equal
  rw [filterMap_getElem? rowed, filterMap_getElem? rowed] at equal
  have short : right < reqs.length := bound.trans_le (List.length_filterMap_le _ _)
  have atRight := List.getElem?_eq_getElem short
  have atLeft := List.getElem?_eq_getElem (before.trans short)
  obtain ⟨row, rowRight⟩ := Option.isSome_iff_exists.mp (rowed _ (List.getElem_mem short))
  rw [atRight, atLeft, Option.bind_some, Option.bind_some, rowRight] at equal
  have target := List.getElem?_eq_getElem (same ▸ short : right < ids.length)
  have put := putSlots_target distinct target atRight (inside _ (List.getElem_mem _))
  have shared := batch_rows distinct inside same rows atLeft put equal rowRight
  exact List.nodup_iff_getElem?_ne_getElem?.mp distinct left right before (same ▸ short) (shared.trans target.symm)

theorem register_registered (distinct : ids.Nodup) (inside : ∀ id ∈ ids, id < requests.length)
    (same : reqs.length = ids.length) (rows : (total Req.row (putSlots ids reqs requests)).Nodup)
    (rowed : ∀ req ∈ reqs, req.reqPoolIdx.isSome) (complete : ∀ req ∈ reqs, Complete pool req)
    (shaped : ∀ req ∈ reqs, Shaped pool req)
    (bound : ∀ req ∈ reqs, ∀ row ∈ req.reqPoolIdx, row < pool.reqIndexToMambaIndexMapping.length ∧
      row < pool.reqIndexToMambaPingPongTrackBufferMapping.length)
    (registered : ∀ req ∈ requests, Registered pool req) :
    ∀ req ∈ putSlots ids reqs requests, Registered (pool.register (reqs.filterMap (·.reqPoolIdx)) reqs) req := by
  intro req member row held
  obtain ⟨position, there⟩ := List.getElem?_of_mem member
  have rowsDistinct := batch_rows_nodup distinct inside same rows rowed
  by_cases batched : position ∈ ids
  · obtain ⟨index, found⟩ := List.getElem?_of_mem batched
    have short : index < reqs.length := same ▸ (List.getElem?_eq_some_iff.mp found).1
    have inBatch := List.getElem?_eq_getElem short
    have put := putSlots_target distinct found inBatch (inside _ batched)
    obtain rfl : req = reqs[index] := Option.some.inj (there.symm.trans put)
    have inReqs := List.getElem_mem short
    obtain ⟨slotBound, bufferBound⟩ := bound _ inReqs row held
    have atRow : (reqs.filterMap (·.reqPoolIdx))[index]? = some row := by
      rw [filterMap_getElem? rowed, inBatch]
      exact held
    refine ⟨?_, ?_, fun enabled _ => (complete _ inReqs).2 enabled⟩
    · intro slot owned
      refine putSlots_target rowsDistinct atRow ?_ slotBound
      rw [filterMap_getElem? fun req member => (complete req member).1, inBatch]
      exact owned
    · intro buffer buffered
      have extra := (shaped _ inReqs buffer buffered).1
      simp only [register, extra, if_true]
      refine putSlots_target rowsDistinct atRow ?_ bufferBound
      rw [filterMap_getElem? fun req member => (complete req member).2 extra, inBatch]
      exact buffered
  · rw [putSlots_other batched] at there
    have mirrored := registered req (List.mem_of_getElem? there) row held
    have absent : row ∉ reqs.filterMap (·.reqPoolIdx) := by
      intro listed
      obtain ⟨other, inReqs, rowOther⟩ := List.mem_filterMap.mp listed
      obtain ⟨index, inBatch⟩ := List.getElem?_of_mem inReqs
      have target := batch_rows distinct inside same rows inBatch ((putSlots_other batched _ _).trans there) rowOther held
      exact batched (List.mem_of_getElem? target)
    refine ⟨?_, ?_, mirrored.tracked⟩
    · rw [register, putSlots_other absent]
      exact mirrored.slot
    · simp only [register]
      split
      · rw [putSlots_other absent]
        exact mirrored.buffer
      · exact mirrored.buffer

end Batch

section Batch

open ReqToTokenPool

variable {ids rows : List Nat} {base : ReqToTokenPool} {reqs before served : List Req} {fault : Option Fault}

theorem assigned_slots (each : List.Forall₂ Assigned reqs before) : total Req.slots before = total Req.slots reqs := by
  induction each with
  | nil => rfl
  | cons one _ ih =>
      rw [total_cons, total_cons, ih, Req.slots, one.1]
      rfl

theorem assigned_shaped (each : List.Forall₂ Assigned reqs before) (shaped : ∀ req ∈ reqs, Shaped pool req) :
    ∀ req ∈ before, Shaped pool req := by
  induction each with
  | nil => exact nofun
  | cons one _ ih =>
      obtain ⟨here, later⟩ := List.forall_mem_cons.mp shaped
      refine List.forall_mem_cons.mpr ⟨?_, ih later⟩
      rw [one.1]
      exact here

theorem length_counts (selected generation : List Nat) :
    (selected.foldl (fun counts row => counts.modify row (· + 1)) generation).length = generation.length := by
  induction selected generalizing generation with
  | nil => rfl
  | cons row rest ih => exact (ih _).trans (List.length_modify _ _ _)

theorem taken_member {req : Req} (member : req ∈ takeSlots ids state.requests) : req ∈ state.requests := by
  obtain ⟨id, -, found⟩ := List.mem_filterMap.mp member
  exact List.mem_of_getElem? found

/-- A batch that leaves the loop of `alloc`, with or without a failed assertion. -/
structure BatchLeft (accounts : Accounts allocator) (state : Serving Slots) (ids rows : List Nat) (base : ReqToTokenPool)
    (before : List Req) (fault : Option Fault) (next : HybridReqToTokenPool Slots) (served : List Req) : Prop where
  distinct : ids.Nodup
  inside : ∀ id ∈ ids, id < state.requests.length
  taken : Taken state.pool.base (takeSlots ids state.requests) rows base before
  loop : BatchServed accounts { state.pool with base } before fault next served

theorem register_nil (pool : HybridReqToTokenPool Slots) : pool.register [] [] = pool := by
  unfold register
  split
  · rfl
  · rfl

/-- Rows are registered only when no assertion has failed. -/
def settled (fault : Option Fault) (next : HybridReqToTokenPool Slots) (rows : List Nat) (served : List Req) :
    HybridReqToTokenPool Slots :=
  match fault with
  | none => next.register rows served
  | some _ => next

namespace BatchLeft

variable (batch : BatchLeft accounts state ids rows base before fault next served)
include batch

theorem length : served.length = ids.length := by
  have same := congrArg List.length batch.loop.rows
  rw [List.length_map, List.length_map] at same
  rw [same, ← batch.taken.each.length_eq, length_takeSlots batch.inside]

theorem total_row : total Req.row served = total Req.row before := by
  have views (reqs : List Req) :
      total Req.row reqs = ((reqs.map (·.reqPoolIdx)).map fun row => (row.toList : Multiset Nat)).sum := by
    rw [total, List.map_map]
    rfl
  rw [views, batch.loop.rows, ← views]

theorem rowed : ∀ req ∈ served, req.reqPoolIdx.isSome := by
  have each : ∀ row ∈ served.map (·.reqPoolIdx), row.isSome := by
    rw [batch.loop.rows]
    intro row member
    obtain ⟨req, inBefore, rfl⟩ := List.mem_map.mp member
    obtain ⟨index, found⟩ := List.getElem?_of_mem inBefore
    have bound := (List.getElem?_eq_some_iff.mp found).1
    have one := (List.forall₂_iff_get.mp batch.taken.each).2 index (batch.taken.each.length_eq ▸ bound) bound
    rw [← (List.getElem?_eq_some_iff.mp found).2]
    exact one.2.1
  exact fun req member => each _ (List.mem_map_of_mem member)

theorem answered : rows = served.filterMap (·.reqPoolIdx) := by
  have views (reqs : List Req) : reqs.filterMap (·.reqPoolIdx) = (reqs.map (·.reqPoolIdx)).filterMap id := by
    rw [List.filterMap_map]
    rfl
  rw [batch.taken.answered, views, ← batch.loop.rows, ← views]

theorem rows_kept (sound : Sound accounts numRows numSlots state) :
    (next.base.freeSlots : Multiset Nat) + total Req.row (putSlots ids served state.requests) = rowsUpTo numRows := by
  have moved : (next.base.freeSlots : Multiset Nat) + total Req.row served =
      state.pool.base.freeSlots + total Req.row (takeSlots ids state.requests) := by
    rw [batch.loop.rest, batch.total_row]
    exact batch.taken.moved
  exact (putSlots_conserves batch.distinct batch.inside batch.length moved).trans sound.rows

theorem slots_kept (sound : Sound accounts numRows numSlots state) :
    accounts.free next.mambaAllocator + state.held + total Req.slots (putSlots ids served state.requests) =
      slotsUpTo numSlots := by
  have moved : accounts.free next.mambaAllocator + state.held + total Req.slots served =
      accounts.free state.pool.mambaAllocator + state.held + total Req.slots (takeSlots ids state.requests) := by
    rw [add_right_comm, batch.loop.moved, assigned_slots batch.taken.each, add_right_comm]
  exact (putSlots_conserves batch.distinct batch.inside batch.length moved).trans sound.slots

theorem next_shaped {req : Req} (shaped : Shaped state.pool req) : Shaped next req := by
  have agree := batch.loop.rest
  exact shaped.congr (by rw [agree]) (by rw [agree]) (by rw [agree])

theorem served_shaped (sound : Sound accounts numRows numSlots state) : ∀ req ∈ served, Shaped next req := by
  intro req member
  have taken : ∀ req ∈ takeSlots ids state.requests, Shaped state.pool req := fun req member =>
    sound.shaped req (taken_member member)
  have before := batch.loop.shaped fun req member => assigned_shaped batch.taken.each taken req member
  exact batch.next_shaped (before req member)

theorem built (sound : Sound accounts numRows numSlots state) : Built numRows next := by
  obtain ⟨selected, -, -, counted⟩ := batch.taken.counted
  rw [batch.loop.rest]
  exact { sound.built with
    size := batch.taken.size.trans sound.built.size
    generations := by
      rw [counted, length_counts]
      exact sound.built.generations }

theorem row_bound (sound : Sound accounts numRows numSlots state) {req : Req} (member : req ∈ served) {row : Nat}
    (held : req.reqPoolIdx = some row) : row < numRows + 1 := by
  have listed : row ∈ rowsUpTo numRows := by
    have here : row ∈ total Req.row served := mem_total.mpr ⟨req, member, by simp [Req.row, held]⟩
    have moved := batch.taken.moved
    rw [← batch.total_row] at moved
    have either : row ∈ (state.pool.base.freeSlots : Multiset Nat) + total Req.row (takeSlots ids state.requests) := by
      rw [← moved]
      exact Multiset.mem_add.mpr (.inr here)
    rw [← sound.rows]
    rcases Multiset.mem_add.mp either with free | owned
    · exact Multiset.mem_add.mpr (.inl free)
    · obtain ⟨other, inTaken, holding⟩ := mem_total.mp owned
      exact Multiset.mem_add.mpr (.inr (mem_total.mpr ⟨other, taken_member inTaken, holding⟩))
  have bounds := List.mem_range'_1.mp (Multiset.mem_coe.mp listed)
  omega

theorem sound (sound : Sound accounts numRows numSlots state) (running : state.halted = false) (handed : List (Nat × Nat)) :
    Sound accounts numRows numSlots
      { state with
        pool := settled fault next rows served
        requests := putSlots ids served state.requests
        handed
        halted := fault.isSome } := by
  have rowsKept := batch.rows_kept sound
  have all := batch.loop.all.trans sound.all
  have built := batch.built sound
  have shaped : ∀ req ∈ putSlots ids served state.requests, Shaped next req := by
    intro req member
    rcases mem_putSlots member with kept | put
    · exact batch.next_shaped (sound.shaped req kept)
    · exact batch.served_shaped sound req put
  cases fault with
  | some fault => exact ⟨built, all, batch.slots_kept sound, rowsKept, shaped, nofun⟩
  | none =>
      refine ⟨⟨built.size, built.trackSize, (length_putSlots _ _ _).trans built.mapping, ?_, built.generations⟩, all,
        batch.slots_kept sound, rowsKept, shaped, fun _ => ?_⟩
      · simp only [settled, register]
        split
        · exact (length_putSlots _ _ _).trans built.trackMapping
        · exact built.trackMapping
      · have agree := batch.loop.rest
        rw [batch.answered]
        refine register_registered batch.distinct batch.inside batch.length ?_ batch.rowed ?_ (batch.served_shaped sound) ?_ ?_
        · exact Multiset.nodup_of_le (Multiset.le_add_left _ _) (rowsKept ▸ rowsUpTo_nodup numRows)
        · intro req member
          obtain ⟨slot, buffer⟩ := batch.loop.complete rfl req member
          exact ⟨slot, fun enabled => buffer (by rw [agree] at enabled; exact enabled)⟩
        · intro req member row held
          rw [built.mapping, built.trackMapping]
          exact ⟨batch.row_bound sound member held, batch.row_bound sound member held⟩
        · intro req member row held
          have mirrored := sound.registered running req member row held
          rw [agree]
          exact ⟨mirrored.slot, mirrored.buffer, mirrored.tracked⟩

end BatchLeft

end Batch

theorem alloc_sound (sound : Sound accounts numRows numSlots state) (running : state.halted = false) {ids : List Nat}
    (distinct : ids.Nodup) (inside : ∀ id ∈ ids, id < state.requests.length) :
    Sound accounts numRows numSlots (perform allocator state (.alloc ids)) := by
  have unchanged (handed : List (Nat × Nat)) (halted : Bool) : Sound accounts numRows numSlots
      { state with requests := putSlots ids (takeSlots ids state.requests) state.requests, handed, halted } := by
    rw [putSlots_takeSlots inside]
    exact { sound with registered := fun _ => sound.registered running }
  have sized : 0 < state.pool.mambaPingPongTrackBufferSize := by
    rcases sound.built.trackSize with one | two <;> omega
  simp only [perform, HybridReqToTokenPool.alloc]
  cases answered : state.pool.base.alloc (takeSlots ids state.requests) with
  | error fault => exact unchanged _ _
  | ok answer =>
      cases answer with
      | none => exact unchanged _ _
      | some answer =>
          obtain ⟨rows, base, before⟩ := answer
          have taken := ReqToTokenPool.alloc_taken answered
          have loop := allocEach_served accounts { state.pool with base } before sized sound.free_real
          dsimp only
          generalize allocEach allocator { state.pool with base } before = left at loop ⊢
          obtain ⟨fault, next, served⟩ := left
          have batch : BatchLeft accounts state ids rows base before fault next served := ⟨distinct, inside, taken, loop⟩
          have whole := batch.sound sound running
            (state.handed ++ handouts (takeSlots ids state.requests) served next.base.reqGeneration)
          cases fault with
          | some fault => exact whole
          | none =>
              cases served with
              | cons req rest => exact whole
              | nil =>
                  obtain rfl : rows = [] := batch.answered
                  simp only [settled, register_nil] at whole
                  exact { whole with registered := fun running => nomatch running }

end FlashNext.Pool
