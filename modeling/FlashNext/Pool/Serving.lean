import FlashNext.Machine.Run
import FlashNext.Pool.Allocation

namespace FlashNext.Pool

open FlashNext.Data

/-- `held` are the slots of the radix cache and of the scheduler; `handed` are
the rows handed out since the last reset, with their generations.  A failed
assertion halts the server. -/
structure Serving (Slots : Type) where
  pool : HybridReqToTokenPool Slots
  requests : List Req
  held : List Int
  handed : List (Nat × Nat)
  halted : Bool

inductive Event where
  | arrive
  | progress (id inflightMiddleChunks kvCommittedLen : Nat)
  | track (id next last : Nat)
  -- the cache and the scheduler take slots, return them, and give one to a request
  | reserve (count : Nat)
  | release (slots : List Int)
  | adopt (id : Nat) (slot : Int)
  | alloc (ids : List Nat)
  | setPingPongSlot (id idx : Nat) (value : Int)
  | donate (id : Nat) (newSlot : Int)
  | freeMambaCache (id : Nat) (keep : Option Nat)
  | free (id : Nat)
  | clear

def Req.fresh : Req := ⟨none, 0, 0, none, false, none, none, none⟩

def Answer.isRaised : Answer → Bool
  | raised _ => true
  | _ => false

/-- The rows that a batch is given, each with its new generation. -/
def handouts (before after : List Req) (generation : List Nat) : List (Nat × Nat) :=
  (before.zip after).filterMap fun pair =>
    if pair.1.reqPoolIdx = none then pair.2.reqPoolIdx.map fun row => (row, generation.getD row 0) else none

/-- The slots of a track buffer that the caller of `free_mamba_cache` keeps. -/
def kept (req : Req) : Option Nat → List Int
  | none => []
  | some keep => real (((req.mambaPingPongTrackBuffer.getD []).drop keep).take 1)

namespace Serving

variable {Slots : Type} (allocator : MambaSlotAllocator Slots) (state : Serving Slots)

def init (numRows numSlots : Nat) (extra isLazy overlap : Bool) (replaySSM : ReplayCursors) : Serving Slots :=
  ⟨.init allocator numRows numSlots extra isLazy overlap replaySSM, [], [], [], false⟩

def withReq (id : Nat) (change : Req → Req) : Serving Slots :=
  { state with requests := state.requests.modify id change }

/-- A call on one request; `gives` and `takes` pass between the cache and the request. -/
def after (id : Nat) (left : Left Slots) (gives takes : List Int) : Serving Slots :=
  { state with
    pool := left.pool
    requests := state.requests.set id left.req
    held := if left.fault = none then state.held.diff gives ++ takes else state.held
    halted := left.fault.isSome }

def call (id : Nat) (act : Req → Serving Slots) : Serving Slots :=
  match state.requests[id]? with
  | none => state
  | some req => act req

def perform : Event → Serving Slots
  | .arrive => { state with requests := state.requests ++ [.fresh] }
  | .progress id inflightMiddleChunks kvCommittedLen =>
      state.withReq id fun req => { req with inflightMiddleChunks, kvCommittedLen }
  | .track id next last =>
      state.withReq id fun req => { req with mambaNextTrackIdx := some next, mambaLastTrackIdx := some last }
  | .reserve count =>
      let answer := allocator.alloc state.pool.mambaAllocator count
      { state with pool := { state.pool with mambaAllocator := answer.2 }, held := state.held ++ answer.1.getD [] }
  | .release slots =>
      { state with
        pool := { state.pool with mambaAllocator := allocator.free state.pool.mambaAllocator slots }
        held := state.held.diff slots }
  | .adopt id slot =>
      { state.withReq id fun req => { req with mambaPoolIdx := some slot } with held := state.held.erase slot }
  | .alloc ids =>
      let reqs := takeSlots ids state.requests
      let answer := state.pool.alloc allocator reqs
      { state with
        pool := answer.2.1
        requests := putSlots ids answer.2.2 state.requests
        handed := state.handed ++ handouts reqs answer.2.2 answer.2.1.base.reqGeneration
        halted := answer.1.isRaised }
  | .setPingPongSlot id idx value =>
      state.call id fun req => state.after id (state.pool.setMambaPingPongSlot req idx value) (real [value])
        (real (req.mambaPingPongTrackBuffer.getD [])[idx]?.toList)
  | .donate id newSlot =>
      state.call id fun req =>
        let donated := state.pool.donateMambaPingPongSlot req newSlot
        state.after id donated.2 [newSlot] (real donated.1.toList)
  | .freeMambaCache id keep =>
      state.call id fun req => state.after id (state.pool.freeMambaCache allocator req keep) [] (kept req keep)
  | .free id => state.call id fun req => state.after id (state.pool.free req) [] []
  | .clear => { state with pool := state.pool.clear allocator, held := [], handed := [] }

def machine : Machine (Serving Slots) Event where
  step state event := ([], if state.halted then state else perform allocator state event)

/-- What callers promise.  Slots come from those who hold them; a batch has each
request once; a request that gives up or changes its slots has its row; a reset
finds no request with a row or a slot. -/
def Permitted (state : Serving Slots) : Event → Prop
  | .arrive | .progress _ _ _ | .track _ _ _ | .reserve _ | .free _ => True
  | .release slots => (slots : Multiset Int) ≤ state.held
  | .adopt id slot => slot ∈ state.held ∧ ∃ req ∈ state.requests[id]?, req.mambaPoolIdx = none ∧ req.reqPoolIdx = none
  | .alloc ids => ids.Nodup ∧ ∀ id ∈ ids, id < state.requests.length
  | .setPingPongSlot id _ value =>
      (value ∈ state.held ∨ value = -1 ∧ state.pool.enableMambaExtraBufferLazy) ∧
        ∀ req ∈ state.requests[id]?, req.reqPoolIdx.isSome
  | .donate id newSlot => newSlot ∈ state.held ∧ ∀ req ∈ state.requests[id]?, req.reqPoolIdx.isSome
  | .freeMambaCache id _ => ∀ req ∈ state.requests[id]?, req.reqPoolIdx.isSome
  | .clear => ∀ req ∈ state.requests, req.reqPoolIdx = none ∧ req.mambaPoolIdx = none ∧ req.mambaPingPongTrackBuffer = none

instance (state : Serving Slots) : (event : Event) → Decidable (Permitted state event)
  | .arrive | .progress _ _ _ | .track _ _ _ | .reserve _ | .free _ => isTrue trivial
  | .release slots => inferInstanceAs (Decidable ((slots : Multiset Int) ≤ state.held))
  | .adopt id slot => inferInstanceAs (Decidable (slot ∈ state.held ∧ ∃ req ∈ state.requests[id]?, _ ∧ _))
  | .alloc ids => inferInstanceAs (Decidable (ids.Nodup ∧ ∀ id ∈ ids, id < state.requests.length))
  | .setPingPongSlot id _ value =>
      inferInstanceAs (Decidable ((value ∈ state.held ∨ value = -1 ∧ _) ∧ ∀ req ∈ state.requests[id]?, _))
  | .donate id newSlot => inferInstanceAs (Decidable (newSlot ∈ state.held ∧ ∀ req ∈ state.requests[id]?, _))
  | .freeMambaCache id _ => inferInstanceAs (Decidable (∀ req ∈ state.requests[id]?, _))
  | .clear => inferInstanceAs (Decidable (∀ req ∈ state.requests, _ ∧ _ ∧ _))

end Serving

end FlashNext.Pool
