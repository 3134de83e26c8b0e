import FlashNext.Machine.Run
import FlashNext.NGram.Windows

namespace FlashNext.NGram

open FlashNext.Data

/-- `forward` names the rows the scheduler put into the pass.  Between passes
requests get and lose slots, and slots are reset or loaded from a snapshot. -/
inductive Event where
  | forward (inputIds : List Token) (forwardBatch : ForwardBatch) (calls : List LayerTables) (pieces : List Piece)
  | assign (mambaIndex : Nat → Nat)
  | setContext (slot : Nat) (context : List Token)

def step (fused : FusedHash) (model : Model) (pool : ReqToTokenPool) : Event → ReqToTokenPool
  | .forward inputIds forwardBatch calls _ =>
      match forward fused model pool inputIds forwardBatch calls with
      | .ok (_, next) => next
      | .error _ => { pool with pleWindowCache := none }
  | .assign mambaIndex => { pool with mambaIndex := mambaIndex }
  | .setContext slot context => pool.setNgramContext [slot] [context]

def machine (fused : FusedHash) (model : Model) : Machine ReqToTokenPool Event where
  step := fun pool event => ([], step fused model pool event)

/-- The tokens the passes of a run carry for a slot. -/
def sequence (slot : Nat) (events : List Event) : List Token :=
  events.flatMap fun event => match event with
    | .forward _ _ _ pieces => carried slot pieces
    | .assign _ | .setContext _ _ => []

/-- The passes are what their rows say, or carry nothing; between them nobody
writes the history of the slot. -/
def Lawful (slot : Nat) (pool : ReqToTokenPool) : Event → Prop
  | .forward inputIds forwardBatch _ pieces =>
      (Carries pool inputIds forwardBatch pieces ∧ Untracked forwardBatch slot) ∨
        pleForwardMode forwardBatch = .idle ∧ pieces = []
  | .assign _ => True
  | .setContext other context => other ≠ slot ∧ context.length = pool.contextLen

/-- The history of the slot after the tokens carried so far. -/
structure Follows (model : Model) (slot : Nat) (initial : List Token) (said : List Token) (pool : ReqToTokenPool) :
    Prop where
  sized : pool.Sized model
  history : pool.context slot = (initial ++ said).rtake pool.contextLen

variable {fused : FusedHash} {model : Model} {pool : ReqToTokenPool} {slot : Nat} {initial said : List Token}

theorem forward_idle {inputIds : List Token} {forwardBatch : ForwardBatch} {calls : List LayerTables}
    (idle : pleForwardMode forwardBatch = .idle) :
    (∃ error, forward fused model pool inputIds forwardBatch calls = .error error) ∨
      forward fused model pool inputIds forwardBatch calls = .ok ([], { pool with pleWindowCache := none }) := by
  rw [forward, preparePleBatch]
  simp only [idle, if_true]
  by_cases whole : forwardBatch.tboParentTokenRange.isSome
  · simp [whole]
  by_cases speculated : forwardBatch.ngramSpeculation
  · simp [whole, speculated]
  by_cases topk : forwardBatch.specInfo.any fun info => !decide (info.topk = 1)
  · simp [whole, speculated, topk]
  · simp [whole, speculated, topk]

theorem carried_of_tokenless {forwardBatch : ForwardBatch} {pieces : List Piece} (tokenless : Tokenless forwardBatch pieces) :
    carried slot pieces = [] := by
  refine List.flatMap_eq_nil_iff.mpr fun piece member => ?_
  exact tokenless.2 piece (List.mem_filter.mp member).1

theorem Follows.step (follows : Follows model slot initial said pool) (faithful : fused.Faithful)
    (large : 2 ≤ model.ngramSize) (real : slot ≠ 0) {event : Event} (lawful : Lawful slot pool event) :
    Follows model slot initial (said ++ sequence slot [event]) (step fused model pool event) := by
  cases event with
  | forward inputIds forwardBatch calls pieces =>
      have told : sequence slot [.forward inputIds forwardBatch calls pieces] = carried slot pieces :=
        List.flatMap_singleton _ _
      have kept (same : NGram.step fused model pool (.forward inputIds forwardBatch calls pieces) =
          { pool with pleWindowCache := none }) (none : carried slot pieces = []) :
          Follows model slot initial (said ++ carried slot pieces)
            (NGram.step fused model pool (.forward inputIds forwardBatch calls pieces)) := by
        rw [same, none, List.append_nil]
        exact ⟨⟨follows.sized.width, follows.sized.context⟩, follows.history⟩
      rw [told]
      rcases lawful with ⟨carries, untracked⟩ | ⟨idle, vacant⟩
      · by_cases asked : Tokenless forwardBatch pieces ∧ calls ≠ []
        · refine kept ?_ (carried_of_tokenless asked.1)
          rw [NGram.step, forward_raises follows.sized carries asked.1 asked.2]
        · obtain ⟨windows, next, passed, committed, _⟩ := forward_carries faithful large follows.sized carries calls
            fun tokenless => not_not.mp (not_and.mp asked tokenless)
          have width : next.contextLen = pool.contextLen := by
            have before := follows.sized.width
            have after := committed.sized.width
            omega
          rw [NGram.step, passed]
          refine ⟨committed.sized, ?_⟩
          rw [committed.context slot real untracked, follows.history, rtake_rtake_append (Nat.le_add_right _ _),
            List.append_assoc, width]
      · refine kept ?_ (by rw [vacant]; rfl)
        rw [NGram.step]
        rcases @forward_idle fused model pool inputIds forwardBatch calls idle with ⟨error, raised⟩ | passed
        · rw [raised]
        · rw [passed]
  | assign mambaIndex =>
      refine ⟨⟨follows.sized.width, follows.sized.context⟩, ?_⟩
      rw [sequence, List.flatMap_singleton, List.append_nil]
      exact follows.history
  | setContext other context =>
      obtain ⟨elsewhere, width⟩ := lawful
      refine ⟨⟨follows.sized.width, setNgramContext_length follows.sized.context (by simpa using width)⟩, ?_⟩
      rw [sequence, List.flatMap_singleton, List.append_nil, NGram.step,
        setNgramContext_other _ (by simpa using Ne.symm elsewhere)]
      exact follows.history

theorem sequence_append (slot : Nat) (first second : List Event) :
    sequence slot (first ++ second) = sequence slot first ++ sequence slot second := List.flatMap_append

theorem Follows.run (follows : Follows model slot initial said pool) (faithful : fused.Faithful)
    (large : 2 ≤ model.ngramSize) (real : slot ≠ 0) {events : List Event}
    (lawful : (machine fused model).Meets (Lawful slot) pool events) :
    Follows model slot initial (said ++ sequence slot events) ((machine fused model).run pool events) := by
  induction events generalizing pool said with
  | nil =>
      rw [show said ++ sequence slot [] = said from List.append_nil _]
      exact follows
  | cons event rest ih =>
      have here := follows.step faithful large real lawful.1
      have later := ih here lawful.2
      rwa [List.append_assoc, ← sequence_append] at later

/-- A layer asks for the ids of an extend pass that has no tokens. -/
def Event.AsksTokenless : Event → Prop
  | .forward _ forwardBatch calls pieces => Tokenless forwardBatch pieces ∧ calls ≠ []
  | .assign _ | .setContext _ _ => False

/-- The history of a request's slot is the end of its initial history and all
tokens carried for it since, no pass fails, and every layer hashes for every one
of these tokens the window that ends in it, however the tokens were cut into
pieces and whatever else the passes carried. -/
structure Chunked (fused : FusedHash) (model : Model) (pool : ReqToTokenPool) (slot : Nat) (events : List Event) :
    Prop where
  history : ((machine fused model).run pool events).context slot =
    (pool.context slot ++ sequence slot events).rtake (model.ngramSize - 1)
  ids : ∀ (before after : List Event) (inputIds : List Token) (forwardBatch : ForwardBatch) (calls : List LayerTables)
      (pieces : List Piece), events = before ++ .forward inputIds forwardBatch calls pieces :: after →
    pleForwardMode forwardBatch ≠ .idle →
    ∃ ids next, forward fused model ((machine fused model).run pool before) inputIds forwardBatch calls = .ok (ids, next) ∧
      ∀ (row offset : Nat) (piece : Piece), pieces[row]? = some piece → piece.state = slot → offset < piece.tokens.length →
        ids.map (·[rowStart (pieceLengths pieces) row + offset]?) = calls.map fun tables =>
          some ((model.embedding tables).windowIds
            ((pool.context slot ++ sequence slot before ++ piece.tokens.take (offset + 1)).rtake model.ngramSize))

theorem follows_start (sized : pool.Sized model) : Follows model slot (pool.context slot) [] pool := by
  refine ⟨sized, ?_⟩
  rw [List.append_nil, rtake_of_length (sized.context slot)]

theorem Follows.answers (follows : Follows model slot initial said pool) (faithful : fused.Faithful) (large : 2 ≤ model.ngramSize)
    {inputIds : List Token} {forwardBatch : ForwardBatch} {calls : List LayerTables} {pieces : List Piece}
    (carries : Carries pool inputIds forwardBatch pieces)
    (asks : ¬ (Event.forward inputIds forwardBatch calls pieces).AsksTokenless) :
    ∃ ids next, forward fused model pool inputIds forwardBatch calls = .ok (ids, next) ∧
      ∀ (row offset : Nat) (piece : Piece), pieces[row]? = some piece → piece.state = slot → offset < piece.tokens.length →
        ids.map (·[rowStart (pieceLengths pieces) row + offset]?) = calls.map fun tables =>
          some ((model.embedding tables).windowIds
            ((initial ++ said ++ piece.tokens.take (offset + 1)).rtake model.ngramSize)) := by
  obtain ⟨windows, next, passed, _, placed⟩ := forward_carries faithful large follows.sized carries calls
    fun tokenless => not_not.mp (not_and.mp asks tokenless)
  refine ⟨_, next, passed, fun row offset piece found state inside => ?_⟩
  rw [List.map_map]
  apply List.map_congr_left
  intro tables _
  have width := follows.sized.width
  have some_ : (piece.tokens.take (offset + 1)).length = offset + 1 := by
    rw [List.length_take]
    omega
  simp only [Function.comp_apply, List.getElem?_map, placed row offset piece found inside, Option.map_some, state, follows.history]
  rw [rtake_rtake_append (by omega)]

/-- Ids and history do not depend on how a run cuts the tokens, exactly if it
asks no extend pass without tokens for ids. -/
theorem ngram_chunking_iff (fused : FusedHash) (faithful : fused.Faithful) (model : Model) (large : 2 ≤ model.ngramSize)
    (pool : ReqToTokenPool) (sized : pool.Sized model) (slot : Nat) (real : slot ≠ 0) (events : List Event)
    (lawful : (machine fused model).Meets (Lawful slot) pool events) :
    Chunked fused model pool slot events ↔ ∀ event ∈ events, ¬ event.AsksTokenless := by
  have start := @follows_start model pool slot sized
  constructor
  · intro chunked event member asks
    obtain ⟨before, after, split⟩ := List.append_of_mem member
    cases event with
    | forward inputIds forwardBatch calls pieces =>
        obtain ⟨tokenless, asked⟩ := asks
        have working : pleForwardMode forwardBatch ≠ .idle := by
          rw [tokenless.1]
          decide
        obtain ⟨ids, next, passed, -⟩ := chunked.ids before after inputIds forwardBatch calls pieces split working
        rw [split] at lawful
        obtain ⟨earlier, later⟩ := Machine.meets_append lawful
        have reached := start.run faithful large real earlier
        rcases later.1 with ⟨carries, -⟩ | ⟨idle, -⟩
        · rw [forward_raises reached.sized carries tokenless asked] at passed
          cases passed
        · exact working idle
    | assign mambaIndex => exact asks
    | setContext other context => exact asks
  · intro answered
    constructor
    · have final := start.run faithful large real lawful
      have size := final.sized.width
      rw [final.history, List.nil_append, show ((machine fused model).run pool events).contextLen = model.ngramSize - 1 by
        omega]
    · intro before after inputIds forwardBatch calls pieces split working
      have asks := answered _ (split ▸ List.mem_append_right before List.mem_cons_self)
      rw [split] at lawful
      obtain ⟨earlier, later⟩ := Machine.meets_append lawful
      have reached := start.run faithful large real earlier
      rw [List.nil_append] at reached
      rcases later.1 with ⟨carries, _⟩ | ⟨idle, _⟩
      · exact reached.answers faithful large carries asks
      · exact absurd idle working

def trigramModel : Model := ⟨3, 9, true⟩

def eagerOnly : FusedHash := fun _ _ => none

def trigramTables : LayerTables := ⟨1, [3, 5, 7], [11, 13], [0, 11]⟩

def trigramPool : ReqToTokenPool := ⟨id, 2, fun _ => [9, 9], [], none⟩

def plainBatch : ForwardBatch := ⟨.extend, none, none, false, none, none, none, none, [], none, none, none, none⟩

/-- An extend pass of three rows, one of them empty. -/
def extendPass : Event :=
  .forward [5, 6, 8] { plainBatch with extendSeqLens := some [2, 0, 1], reqPoolIndices := [1, 3, 2] } [trigramTables]
    [⟨1, [5, 6], false⟩, ⟨3, [], false⟩, ⟨2, [8], false⟩]

/-- A decode pass with a row of CUDA graph padding. -/
def decodeBatch : ForwardBatch :=
  { plainBatch with forwardMode := .decode, reqPoolIndices := [1, 0], outCacheLoc := some [4, 0] }

def decodePieces : List Piece := [⟨1, [7], false⟩, ⟨0, [2], true⟩]

def trigramEvents : List Event := [extendPass, .forward [7, 2] decodeBatch [trigramTables] decodePieces]

theorem trigramEvents_lawful : (machine eagerOnly trigramModel).Meets (Lawful 1) trigramPool trigramEvents :=
  ⟨Or.inl ⟨⟨rfl, rfl, rfl, rfl, rfl, rfl, Or.inl ⟨rfl, rfl, by simp [plainBatch], by simp⟩, by decide⟩,
      by simp [Untracked, plainBatch]⟩,
    Or.inl ⟨⟨rfl, rfl, rfl, rfl, rfl, rfl, Or.inr ⟨rfl, by simp [decodePieces], by simp [decodeBatch],
      by simp [decodeBatch, decodePieces]⟩, by decide⟩, by simp [Untracked, decodeBatch, plainBatch]⟩, trivial⟩

theorem trigramPool_sized : trigramPool.Sized trigramModel := ⟨rfl, fun _ => rfl⟩

theorem eagerOnly_faithful : eagerOnly.Faithful := fun _ _ _ hashed => nomatch hashed

theorem ngram_chunking_iff_trigrams : Chunked eagerOnly trigramModel trigramPool 1 trigramEvents := by
  refine (ngram_chunking_iff eagerOnly eagerOnly_faithful trigramModel (by decide) trigramPool trigramPool_sized 1 (by decide)
    trigramEvents trigramEvents_lawful).mpr ?_
  intro event member asks
  rcases List.mem_cons.mp member with rfl | later
  · exact absurd (asks.1.2 ⟨1, [5, 6], false⟩ (by decide)) (by decide)
  · obtain rfl := List.mem_singleton.mp later
    exact absurd asks.1.1 (by decide)

/-- The row of a request that has no tokens in this pass, and no other row. -/
def emptyPass : Event :=
  .forward [] { plainBatch with extendSeqLens := some [0], extendSeqLensCpu := some [0], reqPoolIndices := [1] }
    [trigramTables] [⟨1, [], false⟩]

theorem emptyPass_not_chunked : (machine eagerOnly trigramModel).Meets (Lawful 1) trigramPool [emptyPass] ∧
    ¬ Chunked eagerOnly trigramModel trigramPool 1 [emptyPass] := by
  refine ⟨⟨Or.inl ⟨⟨rfl, rfl, rfl, rfl, rfl, rfl, Or.inl ⟨rfl, rfl, ?_, by simp⟩, by decide⟩, ?_⟩, trivial⟩, ?_⟩
  · intro lengths given
    cases given
    rfl
  · simp [Untracked, plainBatch]
  · intro chunked
    obtain ⟨ids, next, passed, -⟩ := chunked.ids [] [] _ _ _ _ rfl (by decide)
    have raised : (.ok (ids, next) : Except PleError (List (List (List Token)) × ReqToTokenPool)) = .error .shape :=
      passed.symm.trans rfl
    cases raised

end FlashNext.NGram
