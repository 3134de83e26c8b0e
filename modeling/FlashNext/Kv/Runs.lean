import FlashNext.Kv.Moves

namespace FlashNext.Kv

open FlashNext.Data KVPool

variable {Cell : Type} {copyKernel : Buffer Cell → List Nat → List Nat → Buffer Cell} {size : Nat} {heads : Component → Nat}
  {pool : KVPool Cell} {tgtLoc srcLoc : List Nat}

/-- What a slot has in the layers of each component. -/
abbrev Token (Cell : Type) := Component → List (List Cell)

def KVPool.token (pool : KVPool Cell) (slot : Nat) : Token Cell := fun component =>
  (pool.component component).map (·.read pool.pageSize slot)

structure Serving (Cell : Type) where
  pool : KVPool Cell
  fault : Option Fault

inductive Event (Cell : Type) where
  | set (layer : Nat) (loc : List Nat) (rows : Component → List (List Cell))
  | move (tgtLoc srcLoc : List Nat)

namespace Serving

def perform (copyKernel : Buffer Cell → List Nat → List Nat → Buffer Cell) (state : Serving Cell) : Event Cell → Serving Cell
  | .set layer loc rows => { state with pool := state.pool.setKvBuffer layer loc rows }
  | .move tgtLoc srcLoc =>
      match state.pool.moveKvCache tgtLoc srcLoc copyKernel with
      | .ok pool => { state with pool }
      | .error fault => { state with fault := some fault }

def machine (copyKernel : Buffer Cell → List Nat → List Nat → Buffer Cell) : Machine (Serving Cell) (Event Cell) where
  step state event := ([], perform copyKernel state event)

/-- What callers promise.  Where rows of scales are moved a second time, a move
reads no slot that it writes. -/
def Permitted (size : Nat) (heads : Component → Nat) (state : Serving Cell) : Event Cell → Prop
  | .set _ loc rows =>
      (∀ slot ∈ loc, slot < size) ∧ ∀ component, state.pool.component component ≠ [] →
        (rows component).length = loc.length ∧ ∀ row ∈ rows component, row.length = heads component
  | .move tgtLoc srcLoc =>
      Movable size state.pool tgtLoc srcLoc ∧ (state.pool.MovesScalesTwice → ∀ slot ∈ tgtLoc, slot ∉ srcLoc)

end Serving

/-- Whole tokens. -/
def tokens (store : Nat → Token Cell) : Event Cell → Nat → Token Cell
  | .set layer loc rows => fun slot component =>
      (store slot component).modify layer fun _ =>
        assign loc (rows component) (fun other => (store other component).getD layer []) slot
  | .move tgtLoc srcLoc => move tgtLoc srcLoc store

def tokenMachine : Machine (Nat → Token Cell) (Event Cell) where
  step store event := ([], tokens store event)

section Moves

variable {change : Component → Buffer Cell → Buffer Cell} {count : Component → Nat}

theorem formed_mapAll (formed : Formed size heads pool) (moves : MovesBy size heads tgtLoc srcLoc pool count change) :
    Formed size heads (pool.mapAll change) where
  shaped component buffer member := by
    rw [component_mapAll] at member
    obtain ⟨before, listed, rfl⟩ := List.mem_map.mp member
    exact (moves component before listed).shaped
  layers component := by
    rw [component_mapAll, List.length_map]
    exact (formed.layers component).trans_eq (List.length_map _).symm
  values := (List.length_map _).trans (formed.values.trans (List.length_map _).symm)
  rows rowed flat plain component buffer member := by
    rw [component_mapAll] at member
    obtain ⟨before, listed, rfl⟩ := List.mem_map.mp member
    obtain ⟨rows, here⟩ := formed.rows rowed flat plain component before listed
    exact (moves component before listed).rows rows here
  unscaled paged := by
    obtain ⟨keys, values⟩ := formed.unscaled paged
    rw [component_mapAll, component_mapAll, keys, values]
    exact ⟨rfl, rfl⟩
  hnd := formed.hnd

theorem token_mapAll (moves : MovesBy size heads tgtLoc srcLoc pool count change) {slot : Nat} (bound : slot < size)
    (component : Component) : (pool.mapAll change).token slot component =
      (move tgtLoc srcLoc)^[count component] (fun slot => pool.token slot component) slot := by
  have buffers := move_iterate_map (pool.component component) (Buffer.read pool.pageSize) tgtLoc srcLoc (count component) slot
  rw [token, component_mapAll, List.map_map]
  refine Eq.trans (List.map_congr_left fun buffer member => ?_) buffers.symm
  exact (moves component buffer member).read slot bound

theorem token_moved (moves : MovesBy size heads tgtLoc srcLoc pool count change) (movable : Movable size pool tgtLoc srcLoc)
    (apart : ∀ component, count component = 1 ∨ count component = 2 ∧ ∀ slot ∈ tgtLoc, slot ∉ srcLoc) {slot : Nat}
    (bound : slot < size) : (pool.mapAll change).token slot = move tgtLoc srcLoc pool.token slot := by
  funext component
  rw [token_mapAll moves bound component, move_comp (fun token : Token Cell => token component) tgtLoc srcLoc pool.token slot]
  rcases apart component with one | ⟨two, unread⟩
  · rw [one, Function.iterate_one]
    rfl
  · rw [two]
    exact congrFun (move_again movable.same fun slot read => move_other fun written => unread slot written read) slot

end Moves

section Stores

variable {layer : Nat} {loc : List Nat} {rows : Component → List (List Cell)}

theorem component_setKvBuffer (component : Component) : (pool.setKvBuffer layer loc rows).component component =
    (pool.component component).modify layer ((Buffer.storage pool.pageSize).scatter loc (rows component)) := by
  cases component with
  | k | v => rfl
  | kScale => cases scales : pool.kScaleBuffer <;> simp [setKvBuffer, KVPool.component, scales]
  | vScale => cases scales : pool.vScaleBuffer <;> simp [setKvBuffer, KVPool.component, scales]

theorem mem_modify {α : Type} {values : List α} {change : α → α} {index : Nat} {value : α} (member : value ∈ values.modify index change) :
    ∃ before ∈ values, value = before ∨ value = change before := by
  obtain ⟨place, found⟩ := List.getElem?_of_mem member
  rw [List.getElem?_modify] at found
  obtain ⟨before, here, rfl⟩ := Option.map_eq_some_iff.mp found
  refine ⟨before, List.mem_of_getElem? here, ?_⟩
  split
  · exact .inr rfl
  · exact .inl rfl

variable (inside : ∀ slot ∈ loc, slot < size)
  (fits : ∀ component, pool.component component ≠ [] →
    (rows component).length = loc.length ∧ ∀ row ∈ rows component, row.length = heads component)

include inside fits

theorem formed_setKvBuffer (formed : Formed size heads pool) : Formed size heads (pool.setKvBuffer layer loc rows) where
  shaped component buffer member := by
    rw [component_setKvBuffer] at member
    obtain ⟨before, listed, rfl | rfl⟩ := mem_modify member
    · exact formed.shaped component buffer listed
    · exact (storage_lawful pool.pageSize size (heads component)).sound_scatter (formed.shaped component before listed) inside
        (fits component (List.ne_nil_of_mem listed)).2
  layers component := by
    rw [component_setKvBuffer, List.length_modify]
    exact (formed.layers component).trans_eq (List.length_modify ..).symm
  values := (List.length_modify ..).trans (formed.values.trans (List.length_modify ..).symm)
  rows rowed flat plain component buffer member := by
    rw [component_setKvBuffer] at member
    obtain ⟨before, listed, rfl | rfl⟩ := mem_modify member
    · exact formed.rows rowed flat plain component buffer listed
    · obtain ⟨rows', rfl⟩ := formed.rows rowed flat plain component before listed
      obtain ⟨after, -, whole⟩ := scatter_nhd pool.pageSize loc (rows component) rows'
      exact ⟨after, whole⟩
  unscaled paged := by
    obtain ⟨keys, values⟩ := formed.unscaled paged
    rw [component_setKvBuffer, component_setKvBuffer, keys, values]
    exact ⟨List.modify_nil .., List.modify_nil ..⟩
  hnd := formed.hnd

theorem token_setKvBuffer (formed : Formed size heads pool) {slot : Nat} (bound : slot < size) :
    (pool.setKvBuffer layer loc rows).token slot = tokens pool.token (.set layer loc rows) slot := by
  funext component
  rw [token, component_setKvBuffer, tokens]
  apply List.ext_getElem?
  intro index
  rw [List.getElem?_map, List.getElem?_modify, List.getElem?_modify, token, List.getElem?_map]
  cases found : (pool.component component)[index]? with
  | none => rfl
  | some buffer =>
      simp only [Option.map_eq_map, Option.map_some]
      split
      · rename_i here
        have listed := List.mem_of_getElem? found
        have stored := (storage_lawful pool.pageSize size (heads component)).read_scatter (formed.shaped component buffer listed)
          inside (fits component (List.ne_nil_of_mem listed)).2 bound
        have seen : (fun other => (pool.token other component).getD layer []) = buffer.read pool.pageSize := by
          funext other
          rw [token, here, List.getD_eq_getElem?_getD, List.getElem?_map, found]
          rfl
        rw [seen]
        exact congrArg some stored
      · rfl

end Stores

section Refinement

variable {state : Serving Cell} {store : Nat → Token Cell} {event : Event Cell}

structure Refines (size : Nat) (heads : Component → Nat) (state : Serving Cell) (store : Nat → Token Cell) : Prop where
  running : state.fault = none
  formed : Formed size heads state.pool
  tokens : ∀ slot < size, state.pool.token slot = store slot

open Serving in
theorem step_refines (copies : TiledCopies copyKernel) (refines : Refines size heads state store)
    (permitted : Permitted size heads state event) : Refines size heads (perform copyKernel state event) (tokens store event) := by
  cases event with
  | set layer loc rows =>
      refine ⟨refines.running, formed_setKvBuffer permitted.1 permitted.2 refines.formed, fun slot bound => ?_⟩
      refine (token_setKvBuffer permitted.1 permitted.2 refines.formed bound).trans (funext fun component => ?_)
      have same := refines.tokens slot bound
      have written : (fun _ : List Cell => assign loc (rows component) (fun other => (state.pool.token other component).getD layer []) slot) =
          fun _ => assign loc (rows component) (fun other => (store other component).getD layer []) slot :=
        funext fun _ => assign_agree (by rw [same])
      simp only [tokens]
      rw [same, written]
  | move tgtLoc srcLoc =>
      obtain ⟨movable, apart⟩ := permitted
      obtain ⟨change, moved, moves⟩ := moveKvCache_moves copies refines.formed movable
      rw [perform, moved]
      refine ⟨refines.running, formed_mapAll refines.formed moves, fun slot bound => ?_⟩
      have counts : ∀ component, state.pool.passes component = 1 ∨
          state.pool.passes component = 2 ∧ ∀ slot ∈ tgtLoc, slot ∉ srcLoc := by
        intro component
        cases component with
        | k => exact .inl rfl
        | v => exact .inl rfl
        | kScale | vScale =>
            by_cases twice : state.pool.MovesScalesTwice
            · exact .inr ⟨if_pos twice, apart twice⟩
            · exact .inl (if_neg twice)
      refine (token_moved moves movable counts bound).trans ?_
      exact move_congr (fun source member => refines.tokens source (movable.sources source member)) (refines.tokens slot bound)

theorem run_refines (copies : TiledCopies copyKernel) (refines : Refines size heads state store) {events : List (Event Cell)}
    (permitted : (Serving.machine copyKernel).Meets (Serving.Permitted size heads) state events) :
    Refines size heads ((Serving.machine copyKernel).run state events) (tokenMachine.run store events) := by
  induction events generalizing state store with
  | nil => exact refines
  | cons event rest ih => exact ih (step_refines copies refines permitted.1) permitted.2

end Refinement

section Twice

/-- Scales that are moved twice stay with their keys and values exactly when no
source takes other scales in the first of the two moves. -/
theorem scales_follow_iff (copies : TiledCopies copyKernel) (formed : Formed size heads pool) (movable : Movable size pool tgtLoc srcLoc)
    (distinct : tgtLoc.Nodup) (twice : pool.MovesScalesTwice) : ∃ next, pool.moveKvCache tgtLoc srcLoc copyKernel = .ok next ∧
      ((∀ slot < size, next.token slot = move tgtLoc srcLoc pool.token slot) ↔
        ∀ slot ∈ srcLoc, ∀ component ∈ [Component.kScale, .vScale],
          move tgtLoc srcLoc pool.token slot component = pool.token slot component) := by
  obtain ⟨change, moved, moves⟩ := moveKvCache_moves copies formed movable
  refine ⟨_, moved, ?_⟩
  -- the store of one component
  have part (slot : Nat) (component : Component) : move tgtLoc srcLoc pool.token slot component =
      move tgtLoc srcLoc (fun slot => pool.token slot component) slot :=
    move_comp (fun token : Token Cell => token component) tgtLoc srcLoc pool.token slot
  have scales (component : Component) (scale : pool.passes component = 2) :
      (∀ slot < size, (pool.mapAll change).token slot component = move tgtLoc srcLoc pool.token slot component) ↔
        ∀ slot ∈ srcLoc, move tgtLoc srcLoc pool.token slot component = pool.token slot component := by
    simp only [part]
    rw [← move_twice distinct movable.same]
    constructor
    · intro whole
      funext slot
      by_cases bound : slot < size
      · rw [← whole slot bound, token_mapAll moves bound component, scale]
        rfl
      · have absent : slot ∉ tgtLoc := fun member => bound (movable.targets slot member)
        rw [move_other absent]
    · intro again slot bound
      rw [token_mapAll moves bound component, scale]
      exact congrFun again slot
  have once (component : Component) (once : pool.passes component = 1) {slot : Nat} (bound : slot < size) :
      (pool.mapAll change).token slot component = move tgtLoc srcLoc pool.token slot component := by
    rw [token_mapAll moves bound component, once, part]
    rfl
  constructor
  · intro whole slot member component listed
    refine (scales component ?_).mp (fun slot bound => congrFun (whole slot bound) component) slot member
    rcases List.mem_pair.mp listed with rfl | rfl <;> exact if_pos twice
  · intro still slot bound
    funext component
    cases component with
    | k => exact once .k rfl bound
    | v => exact once .v rfl bound
    | kScale => exact (scales .kScale (if_pos twice)).mpr (fun slot member => still slot member _ (by simp)) slot bound
    | vScale => exact (scales .vScale (if_pos twice)).mpr (fun slot member => still slot member _ (by simp)) slot bound

end Twice

section FourSlots

def rowsKernel (buffer : Buffer Nat) (tgtLoc srcLoc : List Nat) : Buffer Nat := moveRows 1 tgtLoc srcLoc buffer

theorem rowsKernel_copies : TiledCopies rowsKernel := fun _ _ _ _ _ _ _ => rfl

/-- One head; the scales differ from slot to slot. -/
def fourSlots (poolClass : PoolClass) (native : Bool) : KVPool Nat where
  poolClass := poolClass
  pageSize := 1
  useHnd := false
  useNativeMoveKvCache := native
  kvCopyConfig := some 1
  kBuffer := [.nhd [[10], [11], [12], [13]]]
  vBuffer := [.nhd [[20], [21], [22], [23]]]
  kScaleBuffer := some [.nhd [[30], [31], [32], [33]]]
  vScaleBuffer := some [.nhd [[40], [41], [42], [43]]]

theorem fourSlots_formed {poolClass : PoolClass} (scaled : poolClass ≠ .pageMajor) (native : Bool) :
    Formed 4 (fun _ => 1) (fourSlots poolClass native) where
  shaped component buffer member := by
    cases component <;> cases List.mem_singleton.mp member <;> exact ⟨rfl, by decide⟩
  layers component := by cases component <;> exact Nat.le_refl 1
  values := rfl
  rows _ _ _ component buffer member := by
    cases component <;> cases List.mem_singleton.mp member <;> exact ⟨_, rfl⟩
  unscaled paged := by
    rcases paged with hnd | paged
    · cases hnd
    · exact absurd paged scaled
  hnd := nofun

/-- A token is stored, and two are moved in chunks of one. -/
def storeAndMove : List (Event Nat) :=
  [.set 0 [1] fun component => match component with | .k => [[1]] | .v => [[2]] | .kScale => [[3]] | .vScale => [[4]],
    .move [2, 3] [1, 0]]

theorem storeAndMove_permitted :
    (Serving.machine rowsKernel).Meets (Serving.Permitted 4 fun _ => 1) ⟨fourSlots .mha false, none⟩ storeAndMove :=
  ⟨⟨by decide, fun component _ => by cases component <;> exact ⟨rfl, by decide⟩⟩,
    ⟨⟨rfl, by decide, by decide, fun _ => ⟨by decide, by decide, 1, rfl, by decide⟩⟩, fun twice => absurd twice.1 (by decide)⟩, trivial⟩

/-- The second slot takes the scales of the first, and passes them on. -/
theorem scales_follow_iff_shift : ∃ next, (fourSlots .mxfp8 true).moveKvCache [1, 2] [0, 1] rowsKernel = .ok next ∧
    ¬∀ slot < 4, next.token slot = move [1, 2] [0, 1] (fourSlots .mxfp8 true).token slot := by
  obtain ⟨next, moved, follow⟩ := scales_follow_iff rowsKernel_copies (fourSlots_formed (by decide : PoolClass.mxfp8 ≠ .pageMajor) true)
    (⟨rfl, by decide, by decide, fun tiled => absurd tiled.2.2.1 (by decide)⟩ : Movable 4 (fourSlots .mxfp8 true) [1, 2] [0, 1])
    (by decide) ⟨rfl, by decide, rfl⟩
  refine ⟨next, moved, fun whole => ?_⟩
  have still := follow.mp whole 1 (by decide) .kScale (by decide)
  exact absurd still (by decide)

end FourSlots

end FlashNext.Kv
