import FlashNext.Mamba.Checkpoint

namespace FlashNext.Mamba

open FlashNext.Data

variable {Value Row Slots : Type} {Temporal Temporal' : Type}

@[ext] structure SlotState (Temporal Row : Type) where
  temporal : List (Option Temporal)
  conv : List (List (Option Row))
  sides : List (Option (List (Option Row)))
  deriving DecidableEq

def SlotState.map (convert : Temporal → Temporal') (state : SlotState Temporal Row) : SlotState Temporal' Row :=
  { state with temporal := state.temporal.map (·.map convert) }

def encode (arith : Arithmetic Value) (state : TemporalState Value) : Codes × Scales Value :=
  ((quantize arith state).1, storedScales arith (quantize arith state).2)

def decode (arith : Arithmetic Value) (cell : Codes × Scales Value) : TemporalState Value :=
  dequantize arith cell.1 cell.2

/-- The scales keep their value where they are stored in the format of the state. -/
theorem decode_encode_of_same_format {arith : Arithmetic Value}
    (same : ∀ value, arith.toScale (arith.toState value) = arith.toState value) (state : TemporalState Value) :
    decode arith (encode arith state) = dequantize arith (quantize arith state).1 (quantize arith state).2 := by
  have kept : storedScales arith (quantize arith state).2 = (quantize arith state).2 := by
    simp [storedScales, quantize, scaleRow, same]
  rw [decode, encode, kept]

@[simp] theorem length_emptyTensor {α : Type} (numLayers numSlots : Nat) (memory : Nat → Nat → α) :
    (emptyTensor numLayers numSlots memory).length = numLayers := by
  simp [emptyTensor]

theorem hasSlot_emptyTensor {α : Type} {numLayers numSlots slot : Nat} (memory : Nat → Nat → α)
    (bound : slot ≤ numSlots) : HasSlot slot (emptyTensor numLayers numSlots memory) := by
  intro rows member
  obtain ⟨layer, -, rfl⟩ := List.mem_map.mp member
  rw [List.length_map, List.length_range]
  exact Nat.lt_succ_of_le bound

namespace Source

inductive Layout where
  | layerMajor (numLayers : Nat)
  | slotMajor
  deriving DecidableEq

def layout : Source Row → Layout
  | layerMajor tensor => .layerMajor tensor.length
  | slotMajor _ => .slotMajor

def Has (source : Source Row) (slot : Nat) : Prop := HasSlot slot source.layers

def row (slot : Nat) (source : Source Row) : List (Option Row) := column slot source.layers

variable {into from_ : Source Row} {slot target source : Nat} {targets sources : List Nat} {index : Nat}

theorem length_layers (same : into.layout = from_.layout) : from_.layers.length = into.layers.length := by
  cases into with
  | slotMajor rows =>
      cases from_ with
      | slotMajor other => rfl
      | layerMajor tensor => cases same
  | layerMajor tensor =>
      cases from_ with
      | slotMajor rows => cases same
      | layerMajor other => exact (Layout.layerMajor.inj same).symm

theorem layers_assign (same : into.layout = from_.layout) :
    (assign targets sources into from_).layers = putColumns targets (takeColumns sources from_.layers) into.layers := by
  cases into <;> cases from_ <;> first | rfl | cases same

theorem layout_assign (targets sources : List Nat) (same : into.layout = from_.layout) : (assign targets sources into from_).layout = into.layout := by
  cases into with
  | slotMajor rows => cases from_ <;> rfl
  | layerMajor tensor =>
      cases from_ with
      | slotMajor rows => rfl
      | layerMajor other =>
          have layers := Layout.layerMajor.inj same
          exact congrArg Layout.layerMajor (length_putColumns (by rw [length_takeColumns, layers]))

theorem has_assign (same : into.layout = from_.layout) : (assign targets sources into from_).Has slot ↔ into.Has slot := by
  rw [Has, layers_assign same]
  exact hasSlot_putColumns (by rw [length_takeColumns, length_layers same])

theorem row_assign_other (same : into.layout = from_.layout) (absent : slot ∉ targets) :
    (assign targets sources into from_).row slot = into.row slot := by
  rw [row, layers_assign same]
  exact column_putColumns_other absent (by rw [length_takeColumns, length_layers same])

theorem row_assign (same : into.layout = from_.layout) (distinct : targets.Nodup)
    (reads : ∀ slot ∈ sources, from_.Has slot) (read : sources[index]? = some source)
    (written : targets[index]? = some target) (room : into.Has target) :
    (assign targets sources into from_).row target = from_.row source := by
  rw [row, layers_assign same]
  exact column_copy distinct (length_layers same) reads read written room

theorem layout_mirror (numSlots : Nat) (memory : Nat → Nat → Row) (source : Source Row) :
    (source.mirror numSlots memory).layout = source.layout := by
  cases source <;> simp [mirror, layout]

theorem has_mirror {numSlots : Nat} (memory : Nat → Nat → Row) (source : Source Row) (bound : slot ≤ numSlots) :
    (source.mirror numSlots memory).Has slot := by
  cases source with
  | layerMajor tensor => exact hasSlot_emptyTensor memory bound
  | slotMajor rows => exact @hasSlot_emptyTensor Row 1 numSlots slot memory bound

end Source

theorem pleSource_write {side : SideState Row} {old new : Source Row} (found : pleSource side = some old)
    (same : new.layout = old.layout) : pleSource (side.write new) = some new := by
  cases new with
  | layerMajor tensor => rfl
  | slotMajor rows =>
      obtain ⟨_ | tensor, context⟩ := side
      · rfl
      · cases found
        cases same

section Mirrors

variable {mirror : Option (Source Row)} {side : SideState Row} {activeSlots ckptSlots : List Nat}
  {slot source target index : Nat}

theorem mirrored_cases (same : mirror.map Source.layout = (pleSource side).map Source.layout) :
    (mirror = none ∧ pleSource side = none) ∨
      ∃ cached running, mirror = some cached ∧ pleSource side = some running ∧ cached.layout = running.layout := by
  cases mirror with
  | none => exact .inl ⟨rfl, Option.map_eq_none_iff.mp same.symm⟩
  | some cached =>
      obtain ⟨running, found, layouts⟩ := Option.map_eq_some_iff.mp same.symm
      exact .inr ⟨cached, running, rfl, found, layouts.symm⟩

theorem storeMirror_layout (same : mirror.map Source.layout = (pleSource side).map Source.layout) :
    (storeMirror activeSlots ckptSlots mirror side).map Source.layout = mirror.map Source.layout := by
  obtain ⟨rfl, -⟩ | ⟨cached, running, rfl, found, layouts⟩ := mirrored_cases same
  · rfl
  · simp [storeMirror, found, Source.layout_assign _ _ layouts]

theorem storeMirror_has (same : mirror.map Source.layout = (pleSource side).map Source.layout)
    (room : ∀ source ∈ mirror, source.Has slot) :
    ∀ source ∈ storeMirror activeSlots ckptSlots mirror side, source.Has slot := by
  obtain ⟨rfl, -⟩ | ⟨cached, running, rfl, found, layouts⟩ := mirrored_cases same
  · exact room
  · simpa [storeMirror, found, Source.has_assign layouts] using room

theorem storeMirror_other (same : mirror.map Source.layout = (pleSource side).map Source.layout)
    (absent : slot ∉ ckptSlots) :
    (storeMirror activeSlots ckptSlots mirror side).map (Source.row slot) = mirror.map (Source.row slot) := by
  obtain ⟨rfl, -⟩ | ⟨cached, running, rfl, found, layouts⟩ := mirrored_cases same
  · rfl
  · simp [storeMirror, found, Source.row_assign_other layouts absent]

theorem storeMirror_target (same : mirror.map Source.layout = (pleSource side).map Source.layout)
    (distinct : ckptSlots.Nodup) (reads : ∀ slot ∈ activeSlots, ∀ running ∈ pleSource side, running.Has slot)
    (read : activeSlots[index]? = some source) (written : ckptSlots[index]? = some target)
    (room : ∀ cached ∈ mirror, cached.Has target) :
    (storeMirror activeSlots ckptSlots mirror side).map (Source.row target) = (pleSource side).map (Source.row source) := by
  obtain ⟨rfl, missing⟩ | ⟨cached, running, rfl, found, layouts⟩ := mirrored_cases same
  · rw [missing]
    rfl
  · have copied := Source.row_assign layouts distinct (fun slot listed => reads slot listed running found) read written
      (room cached rfl)
    simp [storeMirror, found, copied]

theorem loadMirror_layout (same : mirror.map Source.layout = (pleSource side).map Source.layout) :
    (pleSource (loadMirror ckptSlots activeSlots mirror side)).map Source.layout =
      (pleSource side).map Source.layout := by
  obtain ⟨rfl, -⟩ | ⟨cached, running, rfl, found, layouts⟩ := mirrored_cases same
  · rfl
  · have kept := Source.layout_assign activeSlots ckptSlots layouts.symm
    simp [loadMirror, found, pleSource_write found kept, kept]

theorem loadMirror_other (same : mirror.map Source.layout = (pleSource side).map Source.layout)
    (absent : slot ∉ activeSlots) :
    (pleSource (loadMirror ckptSlots activeSlots mirror side)).map (Source.row slot) =
      (pleSource side).map (Source.row slot) := by
  obtain ⟨rfl, -⟩ | ⟨cached, running, rfl, found, layouts⟩ := mirrored_cases same
  · rfl
  · have kept := Source.layout_assign activeSlots ckptSlots layouts.symm
    simp [loadMirror, found, pleSource_write found kept, Source.row_assign_other layouts.symm absent]

theorem loadMirror_target (same : mirror.map Source.layout = (pleSource side).map Source.layout)
    (distinct : activeSlots.Nodup) (reads : ∀ slot ∈ ckptSlots, ∀ cached ∈ mirror, cached.Has slot)
    (read : ckptSlots[index]? = some source) (written : activeSlots[index]? = some target)
    (room : ∀ running ∈ pleSource side, running.Has target) :
    (pleSource (loadMirror ckptSlots activeSlots mirror side)).map (Source.row target) =
      mirror.map (Source.row source) := by
  obtain ⟨rfl, missing⟩ | ⟨cached, running, rfl, found, layouts⟩ := mirrored_cases same
  · simp [loadMirror, missing]
  · have kept := Source.layout_assign activeSlots ckptSlots layouts.symm
    have copied := Source.row_assign layouts.symm distinct (fun slot listed => reads slot listed cached rfl) read written
      (room running found)
    simp [loadMirror, found, pleSource_write found kept, copied]

end Mirrors

end FlashNext.Mamba
