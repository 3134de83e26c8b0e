import Mathlib.Data.List.Basic
import Mathlib.Data.Option.NAry

namespace FlashNext.Data

variable {α β γ : Type*}

/-- `rows[slots]`. -/
def takeSlots (slots : List Nat) (rows : List α) : List α := slots.filterMap fun slot => rows[slot]?

/-- `rows[slots] = values`. -/
def putSlots (slots : List Nat) (values rows : List α) : List α :=
  (slots.zip values).foldl (fun rows entry => rows.set entry.1 entry.2) rows

/-- `tensor[:, slots]`. -/
def takeColumns (slots : List Nat) (tensor : List (List α)) : List (List α) := tensor.map (takeSlots slots)

/-- `tensor[:, slots] = values`. -/
def putColumns (slots : List Nat) (values tensor : List (List α)) : List (List α) :=
  List.zipWith (putSlots slots) values tensor

/-- What a slot holds, layer by layer. -/
def column (slot : Nat) (tensor : List (List α)) : List (Option α) := tensor.map fun rows => rows[slot]?

def HasSlot (slot : Nat) (tensor : List (List α)) : Prop := ∀ rows ∈ tensor, slot < rows.length

instance (slot : Nat) (tensor : List (List α)) : Decidable (HasSlot slot tensor) :=
  inferInstanceAs (Decidable (∀ rows ∈ tensor, _))

variable {slot slot' : Nat} {slots : List Nat} {rows values : List α} {tensor : List (List α)}

@[simp] theorem length_putSlots (slots : List Nat) (values rows : List α) :
    (putSlots slots values rows).length = rows.length := by
  have each (entries : List (Nat × α)) (rows : List α) :
      (entries.foldl (fun rows entry => rows.set entry.1 entry.2) rows).length = rows.length := by
    induction entries generalizing rows with
    | nil => rfl
    | cons entry rest ih => exact (ih _).trans List.length_set
  exact each _ rows

theorem putSlots_other (absent : slot ∉ slots) (values rows : List α) :
    (putSlots slots values rows)[slot]? = rows[slot]? := by
  induction slots generalizing values rows with
  | nil => rfl
  | cons first rest ih =>
      cases values with
      | nil => rfl
      | cons value later =>
          have apart : first ≠ slot := fun same => absent (by simp [same])
          have step := ih (fun member => absent (by simp [member])) later (rows.set first value)
          rw [List.getElem?_set_ne apart] at step
          exact step

theorem putSlots_target {index : Nat} {value : α} (distinct : slots.Nodup) (target : slots[index]? = some slot)
    (given : values[index]? = some value) (bound : slot < rows.length) :
    (putSlots slots values rows)[slot]? = some value := by
  induction slots generalizing values rows index with
  | nil => cases target
  | cons first rest ih =>
      have ⟨once, later⟩ := List.nodup_cons.mp distinct
      cases values with
      | nil => cases given
      | cons head tail =>
          cases index with
          | zero =>
              cases target
              cases given
              have kept := putSlots_other once tail (rows.set slot value)
              rw [List.getElem?_set_self bound] at kept
              exact kept
          | succ index => exact ih later target given (by simpa using bound)

theorem putSlots_listed (listed : slot ∈ slots) (same : values.length = slots.length) (bound : slot < rows.length) :
    ∃ index : Nat, slots[index]? = some slot ∧ (putSlots slots values rows)[slot]? = values[index]? := by
  induction slots generalizing values rows with
  | nil => cases listed
  | cons first rest ih =>
      cases values with
      | nil => cases same
      | cons value later =>
          by_cases again : slot ∈ rest
          · have room : slot < (rows.set first value).length := by simpa using bound
            obtain ⟨index, found, stays⟩ := ih again (Nat.succ.inj same) room
            exact ⟨index + 1, found, stays⟩
          · have here : slot = first := (List.mem_cons.mp listed).resolve_right again
            subst here
            refine ⟨0, rfl, ?_⟩
            have kept := putSlots_other again later (rows.set slot value)
            rw [List.getElem?_set_self bound] at kept
            exact kept

theorem putSlots_const {value : α} (listed : slot ∈ slots) (bound : slot < rows.length) :
    (putSlots slots (List.replicate slots.length value) rows)[slot]? = some value := by
  obtain ⟨index, found, stays⟩ := putSlots_listed listed List.length_replicate bound
  rw [stays, List.getElem?_replicate, if_pos (List.getElem?_eq_some_iff.mp found).1]

theorem takeSlots_getElem? (inside : ∀ slot ∈ slots, slot < rows.length) (index : Nat) :
    (takeSlots slots rows)[index]? = slots[index]?.bind fun slot => rows[slot]? := by
  induction slots generalizing index with
  | nil => rfl
  | cons first rest ih =>
      have here := List.getElem?_eq_getElem (inside first (by simp))
      have later := ih fun slot member => inside slot (by simp [member])
      rw [takeSlots, List.filterMap_cons, here]
      cases index with
      | zero => simp [here]
      | succ index => exact later index

theorem takeSlots_eq_map (inside : ∀ slot ∈ slots, slot < rows.length) (fallback : α) :
    takeSlots slots rows = slots.map fun slot => rows.getD slot fallback := by
  induction slots with
  | nil => rfl
  | cons first rest ih =>
      have here := List.getElem?_eq_getElem (inside first (by simp))
      rw [takeSlots, List.filterMap_cons, here, List.map_cons, List.getD_eq_getElem?_getD, here]
      exact congrArg _ (ih fun slot member => inside slot (by simp [member]))

theorem takeSlots_zipWith (combine : α → β → γ) {left : List α} {right : List β}
    (inLeft : ∀ slot ∈ slots, slot < left.length) (inRight : ∀ slot ∈ slots, slot < right.length) :
    List.zipWith combine (takeSlots slots left) (takeSlots slots right) =
      takeSlots slots (List.zipWith combine left right) := by
  induction slots with
  | nil => rfl
  | cons first rest ih =>
      have later := ih (fun slot member => inLeft slot (by simp [member])) fun slot member => inRight slot (by simp [member])
      have l := List.getElem?_eq_getElem (inLeft first (by simp))
      have r := List.getElem?_eq_getElem (inRight first (by simp))
      simp only [takeSlots] at later ⊢
      simp [List.getElem?_zipWith, l, r, later]

theorem takeSlots_map (convert : α → β) (slots : List Nat) (rows : List α) :
    takeSlots slots (rows.map convert) = (takeSlots slots rows).map convert := by
  simp [takeSlots, List.map_filterMap]

theorem column_takeColumns {index : Nat} (inside : ∀ slot ∈ slots, HasSlot slot tensor)
    (found : slots[index]? = some slot) : column index (takeColumns slots tensor) = column slot tensor := by
  rw [column, takeColumns, List.map_map]
  apply List.map_congr_left
  intro rows member
  rw [Function.comp_apply, takeSlots_getElem? (fun slot listed => inside slot listed rows member), found]
  rfl

theorem column_putColumns_other {values : List (List α)} (absent : slot ∉ slots)
    (layers : values.length = tensor.length) : column slot (putColumns slots values tensor) = column slot tensor := by
  induction tensor generalizing values with
  | nil => simp [putColumns, column]
  | cons rows rest ih =>
      cases values with
      | nil => cases layers
      | cons first later =>
          rw [putColumns, List.zipWith_cons_cons, column, List.map_cons, putSlots_other absent]
          exact congrArg _ (ih (Nat.succ.inj layers))

theorem column_putColumns {values : List (List α)} {index : Nat} (distinct : slots.Nodup)
    (target : slots[index]? = some slot) (layers : values.length = tensor.length) (room : HasSlot slot tensor)
    (given : HasSlot index values) : column slot (putColumns slots values tensor) = column index values := by
  induction tensor generalizing values with
  | nil =>
      rw [List.eq_nil_of_length_eq_zero layers]
      rfl
  | cons rows rest ih =>
      cases values with
      | nil => cases layers
      | cons first later =>
          have value := List.getElem?_eq_getElem (given first (by simp))
          rw [putColumns, List.zipWith_cons_cons, column, column, List.map_cons, List.map_cons,
            putSlots_target distinct target value (room rows (by simp)), value]
          exact congrArg _ (ih (Nat.succ.inj layers) (fun rows member => room rows (by simp [member]))
            fun rows member => given rows (by simp [member]))

theorem hasSlot_putColumns {values : List (List α)} (layers : values.length = tensor.length) :
    HasSlot slot' (putColumns slots values tensor) ↔ HasSlot slot' tensor := by
  induction tensor generalizing values with
  | nil => simp [putColumns, HasSlot]
  | cons rows rest ih =>
      cases values with
      | nil => cases layers
      | cons first later =>
          have later := @ih later (Nat.succ.inj layers)
          simp only [HasSlot, putColumns, List.zipWith_cons_cons, List.forall_mem_cons, length_putSlots] at later ⊢
          exact and_congr_right fun _ => later

theorem length_putColumns {values : List (List α)} (layers : values.length = tensor.length) :
    (putColumns slots values tensor).length = tensor.length := by
  rw [putColumns, List.length_zipWith, layers, Nat.min_self]

@[simp] theorem length_takeColumns (slots : List Nat) (tensor : List (List α)) :
    (takeColumns slots tensor).length = tensor.length := List.length_map _

theorem hasSlot_takeColumns {index : Nat} (inside : ∀ slot ∈ slots, HasSlot slot tensor) (bound : index < slots.length) :
    HasSlot index (takeColumns slots tensor) := by
  intro rows member
  obtain ⟨layer, present, rfl⟩ := List.mem_map.mp member
  have entry := takeSlots_getElem? (fun slot listed => inside slot listed layer present) index
  rw [List.getElem?_eq_getElem bound, Option.bind_some,
    List.getElem?_eq_getElem (inside _ (List.getElem_mem bound) layer present)] at entry
  exact (List.getElem?_eq_some_iff.mp entry).1

theorem column_copy {sources : List Nat} {source target : Nat} {index : Nat} {from_ into : List (List α)}
    (distinct : slots.Nodup) (layers : from_.length = into.length) (reads : ∀ slot ∈ sources, HasSlot slot from_)
    (read : sources[index]? = some source) (written : slots[index]? = some target) (room : HasSlot target into) :
    column target (putColumns slots (takeColumns sources from_) into) = column source from_ := by
  have bound := (List.getElem?_eq_some_iff.mp read).1
  rw [column_putColumns distinct written (by rwa [length_takeColumns]) room (hasSlot_takeColumns reads bound),
    column_takeColumns reads read]

theorem column_map (convert : α → β) (slot : Nat) (tensor : List (List α)) :
    column slot (tensor.map (List.map convert)) = (column slot tensor).map (Option.map convert) := by
  simp [column, Function.comp_def]

theorem takeColumns_map (convert : α → β) (slots : List Nat) (tensor : List (List α)) :
    takeColumns slots (tensor.map (List.map convert)) = (takeColumns slots tensor).map (List.map convert) := by
  simp [takeColumns, Function.comp_def, takeSlots_map]

theorem takeColumns_zipWith (combine : α → β → γ) {left : List (List α)} {right : List (List β)}
    (inLeft : ∀ slot ∈ slots, HasSlot slot left) (inRight : ∀ slot ∈ slots, HasSlot slot right) :
    List.zipWith (List.zipWith combine) (takeColumns slots left) (takeColumns slots right) =
      takeColumns slots (List.zipWith (List.zipWith combine) left right) := by
  induction left generalizing right with
  | nil => rfl
  | cons rows rest ih =>
      cases right with
      | nil => rfl
      | cons first later =>
          have here := takeSlots_zipWith combine (fun slot listed => inLeft slot listed rows (by simp))
            fun slot listed => inRight slot listed first (by simp)
          have tail := @ih later (fun slot listed rows member => inLeft slot listed rows (by simp [member]))
            fun slot listed rows member => inRight slot listed rows (by simp [member])
          exact congrArg₂ List.cons here tail

theorem hasSlot_map (convert : α → β) : HasSlot slot (tensor.map (List.map convert)) ↔ HasSlot slot tensor := by
  simp [HasSlot]

theorem column_convert {convert : α → β} {sources : List Nat} {source target : Nat} {index : Nat} {from_ : List (List α)}
    {into : List (List β)} (distinct : slots.Nodup) (layers : from_.length = into.length)
    (reads : ∀ slot ∈ sources, HasSlot slot from_) (read : sources[index]? = some source)
    (written : slots[index]? = some target) (room : HasSlot target into) :
    column target (putColumns slots ((takeColumns sources from_).map (List.map convert)) into) =
      (column source from_).map (Option.map convert) := by
  rw [← takeColumns_map, ← column_map]
  exact column_copy distinct (by rwa [List.length_map]) (fun slot listed => (hasSlot_map convert).mpr (reads slot listed))
    read written room

theorem column_zipWith (combine : α → β → γ) (slot : Nat) (left : List (List α)) (right : List (List β)) :
    column slot (List.zipWith (List.zipWith combine) left right) =
      List.zipWith (Option.map₂ combine) (column slot left) (column slot right) := by
  induction left generalizing right with
  | nil => rfl
  | cons rows rest ih =>
      cases right with
      | nil => rfl
      | cons first later =>
          have here : (List.zipWith combine rows first)[slot]? = Option.map₂ combine rows[slot]? first[slot]? := by
            rw [List.getElem?_zipWith]
            cases rows[slot]? <;> cases first[slot]? <;> rfl
          exact congrArg₂ List.cons here (ih later)

theorem hasSlot_zipWith (combine : α → β → γ) {left : List (List α)} {right : List (List β)} (inLeft : HasSlot slot left)
    (inRight : HasSlot slot right) : HasSlot slot (List.zipWith (List.zipWith combine) left right) := by
  induction left generalizing right with
  | nil => simp [HasSlot]
  | cons rows rest ih =>
      cases right with
      | nil => simp [HasSlot]
      | cons first later =>
          have here : slot < (List.zipWith combine rows first).length := by
            rw [List.length_zipWith]
            exact Nat.lt_min.mpr ⟨inLeft rows (by simp), inRight first (by simp)⟩
          have tail := @ih later (fun rows member => inLeft rows (by simp [member]))
            fun rows member => inRight rows (by simp [member])
          exact List.forall_mem_cons.mpr ⟨here, tail⟩

theorem zipWith_pair (left : α → β) (right : α → γ) (entries : List (Option α)) :
    List.zipWith (Option.map₂ Prod.mk) (entries.map (Option.map left)) (entries.map (Option.map right)) =
      entries.map (Option.map fun entry => (left entry, right entry)) := by
  induction entries with
  | nil => rfl
  | cons entry rest ih =>
      cases entry with
      | none => exact congrArg _ ih
      | some value => exact congrArg _ ih

section Families

variable {δ ε : Type*} {combine : α → β → γ} {left : List α} {right : List β} {shape : α → ε} {shape' : β → ε}

theorem map_zipWith_right {view : γ → δ} {view' : β → δ} (shapes : left.map shape = right.map shape')
    (each : ∀ x ∈ left, ∀ y ∈ right, shape x = shape' y → view (combine x y) = view' y) :
    (List.zipWith combine left right).map view = right.map view' := by
  induction left generalizing right with
  | nil =>
      rw [List.map_eq_nil_iff.mp shapes.symm]
      rfl
  | cons first rest ih =>
      cases right with
      | nil => cases shapes
      | cons head tail =>
          have ⟨here, later⟩ := List.cons.inj shapes
          exact congrArg₂ List.cons (each first (by simp) head (by simp) here)
            (ih later fun x inLeft y inRight => each x (by simp [inLeft]) y (by simp [inRight]))

theorem map_zipWith_left {view : γ → δ} {view' : α → δ} (shapes : left.map shape = right.map shape')
    (each : ∀ x ∈ left, ∀ y ∈ right, shape x = shape' y → view (combine x y) = view' x) :
    (List.zipWith combine left right).map view = left.map view' := by
  rw [List.zipWith_comm]
  exact map_zipWith_right shapes.symm fun y inRight x inLeft same => each x inLeft y inRight same.symm

theorem forall_zipWith {holds : γ → Prop} (shapes : left.map shape = right.map shape')
    (each : ∀ x ∈ left, ∀ y ∈ right, shape x = shape' y → holds (combine x y)) :
    ∀ z ∈ List.zipWith combine left right, holds z := by
  have all : (List.zipWith combine left right).map holds = left.map fun _ => True := map_zipWith_left shapes
    fun x inLeft y inRight same => eq_true (each x inLeft y inRight same)
  intro z member
  have listed := List.mem_map_of_mem (f := holds) member
  rw [all] at listed
  obtain ⟨_, _, truth⟩ := List.mem_map.mp listed
  exact of_eq_true truth.symm

end Families

end FlashNext.Data
