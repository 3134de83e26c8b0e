import FlashNext.Data.Ledger
import Mathlib.Logic.Function.Basic

namespace FlashNext.Data

variable {Place α β : Type*} [DecidableEq Place]

/-- A place that is listed twice gets its last value. -/
def assign : List Place → List α → (Place → α) → Place → α
  | target :: rest, value :: later, store => assign rest later (Function.update store target value)
  | _, _, store => store

def move (targets sources : List Place) (store : Place → α) : Place → α := assign targets (sources.map store) store

variable {targets sources : List Place} {values : List α} {store other : Place → α} {place : Place} {index : Nat} {value : α}

@[simp] theorem assign_nil (values : List α) (store : Place → α) : assign [] values store = store := by
  cases values <;> rfl

theorem assign_other (absent : place ∉ targets) : assign targets values store place = store place := by
  induction targets generalizing values store with
  | nil => rw [assign_nil]
  | cons target rest ih =>
      cases values with
      | nil => rfl
      | cons value later =>
          have apart : place ≠ target := fun same => absent (by simp [same])
          rw [assign, ih fun member => absent (by simp [member]), Function.update_of_ne apart]

theorem assign_target (distinct : targets.Nodup) (found : targets[index]? = some place) (given : values[index]? = some value) :
    assign targets values store place = value := by
  induction targets generalizing values store index with
  | nil => cases found
  | cons target rest ih =>
      obtain ⟨once, distinct⟩ := List.nodup_cons.mp distinct
      cases values with
      | nil => cases given
      | cons first later =>
          cases index with
          | zero =>
              cases found
              cases given
              rw [assign, assign_other once, Function.update_self]
          | succ index => exact ih distinct found given

/-- What a target gets does not depend on the store. -/
theorem assign_listed (listed : place ∈ targets) (same : values.length = targets.length) :
    assign targets values store place = assign targets values other place := by
  induction targets generalizing values store other with
  | nil => cases listed
  | cons target rest ih =>
      cases values with
      | nil => cases same
      | cons value later =>
          by_cases again : place ∈ rest
          · exact ih again (Nat.succ.inj same)
          · have here : place = target := (List.mem_cons.mp listed).resolve_right again
            rw [assign, assign, assign_other again, assign_other again, here, Function.update_self, Function.update_self]

theorem assign_agree (agree : store place = other place) :
    assign targets values store place = assign targets values other place := by
  induction targets generalizing values store other with
  | nil => rwa [assign_nil, assign_nil]
  | cons target rest ih =>
      cases values with
      | nil => exact agree
      | cons value later =>
          refine ih ?_
          by_cases here : place = target
          · rw [here, Function.update_self, Function.update_self]
          · rwa [Function.update_of_ne here, Function.update_of_ne here]

/-- A part of each value is assigned as the whole is. -/
theorem assign_comp (part : α → β) (targets : List Place) (values : List α) (store : Place → α) (place : Place) :
    part (assign targets values store place) = assign targets (values.map part) (part ∘ store) place := by
  induction targets generalizing values store with
  | nil => simp
  | cons target rest ih =>
      cases values with
      | nil => rfl
      | cons value later =>
          rw [assign, ih, List.map_cons, assign, Function.comp_update]

/-- Each target gets a value of its own. -/
theorem assign_map (change : Place → α) (targets : List Place) (store : Place → α) (place : Place) :
    assign targets (targets.map change) store place = if place ∈ targets then change place else store place := by
  induction targets generalizing store with
  | nil => rw [assign_nil, if_neg nofun]
  | cons target rest ih =>
      rw [List.map_cons, assign, ih]
      by_cases later : place ∈ rest
      · rw [if_pos later, if_pos (by simp [later])]
      · rw [if_neg later]
        by_cases here : place = target
        · rw [here, Function.update_self, if_pos (by simp)]
        · rw [Function.update_of_ne here, if_neg (by simp [here, later])]

theorem assign_append {before after : List Place} {first second : List α} (same : first.length = before.length) :
    assign (before ++ after) (first ++ second) store = assign after second (assign before first store) := by
  induction before generalizing first store with
  | nil =>
      rw [List.eq_nil_of_length_eq_zero same]
      simp
  | cons target rest ih =>
      cases first with
      | nil => cases same
      | cons value later => exact ih (Nat.succ.inj same)

theorem move_comp (part : α → β) (targets sources : List Place) (store : Place → α) (place : Place) :
    part (move targets sources store place) = move targets sources (part ∘ store) place := by
  refine (assign_comp part targets _ store place).trans ?_
  rw [List.map_map]
  rfl

theorem move_other (absent : place ∉ targets) : move targets sources store place = store place := assign_other absent

/-- A move looks at its sources and at the place itself. -/
theorem move_congr (sources_agree : ∀ source ∈ sources, store source = other source) (agree : store place = other place) :
    move targets sources store place = move targets sources other place := by
  rw [move, List.map_congr_left sources_agree]
  exact assign_agree agree

theorem move_target {source : Place} (distinct : targets.Nodup) (found : targets[index]? = some place)
    (given : sources[index]? = some source) : move targets sources store place = store source :=
  assign_target distinct found (by rw [List.getElem?_map, given]; rfl)

/-- A move in two parts is the whole move if the second part reads nothing that
the first has written. -/
theorem move_append {before after first second : List Place} (same : first.length = before.length)
    (untouched : ∀ place ∈ second, move before first store place = store place) :
    move (before ++ after) (first ++ second) store = move after second (move before first store) := by
  rw [move, List.map_append, assign_append (by rwa [List.length_map])]
  exact congrArg (assign after · _) (List.map_congr_left fun place member => (untouched place member).symm)

/-- Stores that stand side by side are moved as one. -/
theorem move_map {γ : Type*} (stores : List γ) (view : γ → Place → α) (targets sources : List Place) (place : Place) :
    move targets sources (fun place => stores.map fun store => view store place) place =
      stores.map fun store => move targets sources (view store) place := by
  apply List.ext_getElem?
  intro index
  refine (move_comp (fun values : List α => values[index]?) targets sources _ place).trans ?_
  rw [List.getElem?_map]
  simp only [Function.comp_def, List.getElem?_map]
  cases stores[index]? with
  | none => exact (move_comp (fun _ : Place => (none : Option α)) targets sources id place).symm
  | some store => exact (move_comp some targets sources (view store) place).symm

theorem move_iterate_map {γ : Type*} (stores : List γ) (view : γ → Place → α) (targets sources : List Place) (count : Nat)
    (place : Place) : (move targets sources)^[count] (fun place => stores.map fun store => view store place) place =
      stores.map fun store => (move targets sources)^[count] (view store) place := by
  induction count generalizing place with
  | zero => rfl
  | succ count ih =>
      rw [Function.iterate_succ_apply', funext ih, move_map]
      simp only [Function.iterate_succ_apply']

/-- A move that reads nothing it changes can be made again. -/
theorem move_again (same : sources.length = targets.length) (untouched : ∀ place ∈ sources, move targets sources store place = store place) :
    move targets sources (move targets sources store) = move targets sources store := by
  have reads : sources.map (move targets sources store) = sources.map store := List.map_congr_left untouched
  funext place
  rw [move, reads]
  by_cases listed : place ∈ targets
  · exact assign_listed listed ((List.length_map _).trans same)
  · exact assign_other listed

/-- A move made twice is the move only if it reads nothing that it changes. -/
theorem move_twice (distinct : targets.Nodup) (same : sources.length = targets.length) :
    move targets sources (move targets sources store) = move targets sources store ↔
      ∀ place ∈ sources, move targets sources store place = store place := by
  refine ⟨fun again source member => ?_, move_again same⟩
  obtain ⟨index, found⟩ := List.getElem?_of_mem member
  have bound := (List.getElem?_eq_some_iff.mp found).1
  have target := List.getElem?_eq_getElem (same ▸ bound : index < targets.length)
  have written := congrFun again targets[index]
  rwa [move_target distinct target found, move_target distinct target found] at written

/-- Parts of a move, one after the other. -/
def moves : List (List Place × List Place) → (Place → α) → Place → α
  | [], store => store
  | part :: rest, store => moves rest (move part.1 part.2 store)

theorem moves_agree {parts : List (List Place × List Place)}
    (sources_agree : ∀ part ∈ parts, ∀ source ∈ part.2, store source = other source) (agree : store place = other place) :
    moves parts store place = moves parts other place := by
  induction parts generalizing store other with
  | nil => exact agree
  | cons part rest ih =>
      obtain ⟨here, later⟩ := List.forall_mem_cons.mp sources_agree
      exact ih (fun next member source listed => move_congr here (later next member source listed)) (move_congr here agree)

/-- A move in parts is the whole move if no part reads what an earlier one has
written. -/
theorem moves_eq {parts : List (List Place × List Place)} (same : ∀ part ∈ parts, part.2.length = part.1.length)
    (apart : parts.Pairwise fun earlier later => ∀ place ∈ later.2, place ∉ earlier.1) :
    moves parts store = move (parts.map Prod.fst).flatten (parts.map Prod.snd).flatten store := by
  induction parts generalizing store with
  | nil => exact (assign_nil _ _).symm
  | cons part rest ih =>
      obtain ⟨here, later⟩ := List.forall_mem_cons.mp same
      obtain ⟨unread, apart⟩ := List.pairwise_cons.mp apart
      rw [moves, ih later apart, List.map_cons, List.map_cons, List.flatten_cons, List.flatten_cons, move_append here]
      intro place member
      obtain ⟨sources, listed, inside⟩ := List.mem_flatten.mp member
      obtain ⟨part, present, rfl⟩ := List.mem_map.mp listed
      exact move_other (unread part present place inside)

section Rows

variable {targets sources : List Nat} {rows values : List α} {place : Nat}

theorem getElem?_putSlots (same : values.length = targets.length) (bound : place < rows.length) :
    (putSlots targets values rows)[place]? = assign targets (values.map some) (fun place => rows[place]?) place := by
  induction targets generalizing values rows with
  | nil => rw [assign_nil]; rfl
  | cons target rest ih =>
      cases values with
      | nil => cases same
      | cons value later =>
          have put : putSlots (target :: rest) (value :: later) rows = putSlots rest later (rows.set target value) := rfl
          rw [put, ih (Nat.succ.inj same) (by rwa [List.length_set]), List.map_cons, assign]
          apply assign_agree
          by_cases here : place = target
          · subst here
            rw [List.getElem?_set_self bound, Function.update_self]
          · rw [List.getElem?_set_ne (Ne.symm here), Function.update_of_ne here]

end Rows

end FlashNext.Data
