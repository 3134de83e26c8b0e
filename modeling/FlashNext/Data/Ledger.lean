import FlashNext.Data.Slots
import Mathlib.Algebra.BigOperators.Group.List.Basic
import Mathlib.Algebra.Order.Group.Multiset
import Mathlib.Data.Multiset.Count
import Mathlib.Data.Multiset.MapFold

namespace FlashNext.Data

section Positions

variable {α β : Type*} {slots : List Nat} {rows values : List α} {view : α → Option β} {entries : List α}

theorem filterMap_getElem? {view : α → Option β} {entries : List α}
    (all : ∀ entry ∈ entries, (view entry).isSome) (index : Nat) :
    (entries.filterMap view)[index]? = entries[index]?.bind view := by
  induction entries generalizing index with
  | nil => rfl
  | cons entry rest ih =>
      obtain ⟨here, later⟩ := List.forall_mem_cons.mp all
      obtain ⟨value, found⟩ := Option.isSome_iff_exists.mp here
      rw [List.filterMap_cons, found]
      cases index with
      | zero => simp [found]
      | succ index => exact ih later index

theorem length_takeSlots (inside : ∀ slot ∈ slots, slot < rows.length) :
    (takeSlots slots rows).length = slots.length := by
  induction slots with
  | nil => rfl
  | cons slot rest ih =>
      obtain ⟨here, later⟩ := List.forall_mem_cons.mp inside
      rw [takeSlots, List.filterMap_cons, List.getElem?_eq_getElem here]
      exact congrArg _ (ih later)

theorem mem_putSlots {row : α} (member : row ∈ putSlots slots values rows) : row ∈ rows ∨ row ∈ values := by
  induction slots generalizing values rows with
  | nil => exact .inl member
  | cons slot rest ih =>
      cases values with
      | nil => exact .inl member
      | cons value later =>
          have earlier : row ∈ putSlots rest later (rows.set slot value) := member
          rcases ih earlier with kept | put
          · rcases List.mem_or_eq_of_mem_set kept with kept | rfl
            · exact .inl kept
            · exact .inr List.mem_cons_self
          · exact .inr (List.mem_cons_of_mem _ put)

theorem putSlots_takeSlots (inside : ∀ slot ∈ slots, slot < rows.length) :
    putSlots slots (takeSlots slots rows) rows = rows := by
  induction slots with
  | nil => rfl
  | cons slot rest ih =>
      obtain ⟨here, later⟩ := List.forall_mem_cons.mp inside
      have found := List.getElem?_eq_getElem here
      have taken : takeSlots (slot :: rest) rows = rows[slot] :: takeSlots rest rows := by
        rw [takeSlots, List.filterMap_cons, found]
        rfl
      have put : putSlots (slot :: rest) (rows[slot] :: takeSlots rest rows) rows =
          putSlots rest (takeSlots rest rows) (rows.set slot rows[slot]) := rfl
      rw [taken, put, List.set_getElem_self, ih later]

end Positions

section Totals

variable {Owner Stock : Type*} [AddCommMonoid Stock]

def total (holds : Owner → Stock) (owners : List Owner) : Stock := (owners.map holds).sum

variable {holds : Owner → Stock} {owners : List Owner} {owner : Owner} {position : Nat}

@[simp] theorem total_nil (holds : Owner → Stock) : total holds [] = 0 := rfl

@[simp] theorem total_cons (holds : Owner → Stock) (owner : Owner) (owners : List Owner) :
    total holds (owner :: owners) = holds owner + total holds owners := by
  rw [total, List.map_cons, List.sum_cons, total]

@[simp] theorem total_append (holds : Owner → Stock) (left right : List Owner) :
    total holds (left ++ right) = total holds left + total holds right := by
  rw [total, List.map_append, List.sum_append, total, total]

theorem total_zero (empty : ∀ owner ∈ owners, holds owner = 0) : total holds owners = 0 := by
  induction owners with
  | nil => rfl
  | cons owner rest ih =>
      rw [total_cons, empty owner (by simp), ih fun owner member => empty owner (by simp [member]), zero_add]

theorem total_set (found : owners[position]? = some owner) (next : Owner) :
    total holds (owners.set position next) + holds owner = total holds owners + holds next := by
  induction owners generalizing position with
  | nil => cases found
  | cons first rest ih =>
      cases position with
      | zero =>
          cases found
          rw [List.set_cons_zero, total_cons, total_cons, add_right_comm, add_comm (holds next), add_right_comm]
      | succ position =>
          rw [List.set_cons_succ, total_cons, total_cons, add_assoc, ih found, add_assoc]

/-- Owners at distinct positions are taken out, changed and put back. -/
theorem total_putSlots {positions : List Nat} {next : List Owner} (distinct : positions.Nodup)
    (inside : ∀ position ∈ positions, position < owners.length) (same : next.length = positions.length) :
    total holds (putSlots positions next owners) + total holds (takeSlots positions owners) =
      total holds owners + total holds next := by
  induction positions generalizing next owners with
  | nil =>
      rw [List.eq_nil_of_length_eq_zero same]
      rfl
  | cons position rest ih =>
      cases next with
      | nil => cases same
      | cons first others =>
          obtain ⟨once, distinct⟩ := List.nodup_cons.mp distinct
          obtain ⟨here, inside⟩ := List.forall_mem_cons.mp inside
          have found := List.getElem?_eq_getElem here
          have kept : takeSlots rest (owners.set position first) = takeSlots rest owners := by
            apply List.filterMap_congr
            intro other member
            exact List.getElem?_set_ne fun (equal : position = other) => once (equal ▸ member)
          have later := @ih (owners.set position first) others distinct
            (fun other member => by rw [List.length_set]; exact inside other member) (Nat.succ.inj same)
          rw [kept] at later
          have one : total holds (owners.set position first) + _ = _ := total_set found first
          have taken : takeSlots (position :: rest) owners = owners[position] :: takeSlots rest owners := by
            rw [takeSlots, List.filterMap_cons, found]
            rfl
          have put : putSlots (position :: rest) (first :: others) owners =
              putSlots rest others (owners.set position first) := rfl
          rw [put, taken, total_cons, total_cons, add_left_comm, later, ← add_assoc, add_comm (holds _), one, add_assoc]

end Totals

section Conservation

variable {Owner Stock : Type*} [AddCancelCommMonoid Stock] {holds : Owner → Stock} {owners : List Owner}
  {before after : Stock}

theorem set_conserves {position : Nat} {owner next : Owner} (found : owners[position]? = some owner)
    (moved : after + holds next = before + holds owner) :
    after + total holds (owners.set position next) = before + total holds owners := by
  have changed : total holds (owners.set position next) + _ = _ := total_set found next
  apply add_right_cancel (b := holds owner)
  rw [add_assoc, changed, add_comm (total holds owners), ← add_assoc, moved, add_right_comm]

theorem putSlots_conserves {positions : List Nat} {next : List Owner} (distinct : positions.Nodup)
    (inside : ∀ position ∈ positions, position < owners.length) (same : next.length = positions.length)
    (moved : after + total holds next = before + total holds (takeSlots positions owners)) :
    after + total holds (putSlots positions next owners) = before + total holds owners := by
  have changed : total holds (putSlots positions next owners) + _ = _ := total_putSlots distinct inside same
  apply add_right_cancel (b := total holds (takeSlots positions owners))
  rw [add_assoc, changed, add_comm (total holds owners), ← add_assoc, moved, add_right_comm]

end Conservation

section Distinct

variable {Owner Item : Type*} {holds : Owner → Multiset Item} {owners : List Owner}

theorem mem_total {item : Item} : item ∈ total holds owners ↔ ∃ owner ∈ owners, item ∈ holds owner := by
  induction owners with
  | nil => simp
  | cons owner rest ih => simp [ih]

theorem position_unique (distinct : (total holds owners).Nodup) {left right : Nat} {one other : Owner} (item : Item)
    (atLeft : owners[left]? = some one) (atRight : owners[right]? = some other) (inOne : item ∈ holds one)
    (inOther : item ∈ holds other) : left = right := by
  induction owners generalizing left right with
  | nil => cases atLeft
  | cons first rest ih =>
      rw [total_cons, Multiset.nodup_add] at distinct
      have apart {owner : Owner} {position : Nat} (found : rest[position]? = some owner) (holding : item ∈ holds owner) :
          item ∉ holds first := fun shared =>
        Multiset.disjoint_left.mp distinct.2.2 shared (mem_total.mpr ⟨owner, List.mem_of_getElem? found, holding⟩)
      cases left with
      | zero =>
          cases atLeft
          cases right with
          | zero => rfl
          | succ right => exact absurd inOne (apart atRight inOther)
      | succ left =>
          cases right with
          | zero =>
              cases atRight
              exact absurd inOther (apart atLeft inOne)
          | succ right => exact congrArg _ (ih distinct.2.1 atLeft atRight)

/-- What owners at distinct positions hold is part of the whole. -/
theorem total_takeSlots_le {positions : List Nat} (distinct : positions.Nodup)
    (inside : ∀ position ∈ positions, position < owners.length) :
    total holds (takeSlots positions owners) ≤ total holds owners := by
  -- those that are taken leave owners of nothing behind
  let share : Option Owner → Multiset Item := fun owner => owner.elim 0 holds
  have whole (owners : List Owner) : total share (owners.map some) = total holds owners := by
    rw [total, List.map_map]
    rfl
  have none : total share (List.replicate positions.length none) = 0 :=
    total_zero fun owner member => by rw [List.eq_of_mem_replicate member]; rfl
  have moved : total share (putSlots positions (List.replicate positions.length .none) (owners.map some)) + _ = _ :=
    total_putSlots distinct (by simpa using inside) List.length_replicate
  rw [takeSlots_map, whole, whole, none, add_zero] at moved
  exact moved ▸ Multiset.le_add_left _ _

end Distinct

end FlashNext.Data
