import FlashNext.Data.Assign

namespace FlashNext.Data

structure Storage (Store Place Value : Type*) where
  read : Store → Place → Value
  write : Store → Place → Value → Store

namespace Storage

variable {Store Place Value : Type*} (storage : Storage Store Place Value)

def scatter : List Place → List Value → Store → Store
  | place :: rest, value :: later, store => scatter rest later (storage.write store place value)
  | _, _, store => store

theorem scatter_append {before after : List Place} {first second : List Value} (same : first.length = before.length) (store : Store) :
    storage.scatter (before ++ after) (first ++ second) store = storage.scatter after second (storage.scatter before first store) := by
  induction before generalizing first store with
  | nil =>
      rw [List.eq_nil_of_length_eq_zero same]
      cases after <;> rfl
  | cons place rest ih =>
      cases first with
      | nil => cases same
      | cons value later => exact ih (Nat.succ.inj same) (storage.write store place value)

/-- All values are read before the first is written. -/
def transfer (targets sources : List Place) (store : Store) : Store :=
  storage.scatter targets (sources.map (storage.read store)) store

def transfers : List (List Place × List Place) → Store → Store
  | [], store => store
  | part :: rest, store => transfers rest (storage.transfer part.1 part.2 store)

/-- Within its places, a well-formed store that is written differs there only. -/
structure Lawful [DecidableEq Place] (sound : Store → Prop) (room : Place → Prop) (fits : Value → Prop) : Prop where
  fits_read : ∀ store place, sound store → room place → fits (storage.read store place)
  sound_write : ∀ store place value, sound store → room place → fits value → sound (storage.write store place value)
  read_write : ∀ store place value other, sound store → room place → fits value → room other →
    storage.read (storage.write store place value) other = Function.update (storage.read store) place value other

variable [DecidableEq Place] {storage} {sound : Store → Prop} {room : Place → Prop} {fits : Value → Prop} {store : Store}
  {targets sources : List Place} {values : List Value} {place : Place}

theorem Lawful.sound_scatter (lawful : storage.Lawful sound room fits) (whole : sound store) (inside : ∀ target ∈ targets, room target)
    (fitting : ∀ value ∈ values, fits value) : sound (storage.scatter targets values store) := by
  induction targets generalizing values store with
  | nil => cases values <;> exact whole
  | cons target rest ih =>
      cases values with
      | nil => exact whole
      | cons value later =>
          obtain ⟨here, inside⟩ := List.forall_mem_cons.mp inside
          obtain ⟨fit, fitting⟩ := List.forall_mem_cons.mp fitting
          exact ih (lawful.sound_write store target value whole here fit) inside fitting

theorem Lawful.read_scatter (lawful : storage.Lawful sound room fits) (whole : sound store) (inside : ∀ target ∈ targets, room target)
    (fitting : ∀ value ∈ values, fits value) (bound : room place) :
    storage.read (storage.scatter targets values store) place = assign targets values (storage.read store) place := by
  induction targets generalizing values store with
  | nil => cases values <;> rfl
  | cons target rest ih =>
      cases values with
      | nil => rfl
      | cons value later =>
          obtain ⟨here, inside⟩ := List.forall_mem_cons.mp inside
          obtain ⟨fit, fitting⟩ := List.forall_mem_cons.mp fitting
          rw [scatter, ih (lawful.sound_write store target value whole here fit) inside fitting, assign]
          exact assign_agree (lawful.read_write store target value place whole here fit bound)

section Transfers

variable (lawful : storage.Lawful sound room fits) (whole : sound store) (inside : ∀ target ∈ targets, room target)
  (reads : ∀ source ∈ sources, room source)

include lawful whole reads in
theorem Lawful.fits_gathered : ∀ value ∈ sources.map (storage.read store), fits value := by
  intro value member
  obtain ⟨source, listed, rfl⟩ := List.mem_map.mp member
  exact lawful.fits_read store source whole (reads source listed)

include lawful whole inside reads

theorem Lawful.sound_transfer : sound (storage.transfer targets sources store) :=
  lawful.sound_scatter whole inside (lawful.fits_gathered whole reads)

theorem Lawful.read_transfer (bound : room place) :
    storage.read (storage.transfer targets sources store) place = move targets sources (storage.read store) place :=
  lawful.read_scatter whole inside (lawful.fits_gathered whole reads) bound

end Transfers

section Parts

variable (lawful : storage.Lawful sound room fits) {parts : List (List Place × List Place)}

include lawful

theorem Lawful.sound_transfers (whole : sound store)
    (inside : ∀ part ∈ parts, (∀ target ∈ part.1, room target) ∧ ∀ source ∈ part.2, room source) :
    sound (storage.transfers parts store) := by
  induction parts generalizing store with
  | nil => exact whole
  | cons part rest ih =>
      obtain ⟨⟨targets, sources⟩, later⟩ := List.forall_mem_cons.mp inside
      exact ih (lawful.sound_transfer whole targets sources) later

theorem Lawful.read_transfers (whole : sound store)
    (inside : ∀ part ∈ parts, (∀ target ∈ part.1, room target) ∧ ∀ source ∈ part.2, room source) (bound : room place) :
    storage.read (storage.transfers parts store) place = moves parts (storage.read store) place := by
  induction parts generalizing store with
  | nil => rfl
  | cons part rest ih =>
      obtain ⟨⟨targets, sources⟩, later⟩ := List.forall_mem_cons.mp inside
      refine (ih (lawful.sound_transfer whole targets sources) later).trans ?_
      exact moves_agree (fun part member place here => lawful.read_transfer whole targets sources ((later part member).2 place here))
        (lawful.read_transfer whole targets sources bound)

end Parts

end Storage

end FlashNext.Data
