import Mathlib.Data.List.Perm.Basic

namespace FlashNext.Data

/-! A memory is a function from positions to values, and a launch is a list of
stores in some order.  When the value of a store depends on its position only,
the order does not matter, nor whether a position is stored to twice.

The other part of a launch is the split of a range of work items among its
programs at `items * program / programs`. -/

section Stores

variable {ι α : Type*} [DecidableEq ι]

def store (memory : ι → α) (write : ι × α) : ι → α :=
  fun position => if position = write.1 then write.2 else memory position

def storeAll (memory : ι → α) (writes : List (ι × α)) : ι → α := writes.foldl store memory

theorem storeAll_of_not_mem {memory : ι → α} {writes : List (ι × α)} {position : ι}
    (absent : ∀ write ∈ writes, write.1 ≠ position) : storeAll memory writes position = memory position := by
  induction writes generalizing memory with
  | nil => rfl
  | cons write rest ih =>
      have here := absent write (by simp)
      have later := @ih (store memory write) fun other member => absent other (by simp [member])
      calc storeAll memory (write :: rest) position
          = store memory write position := later
        _ = memory position := if_neg (Ne.symm here)

theorem storeAll_eq {memory : ι → α} {writes : List (ι × α)} {position : ι} {value : α}
    (agree : ∀ write ∈ writes, write.1 = position → write.2 = value) (present : ∃ write ∈ writes, write.1 = position) :
    storeAll memory writes position = value := by
  induction writes generalizing memory with
  | nil =>
      obtain ⟨_, member, _⟩ := present
      cases member
  | cons write rest ih =>
      by_cases later : ∃ other ∈ rest, other.1 = position
      · exact ih (fun other member => agree other (by simp [member])) later
      · have untouched : storeAll memory (write :: rest) position = store memory write position :=
          storeAll_of_not_mem fun other member same => later ⟨other, member, same⟩
        obtain ⟨first, member, same⟩ := present
        rcases List.mem_cons.mp member with rfl | inside
        · rw [untouched, store, if_pos same.symm, agree first (by simp) same]
        · exact absurd ⟨first, inside, same⟩ later

theorem storeAll_of_mem {memory : ι → α} {writes : List (ι × α)} {position : ι} {value : ι → α}
    (determined : ∀ write ∈ writes, write.2 = value write.1) (present : ∃ write ∈ writes, write.1 = position) :
    storeAll memory writes position = value position := by
  apply storeAll_eq _ present
  intro write member same
  rw [determined write member, same]

theorem storeAll_zip {memory : ι → α} {positions : List ι} {values : List α} {index : Nat} {position : ι} {value : α}
    (target : positions[index]? = some position) (given : values[index]? = some value)
    (once : ∀ other : Nat, positions[other]? = some position → other = index) :
    storeAll memory (positions.zip values) position = value := by
  apply storeAll_eq
  · intro write member same
    obtain ⟨other, found⟩ := List.mem_iff_getElem?.mp member
    rw [List.getElem?_zip_eq_some, same] at found
    have here := once other found.1
    rw [here, given] at found
    exact (Option.some.inj found.2).symm
  · exact ⟨(position, value), List.mem_of_getElem? (List.getElem?_zip_eq_some.mpr ⟨target, given⟩), rfl⟩

theorem storeAll_zip_other {memory : ι → α} {positions : List ι} {position : ι} (values : List α)
    (absent : position ∉ positions) : storeAll memory (positions.zip values) position = memory position :=
  storeAll_of_not_mem fun _ member same => absent (same ▸ (List.of_mem_zip member).1)

omit [DecidableEq ι] in
theorem index_unique {entries : List ι} {keep : ι → Bool} (distinct : (entries.filter keep).Nodup) {entry : ι}
    (kept : keep entry = true) {first second : Nat} (here : entries[first]? = some entry)
    (there : entries[second]? = some entry) : first = second := by
  induction entries generalizing first second with
  | nil => cases here
  | cons head rest ih =>
      have once : (rest.filter keep).Nodup := distinct.sublist ((List.sublist_cons_self head rest).filter keep)
      have apart : ∀ index : Nat, head = entry → rest[index]? = some entry → False := by
        intro index same found
        rw [same, List.filter_cons_of_pos kept] at distinct
        exact (List.nodup_cons.mp distinct).1 (List.mem_filter.mpr ⟨List.mem_of_getElem? found, kept⟩)
      cases first with
      | zero =>
          cases second with
          | zero => rfl
          | succ second => exact (apart second (Option.some.inj here) there).elim
      | succ first =>
          cases second with
          | zero => exact (apart first (Option.some.inj there) here).elim
          | succ second => exact congrArg Nat.succ (ih once here there)

theorem storeAll_forall {memory : ι → α} {writes : List (ι × α)} {holds : α → Prop}
    (before : ∀ position, holds (memory position)) (written : ∀ write ∈ writes, holds write.2) :
    ∀ position, holds (storeAll memory writes position) := by
  induction writes generalizing memory with
  | nil => exact before
  | cons write rest ih =>
      apply ih _ fun other member => written other (by simp [member])
      intro position
      rw [store]
      split
      · exact written write (by simp)
      · exact before position

end Stores

section Split

variable {items : Int} {programs : Nat}

/-- Where the share of a program starts. -/
def cut (items : Int) (programs program : Nat) : Int := items * program / programs

theorem cut_zero (items : Int) (programs : Nat) : cut items programs 0 = 0 := by simp [cut]

theorem cut_last (some_ : 0 < programs) : cut items programs programs = items :=
  Int.mul_ediv_cancel items (by omega)

theorem cut_mono (nonneg : 0 ≤ items) {first second : Nat} (le : first ≤ second) :
    cut items programs first ≤ cut items programs second := by
  cases programs with
  | zero => simp [cut]
  | succ programs =>
      apply Int.ediv_le_ediv (by omega)
      exact Int.mul_le_mul_of_nonneg_left (by omega) nonneg

theorem exists_share (some_ : 0 < programs) {item : Int} (lower : 0 ≤ item) (upper : item < items) :
    ∃ program < programs, cut items programs program ≤ item ∧ item < cut items programs (program + 1) := by
  have before : ∀ count, item < cut items programs count →
      ∃ program < count, cut items programs program ≤ item ∧ item < cut items programs (program + 1) := by
    intro count
    induction count with
    | zero =>
        intro below
        rw [cut_zero] at below
        omega
    | succ count ih =>
        intro below
        by_cases earlier : item < cut items programs count
        · obtain ⟨program, bound, share⟩ := ih earlier
          exact ⟨program, by omega, share⟩
        · exact ⟨count, by omega, by omega, below⟩
  exact before programs (by rw [cut_last some_]; exact upper)

theorem nonneg_of_share {item : Int} {program : Nat} (lower : cut items programs program ≤ item)
    (upper : item < cut items programs (program + 1)) : 0 ≤ items := by
  cases programs with
  | zero =>
      simp [cut] at lower upper
      omega
  | succ programs =>
      by_contra negative
      have backwards : cut items (programs + 1) (program + 1) ≤ cut items (programs + 1) program := by
        apply Int.ediv_le_ediv (by omega)
        exact Int.mul_le_mul_of_nonpos_left (by omega) (by omega)
      omega

theorem share_unique {item : Int} {first second : Nat}
    (left : cut items programs first ≤ item ∧ item < cut items programs (first + 1))
    (right : cut items programs second ≤ item ∧ item < cut items programs (second + 1)) : first = second := by
  have nonneg := nonneg_of_share left.1 left.2
  rcases Nat.lt_trichotomy first second with before | same | after
  · have order : cut items programs (first + 1) ≤ cut items programs second := cut_mono nonneg before
    omega
  · exact same
  · have order : cut items programs (second + 1) ≤ cut items programs first := cut_mono nonneg after
    omega

end Split

end FlashNext.Data
