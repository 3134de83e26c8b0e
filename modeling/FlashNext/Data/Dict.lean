import Mathlib.Algebra.BigOperators.Group.List.Basic
import Mathlib.Algebra.Ring.Int.Defs
import Mathlib.Data.List.Nodup

namespace FlashNext.Data

/-! Insertion-ordered finite maps with the semantics of a Python `dict`.

Updating a present key keeps its position, a new key goes to the end, and no
key ever occurs twice.  Clients reason through `get?` and `keys`; the entry
list itself only matters where a program iterates over the map. -/

structure Dict (κ ν : Type*) where
  entries : List (κ × ν)
  distinct : (entries.map Prod.fst).Nodup

namespace Dict

variable {κ ν μ : Type*}

def empty : Dict κ ν := ⟨[], List.nodup_nil⟩

instance : Inhabited (Dict κ ν) := ⟨empty⟩

def keys (dict : Dict κ ν) : List κ := dict.entries.map Prod.fst

def size (dict : Dict κ ν) : Nat := dict.entries.length

@[simp] theorem keys_empty : (empty : Dict κ ν).keys = [] := rfl

variable [DecidableEq κ]

def find (key : κ) : List (κ × ν) → Option ν
  | [] => none
  | (other, value) :: rest => if other = key then some value else find key rest

def get? (dict : Dict κ ν) (key : κ) : Option ν := find key dict.entries

def update (key : κ) (value : ν) : List (κ × ν) → List (κ × ν)
  | [] => [(key, value)]
  | (other, old) :: rest =>
      if other = key then (key, value) :: rest else (other, old) :: update key value rest

theorem update_keys_of_mem {key : κ} {value : ν} {entries : List (κ × ν)}
    (present : key ∈ entries.map Prod.fst) :
    (update key value entries).map Prod.fst = entries.map Prod.fst := by
  induction entries with
  | nil => simp at present
  | cons head rest ih =>
      obtain ⟨other, old⟩ := head
      by_cases same : other = key
      · simp [update, same]
      · have tail : key ∈ rest.map Prod.fst := by
          rcases List.mem_cons.mp present with first | later
          · exact absurd first.symm same
          · exact later
        simpa [update, same] using ih tail

theorem update_of_not_mem {key : κ} {value : ν} {entries : List (κ × ν)}
    (absent : key ∉ entries.map Prod.fst) :
    update key value entries = entries ++ [(key, value)] := by
  induction entries with
  | nil => rfl
  | cons head rest ih =>
      obtain ⟨other, old⟩ := head
      simp only [List.map_cons, List.mem_cons, not_or] at absent
      simp [update, Ne.symm absent.1, ih absent.2]

/-- `dict[key] = value`. -/
def set (dict : Dict κ ν) (key : κ) (value : ν) : Dict κ ν where
  entries := update key value dict.entries
  distinct := by
    by_cases present : key ∈ dict.entries.map Prod.fst
    · rw [update_keys_of_mem present]
      exact dict.distinct
    · rw [update_of_not_mem present, List.map_append]
      refine List.nodup_append.mpr ⟨dict.distinct, List.nodup_singleton _, ?_⟩
      intro left leftMember right rightMember same
      simp only [List.map_cons, List.map_nil, List.mem_singleton] at rightMember
      exact present (rightMember ▸ same ▸ leftMember)

/-- `dict.pop(key, None)`, without the popped value. -/
def pop (dict : Dict κ ν) (key : κ) : Dict κ ν where
  entries := dict.entries.filter fun entry => entry.1 ≠ key
  distinct := (List.filter_sublist.map Prod.fst).nodup dict.distinct

/-- Rewrite every value in place; the iteration order is untouched. -/
def mapValues (dict : Dict κ ν) (change : κ → ν → μ) : Dict κ μ where
  entries := dict.entries.map fun entry => (entry.1, change entry.1 entry.2)
  distinct := by
    simpa [List.map_map, Function.comp_def] using dict.distinct

@[simp] theorem get?_empty (key : κ) : (empty : Dict κ ν).get? key = none := rfl

theorem find_eq_none_iff {key : κ} {entries : List (κ × ν)} :
    find key entries = none ↔ key ∉ entries.map Prod.fst := by
  induction entries with
  | nil => simp [find]
  | cons head rest ih =>
      obtain ⟨other, old⟩ := head
      by_cases same : other = key
      · simp [find, same]
      · simp [find, same, ih, Ne.symm same]

theorem get?_eq_none_iff {dict : Dict κ ν} {key : κ} :
    dict.get? key = none ↔ key ∉ dict.keys := find_eq_none_iff

theorem mem_keys_iff {dict : Dict κ ν} {key : κ} :
    key ∈ dict.keys ↔ ∃ value, dict.get? key = some value := by
  rw [← not_iff_not, ← get?_eq_none_iff, ← Option.ne_none_iff_exists', not_not]

theorem mem_keys_of_get? {dict : Dict κ ν} {key : κ} {value : ν}
    (found : dict.get? key = some value) : key ∈ dict.keys :=
  mem_keys_iff.mpr ⟨value, found⟩

theorem find_update (key other : κ) (value : ν) (entries : List (κ × ν)) :
    find other (update key value entries) =
      if other = key then some value else find other entries := by
  induction entries with
  | nil => simp [update, find, eq_comm]
  | cons head rest ih =>
      obtain ⟨first, old⟩ := head
      by_cases same : first = key
      · subst first
        by_cases hit : other = key
        · simp [update, find, hit]
        · simp [update, find, hit, Ne.symm hit]
      · by_cases hit : first = other
        · subst first
          simp [update, find, same]
        · simp [update, find, same, hit, ih]

@[simp] theorem get?_set (dict : Dict κ ν) (key other : κ) (value : ν) :
    (dict.set key value).get? other = if other = key then some value else dict.get? other :=
  find_update key other value dict.entries

theorem find_filter_ne (key other : κ) (entries : List (κ × ν)) :
    find other (entries.filter fun entry => entry.1 ≠ key) =
      if other = key then none else find other entries := by
  induction entries with
  | nil => simp [find]
  | cons head rest ih =>
      obtain ⟨first, old⟩ := head
      by_cases same : first = key
      · subst first
        by_cases hit : other = key
        · simpa [hit] using ih
        · simp only [ne_eq, not_true_eq_false, decide_false, Bool.false_eq_true,
            not_false_eq_true, List.filter_cons_of_neg, find, Ne.symm hit, if_false]
          exact ih
      · by_cases hit : first = other
        · subst first
          simp [find, same]
        · simp only [ne_eq, same, not_false_eq_true, decide_true, List.filter_cons_of_pos,
            find, hit, if_false]
          exact ih

@[simp] theorem get?_pop (dict : Dict κ ν) (key other : κ) :
    (dict.pop key).get? other = if other = key then none else dict.get? other :=
  find_filter_ne key other dict.entries

theorem find_mapValues (change : κ → ν → μ) (key : κ) (entries : List (κ × ν)) :
    find key (entries.map fun entry => (entry.1, change entry.1 entry.2)) =
      (find key entries).map (change key) := by
  induction entries with
  | nil => rfl
  | cons head rest ih =>
      obtain ⟨other, old⟩ := head
      by_cases same : other = key
      · subst other
        simp [find]
      · simp [find, same, ih]

@[simp] theorem get?_mapValues (dict : Dict κ ν) (change : κ → ν → μ) (key : κ) :
    (dict.mapValues change).get? key = (dict.get? key).map (change key) :=
  find_mapValues change key dict.entries

omit [DecidableEq κ] in
@[simp] theorem keys_mapValues (dict : Dict κ ν) (change : κ → ν → μ) :
    (dict.mapValues change).keys = dict.keys := by
  simp [keys, mapValues, Function.comp_def]

theorem mem_keys_set {dict : Dict κ ν} {key other : κ} {value : ν} :
    other ∈ (dict.set key value).keys ↔ other = key ∨ other ∈ dict.keys := by
  simp only [mem_keys_iff, get?_set]
  by_cases hit : other = key <;> simp [hit]

theorem mem_keys_pop {dict : Dict κ ν} {key other : κ} :
    other ∈ (dict.pop key).keys ↔ other ≠ key ∧ other ∈ dict.keys := by
  simp only [mem_keys_iff, get?_pop]
  by_cases hit : other = key <;> simp [hit]

theorem mem_entries_iff {dict : Dict κ ν} {key : κ} {value : ν} :
    (key, value) ∈ dict.entries ↔ dict.get? key = some value := by
  obtain ⟨entries, distinct⟩ := dict
  simp only [get?]
  induction entries with
  | nil => simp [find]
  | cons head rest ih =>
      obtain ⟨other, old⟩ := head
      simp only [List.map_cons, List.nodup_cons] at distinct
      by_cases same : other = key
      · subst other
        have absent : (key, value) ∉ rest := fun member =>
          distinct.1 (List.mem_map.mpr ⟨_, member, rfl⟩)
        simp [find, absent, eq_comm]
      · simp [find, same, Ne.symm same, ih distinct.2]

theorem keys_set_of_mem {dict : Dict κ ν} {key : κ} {value : ν} (present : key ∈ dict.keys) :
    (dict.set key value).keys = dict.keys := update_keys_of_mem present

theorem keys_set_of_not_mem {dict : Dict κ ν} {key : κ} {value : ν} (absent : key ∉ dict.keys) :
    (dict.set key value).keys = dict.keys ++ [key] := by
  simp [keys, set, update_of_not_mem absent]

/-- Setting a key does not move the other ones. -/
theorem sublist_keys_of_set {dict : Dict κ ν} {key : κ} {value : ν} {keys : List κ}
    (listed : keys.Sublist (dict.set key value).keys) (apart : key ∉ keys) : keys.Sublist dict.keys := by
  by_cases present : key ∈ dict.keys
  · rwa [keys_set_of_mem present] at listed
  · rw [keys_set_of_not_mem present] at listed
    have others := listed.filter fun other => decide (other ≠ key)
    have whole : keys.filter (fun other => decide (other ≠ key)) = keys :=
      List.filter_eq_self.mpr fun other member => decide_eq_true fun same => apart (same ▸ member)
    rw [whole, List.filter_append] at others
    simpa using others.trans (List.Sublist.append_right List.filter_sublist _)

theorem size_set_of_not_mem {dict : Dict κ ν} {key : κ} {value : ν} (absent : key ∉ dict.keys) :
    (dict.set key value).size = dict.size + 1 := by
  simp [size, set, update_of_not_mem absent]

theorem size_pop_of_mem {dict : Dict κ ν} {key : κ} (present : key ∈ dict.keys) :
    (dict.pop key).size + 1 = dict.size := by
  obtain ⟨entries, distinct⟩ := dict
  simp only [size, pop, keys] at present ⊢
  induction entries with
  | nil => simp at present
  | cons head rest ih =>
      obtain ⟨other, old⟩ := head
      simp only [List.map_cons, List.nodup_cons] at distinct
      by_cases same : other = key
      · subst other
        have untouched : rest.filter (fun entry => entry.1 ≠ key) = rest := by
          apply List.filter_eq_self.mpr
          intro entry member
          have different : entry.1 ≠ key := fun hit =>
            distinct.1 (List.mem_map.mpr ⟨entry, member, hit⟩)
          simpa using different
        simpa using congrArg List.length untouched
      · have tail : key ∈ rest.map Prod.fst := by
          rcases List.mem_cons.mp present with first | later
          · exact absurd first.symm same
          · exact later
        have shorter := ih distinct.2 tail
        simpa [same] using shorter

theorem sum_set {weight : ν → Int} {dict : Dict κ ν} {key : κ} {old value : ν}
    (found : dict.get? key = some old) :
    ((dict.set key value).entries.map fun entry => weight entry.2).sum + weight old =
      (dict.entries.map fun entry => weight entry.2).sum + weight value := by
  obtain ⟨entries, distinct⟩ := dict
  simp only [get?, set] at found ⊢
  induction entries with
  | nil => simp [find] at found
  | cons head rest ih =>
      obtain ⟨other, first⟩ := head
      simp only [List.map_cons, List.nodup_cons] at distinct
      by_cases same : other = key
      · simp only [find, same, if_true, Option.some.injEq] at found
        simp [update, same, found]
        omega
      · simp only [find, same, if_false] at found
        have tail := ih distinct.2 found
        simp only [update, same, if_false, List.map_cons, List.sum_cons]
        omega

end Dict

end FlashNext.Data
