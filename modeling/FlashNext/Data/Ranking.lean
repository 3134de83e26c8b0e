import Mathlib.Data.List.Sort
import Mathlib.Data.List.Nodup

namespace FlashNext.Data

variable {α β : Type*} [LinearOrder β] {key : α → β} {all ranked chosen : List α} {count : Nat}

/-- `count` distinct elements that no element left out exceeds. -/
structure Largest (key : α → β) (count : Nat) (all chosen : List α) : Prop where
  distinct : chosen.Nodup
  listed : ∀ value ∈ chosen, value ∈ all
  size : chosen.length = count
  largest : ∀ value ∈ chosen, ∀ other ∈ all, other ∉ chosen → key other ≤ key value

/-- A sort by descending key that keeps equal ones in their order. -/
def rankDown (key : α → β) (values : List α) : List α :=
  values.insertionSort fun left right => key right ≤ key left

theorem rankDown_pairwise (key : α → β) (values : List α) :
    (rankDown key values).Pairwise fun left right => key right ≤ key left := by
  have total : Std.Total fun left right : α => key right ≤ key left := ⟨fun left right => le_total _ _⟩
  have trans : IsTrans α fun left right => key right ≤ key left := ⟨fun _ _ _ first second => le_trans second first⟩
  exact List.pairwise_insertionSort _ values

theorem mem_rankDown {values : List α} {value : α} : value ∈ rankDown key values ↔ value ∈ values :=
  List.mem_insertionSort _

theorem rankDown_nodup {values : List α} (distinct : values.Nodup) : (rankDown key values).Nodup :=
  (List.perm_insertionSort _ values).nodup_iff.mpr distinct

/-- A sort of places by descending value.  Which of two equal values comes first is
left open. -/
structure Argsort (β : Type*) [LinearOrder β] where
  order : List β → List Nat
  perm : ∀ values, (order values).Perm (List.range values.length)
  descending : ∀ values, (order values).Pairwise fun left right =>
    ∀ first, values[left]? = some first → ∀ second, values[right]? = some second → second ≤ first

namespace Argsort

variable (argsort : Argsort β)

/-- The elements in the order of their keys. -/
def rank (key : α → β) (values : List α) : List α :=
  (argsort.order (values.map key)).filterMap (values[·]?)

theorem filterMap_range (values : List α) : (List.range values.length).filterMap (values[·]?) = values := by
  induction values with
  | nil => rfl
  | cons head rest ih =>
      rw [List.length_cons, List.range_succ_eq_map, List.filterMap_cons, List.filterMap_map]
      exact congrArg (head :: ·) ih

theorem rank_perm (key : α → β) (values : List α) : (argsort.rank key values).Perm values := by
  have places := argsort.perm (values.map key)
  rw [List.length_map] at places
  have listed := places.filterMap (values[·]?)
  rwa [filterMap_range] at listed

theorem mem_rank {values : List α} {value : α} : value ∈ argsort.rank key values ↔ value ∈ values :=
  (argsort.rank_perm key values).mem_iff

theorem rank_nodup {values : List α} (distinct : values.Nodup) : (argsort.rank key values).Nodup :=
  (argsort.rank_perm key values).nodup_iff.mpr distinct

theorem rank_pairwise (key : α → β) (values : List α) :
    (argsort.rank key values).Pairwise fun left right => key right ≤ key left := by
  refine List.pairwise_filterMap.mpr ((argsort.descending (values.map key)).imp ?_)
  intro left right descending first foundFirst second foundSecond
  refine descending (key first) ?_ (key second) ?_
  · rw [List.getElem?_map, foundFirst, Option.map_some]
  · rw [List.getElem?_map, foundSecond, Option.map_some]

/-- One that keeps equal values in their order. -/
def stable [Inhabited β] : Argsort β where
  order values := rankDown (values.getD · default) (List.range values.length)
  perm values := List.perm_insertionSort _ _
  descending values := by
    refine (rankDown_pairwise _ _).imp ?_
    intro left right below first foundFirst second foundSecond
    rwa [List.getD_eq_getElem?_getD, List.getD_eq_getElem?_getD, foundFirst, foundSecond] at below

end Argsort

theorem Largest.take (sorted : ranked.Pairwise fun left right => key right ≤ key left) (distinct : ranked.Nodup)
    (same : ∀ value, value ∈ ranked ↔ value ∈ all) (enough : count ≤ ranked.length) :
    Largest key count all (ranked.take count) where
  distinct := distinct.sublist (List.take_sublist _ _)
  listed := fun value member => (same value).mp (List.mem_of_mem_take member)
  size := List.length_take_of_le enough
  largest := by
    intro value member other present absent
    have split := (List.take_append_drop count ranked).symm ▸ (same other).mpr present
    have behind := (List.mem_append.mp split).resolve_left absent
    rw [← List.take_append_drop count ranked] at sorted
    exact (List.pairwise_append.mp sorted).2.2 value member other behind

theorem Largest.of_le {γ : Type*} [LinearOrder γ] {other : α → γ} (largest : Largest key count all chosen)
    (keeps : ∀ left ∈ all, ∀ right ∈ all, key left ≤ key right → other left ≤ other right) : Largest other count all chosen where
  distinct := largest.distinct
  listed := largest.listed
  size := largest.size
  largest := fun value member rest present absent =>
    keeps rest present value (largest.listed value member) (largest.largest value member rest present absent)

/-- All but the last of a descending choice. -/
theorem Largest.dropLast (largest : Largest key count all chosen)
    (sorted : chosen.Pairwise fun left right => key right ≤ key left) : Largest key (count - 1) all chosen.dropLast where
  distinct := largest.distinct.sublist (List.dropLast_sublist _)
  listed := fun value member => largest.listed value ((List.dropLast_sublist _).subset member)
  size := by rw [List.length_dropLast, largest.size]
  largest := by
    intro value member other present absent
    by_cases inside : other ∈ chosen
    · have some_ : chosen ≠ [] := List.ne_nil_of_mem inside
      rw [← List.dropLast_append_getLast some_] at inside sorted
      rcases List.mem_append.mp inside with early | last
      · exact absurd early absent
      · exact (List.pairwise_append.mp sorted).2.2 value member other last
    · exact largest.largest value ((List.dropLast_sublist _).subset member) other present inside

/-- Where enough elements of a kind lie above all others, only these are chosen. -/
theorem Largest.within {kind : α → Bool} (largest : Largest key count all chosen) (distinct : all.Nodup)
    (enough : count ≤ (all.filter kind).length)
    (above : ∀ low ∈ all, kind low = false → ∀ high ∈ all, kind high = true → key low < key high) :
    Largest key count (all.filter kind) chosen where
  distinct := largest.distinct
  listed := by
    intro value member
    refine List.mem_filter.mpr ⟨largest.listed value member, ?_⟩
    by_contra lower
    -- an element of the kind is missing, as the value takes up a place
    obtain ⟨missing, of_kind, absent⟩ : ∃ missing ∈ all.filter kind, missing ∉ chosen := by
      by_contra every
      push Not at every
      have fits := List.subperm_of_subset (List.nodup_cons.mpr ⟨fun claimed => lower (List.mem_filter.mp claimed).2,
        distinct.filter kind⟩) (List.cons_subset.mpr ⟨member, every⟩)
      have longer := fits.length_le
      rw [List.length_cons, largest.size] at longer
      omega
    obtain ⟨present, kind_⟩ := List.mem_filter.mp of_kind
    have less := above value (largest.listed value member) (by simpa using lower) missing present kind_
    exact absurd (largest.largest value member missing present absent) (not_le.mpr less)
  size := largest.size
  largest := fun value member other present absent =>
    largest.largest value member other (List.mem_filter.mp present).1 absent

theorem lt_countP_iff {has : α → Bool} {values : List α} {index : Nat} {value : α}
    (first : values.Pairwise fun left right => has right = true → has left = true)
    (found : values[index]? = some value) : index < values.countP has ↔ has value = true := by
  induction values generalizing index with
  | nil => cases found
  | cons head rest ih =>
      have ⟨before, later⟩ := List.pairwise_cons.mp first
      cases holds : has head with
      | true =>
          rw [List.countP_cons_of_pos holds]
          cases index with
          | zero =>
              cases found
              simp [holds]
          | succ index => exact Nat.succ_lt_succ_iff.trans (ih later found)
      | false =>
          have none : ∀ value ∈ head :: rest, ¬ has value = true := by
            intro value member
            rcases List.mem_cons.mp member with rfl | inRest
            · simp [holds]
            · intro claimed
              simp [before value inRest claimed] at holds
          rw [List.countP_eq_zero.mpr none]
          simp [none value (List.mem_of_getElem? found)]

end FlashNext.Data
