import FlashNext.Data.Dict
import FlashNext.Data.Selection
import Mathlib.Algebra.Order.Group.Int
import Mathlib.Data.Prod.Lex
import Mathlib.Order.Lex

namespace FlashNext.Draft

open FlashNext.Data

/-- What `select_ids` raises. -/
inductive SelectError where
  | specialIds
  | vocabularySize
  | mandatoryIds
deriving DecidableEq, Repr

def SelectError.message : SelectError → String
  | .specialIds => "special IDs must belong to the model vocabulary"
  | .vocabularySize => "invalid draft vocabulary size"
  | .mandatoryIds => "mandatory IDs exceed draft vocabulary size"

/-- `counts[token_id]` of a `Counter`. -/
def countOf (counts : Dict Int Int) (tokenId : Int) : Int := (counts.get? tokenId).getD 0

/-- `(-counts[token_id], token_id)`. -/
def rank (counts : Dict Int Int) (tokenId : Int) : Int ×ₗ Int := toLex (-countOf counts tokenId, tokenId)

/-- `sorted(ids)`. -/
def sorted (ids : Finset Int) : List Int := ids.sort

/-- The counted ids, the most frequent first. -/
def byCount (counts : Dict Int Int) : List Int :=
  counts.keys.mergeSort fun left right => decide (rank counts left ≤ rank counts right)

def selectIds (counts : Dict Int Int) (validIds specialIds : List Int) (size baseCount : Int) :
    Except SelectError (List Int) :=
  let valid := validIds.toFinset
  let special := specialIds.toFinset
  if ¬ special ⊆ valid then .error .specialIds else
  if ¬ (0 ≤ baseCount ∧ baseCount ≤ size ∧ size ≤ valid.card) then .error .vocabularySize else
  let chosen := special ∪ ((sorted valid).take baseCount.toNat).toFinset
  if size < chosen.card then .error .mandatoryIds else
  let chosen := fill (fun tokenId => decide (tokenId ∈ valid)) size.toNat (byCount counts) chosen
  let chosen := fill (fun _ => true) size.toNat (sorted valid) chosen
  .ok (sorted chosen)

/-- The ids with fewer than `baseCount` valid ids below them. -/
def smallest (valid : Finset Int) (baseCount : Int) : Finset Int :=
  valid.filter fun tokenId => ((valid.filter (· < tokenId)).card : Int) < baseCount

/-- A set of valid ids of the size asked for, with the special and the smallest
ids in it. -/
structure Vocabulary (valid special : Finset Int) (size baseCount : Int) (ids : Finset Int) : Prop where
  inside : ids ⊆ valid
  special : special ⊆ ids
  base : smallest valid baseCount ⊆ ids
  size : (ids.card : Int) = size

def SelectError.Applies (valid special : Finset Int) (size baseCount : Int) : SelectError → Prop
  | .specialIds => ¬ special ⊆ valid
  | .vocabularySize => ¬ (0 ≤ baseCount ∧ baseCount ≤ size ∧ size ≤ valid.card)
  | .mandatoryIds => size < (special ∪ smallest valid baseCount).card

/-- How often the corpus has the ids. -/
def coverage (counts : Dict Int Int) (ids : Finset Int) : Int := ∑ tokenId ∈ ids, countOf counts tokenId

variable {counts : Dict Int Int} {valid special chosen : Finset Int} {size baseCount : Int}

theorem byCount_pairwise (counts : Dict Int Int) :
    (byCount counts).Pairwise fun left right => countOf counts right ≤ countOf counts left := by
  have ranked : (byCount counts).Pairwise fun left right => decide (rank counts left ≤ rank counts right) = true := by
    apply List.pairwise_mergeSort
    · intro first second third left right
      exact decide_eq_true (le_trans (of_decide_eq_true left) (of_decide_eq_true right))
    · intro left right
      rw [← Bool.decide_or]
      exact decide_eq_true (le_total _ _)
  apply ranked.imp
  intro left right before
  have ordered := Prod.Lex.toLex_le_toLex.mp (of_decide_eq_true before)
  rcases ordered with lower | ⟨same, _⟩
  · dsimp only at lower
    omega
  · dsimp only at same
    omega

theorem mem_byCount {tokenId : Int} : tokenId ∈ byCount counts ↔ tokenId ∈ counts.keys := List.mem_mergeSort

theorem countOf_of_not_mem {tokenId : Int} (absent : tokenId ∉ counts.keys) : countOf counts tokenId = 0 := by
  rw [countOf, Dict.get?_eq_none_iff.mpr absent]
  rfl

theorem mem_sorted {ids : Finset Int} {tokenId : Int} : tokenId ∈ sorted ids ↔ tokenId ∈ ids := Finset.mem_sort _

theorem sorted_toFinset (ids : Finset Int) : (sorted ids).toFinset = ids := Finset.sort_toFinset _ _

theorem take_sorted_eq (valid : Finset Int) (nonneg : 0 ≤ baseCount) :
    ((sorted valid).take baseCount.toNat).toFinset = smallest valid baseCount := by
  ext tokenId
  rw [List.mem_toFinset, sorted, mem_take_sort, smallest, Finset.mem_filter]
  apply and_congr_right
  intro _
  omega

/-- The set both loops leave. -/
def filled (counts : Dict Int Int) (valid chosen : Finset Int) (size : Nat) : Finset Int :=
  fill (fun _ => true) size (sorted valid) (fill (fun tokenId => decide (tokenId ∈ valid)) size (byCount counts) chosen)

theorem filled_eq (counts : Dict Int Int) (valid chosen : Finset Int) (size : Nat) :
    filled counts valid chosen size =
      fill (fun tokenId => decide (tokenId ∈ valid)) size (byCount counts ++ sorted valid) chosen := by
  rw [filled, fill_append]
  apply fill_congr
  intro tokenId member
  exact (decide_eq_true (mem_sorted.mp member)).symm

/-- What the loops leave: all that was chosen, valid ids only, the size exactly. -/
structure Fills (counts : Dict Int Int) (valid chosen : Finset Int) (size : Nat) (ids : Finset Int) : Prop where
  inside : ids ⊆ valid
  kept : chosen ⊆ ids
  size : ids.card = size
  ranked : ∀ mine ∈ ids, mine ∉ chosen → ∀ left ∈ valid, left ∉ ids →
    left ∉ counts.keys ∨ countOf counts left ≤ countOf counts mine

theorem filled_fills {count : Nat} (inside : chosen ⊆ valid) (fits : chosen.card ≤ count) (enough : count ≤ valid.card) :
    Fills counts valid chosen count (filled counts valid chosen count) := by
  rw [filled_eq]
  obtain ⟨before, after, whole, members, bounded, stopped⟩ :=
    @fill_spec _ _ (fun tokenId => decide (tokenId ∈ valid)) _ _ (byCount counts ++ sorted valid) fits
  generalize fill (fun tokenId => decide (tokenId ∈ valid)) count (byCount counts ++ sorted valid) chosen = ids at *
  have subset : ids ⊆ valid := by
    intro tokenId member
    rcases (members tokenId).mp member with old | added
    · exact inside old
    · exact of_decide_eq_true added.2
  refine ⟨subset, fun tokenId member => (members tokenId).mpr (Or.inl member), ?_, ?_⟩
  · rcases stopped with none | full
    · have all : valid ⊆ ids := by
        intro tokenId member
        have listed : tokenId ∈ before := by
          rw [none, List.append_nil] at whole
          rw [← whole]
          exact List.mem_append_right _ (mem_sorted.mpr member)
        exact (members tokenId).mpr (Or.inr ⟨listed, decide_eq_true member⟩)
      have cards := Finset.card_le_card all
      omega
    · exact full
  · intro mine own fresh left valid_ absent
    have taken : mine ∈ before := (((members mine).mp own).resolve_left fresh).1
    have untaken : left ∉ before := fun listed => absent ((members left).mpr (Or.inr ⟨listed, decide_eq_true valid_⟩))
    by_cases counted : left ∈ counts.keys
    · -- the loop over the counts has not come to it, so it is behind what was taken
      right
      have listed : left ∈ byCount counts := mem_byCount.mpr counted
      rcases List.append_eq_append_iff.mp whole.symm with ⟨rest, split, _⟩ | ⟨rest, split, _⟩
      · have behind : left ∈ rest := (List.mem_append.mp (split ▸ listed)).resolve_left untaken
        have ranked := byCount_pairwise counts
        rw [split] at ranked
        exact (List.pairwise_append.mp ranked).2.2 mine taken left behind
      · exact absurd (split ▸ List.mem_append_left _ listed) untaken
    · exact Or.inl counted

theorem Fills.heaviest {count : Nat} {ids other : Finset Int} (fills : Fills counts valid chosen count ids)
    (nonneg : ∀ tokenId, 0 ≤ countOf counts tokenId) (size : other.card = count) (inside : other ⊆ valid)
    (both : chosen ⊆ other) : coverage counts other ≤ coverage counts ids := by
  apply sum_le_of_exchange (size.trans fills.size.symm) inside both
  intro mine own fresh left valid_ absent
  rcases fills.ranked mine own fresh left valid_ absent with uncounted | ranked
  · rw [countOf_of_not_mem uncounted]
    exact nonneg mine
  · exact ranked

/-- A selection is refused for a reason, or there is none and the loops run. -/
theorem selectIds_cases (counts : Dict Int Int) (validIds specialIds : List Int) (size baseCount : Int) :
    (∃ error, selectIds counts validIds specialIds size baseCount = .error error ∧
        error.Applies validIds.toFinset specialIds.toFinset size baseCount) ∨
      (∀ error : SelectError, ¬ error.Applies validIds.toFinset specialIds.toFinset size baseCount) ∧
        selectIds counts validIds specialIds size baseCount = .ok (sorted (filled counts validIds.toFinset
          (specialIds.toFinset ∪ smallest validIds.toFinset baseCount) size.toNat)) := by
  rw [selectIds]
  dsimp only
  split
  · next stray => exact Or.inl ⟨.specialIds, rfl, stray⟩
  · next special =>
      split
      · next disordered => exact Or.inl ⟨.vocabularySize, rfl, disordered⟩
      · next ordered =>
          rw [take_sorted_eq _ (not_not.mp ordered).1]
          split
          · next many => exact Or.inl ⟨.mandatoryIds, rfl, many⟩
          · next few =>
              refine Or.inr ⟨?_, rfl⟩
              intro error
              cases error with
              | specialIds => exact special
              | vocabularySize => exact ordered
              | mandatoryIds => exact few

theorem Fills.vocabulary {count : Nat} {ids : Finset Int} (sized : (count : Int) = size)
    (fills : Fills counts valid (special ∪ smallest valid baseCount) count ids) :
    Vocabulary valid special size baseCount ids where
  inside := fills.inside
  special := Finset.union_subset_left fills.kept
  base := Finset.union_subset_right fills.kept
  size := by rw [fills.size, sized]

/-- A selection is refused for a reason, or it is an ascending list of ids that
covers as much of the corpus as any vocabulary of the kind asked for. -/
theorem selection_optimal (counts : Dict Int Int) (nonneg : ∀ tokenId, 0 ≤ countOf counts tokenId)
    (validIds specialIds : List Int) (size baseCount : Int) :
    (∃ error, selectIds counts validIds specialIds size baseCount = .error error ∧
        error.Applies validIds.toFinset specialIds.toFinset size baseCount) ∨
      (∀ error : SelectError, ¬ error.Applies validIds.toFinset specialIds.toFinset size baseCount) ∧
        ∃ ids, selectIds counts validIds specialIds size baseCount = .ok ids ∧ ids.Pairwise (· < ·) ∧
          (ids.length : Int) = size ∧
          Vocabulary validIds.toFinset specialIds.toFinset size baseCount ids.toFinset ∧
          ∀ other, Vocabulary validIds.toFinset specialIds.toFinset size baseCount other →
            coverage counts other ≤ coverage counts ids.toFinset := by
  rcases selectIds_cases counts validIds specialIds size baseCount with refused | ⟨admitted, selected⟩
  · exact Or.inl refused
  · have special := not_not.mp (admitted .specialIds)
    have ordered := not_not.mp (admitted .vocabularySize)
    have few := not_lt.mp (admitted .mandatoryIds)
    have mandatory : specialIds.toFinset ∪ smallest validIds.toFinset baseCount ⊆ validIds.toFinset :=
      Finset.union_subset special (Finset.filter_subset _ _)
    have sized : (size.toNat : Int) = size := Int.toNat_of_nonneg (ordered.1.trans ordered.2.1)
    have fills := @filled_fills counts _ _ size.toNat mandatory (by omega) (by omega)
    generalize filled counts validIds.toFinset (specialIds.toFinset ∪ smallest validIds.toFinset baseCount) size.toNat =
      ids at fills selected
    refine Or.inr ⟨admitted, sorted ids, selected, ids.sortedLT_sort.pairwise, ?_, ?_, ?_⟩
    · rw [sorted, Finset.length_sort, fills.size, sized]
    · rw [sorted_toFinset]
      exact fills.vocabulary sized
    · intro other vocabulary
      rw [sorted_toFinset]
      have count : other.card = size.toNat := by
        have same := vocabulary.size
        omega
      exact fills.heaviest nonneg count vocabulary.inside (Finset.union_subset vocabulary.special vocabulary.base)

theorem corpusIds_distinct : ([7, 99, 2] : List Int).Nodup := by decide

/-- Id 99 is counted and no id of the tokenizer. -/
def corpusCounts : Dict Int Int := ⟨[(7, 3), (99, 5), (2, 1)], corpusIds_distinct⟩

theorem corpusCounts_nonneg (tokenId : Int) : 0 ≤ countOf corpusCounts tokenId := by
  simp only [countOf, corpusCounts, Dict.get?, Dict.find]
  split
  · decide
  · split
    · decide
    · split
      · decide
      · decide

theorem selection_optimal_corpus :
    ∃ ids, selectIds corpusCounts [0, 1, 2, 3, 5, 7] [5] 4 1 = .ok ids ∧ ids.length = 4 ∧
      ∀ other, Vocabulary {0, 1, 2, 3, 5, 7} {5} 4 1 other → coverage corpusCounts other ≤ coverage corpusCounts ids.toFinset := by
  rcases selection_optimal corpusCounts corpusCounts_nonneg [0, 1, 2, 3, 5, 7] [5] 4 1 with refused | selected
  · obtain ⟨error, _, reason⟩ := refused
    cases error with
    | specialIds => exact absurd (by decide) reason
    | vocabularySize => exact absurd (by decide) reason
    | mandatoryIds => exact absurd reason (not_lt.mpr (by decide))
  · obtain ⟨_, ids, done, _, size, _, best⟩ := selected
    exact ⟨ids, done, by omega, best⟩

end FlashNext.Draft
