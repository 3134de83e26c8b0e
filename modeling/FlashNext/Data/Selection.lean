import Mathlib.Algebra.BigOperators.Group.Finset.Piecewise
import Mathlib.Algebra.Order.BigOperators.Group.Finset
import Mathlib.Data.Finset.Sort

namespace FlashNext.Data

section Fill

variable {ι : Type*} [DecidableEq ι] {admits : ι → Bool} {size : Nat} {chosen : Finset ι} {entries : List ι}

/-- The admitted entries, one after the other, until the set has the size. -/
def fill (admits : ι → Bool) (size : Nat) : List ι → Finset ι → Finset ι
  | [], chosen => chosen
  | entry :: rest, chosen =>
      if chosen.card = size then chosen
      else fill admits size rest (if admits entry then insert entry chosen else chosen)

theorem fill_of_card (full : chosen.card = size) : fill admits size entries chosen = chosen := by
  cases entries with
  | nil => rfl
  | cons entry rest => exact if_pos full

theorem fill_append (first second : List ι) (chosen : Finset ι) :
    fill admits size (first ++ second) chosen = fill admits size second (fill admits size first chosen) := by
  induction first generalizing chosen with
  | nil => rfl
  | cons entry rest ih =>
      rw [List.cons_append, fill, fill]
      split
      · next full => exact (fill_of_card full).symm
      · exact ih _

theorem fill_congr {others : ι → Bool} (same : ∀ entry ∈ entries, admits entry = others entry) (chosen : Finset ι) :
    fill admits size entries chosen = fill others size entries chosen := by
  induction entries generalizing chosen with
  | nil => rfl
  | cons entry rest ih =>
      rw [fill, fill, same entry List.mem_cons_self]
      split
      · rfl
      · exact ih (fun other member => same other (List.mem_cons_of_mem _ member)) _

/-- What a fill adds are the admitted entries of a front part of the list, and
it stops early only when the set has the size. -/
theorem fill_spec (fits : chosen.card ≤ size) :
    ∃ before after, entries = before ++ after ∧
      (∀ element, element ∈ fill admits size entries chosen ↔
        element ∈ chosen ∨ element ∈ before ∧ admits element = true) ∧
      (fill admits size entries chosen).card ≤ size ∧ (after = [] ∨ (fill admits size entries chosen).card = size) := by
  induction entries generalizing chosen with
  | nil => exact ⟨[], [], rfl, by simp [fill], fits, Or.inl rfl⟩
  | cons entry rest ih =>
      rw [fill]
      split
      · next full => exact ⟨[], entry :: rest, rfl, by simp, fits, Or.inr full⟩
      · next short =>
          have room : (if admits entry = true then insert entry chosen else chosen).card ≤ size := by
            have grown := Finset.card_insert_le entry chosen
            split <;> omega
          obtain ⟨before, after, whole, members, bounded, stopped⟩ := ih room
          refine ⟨entry :: before, after, by rw [whole, List.cons_append], ?_, bounded, stopped⟩
          intro element
          rw [members, List.mem_cons]
          by_cases admitted : admits entry = true
          · rw [if_pos admitted, Finset.mem_insert]
            constructor
            · intro given
              rcases given with (rfl | old) | added
              · exact Or.inr ⟨Or.inl rfl, admitted⟩
              · exact Or.inl old
              · exact Or.inr ⟨Or.inr added.1, added.2⟩
            · intro given
              rcases given with old | ⟨rfl | later, admits_⟩
              · exact Or.inl (Or.inr old)
              · exact Or.inl (Or.inl rfl)
              · exact Or.inr ⟨later, admits_⟩
          · rw [if_neg admitted]
            constructor
            · intro given
              rcases given with old | added
              · exact Or.inl old
              · exact Or.inr ⟨Or.inr added.1, added.2⟩
            · intro given
              rcases given with old | ⟨rfl | later, admits_⟩
              · exact Or.inl old
              · exact absurd admits_ admitted
              · exact Or.inr ⟨later, admits_⟩

end Fill

section Exchange

variable {ι μ : Type*} [DecidableEq ι] [AddCommMonoid μ] [LinearOrder μ] [IsOrderedAddMonoid μ] {weight : ι → μ}
  {all mandatory chosen other : Finset ι}

/-- What one of two sets of a size has and the other has not can be exchanged
for as many elements that are no lighter. -/
theorem sum_le_of_exchange (size : other.card = chosen.card) (inside : other ⊆ all) (both : mandatory ⊆ other)
    (heaviest : ∀ mine ∈ chosen, mine ∉ mandatory → ∀ left ∈ all, left ∉ chosen → weight left ≤ weight mine) :
    ∑ element ∈ other, weight element ≤ ∑ element ∈ chosen, weight element := by
  have counts : (other \ chosen).card = (chosen \ other).card := Finset.card_sdiff_comm size
  have exchanged : ∑ element ∈ other \ chosen, weight element ≤ ∑ element ∈ chosen \ other, weight element := by
    rcases (chosen \ other).eq_empty_or_nonempty with empty | some_
    · rw [empty, Finset.card_empty, Finset.card_eq_zero] at counts
      rw [empty, counts]
    · obtain ⟨least, own, least_le⟩ := (chosen \ other).exists_min_image weight some_
      obtain ⟨mine, away⟩ := Finset.mem_sdiff.mp own
      calc ∑ element ∈ other \ chosen, weight element
          ≤ (other \ chosen).card • weight least := by
            apply Finset.sum_le_card_nsmul
            intro left member
            obtain ⟨theirs, absent⟩ := Finset.mem_sdiff.mp member
            exact heaviest least mine (fun needed => away (both needed)) left (inside theirs) absent
        _ = (chosen \ other).card • weight least := by rw [counts]
        _ ≤ ∑ element ∈ chosen \ other, weight element := Finset.card_nsmul_le_sum _ _ _ least_le
  calc ∑ element ∈ other, weight element
      = ∑ element ∈ other ∩ chosen, weight element + ∑ element ∈ other \ chosen, weight element :=
        (Finset.sum_inter_add_sum_sdiff _ _ _).symm
    _ ≤ ∑ element ∈ other ∩ chosen, weight element + ∑ element ∈ chosen \ other, weight element := by
        gcongr
    _ = ∑ element ∈ chosen ∩ other, weight element + ∑ element ∈ chosen \ other, weight element := by
        rw [Finset.inter_comm]
    _ = ∑ element ∈ chosen, weight element := Finset.sum_inter_add_sum_sdiff _ _ _

end Exchange

section Smallest

variable {ι : Type*} [LinearOrder ι] {sorted : List ι} {element : ι}

theorem mem_take_iff (ascending : sorted.Pairwise (· < ·)) (count : Nat) :
    element ∈ sorted.take count ↔
      element ∈ sorted ∧ (sorted.filter fun other => decide (other < element)).length < count := by
  induction sorted generalizing count with
  | nil => simp
  | cons least rest ih =>
      obtain ⟨below, later⟩ := List.pairwise_cons.mp ascending
      cases count with
      | zero => simp
      | succ count =>
          rw [List.take_succ_cons, List.mem_cons, List.mem_cons, ih later]
          by_cases first : element = least
          · subst first
            have none : rest.filter (fun other => decide (other < element)) = [] := by
              apply List.filter_eq_nil_iff.mpr
              intro other member
              simpa using (below other member).le
            simp [none]
          · simp only [first, false_or]
            apply and_congr_right
            intro member
            rw [List.filter_cons_of_pos (by simpa using below element member), List.length_cons]
            exact Nat.succ_lt_succ_iff.symm

theorem mem_take_sort {all : Finset ι} (count : Nat) :
    element ∈ all.sort.take count ↔ element ∈ all ∧ (all.filter fun other => other < element).card < count := by
  have below : (all.sort.filter fun other => decide (other < element)).length =
      (all.filter fun other => other < element).card := by
    rw [← List.toFinset_card_of_nodup ((all.sort_nodup (· ≤ ·)).filter _), List.toFinset_filter, Finset.sort_toFinset]
    simp
  rw [mem_take_iff all.sortedLT_sort.pairwise, Finset.mem_sort, below]

end Smallest

end FlashNext.Data
