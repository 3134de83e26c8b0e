import FlashNext.Data.Chunks
import FlashNext.Data.Ranking

namespace FlashNext.Data

variable {α β : Type*}

/-- `where(valid, order, order + size)`. -/
def validKey (valid : Nat → Bool) (size index : Nat) : Nat := if valid index then index else index + size

/-- `argsort` of these keys. -/
def validFirst (valid : Nat → Bool) (size : Nat) : List Nat :=
  (List.range size).insertionSort fun left right => validKey valid size left ≤ validKey valid size right

section Order

variable {valid : Nat → Bool} {size : Nat}

theorem validKey_injective {left right : Nat} (inLeft : left < size) (inRight : right < size)
    (same : validKey valid size left = validKey valid size right) : left = right := by
  rw [validKey, validKey] at same
  split at same
  · split at same
    · exact same
    · omega
  · split at same
    · omega
    · exact Nat.add_right_cancel same

theorem validKey_ordered {left right : Nat} (before : left < right)
    (same : valid left = valid right) : validKey valid size left ≤ validKey valid size right := by
  rw [validKey, validKey, same]
  split
  · exact Nat.le_of_lt before
  · omega

theorem validFirst_eq (valid : Nat → Bool) (size : Nat) :
    validFirst valid size = (List.range size).filter valid ++ (List.range size).filter (!valid ·) := by
  have total : Std.Total fun left right => validKey valid size left ≤ validKey valid size right :=
    ⟨fun left right => le_total _ _⟩
  have trans : IsTrans Nat fun left right => validKey valid size left ≤ validKey valid size right :=
    ⟨fun _ _ _ first second => le_trans first second⟩
  have inside {keep : Nat → Bool} {index : Nat} (member : index ∈ (List.range size).filter keep) :
      index < size ∧ keep index = true :=
    (List.mem_filter.mp member).imp_left List.mem_range.mp
  have ordered (keep : Nat → Bool) (alike : ∀ left right, keep left → keep right → valid left = valid right) :
      ((List.range size).filter keep).Pairwise fun left right => validKey valid size left ≤ validKey valid size right := by
    refine (List.pairwise_lt_range.filter keep).imp_of_mem ?_
    intro left right memberLeft memberRight before
    exact validKey_ordered before (alike _ _ (inside memberLeft).2 (inside memberRight).2)
  have sorted : (validFirst valid size).Pairwise fun left right => validKey valid size left ≤ validKey valid size right :=
    List.pairwise_insertionSort (fun left right => validKey valid size left ≤ validKey valid size right) _
  have split := (List.perm_insertionSort (fun left right => validKey valid size left ≤ validKey valid size right) _).trans
    (List.filter_append_perm valid (List.range size)).symm
  refine List.Perm.eq_of_pairwise ?_ sorted (List.pairwise_append.mpr ⟨?_, ?_, ?_⟩) split
  · intro left right memberLeft memberRight le ge
    have first := List.mem_range.mp ((List.mem_insertionSort _).mp memberLeft)
    have second := List.mem_range.mp ((List.mem_insertionSort _).mp (split.symm.subset memberRight))
    exact validKey_injective first second (le_antisymm le ge)
  · exact ordered valid fun left right first second => first.trans second.symm
  · refine ordered _ fun left right first second => ?_
    rw [Bool.not_eq_true'] at first second
    rw [first, second]
  · intro left memberLeft right memberRight
    have first := inside memberLeft
    have second := inside memberRight
    rw [Bool.not_eq_true'] at second
    rw [validKey, validKey, if_pos first.2, second.2, if_neg Bool.false_ne_true]
    omega

theorem map_validFirst (keep : α → Bool) (values : List α) (default : α) :
    (validFirst (fun index => keep (values.getD index default)) values.length).map (values.getD · default) =
      values.filter keep ++ values.filter (!keep ·) := by
  have whole : (List.range values.length).map (values.getD · default) = values := by
    apply List.ext_getElem
    · simp
    · intro index left right
      simp [List.getD_eq_getElem?_getD, List.getElem?_eq_getElem right]
  have part (keep : α → Bool) : ((List.range values.length).filter fun index => keep (values.getD index default)).map
      (values.getD · default) = values.filter keep := by
    conv_rhs => rw [← whole, List.filter_map]
    rfl
  rw [validFirst_eq, List.map_append, part keep, part (!keep ·)]

end Order

theorem split_of_leading {keep : α → Bool} {values : List α}
    (leading : values.Pairwise fun before after => keep after → keep before) :
    values = values.filter keep ++ values.filter (!keep ·) := by
  induction values with
  | nil => rfl
  | cons first rest ih =>
      obtain ⟨ahead, later⟩ := List.pairwise_cons.mp leading
      have ih := ih later
      by_cases kept : keep first
      · rw [List.filter_cons_of_pos kept, List.filter_cons_of_neg (by simp [kept]), List.cons_append, ← ih]
      · have none : rest.filter keep = [] :=
          List.filter_eq_nil_iff.mpr fun value member later => kept (ahead value member later)
        rw [none, List.nil_append] at ih
        rw [List.filter_cons_of_neg kept, none, List.nil_append, List.filter_cons_of_pos (by simp [kept]), ← ih]

theorem countP_getElem? {keep : α → Bool} {values : List α} {size : Nat} (room : values.length ≤ size) :
    (List.range size).countP (fun index => values[index]?.any keep) = (values.filter keep).length := by
  induction values generalizing size with
  | nil => simp
  | cons first rest ih =>
      cases size with
      | zero => simp at room
      | succ size =>
          have later := @ih size (by simpa using room)
          rw [List.range_succ_eq_map, List.countP_cons, List.countP_map]
          simp only [Function.comp_def, List.getElem?_cons_succ, List.getElem?_cons_zero, Option.any_some, later,
            List.filter_cons]
          split
          · rfl
          · rfl

theorem filter_blanked {keep : α → Prop} [DecidablePred keep] {shown : α → Int} {values : List α}
    (nonneg : ∀ value ∈ values, keep value → 0 ≤ shown value) :
    (values.map fun value => if keep value then shown value else -1).filter (0 ≤ ·) =
      (values.filter keep).map shown := by
  induction values with
  | nil => rfl
  | cons first rest ih =>
      have ih := ih fun value member => nonneg value (List.mem_cons_of_mem _ member)
      rw [List.map_cons]
      by_cases kept : keep first
      · rw [if_pos kept, List.filter_cons_of_pos (by simpa using nonneg first List.mem_cons_self kept),
          List.filter_cons_of_pos (by simpa using kept), List.map_cons, ih]
      · rw [if_neg kept, List.filter_cons_of_neg (by decide), List.filter_cons_of_neg (by simpa using kept), ih]

theorem mem_blanked {keep : α → Prop} [DecidablePred keep] {shown : α → Int} {values : List α} {entry : Int}
    (member : entry ∈ values.map fun value => if keep value then shown value else -1)
    (nonneg : ∀ value ∈ values, keep value → 0 ≤ shown value) : 0 ≤ entry ∨ entry = -1 := by
  obtain ⟨value, inside, rfl⟩ := List.mem_map.mp member
  split
  · next kept => exact Or.inl (nonneg value inside kept)
  · exact Or.inr rfl

section Blanks

variable {keep : α → Bool} {shown : α → β} {blank : β}

theorem shows_nothing {values : List α} {gap more less : Nat}
    (same : (values.filter keep).map shown ++ List.replicate less blank =
      List.replicate (gap + 1) blank ++ (values.map fun value => if keep value then shown value else blank) ++
        List.replicate more blank) :
    ∀ value ∈ values, keep value → shown value = blank := by
  induction values generalizing gap with
  | nil => simp
  | cons first rest ih =>
      by_cases kept : keep first
      · rw [List.filter_cons_of_pos kept, List.map_cons, List.map_cons, if_pos kept, List.replicate_succ,
          List.cons_append, List.cons_append, List.cons_append] at same
        obtain ⟨here, later⟩ := List.cons.inj same
        rw [here, List.append_cons, ← List.replicate_succ'] at later
        intro value member shows
        rcases List.mem_cons.mp member with rfl | inside
        · exact here
        · exact ih later value inside shows
      · rw [List.filter_cons_of_neg kept, List.map_cons, if_neg kept, List.append_cons, ← List.replicate_succ'] at same
        intro value member shows
        rcases List.mem_cons.mp member with rfl | inside
        · exact absurd shows kept
        · exact ih same value inside shows

theorem eq_replicate_of_shows_nothing {values : List α} (nothing : ∀ value ∈ values, keep value → shown value = blank) :
    (values.filter keep).map shown = List.replicate (values.filter keep).length blank ∧
      (values.map fun value => if keep value then shown value else blank) = List.replicate values.length blank := by
  constructor
  · rw [List.eq_replicate_iff, List.length_map]
    refine ⟨rfl, ?_⟩
    intro entry member
    obtain ⟨value, inside, rfl⟩ := List.mem_map.mp member
    exact nothing value (List.mem_filter.mp inside).1 (List.mem_filter.mp inside).2
  · rw [List.eq_replicate_iff, List.length_map]
    refine ⟨rfl, ?_⟩
    intro entry member
    obtain ⟨value, inside, rfl⟩ := List.mem_map.mp member
    split
    · next kept => exact nothing value inside kept
    · rfl

/-- A row compacted is the row blanked in place, both filled up to one length,
exactly when nothing that shows stands behind something that was dropped. -/
theorem compacted_eq_iff {values : List α} {less more : Nat}
    (lengths : (values.filter keep).length + less = values.length + more) :
    (values.filter keep).map shown ++ List.replicate less blank =
        (values.map fun value => if keep value then shown value else blank) ++ List.replicate more blank ↔
      values.Pairwise fun before after => keep after → shown after ≠ blank → keep before := by
  induction values generalizing less with
  | nil => simpa using lengths
  | cons first rest ih =>
      rw [List.pairwise_cons]
      by_cases kept : keep first
      · rw [List.filter_cons_of_pos kept, List.length_cons, List.length_cons] at lengths
        rw [List.filter_cons_of_pos kept, List.map_cons, List.map_cons, if_pos kept, List.cons_append, List.cons_append,
          List.cons_inj_right, ih (by omega)]
        exact (and_iff_right fun value _ _ _ => kept).symm
      · rw [List.filter_cons_of_neg kept, List.length_cons] at lengths
        rw [List.filter_cons_of_neg kept, List.map_cons, if_neg kept]
        constructor
        · intro same
          have nothing := @shows_nothing _ _ keep shown blank rest 0 more less same
          exact ⟨fun value member shows visible => absurd (nothing value member shows) visible,
            List.pairwise_of_forall_mem_list fun _ _ value member shows visible =>
              absurd (nothing value member shows) visible⟩
        · intro holds
          obtain ⟨leading, _⟩ := holds
          have nothing : ∀ value ∈ rest, keep value → shown value = blank := by
            intro value member shows
            by_contra visible
            exact kept (leading value member shows visible)
          obtain ⟨compacted, blanked⟩ := eq_replicate_of_shows_nothing nothing
          rw [compacted, blanked, List.replicate_append_replicate, List.cons_append, List.replicate_append_replicate,
            ← List.replicate_succ]
          congr 1
          omega

end Blanks

end FlashNext.Data
