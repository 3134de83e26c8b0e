import Mathlib.Algebra.GroupWithZero.Nat
import Mathlib.Data.List.Basic
import Mathlib.Order.Defs.LinearOrder
import Mathlib.Algebra.Order.Ring.Rat

namespace FlashNext.Data

/-! Byte buffers written and read in chunks. -/

variable {α : Type*}

/-- Overwrite the part of a buffer that starts at `offset`. -/
def splice (buffer : List α) (offset : Nat) (bytes : List α) : List α :=
  buffer.take offset ++ bytes ++ buffer.drop (offset + bytes.length)

theorem splice_length {buffer bytes : List α} {offset : Nat}
    (fits : offset + bytes.length ≤ buffer.length) :
    (splice buffer offset bytes).length = buffer.length := by
  simp only [splice, List.length_append, List.length_take, List.length_drop]
  omega

theorem splice_take {buffer bytes : List α} {offset : Nat} (start : offset ≤ buffer.length) :
    (splice buffer offset bytes).take (offset + bytes.length) = buffer.take offset ++ bytes := by
  have width : (buffer.take offset ++ bytes).length = offset + bytes.length := by
    rw [List.length_append, List.length_take, Nat.min_eq_left start]
  rw [splice, ← width, List.take_left]

theorem splice_drop {buffer bytes : List α} {offset : Nat} (start : offset ≤ buffer.length) (extra : Nat) :
    (splice buffer offset bytes).drop (offset + bytes.length + extra) =
      buffer.drop (offset + bytes.length + extra) := by
  have width : (buffer.take offset ++ bytes).length = offset + bytes.length := by
    rw [List.length_append, List.length_take, Nat.min_eq_left start]
  rw [splice, ← width, List.drop_length_add_append, List.drop_drop]

theorem splice_getElem? {buffer bytes : List α} {offset : Nat}
    (fits : offset + bytes.length ≤ buffer.length) (index : Nat) :
    (splice buffer offset bytes)[index]? =
      if offset ≤ index ∧ index < offset + bytes.length then bytes[index - offset]? else buffer[index]? := by
  have width : (buffer.take offset).length = offset := by
    rw [List.length_take]
    omega
  rw [splice, List.append_assoc, List.getElem?_append, width]
  split
  · rw [if_neg (by omega), List.getElem?_take_of_lt ‹_›]
  · rw [List.getElem?_append]
    split
    · rw [if_pos (by omega)]
    · rw [if_neg (by omega), List.getElem?_drop]
      congr 1
      omega

/-- Write chunks one behind the other, the first at `offset`. -/
def writeChunks : List (List α) → Nat → List α → List α
  | [], _, buffer => buffer
  | chunk :: rest, offset, buffer =>
      writeChunks rest (offset + chunk.length) (splice buffer offset chunk)

theorem writeChunks_eq {chunks : List (List α)} {offset : Nat} {buffer : List α}
    (fits : offset + chunks.flatten.length ≤ buffer.length) :
    writeChunks chunks offset buffer =
      buffer.take offset ++ chunks.flatten ++ buffer.drop (offset + chunks.flatten.length) := by
  induction chunks generalizing offset buffer with
  | nil => simp [writeChunks]
  | cons chunk rest ih =>
      simp only [List.flatten_cons, List.length_append] at fits ⊢
      have start : offset ≤ buffer.length := by omega
      have room : offset + chunk.length + rest.flatten.length ≤ (splice buffer offset chunk).length := by
        rw [splice_length (by omega)]
        omega
      rw [writeChunks, ih room, splice_take start, splice_drop start, Nat.add_assoc]
      simp only [List.append_assoc]

theorem writeChunks_full {chunks : List (List α)} {buffer : List α}
    (exact : buffer.length = chunks.flatten.length) : writeChunks chunks 0 buffer = chunks.flatten := by
  rw [writeChunks_eq (by omega)]
  simp [← exact]

theorem flatten_row {rows : List (List α)} {width index : Nat} {row : List α}
    (uniform : ∀ row ∈ rows, row.length = width) (found : rows[index]? = some row) :
    (rows.flatten.drop (index * width)).take width = row := by
  induction rows generalizing index with
  | nil => simp at found
  | cons head rest ih =>
      have headWidth : head.length = width := uniform head (by simp)
      cases index with
      | zero =>
          simp only [List.getElem?_cons_zero, Option.some.injEq] at found
          subst row
          simp [← headWidth]
      | succ index =>
          have shifted : (index + 1) * width = head.length + index * width := by
            rw [headWidth, Nat.succ_mul, Nat.add_comm]
          rw [List.flatten_cons, shifted, List.drop_length_add_append]
          exact ih (fun row member => uniform row (by simp [member])) (by simpa using found)

theorem flatten_getElem? {rows : List (List α)} {width index offset : Nat} {row : List α}
    (uniform : ∀ row ∈ rows, row.length = width) (found : rows[index]? = some row) (inside : offset < width) :
    rows.flatten[index * width + offset]? = row[offset]? := by
  rw [← flatten_row uniform found, List.getElem?_take_of_lt inside, List.getElem?_drop]

theorem flatten_uniform_length {rows : List (List α)} {width : Nat}
    (uniform : ∀ row ∈ rows, row.length = width) : rows.flatten.length = rows.length * width := by
  induction rows with
  | nil => simp
  | cons head rest ih =>
      rw [List.flatten_cons, List.length_append, uniform head (by simp),
        ih (fun row member => uniform row (by simp [member])), List.length_cons, Nat.succ_mul,
        Nat.add_comm]

theorem flatten_window {before after : List (List α)} {chunk : List α} {start width : Nat}
    (inside : start + width ≤ chunk.length) :
    (((before ++ chunk :: after).flatten.drop (before.flatten.length + start)).take width) =
      (chunk.drop start).take width := by
  rw [List.flatten_append, List.drop_length_add_append, List.flatten_cons,
    List.drop_append_of_le_length (by omega), List.take_append_of_le_length (by
      rw [List.length_drop]
      omega)]

/-- `reshape(-1, width)` of `count * width` elements. -/
def reshape (width : Nat) : Nat → List α → List (List α)
  | 0, _ => []
  | count + 1, values => values.take width :: reshape width count (values.drop width)

theorem length_reshape (width count : Nat) (values : List α) :
    (reshape width count values).length = count := by
  induction count generalizing values with
  | zero => rfl
  | succ count ih => rw [reshape, List.length_cons, ih]

theorem reshape_getElem? {width count index : Nat} (values : List α) (bound : index < count) :
    (reshape width count values)[index]? = some ((values.drop (index * width)).take width) := by
  induction count generalizing values index with
  | zero => omega
  | succ count ih =>
      cases index with
      | zero => simp [reshape]
      | succ index =>
          have later := ih (values.drop width) (by omega : index < count)
          rw [List.drop_drop] at later
          rw [reshape, List.getElem?_cons_succ, later, Nat.succ_mul, Nat.add_comm]

theorem reshape_append {width count : Nat} {values : List α} (full : count * width ≤ values.length) (more : List α) :
    reshape width count (values ++ more) = reshape width count values := by
  induction count generalizing values with
  | zero => rfl
  | succ count ih =>
      rw [Nat.succ_mul] at full
      rw [reshape, reshape, List.take_append_of_le_length (by omega), List.drop_append_of_le_length (by omega),
        ih (by rw [List.length_drop]; omega)]

theorem flatten_reshape {width count : Nat} {values : List α} (full : values.length = count * width) :
    (reshape width count values).flatten = values := by
  induction count generalizing values with
  | zero =>
      rw [Nat.zero_mul] at full
      exact (List.eq_nil_of_length_eq_zero full).symm
  | succ count ih =>
      rw [Nat.succ_mul] at full
      rw [reshape, List.flatten_cons, ih (by rw [List.length_drop]; omega), List.take_append_drop]

/-- The last row may be short. -/
theorem flatten_reshape_of_le {width count : Nat} {values : List α} (enough : values.length ≤ count * width) :
    (reshape width count values).flatten = values := by
  induction count generalizing values with
  | zero =>
      rw [Nat.zero_mul] at enough
      exact (List.eq_nil_of_length_eq_zero (Nat.le_zero.mp enough)).symm
  | succ count ih =>
      have later : (values.drop width).length ≤ count * width := by
        rw [List.length_drop, Nat.sub_le_iff_le_add]
        rwa [Nat.succ_mul] at enough
      rw [reshape, List.flatten_cons, ih later, List.take_append_drop]

theorem reshape_row_length {width count : Nat} {values row : List α}
    (full : values.length = count * width) (member : row ∈ reshape width count values) :
    row.length = width := by
  induction count generalizing values with
  | zero => simp [reshape] at member
  | succ count ih =>
      rw [Nat.succ_mul] at full
      rcases List.mem_cons.mp member with rfl | later
      · rw [List.length_take]
        omega
      · exact ih (by rw [List.length_drop]; omega) later

theorem reshape_flatten {width count : Nat} {rows : List (List α)}
    (uniform : ∀ row ∈ rows, row.length = width) (size : rows.length = count) :
    reshape width count rows.flatten = rows := by
  induction rows generalizing count with
  | nil =>
      subst size
      rfl
  | cons head rest ih =>
      subst size
      have headWidth : head.length = width := uniform head (by simp)
      rw [List.length_cons, reshape, List.flatten_cons, ← headWidth, List.take_left, List.drop_left, headWidth,
        ih (fun row member => uniform row (by simp [member])) rfl]

/-- `values[::stride]`. -/
def strided (stride : Nat) (values : List α) : List α :=
  values.zipIdx.filterMap fun entry => if entry.2 % stride = 0 then some entry.1 else none

theorem strided_map {β : Type*} (stride : Nat) (convert : α → β) (values : List α) :
    strided stride (values.map convert) = (strided stride values).map convert := by
  rw [strided, strided, List.zipIdx_map, List.filterMap_map, List.map_filterMap]
  congr 1
  funext entry
  by_cases hit : entry.2 % stride = 0 <;> simp [hit]

theorem strided_mem {stride : Nat} {values : List α} {value : α} (member : value ∈ strided stride values) :
    value ∈ values := by
  obtain ⟨entry, inside, chosen⟩ := List.mem_filterMap.mp member
  split at chosen
  · cases chosen
    exact (List.mem_zipIdx' inside).2 ▸ List.getElem_mem _
  · contradiction

theorem length_strided {stride : Nat} (positive : 0 < stride) (values : List α) :
    (strided stride values).length = (values.length + stride - 1) / stride := by
  have counted (start : Nat) : ((values.zipIdx start).filterMap fun entry =>
      if entry.2 % stride = 0 then some entry.1 else none).length + (start + stride - 1) / stride =
      (start + values.length + stride - 1) / stride := by
    induction values generalizing start with
    | nil => simp
    | cons first rest ih =>
        have later := ih (start + 1)
        have reached := @Nat.succ_div (start + stride - 1) stride
        have here : stride ∣ start + 1 + stride - 1 ↔ start % stride = 0 := by
          rw [show start + 1 + stride - 1 = start + stride by omega, Nat.dvd_add_self_right, Nat.dvd_iff_mod_eq_zero]
        rw [show start + stride - 1 + 1 = start + 1 + stride - 1 by omega] at reached
        rw [List.zipIdx_cons, List.filterMap_cons, List.length_cons,
          show start + (rest.length + 1) + stride - 1 = start + 1 + rest.length + stride - 1 by omega, ← later, reached]
        by_cases hit : start % stride = 0
        · simp only [hit, if_true, if_pos (here.mpr hit), List.length_cons]
          omega
        · simp only [hit, if_false, if_neg (mt here.mp hit)]
          omega
  have total := counted 0
  rw [Nat.zero_add, Nat.zero_add, Nat.div_eq_of_lt (by omega : stride - 1 < stride)] at total
  exact total

/-- Where nothing that is dropped precedes anything that is kept, compaction
leaves the kept elements where they stand. -/
theorem take_filter_of_leading {keep : α → Bool} {values : List α}
    (leading : values.Pairwise fun before after => keep after → keep before) :
    values.take (values.filter keep).length = values.filter keep := by
  induction values with
  | nil => rfl
  | cons first rest ih =>
      have ⟨ahead, ordered⟩ := List.pairwise_cons.mp leading
      by_cases kept : keep first
      · rw [List.filter_cons_of_pos kept, List.length_cons, List.take_succ_cons, ih ordered]
      · have none : rest.filter keep = [] :=
          List.filter_eq_nil_iff.mpr fun value member later => kept (ahead value member later)
        rw [List.filter_cons_of_neg kept, none]
        rfl

theorem leading_of_take {keep : α → Bool} {values : List α}
    (front : ∀ value ∈ values.take (values.filter keep).length, keep value) :
    values.Pairwise fun before after => keep after → keep before := by
  induction values with
  | nil => exact .nil
  | cons first rest ih =>
      by_cases kept : keep first
      · rw [List.filter_cons_of_pos kept, List.length_cons, List.take_succ_cons] at front
        exact List.pairwise_cons.mpr ⟨fun value _ _ => kept,
          ih fun value member => front value (List.mem_cons_of_mem _ member)⟩
      · rw [List.filter_cons_of_neg kept] at front
        cases size : (rest.filter keep).length with
        | zero =>
            have dropped := List.filter_eq_nil_iff.mp (List.eq_nil_of_length_eq_zero size)
            exact List.pairwise_cons.mpr ⟨fun value member later => absurd later (dropped value member),
              ih (by simp [size])⟩
        | succ rest =>
            rw [size, List.take_succ_cons] at front
            exact absurd (front first List.mem_cons_self) kept

/-- The first element that no other one beats. -/
def firstBest (atLeast : α → α → Bool) : List α → Option α
  | [] => none
  | first :: rest =>
      match firstBest atLeast rest with
      | none => some first
      | some best => if atLeast first best then some first else some best

theorem firstBest_mem {atLeast : α → α → Bool} {values : List α} {best : α}
    (found : firstBest atLeast values = some best) : best ∈ values := by
  induction values with
  | nil => contradiction
  | cons first rest ih =>
      rw [firstBest] at found
      cases later : firstBest atLeast rest with
      | none =>
          rw [later] at found
          exact Option.some.inj found ▸ List.mem_cons_self
      | some winner =>
          simp only [later] at found
          split at found
          · exact Option.some.inj found ▸ List.mem_cons_self
          · exact List.mem_cons_of_mem _ (ih (later.trans found))

theorem firstBest_eq_none_iff {atLeast : α → α → Bool} {values : List α} :
    firstBest atLeast values = none ↔ values = [] := by
  cases values with
  | nil => simp [firstBest]
  | cons first rest =>
      rw [firstBest]
      cases firstBest atLeast rest with
      | none => simp
      | some best =>
          dsimp only
          split <;> simp

theorem firstBest_le {β : Type*} [LinearOrder β] {key : α → β} {values : List α} {best : α}
    (found : firstBest (fun value other => decide (key value ≤ key other)) values = some best) :
    ∀ value ∈ values, key best ≤ key value := by
  induction values generalizing best with
  | nil => simp
  | cons first rest ih =>
      rw [firstBest] at found
      intro value member
      cases later : firstBest (fun value other => decide (key value ≤ key other)) rest with
      | none =>
          rw [later] at found
          cases found
          rw [firstBest_eq_none_iff.mp later, List.mem_singleton] at member
          exact member ▸ le_refl _
      | some winner =>
          have least := ih later
          simp only [later] at found
          split at found
          · next won =>
              cases found
              have ahead := of_decide_eq_true won
              rcases List.mem_cons.mp member with rfl | inside
              · exact le_refl _
              · exact le_trans ahead (least value inside)
          · next lost =>
              cases found
              have behind : key best < key first := lt_of_not_ge fun le => lost (decide_eq_true le)
              rcases List.mem_cons.mp member with rfl | inside
              · exact le_of_lt behind
              · exact least value inside

/-- Among the least ones it is the first. -/
theorem firstBest_first {β : Type*} [LinearOrder β] {key : α → β} {values : List α} {best other : α}
    (found : firstBest (fun value other => decide (key value ≤ key other)) values = some best) (member : other ∈ values)
    (apart : other ≠ best) : key best < key other ∨ key best = key other ∧ [best, other].Sublist values := by
  induction values generalizing best with
  | nil => cases member
  | cons first rest ih =>
      have least := firstBest_le found other member
      rw [firstBest] at found
      cases later : firstBest (fun value other => decide (key value ≤ key other)) rest with
      | none =>
          rw [later] at found
          cases found
          rw [firstBest_eq_none_iff.mp later, List.mem_singleton] at member
          exact absurd member apart
      | some winner =>
          simp only [later] at found
          split at found
          · cases found
            have inside := (List.mem_cons.mp member).resolve_left apart
            exact (lt_or_eq_of_le least).imp_right fun same => ⟨same, (List.singleton_sublist.mpr inside).cons_cons first⟩
          · next lost =>
              cases found
              have behind : key best < key first := lt_of_not_ge fun le => lost (decide_eq_true le)
              rcases List.mem_cons.mp member with rfl | inside
              · exact Or.inl behind
              · exact (ih later inside apart).imp_right (And.imp_right fun listed => listed.cons first)

/-- Scores that are set to zero where they do not count lose against all that
count, when these are positive. -/
theorem firstBest_gated {keep : α → Bool} {score : α → ℚ} (positive : ∀ value, 0 < score value) (values : List α) :
    (firstBest (fun value best =>
        decide ((if keep best then score best else 0) ≤ if keep value then score value else 0)) values).filter
      (fun value => decide (0 < if keep value then score value else 0)) =
      firstBest (fun value best => decide (score best ≤ score value)) (values.filter keep) := by
  induction values with
  | nil => rfl
  | cons first rest ih =>
      rw [firstBest]
      cases later : firstBest (fun value best =>
          decide ((if keep best then score best else 0) ≤ if keep value then score value else 0)) rest with
      | none =>
          obtain rfl := firstBest_eq_none_iff.mp later
          by_cases kept : keep first <;> simp [kept, firstBest, positive]
      | some winner =>
          rw [later] at ih
          dsimp only
          by_cases kept : keep first <;> by_cases won : keep winner
          · rw [Option.filter_some, if_pos (by simpa [won] using positive winner)] at ih
            rw [List.filter_cons_of_pos kept, firstBest, ← ih]
            by_cases ahead : score winner ≤ score first <;> simp [kept, won, ahead, positive]
          · rw [Option.filter_some, if_neg (by simp [won])] at ih
            rw [List.filter_cons_of_pos kept, firstBest, ← ih]
            simp [kept, won, positive, (positive first).le]
          · rw [List.filter_cons_of_neg kept, ← ih]
            simp [kept, won, not_le.mpr (positive winner)]
          · rw [List.filter_cons_of_neg kept, ← ih]
            simp [kept, won, Option.filter_some]

structure Grid (α : Type*) where
  width : Nat
  rows : List (List α)
  rect : ∀ row ∈ rows, row.length = width

/-- Half-open spans of the given sizes, one behind the other. -/
def spans : List Nat → Nat → List (Nat × Nat)
  | [], _ => []
  | size :: rest, start => (start, start + size) :: spans rest (start + size)

/-- Spans that stand in order and cover a range exactly. -/
structure Tiles (list : List (Nat × Nat)) (start stop : Nat) : Prop where
  ordered : list.Pairwise fun left right => left.2 ≤ right.1
  within : ∀ span ∈ list, start ≤ span.1 ∧ span.2 ≤ stop
  covered : ∀ index, start ≤ index → index < stop → ∃ span ∈ list, span.1 ≤ index ∧ index < span.2

theorem spans_tiles (sizes : List Nat) (start : Nat) : Tiles (spans sizes start) start (start + sizes.sum) := by
  induction sizes generalizing start with
  | nil => exact ⟨.nil, by simp [spans], by simp; omega⟩
  | cons size rest ih =>
      have later := ih (start + size)
      have total : start + (size :: rest).sum = start + size + rest.sum := by
        rw [List.sum_cons, Nat.add_assoc]
      rw [total]
      refine ⟨List.pairwise_cons.mpr ⟨fun span member => (later.within span member).1, later.ordered⟩, ?_, ?_⟩
      · intro span member
        cases List.mem_cons.mp member with
        | inl here =>
            subst here
            exact ⟨Nat.le_refl _, by omega⟩
        | inr inside =>
            have bounds := later.within span inside
            omega
      · intro index from_ upto
        by_cases here : index < start + size
        · exact ⟨_, List.mem_cons_self, from_, here⟩
        · obtain ⟨span, inside, reached⟩ := later.covered index (by omega) upto
          exact ⟨span, List.mem_cons_of_mem _ inside, reached⟩

theorem dvd_spans {sizes : List Nat} {start unit : Nat} (begins : unit ∣ start)
    (multiples : ∀ size ∈ sizes, unit ∣ size) : ∀ span ∈ spans sizes start, unit ∣ span.1 := by
  induction sizes generalizing start with
  | nil => simp [spans]
  | cons size rest ih =>
      intro span member
      cases List.mem_cons.mp member with
      | inl here => exact here ▸ begins
      | inr inside =>
          exact ih (Nat.dvd_add begins (multiples size (by simp))) (fun other later => multiples other (by simp [later]))
            span inside

end FlashNext.Data
