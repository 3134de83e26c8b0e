import Mathlib.Data.List.Infix

namespace FlashNext.Data

/-! Texts over any alphabet, searched and edited as Python's `in`, `count` and
`replace` do for a text that is not empty.  Texts that are apart cannot overlap,
so an edit of the one leaves every occurrence of the other. -/

variable {α : Type*} [DecidableEq α]

/-- Both texts reach a place where they differ. -/
def clash : List α → List α → Bool
  | left :: x, right :: y => if left = right then clash x y else true
  | _, _ => false

/-- Every end of `x` clashes with `y`. -/
def endsClash : List α → List α → Bool
  | [], _ => true
  | first :: x, y => clash (first :: x) y && endsClash x y

/-- Neither text holds the other, and no end of one begins the other. -/
def Apart (x y : List α) : Prop := endsClash x y = true ∧ endsClash y x = true

instance (x y : List α) : Decidable (Apart x y) := inferInstanceAs (Decidable (_ ∧ _))

/-- No end of the text begins it. -/
def unbordered : List α → Bool
  | [] => false
  | first :: x => endsClash x (first :: x)

/-- How many places a text stands at. -/
def occurrences (x : List α) : List α → Nat
  | [] => 0
  | first :: s => (if x <+: first :: s then 1 else 0) + occurrences x s

/-- `count` behind `skip` places that a match has used. -/
def countFrom (x : List α) : Nat → List α → Nat
  | _, [] => 0
  | 0, first :: s => if x <+: first :: s then 1 + countFrom x (x.length - 1) s else countFrom x 0 s
  | skip + 1, _ :: s => countFrom x skip s

/-- `s.count(x)`: places that do not overlap, from the left. -/
def count (x s : List α) : Nat := countFrom x 0 s

/-- `s.replace(old, new, 1)`. -/
def replaceFirst (old new : List α) : List α → List α
  | [] => []
  | first :: s => if old <+: first :: s then new ++ (first :: s).drop old.length else first :: replaceFirst old new s

/-- One place of `old` in `s` is `new` in `s'`. -/
def Rewrites (old new s s' : List α) : Prop := ∃ before after, s = before ++ (old ++ after) ∧ s' = before ++ (new ++ after)

/-- One place of `old` may have become `new`. -/
def Edits (old new s s' : List α) : Prop := s' = s ∨ Rewrites old new s s'

variable {x y s s' old new before after : List α}

theorem clash_append (different : clash x y = true) (rest rest' : List α) : x ++ rest ≠ y ++ rest' := by
  induction x generalizing y with
  | nil => simp [clash] at different
  | cons left x ih =>
      cases y with
      | nil => simp [clash] at different
      | cons right y =>
          intro same
          have ⟨head, tail⟩ := List.cons.inj same
          rw [clash, if_pos head] at different
          exact ih different tail

theorem clash_of_end {part : List α} (ends : endsClash (before ++ part) y = true) (nonempty : part ≠ []) :
    clash part y = true := by
  induction before with
  | nil =>
      cases part with
      | nil => exact absurd rfl nonempty
      | cons first rest => exact (Bool.and_eq_true_iff.mp ends).1
  | cons first before ih => exact ih (Bool.and_eq_true_iff.mp ends).2

/-- A text that does not run into `y` stands before it as if `y` were not there. -/
theorem isPrefix_append_iff (ends : ∀ left part, x = left ++ part → part ≠ [] → left = before → clash part y = true) :
    x <+: before ++ (y ++ after) ↔ x <+: before := by
  constructor
  · intro found
    obtain ⟨rest, whole⟩ := found
    rcases List.append_eq_append_iff.mp whole with ⟨more, inside, _⟩ | ⟨part, split, same⟩
    · exact ⟨more, inside.symm⟩
    · by_cases nonempty : part = []
      · rw [nonempty, List.append_nil] at split
        exact split ▸ List.prefix_rfl
      · exact absurd same.symm (clash_append (ends before part split nonempty rfl) rest after)
  · intro found
    exact found.trans (List.prefix_append _ _)

theorem Apart.symm (apart : Apart x y) : Apart y x := And.symm apart

section Renaming

variable {β : Type*} [DecidableEq β] {code : α → β}

theorem clash_map (injective : code.Injective) (x y : List α) : clash (x.map code) (y.map code) = clash x y := by
  induction x generalizing y with
  | nil => rfl
  | cons left x ih =>
      cases y with
      | nil => rfl
      | cons right y => simp only [List.map_cons, clash, ih, injective.eq_iff]

theorem endsClash_map (injective : code.Injective) (x y : List α) : endsClash (x.map code) (y.map code) = endsClash x y := by
  induction x with
  | nil => rfl
  | cons first x ih => rw [List.map_cons, endsClash, endsClash, ih, ← List.map_cons, clash_map injective]

theorem apart_map (injective : code.Injective) : Apart (x.map code) (y.map code) ↔ Apart x y := by
  rw [Apart, Apart, endsClash_map injective, endsClash_map injective]

end Renaming

theorem occurrences_pos_iff (nonempty : x ≠ []) : 0 < occurrences x s ↔ x <:+: s := by
  induction s with
  | nil => simp [occurrences, nonempty]
  | cons first s ih =>
      rw [List.infix_cons_iff, ← ih, occurrences]
      split
      · next here => exact iff_of_true (by omega) (Or.inl here)
      · next elsewhere => simp [elsewhere]

theorem occurrences_skip (ends : endsClash y x = true) : occurrences x (y ++ after) = occurrences x after := by
  induction y with
  | nil => rfl
  | cons first y ih =>
      have ⟨here, later⟩ := Bool.and_eq_true_iff.mp ends
      have absent : ¬ x <+: first :: (y ++ after) := by
        intro found
        obtain ⟨rest, whole⟩ := found
        exact clash_append here after rest whole.symm
      rw [List.cons_append, occurrences, if_neg absent, Nat.zero_add]
      exact ih later

theorem occurrences_apart (apart : Apart x y) :
    occurrences x (before ++ (y ++ after)) = occurrences x before + occurrences x after := by
  induction before with
  | nil => rw [List.nil_append, occurrences_skip apart.2, occurrences, Nat.zero_add]
  | cons first before ih =>
      have same : x <+: first :: before ++ (y ++ after) ↔ x <+: first :: before := by
        apply isPrefix_append_iff
        intro left part split nonempty _
        exact clash_of_end (split ▸ apart.1) nonempty
      rw [List.cons_append, occurrences, occurrences, ih, Nat.add_assoc]
      simp only [← List.cons_append, same]

theorem occurrences_self (unbordered : unbordered x = true) :
    occurrences x (before ++ (x ++ after)) = occurrences x before + 1 + occurrences x after := by
  induction before with
  | nil =>
      cases x with
      | nil => cases unbordered
      | cons first x =>
          have here : first :: x <+: first :: (x ++ after) := List.prefix_append (first :: x) after
          have later : occurrences (first :: x) (x ++ after) = occurrences (first :: x) after := occurrences_skip unbordered
          rw [List.nil_append, List.cons_append, ← later]
          simp only [occurrences, if_pos here, Nat.zero_add]
  | cons first before ih =>
      have same : x <+: first :: before ++ (x ++ after) ↔ x <+: first :: before := by
        apply isPrefix_append_iff
        intro left part split nonempty started
        -- the end is a proper one, `left` being `first :: before`
        subst started
        rw [split] at unbordered ⊢
        exact clash_of_end unbordered nonempty
      rw [List.cons_append, occurrences, occurrences, ih]
      simp only [← List.cons_append, same]
      omega

theorem countFrom_skip (x : List α) : countFrom x before.length (before ++ after) = countFrom x 0 after := by
  induction before with
  | nil => rfl
  | cons first before ih => exact ih

/-- Places of a text without borders never overlap, so `count` finds them all. -/
theorem count_eq_occurrences (unbordered : unbordered x = true) (s : List α) : count x s = occurrences x s := by
  rw [count]
  induction length : s.length using Nat.strong_induction_on generalizing s with
  | _ length ih =>
      subst length
      cases s with
      | nil => rfl
      | cons first s =>
          rw [countFrom, occurrences]
          split
          · next here =>
              cases x with
              | nil => cases unbordered
              | cons head x =>
                  obtain ⟨after, whole⟩ := here
                  rw [List.cons_append] at whole
                  obtain ⟨rfl, rfl⟩ := List.cons.inj whole
                  rw [List.length_cons, Nat.add_sub_cancel, countFrom_skip, occurrences_skip unbordered]
                  have shorter : after.length < (head :: (x ++ after)).length := by
                    rw [List.length_cons, List.length_append]
                    omega
                  exact congrArg _ (ih after.length shorter after rfl)
          · rw [Nat.zero_add]
            exact ih s.length (by simp) s rfl

theorem replaceFirst_rewrites (present : old <:+: s) (nonempty : old ≠ []) :
    Rewrites old new s (replaceFirst old new s) := by
  induction s with
  | nil => exact absurd (List.infix_nil.mp present) nonempty
  | cons first s ih =>
      rw [replaceFirst]
      split
      · next here =>
          obtain ⟨after, whole⟩ := here
          refine ⟨[], after, whole.symm, ?_⟩
          rw [← whole, List.drop_left, List.nil_append]
      · next elsewhere =>
          obtain ⟨before, after, split, edited⟩ := ih ((List.infix_cons_iff.mp present).resolve_left elsewhere)
          exact ⟨first :: before, after, congrArg _ split, congrArg _ edited⟩

namespace Rewrites

theorem occurrences_eq (rewrites : Rewrites old new s s') (fromOld : Apart x old) (fromNew : Apart x new) :
    occurrences x s' = occurrences x s := by
  obtain ⟨before, after, rfl, rfl⟩ := rewrites
  rw [occurrences_apart fromOld, occurrences_apart fromNew]

theorem occurrences_old (rewrites : Rewrites old new s s') (once : unbordered old = true) (fromNew : Apart old new) :
    occurrences old s' + 1 = occurrences old s := by
  obtain ⟨before, after, rfl, rfl⟩ := rewrites
  rw [occurrences_self once, occurrences_apart fromNew]
  omega

omit [DecidableEq α] in
theorem has_new (rewrites : Rewrites old new s s') : new <:+: s' := by
  obtain ⟨before, after, _, rfl⟩ := rewrites
  exact ⟨before, after, List.append_assoc _ _ _⟩

theorem keeps (rewrites : Rewrites old new s s') (nonempty : x ≠ []) (safe : Apart x old ∨ x <:+: new) (present : x <:+: s) :
    x <:+: s' := by
  rcases safe with fromOld | inNew
  · obtain ⟨before, after, rfl, rfl⟩ := rewrites
    rw [← occurrences_pos_iff nonempty, occurrences_apart fromOld] at present
    rcases Nat.add_pos_iff_pos_or_pos.mp present with early | late
    · obtain ⟨left, right, rfl⟩ := (occurrences_pos_iff nonempty).mp early
      exact ⟨left, right ++ (new ++ after), by simp⟩
    · obtain ⟨left, right, rfl⟩ := (occurrences_pos_iff nonempty).mp late
      exact ⟨before ++ (new ++ left), right, by simp⟩
  · exact inNew.trans rewrites.has_new

omit [DecidableEq α] in
theorem mem {char : α} (rewrites : Rewrites old new s s') (member : char ∈ s') : char ∈ s ∨ char ∈ new := by
  obtain ⟨before, after, rfl, rfl⟩ := rewrites
  simp only [List.mem_append] at member ⊢
  tauto

end Rewrites

namespace Edits

theorem occurrences_eq (edits : Edits old new s s') (fromOld : Apart x old) (fromNew : Apart x new) :
    occurrences x s' = occurrences x s := by
  rcases edits with rfl | rewrites
  · rfl
  · exact rewrites.occurrences_eq fromOld fromNew

theorem infix_iff (edits : Edits old new s s') (nonempty : x ≠ []) (fromOld : Apart x old) (fromNew : Apart x new) :
    x <:+: s' ↔ x <:+: s := by
  rw [← occurrences_pos_iff nonempty, ← occurrences_pos_iff nonempty, edits.occurrences_eq fromOld fromNew]

theorem keeps (edits : Edits old new s s') (nonempty : x ≠ []) (safe : Apart x old ∨ x <:+: new) (present : x <:+: s) :
    x <:+: s' := by
  rcases edits with rfl | rewrites
  · exact present
  · exact rewrites.keeps nonempty safe present

omit [DecidableEq α] in
theorem mem {char : α} (edits : Edits old new s s') (member : char ∈ s') : char ∈ s ∨ char ∈ new := by
  rcases edits with rfl | rewrites
  · exact Or.inl member
  · exact rewrites.mem member

end Edits

theorem replaceFirst_absent (absent : ¬ old <:+: s) : replaceFirst old new s = s := by
  induction s with
  | nil => rfl
  | cons first s ih =>
      rw [List.infix_cons_iff, not_or] at absent
      rw [replaceFirst, if_neg absent.1, ih absent.2]

theorem edits_replaceFirst (nonempty : old ≠ []) (new s : List α) : Edits old new s (replaceFirst old new s) := by
  by_cases present : old <:+: s
  · exact Or.inr (replaceFirst_rewrites present nonempty)
  · exact Or.inl (replaceFirst_absent present)

theorem mem_replaceFirst {char : α} (found : char ∈ replaceFirst old new s) : char ∈ s ∨ char ∈ new := by
  induction s with
  | nil => exact Or.inl found
  | cons first s ih =>
      rw [replaceFirst] at found
      split at found
      · rcases List.mem_append.mp found with inNew | behind
        · exact Or.inr inNew
        · exact Or.inl (List.mem_of_mem_drop behind)
      · rcases List.mem_cons.mp found with rfl | later
        · exact Or.inl List.mem_cons_self
        · exact (ih later).imp_left (List.mem_cons_of_mem _)

theorem ne_nil_of_unbordered (once : unbordered x = true) : x ≠ [] := by
  intro empty
  subst empty
  cases once

theorem occurrences_replaceFirst (once : unbordered old = true) (fromNew : Apart old new) (s : List α) :
    occurrences old (replaceFirst old new s) = occurrences old s - 1 := by
  have nonempty := ne_nil_of_unbordered once
  by_cases present : old <:+: s
  · have fewer := (replaceFirst_rewrites present nonempty).occurrences_old once fromNew
    omega
  · have none := mt (occurrences_pos_iff nonempty).mp present
    rw [replaceFirst_absent present]
    omega

section Each

variable {pairs : List (List α × List α)}

/-- One replacement for each pair, in their order. -/
def replaceEach (pairs : List (List α × List α)) (s : List α) : List α :=
  pairs.foldl (fun s pair => replaceFirst pair.1 pair.2 s) s

theorem replaceEach_cons (pair : List α × List α) (rest : List (List α × List α)) (s : List α) :
    replaceEach (pair :: rest) s = replaceEach rest (replaceFirst pair.1 pair.2 s) := rfl

theorem replaceEach_keeps {holds : List α → Prop} (nonempty : ∀ pair ∈ pairs, pair.1 ≠ [])
    (each : ∀ pair ∈ pairs, ∀ before after, Edits pair.1 pair.2 before after → holds before → holds after)
    (start : holds s) : holds (replaceEach pairs s) := by
  induction pairs generalizing s with
  | nil => exact start
  | cons pair rest ih =>
      rw [replaceEach_cons]
      apply ih (fun other member => nonempty other (by simp [member])) (fun other member => each other (by simp [member]))
      exact each pair (by simp) _ _ (edits_replaceFirst (nonempty pair (by simp)) _ _) start

theorem occurrences_replaceEach_apart (nonempty : ∀ pair ∈ pairs, pair.1 ≠ [])
    (apart : ∀ pair ∈ pairs, Apart x pair.1 ∧ Apart x pair.2) :
    occurrences x (replaceEach pairs s) = occurrences x s := by
  refine @replaceEach_keeps α _ s pairs (fun text => occurrences x text = occurrences x s) nonempty ?_ rfl
  intro pair member before after edits same
  rw [edits.occurrences_eq (apart pair member).1 (apart pair member).2, same]

theorem occurrences_replaceEach (once : ∀ pair ∈ pairs, unbordered pair.1 = true)
    (news : ∀ pair ∈ pairs, ∀ other ∈ pairs, Apart pair.1 other.2)
    (olds : pairs.Pairwise fun pair other => Apart pair.1 other.1) :
    ∀ pair ∈ pairs, occurrences pair.1 (replaceEach pairs s) = occurrences pair.1 s - 1 := by
  induction pairs generalizing s with
  | nil => simp
  | cons first rest ih =>
      obtain ⟨apart, later⟩ := List.pairwise_cons.mp olds
      intro pair member
      rw [replaceEach_cons]
      rcases List.mem_cons.mp member with rfl | inRest
      · have nonempty : ∀ other ∈ rest, other.1 ≠ [] :=
          fun other listed => ne_nil_of_unbordered (once other (by simp [listed]))
        have both : ∀ other ∈ rest, Apart pair.1 other.1 ∧ Apart pair.1 other.2 :=
          fun other listed => ⟨apart other listed, news pair (by simp) other (by simp [listed])⟩
        rw [occurrences_replaceEach_apart nonempty both]
        exact occurrences_replaceFirst (once pair (by simp)) (news pair (by simp) pair (by simp)) s
      · have edits := edits_replaceFirst (ne_nil_of_unbordered (once first (by simp))) first.2 s
        rw [ih (fun pair member => once pair (by simp [member]))
            (fun pair member other member' => news pair (by simp [member]) other (by simp [member'])) later pair inRest,
          edits.occurrences_eq (apart pair inRest).symm (news pair member first (by simp))]

end Each

end FlashNext.Data
