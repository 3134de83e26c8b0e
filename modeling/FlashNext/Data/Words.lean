import Mathlib.Data.List.DropRight
import Mathlib.Tactic.Common

namespace FlashNext.Data

variable {α : Type*} [DecidableEq α]

/-- Which elements make words, and the mark. -/
structure Lettering (α : Type*) where
  word : α → Bool
  mark : α
  wordless : word mark = false

namespace Lettering

variable (letters : Lettering α)

def other (value : α) : Bool := !letters.word value && value ≠ letters.mark

/-- Every longest run of others becomes one mark, written at its end. -/
def squeeze : List α → List α
  | [] => []
  | value :: rest =>
      if letters.other value then
        if rest.head?.any letters.other then squeeze rest else letters.mark :: squeeze rest
      else value :: squeeze rest

def strip (text : List α) : List α := (text.dropWhile (· = letters.mark)).rdropWhile (· = letters.mark)

omit [DecidableEq α] in
/-- A word element in front of a text whose outline is given. -/
def addLetter (value : α) : Nat × List (List α × Nat) → Nat × List (List α × Nat)
  | (0, (word, behind) :: more) => (0, (value :: word, behind) :: more)
  | (front, entries) => (0, ([value], front) :: entries)

/-- The separators in front, and the words, each with the separators behind it. -/
def outline : List α → Nat × List (List α × Nat)
  | [] => (0, [])
  | value :: rest =>
      if letters.word value then addLetter value (outline rest)
      else if letters.other value ∧ rest.head?.any letters.other then outline rest
      else ((outline rest).1 + 1, (outline rest).2)

def words (text : List α) : List (List α) := (letters.outline text).2.map Prod.fst

def gaps (text : List α) : List Nat := ((letters.outline text).2.map Prod.snd).dropLast

/-- No others, and no mark at the ends. -/
structure Tidy (text : List α) : Prop where
  plain : ∀ value ∈ text, letters.other value = false
  front : text.head? ≠ some letters.mark
  back : text.getLast? ≠ some letters.mark

variable {letters}

theorem other_mark : letters.other letters.mark = false := by simp [other]

theorem outline_word {value : α} (letter : letters.word value = true) (rest : List α) :
    letters.outline (value :: rest) = addLetter value (letters.outline rest) := by
  rw [outline, if_pos letter]

theorem outline_separator {value : α} (separator : letters.word value = false) (rest : List α) :
    (letters.outline (value :: rest)).2 = (letters.outline rest).2 := by
  rw [outline]
  simp only [separator, Bool.false_eq_true, if_false]
  split
  · rfl
  · rfl

theorem outline_mark (rest : List α) :
    letters.outline (letters.mark :: rest) = ((letters.outline rest).1 + 1, (letters.outline rest).2) := by
  rw [outline]
  simp only [letters.wordless, other_mark, Bool.false_eq_true, false_and, if_false]

theorem squeeze_plain (text : List α) : ∀ value ∈ letters.squeeze text, letters.other value = false := by
  induction text with
  | nil => simp [squeeze]
  | cons value rest ih =>
      rw [squeeze]
      split
      · split
        · exact ih
        · exact List.forall_mem_cons.mpr ⟨other_mark, ih⟩
      · next plain => exact List.forall_mem_cons.mpr ⟨Bool.eq_false_iff.mpr plain, ih⟩

theorem outline_squeeze (text : List α) : letters.outline (letters.squeeze text) = letters.outline text := by
  induction text with
  | nil => rfl
  | cons value rest ih =>
      cases letter : letters.word value with
      | true =>
          have plain : letters.other value = false := by simp [other, letter]
          rw [squeeze, plain, if_neg Bool.false_ne_true, outline_word letter, outline_word letter, ih]
      | false =>
          by_cases marked : value = letters.mark
          · subst marked
            rw [squeeze, other_mark, if_neg Bool.false_ne_true, outline_mark, outline_mark, ih]
          · have separate : letters.other value = true := by simp [other, letter, marked]
            rw [squeeze, if_pos separate, outline]
            simp only [letter, separate, Bool.false_eq_true, if_false, true_and]
            split
            · exact ih
            · rw [outline_mark, ih]

theorem outline_dropWhile (text : List α) :
    (letters.outline (text.dropWhile (· = letters.mark))).2 = (letters.outline text).2 := by
  induction text with
  | nil => rfl
  | cons value rest ih =>
      by_cases marked : value = letters.mark
      · subst marked
        rw [List.dropWhile_cons_of_pos (by simp), ih, outline_mark]
      · rw [List.dropWhile_cons_of_neg (by simpa using marked)]

/-- Two outlines that differ behind the last word only. -/
structure SameInside (first second : Nat × List (List α × Nat)) : Prop where
  words : first.2.map Prod.fst = second.2.map Prod.fst
  gaps : (first.2.map Prod.snd).dropLast = (second.2.map Prod.snd).dropLast
  front : first.2 ≠ [] → first.1 = second.1

omit [DecidableEq α] in
theorem SameInside.addLetter {first second : Nat × List (List α × Nat)} (same : SameInside first second) (value : α) :
    SameInside (addLetter value first) (addLetter value second) := by
  obtain ⟨front, entries⟩ := first
  obtain ⟨front', entries'⟩ := second
  obtain ⟨words, gaps, fronts⟩ := same
  cases entries with
  | nil =>
      obtain rfl : entries' = [] := List.map_eq_nil_iff.mp words.symm
      exact ⟨by cases front <;> cases front' <;> rfl, by cases front <;> cases front' <;> rfl,
        fun _ => by cases front <;> cases front' <;> rfl⟩
  | cons entry more =>
      cases entries' with
      | nil => cases words
      | cons entry' more' =>
          obtain rfl : front = front' := fronts (List.cons_ne_nil _ _)
          obtain ⟨heads, tails⟩ := List.cons.inj words
          cases front with
          | zero => exact ⟨congrArg₂ List.cons (congrArg (List.cons value) heads) tails, gaps, fun _ => rfl⟩
          | succ front => exact ⟨congrArg (List.cons [value]) words, congrArg (List.cons (front + 1)) gaps, fun _ => rfl⟩

theorem sameInside_append {tail : List α} (wordless : ∀ value ∈ tail, letters.word value = false) (text : List α) :
    SameInside (letters.outline text) (letters.outline (text ++ tail)) := by
  induction text with
  | nil =>
      have none : (letters.outline tail).2 = [] := by
        induction tail with
        | nil => rfl
        | cons value rest ih =>
            rw [outline_separator (wordless value List.mem_cons_self),
              ih fun other member => wordless other (List.mem_cons_of_mem _ member)]
      rw [List.nil_append]
      exact ⟨by rw [none]; rfl, by rw [none]; rfl, fun some_ => absurd rfl some_⟩
  | cons value rest ih =>
      rw [List.cons_append]
      cases letter : letters.word value with
      | true =>
          rw [outline_word letter, outline_word letter]
          exact ih.addLetter value
      | false =>
          refine ⟨?_, ?_, ?_⟩
          · rw [outline_separator letter, outline_separator letter, ih.words]
          · rw [outline_separator letter, outline_separator letter, ih.gaps]
          · intro some_
            rw [outline_separator letter] at some_
            have heads : (rest ++ tail).head? = rest.head? := by
              cases rest with
              | nil => exact absurd rfl some_
              | cons first rest => rfl
            have front := ih.front some_
            rw [outline, outline, heads]
            simp only [letter, Bool.false_eq_true, if_false]
            split
            · exact front
            · rw [front]

theorem words_append {tail : List α} (wordless : ∀ value ∈ tail, letters.word value = false) (text : List α) :
    letters.words (text ++ tail) = letters.words text :=
  (sameInside_append wordless text).words.symm

theorem gaps_append {tail : List α} (wordless : ∀ value ∈ tail, letters.word value = false) (text : List α) :
    letters.gaps (text ++ tail) = letters.gaps text :=
  (sameInside_append wordless text).gaps.symm

theorem stripped_marks (letters : Lettering α) (text : List α) :
    ∀ value ∈ text.rtakeWhile (· = letters.mark), letters.word value = false := by
  intro value member
  have marked := @List.mem_rtakeWhile_imp _ _ _ _ member
  rw [of_decide_eq_true marked]
  exact letters.wordless

theorem words_strip (text : List α) : letters.words (letters.strip text) = letters.words text := by
  have kept := words_append (stripped_marks letters (text.dropWhile (· = letters.mark))) (letters.strip text)
  rw [strip, List.rdropWhile_append_rtakeWhile] at kept
  rw [strip, ← kept, words, words, outline_dropWhile]

theorem gaps_strip (text : List α) : letters.gaps (letters.strip text) = letters.gaps text := by
  have kept := gaps_append (stripped_marks letters (text.dropWhile (· = letters.mark))) (letters.strip text)
  rw [strip, List.rdropWhile_append_rtakeWhile] at kept
  rw [strip, ← kept, gaps, gaps, outline_dropWhile]

theorem tidy_strip {text : List α} (plain : ∀ value ∈ text, letters.other value = false) :
    letters.Tidy (letters.strip text) where
  plain := by
    intro value member
    exact plain value ((List.dropWhile_suffix _).subset ((List.rdropWhile_prefix _ _).subset member))
  front := by
    intro first
    obtain ⟨tail, whole⟩ := List.rdropWhile_prefix (fun value => decide (value = letters.mark))
      (text.dropWhile (· = letters.mark))
    have stopped := List.head?_dropWhile_not (fun value => decide (value = letters.mark)) text
    rw [← whole, List.head?_append] at stopped
    rw [strip] at first
    simp [first] at stopped
  back := by
    intro last
    have some_ : letters.strip text ≠ [] := by
      intro none
      rw [none] at last
      cases last
    have stopped := List.rdropWhile_last_not (fun value => decide (value = letters.mark))
      (text.dropWhile (· = letters.mark)) some_
    exact stopped (decide_eq_true ((List.getLast_eq_iff_getLast?_eq_some some_).mpr last))

theorem plain_eq {text : List α} (plain : ∀ value ∈ text, letters.other value = false) :
    text = List.replicate (letters.outline text).1 letters.mark ++
      (letters.outline text).2.flatMap fun entry => entry.1 ++ List.replicate entry.2 letters.mark := by
  induction text with
  | nil => rfl
  | cons value rest ih =>
      obtain ⟨here, later⟩ := List.forall_mem_cons.mp plain
      have ih := ih later
      cases letter : letters.word value with
      | true =>
          rw [outline_word letter]
          generalize letters.outline rest = outlined at ih ⊢
          obtain ⟨front, entries⟩ := outlined
          cases entries with
          | nil =>
            rw [ih]
            cases front <;> simp [addLetter]
          | cons entry more =>
            rw [ih]
            cases front <;> simp [addLetter]
      | false =>
          have marked : value = letters.mark := by simpa [other, letter] using here
          subst marked
          rw [outline_mark, List.replicate_succ, List.cons_append, ← ih]

theorem tidy_eq {text : List α} (tidy : letters.Tidy text) :
    text = (letters.outline text).2.flatMap (fun entry => entry.1 ++ List.replicate entry.2 letters.mark) ∧
      ((letters.outline text).2 = [] ∨ (letters.outline text).2.map Prod.snd = letters.gaps text ++ [0]) := by
  have whole := plain_eq tidy.plain
  have front : (letters.outline text).1 = 0 := by
    cases lead : (letters.outline text).1 with
    | zero => rfl
    | succ lead' =>
        rw [lead, List.replicate_succ, List.cons_append] at whole
        exact absurd (by rw [whole]; rfl) tidy.front
  rw [front, List.replicate_zero, List.nil_append] at whole
  refine ⟨whole, ?_⟩
  rcases List.eq_nil_or_concat (letters.outline text).2 with none | ⟨entries, last, split⟩
  · exact Or.inl none
  · right
    have final : last.2 = 0 := by
      cases behind : last.2 with
      | zero => rfl
      | succ behind' =>
          refine absurd ?_ tidy.back
          rw [whole, split, List.concat_eq_append, List.flatMap_append, List.flatMap_singleton, behind,
            List.replicate_succ', ← List.append_assoc, ← List.append_assoc, List.getLast?_concat]
    rw [gaps, split, List.concat_eq_append, List.map_append, List.map_singleton, List.dropLast_concat, final]

theorem tidy_injective {first second : List α} (tidy : letters.Tidy first) (tidy' : letters.Tidy second)
    (words : letters.words first = letters.words second) (gaps : letters.gaps first = letters.gaps second) :
    first = second := by
  obtain ⟨whole, ends⟩ := tidy_eq tidy
  obtain ⟨whole', ends'⟩ := tidy_eq tidy'
  have sizes : (letters.outline first).2.length = (letters.outline second).2.length := by
    simpa [Lettering.words] using congrArg List.length words
  have counts : (letters.outline first).2.map Prod.snd = (letters.outline second).2.map Prod.snd := by
    rcases ends with none | last
    · have none' : (letters.outline second).2 = [] := List.eq_nil_of_length_eq_zero (by rw [← sizes, none]; rfl)
      rw [none, none']
    · rcases ends' with none' | last'
      · have none : (letters.outline first).2 = [] := List.eq_nil_of_length_eq_zero (by rw [sizes, none']; rfl)
        rw [none, none']
      · rw [last, last', gaps]
  have same : (letters.outline first).2 = (letters.outline second).2 :=
    (List.zip_of_prod words counts).trans (List.zip_of_prod rfl rfl).symm
  rw [whole, whole', same]

theorem words_squeeze (text : List α) : letters.words (letters.squeeze text) = letters.words text := by
  rw [words, words, outline_squeeze]

theorem gaps_squeeze (text : List α) : letters.gaps (letters.squeeze text) = letters.gaps text := by
  rw [gaps, gaps, outline_squeeze]

end Lettering

omit [DecidableEq α] in
theorem cut_injective {separator : α} {left left' rest rest' : List α} (absent : separator ∉ left)
    (absent' : separator ∉ left') (same : left ++ separator :: rest = left' ++ separator :: rest') :
    left = left' ∧ rest = rest' := by
  induction left generalizing left' with
  | nil =>
      cases left' with
      | nil => exact ⟨rfl, (List.cons.inj same).2⟩
      | cons first left' => exact absurd (by simp [(List.cons.inj same).1]) absent'
  | cons first left ih =>
      cases left' with
      | nil => exact absurd (by simp [(List.cons.inj same).1]) absent
      | cons first' left' =>
          obtain ⟨head, tail⟩ := List.cons.inj same
          obtain ⟨lefts, rests⟩ := ih (by simp_all) (by simp_all) tail
          exact ⟨by rw [head, lefts], rests⟩

end FlashNext.Data
