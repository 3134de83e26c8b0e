import FlashNext.Data.Words
import FlashNext.Ple.HostTable

namespace FlashNext.Ple

open FlashNext.Data

/-! `default_ple_table_dir` makes one directory name of the model path, and
`ple_table_file_name` one file name of the shape, the dtype and the tag.  Paths
are lists of characters. -/

/-- `[A-Za-z0-9.-]` makes words, and the underscore stands for what is not in
`[A-Za-z0-9._-]`. -/
def pathLetters : Lettering Char where
  word := fun value => value.isAlphanum || value = '.' || value = '-'
  mark := '_'
  wordless := by decide

/-- `os.path.join`. -/
def joinPath (directory name : List Char) : List Char :=
  if name.head? = some '/' then name
  else if directory = [] ∨ directory.getLast? = some '/' then directory ++ name
  else directory ++ '/' :: name

def safeName (modelPath : List Char) : List Char :=
  let safe := pathLetters.strip (pathLetters.squeeze (modelPath.rdropWhile (· = '/')))
  if safe = [] then ['m', 'o', 'd', 'e', 'l'] else safe

/-- `default_ple_table_dir`, `root` being `SGLANG_QWEN4_PLE_FILE_DIR`. -/
def defaultPleTableDir (root modelPath : List Char) : List Char := joinPath root (safeName modelPath)

/-- The dtypes of torch: `str(dtype)` without its `torch.`, and the element
size.  No name begins another one up to an underscore. -/
structure DtypeNames (δ : Type*) where
  name : δ → List Char
  elementSize : δ → Nat
  distinct : ∀ first second, name first ++ ['_'] <+: name second ++ ['_'] → first = second

section FileName

variable {δ : Type*} (names : DtypeNames δ)

/-- `"x".join(str(int(d)) for d in shape)`. -/
def dims (shape : List Nat) : List Char := ['x'].intercalate (shape.map (Nat.toDigits 10))

def tagSuffix (tag : Option (List Char)) : List Char :=
  match tag with
  | some (first :: rest) => '_' :: first :: rest
  | _ => []

/-- `ple_table_file_name`. -/
def pleTableFileName (shape : List Nat) (dtype : δ) (tag : Option (List Char)) : List Char :=
  ['p', 'l', 'e', '_', 't', 'a', 'b', 'l', 'e', '_'] ++ (dims shape ++ '_' :: (names.name dtype ++ '_' ::
    (Nat.toDigits 10 (shape.prod * names.elementSize dtype) ++ 'B' :: (tagSuffix tag ++ ['.', 'b', 'i', 'n']))))

/-- `os.path.expanduser`, `home` giving the home directories. -/
def expanduser (home : List Char → Option (List Char)) (path : List Char) : List Char :=
  if path.head? = some '~' then
    match home (path.tail.takeWhile (· ≠ '/')) with
    | none => path
    | some directory =>
        let full := directory.rdropWhile (· = '/') ++ path.tail.dropWhile (· ≠ '/')
        if full = [] then ['/'] else full
  else path

/-- The path of the table in `allocate_ple_host_table`, in the default directory. -/
def tablePath (home : List Char → Option (List Char)) (root modelPath : List Char) (shape : List Nat) (dtype : δ)
    (tag : Option (List Char)) : List Char :=
  joinPath (expanduser home (defaultPleTableDir root modelPath)) (pleTableFileName names shape dtype tag)

end FileName

theorem toDigits_injective : Function.Injective (Nat.toDigits 10) := by
  intro first second same
  have values := congrArg (Nat.ofDigitChars 10 · 0) same
  simpa only [Nat.ofDigitChars_ten_toDigits] using values

theorem not_mem_toDigits {value : Char} (letter : value.isDigit = false) (number : Nat) :
    value ∉ Nat.toDigits 10 number := by
  intro member
  have digit := Nat.isDigit_of_mem_toDigits (by decide) (by decide) member
  rw [letter] at digit
  cases digit

theorem splitOn_dims (first : Nat) (rest : List Nat) :
    (dims (first :: rest)).splitOn 'x' = (first :: rest).map (Nat.toDigits 10) := by
  apply List.splitOn_intercalate
  · intro part member
    obtain ⟨number, _, rfl⟩ := List.mem_map.mp member
    exact not_mem_toDigits rfl number
  · exact List.cons_ne_nil _ _

theorem dims_ne_nil (first : Nat) (rest : List Nat) : dims (first :: rest) ≠ [] := by
  intro none
  have parts := splitOn_dims first rest
  rw [none] at parts
  exact Nat.toDigits_ne_nil (List.cons.inj parts).1.symm

theorem dims_injective : Function.Injective dims := by
  intro shape shape' same
  cases shape with
  | nil =>
      cases shape' with
      | nil => rfl
      | cons first' rest' => exact absurd same.symm (dims_ne_nil first' rest')
  | cons first rest =>
      cases shape' with
      | nil => exact absurd same (dims_ne_nil first rest)
      | cons first' rest' =>
          have parts := congrArg (List.splitOn 'x') same
          rw [splitOn_dims, splitOn_dims] at parts
          exact List.map_injective_iff.mpr toDigits_injective parts

theorem underscore_not_mem_dims (shape : List Nat) : '_' ∉ dims shape := by
  induction shape with
  | nil => exact List.not_mem_nil
  | cons first rest ih =>
      cases rest with
      | nil =>
          rw [dims, List.map_singleton, List.intercalate_singleton]
          exact not_mem_toDigits rfl first
      | cons second rest =>
          rw [dims, List.map_cons, List.map_cons, List.intercalate_cons_cons, ← List.map_cons]
          intro member
          rcases List.mem_append.mp member with front | later
          · rcases List.mem_append.mp front with digit | separator
            · exact not_mem_toDigits rfl first digit
            · exact absurd separator (by decide)
          · exact ih later

section FileName

variable {δ : Type*} {names : DtypeNames δ} {shape shape' : List Nat} {dtype dtype' : δ} {tag tag' : List Char}

theorem tagSuffix_some (tagged : tag ≠ []) : tagSuffix (some tag) = '_' :: tag := by
  cases tag with
  | nil => exact absurd rfl tagged
  | cons first rest => rfl

/-- The shape, the dtype and the tag can be read off a file name. -/
theorem pleTableFileName_injective (tagged : tag ≠ []) (tagged' : tag' ≠ [])
    (same : pleTableFileName names shape dtype (some tag) = pleTableFileName names shape' dtype' (some tag')) :
    shape = shape' ∧ dtype = dtype' ∧ tag = tag' := by
  rw [pleTableFileName, pleTableFileName, tagSuffix_some tagged, tagSuffix_some tagged'] at same
  obtain ⟨shapes, rest⟩ := cut_injective (underscore_not_mem_dims _) (underscore_not_mem_dims _)
    (List.append_cancel_left same)
  have shapes := dims_injective shapes
  subst shapes
  have dtypes : dtype = dtype' := by
    rw [List.append_cons, List.append_cons (names.name dtype')] at rest
    rcases List.prefix_or_prefix_of_prefix (List.prefix_append _ _) (rest ▸ List.prefix_append _ _) with before | after
    · exact (names.distinct _ _ before).symm
    · exact names.distinct _ _ after
  subst dtypes
  have tails := (List.cons.inj (List.append_cancel_left (List.cons.inj (List.append_cancel_left rest)).2)).2
  exact ⟨rfl, rfl, List.append_cancel_right (List.cons.inj tails).2⟩

end FileName

/-- The words of a model path, `model` where it has none. -/
def directoryWords (modelPath : List Char) : List (List Char) :=
  if pathLetters.words modelPath = [] then [['m', 'o', 'd', 'e', 'l']] else pathLetters.words modelPath

/-- Two model paths with the same words, as many separators between them. -/
def SameDirectory (modelPath modelPath' : List Char) : Prop :=
  directoryWords modelPath = directoryWords modelPath' ∧ pathLetters.gaps modelPath = pathLetters.gaps modelPath'

instance (modelPath modelPath' : List Char) : Decidable (SameDirectory modelPath modelPath') :=
  inferInstanceAs (Decidable (_ ∧ _))

theorem safeName_ne_nil (modelPath : List Char) : safeName modelPath ≠ [] := by
  rw [safeName]
  split
  · exact List.cons_ne_nil _ _
  · assumption

theorem outline_rstrip (modelPath : List Char) :
    pathLetters.words (modelPath.rdropWhile (· = '/')) = pathLetters.words modelPath ∧
      pathLetters.gaps (modelPath.rdropWhile (· = '/')) = pathLetters.gaps modelPath := by
  have slashes : ∀ value ∈ modelPath.rtakeWhile (· = '/'), pathLetters.word value = false := by
    intro value member
    have slash := @List.mem_rtakeWhile_imp _ _ _ _ member
    rw [of_decide_eq_true slash]
    rfl
  have whole : modelPath.rdropWhile (· = '/') ++ modelPath.rtakeWhile (· = '/') = modelPath :=
    List.rdropWhile_append_rtakeWhile
  have words := Lettering.words_append slashes (modelPath.rdropWhile (· = '/'))
  have gaps := Lettering.gaps_append slashes (modelPath.rdropWhile (· = '/'))
  rw [whole] at words gaps
  exact ⟨words.symm, gaps.symm⟩

theorem safeName_spec (modelPath : List Char) : pathLetters.Tidy (safeName modelPath) ∧
    pathLetters.words (safeName modelPath) = directoryWords modelPath ∧
      pathLetters.gaps (safeName modelPath) = pathLetters.gaps modelPath := by
  have words := (Lettering.words_strip _).trans ((Lettering.words_squeeze _).trans (outline_rstrip modelPath).1)
  have gaps := (Lettering.gaps_strip _).trans ((Lettering.gaps_squeeze _).trans (outline_rstrip modelPath).2)
  have tidy := Lettering.tidy_strip (@Lettering.squeeze_plain _ _ pathLetters (modelPath.rdropWhile (· = '/')))
  rw [safeName, directoryWords]
  by_cases none : pathLetters.strip (pathLetters.squeeze (modelPath.rdropWhile (· = '/'))) = []
  · rw [none] at words gaps
    have wordless : pathLetters.words modelPath = [] := words.symm
    rw [if_pos none, if_pos wordless]
    exact ⟨⟨by simp [pathLetters, Lettering.other], by decide, by decide⟩, rfl, gaps⟩
  · have wordy : pathLetters.words modelPath ≠ [] := by
      intro empty
      have gapless : pathLetters.gaps modelPath = [] := by
        rw [Lettering.gaps, List.map_eq_nil_iff.mp empty]
        rfl
      exact none (Lettering.tidy_injective tidy ⟨List.forall_mem_nil _, by decide, by decide⟩
        (words.trans empty) (gaps.trans gapless))
    rw [if_neg none, if_neg wordy]
    exact ⟨tidy, words, gaps⟩

theorem safeName_eq_iff (modelPath modelPath' : List Char) :
    safeName modelPath = safeName modelPath' ↔ SameDirectory modelPath modelPath' := by
  obtain ⟨tidy, words, gaps⟩ := safeName_spec modelPath
  obtain ⟨tidy', words', gaps'⟩ := safeName_spec modelPath'
  rw [SameDirectory, ← words, ← words', ← gaps, ← gaps']
  constructor
  · intro same
    rw [same]
    exact ⟨rfl, rfl⟩
  · intro holds
    obtain ⟨sameWords, sameGaps⟩ := holds
    exact Lettering.tidy_injective tidy tidy' sameWords sameGaps

theorem not_mem_safeName {value : Char} (outside : pathLetters.other value = true) (modelPath : List Char) :
    value ∉ safeName modelPath := by
  intro member
  have plain := (safeName_spec modelPath).1.plain value member
  rw [outside] at plain
  cases plain

theorem takeWhile_append_of_mem {keep : Char → Bool} {text : List Char} {stop : Char} (member : stop ∈ text)
    (stops : keep stop = false) (more : List Char) :
    (text ++ more).takeWhile keep = text.takeWhile keep ∧ (text ++ more).dropWhile keep = text.dropWhile keep ++ more := by
  have halted : text.dropWhile keep ≠ [] := by
    intro none
    have kept := List.dropWhile_eq_nil_iff.mp none stop member
    rw [stops] at kept
    cases kept
  have whole := congrArg List.length (@List.takeWhile_append_dropWhile _ keep text)
  rw [List.length_append] at whole
  have short : (text.takeWhile keep).length ≠ text.length := by
    have positive := List.length_pos_of_ne_nil halted
    omega
  rw [List.takeWhile_append, if_neg short, List.dropWhile_append, if_neg (by simpa using halted)]
  exact ⟨rfl, rfl⟩

theorem expanduser_append (home : List Char → Option (List Char)) {base : List Char} (slash : base.getLast? = some '/') :
    ∃ front, ∀ name ≠ [], expanduser home (base ++ name) = front ++ name := by
  cases base with
  | nil => cases slash
  | cons first rest =>
      by_cases tilde : first = '~'
      · subst tilde
        have inside : '/' ∈ rest := by
          cases rest with
          | nil => exact absurd slash (by decide)
          | cons second rest => exact List.mem_of_getLast? (by rwa [List.getLast?_cons_cons] at slash)
        have cut (name : List Char) := @takeWhile_append_of_mem (· ≠ '/') rest '/' inside (by decide) name
        cases found : home (rest.takeWhile (· ≠ '/')) with
        | none =>
            refine ⟨'~' :: rest, ?_⟩
            intro name _
            rw [expanduser, List.cons_append, List.head?_cons, if_pos rfl, List.tail_cons, (cut name).1, found]
        | some directory =>
            refine ⟨directory.rdropWhile (· = '/') ++ rest.dropWhile (· ≠ '/'), ?_⟩
            intro name some_
            rw [expanduser, List.cons_append, List.head?_cons, if_pos rfl, List.tail_cons, (cut name).1, (cut name).2,
              found]
            simp [some_]
      · refine ⟨first :: rest, ?_⟩
        intro name _
        rw [expanduser, List.cons_append, List.head?_cons, if_neg (by simpa using tilde)]

theorem expanduser_defaultPleTableDir (home : List Char → Option (List Char)) (root : List Char) :
    ∃ front, ∀ modelPath, expanduser home (defaultPleTableDir root modelPath) = front ++ safeName modelPath := by
  have relative (modelPath : List Char) {value : Char} (outside : pathLetters.other value = true) :
      (safeName modelPath).head? ≠ some value :=
    fun first => not_mem_safeName outside modelPath (List.mem_of_mem_head? first)
  by_cases empty : root = []
  · refine ⟨[], ?_⟩
    intro modelPath
    rw [defaultPleTableDir, joinPath, if_neg (relative modelPath rfl), if_pos (Or.inl empty), empty, List.nil_append,
      expanduser, if_neg (relative modelPath rfl)]
  · by_cases slash : root.getLast? = some '/'
    · obtain ⟨front, expanded⟩ := expanduser_append home slash
      refine ⟨front, ?_⟩
      intro modelPath
      rw [defaultPleTableDir, joinPath, if_neg (relative modelPath rfl), if_pos (Or.inr slash),
        expanded _ (safeName_ne_nil modelPath)]
    · have ending : (root ++ ['/']).getLast? = some '/' := List.getLast?_concat
      obtain ⟨front, expanded⟩ := expanduser_append home ending
      refine ⟨front, ?_⟩
      intro modelPath
      rw [defaultPleTableDir, joinPath, if_neg (relative modelPath rfl), if_neg (not_or.mpr ⟨empty, slash⟩),
        List.append_cons, expanded _ (safeName_ne_nil modelPath)]

theorem joinPath_safeName (front : List Char) (modelPath : List Char) {name : List Char} (relative : name.head? = some 'p') :
    joinPath (front ++ safeName modelPath) name = front ++ (safeName modelPath ++ '/' :: name) := by
  have last : (front ++ safeName modelPath).getLast? ≠ some '/' := by
    rw [List.getLast?_append_of_ne_nil _ (safeName_ne_nil modelPath)]
    intro slash
    exact not_mem_safeName rfl modelPath (List.mem_of_getLast? slash)
  have some_ : front ++ safeName modelPath ≠ [] := by simp [safeName_ne_nil]
  rw [joinPath, if_neg (by simp [relative]), if_neg (by simp only [some_, last, or_self, not_false_eq_true]),
    List.append_assoc]

/-- Two tables have different files exactly when their shape, dtype or tag
differ, or the words of their model paths, or the separators between these. -/
theorem tablePath_ne_iff {δ : Type*} (names : DtypeNames δ) (home : List Char → Option (List Char))
    (root modelPath modelPath' : List Char) (shape shape' : List Nat) (dtype dtype' : δ) {tag tag' : List Char}
    (tagged : tag ≠ []) (tagged' : tag' ≠ []) :
    tablePath names home root modelPath shape dtype (some tag) ≠
        tablePath names home root modelPath' shape' dtype' (some tag') ↔
      (shape, dtype, tag) ≠ (shape', dtype', tag') ∨ ¬SameDirectory modelPath modelPath' := by
  obtain ⟨front, expanded⟩ := expanduser_defaultPleTableDir home root
  rw [tablePath, tablePath, expanded, expanded, joinPath_safeName front modelPath rfl,
    joinPath_safeName front modelPath' rfl, ← not_and_or, not_iff_not]
  constructor
  · intro same
    obtain ⟨directories, files⟩ := cut_injective (not_mem_safeName rfl modelPath) (not_mem_safeName rfl modelPath')
      (List.append_cancel_left same)
    obtain ⟨rfl, rfl, rfl⟩ := pleTableFileName_injective tagged tagged' files
    exact ⟨rfl, (safeName_eq_iff modelPath modelPath').mp directories⟩
  · intro holds
    obtain ⟨triples, directories⟩ := holds
    cases triples
    rw [(safeName_eq_iff modelPath modelPath').mpr directories]

/-- A path that `os.path.normpath` leaves as it is, from the root. -/
def NormalAbsolute (path : List Char) : Prop :=
  path.head? = some '/' ∧ (path.tail = [] ∨ ∀ part ∈ path.tail.splitOn '/', part ∉ [[], ['.'], ['.', '.']])

instance (path : List Char) : Decidable (NormalAbsolute path) := inferInstanceAs (Decidable (_ ∧ _))

/-- `str(dtype).replace('torch.', '')`. -/
def TableDtype.name : TableDtype → List Char
  | .bfloat16 => ['b', 'f', 'l', 'o', 'a', 't', '1', '6']
  | .float8_e4m3fn => ['f', 'l', 'o', 'a', 't', '8', '_', 'e', '4', 'm', '3', 'f', 'n']
  | .float16 => ['f', 'l', 'o', 'a', 't', '1', '6']
  | .float32 => ['f', 'l', 'o', 'a', 't', '3', '2']

theorem TableDtype.name_distinct (first second : TableDtype) (before : first.name ++ ['_'] <+: second.name ++ ['_']) :
    first = second := by
  revert before
  cases first <;> cases second <;> decide

def tableDtypes : DtypeNames TableDtype where
  name := TableDtype.name
  elementSize := TableDtype.elementSize
  distinct := TableDtype.name_distinct

theorem directories_shared : NormalAbsolute ['/', 'a', '/', 'b'] ∧ NormalAbsolute ['/', 'a', '_', 'b'] ∧
    ['/', 'a', '/', 'b'] ≠ ['/', 'a', '_', 'b'] ∧
    tablePath tableDtypes (fun _ => none) ['/', 'p', 'l', 'e'] ['/', 'a', '/', 'b'] [8, 4] .bfloat16 (some ['r']) =
      tablePath tableDtypes (fun _ => none) ['/', 'p', 'l', 'e'] ['/', 'a', '_', 'b'] [8, 4] .bfloat16 (some ['r']) := by
  refine ⟨by decide, by decide, by decide, ?_⟩
  rw [tablePath, tablePath, defaultPleTableDir, defaultPleTableDir,
    (safeName_eq_iff ['/', 'a', '/', 'b'] ['/', 'a', '_', 'b']).mpr ⟨by decide, by decide⟩]

/-- The words of `/a/b` and `/ab` differ. -/
theorem directories_differ : tablePath tableDtypes (fun _ => none) ['/', 'p', 'l', 'e'] ['/', 'a', '/', 'b'] [8, 4]
    .bfloat16 (some ['r']) ≠ tablePath tableDtypes (fun _ => none) ['/', 'p', 'l', 'e'] ['/', 'a', 'b'] [8, 4]
      .bfloat16 (some ['r']) :=
  (tablePath_ne_iff tableDtypes _ _ _ _ _ _ _ _ (by decide) (by decide)).mpr (Or.inr (by decide))

end FlashNext.Ple
