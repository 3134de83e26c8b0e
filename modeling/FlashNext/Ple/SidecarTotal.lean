import FlashNext.Ple.HostTable

namespace FlashNext.Ple

open FlashNext.Data Json

/-- The content records a table, every field of it under its name and as a
value of its own kind. -/
structure Exact (fields : List (String × Json)) (identity : Identity) : Prop where
  bytes : ∃ value, Dict.find "table_bytes" fields = some value ∧ value.eqInt identity.bytes = true
  shape : ∃ items, Dict.find "table_shape" fields = some (.arr items) ∧
    eqInts items (identity.shape.map Nat.cast) = true
  dtype : Dict.find "table_dtype" fields = some (.str identity.dtype)
  path : Dict.find "model_path" fields = some (.str identity.realPath)
  sources : ∃ recorded, Dict.find "sources" fields = some (.obj recorded) ∧
    (∀ name, name ∈ recorded.map Prod.fst ↔ name ∈ identity.sources.keys) ∧
    ∀ name stat, identity.sources.get? name = some stat →
      ∃ items, Dict.find name recorded = some (.arr items) ∧ eqInts items stat.tuple = true

/-- The file is an object that records the table, and the table file has its size. -/
def Matches (realpath : RealPath) (args : SidecarArgs) (tableSize : Option Nat) (file : SidecarFile) : Prop :=
  tableSize = some args.expectedBytes ∧ ∃ fields, file = some (.ok (.obj fields)) ∧
    ∃ real, realpath args.modelPath = .ok real ∧ Exact fields (args.identity real)

/-- The checks before that of the model path pass. -/
structure Shaped (fields : List (String × Json)) (args : SidecarArgs) : Prop where
  bytes : (field fields "table_bytes" .null).eqInt args.expectedBytes = true
  shape : ∃ items, (field fields "table_shape" (.arr [])).tuple = .ok items ∧
    eqInts items (args.tableShape.map Nat.cast) = true
  dtype : field fields "table_dtype" .null = .str args.tableDtype

/-- Every check before that of the sources passes. -/
structure Reached (realpath : RealPath) (fields : List (String × Json)) (args : SidecarArgs) (tableSize : Option Nat) : Prop where
  shaped : Shaped fields args
  path : ∃ real, realpath args.modelPath = .ok real ∧ field fields "model_path" .null = .str real
  size : tableSize = some args.expectedBytes

def Recorded (recorded : Json) (entry : String × FileStat) : Prop :=
  ∃ items, recorded.getItems entry.1 = .ok items ∧ eqInts items entry.2.tuple = true

/-- The contents that the validator does not judge. -/
inductive Misread (realpath : RealPath) (args : SidecarArgs) (tableSize : Option Nat) : SidecarFile → Prop where
  /-- `json.load` raises something else than an `OSError` or a `ValueError`. -/
  | load {error : PyError} : error ≠ .osError → error ≠ .valueError → Misread realpath args tableSize (some (.error error))
  /-- `tuple()` of the shape. -/
  | shape {fields : List (String × Json)} {error : PyError} :
      (field fields "table_bytes" .null).eqInt args.expectedBytes = true →
      (field fields "table_shape" (.arr [])).tuple = .error error → Misread realpath args tableSize (some (.ok (.obj fields)))
  /-- `os.path.realpath()` of the model path. -/
  | path {fields : List (String × Json)} {error : PyError} : Shaped fields args → realpath args.modelPath = .error error →
      Misread realpath args tableSize (some (.ok (.obj fields)))
  /-- `set()` of the sources. -/
  | sources {fields : List (String × Json)} {error : PyError} : Reached realpath fields args tableSize →
      (field fields "sources" (.obj [])).set = .error error → Misread realpath args tableSize (some (.ok (.obj fields)))
  /-- `get()` or `tuple()` of a source, the ones before it being recorded. -/
  | source {fields : List (String × Json)} {names : List Json} {before after : List (String × FileStat)}
      {entry : String × FileStat} {error : PyError} : Reached realpath fields args tableSize →
      (field fields "sources" (.obj [])).set = .ok names → sameSet names args.sourceFingerprints.keys = true →
      args.sourceFingerprints.entries = before ++ entry :: after →
      (∀ earlier ∈ before, Recorded (field fields "sources" (.obj [])) earlier) →
      (field fields "sources" (.obj [])).getItems entry.1 = .error error →
      Misread realpath args tableSize (some (.ok (.obj fields)))
  /-- No shape is expected, and none is recorded as a list. -/
  | emptyShape {fields : List (String × Json)} {real : String} : tableSize = some args.expectedBytes →
      realpath args.modelPath = .ok real → Records fields (args.identity real) →
      args.tableShape = [] → (∀ items, Dict.find "table_shape" fields ≠ some (.arr items)) →
      Misread realpath args tableSize (some (.ok (.obj fields)))
  /-- No sources are expected, and none are recorded as an object. -/
  | emptySources {fields : List (String × Json)} {real : String} : tableSize = some args.expectedBytes →
      realpath args.modelPath = .ok real → Records fields (args.identity real) →
      args.sourceFingerprints.entries = [] → (∀ recorded, Dict.find "sources" fields ≠ some (.obj recorded)) →
      Misread realpath args tableSize (some (.ok (.obj fields)))

variable {realpath : RealPath} {args : SidecarArgs} {identity : Identity} {tableSize : Option Nat}
  {fields : List (String × Json)} {file : SidecarFile}

theorem guard_eq_error {reject : Prop} [Decidable reject] {rest : Except PyError Bool} {error : PyError} :
    (if reject then pure false else rest) = .error error ↔ ¬ reject ∧ rest = .error error := by
  by_cases reject <;> simp [*, pure, Except.pure]

theorem bind_eq_error {α β : Type} {value : Except PyError α} {rest : α → Except PyError β} {error : PyError} :
    value >>= rest = .error error ↔ value = .error error ∨ ∃ item, value = .ok item ∧ rest item = .error error := by
  cases value <;> simp [bind, Except.bind]

theorem sourcesMatch_error_iff {recorded : Json} {entries : List (String × FileStat)} {error : PyError} :
    sourcesMatch recorded entries = .error error ↔ ∃ before entry after, entries = before ++ entry :: after ∧
      (∀ earlier ∈ before, Recorded recorded earlier) ∧ recorded.getItems entry.1 = .error error := by
  induction entries with
  | nil => simp [sourcesMatch]
  | cons entry rest ih =>
      obtain ⟨name, stat⟩ := entry
      rw [sourcesMatch, bind_eq_error]
      constructor
      · intro cases_
        rcases cases_ with here | ⟨items, found, later⟩
        · exact ⟨[], (name, stat), rest, rfl, List.forall_mem_nil _, here⟩
        · split at later
          · next same =>
              obtain ⟨before, entry, after, split, matched, failed⟩ := ih.mp later
              exact ⟨(name, stat) :: before, entry, after, by rw [split]; rfl,
                List.forall_mem_cons.mpr ⟨⟨items, found, same⟩, matched⟩, failed⟩
          · cases later
      · intro holds
        obtain ⟨before, entry, after, split, matched, failed⟩ := holds
        cases before with
        | nil =>
            obtain ⟨rfl, _⟩ := List.cons.inj split
            exact Or.inl failed
        | cons first before =>
            obtain ⟨rfl, tail⟩ := List.cons.inj split
            obtain ⟨⟨items, found, same⟩, later⟩ := List.forall_mem_cons.mp matched
            exact Or.inr ⟨items, found, by rw [if_pos same]; exact ih.mpr ⟨before, entry, after, tail, later, failed⟩⟩

theorem fieldsValid_error_iff {error : PyError} :
    fieldsValid realpath args tableSize fields = .error error ↔
      ((field fields "table_bytes" .null).eqInt args.expectedBytes = true ∧
        (field fields "table_shape" (.arr [])).tuple = .error error) ∨
      (Shaped fields args ∧ realpath args.modelPath = .error error) ∨
      (Reached realpath fields args tableSize ∧
        ((field fields "sources" (.obj [])).set = .error error ∨ ∃ names,
          (field fields "sources" (.obj [])).set = .ok names ∧ sameSet names args.sourceFingerprints.keys = true ∧
            sourcesMatch (field fields "sources" (.obj [])) args.sourceFingerprints.entries = .error error)) := by
  simp only [fieldsValid, guard_eq_error, bind_eq_error, Bool.not_eq_true, Bool.not_eq_false', eqStr_iff, ne_eq, not_not]
  constructor
  · intro holds
    obtain ⟨bytes, failed | ⟨items, tuple, shape, dtype, unresolved | ⟨real, resolved, path, size, rest⟩⟩⟩ := holds
    · exact Or.inl ⟨bytes, failed⟩
    · exact Or.inr (Or.inl ⟨⟨bytes, ⟨items, tuple, shape⟩, dtype⟩, unresolved⟩)
    · exact Or.inr (Or.inr ⟨⟨⟨bytes, ⟨items, tuple, shape⟩, dtype⟩, ⟨real, resolved, path⟩, size⟩, rest⟩)
  · intro cases_
    rcases cases_ with ⟨bytes, failed⟩ | ⟨shaped, unresolved⟩ | ⟨reached, rest⟩
    · exact ⟨bytes, Or.inl failed⟩
    · obtain ⟨items, tuple, shape⟩ := shaped.shape
      exact ⟨shaped.bytes, Or.inr ⟨items, tuple, shape, shaped.dtype, Or.inl unresolved⟩⟩
    · obtain ⟨items, tuple, shape⟩ := reached.shaped.shape
      obtain ⟨real, resolved, path⟩ := reached.path
      exact ⟨reached.shaped.bytes, Or.inr ⟨items, tuple, shape, reached.shaped.dtype,
        Or.inr ⟨real, resolved, path, reached.size, rest⟩⟩⟩

theorem eqInts_length {items : List Json} {numbers : List Int} (same : eqInts items numbers = true) :
    items.length = numbers.length := by
  induction items generalizing numbers with
  | nil =>
      cases numbers with
      | nil => rfl
      | cons number numbers => cases same
  | cons item items ih =>
      cases numbers with
      | nil => cases same
      | cons number numbers => rw [List.length_cons, List.length_cons, ih (Bool.and_eq_true_iff.mp same).2]

theorem eqInts_strs {texts : List String} {numbers : List Int} (same : eqInts (texts.map .str) numbers = true) :
    numbers = [] := by
  cases texts with
  | nil => exact List.eq_nil_of_length_eq_zero (eqInts_length same).symm
  | cons text texts =>
      cases numbers with
      | nil => rfl
      | cons number numbers => cases (Bool.and_eq_true_iff.mp same).1

theorem tuple_numbers {value : Json} {items : List Json} {numbers : List Int} (read : value.tuple = .ok items)
    (same : eqInts items numbers = true) : value = .arr items ∨ numbers = [] := by
  cases value with
  | arr elements =>
      cases read
      exact Or.inl rfl
  | str text =>
      cases read
      exact Or.inr (eqInts_strs (List.map_map .. ▸ same))
  | obj entries =>
      cases read
      exact Or.inr (eqInts_strs (List.map_map .. ▸ same))
  | null | bool _ | int _ | float _ => cases read

theorem field_eq {name : String} {default value : Json} (found : Dict.find name fields = some value) :
    field fields name default = value := by
  rw [field, found, Option.getD_some]

theorem exact_records (exact_ : Exact fields identity) : Records fields identity := by
  obtain ⟨bytes, foundBytes, sameBytes⟩ := exact_.bytes
  obtain ⟨items, foundShape, sameShape⟩ := exact_.shape
  obtain ⟨recorded, foundSources, names, stats⟩ := exact_.sources
  refine ⟨?_, ⟨items, ?_, sameShape⟩, field_eq exact_.dtype, field_eq exact_.path, ?_, ?_⟩
  · rw [field_eq foundBytes, sameBytes]
  · rw [field_eq foundShape]
    rfl
  · rw [field_eq foundSources]
    refine ⟨_, set_obj recorded, ?_⟩
    rw [← Function.comp_def, ← List.map_map, sameSet_names]
    exact names
  · intro name stat known
    obtain ⟨items, found, same⟩ := stats name stat known
    refine ⟨items, ?_, same⟩
    rw [field_eq foundSources, getItems, field_eq found]
    rfl

theorem find_of_field {name : String} {default value : Json} (looked : field fields name default = value)
    (other : default ≠ value) : Dict.find name fields = some value := by
  rw [field] at looked
  cases found : Dict.find name fields with
  | none =>
      rw [found] at looked
      exact absurd looked other
  | some stored =>
      rw [found] at looked
      exact congrArg some looked

theorem records_exact (records : Records fields identity)
    (shaped : ∃ items, Dict.find "table_shape" fields = some (.arr items))
    (sourced : ∃ recorded, Dict.find "sources" fields = some (.obj recorded)) : Exact fields identity := by
  obtain ⟨items, foundShape⟩ := shaped
  obtain ⟨recorded, foundSources⟩ := sourced
  obtain ⟨shapeItems, tuple, sameShape⟩ := records.shape
  obtain ⟨names, set, sameNames⟩ := records.names
  have bytes := records.bytes
  rw [field_eq foundShape] at tuple
  rw [field_eq foundSources, set_obj] at set
  cases tuple
  cases set
  refine ⟨?_, ⟨items, foundShape, sameShape⟩, find_of_field records.dtype (by simp), find_of_field records.path (by simp),
    recorded, foundSources, ?_, ?_⟩
  · cases found : Dict.find "table_bytes" fields with
    | none =>
        rw [field, found] at bytes
        cases bytes
    | some value => exact ⟨value, rfl, field_eq found ▸ bytes⟩
  · rw [← Function.comp_def, ← List.map_map] at sameNames
    exact (sameSet_names _ _).mp sameNames
  · intro name stat known
    obtain ⟨items, read, same⟩ := records.stats name stat known
    rw [field_eq foundSources, getItems] at read
    have array := (tuple_numbers read same).resolve_right (by simp [FileStat.tuple])
    refine ⟨items, find_of_field array ?_, same⟩
    intro empty
    cases empty
    cases same

theorem shape_nil (records : Records fields identity)
    (unshaped : ∀ items, Dict.find "table_shape" fields ≠ some (.arr items)) : identity.shape = [] := by
  obtain ⟨items, tuple, same⟩ := records.shape
  have numbers : identity.shape.map (Nat.cast : Nat → Int) = [] := by
    cases found : Dict.find "table_shape" fields with
    | none =>
        rw [field, found] at tuple
        cases tuple
        exact List.eq_nil_of_length_eq_zero (eqInts_length same).symm
    | some value =>
        rw [field_eq found] at tuple
        refine (tuple_numbers tuple same).resolve_left ?_
        intro equal
        subst equal
        exact unshaped items found
  exact List.map_eq_nil_iff.mp numbers

theorem sources_nil (records : Records fields identity)
    (unsourced : ∀ recorded, Dict.find "sources" fields ≠ some (.obj recorded)) : identity.sources.entries = [] := by
  cases known : identity.sources.entries with
  | nil => rfl
  | cons entry rest =>
      obtain ⟨items, read, same⟩ := records.stats entry.1 entry.2
        (Dict.mem_entries_iff.mp (known ▸ List.mem_cons_self))
      cases found : Dict.find "sources" fields with
      | none =>
          rw [field, found] at read
          cases read
          cases same
      | some value =>
          rw [field_eq found] at read
          cases value with
          | obj recorded => exact absurd found (unsourced recorded)
          | null | bool _ | int _ | float _ | str _ | arr _ => cases read

/-- What is accepted without being recorded exactly is an absent list or an
absent object of nothing. -/
theorem hollow_cases (records : Records fields identity) (inexact : ¬Exact fields identity) :
    (identity.shape = [] ∧ ∀ items, Dict.find "table_shape" fields ≠ some (.arr items)) ∨
      (identity.sources.entries = [] ∧ ∀ recorded, Dict.find "sources" fields ≠ some (.obj recorded)) := by
  by_cases shaped : ∃ items, Dict.find "table_shape" fields = some (.arr items)
  · have unsourced : ∀ recorded, Dict.find "sources" fields ≠ some (.obj recorded) :=
      fun recorded found => inexact (records_exact records shaped ⟨recorded, found⟩)
    exact Or.inr ⟨sources_nil records unsourced, unsourced⟩
  · have unshaped := not_exists.mp shaped
    exact Or.inl ⟨shape_nil records unshaped, unshaped⟩

theorem raises_misread {error : PyError} (raised : pleSidecarIsValid realpath args tableSize file = .error error) :
    Misread realpath args tableSize file := by
  cases file with
  | none => cases raised
  | some loaded =>
      cases loaded with
      | error failed =>
          cases failed with
          | osError | valueError => cases raised
          | typeError | attributeError | recursionError => exact .load (by decide) (by decide)
      | ok value =>
          cases value with
          | obj fields =>
              rcases fieldsValid_error_iff.mp raised with
                ⟨bytes, shape⟩ | ⟨shaped, unresolved⟩ | ⟨reached, set | ⟨names, set, same, loop⟩⟩
              · exact .shape bytes shape
              · exact .path shaped unresolved
              · exact .sources reached set
              · obtain ⟨before, entry, after, split, recorded, failed⟩ := sourcesMatch_error_iff.mp loop
                exact .source reached set same split recorded failed
          | null | bool _ | int _ | float _ | str _ | arr _ => cases raised

/-- What is misread is an exception, or accepted though it does not match. -/
theorem Misread.outcome (misread : Misread realpath args tableSize file) :
    (∃ error, pleSidecarIsValid realpath args tableSize file = .error error) ∨
      (pleSidecarIsValid realpath args tableSize file = .ok true ∧ ¬Matches realpath args tableSize file) := by
  cases misread with
  | @load error notOs notValue =>
      left
      cases error with
      | osError => exact absurd rfl notOs
      | valueError => exact absurd rfl notValue
      | typeError | attributeError | recursionError => exact ⟨_, rfl⟩
  | shape bytes failed => exact Or.inl ⟨_, fieldsValid_error_iff.mpr (Or.inl ⟨bytes, failed⟩)⟩
  | path shaped unresolved => exact Or.inl ⟨_, fieldsValid_error_iff.mpr (Or.inr (Or.inl ⟨shaped, unresolved⟩))⟩
  | sources reached failed => exact Or.inl ⟨_, fieldsValid_error_iff.mpr (Or.inr (Or.inr ⟨reached, Or.inl failed⟩))⟩
  | source reached set same split recorded failed =>
      exact Or.inl ⟨_, fieldsValid_error_iff.mpr (Or.inr (Or.inr ⟨reached, Or.inr ⟨_, set, same,
        sourcesMatch_error_iff.mpr ⟨_, _, _, split, recorded, failed⟩⟩⟩))⟩
  | emptyShape size resolved records _ unshaped =>
      refine Or.inr ⟨pleSidecarIsValid_iff.mpr ⟨_, resolved, size, _, rfl, records⟩, ?_⟩
      intro holds
      obtain ⟨_, fields, same, _, _, exact_⟩ := holds
      cases same
      obtain ⟨items, found, _⟩ := exact_.shape
      exact unshaped items found
  | emptySources size resolved records _ unsourced =>
      refine Or.inr ⟨pleSidecarIsValid_iff.mpr ⟨_, resolved, size, _, rfl, records⟩, ?_⟩
      intro holds
      obtain ⟨_, fields, same, _, _, exact_⟩ := holds
      cases same
      obtain ⟨recorded, found, _⟩ := exact_.sources
      exact unsourced recorded found

theorem matches_valid (matched : Matches realpath args tableSize file) :
    pleSidecarIsValid realpath args tableSize file = .ok true := by
  obtain ⟨size, fields, rfl, real, resolved, exact_⟩ := matched
  exact pleSidecarIsValid_iff.mpr ⟨real, resolved, size, fields, rfl, exact_records exact_⟩

theorem valid_matches (read : ¬Misread realpath args tableSize file)
    (valid : pleSidecarIsValid realpath args tableSize file = .ok true) : Matches realpath args tableSize file := by
  obtain ⟨real, resolved, size, fields, rfl, records⟩ := pleSidecarIsValid_iff.mp valid
  refine ⟨size, fields, rfl, real, resolved, ?_⟩
  by_contra inexact
  rcases hollow_cases records inexact with ⟨empty, unshaped⟩ | ⟨empty, unsourced⟩
  · exact read (.emptyShape size resolved records empty unshaped)
  · exact read (.emptySources size resolved records empty unsourced)

theorem skipIfValid_raises {embedding : Embedding} {checkpoint : Checkpoint} {dir : TableDir} {modelPath : String}
    {sources : Dict String FileStat} {error : PyError} (path : checkpoint.modelPath = .ok modelPath)
    (stats : checkpoint.fingerprint = .ok sources) (some_ : sources.entries ≠ [])
    (raised : pleSidecarIsValid (fun _ => .ok checkpoint.realPath) (Checkpoint.args embedding sources modelPath)
      (fileSize dir.table) dir.sidecar = .error error) :
    skipIfValid embedding checkpoint dir = (false, none) := by
  simp only [skipIfValid, path, stats, some_, raised, if_false, ite_self]

theorem judges_iff : (∃ valid, pleSidecarIsValid realpath args tableSize file = .ok valid ∧
    (valid = true ↔ Matches realpath args tableSize file)) ↔ ¬Misread realpath args tableSize file := by
  constructor
  · intro holds misread
    obtain ⟨valid, returned, exact_⟩ := holds
    rcases misread.outcome with ⟨error, raised⟩ | ⟨accepted, unmatched⟩
    · rw [returned] at raised
      cases raised
    · rw [returned] at accepted
      exact unmatched (exact_.mp (Except.ok.inj accepted))
  · intro read
    cases outcome : pleSidecarIsValid realpath args tableSize file with
    | error error => exact absurd (raises_misread outcome) read
    | ok valid =>
        refine ⟨valid, rfl, ?_, ?_⟩
        · intro equal
          subst equal
          exact valid_matches read outcome
        · intro matched
          exact Except.ok.inj (outcome.symm.trans (matches_valid matched))

section Written

variable {written : SidecarArgs} {real sealedAt : String}

/-- Equal arguments: Python compares the fingerprints as dictionaries. -/
structure SidecarArgs.Equals (left right : SidecarArgs) : Prop where
  expectedBytes : left.expectedBytes = right.expectedBytes
  tableShape : left.tableShape = right.tableShape
  tableDtype : left.tableDtype = right.tableDtype
  sourceFingerprints : ∀ name, left.sourceFingerprints.get? name = right.sourceFingerprints.get? name
  modelPath : left.modelPath = right.modelPath

/-- What was written has the expected size, shape and dtype, and the expected path does
not resolve; or all else agrees too, and another path resolves to the same. -/
structure Confused (realpath : RealPath) (written args : SidecarArgs) (tableSize : Option Nat) : Prop where
  resolved : ∃ real, realpath written.modelPath = .ok real
  expectedBytes : written.expectedBytes = args.expectedBytes
  tableShape : written.tableShape = args.tableShape
  tableDtype : written.tableDtype = args.tableDtype
  path : (∃ error, realpath args.modelPath = .error error) ∨
    written.modelPath ≠ args.modelPath ∧ realpath written.modelPath = realpath args.modelPath ∧
      tableSize = some args.expectedBytes ∧
      ∀ name, written.sourceFingerprints.get? name = args.sourceFingerprints.get? name

/-- The validator returns, and accepts what was written for its own arguments only. -/
def Tells (realpath : RealPath) (written args : SidecarArgs) (tableSize : Option Nat) (sealedAt : String) : Prop :=
  ∀ payload, pleSidecarWrite realpath written sealedAt = .ok payload →
    ∃ valid, pleSidecarIsValid realpath args tableSize (some (.ok (.obj payload))) = .ok valid ∧
      (valid = true ↔ tableSize = some args.expectedBytes ∧ written.Equals args)

theorem pleSidecarWrite_iff {payload : List (String × Json)} : pleSidecarWrite realpath written sealedAt = .ok payload ↔
    ∃ real, realpath written.modelPath = .ok real ∧ payload = sidecarPayload (written.identity real) sealedAt := by
  rw [pleSidecarWrite, bind_eq_ok]
  simp only [pure, Except.pure, Except.ok.injEq, eq_comm]

theorem shaped_payload_iff : Shaped (sidecarPayload (written.identity real) sealedAt) args ↔
    written.expectedBytes = args.expectedBytes ∧ written.tableShape = args.tableShape ∧ written.tableDtype = args.tableDtype := by
  have fields := @payload_field (written.identity real) sealedAt
  constructor
  · intro shaped
    obtain ⟨items, tuple, shape⟩ := shaped.shape
    have bytes := shaped.bytes
    have dtype := shaped.dtype
    simp only [fields, ints, Json.tuple, Except.ok.injEq, eqInt, beq_iff_eq, Nat.cast_inj, Json.str.injEq] at tuple bytes dtype
    subst tuple
    exact ⟨bytes, natCasts_injective ((eqInts_ints_iff _ _).mp shape), dtype⟩
  · rintro ⟨bytes, shape, dtype⟩
    refine ⟨?_, ⟨_, by rw [fields.2.1]; rfl, ?_⟩, ?_⟩
    · simp [SidecarArgs.identity, eqInt, bytes]
    · exact shape ▸ eqInts_ints _
    · simp [SidecarArgs.identity, dtype]

theorem payload_read (misread : Misread realpath args tableSize (some (.ok (.obj (sidecarPayload (written.identity real) sealedAt))))) :
    (written.expectedBytes = args.expectedBytes ∧ written.tableShape = args.tableShape ∧ written.tableDtype = args.tableDtype) ∧
      ∃ error, realpath args.modelPath = .error error := by
  cases misread with
  | shape _ failed =>
      rw [payload_field.2.1] at failed
      cases failed
  | path shaped unresolved => exact ⟨shaped_payload_iff.mp shaped, _, unresolved⟩
  | sources _ failed =>
      rw [payload_names] at failed
      cases failed
  | source _ _ _ _ _ failed =>
      rw [payload_getItems] at failed
      cases failed
  | emptyShape _ _ _ _ unshaped => exact absurd rfl (unshaped _)
  | emptySources _ _ _ _ unsourced => exact absurd rfl (unsourced _)

theorem accepts_payload_iff :
    pleSidecarIsValid realpath args tableSize (some (.ok (.obj (sidecarPayload (written.identity real) sealedAt)))) = .ok true ↔
      tableSize = some args.expectedBytes ∧ realpath args.modelPath = .ok real ∧
        written.expectedBytes = args.expectedBytes ∧ written.tableShape = args.tableShape ∧
        written.tableDtype = args.tableDtype ∧
        ∀ name, written.sourceFingerprints.get? name = args.sourceFingerprints.get? name := by
  rw [pleSidecarIsValid_iff]
  constructor
  · rintro ⟨_, resolved, size, fields, same, records⟩
    cases same
    obtain ⟨bytes, shape, dtype, path, sources⟩ := records_payload_iff.mp records
    cases path
    exact ⟨size, resolved, bytes, shape, dtype, sources⟩
  · rintro ⟨size, resolved, bytes, shape, dtype, sources⟩
    exact ⟨real, resolved, size, _, rfl, records_payload_iff.mpr ⟨bytes, shape, dtype, rfl, sources⟩⟩

theorem tells_iff : Tells realpath written args tableSize sealedAt ↔ ¬Confused realpath written args tableSize := by
  constructor
  · intro tells confused
    obtain ⟨real, resolved⟩ := confused.resolved
    have accepts := @accepts_payload_iff realpath args tableSize written real sealedAt
    obtain ⟨valid, returned, told⟩ := tells _ (pleSidecarWrite_iff.mpr ⟨real, resolved, rfl⟩)
    rcases confused.path with ⟨error, unresolved⟩ | ⟨apart, same, size, sources⟩
    · have shaped := (@shaped_payload_iff args written real sealedAt).mpr
        ⟨confused.expectedBytes, confused.tableShape, confused.tableDtype⟩
      have raised : pleSidecarIsValid realpath args tableSize
          (some (.ok (.obj (sidecarPayload (written.identity real) sealedAt)))) = .error error :=
        fieldsValid_error_iff.mpr (Or.inr (Or.inl ⟨shaped, unresolved⟩))
      rw [raised] at returned
      cases returned
    · have valid_ := accepts.mpr ⟨size, same ▸ resolved, confused.expectedBytes, confused.tableShape, confused.tableDtype, sources⟩
      rw [returned] at valid_
      exact apart (told.mp (Except.ok.inj valid_)).2.modelPath
  · intro clear payload made
    obtain ⟨real, resolved, rfl⟩ := pleSidecarWrite_iff.mp made
    have accepts := @accepts_payload_iff realpath args tableSize written real sealedAt
    cases outcome : pleSidecarIsValid realpath args tableSize
        (some (.ok (.obj (sidecarPayload (written.identity real) sealedAt)))) with
    | error error =>
        obtain ⟨⟨bytes, shape, dtype⟩, unresolved⟩ := payload_read (raises_misread outcome)
        exact absurd ⟨⟨real, resolved⟩, bytes, shape, dtype, Or.inl unresolved⟩ clear
    | ok valid =>
        refine ⟨valid, rfl, ?_⟩
        rw [outcome, Except.ok.injEq] at accepts
        rw [accepts]
        constructor
        · rintro ⟨size, found, bytes, shape, dtype, sources⟩
          refine ⟨size, bytes, shape, dtype, sources, ?_⟩
          by_contra apart
          exact clear ⟨⟨real, resolved⟩, bytes, shape, dtype, Or.inr ⟨apart, resolved.trans found.symm, size, sources⟩⟩
        · rintro ⟨size, same⟩
          exact ⟨size, same.modelPath ▸ resolved, same.expectedBytes, same.tableShape, same.tableDtype, same.sourceFingerprints⟩

end Written

/-- The validator returns, and returns whether the content matches, exactly when it
can read what it gets to; and it tells what the writer wrote for its own arguments
from what it wrote for others exactly when these are not confused. -/
theorem pleSidecarIsValid_total_exact_iff (realpath : RealPath) (args : SidecarArgs) (tableSize : Option Nat)
    (file : SidecarFile) (written : SidecarArgs) (sealedAt : String) :
    ((∃ valid, pleSidecarIsValid realpath args tableSize file = .ok valid ∧
          (valid = true ↔ Matches realpath args tableSize file)) ∧ Tells realpath written args tableSize sealedAt) ↔
      ¬Misread realpath args tableSize file ∧ ¬Confused realpath written args tableSize := by
  rw [judges_iff, tells_iff]

def oneSource : Dict String FileStat :=
  ⟨[("model-00001.safetensors", ⟨1, 2, 4096, 5, 6⟩)], List.nodup_singleton _⟩

def smallArgs (modelPath : String) : SidecarArgs where
  expectedBytes := 4
  tableShape := [2, 2]
  tableDtype := "torch.float8_e4m3fn"
  sourceFingerprints := oneSource
  modelPath := modelPath

/-- The path with a slash at its end resolves to the one without. -/
example : ¬Tells (fun _ => .ok "/models/ckpt") (smallArgs "/models/ckpt") (smallArgs "/models/ckpt/") (some 4) "" :=
  fun tells => tells_iff.mp tells ⟨⟨_, rfl⟩, rfl, rfl, rfl, Or.inr ⟨by decide, rfl, rfl, fun _ => rfl⟩⟩

theorem scalar_shape_raises : ¬∃ valid, pleSidecarIsValid .ok (smallArgs "/models/ckpt") (some 4)
    (some (.ok (.obj [("table_bytes", .int 4), ("table_shape", .int 5)]))) = .ok valid := by
  intro holds
  obtain ⟨valid, returned⟩ := holds
  cases returned

end FlashNext.Ple
