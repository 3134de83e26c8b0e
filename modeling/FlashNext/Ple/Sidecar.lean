import FlashNext.Ple.Json

namespace FlashNext.Ple

open FlashNext.Data

/-! The record of which source files a table was loaded from, its writer and its
validator.  A file is what `json.load` makes of it: `json.dump` and
`json.load` give back the values used here. -/

/-- One entry of `ple_fingerprint`. -/
structure FileStat where
  dev : Int
  ino : Int
  size : Int
  mtimeNs : Int
  ctimeNs : Int
deriving DecidableEq, Repr

def FileStat.tuple (stat : FileStat) : List Int :=
  [stat.dev, stat.ino, stat.size, stat.mtimeNs, stat.ctimeNs]

theorem FileStat.tuple_injective {left right : FileStat} (same : left.tuple = right.tuple) : left = right := by
  cases left
  cases right
  simpa [tuple] using same

/-- What a sidecar names: the model path is resolved by then. -/
structure Identity where
  bytes : Nat
  shape : List Nat
  dtype : String
  sources : Dict String FileStat
  realPath : String

/-- `os.path.realpath`, which raises a `ValueError` for a path with a null byte. -/
abbrev RealPath := String → Except PyError String

/-- The arguments that the writer and the validator share. -/
structure SidecarArgs where
  expectedBytes : Nat
  tableShape : List Nat
  tableDtype : String
  sourceFingerprints : Dict String FileStat
  modelPath : String

def SidecarArgs.identity (args : SidecarArgs) (real : String) : Identity where
  bytes := args.expectedBytes
  shape := args.tableShape
  dtype := args.tableDtype
  sources := args.sourceFingerprints
  realPath := real

/-- A sidecar path: no readable file, or the outcome of `json.load`. -/
abbrev SidecarFile := Option (Except PyError Json)

open Json

def sourcesMatch (recorded : Json) : List (String × FileStat) → Except PyError Bool
  | [] => .ok true
  | (name, stat) :: rest => do
      let items ← recorded.getItems name
      if eqInts items stat.tuple then sourcesMatch recorded rest else return false

def fieldsValid (realpath : RealPath) (args : SidecarArgs) (tableSize : Option Nat) (fields : List (String × Json)) :
    Except PyError Bool := do
  if !(field fields "table_bytes" .null).eqInt args.expectedBytes then return false
  let shape ← (field fields "table_shape" (.arr [])).tuple
  if !eqInts shape (args.tableShape.map Nat.cast) then return false
  if !(field fields "table_dtype" .null).eqStr args.tableDtype then return false
  let real ← realpath args.modelPath
  if !(field fields "model_path" .null).eqStr real then return false
  if tableSize ≠ some args.expectedBytes then return false
  let recorded := field fields "sources" (.obj [])
  let names ← recorded.set
  if !sameSet names args.sourceFingerprints.keys then return false
  sourcesMatch recorded args.sourceFingerprints.entries

/-- `ple_sidecar_is_valid`; the table's size is absent when `getsize` fails. -/
def pleSidecarIsValid (realpath : RealPath) (args : SidecarArgs) (tableSize : Option Nat) : SidecarFile → Except PyError Bool
  | none => .ok false
  | some (.error .osError) | some (.error .valueError) => .ok false
  | some (.error error) => .error error
  | some (.ok (.obj fields)) => fieldsValid realpath args tableSize fields
  | some (.ok _) => .ok false

/-- The payload of `ple_sidecar_write`. -/
def sidecarPayload (identity : Identity) (sealedAt : String) : List (String × Json) :=
  [("version", .int 1), ("model_path", .str identity.realPath), ("table_bytes", .int identity.bytes),
    ("table_shape", ints (identity.shape.map Nat.cast)), ("table_dtype", .str identity.dtype),
    ("sources", .obj (identity.sources.entries.map fun entry => (entry.1, ints entry.2.tuple))),
    ("sealed_at", .str sealedAt)]

/-- What `ple_sidecar_write` puts into the file, where the path resolves. -/
def pleSidecarWrite (realpath : RealPath) (args : SidecarArgs) (sealedAt : String) :
    Except PyError (List (String × Json)) := do
  let real ← realpath args.modelPath
  return sidecarPayload (args.identity real) sealedAt

/-- The fields of a sidecar name a table. -/
structure Records (fields : List (String × Json)) (identity : Identity) : Prop where
  bytes : (field fields "table_bytes" .null).eqInt identity.bytes = true
  shape : ∃ items, (field fields "table_shape" (.arr [])).tuple = .ok items ∧
    eqInts items (identity.shape.map Nat.cast) = true
  dtype : field fields "table_dtype" .null = .str identity.dtype
  path : field fields "model_path" .null = .str identity.realPath
  names : ∃ items, (field fields "sources" (.obj [])).set = .ok items ∧
    sameSet items identity.sources.keys = true
  stats : ∀ name stat, identity.sources.get? name = some stat →
    ∃ items, (field fields "sources" (.obj [])).getItems name = .ok items ∧ eqInts items stat.tuple = true

variable {realpath : RealPath} {args : SidecarArgs} {tableSize : Option Nat} {fields : List (String × Json)} {file : SidecarFile}

theorem sourcesMatch_iff {recorded : Json} {entries : List (String × FileStat)} :
    sourcesMatch recorded entries = .ok true ↔
      ∀ entry ∈ entries, ∃ items, recorded.getItems entry.1 = .ok items ∧ eqInts items entry.2.tuple = true := by
  induction entries with
  | nil => simp [sourcesMatch]
  | cons entry rest ih =>
      obtain ⟨name, stat⟩ := entry
      cases found : recorded.getItems name with
      | error error => simp [sourcesMatch, found, bind, Except.bind]
      | ok items =>
          cases same : eqInts items stat.tuple with
          | false => simp [sourcesMatch, found, same, bind, Except.bind, pure, Except.pure]
          | true => simp [sourcesMatch, found, same, bind, Except.bind, ih]

theorem guard_eq_true {reject : Prop} [Decidable reject] {rest : Except PyError Bool} :
    (if reject then pure false else rest) = .ok true ↔ ¬ reject ∧ rest = .ok true := by
  by_cases reject <;> simp [*, pure, Except.pure]

theorem bind_eq_ok {α β : Type} {value : Except PyError α} {rest : α → Except PyError β} {result : β} :
    value >>= rest = .ok result ↔ ∃ item, value = .ok item ∧ rest item = .ok result := by
  cases value <;> simp [bind, Except.bind]

theorem fieldsValid_iff :
    fieldsValid realpath args tableSize fields = .ok true ↔ ∃ real, realpath args.modelPath = .ok real ∧
      tableSize = some args.expectedBytes ∧ Records fields (args.identity real) := by
  simp only [fieldsValid, guard_eq_true, bind_eq_ok, sourcesMatch_iff, Bool.not_eq_true, Bool.not_eq_false',
    eqStr_iff, ne_eq, not_not]
  constructor
  · intro holds
    obtain ⟨bytes, shapeItems, shapeTuple, shape, dtype, real, resolved, path, size, names, nameSet, same, stats⟩ := holds
    refine ⟨real, resolved, size, ⟨bytes, ⟨shapeItems, shapeTuple, shape⟩, dtype, path, ⟨names, nameSet, same⟩, ?_⟩⟩
    exact fun name stat found => stats (name, stat) (Dict.mem_entries_iff.mpr found)
  · intro holds
    obtain ⟨real, resolved, size, records⟩ := holds
    obtain ⟨shapeItems, shapeTuple, shape⟩ := records.shape
    obtain ⟨names, nameSet, same⟩ := records.names
    refine ⟨records.bytes, shapeItems, shapeTuple, shape, records.dtype, real, resolved, records.path, size, names, nameSet,
      same, ?_⟩
    exact fun entry member => records.stats entry.1 entry.2 (Dict.mem_entries_iff.mp member)

/-- The validator trusts a table exactly when the model path resolves, the table has
the expected size and the sidecar names it. -/
theorem pleSidecarIsValid_iff :
    pleSidecarIsValid realpath args tableSize file = .ok true ↔ ∃ real, realpath args.modelPath = .ok real ∧
      tableSize = some args.expectedBytes ∧ ∃ fields, file = some (.ok (.obj fields)) ∧ Records fields (args.identity real) := by
  cases file with
  | none => simp [pleSidecarIsValid]
  | some loaded =>
      cases loaded with
      | error error => cases error <;> simp [pleSidecarIsValid]
      | ok value =>
          cases value with
          | obj fields => simp [pleSidecarIsValid, fieldsValid_iff]
          | null | bool _ | int _ | float _ | str _ | arr _ => simp [pleSidecarIsValid]

theorem natCasts_injective {left right : List Nat}
    (same : left.map (Nat.cast : Nat → Int) = right.map Nat.cast) : left = right :=
  List.map_injective_iff.mpr Nat.cast_injective same

section Written

variable {written current : Identity} {sealedAt : String}

@[simp] theorem payload_field :
    field (sidecarPayload written sealedAt) "table_bytes" .null = .int written.bytes ∧
      field (sidecarPayload written sealedAt) "table_shape" (.arr []) = ints (written.shape.map Nat.cast) ∧
      field (sidecarPayload written sealedAt) "table_dtype" .null = .str written.dtype ∧
      field (sidecarPayload written sealedAt) "model_path" .null = .str written.realPath ∧
      field (sidecarPayload written sealedAt) "sources" (.obj []) =
        .obj (written.sources.entries.map fun entry => (entry.1, ints entry.2.tuple)) := by
  simp [field, sidecarPayload, Dict.find]

theorem payload_getItems (name : String) :
    (field (sidecarPayload written sealedAt) "sources" (.obj [])).getItems name =
      .ok (((written.sources.get? name).map fun stat => stat.tuple.map Json.int).getD []) := by
  have looked : Dict.find name (written.sources.entries.map fun entry => (entry.1, ints entry.2.tuple)) =
      (written.sources.get? name).map fun stat => ints stat.tuple :=
    Dict.find_mapValues (fun _ stat => ints stat.tuple) name written.sources.entries
  rw [payload_field.2.2.2.2, getItems, field, looked]
  cases written.sources.get? name <;> rfl

theorem payload_names :
    (field (sidecarPayload written sealedAt) "sources" (.obj [])).set =
      .ok (written.sources.keys.map .str) := by
  simp [set_obj, Dict.keys, Function.comp_def]

theorem sameSet_names (left right : List String) :
    sameSet (left.map .str) right = true ↔ ∀ name, name ∈ left ↔ name ∈ right := by
  simp only [sameSet_iff, List.mem_map, forall_exists_index, and_imp, forall_apply_eq_imp_iff₂,
    Json.str.injEq, exists_eq_right', exists_eq_right]
  exact ⟨fun ⟨forward, back⟩ name => ⟨forward name, back name⟩,
    fun same => ⟨fun name => (same name).mp, fun name => (same name).mpr⟩⟩

theorem records_payload_iff :
    Records (sidecarPayload written sealedAt) current ↔
      written.bytes = current.bytes ∧ written.shape = current.shape ∧ written.dtype = current.dtype ∧
        written.realPath = current.realPath ∧
        ∀ name, written.sources.get? name = current.sources.get? name := by
  constructor
  · intro records
    obtain ⟨items, tuple, shape⟩ := records.shape
    obtain ⟨names, nameSet, same⟩ := records.names
    have bytes := records.bytes
    have dtype := records.dtype
    have path := records.path
    rw [payload_names, Except.ok.injEq] at nameSet
    subst nameSet
    simp only [payload_field, ints, Json.tuple, Except.ok.injEq] at tuple
    subst tuple
    simp only [payload_field, eqInt, beq_iff_eq, Nat.cast_inj, Json.str.injEq] at bytes dtype path
    refine ⟨bytes, natCasts_injective ((eqInts_ints_iff _ _).mp shape), dtype, path, ?_⟩
    intro name
    cases found : current.sources.get? name with
    | none =>
        have absent := Dict.get?_eq_none_iff.mp found
        rw [← (sameSet_names _ _).mp same name] at absent
        exact Dict.get?_eq_none_iff.mpr absent
    | some stat =>
        obtain ⟨items, recorded, equal⟩ := records.stats name stat found
        rw [payload_getItems, Except.ok.injEq] at recorded
        subst recorded
        cases stood : written.sources.get? name with
        | none => simp [stood, eqInts, FileStat.tuple] at equal
        | some old =>
            simp only [stood, Option.map_some, Option.getD_some, eqInts_ints_iff] at equal
            rw [FileStat.tuple_injective equal]
  · intro holds
    obtain ⟨bytes, shape, dtype, path, sources⟩ := holds
    have keys : ∀ name, name ∈ written.sources.keys ↔ name ∈ current.sources.keys := by
      intro name
      rw [Dict.mem_keys_iff, Dict.mem_keys_iff, sources name]
    refine ⟨?_, ⟨_, by rw [payload_field.2.1]; rfl, ?_⟩, ?_, ?_, ⟨_, payload_names, ?_⟩, ?_⟩
    · simp [eqInt, bytes]
    · exact shape ▸ eqInts_ints _
    · simp [dtype]
    · simp [path]
    · exact (sameSet_names _ _).mpr keys
    · intro name stat found
      refine ⟨_, payload_getItems name, ?_⟩
      rw [sources name, found]
      exact eqInts_ints _

end Written

end FlashNext.Ple
