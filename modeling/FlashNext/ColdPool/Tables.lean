import FlashNext.ColdPool.State
import FlashNext.Data.Chunks

namespace FlashNext.ColdPool

open FlashNext.Data

/-- The dtypes for which `build_tables` creates a column. -/
def buildDtypes : List DType := [.bfloat16, .float32, .float16]

/-- `torch.full((width,), finfo.min)` with the keep ids cleared. -/
def biasColumn (dtype : DType) (keep : List Nat) (width : Nat) : List Int :=
  keep.foldl (fun column gid => column.set gid 0) (List.replicate width (finfoMin dtype))

/-- Zeros, then `tbl[gid] = row` for each keep id in order. -/
def remapColumn (keep : List Nat) (width : Nat) : List Nat :=
  keep.zipIdx.foldl (fun table entry => table.set entry.1 entry.2) (List.replicate width 0)

/-- `build_tables`; the number of physical rows is `len(keep) + slots`. -/
def buildTables (tables : Tables) (layer : Nat) (keep : List Nat) (width device : Nat) : Tables where
  bias := buildDtypes.foldl
    (fun cache dtype => cache.set (layer, dtype) (biasColumn dtype keep width)) tables.bias
  remap := tables.remap.set layer { device := device, rows := remapColumn keep width }

/-- `_bias_col_or_none`.  The lazy path writes the column it builds into the
cache; during graph capture it must not, and gives no mask at all. -/
def biasColOrNone (keepMask : Option (Dict Nat (List Nat))) (tables : Tables)
    (capturing : Bool) (layer width : Nat) (dtype : DType) : Tables × Option (List Int) :=
  match keepMask.bind (·.get? layer) with
  | none => (tables, none)
  | some keep =>
      if keep = [] then (tables, none) else
      match tables.bias.get? (layer, dtype) with
      | some column => (tables, some column)
      | none =>
          if capturing then (tables, none) else
          let column := biasColumn dtype keep width
          ({ tables with bias := tables.bias.set (layer, dtype) column }, some column)

def remapOrNone (shrunk : Bool) (tables : Tables) (layer device : Nat) : Option (List Nat) :=
  if shrunk then
    match tables.remap.get? layer with
    | none => none
    | some table => if table.device = device then some table.rows else none
  else none

/-- `router_logits + col`; `none` when the shapes do not fit. -/
def addColumn (logits : Grid ℚ) (column : List Int) : Option (Grid ℚ) :=
  if fits : column.length = logits.width then
    some {
      width := logits.width
      rows := logits.rows.map fun row => List.zipWith (fun logit (entry : Int) => logit + entry) row column
      rect := by
        intro row member
        obtain ⟨source, inside, rfl⟩ := List.mem_map.mp member
        simp [fits, logits.rect source inside] }
  else none

/-- `apply_keep_mask`: the logits to route with and, when a mask was applied,
the logits it was applied to.  The last component is `none` when the addition
raises. -/
def applyKeepMask (state : State) (layer : Option Nat) (capturing : Bool) (dtype : DType)
    (logits : Grid ℚ) : State × Option (Grid ℚ × Option (Grid ℚ)) :=
  match layer with
  | none => (state, some (logits, none))
  | some layer =>
      if !state.shrunk then (state, some (logits, none)) else
      match biasColOrNone state.keepMask state.tables capturing layer logits.width dtype with
      | (tables, none) => ({ state with tables := tables }, some (logits, none))
      | (tables, some column) =>
          ({ state with tables := tables }, (addColumn logits column).map fun masked => (masked, some logits))

def setBias (tables : Tables) (layer gid : Nat) (value : DType → Int) : Dict (Nat × DType) (List Int) :=
  tables.bias.mapValues fun key column =>
    if key.1 = layer then column.set gid (value key.2) else column

def setRemap (tables : Tables) (layer gid row : Nat) : Dict Nat RemapTable :=
  tables.remap.mapValues fun key table =>
    if key = layer then { table with rows := table.rows.set gid row } else table

def unmask (tables : Tables) (layer gid physRow : Nat) : Tables where
  bias := setBias tables layer gid fun _ => 0
  remap := setRemap tables layer gid physRow

def mask (tables : Tables) (layer gid : Nat) : Tables where
  bias := setBias tables layer gid finfoMin
  remap := setRemap tables layer gid 0

/-- `remap_topk_ids`, on flat ids: padding (-1) and ids at or past the table's
end are passed through. -/
def remapTopkIds (shrunk : Bool) (tables : Tables) (layer : Option Nat) (device : Nat)
    (topkIds : List Int) : List Int :=
  match layer.bind fun layer => remapOrNone shrunk tables layer device with
  | none => topkIds
  | some table => topkIds.map fun id =>
      let safe := (max id 0).toNat
      if safe < table.length ∧ 0 ≤ id then
        ((table[min safe (table.length - 1)]?.getD 0 : Nat) : Int)
      else id

/-- `remap_packed_ids`: an id in the high half of each int32 word; negative
words are passed through. -/
def remapPackedIds (shrunk : Bool) (tables : Tables) (layer : Option Nat) (device : Nat)
    (packed : List (BitVec 32)) : List (BitVec 32) :=
  match layer.bind fun layer => remapOrNone shrunk tables layer device with
  | none => packed
  | some table => packed.map fun (word : BitVec 32) =>
      let id := (word.sshiftRight 16 &&& 0xFFFF#32).toNat
      let row := BitVec.ofNat 32 (table[min id (table.length - 1)]?.getD 0)
      if (0 : Int) ≤ word.toInt then (row <<< 16) ||| (word &&& 0xFFFF#32) else word

namespace Tables

/-- The entry of a global id in the column cached for a dtype. -/
def biasAt (tables : Tables) (layer : Nat) (dtype : DType) (gid : Nat) : Option Int :=
  (tables.bias.get? (layer, dtype)).bind fun column => column[gid]?

def remapAt (tables : Tables) (layer gid : Nat) : Option Nat :=
  (tables.remap.get? layer).bind fun table => table.rows[gid]?

/-- A global id the router may pick: its bias entry is zero. -/
def Routable (tables : Tables) (layer gid : Nat) : Prop :=
  tables.biasAt layer .bfloat16 gid = some 0

instance (tables : Tables) (layer gid : Nat) : Decidable (tables.Routable layer gid) :=
  inferInstanceAs (Decidable (_ = _))

structure Same (layer : Nat) (before after : Tables) : Prop where
  bias : ∀ dtype ∈ buildDtypes, after.bias.get? (layer, dtype) = before.bias.get? (layer, dtype)
  remap : after.remap.get? layer = before.remap.get? layer

theorem Same.refl (layer : Nat) (tables : Tables) : Same layer tables tables := ⟨fun _ _ => rfl, rfl⟩

theorem Same.trans {layer : Nat} {first second third : Tables} (left : Same layer first second)
    (right : Same layer second third) : Same layer first third :=
  ⟨fun dtype built => (right.bias dtype built).trans (left.bias dtype built),
    right.remap.trans left.remap⟩

variable {layer : Nat} {before after : Tables}

theorem Same.biasAt (same : Same layer before after) {dtype : DType} (built : dtype ∈ buildDtypes)
    (gid : Nat) : after.biasAt layer dtype gid = before.biasAt layer dtype gid := by
  rw [Tables.biasAt, Tables.biasAt, same.bias dtype built]

theorem Same.remapAt (same : Same layer before after) (gid : Nat) :
    after.remapAt layer gid = before.remapAt layer gid := by
  rw [Tables.remapAt, Tables.remapAt, same.remap]

theorem Same.routable_iff (same : Same layer before after) (gid : Nat) :
    after.Routable layer gid ↔ before.Routable layer gid := by
  rw [Routable, Routable, same.biasAt (by simp [buildDtypes])]

theorem same_biasColOrNone (keepMask : Option (Dict Nat (List Nat))) (tables : Tables)
    (capturing : Bool) (layer width : Nat) (dtype : DType) {managed : Nat}
    (present : ∀ dtype ∈ buildDtypes, tables.bias.get? (managed, dtype) ≠ none) :
    Same managed tables (biasColOrNone keepMask tables capturing layer width dtype).1 := by
  unfold biasColOrNone
  cases keepMask.bind (·.get? layer) with
  | none => exact .refl managed tables
  | some keep =>
      dsimp only
      split
      · exact .refl managed tables
      · cases column : tables.bias.get? (layer, dtype) with
        | some column => exact .refl managed tables
        | none =>
            dsimp only
            split
            · exact .refl managed tables
            · refine ⟨?_, rfl⟩
              intro other built
              have different : (managed, other) ≠ (layer, dtype) := by
                intro same
                exact present other built (same ▸ column)
              simp only [Dict.get?_set, if_neg different]

theorem same_buildTables (tables : Tables) {layer other : Nat} (keep : List Nat) (width device : Nat)
    (different : layer ≠ other) : Same layer tables (buildTables tables other keep width device) where
  bias := by
    intro dtype _
    simp [buildTables, buildDtypes, different]
  remap := by simp [buildTables, different]

theorem same_mask (tables : Tables) {layer other : Nat} (gid : Nat) (different : layer ≠ other) :
    Same layer tables (mask tables other gid) where
  bias := by
    intro dtype _
    simp only [mask, setBias, Dict.get?_mapValues]
    cases tables.bias.get? (layer, dtype) <;> simp [different]
  remap := by
    simp only [mask, setRemap, Dict.get?_mapValues]
    cases tables.remap.get? layer <;> simp [different]

theorem same_unmask (tables : Tables) {layer other : Nat} (gid row : Nat) (different : layer ≠ other) :
    Same layer tables (unmask tables other gid row) where
  bias := by
    intro dtype _
    simp only [unmask, setBias, Dict.get?_mapValues]
    cases tables.bias.get? (layer, dtype) <;> simp [different]
  remap := by
    simp only [unmask, setRemap, Dict.get?_mapValues]
    cases tables.remap.get? layer <;> simp [different]

end Tables

theorem biasAt_setBias (tables : Tables) (remap : Dict Nat RemapTable)
    (layer gid : Nat) (value : DType → Int) (other : Nat) (dtype : DType) (target : Nat) :
    Tables.biasAt ⟨setBias tables layer gid value, remap⟩ other dtype target =
      if other = layer ∧ target = gid then (tables.biasAt other dtype target).map fun _ => value dtype
      else tables.biasAt other dtype target := by
  simp only [Tables.biasAt, setBias, Dict.get?_mapValues]
  cases tables.bias.get? (other, dtype) with
  | none => simp
  | some column =>
      by_cases sameLayer : other = layer
      · by_cases sameGid : target = gid
        · subst sameLayer sameGid
          simp only [Option.map_some, Option.bind_some, if_true, and_self, List.getElem?_set]
          by_cases bound : target < column.length
          · simp [bound]
          · simp [bound]
        · simp [sameLayer, sameGid, Ne.symm sameGid]
      · simp [sameLayer]

theorem remapAt_setRemap (tables : Tables) (bias : Dict (Nat × DType) (List Int))
    (layer gid row other target : Nat) :
    Tables.remapAt ⟨bias, setRemap tables layer gid row⟩ other target =
      if other = layer ∧ target = gid then (tables.remapAt other target).map fun _ => row
      else tables.remapAt other target := by
  simp only [Tables.remapAt, setRemap, Dict.get?_mapValues]
  cases tables.remap.get? other with
  | none => simp
  | some table =>
      by_cases sameLayer : other = layer
      · by_cases sameGid : target = gid
        · subst sameLayer sameGid
          simp only [Option.map_some, Option.bind_some, if_true, and_self, List.getElem?_set]
          by_cases bound : target < table.rows.length
          · simp [bound]
          · simp [bound]
        · simp [sameLayer, sameGid, Ne.symm sameGid]
      · simp [sameLayer]

@[simp] theorem biasAt_unmask (tables : Tables) (layer gid row other : Nat) (dtype : DType)
    (target : Nat) :
    (unmask tables layer gid row).biasAt other dtype target =
      if other = layer ∧ target = gid then (tables.biasAt other dtype target).map fun _ => 0
      else tables.biasAt other dtype target :=
  biasAt_setBias tables _ layer gid _ other dtype target

@[simp] theorem remapAt_unmask (tables : Tables) (layer gid row other target : Nat) :
    (unmask tables layer gid row).remapAt other target =
      if other = layer ∧ target = gid then (tables.remapAt other target).map fun _ => row
      else tables.remapAt other target :=
  remapAt_setRemap tables _ layer gid row other target

@[simp] theorem biasAt_mask (tables : Tables) (layer gid other : Nat) (dtype : DType)
    (target : Nat) :
    (mask tables layer gid).biasAt other dtype target =
      if other = layer ∧ target = gid then
        (tables.biasAt other dtype target).map fun _ => finfoMin dtype
      else tables.biasAt other dtype target :=
  biasAt_setBias tables _ layer gid _ other dtype target

@[simp] theorem remapAt_mask (tables : Tables) (layer gid other target : Nat) :
    (mask tables layer gid).remapAt other target =
      if other = layer ∧ target = gid then (tables.remapAt other target).map fun _ => 0
      else tables.remapAt other target :=
  remapAt_setRemap tables _ layer gid 0 other target

theorem foldl_set_getElem? {α : Type*} (value : α) (ids : List Nat) (column : List α) (target : Nat) :
    (ids.foldl (fun column gid => column.set gid value) column)[target]? =
      if target ∈ ids then column[target]?.map fun _ => value else column[target]? := by
  induction ids generalizing column with
  | nil => simp
  | cons gid rest ih =>
      simp only [List.foldl_cons, ih, List.mem_cons, List.getElem?_set]
      by_cases same : target = gid
      · subst target
        by_cases bound : gid < column.length
        · simp [bound]
        · simp [bound]
      · simp [same, Ne.symm same]

theorem biasColumn_getElem? (dtype : DType) (keep : List Nat) {width gid : Nat} (bound : gid < width) :
    (biasColumn dtype keep width)[gid]? = some (if gid ∈ keep then 0 else finfoMin dtype) := by
  rw [biasColumn, foldl_set_getElem?]
  by_cases kept : gid ∈ keep <;> simp [kept, bound]

/-- A keep id is mapped to a place of the keep list where it stands, also when
the list repeats it; every other id stays at zero. -/
theorem foldl_setIdx_getElem? (entries : List (Nat × Nat)) (table : List Nat) {target : Nat}
    (bound : target < table.length) :
    ((target ∉ entries.map Prod.fst) →
      (entries.foldl (fun table entry => table.set entry.1 entry.2) table)[target]? = table[target]?) ∧
    ((target ∈ entries.map Prod.fst) →
      ∃ row, (entries.foldl (fun table entry => table.set entry.1 entry.2) table)[target]? = some row ∧
        (target, row) ∈ entries) := by
  induction entries generalizing table with
  | nil => simp
  | cons entry rest ih =>
      obtain ⟨gid, row⟩ := entry
      have tail := ih (table.set gid row) (by simpa using bound)
      constructor
      · intro absent
        simp only [List.map_cons, List.mem_cons, not_or] at absent
        simpa [Ne.symm absent.1] using tail.1 absent.2
      · intro present
        by_cases later : target ∈ rest.map Prod.fst
        · obtain ⟨found, lookup, member⟩ := tail.2 later
          exact ⟨found, lookup, List.mem_cons_of_mem _ member⟩
        · have here : target = gid := by simpa [later] using present
          subst here
          refine ⟨row, ?_, by simp⟩
          simpa [bound] using tail.1 later

theorem remapColumn_of_mem {keep : List Nat} {width gid : Nat} (bound : gid < width)
    (kept : gid ∈ keep) :
    ∃ row, (remapColumn keep width)[gid]? = some row ∧ keep[row]? = some gid := by
  have placed : gid ∈ keep.zipIdx.map Prod.fst := by simpa using kept
  obtain ⟨row, lookup, member⟩ :=
    (foldl_setIdx_getElem? keep.zipIdx (List.replicate width 0) (by simpa using bound)).2 placed
  exact ⟨row, lookup, by simpa [List.mem_zipIdx_iff_getElem?] using member⟩

theorem remapColumn_of_not_mem {keep : List Nat} {width gid : Nat} (bound : gid < width)
    (cold : gid ∉ keep) : (remapColumn keep width)[gid]? = some 0 := by
  have unplaced : gid ∉ keep.zipIdx.map Prod.fst := by simpa using cold
  have untouched :=
    (foldl_setIdx_getElem? keep.zipIdx (List.replicate width 0) (by simpa using bound)).1 unplaced
  simpa [remapColumn, bound] using untouched

theorem biasColumn_length (dtype : DType) (keep : List Nat) (width : Nat) :
    (biasColumn dtype keep width).length = width := by
  have general : ∀ column : List Int,
      (keep.foldl (fun column gid => column.set gid 0) column).length = column.length := by
    induction keep with
    | nil => exact fun _ => rfl
    | cons gid rest ih => exact fun column => (ih _).trans (List.length_set ..)
  rw [biasColumn, general, List.length_replicate]

theorem buildTables_column (tables : Tables) (layer : Nat) (keep : List Nat) (width device : Nat)
    {dtype : DType} (built : dtype ∈ buildDtypes) :
    (buildTables tables layer keep width device).bias.get? (layer, dtype) =
      some (biasColumn dtype keep width) := by
  simp only [buildDtypes, List.mem_cons, List.not_mem_nil, or_false] at built
  rcases built with rfl | rfl | rfl <;> simp [buildTables, buildDtypes]

theorem buildTables_biasAt (tables : Tables) (layer : Nat) (keep : List Nat) (width device : Nat)
    {dtype : DType} (built : dtype ∈ buildDtypes) (gid : Nat) :
    (buildTables tables layer keep width device).biasAt layer dtype gid =
      (biasColumn dtype keep width)[gid]? := by
  rw [Tables.biasAt, buildTables_column tables layer keep width device built]
  rfl

theorem buildTables_remapAt (tables : Tables) (layer : Nat) (keep : List Nat) (width device gid : Nat) :
    (buildTables tables layer keep width device).remapAt layer gid = (remapColumn keep width)[gid]? := by
  simp [buildTables, Tables.remapAt]

end FlashNext.ColdPool
