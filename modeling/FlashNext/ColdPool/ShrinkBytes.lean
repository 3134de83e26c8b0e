import FlashNext.ColdPool.Shrink

namespace FlashNext.ColdPool

open FlashNext.Data

structure HeldParam.Of (module : Module) (experts : Nat) (held : HeldParam) : Prop where
  bound : module.obj? held.name = some held.obj
  stored : module.store[held.obj]? = some (.batch held.elem held.trailing held.rows)
  count : held.rows.length = experts
  listed : held.name ∈ allParams

theorem heldParams_of (module : Module) (experts : Nat) (names : List String) (seen : List Nat)
    (listed : ∀ name ∈ names, name ∈ allParams) :
    ∀ held ∈ heldParams module experts names seen, held.Of module experts ∧ held.obj ∉ seen := by
  fun_induction heldParams module experts names seen with
  | case1 => simp
  | case2 name rest seen unbound ih => exact ih fun other member => listed other (by simp [member])
  | case3 name rest seen attr bound elem trailing rows stored taken ih =>
      intro held member
      rcases List.mem_cons.mp member with rfl | later
      · exact ⟨⟨by simp [Module.obj?, bound], stored, taken.1, listed name (by simp)⟩, taken.2⟩
      · obtain ⟨of, fresh⟩ := ih (fun other member => listed other (by simp [member])) held later
        exact ⟨of, fun old => fresh (by simp [old])⟩
  | case4 name rest seen attr bound elem trailing rows stored passed ih =>
      exact ih fun other member => listed other (by simp [member])
  | case5 name rest seen attr bound passed ih =>
      exact ih fun other member => listed other (by simp [member])

theorem heldParams_fresh (module : Module) (experts : Nat) (names : List String) (seen : List Nat) :
    ((heldParams module experts names seen).map HeldParam.obj).Nodup ∧
      ∀ obj ∈ (heldParams module experts names seen).map HeldParam.obj, obj ∉ seen := by
  fun_induction heldParams module experts names seen with
  | case1 => simp
  | case2 name rest seen unbound ih => exact ih
  | case3 name rest seen attr bound elem trailing rows stored taken ih =>
      obtain ⟨distinct, fresh⟩ := ih
      refine ⟨List.nodup_cons.mpr ⟨fun member => fresh _ member (by simp), distinct⟩, ?_⟩
      intro obj member old
      rcases List.mem_cons.mp member with rfl | later
      · exact taken.2 old
      · exact fresh obj later (by simp [old])
  | case4 name rest seen attr bound elem trailing rows stored passed ih => exact ih
  | case5 name rest seen attr bound passed ih => exact ih

/-- Every tensor object with one row per expert is held, under its first name. -/
theorem heldParams_complete (module : Module) (experts : Nat) (names : List String) (seen : List Nat) :
    ∀ name ∈ names, ∀ obj rows, module.obj? name = some obj → module.rows? name = some rows →
      rows.length = experts →
      obj ∈ seen ∨ obj ∈ (heldParams module experts names seen).map HeldParam.obj := by
  fun_induction heldParams module experts names seen with
  | case1 => simp
  | case2 name rest seen unbound ih =>
      intro other member obj rows found present count
      rcases List.mem_cons.mp member with rfl | later
      · simp [Module.obj?, unbound] at found
      · exact ih other later obj rows found present count
  | case3 name rest seen attr bound elem trailing rows stored taken ih =>
      intro other member obj found otherBound present count
      rcases List.mem_cons.mp member with rfl | later
      · have same : attr.obj = obj := by simpa [Module.obj?, bound] using otherBound
        exact Or.inr (by simp [same])
      · rcases ih other later obj found otherBound present count with old | new
        · rcases List.mem_cons.mp old with rfl | old
          · exact Or.inr (by simp)
          · exact Or.inl old
        · exact Or.inr (List.mem_cons_of_mem _ new)
  | case4 name rest seen attr bound elem trailing rows stored passed ih =>
      intro other member obj found otherBound present count
      rcases List.mem_cons.mp member with rfl | later
      · have target : module.obj? other = some attr.obj := by simp [Module.obj?, bound]
        have same : rows = found := by
          simpa [Module.rows?_eq, target, stored, Tensor.rows?] using present
        subst same
        rw [target, Option.some.injEq] at otherBound
        subst otherBound
        exact Or.inl (by simpa [count] using passed)
      · exact ih other later obj found otherBound present count
  | case5 name rest seen attr bound passed ih =>
      intro other member obj found otherBound present count
      rcases List.mem_cons.mp member with rfl | later
      · have target : module.obj? other = some attr.obj := by simp [Module.obj?, bound]
        rw [Module.rows?_eq, target] at present
        cases stored : module.store[attr.obj]? with
        | none => simp [stored] at present
        | some tensor =>
            cases tensor with
            | scalar elem bytes => simp [stored, Tensor.rows?] at present
            | batch elem trailing rows => exact absurd stored (passed elem trailing rows)
      · exact ih other later obj found otherBound present count

theorem HeldParam.Of.rows? {module : Module} {experts : Nat} {held : HeldParam}
    (of : held.Of module experts) {name : String} (bound : module.obj? name = some held.obj) :
    module.rows? name = some held.rows := by
  simp [Module.rows?_eq, bound, of.stored, Tensor.rows?]

theorem HeldParam.Of.rowAt {module : Module} {experts : Nat} {held : HeldParam}
    (of : held.Of module experts) {name : String} (bound : module.obj? name = some held.obj) {gid : Nat}
    (inside : gid < experts) : module.rowAt name gid = some (held.rows.getD gid []) := by
  have bounded : gid < held.rows.length := of.count ▸ inside
  rw [Module.rowAt, of.rows? bound]
  simp [bounded]

def swappedTensor (env : ShrinkEnv) (keep : List Nat) (held : HeldParam) : Tensor :=
  .batch held.elem held.trailing
    (keep.map (fun gid => held.rows.getD gid []) ++ (List.range env.coldSlots).map (uninitRow env held))

theorem swapParams_spec {env : ShrinkEnv} {keep : List Nat} {held : List HeldParam}
    {store swapped : List Tensor} (done : swapParams env keep held store = some swapped)
    (distinct : (held.map HeldParam.obj).Nodup) (inside : ∀ param ∈ held, param.obj < store.length) :
    (∀ param ∈ held, swapped[param.obj]? = some (swappedTensor env keep param) ∧
      ∀ gid ∈ keep, gid < param.rows.length) ∧
      ∀ obj, obj ∉ held.map HeldParam.obj → swapped[obj]? = store[obj]? := by
  induction held generalizing store with
  | nil =>
      cases done
      exact ⟨by simp, fun _ _ => rfl⟩
  | cons param rest ih =>
      simp only [List.map_cons, List.nodup_cons] at distinct
      obtain ⟨next, swap, later⟩ := Option.bind_eq_some_iff.mp done
      obtain ⟨kept, selected, rfl⟩ := Option.map_eq_some_iff.mp swap
      unfold indexSelect at selected
      split at selected
      · rename_i bounded
        cases selected
        obtain ⟨each, others⟩ := ih later distinct.2 (by
          intro other member
          simpa using inside other (by simp [member]))
        have here := inside param (by simp)
        constructor
        · intro other member
          rcases List.mem_cons.mp member with rfl | tail
          · refine ⟨?_, by simpa using bounded⟩
            rw [others _ distinct.1]
            simp [swappedTensor, here]
          · exact each other tail
        · intro obj absent
          simp only [List.map_cons, List.mem_cons, not_or] at absent
          rw [others obj absent.2]
          simp [Ne.symm absent.1]
      · contradiction

/-- A slice whose rows are the cold rows of a held tensor. -/
def Slice.Shows (slice : Slice) (buffer : Row) (cold : List Nat) (held : HeldParam) : Prop :=
  slice.name = held.name ∧
    ∀ index gid, cold[index]? = some gid → slice.row buffer index = held.rows.getD gid []

theorem coldBytes_length {held : HeldParam} {cold : List Nat}
    (sized : ∀ row ∈ held.rows, row.length = held.rowBytes) (bound : ∀ gid ∈ cold, gid < held.rows.length) :
    (held.coldBytes cold).length = held.rowBytes * cold.length := by
  have uniform : ∀ row ∈ cold.map (fun gid => held.rows.getD gid []), row.length = held.rowBytes := by
    intro row member
    obtain ⟨gid, listed, rfl⟩ := List.mem_map.mp member
    refine sized _ ?_
    simp [bound gid listed]
  rw [HeldParam.coldBytes, flatten_uniform_length uniform, List.length_map, Nat.mul_comm]

theorem slice_row {held : HeldParam} {cold : List Nat} {before after : List Row} {slice : Slice}
    (sized : ∀ row ∈ held.rows, row.length = held.rowBytes) (bound : ∀ gid ∈ cold, gid < held.rows.length)
    (offset : slice.offset = before.flatten.length) (width : slice.rowBytes = held.rowBytes)
    {index gid : Nat} (found : cold[index]? = some gid) :
    slice.row (before ++ held.coldBytes cold :: after).flatten index = held.rows.getD gid [] := by
  have uniform : ∀ row ∈ cold.map (fun gid => held.rows.getD gid []), row.length = held.rowBytes := by
    intro row member
    obtain ⟨gid, listed, rfl⟩ := List.mem_map.mp member
    refine sized _ ?_
    simp [bound gid listed]
  have position : index < cold.length := (List.getElem?_eq_some_iff.mp found).1
  have room : index * held.rowBytes + held.rowBytes ≤ (held.coldBytes cold).length := by
    rw [coldBytes_length sized bound, ← Nat.succ_mul, Nat.mul_comm]
    exact Nat.mul_le_mul_left _ position
  rw [Slice.row, offset, width, flatten_window room]
  exact flatten_row uniform (by simp [found])

theorem coldSlices_shows {held : List HeldParam} {cold : List Nat} {before : List Row} {offset : Nat}
    (sized : ∀ param ∈ held, ∀ row ∈ param.rows, row.length = param.rowBytes)
    (bound : ∀ param ∈ held, ∀ gid ∈ cold, gid < param.rows.length)
    (start : offset = before.flatten.length) :
    (∀ slice ∈ coldSlices cold.length held offset, ∃ param ∈ held,
      slice.Shows (before ++ held.map (·.coldBytes cold)).flatten cold param) ∧
      ∀ param ∈ held, ∃ slice ∈ coldSlices cold.length held offset, slice.name = param.name := by
  induction held generalizing before offset with
  | nil => simp [coldSlices]
  | cons param rest ih =>
      have next : offset + param.rowBytes * cold.length =
          (before ++ [param.coldBytes cold]).flatten.length := by
        rw [List.flatten_append, List.length_append, ← start]
        simp [coldBytes_length (sized param (by simp)) (bound param (by simp))]
      obtain ⟨shows, named⟩ := ih (fun other member => sized other (by simp [member]))
        (fun other member => bound other (by simp [member])) next
      have regroup : before ++ [param.coldBytes cold] ++ rest.map (·.coldBytes cold) =
          before ++ (param :: rest).map (·.coldBytes cold) := by simp
      rw [regroup] at shows
      simp only [coldSlices]
      constructor
      · intro slice member
        rcases List.mem_cons.mp member with rfl | later
        · refine ⟨param, by simp, rfl, ?_⟩
          intro index gid found
          rw [List.map_cons]
          exact slice_row (sized param (by simp)) (bound param (by simp)) start rfl found
        · obtain ⟨other, inside, shown⟩ := shows slice later
          exact ⟨other, by simp [inside], shown⟩
      · intro other member
        rcases List.mem_cons.mp member with rfl | later
        · exact ⟨_, List.mem_cons_self, rfl⟩
        · obtain ⟨slice, inside, same⟩ := named other later
          exact ⟨slice, List.mem_cons_of_mem _ inside, same⟩

/-- The flat buffer is the cold rows of all held tensors, with nothing left of
what it held before. -/
theorem hostBuffer_eq {held : List HeldParam} {cold : List Nat}
    (sized : ∀ param ∈ held, ∀ row ∈ param.rows, row.length = param.rowBytes)
    (bound : ∀ param ∈ held, ∀ gid ∈ cold, gid < param.rows.length) :
    hostBuffer held cold = (held.map (·.coldBytes cold)).flatten := by
  refine writeChunks_full ?_
  have lengths : held.map (fun param => param.rowBytes * cold.length) =
      (held.map (·.coldBytes cold)).map List.length := by
    rw [List.map_map]
    refine List.map_congr_left fun param member => ?_
    exact (coldBytes_length (sized param member) (bound param member)).symm
  rw [List.length_replicate, lengths, List.length_flatten]

def hostGet (host : Dict Nat (Dict String Row)) (gid : Nat) (name : String) : Option Row :=
  (host.get? gid).bind (·.get? name)

theorem hostGet_addHostRow (host : Dict Nat (Dict String Row)) (gid : Nat) (name : String) (bytes : Row)
    (other : Nat) (param : String) :
    hostGet (addHostRow host gid name bytes) other param =
      if other = gid ∧ param = name then some bytes else hostGet host other param := by
  simp only [hostGet, addHostRow, Dict.get?_set]
  by_cases sameGid : other = gid
  · subst sameGid
    by_cases sameName : param = name
    · simp [sameName]
    · cases host.get? other <;> simp [sameName]
  · simp [sameGid]

theorem foldl_addHostRow (name : String) (row : Nat → Row) (entries : List (Nat × Nat))
    (host : Dict Nat (Dict String Row)) (gid : Nat) (param : String) :
    (∀ bytes, hostGet (entries.foldl (fun host entry => addHostRow host entry.1 name (row entry.2)) host)
        gid param = some bytes →
      hostGet host gid param = some bytes ∨
        param = name ∧ ∃ index, (gid, index) ∈ entries ∧ bytes = row index) ∧
    (hostGet host gid param ≠ none ∨ param = name ∧ gid ∈ entries.map Prod.fst →
      hostGet (entries.foldl (fun host entry => addHostRow host entry.1 name (row entry.2)) host)
        gid param ≠ none) := by
  induction entries generalizing host with
  | nil => exact ⟨fun bytes found => Or.inl found, by simp⟩
  | cons entry rest ih =>
      obtain ⟨target, index⟩ := entry
      obtain ⟨origin, present⟩ := ih (addHostRow host target name (row index))
      rw [hostGet_addHostRow] at origin present
      constructor
      · intro bytes found
        rcases origin bytes found with before | ⟨same, later, member, value⟩
        · split at before
          · rename_i here
            cases before
            exact Or.inr ⟨here.2, index, by simp [here.1], rfl⟩
          · exact Or.inl before
        · exact Or.inr ⟨same, later, by simp [member], value⟩
      · intro reached
        refine present ?_
        by_cases here : gid = target ∧ param = name
        · exact Or.inl (by simp [here])
        · rcases reached with before | ⟨same, member⟩
          · exact Or.inl (by simpa [here] using before)
          · refine Or.inr ⟨same, ?_⟩
            rcases List.mem_cons.mp member with first | later
            · exact absurd ⟨first, same⟩ here
            · exact later

theorem hostRows_origin {buffer : Row} {cold : List Nat} {slices : List Slice} {gid : Nat} {name : String}
    {bytes : Row} (found : hostGet (hostRows buffer cold slices) gid name = some bytes) :
    ∃ slice ∈ slices, slice.name = name ∧
      ∃ index : Nat, cold[index]? = some gid ∧ bytes = slice.row buffer index := by
  have general : ∀ host, hostGet (slices.foldl (addHostSlice buffer cold) host) gid name = some bytes →
      hostGet host gid name = some bytes ∨ ∃ slice ∈ slices, slice.name = name ∧
        ∃ index : Nat, cold[index]? = some gid ∧ bytes = slice.row buffer index := by
    clear found
    induction slices with
    | nil => exact fun host found => Or.inl found
    | cons slice rest ih =>
        intro host found
        rcases ih (addHostSlice buffer cold host slice) found with before | ⟨other, member, shown⟩
        · rcases (foldl_addHostRow slice.name (slice.row buffer) cold.zipIdx host gid name).1 bytes before
            with older | ⟨same, index, place, value⟩
          · exact Or.inl older
          · exact Or.inr ⟨slice, by simp, same.symm, index,
              by simpa [List.mem_zipIdx_iff_getElem?] using place, value⟩
        · exact Or.inr ⟨other, by simp [member], shown⟩
  rcases general .empty found with none | shown
  · simp [hostGet] at none
  · exact shown

theorem hostRows_keys {buffer : Row} {cold : List Nat} {slices : List Slice} {gid : Nat}
    (hosted : gid ∈ (hostRows buffer cold slices).keys) : gid ∈ cold := by
  have add : ∀ (name : String) (row : Nat → Row) (entries : List (Nat × Nat))
      (host : Dict Nat (Dict String Row)),
      gid ∈ (entries.foldl (fun host entry => addHostRow host entry.1 name (row entry.2)) host).keys →
      gid ∈ host.keys ∨ gid ∈ entries.map Prod.fst := by
    intro name row entries
    induction entries with
    | nil => exact fun host member => Or.inl member
    | cons entry rest ih =>
        intro host member
        rcases ih _ member with before | later
        · rcases Dict.mem_keys_set.mp before with here | older
          · exact Or.inr (by simp [here])
          · exact Or.inl older
        · exact Or.inr (List.mem_cons_of_mem _ later)
  have general : ∀ host, gid ∈ (slices.foldl (addHostSlice buffer cold) host).keys →
      gid ∈ host.keys ∨ gid ∈ cold := by
    clear hosted
    induction slices with
    | nil => exact fun host member => Or.inl member
    | cons slice rest ih =>
        intro host member
        rcases ih _ member with before | done
        · exact (add slice.name (slice.row buffer) cold.zipIdx host before).imp id (by simp)
        · exact Or.inr done
  simpa using general .empty hosted

theorem hostRows_complete {buffer : Row} {cold : List Nat} {slices : List Slice} {gid : Nat}
    (member : gid ∈ cold) {slice : Slice} (listed : slice ∈ slices) :
    hostGet (hostRows buffer cold slices) gid slice.name ≠ none := by
  have general : ∀ host, (hostGet host gid slice.name ≠ none ∨ slice ∈ slices) →
      hostGet (slices.foldl (addHostSlice buffer cold) host) gid slice.name ≠ none := by
    clear listed
    induction slices with
    | nil => simp
    | cons first rest ih =>
        intro host reached
        have add := (foldl_addHostRow first.name (first.row buffer) cold.zipIdx host gid slice.name).2
        refine ih (addHostSlice buffer cold host first) ?_
        rcases reached with before | here
        · exact Or.inl (add (Or.inl before))
        · rcases List.mem_cons.mp here with same | later
          · exact Or.inl (add (Or.inr ⟨by rw [same], by simpa using member⟩))
          · exact Or.inr later
  exact general .empty (Or.inr listed)

end FlashNext.ColdPool
