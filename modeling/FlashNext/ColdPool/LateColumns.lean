import FlashNext.ColdPool.ColumnRuns

namespace FlashNext.ColdPool

open FlashNext.Data

/-- All cached columns of a layer have one width and let the same ids through. -/
structure Tables.Uniform (tables : Tables) (layer width : Nat) : Prop where
  base : tables.bias.get? (layer, .bfloat16) ≠ none
  size : ∀ dtype column, tables.bias.get? (layer, dtype) = some column → column.length = width
  zeros : ∀ dtype column, tables.bias.get? (layer, dtype) = some column →
    ∀ gid, column[gid]? = some 0 ↔ tables.Routable layer gid

namespace Tables.Uniform

variable {tables : Tables} {layer width : Nat}

theorem set_zero_iff {column : List Int} {value : Int} (gid target : Nat) :
    (column.set gid value)[target]? = some 0 ↔
      if gid = target then gid < column.length ∧ value = 0 else column[target]? = some 0 := by
  rw [List.getElem?_set]
  split
  · next same =>
      subst same
      by_cases inside : gid < column.length <;> simp [inside]
  · rfl

theorem setBias (uniform : tables.Uniform layer width) (remap : Dict Nat RemapTable) (other gid : Nat)
    {value : DType → Int} (alike : ∀ dtype, value dtype = 0 ↔ value .bfloat16 = 0) :
    Tables.Uniform ⟨ColdPool.setBias tables other gid value, remap⟩ layer width := by
  -- a column after the assignment, and what it was before
  have before : ∀ {dtype : DType} {column : List Int},
      (ColdPool.setBias tables other gid value).get? (layer, dtype) = some column →
      ∃ old, tables.bias.get? (layer, dtype) = some old ∧
        column = if layer = other then old.set gid (value dtype) else old := by
    intro dtype column found
    rw [ColdPool.setBias, Dict.get?_mapValues] at found
    obtain ⟨old, stood, same⟩ := Option.map_eq_some_iff.mp found
    exact ⟨old, stood, same.symm⟩
  obtain ⟨base, present⟩ := Option.ne_none_iff_exists'.mp uniform.base
  have routable : ∀ target, Tables.Routable ⟨ColdPool.setBias tables other gid value, remap⟩ layer target ↔
      (if layer = other then base.set gid (value .bfloat16) else base)[target]? = some 0 := by
    intro target
    simp only [Tables.Routable, Tables.biasAt, ColdPool.setBias, Dict.get?_mapValues, present, Option.map_some,
      Option.bind_some]
  refine ⟨setBias_get?_ne_none uniform.base, ?_, ?_⟩
  · intro dtype column found
    obtain ⟨old, stood, rfl⟩ := before found
    have size := uniform.size dtype old stood
    split
    · rw [List.length_set, size]
    · exact size
  · intro dtype column found target
    obtain ⟨old, stood, rfl⟩ := before found
    have alikeBefore : old[target]? = some 0 ↔ base[target]? = some 0 :=
      (uniform.zeros dtype old stood target).trans (uniform.zeros .bfloat16 base present target).symm
    rw [routable target]
    split
    · rw [set_zero_iff, set_zero_iff, uniform.size dtype old stood, uniform.size .bfloat16 base present,
        alike dtype, alikeBefore]
    · exact alikeBefore

theorem edits {start : Tables} (uniform : start.Uniform layer width) (edits : start.Edits tables) :
    tables.Uniform layer width := by
  induction edits with
  | refl => exact uniform
  | mask other gid _ ih => exact ih.setBias _ other gid fun dtype => by simp [finfoMin_ne_zero]
  | unmask other gid row _ ih => exact ih.setBias _ other gid fun _ => Iff.rfl

end Tables.Uniform

theorem biasColumn_zero_iff (dtype : DType) (keep : List Nat) (width gid : Nat) :
    (biasColumn dtype keep width)[gid]? = some 0 ↔ gid < width ∧ gid ∈ keep := by
  by_cases bound : gid < width
  · rw [biasColumn_getElem? dtype keep bound]
    by_cases kept : gid ∈ keep <;> simp [bound, kept, finfoMin_ne_zero]
  · rw [List.getElem?_eq_none (by rw [biasColumn_length]; omega)]
    simp [bound]

/-- Every cached column is the static one of its layer's keep list. -/
structure Built (keepMask : Dict Nat (List Nat)) (state : State) : Prop where
  dtypes : ∀ layer dtype column, state.tables.bias.get? (layer, dtype) = some column → dtype ∈ buildDtypes
  kept : ∀ layer pool, state.layers.get? layer = some pool → keepMask.get? layer = some pool.keep
  columns : ∀ layer pool, state.layers.get? layer = some pool → ∀ dtype column,
    state.tables.bias.get? (layer, dtype) = some column → column = biasColumn dtype pool.keep pool.experts

section Shrink

variable {env : ShrinkEnv} {keepMask : Dict Nat (List Nat)} {state next : State}

theorem Built.shrink {index layer experts : Nat} {keep cold : List Nat} {original : Module}
    (built : Built keepMask state) (target : Target keepMask original layer keep experts cold)
    (done : shrinkModule env state index original layer keep experts cold = .done next) :
    Built keepMask next := by
  obtain ⟨store, config, _, _, rfl⟩ := shrinkModule_done done
  have elsewhere : ∀ {other : Nat} {dtype : DType}, other ≠ layer ∨ dtype ∉ buildDtypes →
      (buildTables state.tables layer keep experts original.device).bias.get? (other, dtype) =
        state.tables.bias.get? (other, dtype) := by
    intro other dtype apart
    simp only [buildDtypes, List.mem_cons, List.not_mem_nil, or_false, not_or] at apart
    simp only [buildTables, buildDtypes, List.foldl_cons, List.foldl_nil, Dict.get?_set, Prod.mk.injEq]
    rcases apart with different | ⟨notBfloat, notSingle, notHalf⟩
    · simp [different]
    · simp [notBfloat, notSingle, notHalf]
  refine ⟨?_, ?_, ?_⟩
  · intro other dtype column found
    by_contra late
    rw [elsewhere (Or.inr late)] at found
    exact late (built.dtypes other dtype column found)
  · intro other pool found
    rw [Dict.get?_set] at found
    split at found
    · next same =>
        cases found
        exact same ▸ target.kept
    · exact built.kept other pool found
  · intro other pool found dtype column present
    rw [Dict.get?_set] at found
    split at found
    · next same =>
        cases found
        subst same
        by_cases early : dtype ∈ buildDtypes
        · rw [buildTables_column _ _ _ _ _ early, Option.some.injEq] at present
          exact present.symm
        · rw [elsewhere (Or.inr early)] at present
          exact absurd (built.dtypes other dtype column present) early
    · next different =>
        rw [elsewhere (Or.inl different)] at present
        exact built.columns other pool found dtype column present

theorem shrinkLoop_built {indices : List Nat} {count total : Nat} (built : Built keepMask state)
    (done : shrinkLoop env keepMask indices state count = (.done next, total)) :
    Built keepMask next ∧ next.keepMask = state.keepMask := by
  induction indices generalizing state count with
  | nil =>
      simp only [shrinkLoop, Prod.mk.injEq, Outcome.done.injEq] at done
      obtain ⟨rfl, _⟩ := done
      exact ⟨built, rfl⟩
  | cons index rest ih =>
      unfold shrinkLoop at done
      cases present : state.modules[index]? with
      | none => exact ih built (by simpa [present] using done)
      | some original =>
          simp only [present] at done
          cases target : shrinkTarget keepMask original with
          | none => exact ih built (by simpa [target] using done)
          | some found =>
              obtain ⟨layer, keep, experts, cold⟩ := found
              simp only [target] at done
              cases shrunk : shrinkModule env state index original layer keep experts cold with
              | raised error failed => simp [shrunk] at done
              | done after =>
                  simp only [shrunk] at done
                  obtain ⟨final, mask⟩ := ih (built.shrink (shrinkTarget_spec target) shrunk) done
                  obtain ⟨_, _, _, _, rfl⟩ := shrinkModule_done shrunk
                  exact ⟨final, mask⟩

/-- A completed shrink leaves static columns only, and remembers the keep mask
it used when there is a layer. -/
theorem maybeShrink_built {model : LoadedModel}
    (done : maybeShrinkAfterProcess env (State.fresh model.modules) = .done state) :
    ∃ keepMask, Built keepMask state ∧
      ∀ layer pool, state.layers.get? layer = some pool → state.keepMask = some keepMask := by
  have fresh : ∀ keepMask mask, Built keepMask { State.fresh model.modules with keepMask := mask } := by
    intro keepMask mask
    exact ⟨by simp [State.fresh], by simp [State.fresh], by simp [State.fresh]⟩
  unfold maybeShrinkAfterProcess at done
  split at done
  · cases done
    exact ⟨.empty, fresh .empty none, by simp [State.fresh]⟩
  · cases mask : env.keepMask with
    | none =>
        simp only [mask, Outcome.done.injEq] at done
        exact done ▸ ⟨.empty, fresh .empty none, by simp [State.fresh]⟩
    | some keepMask =>
        simp only [mask] at done
        split at done
        · contradiction
        · next final loop =>
            obtain ⟨built, kept⟩ := shrinkLoop_built (fresh keepMask (some keepMask)) loop
            cases done
            exact ⟨keepMask, built, fun _ _ _ => kept⟩
        · next final total _ loop =>
            obtain ⟨built, kept⟩ := shrinkLoop_built (fresh keepMask (some keepMask)) loop
            cases done
            exact ⟨keepMask, ⟨built.dtypes, built.kept, built.columns⟩, fun _ _ _ => kept⟩

end Shrink

/-- A column for `dtype` that `_bias_col_or_none` has just built and cached. -/
def State.addColumn (state : State) (layer : Nat) (dtype : DType) (keep : List Nat) (width : Nat) : State :=
  { state with tables := { state.tables with
      bias := state.tables.bias.set (layer, dtype) (biasColumn dtype keep width) } }

/-- The next lookup of a column builds it, from this keep list. -/
structure Builds (state : State) (layer : Nat) (capturing : Bool) (dtype : DType) (keep : List Nat) : Prop where
  armed : state.shrunk = true
  masked : state.keepMask.bind (·.get? layer) = some keep
  nonempty : keep ≠ []
  absent : state.tables.bias.get? (layer, dtype) = none
  eager : capturing = false

theorem applyKeepMask_tables (state : State) (layer : Nat) (capturing : Bool) (dtype : DType) (logits : Grid ℚ) :
    (applyKeepMask state (some layer) capturing dtype logits).1 =
      if state.shrunk then { state with tables :=
        (biasColOrNone state.keepMask state.tables capturing layer logits.width dtype).1 } else state := by
  by_cases armed : state.shrunk = true
  · simp only [applyKeepMask, armed, Bool.not_true, Bool.false_eq_true, if_false, if_true]
    cases biasColOrNone state.keepMask state.tables capturing layer logits.width dtype with
    | mk tables column? => cases column? <;> rfl
  · simp only [applyKeepMask, armed, Bool.not_false, if_true, Bool.false_eq_true, if_false]

theorem applyKeepMask_cases (state : State) (layer : Nat) (capturing : Bool) (dtype : DType) (logits : Grid ℚ) :
    (applyKeepMask state (some layer) capturing dtype logits).1 = state ∨
      ∃ keep, Builds state layer capturing dtype keep ∧
        (applyKeepMask state (some layer) capturing dtype logits).1 =
          state.addColumn layer dtype keep logits.width := by
  rw [applyKeepMask_tables]
  split
  · next armed =>
      unfold biasColOrNone
      cases masked : state.keepMask.bind (·.get? layer) with
      | none => exact Or.inl rfl
      | some keep =>
          dsimp only
          split
          · exact Or.inl rfl
          · next nonempty =>
              cases absent : state.tables.bias.get? (layer, dtype) with
              | some column => exact Or.inl rfl
              | none =>
                  cases capturing with
                  | true => exact Or.inl rfl
                  | false => exact Or.inr ⟨keep, ⟨armed, masked, nonempty, absent, rfl⟩, rfl⟩
  · exact Or.inl rfl

theorem applyKeepMask_builds {state : State} {layer : Nat} {capturing : Bool} {dtype : DType} {keep : List Nat}
    (builds : Builds state layer capturing dtype keep) (logits : Grid ℚ) :
    (applyKeepMask state (some layer) capturing dtype logits).1 =
      state.addColumn layer dtype keep logits.width := by
  rw [applyKeepMask_tables, if_pos builds.armed]
  simp only [biasColOrNone, builds.masked, builds.absent, builds.eager, if_neg builds.nonempty]
  rfl

/-- Every cached column of a layer lets through the keep experts that are not
demoted and the staged experts, and no others. -/
def ColumnsAgree (state : State) : Prop :=
  ∀ layer pool, state.layers.get? layer = some pool →
    ∀ dtype column, state.tables.bias.get? (layer, dtype) = some column →
      ∀ gid, column[gid]? = some 0 ↔ Serving pool gid

def Fitting (state : State) : Event → Prop
  | .forward (some layer) _ _ logits => ∀ pool ∈ state.layers.get? layer, logits.width = pool.experts
  | _ => True

/-- A forward pass that builds a column finds nothing staged and no keep expert
demoted in that layer. -/
def Timely (state : State) : Event → Prop
  | .forward (some layer) capturing dtype _ =>
      ∀ pool ∈ state.layers.get? layer,
        capturing = false → pool.keep ≠ [] → state.tables.bias.get? (layer, dtype) = none →
          pool.gidRow.keys = [] ∧ ∀ gid ∈ pool.keep, gid ∉ pool.host.keys
  | _ => True

instance (state : State) : (event : Event) → Decidable (Fitting state event)
  | .forward (some layer) _ _ logits =>
      inferInstanceAs (Decidable (∀ pool ∈ state.layers.get? layer, logits.width = pool.experts))
  | .forward none _ _ _ | .stash .. | .hook .. | .stageLists .. | .phaseB .. => isTrue trivial

instance (state : State) : (event : Event) → Decidable (Timely state event)
  | .forward (some layer) capturing dtype _ =>
      inferInstanceAs (Decidable (∀ pool ∈ state.layers.get? layer,
        capturing = false → pool.keep ≠ [] → state.tables.bias.get? (layer, dtype) = none →
          pool.gidRow.keys = [] ∧ ∀ gid ∈ pool.keep, gid ∉ pool.host.keys))
  | .forward none _ _ _ | .stash .. | .hook .. | .stageLists .. | .phaseB .. => isTrue trivial

/-- Between two events: the built columns follow the pools, and all columns of
a layer let the same ids through. -/
structure InStep (keepMask : Dict Nat (List Nat)) (state : State) : Prop
    extends Settled (Tracked keepMask) state where
  mask : ∀ layer pool, state.layers.get? layer = some pool → state.keepMask = some keepMask
  uniform : ∀ layer pool, state.layers.get? layer = some pool → ∃ width, state.tables.Uniform layer width

variable {keepMask : Dict Nat (List Nat)} {state : State} {layer : Nat}

theorem columnsAgree_of_uniform (ok : Layerwise (Tracked keepMask) state)
    (uniform : ∀ layer pool, state.layers.get? layer = some pool → ∃ width, state.tables.Uniform layer width) :
    ColumnsAgree state := by
  intro layer pool found dtype column present gid
  obtain ⟨ctx, view, rfl⟩ := ok.wired.ctx?_isSome found
  obtain ⟨_, _, tables, _⟩ := State.pool_of_ctx? view
  obtain ⟨_, same⟩ := uniform layer ctx.pool found
  have routable := (ok.layers layer ctx view).routable gid
  rw [tables, ok.wired.layerId layer ctx.pool found] at routable
  exact (same.zeros dtype column present gid).trans routable

theorem InStep.columnsAgree (ok : InStep keepMask state) : ColumnsAgree state :=
  columnsAgree_of_uniform ok.toLayerwise ok.uniform

theorem Edited.uniform {next : State} (edited : Edited state next) (ok : InStep keepMask state) :
    ∀ layer pool, next.layers.get? layer = some pool → ∃ width, next.tables.Uniform layer width := by
  intro layer pool found
  obtain ⟨old, stood⟩ := edited.layers layer pool found
  obtain ⟨width, same⟩ := ok.uniform layer old stood
  exact ⟨width, same.edits edited.tables⟩

theorem Tracked.width {ctx : Ctx} (tracked : Tracked keepMask ctx) {width : Nat}
    (uniform : ctx.tables.Uniform ctx.pool.layerId width) : width = ctx.pool.experts := by
  obtain ⟨base, present⟩ := Option.ne_none_iff_exists'.mp uniform.base
  have size := uniform.size .bfloat16 base present
  have inside : ∀ gid, gid < width ↔ gid < ctx.pool.experts := by
    intro gid
    rw [← tracked.wide gid, Tables.biasAt, present, Option.bind_some, ← size, ne_eq, List.getElem?_eq_none_iff]
    omega
  have below := inside width
  have above := inside ctx.pool.experts
  omega

section Late

variable {pool : Pool} {capturing : Bool} {dtype : DType} {keep : List Nat} {width : Nat}

theorem InStep.keep_eq (ok : InStep keepMask state) (found : state.layers.get? layer = some pool)
    (builds : Builds state layer capturing dtype keep) : keep = pool.keep := by
  obtain ⟨ctx, view, rfl⟩ := ok.wired.ctx?_isSome found
  have masked := (ok.layers layer ctx view).masked
  have listed := builds.masked
  rw [ok.mask layer ctx.pool found, Option.bind_some, ← ok.wired.layerId layer ctx.pool found, masked,
    Option.some.injEq] at listed
  exact listed.symm

/-- A column built from the keep list lets the right ids through exactly when
the layer has staged nothing and demoted nothing. -/
theorem InStep.late_iff (ok : InStep keepMask state) (found : state.layers.get? layer = some pool)
    (dtype : DType) :
    (∀ gid, (biasColumn dtype pool.keep pool.experts)[gid]? = some 0 ↔ Serving pool gid) ↔
      pool.gidRow.keys = [] ∧ ∀ gid ∈ pool.keep, gid ∉ pool.host.keys := by
  obtain ⟨ctx, view, rfl⟩ := ok.wired.ctx?_isSome found
  have tracked := ok.layers layer ctx view
  constructor
  · intro agrees
    have only : ∀ gid ∈ ctx.pool.gidRow.keys, False := by
      intro gid staged
      have zero := (agrees gid).mpr (Or.inr staged)
      exact tracked.not_keep_of_resident staged ((biasColumn_zero_iff dtype _ _ gid).mp zero).2
    refine ⟨List.eq_nil_iff_forall_not_mem.mpr only, ?_⟩
    intro gid kept
    have zero := (biasColumn_zero_iff dtype _ _ gid).mpr ⟨tracked.keepBound gid kept, kept⟩
    rcases (agrees gid).mp zero with ⟨_, undemoted⟩ | staged
    · exact undemoted
    · exact absurd staged (only gid)
  · intro quiet gid
    rw [biasColumn_zero_iff, Serving, quiet.1]
    constructor
    · intro zero
      exact Or.inl ⟨zero.2, quiet.2 gid zero.2⟩
    · intro serving
      rcases serving with ⟨kept, _⟩ | staged
      · exact ⟨tracked.keepBound gid kept, kept⟩
      · cases staged

theorem InStep.addColumn (ok : InStep keepMask state) (builds : Builds state layer capturing dtype keep)
    (fits : ∀ pool, state.layers.get? layer = some pool → width = pool.experts)
    (timely : ∀ pool, state.layers.get? layer = some pool →
      pool.gidRow.keys = [] ∧ ∀ gid ∈ pool.keep, gid ∉ pool.host.keys)
    (settled : Settled (Tracked keepMask) (state.addColumn layer dtype keep width)) :
    InStep keepMask (state.addColumn layer dtype keep width) := by
  refine { settled with mask := ok.mask, uniform := ?_ }
  intro other pool found
  obtain ⟨size, same⟩ := ok.uniform other pool found
  -- what the cache held before is found in it again
  have kept : ∀ {dtype' : DType}, state.tables.bias.get? (other, dtype') ≠ none →
      (other, dtype') ≠ (layer, dtype) := by
    intro dtype' present equal
    exact present (equal ▸ builds.absent)
  have base := kept same.base
  have routable : ∀ gid, (state.addColumn layer dtype keep width).tables.Routable other gid ↔
      state.tables.Routable other gid := by
    intro gid
    simp only [Tables.Routable, Tables.biasAt, State.addColumn, Dict.get?_set, if_neg base]
  refine ⟨size, ?_, ?_, ?_⟩
  · simpa only [State.addColumn, Dict.get?_set, if_neg base] using same.base
  · intro dtype' column present
    simp only [State.addColumn, Dict.get?_set] at present
    split at present
    · next here =>
        obtain ⟨rfl, _⟩ := Prod.mk.injEq .. ▸ here
        obtain ⟨ctx, view, rfl⟩ := ok.wired.ctx?_isSome found
        obtain ⟨_, _, tables, _⟩ := State.pool_of_ctx? view
        have layerId := ok.wired.layerId other ctx.pool found
        cases present
        rw [biasColumn_length, fits ctx.pool found]
        exact ((ok.layers other ctx view).width (by rw [tables, layerId]; exact same)).symm
    · exact same.size dtype' column present
  · intro dtype' column present gid
    rw [routable gid]
    simp only [State.addColumn, Dict.get?_set] at present
    split at present
    · next here =>
        obtain ⟨rfl, _⟩ := Prod.mk.injEq .. ▸ here
        obtain ⟨ctx, view, rfl⟩ := ok.wired.ctx?_isSome found
        obtain ⟨_, _, tables, _⟩ := State.pool_of_ctx? view
        have serving := (ok.layers other ctx view).routable gid
        rw [tables, ok.wired.layerId other ctx.pool found] at serving
        cases present
        rw [serving, ok.keep_eq found builds, fits ctx.pool found]
        exact (ok.late_iff found dtype).mpr (timely ctx.pool found) gid
    · exact same.zeros dtype' column present gid

end Late

theorem eventAllows_trivial (sigmoid : ℚ → ℚ) (state : State) (event : Event) :
    EventAllows (fun _ _ _ => True) sigmoid state event := by
  cases event with
  | hook config faults capturing =>
      have layers : ∀ layers state, HookAllows (fun _ _ _ => True) sigmoid config faults layers state := by
        intro layers
        induction layers with
        | nil => exact fun _ => trivial
        | cons layer rest ih => exact fun state => ⟨fun _ _ _ _ _ _ _ => trivial, fun _ => ih _⟩
      exact fun _ => layers _ _
  | phaseB config layer flat => exact fun _ _ => trivial
  | forward layer capturing dtype logits => trivial
  | stash layer capturing preMask topkIds k => trivial
  | stageLists faults candidates => trivial

theorem InStep.edits {result : List State × State} (ok : InStep keepMask state)
    (sound : StepSound (Tracked keepMask) (Tracked keepMask) result) (edited : EditedAll state result) :
    InStep keepMask result.2 ∧ ∀ seen ∈ result.1, ColumnsAgree seen := by
  refine ⟨{ sound.final with mask := ?_, uniform := edited.2.uniform ok }, ?_⟩
  · intro layer pool found
    obtain ⟨old, stood⟩ := edited.2.layers layer pool found
    exact edited.2.keepMask.trans (ok.mask layer old stood)
  · intro seen member
    exact columnsAgree_of_uniform (sound.visited seen member) ((edited.1 seen member).uniform ok)

theorem InStep.step (sigmoid : ℚ → ℚ) {event : Event} (ok : InStep keepMask state)
    (fits : Fitting state event) (timely : Timely state event) :
    InStep keepMask ((machine sigmoid).step state event).2 ∧
      ∀ seen ∈ ((machine sigmoid).step state event).1, ColumnsAgree seen := by
  have allows : EventAllows (fun _ _ _ => True) sigmoid state event := eventAllows_trivial sigmoid state event
  have sound := (trackedRule keepMask).step_sound sigmoid ok.toSettled allows
  cases event with
  | forward layer capturing dtype logits =>
      refine ⟨?_, by simp [machine, ColdPool.step]⟩
      have settled : Settled (Tracked keepMask) (applyKeepMask state layer capturing dtype logits).1 := sound.final
      change InStep keepMask (applyKeepMask state layer capturing dtype logits).1
      cases layer with
      | none => exact ok
      | some layer =>
          rcases applyKeepMask_cases state layer capturing dtype logits with same | ⟨keep, builds, same⟩
          · rw [same]
            exact ok
          · rw [same] at settled ⊢
            refine ok.addColumn builds (fun pool found => fits pool found) ?_ settled
            intro pool found
            exact timely pool found builds.eager (ok.keep_eq found builds ▸ builds.nonempty) builds.absent
  | stash | hook | stageLists | phaseB => exact ok.edits sound (step_edits sigmoid state _ (by intro _ _ _ _ same; cases same))

theorem InStep.timely_of_agree (sigmoid : ℚ → ℚ) {event : Event} (ok : InStep keepMask state)
    (fits : Fitting state event) (agree : ColumnsAgree ((machine sigmoid).step state event).2) :
    Timely state event := by
  cases event with
  | forward layer? capturing dtype logits =>
      cases layer? with
      | none => trivial
      | some layer =>
          intro pool found eager nonempty absent
          obtain ⟨ctx, view, rfl⟩ := ok.wired.ctx?_isSome found
          have masked := (ok.layers layer ctx view).masked
          rw [ok.wired.layerId layer ctx.pool found] at masked
          have builds : Builds state layer capturing dtype ctx.pool.keep :=
            ⟨ok.armed layer ctx.pool found, by rw [ok.mask layer ctx.pool found]; exact masked, nonempty, absent, eager⟩
          change ColumnsAgree (applyKeepMask state (some layer) capturing dtype logits).1 at agree
          rw [applyKeepMask_builds builds, fits ctx.pool found] at agree
          exact (ok.late_iff found dtype).mp
            (agree layer ctx.pool found dtype (biasColumn dtype ctx.pool.keep ctx.pool.experts)
              (by rw [State.addColumn, Dict.get?_set, if_pos rfl]))
  | stash | hook | stageLists | phaseB => trivial

theorem Tracked.of_shrunk {original : Module} {ctx : Ctx} (shrunk : Shrunk original ctx)
    (masked : keepMask.get? ctx.pool.layerId = some ctx.pool.keep)
    (column : ctx.tables.bias.get? (ctx.pool.layerId, .bfloat16) =
      some (biasColumn .bfloat16 ctx.pool.keep ctx.pool.experts)) : Tracked keepMask ctx := by
  have static := shrunk.inv.static
  have coldIds : ∀ gid ∈ ctx.pool.coldIdsGpu, gid < ctx.pool.experts ∧ gid ∉ ctx.pool.keep :=
    fun gid member => (static.cold gid).mp (static.coldIds ▸ member)
  have hosted : ∀ gid ∈ ctx.pool.host.keys, gid ∉ ctx.pool.keep := by
    obtain ⟨env, index, layer, keep, experts, cold, held, fresh⟩ := shrunk.fresh
    intro gid member
    rw [fresh] at member
    have listed : gid ∈ ctx.pool.cold := by
      rw [fresh]
      exact hostRows_keys member
    exact ((static.cold gid).mp listed).2
  have vacant : ctx.pool.gidRow = .empty ∧ ctx.pool.rowGid = .empty := by
    obtain ⟨_, _, _, _, _, _, _, fresh⟩ := shrunk.fresh
    rw [fresh]
    exact ⟨rfl, rfl⟩
  refine
    { masked := masked
      keepIds := static.keepIds
      keepBound := static.keepBound
      cold := coldIds
      resident := by simp [vacant.1]
      owner := by simp [vacant.2]
      columns := ?_
      wide := ?_
      routable := ?_ }
  · intro dtype built absent
    have entry := shrunk.inv.served.columns 0 static.several dtype built
    rw [Tables.biasAt, absent] at entry
    cases entry
  · intro gid
    rw [Tables.biasAt, column, Option.bind_some, ne_eq, List.getElem?_eq_none_iff, biasColumn_length]
    exact Nat.not_le
  · intro gid
    rw [Tables.Routable, Tables.biasAt, column, Option.bind_some, biasColumn_zero_iff, Serving, vacant.1]
    constructor
    · intro zero
      exact Or.inl ⟨zero.2, fun member => hosted gid member zero.2⟩
    · intro serving
      rcases serving with ⟨kept, _⟩ | staged
      · exact ⟨static.keepBound gid kept, kept⟩
      · simp at staged

theorem inStep_of_completed {model : LoadedModel} {env : ShrinkEnv}
    (completed : maybeShrinkAfterProcess env (State.fresh model.modules) = .done state) :
    ∃ keepMask, InStep keepMask state := by
  obtain ⟨keepMask, built, mask⟩ := maybeShrink_built completed
  have loaded := maybeShrink_loaded completed
  have base : ∀ {layer : Nat} {ctx : Ctx}, state.ctx? layer = some ctx →
      state.tables.bias.get? (layer, .bfloat16) = some (biasColumn .bfloat16 ctx.pool.keep ctx.pool.experts) := by
    intro layer ctx view
    obtain ⟨found, _, tables, _⟩ := State.pool_of_ctx? view
    obtain ⟨original, _, shrunk⟩ := loaded.layers layer ctx view
    have entry := shrunk.inv.served.columns 0 shrunk.inv.static.several .bfloat16 (by simp [buildDtypes])
    rw [tables, loaded.wired.layerId layer ctx.pool found] at entry
    obtain ⟨column, present, _⟩ := Option.bind_eq_some_iff.mp entry
    rw [present, built.columns layer ctx.pool found .bfloat16 column present]
  refine ⟨keepMask, ⟨⟨⟨loaded.wired, loaded.armed, ?_⟩, ?_⟩, mask, ?_⟩⟩
  · intro layer ctx view
    obtain ⟨found, _, tables, _⟩ := State.pool_of_ctx? view
    obtain ⟨original, _, shrunk⟩ := loaded.layers layer ctx view
    have layerId := loaded.wired.layerId layer ctx.pool found
    exact .of_shrunk shrunk (layerId ▸ built.kept layer ctx.pool found) (by rw [layerId, tables]; exact base view)
  · exact (loaded.settled fun _ _ _ _ => trivial : Settled (fun _ => True) state).balanced
  · intro layer pool found
    obtain ⟨ctx, view, rfl⟩ := loaded.wired.ctx?_isSome found
    refine ⟨ctx.pool.experts, by simp [base view], ?_, ?_⟩
    · intro dtype column present
      rw [built.columns layer ctx.pool found dtype column present, biasColumn_length]
    · intro dtype column present gid
      rw [built.columns layer ctx.pool found dtype column present, Tables.Routable, Tables.biasAt, base view,
        Option.bind_some, biasColumn_zero_iff, biasColumn_zero_iff]

/-- The columns of every layer agree along a run exactly when every column the
run builds late is built while its layer has nothing staged and nothing
demoted. -/
theorem columns_agree_iff (sigmoid : ℚ → ℚ) (model : LoadedModel) (env : ShrinkEnv) (state : State)
    (completed : maybeShrinkAfterProcess env (State.fresh model.modules) = .done state)
    (events : List Event) (fits : (machine sigmoid).Meets Fitting state events) :
    (machine sigmoid).Meets Timely state events ↔
      ∀ seen ∈ (machine sigmoid).visited state events, ColumnsAgree seen := by
  obtain ⟨keepMask, start⟩ := inStep_of_completed completed
  clear completed
  constructor
  · intro timely
    exact Machine.visited_safe (fun _ _ ok guard => (ok.step sigmoid guard.1 guard.2).1)
      (fun _ _ ok guard => (ok.step sigmoid guard.1 guard.2).2) (fun _ ok => ok.columnsAgree) start
      (fits.and timely)
  · intro agree
    induction events generalizing state with
    | nil => trivial
    | cons event rest ih =>
        have next : ColumnsAgree ((machine sigmoid).step state event).2 :=
          agree _ (List.mem_append_right _ (Machine.start_mem_visited _ _ _))
        have timely := start.timely_of_agree sigmoid fits.1 next
        refine ⟨timely, ih _ fits.2 (start.step sigmoid fits.1 timely).1 ?_⟩
        exact fun seen member => agree seen (List.mem_append_right _ member)

def smallForward : Event := .forward (some 0) false .float64 ⟨3, [[0, 0, 0]], by simp⟩

/-- The column is built first, and a staging and an eviction follow. -/
theorem columns_agree_smallModel : ∃ state,
    maybeShrinkAfterProcess smallEnv (State.fresh smallModel.modules) = .done state ∧
      ∀ seen ∈ (machine fun _ => 1 / 2).visited state (smallForward :: smallEvents), ColumnsAgree seen :=
  ⟨_, rfl, (columns_agree_iff (fun _ => 1 / 2) smallModel smallEnv _ rfl (smallForward :: smallEvents)
    (by decide +kernel)).mp (by decide +kernel)⟩

def lateRun : State :=
  match maybeShrinkAfterProcess smallEnv (State.fresh smallModel.modules) with
  | .done state => (machine fun _ => 1 / 2).run state [.stageLists .none fun _ => [0], smallForward]
  | .raised _ state => state

/-- The late column does not let expert 0 through. -/
theorem columns_disagree : ¬ ∀ (sigmoid : ℚ → ℚ) (model : LoadedModel) (env : ShrinkEnv) (state : State),
    maybeShrinkAfterProcess env (State.fresh model.modules) = .done state →
      ∀ events : List Event, (machine sigmoid).Meets Fitting state events →
        ∀ seen ∈ (machine sigmoid).visited state events, ColumnsAgree seen := by
  intro claimed
  have agrees : ColumnsAgree lateRun :=
    claimed (fun _ => 1 / 2) smallModel smallEnv _ rfl [.stageLists .none fun _ => [0], smallForward]
      (by decide +kernel) _ (Machine.run_mem_visited _ _ _)
  have staged : (lateRun.layers.get? 0).map (fun pool => pool.gidRow.keys) = some [0] := by decide +kernel
  have masked : (lateRun.tables.bias.get? (0, .float64)).map (fun column => decide (column[0]? = some 0)) =
      some false := by decide +kernel
  obtain ⟨pool, found, keys⟩ := Option.map_eq_some_iff.mp staged
  obtain ⟨column, present, closed⟩ := Option.map_eq_some_iff.mp masked
  exact of_decide_eq_false closed ((agrees 0 pool found .float64 column present 0).mpr (Or.inr (by simp [keys])))

end FlashNext.ColdPool
