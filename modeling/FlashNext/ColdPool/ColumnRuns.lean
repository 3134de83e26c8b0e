import FlashNext.ColdPool.Columns
import FlashNext.ColdPool.Demotion

namespace FlashNext.ColdPool

open FlashNext.Data

/-- Tables reached by masking and unmasking. -/
inductive Tables.Edits (start : Tables) : Tables → Prop where
  | refl : Edits start start
  | mask {tables : Tables} (layer gid : Nat) : Edits start tables → Edits start (mask tables layer gid)
  | unmask {tables : Tables} (layer gid row : Nat) :
      Edits start tables → Edits start (unmask tables layer gid row)

theorem Tables.Edits.trans {first second third : Tables} (left : first.Edits second)
    (right : second.Edits third) : first.Edits third := by
  induction right with
  | refl => exact left
  | mask layer gid _ ih => exact ih.mask layer gid
  | unmask layer gid row _ ih => exact ih.unmask layer gid row

/-- What an operation leaves of the tables, at its end and on its way. -/
structure Editing (start : Tables) (result : List Ctx × Ctx) : Prop where
  visited : ∀ seen ∈ result.1, start.Edits seen.tables
  final : start.Edits result.2.tables

variable {ctx : Ctx} {gid row : Nat} {faults : Faults} {config : HookConfig}

theorem pickRow_edits (ctx : Ctx) : ctx.tables.Edits (pickRow ctx).1.tables := by
  unfold pickRow
  split
  · exact .refl
  · split
    · exact .refl
    · unfold evictRow
      split
      · exact .refl
      · exact .mask _ _ .refl

theorem rowFromHost_edits (faults : Faults) (gid row : Nat) (ctx : Ctx) :
    Editing ctx.tables ((rowFromHost faults gid row ctx).visited, (rowFromHost faults gid row ctx).final) := by
  have copied := copyParams_same faults gid row (hostEntry faults ctx gid) ctx
  have between : ∀ seen ∈ (copyParams faults gid row (hostEntry faults ctx gid) ctx).visited,
      ctx.tables.Edits seen.tables := fun seen member => (copied seen (Or.inl member)).1.symm ▸ .refl
  have last : ctx.tables.Edits (copyParams faults gid row (hostEntry faults ctx gid) ctx).final.tables :=
    (copied _ (Or.inr rfl)).1.symm ▸ .refl
  simp only [rowFromHost]
  split
  · exact ⟨by simp, .refl⟩
  · split
    · exact ⟨between, .unmask _ _ _ last⟩
    · exact ⟨between, last⟩

theorem returnRow_tables (row : Nat) (ctx : Ctx) : (returnRow row ctx).tables = ctx.tables := by
  unfold returnRow
  split <;> rfl

theorem stageOne_edits (faults : Faults) (gid : Nat) (ctx : Ctx) :
    (∀ seen ∈ (stageOne faults gid ctx).1, ctx.tables.Edits seen.tables) ∧
      ∀ next, (stageOne faults gid ctx).2 = some next → ctx.tables.Edits next.tables := by
  simp only [stageOne]
  split
  · exact ⟨by simp, fun next same => Option.some.inj same ▸ .refl⟩
  · have picked : ctx.tables.Edits (pickRow (resetNeed gid ctx)).1.tables := pickRow_edits (resetNeed gid ctx)
    cases pick : pickRow (resetNeed gid ctx) with
    | mk after row? =>
        rw [pick] at picked
        cases row? with
        | none => exact ⟨by simp, by simp⟩
        | some row =>
            have staged := rowFromHost_edits faults gid row after
            have exposed : ∀ seen ∈ after :: (rowFromHost faults gid row after).visited,
                ctx.tables.Edits seen.tables := by
              intro seen member
              rcases List.mem_cons.mp member with rfl | inside
              · exact picked
              · exact picked.trans (staged.visited seen inside)
            have done := picked.trans staged.final
            dsimp only
            split
            · exact ⟨exposed, fun next same => Option.some.inj same ▸ done⟩
            · refine ⟨exposed, fun next same => Option.some.inj same ▸ ?_⟩
              rw [returnRow_tables]
              exact done

theorem stageAll_edits (faults : Faults) (candidates : List Nat) (ctx : Ctx) :
    Editing ctx.tables (stageAll faults candidates ctx) := by
  induction candidates generalizing ctx with
  | nil => exact ⟨by simp [stageAll], .refl⟩
  | cons gid rest ih =>
      obtain ⟨visited, reached⟩ := stageOne_edits faults gid ctx
      simp only [stageAll]
      cases staged : stageOne faults gid ctx with
      | mk seenHere next? =>
          rw [staged] at visited reached
          cases next? with
          | none => exact ⟨visited, .refl⟩
          | some next =>
              have here := reached next rfl
              have later := ih next
              refine ⟨?_, here.trans later.final⟩
              intro seen member
              rcases List.mem_append.mp member with first | rest
              · exact visited seen first
              · rcases List.mem_cons.mp rest with rfl | rest
                · exact here
                · exact here.trans (later.visited seen rest)

theorem demoteAll_edits (doomed : List Nat) (ctx : Ctx) : Editing ctx.tables (demoteAll doomed ctx) := by
  induction doomed generalizing ctx with
  | nil => exact ⟨by simp [demoteAll], .refl⟩
  | cons gid rest ih =>
      have here : ctx.tables.Edits (demote gid ctx).tables := by
        unfold demote
        split
        · exact .refl
        · split
          · exact .refl
          · exact .mask _ _ .refl
      have later := ih (demote gid ctx)
      refine ⟨?_, here.trans later.final⟩
      intro seen member
      rcases List.mem_cons.mp member with rfl | inside
      · exact here
      · exact here.trans (later.visited seen inside)

theorem phaseB_edits (config : HookConfig) (flat : List Nat) (ctx : Ctx) :
    Editing ctx.tables (phaseB config flat ctx) := by
  unfold phaseB
  split
  · exact ⟨by simp, .refl⟩
  · have demoted := demoteAll_edits (demotionList config flat ctx.pool)
      { ctx with pool := recordSeen ctx.pool flat }
    exact ⟨demoted.visited, (promoteAll_tables _ _).symm ▸ demoted.final⟩

theorem tickLayer_edits (sigmoid : ℚ → ℚ) (config : HookConfig) (faults : Faults) (degrade : Bool)
    (ctx : Ctx) (ballot : Ballot) :
    Editing ctx.tables (tickLayer sigmoid config faults degrade ctx ballot) := by
  have staged : Editing ctx.tables (voteAndStage sigmoid config faults ctx ballot) :=
    stageAll_edits faults _
      { ctx with
        stats := { ctx.stats with strong := ctx.stats.strong + (castVotes sigmoid config ctx.pool ballot).2 }
        pool := { ctx.pool with needCounts := some (castVotes sigmoid config ctx.pool ballot).1 } }
  unfold tickLayer
  cases degrade with
  | false => exact staged
  | true =>
      have demoted := phaseB_edits config ballot.flat.flatten (voteAndStage sigmoid config faults ctx ballot).2
      refine ⟨?_, staged.final.trans demoted.final⟩
      intro seen member
      rcases List.mem_append.mp member with inside | rest
      · exact staged.visited seen inside
      · rcases List.mem_cons.mp rest with rfl | rest
        · exact staged.final
        · exact staged.final.trans (demoted.visited seen rest)

/-- A state whose tables were edited; no layer was added, and the keep mask and
the gate stand. -/
structure Edited (before after : State) : Prop where
  tables : before.tables.Edits after.tables
  keepMask : after.keepMask = before.keepMask
  shrunk : after.shrunk = before.shrunk
  layers : ∀ layer pool, after.layers.get? layer = some pool → ∃ old, before.layers.get? layer = some old

variable {state : State} {layer : Nat}

theorem Edited.refl (state : State) : Edited state state := ⟨.refl, rfl, rfl, fun _ pool found => ⟨pool, found⟩⟩

theorem Edited.trans {first second third : State} (left : Edited first second) (right : Edited second third) :
    Edited first third where
  tables := left.tables.trans right.tables
  keepMask := right.keepMask.trans left.keepMask
  shrunk := right.shrunk.trans left.shrunk
  layers := by
    intro layer pool found
    obtain ⟨old, stood⟩ := right.layers layer pool found
    exact left.layers layer old stood

theorem Edited.withCtx {before after : Ctx} (view : state.ctx? layer = some before)
    (edits : before.tables.Edits after.tables) : Edited state (state.withCtx layer after) where
  tables := (State.pool_of_ctx? view).2.2.1 ▸ edits
  keepMask := rfl
  shrunk := rfl
  layers := by
    intro other pool found
    rw [State.get?_withCtx] at found
    split at found
    · next same => exact ⟨before.pool, same ▸ (State.pool_of_ctx? view).1⟩
    · exact ⟨pool, found⟩

def EditedAll (state : State) (result : List State × State) : Prop :=
  (∀ seen ∈ result.1, Edited state seen) ∧ Edited state result.2

theorem EditedAll.append {first second : List State × State} (here : EditedAll state first)
    (later : EditedAll first.2 second) : EditedAll state (first.1 ++ first.2 :: second.1, second.2) := by
  refine ⟨?_, here.2.trans later.2⟩
  intro seen member
  rcases List.mem_append.mp member with inside | rest
  · exact here.1 seen inside
  · rcases List.mem_cons.mp rest with rfl | rest
    · exact here.2
    · exact here.2.trans (later.1 seen rest)

theorem EditedAll.lift {result : List Ctx × Ctx} (view : state.ctx? layer = some ctx)
    (editing : Editing ctx.tables result) :
    EditedAll state (result.1.map (state.withCtx layer), state.withCtx layer result.2) := by
  refine ⟨?_, .withCtx view editing.final⟩
  intro seen member
  obtain ⟨inside, visited, rfl⟩ := List.mem_map.mp member
  exact .withCtx view (editing.visited inside visited)

theorem hookLayer_edits (sigmoid : ℚ → ℚ) (config : HookConfig) (faults : Faults) (state : State) (layer : Nat) :
    EditedAll state ((hookLayer sigmoid config faults state layer).visited,
      (hookLayer sigmoid config faults state layer).final) := by
  unfold hookLayer
  cases buffered : state.stash.get? layer with
  | none => exact ⟨by simp, .refl state⟩
  | some buffer =>
      cases view : state.ctx? layer with
      | none => exact ⟨by simp, .refl state⟩
      | some ctx =>
          have ticked : Edited state (state.withCtx layer ctx.tickUp) := .withCtx view .refl
          cases read : readBallot config buffer with
          | none =>
              simp only [read]
              exact ⟨by simp, ticked⟩
          | some ballot =>
              have consumed : Edited state { state.withCtx layer ctx.tickUp with
                  stash := state.stash.set layer buffer.drained } :=
                ⟨ticked.tables, ticked.keepMask, ticked.shrunk, ticked.layers⟩
              by_cases fits : ballot.Fits ctx.pool.experts
              · have seen := @State.ctx?_withCtx_self state layer ctx ctx.tickUp view rfl
                have tick := tickLayer_edits sigmoid config faults (degradeEnabled config state) ctx.tickUp ballot
                have lifted : EditedAll { state.withCtx layer ctx.tickUp with
                    stash := state.stash.set layer buffer.drained } _ := .lift seen tick
                simp only [read, if_pos fits]
                exact ⟨fun other member => consumed.trans (lifted.1 other member), consumed.trans lifted.2⟩
              · simp only [read, if_neg fits]
                exact ⟨by simp, consumed⟩

theorem hookLayers_edits (sigmoid : ℚ → ℚ) (config : HookConfig) (faults : Faults) (layers : List Nat)
    (state : State) :
    EditedAll state ((hookLayers sigmoid config faults layers state).visited,
      (hookLayers sigmoid config faults layers state).final) := by
  induction layers generalizing state with
  | nil => exact ⟨by simp [hookLayers], .refl state⟩
  | cons layer rest ih =>
      have here := hookLayer_edits sigmoid config faults state layer
      simp only [hookLayers]
      cases raised : (hookLayer sigmoid config faults state layer).raised with
      | true => simpa [raised] using here
      | false => simpa [raised] using here.append (ih (hookLayer sigmoid config faults state layer).final)

theorem stageLayers_edits (faults : Faults) (candidates : Nat → List Nat) (layers : List Nat) (state : State) :
    EditedAll state (stageLayers faults candidates layers state) := by
  induction layers generalizing state with
  | nil => exact ⟨by simp [stageLayers], .refl state⟩
  | cons layer rest ih =>
      have here : EditedAll state (stageLayer faults candidates state layer) := by
        unfold stageLayer
        cases view : state.ctx? layer with
        | none => exact ⟨by simp, .refl state⟩
        | some ctx => exact .lift view (stageAll_edits faults _ ctx.tickUp)
      exact here.append (ih (stageLayer faults candidates state layer).2)

theorem hookDue_edits (capturing : Bool) (state : State) : Edited state (hookDue capturing state).1 := by
  unfold hookDue
  split
  · exact .refl state
  · dsimp only
    split
    · exact ⟨.refl, rfl, rfl, fun _ pool found => ⟨pool, found⟩⟩
    · exact ⟨.refl, rfl, rfl, fun _ pool found => ⟨pool, found⟩⟩

theorem step_edits (sigmoid : ℚ → ℚ) (state : State) (event : Event)
    (notForward : ∀ layer capturing dtype logits, event ≠ .forward layer capturing dtype logits) :
    EditedAll state ((machine sigmoid).step state event) := by
  cases event with
  | forward layer capturing dtype logits => exact absurd rfl (notForward layer capturing dtype logits)
  | stash layer capturing preMask topkIds k =>
      obtain ⟨stash, dirty, same⟩ := stashDemand_eq sigmoid state layer capturing preMask topkIds k
      refine ⟨by simp [machine, step], ?_⟩
      change Edited state (stashDemand sigmoid state layer capturing preMask topkIds k)
      rw [same]
      exact ⟨.refl, rfl, rfl, fun _ pool found => ⟨pool, found⟩⟩
  | hook config faults capturing =>
      have due := hookDue_edits capturing state
      change EditedAll state (afterForwardHook sigmoid config faults capturing state)
      simp only [afterForwardHook]
      cases goes : (hookDue capturing state).2 with
      | false => exact ⟨by simp, due⟩
      | true =>
          have layers := hookLayers_edits sigmoid config faults state.layers.keys (hookDue capturing state).1
          exact ⟨fun seen member => due.trans (layers.1 seen member), due.trans layers.2⟩
  | stageLists faults candidates => exact stageLayers_edits faults candidates state.layers.keys state
  | phaseB config layer flat =>
      change EditedAll state (phaseBLayer config flat state layer)
      unfold phaseBLayer
      cases view : state.ctx? layer with
      | none => exact ⟨by simp, .refl state⟩
      | some ctx => exact .lift view (phaseB_edits config flat ctx)

end FlashNext.ColdPool
