import FlashNext.ColdPool.Invariant

namespace FlashNext.ColdPool

open FlashNext.Data

abbrev Ctx.Inv (original : Module) (ctx : Ctx) : Prop :=
  LayerInv original ctx.tables ctx.pool ctx.module

abbrev Ctx.Flying (ctx : Ctx) (row : Nat) : Prop := InFlight ctx.tables ctx.pool row

variable {original : Module} {before ctx : Ctx} {faults : Faults} {gid row layer experts phys : Nat}

theorem resetNeed_inv (inv : ctx.Inv original) (gid : Nat) : (resetNeed gid ctx).Inv original :=
  { inv with static := { inv.static with } }

theorem evict_inv (inv : ctx.Inv original) (ticked : row ∈ ctx.pool.rowTick.keys)
    (noFree : ctx.pool.freeRows = []) :
    (evictRow row ctx).Inv original ∧ (evictRow row ctx).Flying row := by
  unfold evictRow
  cases owned : ctx.pool.rowGid.get? row with
  | none =>
      have unowned : row ∉ ctx.pool.rowGid.keys := Dict.get?_eq_none_iff.mp owned
      exact ⟨inv, inv.ticked row ticked, by simp [noFree], unowned,
        inv.vacant_of_unowned (Or.inr ticked) unowned⟩
  | some old =>
      have oldRow : ctx.pool.gidRow.get? old = some row := inv.owner row old owned
      obtain ⟨_, oldPlaced, _⟩ := inv.resident old row oldRow
      have invariant : LayerInv original (mask ctx.tables ctx.pool.layerId old)
          { ctx.pool with rowGid := ctx.pool.rowGid.pop row, gidRow := ctx.pool.gidRow.pop old }
          ctx.module :=
        { inv with
          static := { inv.static with }
          served := inv.served.mask old
          owned := by
            intro gid at_ placed
            obtain ⟨different, before⟩ := placement_of_mask placed
            rcases inv.owned gid at_ before with resident | pin
            · exact Or.inl (by simp [different, resident])
            · exact Or.inr ⟨pin.1, pin.2.1, pin.2.2.1, fun member =>
                pin.2.2.2 (Dict.mem_keys_pop.mp member).2⟩
          resident := by
            intro gid at_ found
            rw [Dict.get?_pop] at found
            split at found
            · contradiction
            · rename_i different
              obtain ⟨cold, placed, back⟩ := inv.resident gid at_ found
              have otherRow : at_ ≠ row := by
                intro equal
                subst equal
                rw [owned, Option.some.injEq] at back
                exact different back.symm
              exact ⟨cold, by simp [placement_mask, different, placed], by simp [otherRow, back]⟩
          owner := by
            intro at_ gid found
            rw [Dict.get?_pop] at found
            split at found
            · contradiction
            · rename_i otherRow
              have forward := inv.owner at_ gid found
              have different : gid ≠ old := by
                intro equal
                subst equal
                rw [oldRow, Option.some.injEq] at forward
                exact otherRow forward.symm
              simp [different, forward]
          free := by simp [noFree]
          live := fun gid at_ placed => inv.live gid at_ (placement_of_mask placed).2 }
      have unowned : row ∉ (ctx.pool.rowGid.pop row).keys := fun member =>
        (Dict.mem_keys_pop.mp member).1 rfl
      exact ⟨invariant, inv.ticked row ticked, by simp [noFree], unowned,
        invariant.vacant_of_unowned (Or.inr ticked) unowned⟩

/-- `staged - evicted`, less the residents of this layer. -/
def Ctx.net (ctx : Ctx) : Int := ctx.stats.staged - ctx.stats.evicted - ctx.pool.gidRow.size

theorem evictRow_net (inv : ctx.Inv original) (row : Nat) : (evictRow row ctx).net = ctx.net := by
  unfold evictRow
  cases owned : ctx.pool.rowGid.get? row with
  | none => rfl
  | some old =>
      have shorter := Dict.size_pop_of_mem (Dict.mem_keys_of_get? (inv.owner row old owned))
      simp only [Ctx.net]
      omega

theorem oldestRow_mem {pool : Pool} {victim : Nat} (oldest : oldestRow pool = some victim) :
    victim ∈ pool.rowTick.keys :=
  (List.mem_filter.mp (firstBest_mem oldest)).1

theorem pickRow_inv (inv : ctx.Inv original) :
    (pickRow ctx).1.Inv original ∧ ∀ row, (pickRow ctx).2 = some row → (pickRow ctx).1.Flying row := by
  unfold pickRow
  cases free : ctx.pool.freeRows with
  | cons first rest =>
      obtain ⟨firstBound, firstUnowned⟩ := inv.free first (by simp [free])
      obtain ⟨firstFresh, restDistinct⟩ := List.nodup_cons.mp (free ▸ inv.freeDistinct)
      constructor
      · exact { inv with
          static := { inv.static with }
          owned := by
            intro gid at_ placed
            rcases inv.owned gid at_ placed with resident | pin
            · exact Or.inl resident
            · exact Or.inr ⟨pin.1, fun member => pin.2.1 (by simp [free, member]), pin.2.2⟩
          freeDistinct := restDistinct
          free := fun row member => inv.free row (by simp [free, member]) }
      · intro row same
        cases same
        exact ⟨firstBound, firstFresh, firstUnowned,
          inv.vacant_of_unowned (Or.inl (by simp [free])) firstUnowned⟩
  | nil =>
      cases oldest : oldestRow ctx.pool with
      | none => exact ⟨inv, fun row found => by simp at found⟩
      | some victim =>
          obtain ⟨kept, flying⟩ := evict_inv inv (oldestRow_mem oldest) free
          refine ⟨kept, ?_⟩
          intro row same
          cases same
          exact flying

theorem pickRow_net (inv : ctx.Inv original) : (pickRow ctx).1.net = ctx.net := by
  unfold pickRow
  split
  · rfl
  · split
    · rfl
    · exact evictRow_net inv _

/-- Where a staging stands while it copies into its row: only tensor bytes and
the failure counter differ from the state it started in. -/
structure Filling (original : Module) (before : Ctx) (row : Nat) (ctx : Ctx) : Prop where
  inv : ctx.Inv original
  flying : ctx.Flying row
  tables : ctx.tables = before.tables
  pool : ctx.pool = before.pool
  staged : ctx.stats.staged = before.stats.staged
  evicted : ctx.stats.evicted = before.stats.evicted

theorem Filling.start (inv : ctx.Inv original) (flying : ctx.Flying row) :
    Filling original ctx row ctx :=
  ⟨inv, flying, rfl, rfl, rfl, rfl⟩

theorem Filling.copy {before : Ctx} (filling : Filling original before row ctx) (name : String)
    (bytes : Row) :
    Filling original before row { ctx with module := ctx.module.writeRow name row bytes } :=
  { filling with
    inv := { filling.inv with served := filling.inv.served.write filling.flying.vacant name bytes }
    flying := { filling.flying with } }

theorem Filling.net {before : Ctx} (filling : Filling original before row ctx) : ctx.net = before.net := by
  rw [Ctx.net, Ctx.net, filling.pool, filling.staged, filling.evicted]

theorem copyParams_filling {before : Ctx} {entries : List (String × Row)}
    (filling : Filling original before row ctx) :
    Filling original before row (copyParams faults gid row entries ctx).final ∧
      ∀ seen ∈ (copyParams faults gid row entries ctx).visited, Filling original before row seen := by
  induction entries generalizing ctx with
  | nil => exact ⟨filling, by simp [copyParams]⟩
  | cons entry rest ih =>
      obtain ⟨name, pinned⟩ := entry
      rw [copyParams]
      cases target : targetRows faults ctx gid row name with
      | none => exact ⟨{ filling with }, by simp⟩
      | some rows =>
          have copied := filling.copy name pinned
          obtain ⟨final, visited⟩ := ih copied
          refine ⟨final, ?_⟩
          intro seen member
          rcases List.mem_cons.mp member with rfl | later
          · exact copied
          · exact visited seen later

theorem rowAt_isSome {tables : Tables} {module : Module} (served : Served original tables layer experts phys module)
    (inside : row < phys) {name : String} (member : name ∈ expertNames original experts) :
    ∃ bytes, module.rowAt name row = some bytes := by
  obtain ⟨rows, found, count⟩ := Option.map_eq_some_iff.mp (served.shape name member)
  exact ⟨rows[row], by simp [Module.rowAt, found, count ▸ inside]⟩

theorem obj?_eq_of_attrs {left right : Module} (same : left.attrs = right.attrs) (name : String) :
    left.obj? name = right.obj? name := by
  rw [Module.obj?, Module.obj?, same]

theorem rowAt_eq_of_obj? (module : Module) {left right : String}
    (same : module.obj? left = module.obj? right) (row : Nat) :
    module.rowAt left row = module.rowAt right row := by
  simp only [Module.rowAt, Module.rows?_eq, same]

/-- After a copy that went through, the row holds the expert's bytes in every
tensor that some entry reaches, through its own name or through an alias, and
in every tensor that held them before. -/
theorem copyParams_holds {entries : List (String × Row)}
    (filling : Filling original before row ctx)
    (named : ∀ entry ∈ entries, original.rowAt entry.1 gid = some entry.2)
    (copied : (copyParams faults gid row entries ctx).ok = true) {name : String}
    (member : name ∈ expertNames original before.pool.experts)
    (reached : (∃ entry ∈ entries, original.obj? entry.1 = original.obj? name) ∨
      ctx.module.rowAt name row = original.rowAt name gid) :
    (copyParams faults gid row entries ctx).final.module.rowAt name row = original.rowAt name gid := by
  induction entries generalizing ctx with
  | nil => simpa [copyParams] using reached
  | cons entry rest ih =>
      obtain ⟨head, pinned⟩ := entry
      rw [copyParams] at copied ⊢
      cases target : targetRows faults ctx gid row head with
      | none => simp [target] at copied
      | some rows =>
          simp only [target] at copied ⊢
          refine ih (filling.copy head pinned) (fun entry inside => named entry (by simp [inside])) copied ?_
          rcases reached with ⟨source, inside, alias_⟩ | already
          · rcases List.mem_cons.mp inside with rfl | later
            · right
              have bytes := named _ inside
              rw [rowAt_eq_of_obj? original alias_] at bytes
              have bound : ctx.module.obj? head = ctx.module.obj? name := by
                rw [obj?_eq_of_attrs filling.inv.served.attrs, obj?_eq_of_attrs filling.inv.served.attrs,
                  alias_]
              obtain ⟨old, present⟩ := rowAt_isSome filling.inv.served filling.flying.bound
                (filling.pool ▸ member)
              rw [Module.rowAt_writeRow, present, if_pos ⟨bound, rfl⟩, bytes]
              rfl
            · exact Or.inl ⟨source, later, alias_⟩
          · right
            rw [Module.rowAt_writeRow]
            split
            · rename_i hit
              have alias_ : original.obj? head = original.obj? name := by
                rw [← obj?_eq_of_attrs filling.inv.served.attrs, ← obj?_eq_of_attrs filling.inv.served.attrs,
                  hit.1]
              have bytes := named (head, pinned) (by simp)
              rw [rowAt_eq_of_obj? original alias_] at bytes
              obtain ⟨old, present⟩ := rowAt_isSome filling.inv.served filling.flying.bound
                (filling.pool ▸ member)
              rw [present, bytes]
              rfl
            · exact already

theorem natCast_ne_neverSeen (tick : Nat) : (tick : Int) ≠ neverSeen := by
  simp only [neverSeen]
  omega

theorem installRow_inv {nbytes : Nat} (inv : ctx.Inv original) (flying : ctx.Flying row)
    (cold : gid ∈ ctx.pool.cold) (fresh : gid ∉ ctx.pool.gidRow.keys)
    (holds : ctx.module.contents (expertNames original ctx.pool.experts) row =
      original.contents (expertNames original ctx.pool.experts) gid) :
    (installRow gid row nbytes ctx).Inv original := by
  have bound := ((inv.static.cold gid).mp cold).1
  have column := inv.served.columns gid bound .bfloat16 (by simp [buildDtypes])
  obtain ⟨old, mapped, _⟩ := inv.served.remapped gid bound
  have place := placement_unmask row column mapped
  have absent : ctx.pool.gidRow.get? gid = none := Dict.get?_eq_none_iff.mpr fresh
  have elsewhere : ∀ {other at_}, placement ctx.tables ctx.pool.layerId other = some at_ → at_ ≠ row :=
    fun placed same => flying.vacant _ (same ▸ placed)
  exact {
    static := { inv.static with }
    served := inv.served.unmask bound flying.bound holds
    owned := by
      intro other at_ placed
      have placed := (place other).symm.trans placed
      split at placed
      · rename_i same
        rw [Option.some.injEq] at placed
        exact Or.inl (by simp [installRow, same, placed])
      · rename_i different
        have away := elsewhere placed
        rcases inv.owned other at_ placed with resident | ⟨kept, notFree, notTicked, notOwned⟩
        · exact Or.inl (by simp [installRow, different, resident])
        · refine Or.inr ⟨kept, notFree, ?_, ?_⟩
          · simp [installRow, Dict.mem_keys_set, away, notTicked]
          · simp [installRow, Dict.mem_keys_set, away, notOwned]
    resident := by
      intro other at_ found
      simp only [installRow, Dict.get?_set] at found
      split at found
      · rename_i same
        cases found
        subst same
        exact ⟨cold, (place other).trans (by simp), by simp [installRow]⟩
      · rename_i different
        obtain ⟨otherCold, placed, back⟩ := inv.resident other at_ found
        exact ⟨otherCold, (place other).trans (by simp [different, placed]),
          by simp [installRow, elsewhere placed, back]⟩
    owner := by
      intro at_ other found
      simp only [installRow, Dict.get?_set] at found ⊢
      split at found
      · rename_i same
        cases found
        simp [same]
      · have forward := inv.owner at_ other found
        have different : other ≠ gid := by
          intro equal
          subst equal
          rw [absent] at forward
          contradiction
        simp [different, forward]
    freeDistinct := inv.freeDistinct
    free := by
      intro at_ member
      have away : at_ ≠ row := fun same => flying.notFree (same ▸ member)
      obtain ⟨inside, unowned⟩ := inv.free at_ member
      exact ⟨inside, by simp [installRow, Dict.mem_keys_set, away, unowned]⟩
    ticked := by
      intro at_ member
      rcases Dict.mem_keys_set.mp member with rfl | before
      · exact flying.bound
      · exact inv.ticked at_ before
    live := by
      intro other at_ placed
      have placed := (place other).symm.trans placed
      simp only [installRow, Dict.get?_set]
      split at placed
      · rw [Option.some.injEq] at placed
        simp [placed, natCast_ne_neverSeen]
      · simp [elsewhere placed, inv.live other at_ placed]
    host := inv.host
    hostCopy := inv.hostCopy }

theorem installRow_net (fresh : gid ∉ ctx.pool.gidRow.keys) (row nbytes : Nat) :
    (installRow gid row nbytes ctx).net = ctx.net - 1 := by
  simp only [Ctx.net, installRow, Dict.size_set_of_not_mem fresh]
  omega

theorem returnRow_inv (inv : ctx.Inv original) (flying : ctx.Flying row) :
    (returnRow row ctx).Inv original := by
  unfold returnRow
  rw [if_pos ⟨flying.unowned, flying.notFree⟩]
  exact { inv with
    static := { inv.static with }
    owned := by
      intro other at_ placed
      have away : at_ ≠ row := fun same => flying.vacant other (same ▸ placed)
      rcases inv.owned other at_ placed with resident | ⟨kept, notFree, rest⟩
      · exact Or.inl resident
      · exact Or.inr ⟨kept, by simp [notFree, away], rest⟩
    freeDistinct := by
      rw [List.nodup_append]
      refine ⟨inv.freeDistinct, by simp, ?_⟩
      intro at_ member _ last equal
      subst equal
      rw [List.mem_singleton] at last
      exact flying.notFree (last ▸ member)
    free := by
      intro at_ member
      rcases List.mem_append.mp member with before | last
      · exact inv.free at_ before
      · rw [List.mem_singleton] at last
        subst last
        exact ⟨flying.bound, flying.unowned⟩ }

theorem returnRow_net (row : Nat) (ctx : Ctx) : (returnRow row ctx).net = ctx.net := by
  unfold returnRow
  split <;> rfl

theorem hostEntry_named (faults : Faults) (inv : ctx.Inv original) (cold : gid ∈ ctx.pool.cold) :
    hostEntry faults ctx gid = [] ∨
      HostRows original (expertNames original ctx.pool.experts) gid (hostEntry faults ctx gid) := by
  obtain ⟨rows, found, hosted⟩ := inv.host gid cold
  unfold hostEntry
  split
  · exact Or.inl rfl
  · rw [found]
    exact Or.inr hosted

/-- A staging into a picked row: at every moment the tables are faithful, a
success serves the expert, and a failure leaves the row in flight. -/
theorem rowFromHost_inv (inv : ctx.Inv original) (flying : ctx.Flying row) (cold : gid ∈ ctx.pool.cold)
    (fresh : gid ∉ ctx.pool.gidRow.keys) :
    (∀ seen ∈ (rowFromHost faults gid row ctx).visited, Filling original ctx row seen) ∧
      ((rowFromHost faults gid row ctx).ok = true →
        (rowFromHost faults gid row ctx).final.Inv original ∧
          (rowFromHost faults gid row ctx).final.net = ctx.net - 1) ∧
      ((rowFromHost faults gid row ctx).ok = false →
        Filling original ctx row (rowFromHost faults gid row ctx).final) := by
  have started := Filling.start inv flying
  rcases hostEntry_named faults inv cold with none | hosted
  · simp [rowFromHost, none, started]
  · obtain ⟨final, visited⟩ := copyParams_filling started
    have unfolded : hostEntry faults ctx gid ≠ [] := hosted.nonempty
    simp only [rowFromHost, if_neg unfolded]
    cases copied : (copyParams faults gid row (hostEntry faults ctx gid) ctx).ok with
    | false => exact ⟨visited, by simp [copied], fun _ => final⟩
    | true =>
        refine ⟨visited, fun _ => ?_, by simp⟩
        have stillFresh : gid ∉ (copyParams faults gid row (hostEntry faults ctx gid) ctx).final.pool.gidRow.keys :=
          final.pool ▸ fresh
        refine ⟨installRow_inv final.inv final.flying (final.pool ▸ cold) stillFresh ?_, ?_⟩
        swap
        · rw [if_pos rfl, installRow_net stillFresh, final.net]
        rw [Module.contents_eq_iff, final.pool]
        intro name member
        obtain ⟨entry, inside, _, alias_⟩ := hosted.complete name member
        exact copyParams_holds started (fun entry inside => hosted.bytes entry inside (hosted.listed entry inside))
          copied member (Or.inl ⟨entry, inside, alias_⟩)

theorem pickRow_fresh (fresh : gid ∉ ctx.pool.gidRow.keys) : gid ∉ (pickRow ctx).1.pool.gidRow.keys := by
  unfold pickRow
  split
  · exact fresh
  · split
    · exact fresh
    · unfold evictRow
      split
      · exact fresh
      · exact fun member => fresh (Dict.mem_keys_pop.mp member).2

/-- What an operation of one layer leaves alone: the fields its pool was built
with, and the tables of every other layer. -/
structure Ctx.Frame (before after : Ctx) : Prop where
  frozen : after.pool.frozen = before.pool.frozen
  elsewhere : ∀ layer, layer ≠ before.pool.layerId → Tables.Same layer before.tables after.tables

theorem Ctx.Frame.refl (ctx : Ctx) : ctx.Frame ctx := ⟨rfl, fun layer _ => Tables.Same.refl layer _⟩

theorem Ctx.Frame.trans {first second third : Ctx} (left : first.Frame second)
    (right : second.Frame third) : first.Frame third where
  frozen := right.frozen.trans left.frozen
  elsewhere := by
    intro layer different
    have layerId : second.pool.layerId = first.pool.layerId := Pool.layerId_of_frozen left.frozen
    exact (left.elsewhere layer different).trans (right.elsewhere layer (layerId ▸ different))

theorem Ctx.Frame.of_tables {before after : Ctx} (frozen : after.pool.frozen = before.pool.frozen)
    (tables : after.tables = before.tables) : before.Frame after :=
  ⟨frozen, fun layer _ => tables ▸ Tables.Same.refl layer _⟩

theorem Filling.frame (filling : Filling original before row ctx) : before.Frame ctx :=
  .of_tables (congrArg Pool.frozen filling.pool) filling.tables

theorem evictRow_frame (row : Nat) (ctx : Ctx) : ctx.Frame (evictRow row ctx) := by
  unfold evictRow
  split
  · exact .refl ctx
  · exact ⟨rfl, fun layer different => Tables.same_mask ctx.tables _ different⟩

theorem pickRow_frame (ctx : Ctx) : ctx.Frame (pickRow ctx).1 := by
  unfold pickRow
  split
  · exact .of_tables rfl rfl
  · split
    · exact .refl ctx
    · exact evictRow_frame _ ctx

theorem installRow_frame (gid row nbytes : Nat) (ctx : Ctx) :
    ctx.Frame (installRow gid row nbytes ctx) :=
  ⟨rfl, fun _ different => Tables.same_unmask ctx.tables _ _ different⟩

theorem returnRow_frame (row : Nat) (ctx : Ctx) : ctx.Frame (returnRow row ctx) := by
  unfold returnRow
  split
  · exact .of_tables rfl rfl
  · exact .refl ctx

theorem copyParams_frame (faults : Faults) (gid row : Nat) (entries : List (String × Row)) (ctx : Ctx) :
    ctx.Frame (copyParams faults gid row entries ctx).final := by
  induction entries generalizing ctx with
  | nil => exact .refl ctx
  | cons entry rest ih =>
      rw [copyParams]
      split
      · exact .of_tables rfl rfl
      · have copied : ctx.Frame { ctx with module := ctx.module.writeRow entry.1 row entry.2 } :=
          .of_tables rfl rfl
        exact copied.trans (ih _)

theorem rowFromHost_frame (faults : Faults) (gid row : Nat) (ctx : Ctx) :
    ctx.Frame (rowFromHost faults gid row ctx).final := by
  simp only [rowFromHost]
  split
  · exact .refl ctx
  · have copied := copyParams_frame faults gid row (hostEntry faults ctx gid) ctx
    split
    · exact copied.trans (installRow_frame gid row _ _)
    · exact copied

structure Ctx.Reached (original : Module) (before after : Ctx) : Prop where
  inv : after.Inv original
  frame : before.Frame after

theorem Ctx.Reached.after {first second third : Ctx} (later : Ctx.Reached original second third)
    (frame : first.Frame second) : Ctx.Reached original first third :=
  ⟨later.inv, frame.trans later.frame⟩

/-- Staging never takes a keep expert out of service. -/
def Ctx.Keeps (before after : Ctx) : Prop :=
  ∀ gid ∈ before.pool.keep, before.tables.Routable before.pool.layerId gid →
    after.tables.Routable before.pool.layerId gid

theorem Ctx.Keeps.of_tables {before after : Ctx} (tables : after.tables = before.tables) :
    before.Keeps after := fun _ _ routable => tables ▸ routable

theorem Ctx.Keeps.trans {first second third : Ctx} (left : first.Keeps second) (frame : first.Frame second)
    (right : second.Keeps third) : first.Keeps third := by
  intro gid kept routable
  have layerId := Pool.layerId_of_frozen frame.frozen
  have stillKept : gid ∈ second.pool.keep := (congrArg Pool.keep frame.frozen) ▸ kept
  have middle := left gid kept routable
  rw [← layerId] at middle ⊢
  exact right gid stillKept middle

theorem pickRow_keeps (inv : ctx.Inv original) : ctx.Keeps (pickRow ctx).1 := by
  unfold pickRow
  split
  · exact .of_tables rfl
  · split
    · exact .of_tables rfl
    · rename_i victim _
      unfold evictRow
      cases owned : ctx.pool.rowGid.get? victim with
      | none => exact .of_tables rfl
      | some old =>
          intro gid kept routable
          have oldCold := (inv.resident old victim (inv.owner victim old owned)).1
          exact routable_mask_iff.mpr ⟨(inv.ne_of_keep kept oldCold).symm, routable⟩

theorem installRow_keeps (gid row nbytes : Nat) (ctx : Ctx) : ctx.Keeps (installRow gid row nbytes ctx) := by
  intro other _ routable
  simp only [Tables.Routable] at routable
  simp only [installRow, Tables.Routable, biasAt_unmask, routable]
  split <;> rfl

theorem returnRow_keeps (row : Nat) (ctx : Ctx) : ctx.Keeps (returnRow row ctx) := by
  unfold returnRow
  split <;> exact .of_tables rfl

theorem copyParams_tables (faults : Faults) (gid row : Nat) (entries : List (String × Row)) (ctx : Ctx) :
    (copyParams faults gid row entries ctx).final.tables = ctx.tables := by
  induction entries generalizing ctx with
  | nil => rfl
  | cons entry rest ih =>
      rw [copyParams]
      split
      · rfl
      · exact ih _

theorem rowFromHost_keeps (faults : Faults) (gid row : Nat) (ctx : Ctx) :
    ctx.Keeps (rowFromHost faults gid row ctx).final := by
  simp only [rowFromHost]
  split
  · exact .of_tables rfl
  · have copied : ctx.Keeps (copyParams faults gid row (hostEntry faults ctx gid) ctx).final :=
      .of_tables (copyParams_tables faults gid row _ ctx)
    split
    · exact copied.trans (copyParams_frame faults gid row _ ctx) (installRow_keeps gid row _ _)
    · exact copied

structure Ctx.Restaged (original : Module) (before after : Ctx) : Prop
    extends Ctx.Reached original before after where
  keeps : before.Keeps after

theorem Ctx.Restaged.after {first second third : Ctx} (later : Ctx.Restaged original second third)
    (here : Ctx.Restaged original first second) : Ctx.Restaged original first third :=
  ⟨later.toReached.after here.frame, here.keeps.trans here.frame later.keeps⟩

/-- One candidate: the invariant holds at every moment, and the loop goes on
from a state in which it holds. -/
theorem stageOne_inv (faults : Faults) (inv : ctx.Inv original) (cold : gid ∈ ctx.pool.cold) :
    (∀ seen ∈ (stageOne faults gid ctx).1, Ctx.Restaged original ctx seen) ∧
      ∀ next, (stageOne faults gid ctx).2 = some next →
        Ctx.Restaged original ctx next ∧ next.net = ctx.net := by
  have reset : Ctx.Restaged original ctx (resetNeed gid ctx) :=
    ⟨⟨resetNeed_inv inv gid, .of_tables rfl rfl⟩, .of_tables rfl⟩
  simp only [stageOne]
  split
  · exact ⟨by simp, fun next same => Option.some.inj same ▸ ⟨reset, rfl⟩⟩
  · rename_i fresh
    obtain ⟨pickedInv, pickedFlying⟩ := pickRow_inv reset.inv
    have picking : Ctx.Restaged original ctx (pickRow (resetNeed gid ctx)).1 :=
      Ctx.Restaged.after ⟨⟨pickedInv, pickRow_frame _⟩, pickRow_keeps reset.inv⟩ reset
    have stillFresh := pickRow_fresh fresh
    have net : (pickRow (resetNeed gid ctx)).1.net = ctx.net := pickRow_net reset.inv
    cases picked : pickRow (resetNeed gid ctx) with
    | mk after row? =>
        rw [picked] at picking stillFresh net pickedFlying
        cases row? with
        | none => exact ⟨by simp, by simp⟩
        | some row =>
            have stillCold : gid ∈ after.pool.cold := (congrArg Pool.cold picking.frame.frozen) ▸ cold
            obtain ⟨visited, success, failure⟩ :=
              @rowFromHost_inv _ _ faults gid row picking.inv (pickedFlying row rfl) stillCold stillFresh
            have frame := rowFromHost_frame faults gid row after
            have keeps := rowFromHost_keeps faults gid row after
            have exposed : ∀ seen ∈ after :: (rowFromHost faults gid row after).visited,
                Ctx.Restaged original ctx seen := by
              intro seen member
              rcases List.mem_cons.mp member with rfl | inside
              · exact picking
              · have filling := visited seen inside
                exact Ctx.Restaged.after ⟨⟨filling.inv, filling.frame⟩, .of_tables filling.tables⟩ picking
            dsimp only
            split
            · rename_i ok
              obtain ⟨installed, behind⟩ := success ok
              refine ⟨exposed, fun next same => Option.some.inj same ▸
                ⟨Ctx.Restaged.after ⟨⟨installed, frame.trans (.of_tables rfl rfl)⟩, keeps⟩ picking, ?_⟩⟩
              simp only [Ctx.net] at behind net ⊢
              omega
            · rename_i failed
              have filling := failure (by simpa using failed)
              refine ⟨exposed, fun next same => Option.some.inj same ▸
                ⟨Ctx.Restaged.after ⟨⟨returnRow_inv filling.inv filling.flying,
                  frame.trans (returnRow_frame row _)⟩, keeps.trans frame (returnRow_keeps row _)⟩ picking, ?_⟩⟩
              rw [returnRow_net, filling.net]
              exact net

theorem stageAll_inv (faults : Faults) {candidates : List Nat} (inv : ctx.Inv original)
    (cold : ∀ gid ∈ candidates, gid ∈ ctx.pool.cold) :
    (∀ seen ∈ (stageAll faults candidates ctx).1, Ctx.Restaged original ctx seen) ∧
      Ctx.Restaged original ctx (stageAll faults candidates ctx).2 ∧
      (stageAll faults candidates ctx).2.net = ctx.net := by
  induction candidates generalizing ctx with
  | nil => exact ⟨by simp [stageAll], ⟨⟨inv, .refl ctx⟩, .of_tables rfl⟩, rfl⟩
  | cons gid rest ih =>
      obtain ⟨visited, reached⟩ := stageOne_inv faults inv (cold gid (by simp))
      simp only [stageAll]
      cases staged : stageOne faults gid ctx with
      | mk seenHere next? =>
          rw [staged] at visited reached
          cases next? with
          | none =>
              exact ⟨visited, ⟨⟨resetNeed_inv inv gid, .of_tables rfl rfl⟩, .of_tables rfl⟩, rfl⟩
          | some next =>
              obtain ⟨here, net⟩ := reached next rfl
              have stillCold : ∀ gid ∈ rest, gid ∈ next.pool.cold := fun gid member =>
                (congrArg Pool.cold here.frame.frozen) ▸ cold gid (by simp [member])
              obtain ⟨later, final, laterNet⟩ := ih here.inv stillCold
              refine ⟨?_, final.after here, laterNet.trans net⟩
              intro seen member
              rcases List.mem_append.mp member with first | rest
              · exact visited seen first
              · rcases List.mem_cons.mp rest with rfl | rest
                · exact here
                · exact (later seen rest).after here

end FlashNext.ColdPool
