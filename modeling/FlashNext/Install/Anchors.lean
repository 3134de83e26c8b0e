import FlashNext.Install.Hooks

namespace FlashNext.Install

open FlashNext.Data

section Codes

variable {texts others : List String} {chars chars' : List Text}

theorem toNat_injective : Char.toNat.Injective := fun _ _ => Char.toNat_inj.mp

theorem related_of_chars {related : Text → Text → Prop} (same : texts = chars.map String.ofList)
    (same' : others = chars'.map String.ofList) (checked : ∀ x ∈ chars, ∀ y ∈ chars', related x y) :
    ∀ text ∈ texts, ∀ other ∈ others, related text.toList other.toList := by
  subst same same'
  intro text member other member'
  obtain ⟨x, listed, rfl⟩ := List.mem_map.mp member
  obtain ⟨y, listed', rfl⟩ := List.mem_map.mp member'
  rw [String.toList_ofList, String.toList_ofList]
  exact checked x listed y listed'

theorem apart_of_codes (same : texts = chars.map String.ofList) (same' : others = chars'.map String.ofList)
    (checked : ∀ x ∈ chars.map (List.map Char.toNat), ∀ y ∈ chars'.map (List.map Char.toNat), Apart x y) :
    ∀ text ∈ texts, ∀ other ∈ others, Apart text.toList other.toList := by
  refine @related_of_chars _ _ _ _ Apart same same' ?_
  intro x listed y listed'
  exact (apart_map toNat_injective).mp (checked _ (List.mem_map_of_mem listed) _ (List.mem_map_of_mem listed'))

theorem forall_of_chars {holds : Text → Prop} (same : texts = chars.map String.ofList) (checked : ∀ x ∈ chars, holds x) :
    ∀ text ∈ texts, holds text.toList := by
  have each := @related_of_chars texts [""] chars [[]] (fun x _ => holds x) same rfl fun x listed _ _ => checked x listed
  intro text member
  exact each text member "" (List.mem_singleton.mpr rfl)

end Codes

/-- The packed return with its hook: the ids are remapped right before they are
returned, however the call of the return goes on. -/
def packedHook : String := "        if _cp_lid is not None:
            packed_topk = _ecp.remap_packed_ids(_cp_lid, packed_topk)
        return StandardTopKOutputPacked("

/-- How the texts of the installer stand to each other. -/
structure Anchored : Prop where
  blocks_apart_texts : ∀ old ∈ [layerGate.old28, layerExit.old28, layerPacked.old28],
      ∀ text ∈ [keepMaskGate.old, keepMaskGate.new, stashRemapExit.old, stashRemapExit.new, packedReturn.old,
      packedReturn.new, layerGate.new29, layerExit.new29, layerPacked.new29], Apart old.toList text.toList
  gate_apart_blocks : ∀ old ∈ [layerGate.old28], ∀ old' ∈ [layerExit.old28, layerPacked.old28], Apart old.toList old'.toList
  exit_apart_packed : ∀ old ∈ [layerExit.old28], ∀ old' ∈ [layerPacked.old28], Apart old.toList old'.toList
  gate_apart_exit : ∀ text ∈ [keepMaskGate.old, keepMaskGate.new], ∀ other ∈ [stashRemapExit.old, stashRemapExit.new],
      Apart text.toList other.toList
  exit_apart_anchor : ∀ text ∈ [stashRemapExit.new], ∀ other ∈ [stashRemapExit.old], Apart text.toList other.toList
  packed_apart : ∀ text ∈ [packedReturn.old, remapPackedIds, packedHook],
      ∀ other ∈ [keepMaskGate.old, keepMaskGate.new, stashRemapExit.old, stashRemapExit.new], Apart text.toList other.toList
  remap_apart : ∀ text ∈ [remapPackedIds], ∀ other ∈ [layerGate.old28, layerExit.old28], Apart text.toList other.toList
  runner_apart : ∀ text ∈ [afterForward.old, afterForward.new], ∀ other ∈ [shrinkAfterLoad.old, shrinkAfterLoad.new],
      Apart text.toList other.toList
  olds_unbordered : ∀ text ∈ [layerGate.old28, layerExit.old28, layerPacked.old28, keepMaskGate.old, stashRemapExit.old,
      packedReturn.old, afterForward.old, shrinkAfterLoad.old], unbordered text.toList = true
  mark_in_news : ∀ text ∈ [mark], ∀ other ∈ [keepMaskGate.new, stashRemapExit.new, afterForward.new, shrinkAfterLoad.new],
      text.toList <:+: other.toList
  remap_in_news : ∀ text ∈ [remapPackedIds], ∀ other ∈ [layerPacked.new29, packedReturn.new, packedHook],
      text.toList <:+: other.toList
  hook_in_new : ∀ text ∈ [packedHook], ∀ other ∈ [packedReturn.new], text.toList <:+: other.toList
  exit_in_new : ∀ text ∈ [layerExit.new29], ∀ other ∈ [stashRemapExit.new], text.toList <:+: other.toList
  news_newlines : ∀ text ∈ [layerGate.new29, layerExit.new29, layerPacked.new29, keepMaskGate.new, stashRemapExit.new,
      packedReturn.new, afterForward.new, shrinkAfterLoad.new], '\r' ∉ text.toList
  olds_newlines : ∀ text ∈ [keepMaskGate.old, stashRemapExit.old], '\r' ∉ text.toList

set_option maxRecDepth 20000 in
theorem anchored : Anchored where
  blocks_apart_texts := @apart_of_codes _ _ [_, _, _] [_, _, _, _, _, _, _, _, _] rfl rfl (by decide +kernel)
  gate_apart_blocks := @apart_of_codes _ _ [_] [_, _] rfl rfl (by decide +kernel)
  exit_apart_packed := @apart_of_codes _ _ [_] [_] rfl rfl (by decide +kernel)
  gate_apart_exit := @apart_of_codes _ _ [_, _] [_, _] rfl rfl (by decide +kernel)
  exit_apart_anchor := @apart_of_codes _ _ [_] [_] rfl rfl (by decide +kernel)
  packed_apart := @apart_of_codes _ _ [_, _, _] [_, _, _, _] rfl rfl (by decide +kernel)
  remap_apart := @apart_of_codes _ _ [_] [_, _] rfl rfl (by decide +kernel)
  runner_apart := @apart_of_codes _ _ [_, _] [_, _] rfl rfl (by decide +kernel)
  olds_unbordered := @forall_of_chars _ [_, _, _, _, _, _, _, _] (fun text => unbordered text = true) rfl (by decide +kernel)
  mark_in_news := @related_of_chars _ _ [_] [_, _, _, _] (fun text other => text <:+: other) rfl rfl (by decide +kernel)
  remap_in_news := @related_of_chars _ _ [_] [_, _, _] (fun text other => text <:+: other) rfl rfl (by decide +kernel)
  hook_in_new := @related_of_chars _ _ [_] [_] (fun text other => text <:+: other) rfl rfl (by decide +kernel)
  exit_in_new := @related_of_chars _ _ [_] [_] (fun text other => text <:+: other) rfl rfl (by decide +kernel)
  news_newlines := @forall_of_chars _ [_, _, _, _, _, _, _, _] (fun text => '\r' ∉ text) rfl (by decide +kernel)
  olds_newlines := @forall_of_chars _ [_, _] (fun text => '\r' ∉ text) rfl (by decide +kernel)

open Anchored

theorem readText_newlines (content : Text) : '\r' ∉ readText content := by
  fun_induction readText content with
  | case1 => exact List.not_mem_nil
  | case2 rest ih => exact List.not_mem_cons_of_ne_of_not_mem (by decide) ih
  | case3 rest _ ih => exact List.not_mem_cons_of_ne_of_not_mem (by decide) ih
  | case4 char rest _ ordinary ih =>
      have other : '\r' ≠ char := fun same => ordinary same.symm
      exact List.not_mem_cons_of_ne_of_not_mem other ih

theorem readText_of_newlines {text : Text} (newlines : '\r' ∉ text) : readText text = text := by
  fun_induction readText text with
  | case1 => rfl
  | case2 rest ih => exact absurd List.mem_cons_self newlines
  | case3 rest _ ih => exact absurd List.mem_cons_self newlines
  | case4 char rest _ _ ih => exact congrArg _ (ih fun member => newlines (List.mem_cons_of_mem _ member))

section Upgrade

variable {blocks : List Block} {text : Text}

def Block.pair (block : Block) : Text × Text := (block.old28.toList, block.new29.toList)

theorem upgradeFrom_text (blocks : List Block) (text : Text) :
    (upgradeFrom blocks text).1 = replaceEach (blocks.map Block.pair) text := by
  induction blocks generalizing text with
  | nil => rfl
  | cons block rest ih =>
      rw [upgradeFrom, List.map_cons, replaceEach_cons]
      split
      · exact ih _
      · next absent =>
          rw [Block.pair, replaceFirst_absent absent]
          exact ih _

theorem upgradeFrom_absent (absent : ∀ block ∈ blocks, ¬ block.old28.toList <:+: text) :
    upgradeFrom blocks text = (text, 0) := by
  induction blocks with
  | nil => rfl
  | cons block rest ih =>
      rw [upgradeFrom, if_neg (absent block (by simp))]
      exact ih fun other member => absent other (by simp [member])

theorem absent_of_upgradeFrom (none : (upgradeFrom blocks text).2 = 0) :
    ∀ block ∈ blocks, ¬ block.old28.toList <:+: text := by
  induction blocks with
  | nil => simp
  | cons block rest ih =>
      rw [upgradeFrom] at none
      split at none
      · cases none
      · next absent => exact List.forall_mem_cons.mpr ⟨absent, ih none⟩

end Upgrade

/-- A text with the first v2.8 block of each kind in its v2.9 form. -/
def currentForm (text : Text) : Text := (upgradeFrom upg29 text).1

section CurrentForm

variable {text : Text}

theorem forall_upg29 {holds : Block → Prop} :
    (∀ block ∈ upg29, holds block) ↔ holds layerGate ∧ holds layerExit ∧ holds layerPacked := by
  simp [upg29]

theorem upg29_unbordered : ∀ block ∈ upg29, unbordered block.old28.toList = true :=
  forall_upg29.mpr ⟨olds_unbordered anchored _ (by simp), olds_unbordered anchored _ (by simp), olds_unbordered anchored _ (by simp)⟩

theorem upg29_news : ∀ block ∈ upg29, ∀ other ∈ upg29, Apart block.old28.toList other.new29.toList := by
  simp only [forall_upg29]
  exact ⟨⟨blocks_apart_texts anchored _ (by simp) _ (by simp), blocks_apart_texts anchored _ (by simp) _ (by simp),
      blocks_apart_texts anchored _ (by simp) _ (by simp)⟩,
    ⟨blocks_apart_texts anchored _ (by simp) _ (by simp), blocks_apart_texts anchored _ (by simp) _ (by simp),
      blocks_apart_texts anchored _ (by simp) _ (by simp)⟩,
    blocks_apart_texts anchored _ (by simp) _ (by simp), blocks_apart_texts anchored _ (by simp) _ (by simp),
    blocks_apart_texts anchored _ (by simp) _ (by simp)⟩

theorem upg29_olds : upg29.Pairwise fun block other => Apart block.old28.toList other.old28.toList := by
  simp only [upg29, List.pairwise_cons, List.mem_cons, List.not_mem_nil, or_false, forall_eq_or_imp, forall_eq]
  exact ⟨⟨gate_apart_blocks anchored _ (by simp) _ (by simp), gate_apart_blocks anchored _ (by simp) _ (by simp)⟩,
    exit_apart_packed anchored _ (by simp) _ (by simp), by simp⟩

theorem currentForm_occurrences (text : Text) :
    ∀ block ∈ upg29, occurrences block.old28.toList (currentForm text) = occurrences block.old28.toList text - 1 := by
  intro block member
  rw [currentForm, upgradeFrom_text]
  refine occurrences_replaceEach ?_ ?_ ?_ block.pair (List.mem_map_of_mem member)
  · exact List.forall_mem_map.mpr upg29_unbordered
  · exact List.forall_mem_map.mpr fun block member => List.forall_mem_map.mpr (upg29_news block member)
  · exact List.pairwise_map.mpr upg29_olds

theorem currentForm_keeps {holds : Text → Prop}
    (each : ∀ block ∈ upg29, ∀ before after, Edits block.old28.toList block.new29.toList before after → holds before → holds after)
    (start : holds text) : holds (currentForm text) := by
  rw [currentForm, upgradeFrom_text]
  refine replaceEach_keeps ?_ (List.forall_mem_map.mpr each) start
  exact List.forall_mem_map.mpr fun block member => ne_nil_of_unbordered (upg29_unbordered block member)

theorem currentForm_contains {x : Text} (nonempty : x ≠ [])
    (safe : ∀ block ∈ upg29, Apart x block.old28.toList ∨ x <:+: block.new29.toList) (present : x <:+: text) :
    x <:+: currentForm text :=
  currentForm_keeps (fun block member _ _ edits => edits.keeps nonempty (safe block member)) present

theorem currentForm_newlines (newlines : '\r' ∉ text) : '\r' ∉ currentForm text := by
  refine @currentForm_keeps text (fun text => '\r' ∉ text) ?_ newlines
  intro block member before after edits clean found
  have news : ∀ block ∈ upg29, '\r' ∉ block.new29.toList :=
    forall_upg29.mpr ⟨news_newlines anchored _ (by simp), news_newlines anchored _ (by simp), news_newlines anchored _ (by simp)⟩
  exact (edits.mem found).elim clean (news block member)

end CurrentForm

namespace Patch

variable {patch : Patch} {text text' old new : Text}

def InPlace (patch : Patch) (text : Text) : Prop := patch.new.toList <:+: text

/-- The patch is in place, or its anchor is there exactly once. -/
def Applies (patch : Patch) (text : Text) : Prop := patch.InPlace text ∨ count patch.old.toList text = 1

def applied (patch : Patch) (text : Text) : Text :=
  if patch.new.toList <:+: text then text else replaceFirst patch.old.toList patch.new.toList text

theorem edits_applied (once : unbordered patch.old.toList = true) :
    Edits patch.old.toList patch.new.toList text (patch.applied text) := by
  rw [applied]
  split
  · exact Or.inl rfl
  · exact edits_replaceFirst (ne_nil_of_unbordered once) _ _

theorem inPlace_applied (once : unbordered patch.old.toList = true) (applies : patch.Applies text) :
    patch.InPlace (patch.applied text) := by
  rw [applied]
  split
  · next present => exact present
  · next absent =>
      have found := applies.resolve_left absent
      rw [count_eq_occurrences once] at found
      have present := (occurrences_pos_iff (ne_nil_of_unbordered once)).mp (found ▸ Nat.one_pos)
      exact (replaceFirst_rewrites present (ne_nil_of_unbordered once)).has_new

theorem applied_of_inPlace (present : patch.InPlace text) : patch.applied text = text := if_pos present

/-- The patch leaves every place of a text alone. -/
def Leaves (patch : Patch) (x : Text) : Prop := Apart x patch.old.toList ∧ Apart x patch.new.toList

theorem Leaves.occurrences_eq {x : Text} (leaves : patch.Leaves x) (once : unbordered patch.old.toList = true) (text : Text) :
    occurrences x (patch.applied text) = occurrences x text := (edits_applied once).occurrences_eq leaves.1 leaves.2

/-- A patch that leaves both texts of another alone does not matter to it. -/
theorem applies_iff {other : Patch} (once : unbordered patch.old.toList = true) (once' : unbordered other.old.toList = true)
    (nonempty : other.new.toList ≠ []) (old : patch.Leaves other.old.toList) (new : patch.Leaves other.new.toList) :
    other.Applies (patch.applied text) ↔ other.Applies text := by
  rw [Applies, Applies, InPlace, InPlace, (edits_applied once).infix_iff nonempty new.1 new.2, count_eq_occurrences once',
    count_eq_occurrences once', old.occurrences_eq once]

theorem applied_newlines (newlines : '\r' ∉ text) (clean : '\r' ∉ patch.new.toList) : '\r' ∉ patch.applied text := by
  rw [applied]
  split
  · exact newlines
  · intro found
    exact (mem_replaceFirst found).elim newlines clean

end Patch

theorem gate_unbordered : unbordered keepMaskGate.old.toList = true := olds_unbordered anchored _ (by simp)

theorem exit_unbordered : unbordered stashRemapExit.old.toList = true := olds_unbordered anchored _ (by simp)

theorem packed_unbordered : unbordered packedReturn.old.toList = true := olds_unbordered anchored _ (by simp)

theorem forward_unbordered : unbordered afterForward.old.toList = true := olds_unbordered anchored _ (by simp)

theorem shrink_unbordered : unbordered shrinkAfterLoad.old.toList = true := olds_unbordered anchored _ (by simp)

theorem new_ne_nil {text : String} (listed : text ∈ [keepMaskGate.new, stashRemapExit.new, afterForward.new, shrinkAfterLoad.new]) :
    text.toList ≠ [] := by
  intro empty
  have marked := mark_in_news anchored mark (by simp) text listed
  rw [empty, List.infix_nil] at marked
  revert marked
  decide

theorem gate_leaves_exit : ∀ text ∈ [stashRemapExit.old, stashRemapExit.new], keepMaskGate.Leaves text.toList :=
  fun text member => ⟨(gate_apart_exit anchored _ (by simp) text member).symm, (gate_apart_exit anchored _ (by simp) text member).symm⟩

theorem topk_leaves_packed : ∀ text ∈ [packedReturn.old, remapPackedIds, packedHook],
    keepMaskGate.Leaves text.toList ∧ stashRemapExit.Leaves text.toList :=
  fun text member => ⟨⟨packed_apart anchored text member _ (by simp), packed_apart anchored text member _ (by simp)⟩,
    packed_apart anchored text member _ (by simp), packed_apart anchored text member _ (by simp)⟩

theorem hooks_leave_blocks : ∀ block ∈ upg29, keepMaskGate.Leaves block.old28.toList ∧
    stashRemapExit.Leaves block.old28.toList ∧ packedReturn.Leaves block.old28.toList := by
  have each (old : String) (member : old ∈ [layerGate.old28, layerExit.old28, layerPacked.old28]) :
      keepMaskGate.Leaves old.toList ∧ stashRemapExit.Leaves old.toList ∧ packedReturn.Leaves old.toList :=
    ⟨⟨blocks_apart_texts anchored old member _ (by simp), blocks_apart_texts anchored old member _ (by simp)⟩,
      ⟨blocks_apart_texts anchored old member _ (by simp), blocks_apart_texts anchored old member _ (by simp)⟩,
      blocks_apart_texts anchored old member _ (by simp), blocks_apart_texts anchored old member _ (by simp)⟩
  exact forall_upg29.mpr ⟨each _ (by simp), each _ (by simp), each _ (by simp)⟩

theorem forward_leaves_shrink : ∀ text ∈ [shrinkAfterLoad.old, shrinkAfterLoad.new], afterForward.Leaves text.toList :=
  fun text member => ⟨(runner_apart anchored _ (by simp) text member).symm, (runner_apart anchored _ (by simp) text member).symm⟩

/-- What a pass makes of a text, where it can be made and where there is nothing to do. -/
structure Makes (edited : Edited) (possible done : Prop) (text result : Text) : Prop where
  missed : edited.missed = false ↔ possible
  src : possible → edited.src = result
  changed : possible → done → edited.changed = false
  unchanged : edited.changed = false → edited.src = text

theorem upgrade_makes (text : Text) :
    Makes (upgrade text) True (∀ block ∈ upg29, ¬ block.old28.toList <:+: text) text (currentForm text) := by
  refine ⟨iff_of_true ?_ trivial, fun _ => ?_, fun _ absent => ?_, fun same => ?_⟩
  · rw [upgrade]
  · rw [upgrade, currentForm]
  · rw [upgrade, upgradeFrom_absent absent]
    have zero : decide ((0 : Nat) ≠ 0) = false := by decide
    exact zero
  · have none : (upgradeFrom upg29 text).2 = 0 := by simpa [upgrade] using same
    rw [upgrade, upgradeFrom_absent (absent_of_upgradeFrom none)]

section PatchText

variable {patch : Patch} {label : String}

theorem patchText_cons (label : String) (marked : mark.toList <:+: patch.new.toList) (rest : List Patch) (text : Text) :
    (patch.InPlace text ∧ ∃ printed, patchText label (patch :: rest) text = { patchText label rest text with printed := printed }) ∨
      (¬ patch.InPlace text ∧ count patch.old.toList text = 1 ∧ ∃ printed, patchText label (patch :: rest) text =
        { patchText label rest (patch.applied text) with changed := true, printed := printed }) ∨
      (¬ patch.Applies text ∧ ∃ printed, patchText label (patch :: rest) text = ⟨text, false, true, printed⟩) := by
  rw [patchText]
  dsimp only
  split
  · next present => exact Or.inl ⟨present.2.2, _, rfl⟩
  · next skipped =>
      have absent : ¬ patch.new.toList <:+: text := fun present => skipped ⟨marked, marked.trans present, present⟩
      split
      · next once =>
          rw [Patch.applied, if_neg absent]
          exact Or.inr (Or.inl ⟨absent, once, _, rfl⟩)
      · next missed => exact Or.inr (Or.inr ⟨fun applies => applies.elim absent missed, _, rfl⟩)

theorem Makes.cons {rest : List Patch} {text result : Text} {possible done : Prop}
    (marked : mark.toList <:+: patch.new.toList)
    (later : Makes (patchText label rest (patch.applied text)) possible done (patch.applied text) result) :
    Makes (patchText label (patch :: rest) text) (patch.Applies text ∧ possible) (patch.InPlace text ∧ done) text result := by
  rcases patchText_cons label marked rest text with ⟨present, printed, made⟩ | ⟨absent, found, printed, made⟩ |
    ⟨missed, printed, made⟩
  · have same := Patch.applied_of_inPlace present
    rw [same] at later
    rw [made]
    exact ⟨later.missed.trans (and_iff_right (Or.inl present)).symm, fun able => later.src able.2,
      fun able ready => later.changed able.2 ready.2, later.unchanged⟩
  · rw [made]
    refine ⟨later.missed.trans (and_iff_right (Or.inr found)).symm, fun able => later.src able.2, ?_, ?_⟩
    · intro _ ready
      exact absurd ready.1 absent
    · intro same
      cases same
  · rw [made]
    refine ⟨iff_of_false (by simp) fun able => missed able.1, fun able => absurd able.1 missed, fun able => absurd able.1 missed, ?_⟩
    intro _
    rfl

theorem patchText_nil_makes (label : String) (text : Text) : Makes (patchText label [] text) True True text text :=
  ⟨iff_of_true rfl trivial, fun _ => rfl, fun _ _ => rfl, fun _ => rfl⟩

end PatchText

/-- The pass over the packed return goes through: it is skipped, which any mention of
`remap_packed_ids` does, or it finds its anchor exactly once. -/
def Packs (text : Text) : Prop := remapPackedIds.toList <:+: text ∨ count packedReturn.old.toList text = 1

def packed (text : Text) : Text :=
  if remapPackedIds.toList <:+: text then text else replaceFirst packedReturn.old.toList packedReturn.new.toList text

theorem packedRemap_makes (text : Text) :
    Makes (packedRemap text) (Packs text) (remapPackedIds.toList <:+: text) text (packed text) := by
  rw [packedRemap]
  split
  · next absent =>
      dsimp only
      split
      · next once =>
          refine ⟨iff_of_true rfl (Or.inr once), fun _ => ?_, fun _ present => absurd present absent, fun same => ?_⟩
          · rw [packed, if_neg absent]
          · cases same
      · next missed =>
          have fails : ¬ Packs text := fun packs => packs.elim absent missed
          exact ⟨iff_of_false (by simp) fails, fun able => absurd able fails, fun able => absurd able fails, fun _ => rfl⟩
  · next present =>
      have present := not_not.mp present
      refine ⟨iff_of_true rfl (Or.inl present), fun _ => ?_, fun _ _ => rfl, fun _ => rfl⟩
      rw [packed, if_pos present]

end FlashNext.Install
