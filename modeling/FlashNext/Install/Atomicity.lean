import FlashNext.Install.Anchors

namespace FlashNext.Install

open FlashNext.Data Anchored

section Topk

variable {text : Text}

/-- Both anchors of `subTopk` are found, or their hooks are in place. -/
def Gates (text : Text) : Prop := keepMaskGate.Applies text ∧ stashRemapExit.Applies text

def gated (text : Text) : Text := stashRemapExit.applied (keepMaskGate.applied text)

theorem exit_applies_iff : stashRemapExit.Applies (keepMaskGate.applied text) ↔ stashRemapExit.Applies text :=
  Patch.applies_iff gate_unbordered exit_unbordered (new_ne_nil (by simp)) (gate_leaves_exit _ (by simp))
    (gate_leaves_exit _ (by simp))

theorem subTopk_makes (text : Text) :
    Makes (patchText "topk" subTopk text) (Gates text) (keepMaskGate.InPlace text ∧ stashRemapExit.InPlace text) text
      (gated text) := by
  have both := Makes.cons (mark_in_news anchored _ (by simp) keepMaskGate.new (by simp))
    (Makes.cons (mark_in_news anchored _ (by simp) stashRemapExit.new (by simp))
      (patchText_nil_makes "topk" (stashRemapExit.applied (keepMaskGate.applied text))))
  simp only [and_true, exit_applies_iff] at both
  refine ⟨both.missed, both.src, fun able ready => both.changed able ?_, both.unchanged⟩
  rw [Patch.applied_of_inPlace ready.1]
  exact ready

theorem gated_gate (gates : Gates text) : keepMaskGate.InPlace (gated text) :=
  (Patch.edits_applied exit_unbordered).keeps (new_ne_nil (by simp)) (Or.inl (gate_apart_exit anchored _ (by simp) _ (by simp)))
    (Patch.inPlace_applied gate_unbordered gates.1)

theorem gated_exit (gates : Gates text) : stashRemapExit.InPlace (gated text) :=
  Patch.inPlace_applied exit_unbordered (exit_applies_iff.mpr gates.2)

theorem gated_occurrences {x : Text} (leaves : keepMaskGate.Leaves x ∧ stashRemapExit.Leaves x) (text : Text) :
    occurrences x (gated text) = occurrences x text := by
  rw [gated, leaves.2.occurrences_eq exit_unbordered, leaves.1.occurrences_eq gate_unbordered]

theorem gated_newlines (newlines : '\r' ∉ text) : '\r' ∉ gated text :=
  Patch.applied_newlines (Patch.applied_newlines newlines (news_newlines anchored _ (by simp))) (news_newlines anchored _ (by simp))

theorem remap_ne_nil : remapPackedIds.toList ≠ [] := by decide

theorem gated_remap : remapPackedIds.toList <:+: gated text ↔ remapPackedIds.toList <:+: text := by
  rw [← occurrences_pos_iff remap_ne_nil, ← occurrences_pos_iff remap_ne_nil,
    gated_occurrences (topk_leaves_packed _ (by simp))]

theorem gated_packs : Packs (gated text) ↔ Packs text := by
  rw [Packs, Packs, gated_remap, count_eq_occurrences packed_unbordered, count_eq_occurrences packed_unbordered,
    gated_occurrences (topk_leaves_packed _ (by simp))]

/-- The packed hook by its call on the return: a mention of `remap_packed_ids`, which
is enough for the script to skip the pass, is not enough here. -/
def PackedHooked (text : Text) : Prop := packedHook.toList <:+: text

theorem PackedHooked.mentioned (hooked : PackedHooked text) : remapPackedIds.toList <:+: text :=
  (remap_in_news anchored _ (by simp) _ (by simp)).trans hooked

theorem gated_packedHooked : PackedHooked (gated text) ↔ PackedHooked text := by
  have nonempty : packedHook.toList ≠ [] := by
    intro empty
    have mentioned := remap_in_news anchored remapPackedIds (by simp) packedHook (by simp)
    rw [empty, List.infix_nil] at mentioned
    exact remap_ne_nil mentioned
  rw [PackedHooked, PackedHooked, ← occurrences_pos_iff nonempty, ← occurrences_pos_iff nonempty,
    gated_occurrences (topk_leaves_packed _ (by simp))]

/-- A pass that goes through leaves the packed return hooked, but where it was skipped
for a mention. -/
theorem packed_packedHooked (packs : Packs text) :
    PackedHooked (packed text) ↔ (remapPackedIds.toList <:+: text → PackedHooked text) := by
  rw [packed]
  split
  · next present => exact (imp_iff_right present).symm
  · next absent =>
      refine iff_of_true ?_ fun present => absurd present absent
      have once := packs.resolve_left absent
      rw [count_eq_occurrences packed_unbordered] at once
      have found := (occurrences_pos_iff (ne_nil_of_unbordered packed_unbordered)).mp (once ▸ Nat.one_pos)
      exact (hook_in_new anchored _ (by simp) _ (by simp)).trans
        (replaceFirst_rewrites found (ne_nil_of_unbordered packed_unbordered)).has_new

theorem edits_packed (text : Text) : Edits packedReturn.old.toList packedReturn.new.toList text (packed text) := by
  rw [packed]
  split
  · exact Or.inl rfl
  · exact edits_replaceFirst (ne_nil_of_unbordered packed_unbordered) _ _

theorem packed_remap (packs : Packs text) : remapPackedIds.toList <:+: packed text := by
  rw [packed]
  split
  · next present => exact present
  · next absent =>
      have once := packs.resolve_left absent
      rw [count_eq_occurrences packed_unbordered] at once
      have found := (occurrences_pos_iff (ne_nil_of_unbordered packed_unbordered)).mp (once ▸ Nat.one_pos)
      exact (remap_in_news anchored _ (by simp) _ (by simp)).trans
        (replaceFirst_rewrites found (ne_nil_of_unbordered packed_unbordered)).has_new

theorem packed_newlines (newlines : '\r' ∉ text) : '\r' ∉ packed text := by
  rw [packed]
  split
  · exact newlines
  · intro found
    exact (mem_replaceFirst found).elim newlines (news_newlines anchored _ (by simp))

/-- The exit hook, by its own block. -/
def ExitHooked (text : Text) : Prop := layerExit.new29.toList <:+: text

theorem exitHooked_of_inPlace (inPlace : stashRemapExit.InPlace text) : ExitHooked text :=
  (exit_in_new anchored _ (by simp) _ (by simp)).trans inPlace

/-- The hooks are in place, and each v2.8 block is where it was. -/
structure Hooked (before after : Text) : Prop where
  gate : keepMaskGate.InPlace after
  exit : stashRemapExit.InPlace after
  blocks : ∀ block ∈ upg29, occurrences block.old28.toList after = occurrences block.old28.toList before

theorem gated_hooked (gates : Gates text) : Hooked text (gated text) where
  gate := gated_gate gates
  exit := gated_exit gates
  blocks block member :=
    have leaves := hooks_leave_blocks block member
    gated_occurrences ⟨leaves.1, leaves.2.1⟩ text

theorem packed_hooked {before : Text} (hooked : Hooked before text) : Hooked before (packed text) where
  gate := (edits_packed text).keeps (new_ne_nil (by simp)) (Or.inl (packed_apart anchored _ (by simp) _ (by simp)).symm) hooked.gate
  exit := (edits_packed text).keeps (new_ne_nil (by simp)) (Or.inl (packed_apart anchored _ (by simp) _ (by simp)).symm) hooked.exit
  blocks block member := by
    have leaves := (hooks_leave_blocks block member).2.2
    rw [(edits_packed text).occurrences_eq leaves.1 leaves.2, hooked.blocks block member]

end Topk

section Runner

variable {text : Text}

theorem afterForward_makes (text : Text) : Makes (patchText "model_runner" subMr text) (afterForward.Applies text)
    (afterForward.InPlace text) text (afterForward.applied text) := by
  have one := Makes.cons (mark_in_news anchored _ (by simp) afterForward.new (by simp))
    (patchText_nil_makes "model_runner" (afterForward.applied text))
  simp only [and_true] at one
  exact one

theorem shrinkAfterLoad_makes (text : Text) : Makes (patchText "model_runner-shrink" subMr2 text)
    (shrinkAfterLoad.Applies text) (shrinkAfterLoad.InPlace text) text (shrinkAfterLoad.applied text) := by
  have one := Makes.cons (mark_in_news anchored _ (by simp) shrinkAfterLoad.new (by simp))
    (patchText_nil_makes "model_runner-shrink" (shrinkAfterLoad.applied text))
  simp only [and_true] at one
  exact one

theorem shrink_applies_iff : shrinkAfterLoad.Applies (afterForward.applied text) ↔ shrinkAfterLoad.Applies text :=
  Patch.applies_iff forward_unbordered shrink_unbordered (new_ne_nil (by simp)) (forward_leaves_shrink _ (by simp))
    (forward_leaves_shrink _ (by simp))

theorem forward_inPlace (applies : afterForward.Applies text) :
    afterForward.InPlace (shrinkAfterLoad.applied (afterForward.applied text)) :=
  (Patch.edits_applied shrink_unbordered).keeps (new_ne_nil (by simp)) (Or.inl (runner_apart anchored _ (by simp) _ (by simp)))
    (Patch.inPlace_applied forward_unbordered applies)

end Runner

section Runs

variable {files : Files} {path : Path} {edit : Text → Edited} {rest : List (Path × (Text → Edited))}

theorem Files.set_get (files : Files) (path : Path) : files.set (files.get path) path = files := by
  cases path <;> rfl

/-- A pass ends the script, or it leaves its result behind, and the file as it was
where there was nothing to do. -/
theorem runPasses_cons {possible done : Prop} {result : Text}
    (makes : Makes (edit (readText (files.get path))) possible done (readText (files.get path)) result)
    (newlines : '\r' ∉ result) :
    (¬ possible ∧ (runPasses ((path, edit) :: rest) files).status = 2 ∧
        (runPasses ((path, edit) :: rest) files).files = files) ∨
      possible ∧ ∃ content, readText content = result ∧ (done → content = files.get path) ∧
        (runPasses ((path, edit) :: rest) files).status = (runPasses rest (files.set content path)).status ∧
        (runPasses ((path, edit) :: rest) files).files = (runPasses rest (files.set content path)).files := by
  by_cases able : possible
  · have found := makes.missed.mpr able
    refine Or.inr ⟨able, ?_⟩
    rw [runPasses]
    simp only [found, Bool.false_eq_true, if_false]
    have src := makes.src able
    cases changed : (edit (readText (files.get path))).changed with
    | true =>
        refine ⟨_, (congrArg readText src).trans (readText_of_newlines newlines), ?_, rfl, rfl⟩
        intro ready
        rw [makes.changed able ready] at changed
        cases changed
    | false =>
        refine ⟨files.get path, (makes.unchanged changed).symm.trans src, fun _ => rfl, ?_, ?_⟩
        · rw [Files.set_get]
          rfl
        · rw [Files.set_get]
          rfl
  · have missed := mt makes.missed.mp able
    rw [Bool.not_eq_false] at missed
    refine Or.inl ⟨able, ?_, ?_⟩
    · simp only [runPasses, missed, if_true]
    · simp only [runPasses, missed, if_true]

/-- A file left with a text; it is the file that was there if nothing had to be done. -/
structure LeftAs (before after text : Text) (untouched : Prop) : Prop where
  text : readText after = text
  same : untouched → after = before

def Absent (text : Text) : Prop := ∀ block ∈ upg29, ¬ block.old28.toList <:+: text

/-- The passes over `topk.py` have nothing to do. -/
def Skips (text : Text) : Prop :=
  keepMaskGate.InPlace text ∧ stashRemapExit.InPlace text ∧ remapPackedIds.toList <:+: text

/-- The ways a run ends: the first anchors missed, or none. -/
inductive Ends (files : Files) : Nat → Files → Prop where
  | gates {topk : Text} (missed : ¬ Gates (currentForm (readText files.topk)))
      (left : LeftAs files.topk topk (currentForm (readText files.topk)) (Absent (readText files.topk))) :
      Ends files 2 ⟨topk, files.modelRunner⟩
  | packed {topk : Text} (gates : Gates (currentForm (readText files.topk)))
      (missed : ¬ Packs (currentForm (readText files.topk)))
      (text : readText topk = gated (currentForm (readText files.topk))) : Ends files 2 ⟨topk, files.modelRunner⟩
  | forward {topk : Text} (gates : Gates (currentForm (readText files.topk)))
      (packs : Packs (currentForm (readText files.topk))) (missed : ¬ afterForward.Applies (readText files.modelRunner))
      (left : LeftAs files.topk topk (FlashNext.Install.packed (gated (currentForm (readText files.topk))))
        (Absent (readText files.topk) ∧ Skips (readText files.topk))) :
      Ends files 2 ⟨topk, files.modelRunner⟩
  | shrink {topk runner : Text} (gates : Gates (currentForm (readText files.topk)))
      (packs : Packs (currentForm (readText files.topk))) (applies : afterForward.Applies (readText files.modelRunner))
      (missed : ¬ shrinkAfterLoad.Applies (readText files.modelRunner))
      (left : LeftAs files.topk topk (FlashNext.Install.packed (gated (currentForm (readText files.topk))))
        (Absent (readText files.topk) ∧ Skips (readText files.topk)))
      (leftRunner : LeftAs files.modelRunner runner (afterForward.applied (readText files.modelRunner))
        (afterForward.InPlace (readText files.modelRunner))) :
      Ends files 2 ⟨topk, runner⟩
  | completed {topk runner : Text} (gates : Gates (currentForm (readText files.topk)))
      (packs : Packs (currentForm (readText files.topk))) (applies : afterForward.Applies (readText files.modelRunner))
      (shrinks : shrinkAfterLoad.Applies (readText files.modelRunner))
      (left : LeftAs files.topk topk (FlashNext.Install.packed (gated (currentForm (readText files.topk))))
        (Absent (readText files.topk) ∧ Skips (readText files.topk)))
      (leftRunner : LeftAs files.modelRunner runner
        (shrinkAfterLoad.applied (afterForward.applied (readText files.modelRunner)))
        (afterForward.InPlace (readText files.modelRunner) ∧ shrinkAfterLoad.InPlace (readText files.modelRunner))) :
      Ends files 0 ⟨topk, runner⟩

theorem currentForm_absent {text : Text} (absent : Absent text) : currentForm text = text :=
  congrArg Prod.fst (upgradeFrom_absent absent)

theorem deploy_ends (files : Files) : Ends files (deploy files).status (deploy files).files := by
  have clean := currentForm_newlines (readText_newlines files.topk)
  rw [deploy]
  rcases @runPasses_cons files .topk _ _ _ _ _ (upgrade_makes (readText files.topk)) clean with
    ⟨impossible, _⟩ | ⟨_, first, text, same, status, after⟩
  · exact absurd trivial impossible
  rw [status, after]
  rcases @runPasses_cons (files.set first .topk) .topk _ _ _ _ _ (subTopk_makes (readText first))
      (gated_newlines (readText_newlines first)) with ⟨missed, status, after⟩ | ⟨gates, second, text', same', status, after⟩
  · rw [status, after]
    exact .gates (text ▸ missed) ⟨text, same⟩
  rw [status, after]
  rw [text] at gates text'
  rcases @runPasses_cons ((files.set first .topk).set second .topk) .topk _ _ _ _ _ (packedRemap_makes (readText second))
      (packed_newlines (readText_newlines second)) with ⟨missed, status, after⟩ | ⟨packs, third, text'', same'', status, after⟩
  · rw [text', gated_packs] at missed
    rw [status, after]
    exact .packed gates missed text'
  rw [status, after]
  rw [text'] at text''
  rw [text', gated_packs] at packs
  have left : LeftAs files.topk third (packed (gated (currentForm (readText files.topk))))
      (Absent (readText files.topk) ∧ Skips (readText files.topk)) := by
    refine ⟨text'', ?_⟩
    intro ready
    obtain ⟨absent, gate, exit, remap⟩ := ready
    have current := currentForm_absent absent
    rw [text, current] at same'
    rw [text', gated_remap, current] at same''
    exact (same'' remap).trans ((same' ⟨gate, exit⟩).trans (same absent))
  rcases @runPasses_cons (((files.set first .topk).set second .topk).set third .topk) .modelRunner _ _ _ _ _
      (afterForward_makes (readText files.modelRunner))
      (Patch.applied_newlines (readText_newlines _) (news_newlines anchored _ (by simp))) with
    ⟨missed, status, after⟩ | ⟨applies, hooked, runner, same₁, status, after⟩
  · rw [status, after]
    exact .forward gates packs missed left
  rw [status, after]
  rcases @runPasses_cons ((((files.set first .topk).set second .topk).set third .topk).set hooked .modelRunner) .modelRunner
      _ _ _ _ _ (shrinkAfterLoad_makes (readText hooked))
      (Patch.applied_newlines (readText_newlines _) (news_newlines anchored _ (by simp))) with
    ⟨missed, status, after⟩ | ⟨shrinks, shrunk, runner', same₂, status, after⟩
  · rw [runner, shrink_applies_iff] at missed
    rw [status, after]
    exact .shrink gates packs applies missed left ⟨runner, same₁⟩
  · rw [status, after]
    rw [runner] at runner'
    rw [runner, shrink_applies_iff] at shrinks
    refine .completed gates packs applies shrinks left ⟨runner', ?_⟩
    intro ready
    rw [runner, Patch.applied_of_inPlace ready.1] at same₂
    exact (same₂ ready.2).trans (same₁ ready.1)

end Runs

section Atomicity

/-- A run that fails leaves both files as they were. -/
def Atomic (files : Files) : Prop := (deploy files).status ≠ 0 → (deploy files).files = files

/-- After a run that succeeds another one changes neither file. -/
def Repeatable (files : Files) : Prop :=
  (deploy files).status = 0 → (deploy (deploy files).files).files = (deploy files).files

/-- The run does not leave the exit hook without the one of the packed return. -/
def Paired (files : Files) : Prop :=
  ExitHooked (readText (deploy files).files.topk) → PackedHooked (readText (deploy files).files.topk)

/-- Every anchor is found. -/
def Completes (topk runner : Text) : Prop :=
  Gates (currentForm topk) ∧ Packs (currentForm topk) ∧ afterForward.Applies runner ∧ shrinkAfterLoad.Applies runner

/-- The installation goes through, with no v2.8 block there twice, and with the packed
hook there if `remap_packed_ids` is mentioned at all; or it stops at the first anchors, with no
v2.8 block to upgrade and no exit hook that is alone; or `topk.py` is installed, and
`model_runner.py` misses its anchors with nothing written. -/
def Settles (files : Files) : Prop :=
  let topk := readText files.topk
  let runner := readText files.modelRunner
  (Completes topk runner ∧ (∀ block ∈ upg29, count block.old28.toList topk ≤ 1) ∧
      (remapPackedIds.toList <:+: currentForm topk → PackedHooked (currentForm topk))) ∨
    (Absent topk ∧ ¬ Gates topk ∧ (ExitHooked topk → PackedHooked topk)) ∨
    (Absent topk ∧ Skips topk ∧ PackedHooked topk ∧ ¬ (afterForward.Applies runner ∧ shrinkAfterLoad.Applies runner) ∧
      (afterForward.Applies runner → afterForward.InPlace runner))

variable {files : Files} {text : Text}

theorem absent_iff : Absent text ↔ ∀ block ∈ upg29, occurrences block.old28.toList text = 0 := by
  apply forall₂_congr
  intro block member
  rw [← occurrences_pos_iff (ne_nil_of_unbordered (upg29_unbordered block member))]
  omega

theorem absent_of_same {after : Text}
    (blocks : ∀ block ∈ upg29, occurrences block.old28.toList after = occurrences block.old28.toList (currentForm text))
    (same : after = text) : Absent text := by
  rw [absent_iff]
  intro block member
  have kept := blocks block member
  rw [same, currentForm_occurrences text block member] at kept
  omega

theorem LeftAs.text_eq {before after : Text} {untouched : Prop} (left : LeftAs before after text untouched)
    (same : after = before) : text = readText before := left.text ▸ same ▸ rfl

theorem Hooked.skips {after : Text} (hooked : Hooked (currentForm text) after) (remap : remapPackedIds.toList <:+: after)
    (same : after = text) : Absent text ∧ Skips text :=
  ⟨absent_of_same hooked.blocks same, same ▸ hooked.gate, same ▸ hooked.exit, same ▸ remap⟩

theorem Skips.gates (skips : Skips text) : Gates text := ⟨Or.inl skips.1, Or.inl skips.2.1⟩

theorem Skips.packs (skips : Skips text) : Packs text := Or.inl skips.2.2

theorem Skips.currentForm (skips : Skips text) : Skips (currentForm text) := by
  have each (new : String) (listed : new ∈ [keepMaskGate.new, stashRemapExit.new]) :
      ∀ block ∈ upg29, Apart new.toList block.old28.toList ∨ new.toList <:+: block.new29.toList := by
    have inTexts : new ∈ [keepMaskGate.old, keepMaskGate.new, stashRemapExit.old, stashRemapExit.new, packedReturn.old,
        packedReturn.new, layerGate.new29, layerExit.new29, layerPacked.new29] := by
      simp only [List.mem_cons, List.not_mem_nil, or_false] at listed ⊢
      tauto
    exact forall_upg29.mpr ⟨Or.inl (blocks_apart_texts anchored _ (by simp) new inTexts).symm,
      Or.inl (blocks_apart_texts anchored _ (by simp) new inTexts).symm, Or.inl (blocks_apart_texts anchored _ (by simp) new inTexts).symm⟩
  have remap : ∀ block ∈ upg29, Apart remapPackedIds.toList block.old28.toList ∨
      remapPackedIds.toList <:+: block.new29.toList :=
    forall_upg29.mpr ⟨Or.inl (remap_apart anchored _ (by simp) _ (by simp)), Or.inl (remap_apart anchored _ (by simp) _ (by simp)),
      Or.inr (remap_in_news anchored _ (by simp) _ (by simp))⟩
  exact ⟨currentForm_contains (new_ne_nil (by simp)) (each _ (by simp)) skips.1,
    currentForm_contains (new_ne_nil (by simp)) (each _ (by simp)) skips.2.1,
    currentForm_contains remap_ne_nil remap skips.2.2⟩

theorem Skips.gated_eq (skips : Skips text) : packed (gated text) = text := by
  have same : gated text = text := by
    rw [gated, Patch.applied_of_inPlace skips.1, Patch.applied_of_inPlace skips.2.1]
  rw [same, packed, if_pos skips.2.2]

theorem deploy_skips (skips : Skips (readText files.topk)) (forward : afterForward.InPlace (readText files.modelRunner))
    (shrink : shrinkAfterLoad.InPlace (readText files.modelRunner)) :
    (deploy files).files = files ↔ Absent (readText files.topk) := by
  have current := skips.currentForm
  have ends := deploy_ends files
  generalize (deploy files).status = status at ends
  generalize (deploy files).files = after at ends ⊢
  cases ends with
  | gates missed _ => exact absurd current.gates missed
  | packed _ missed _ => exact absurd current.packs missed
  | forward _ _ missed _ => exact absurd (Or.inl forward) missed
  | shrink _ _ _ missed _ _ => exact absurd (Or.inl shrink) missed
  | @completed topk runner _ _ _ _ left leftRunner =>
      have kept := leftRunner.same ⟨forward, shrink⟩
      rw [current.gated_eq] at left
      constructor
      · intro same
        have unchanged := left.text_eq (congrArg Files.topk same)
        exact absent_of_same (fun _ _ => rfl) unchanged
      · intro absent
        rw [left.same ⟨absent, skips⟩, kept]

theorem passes_hooked (gates : Gates text) (packs : Packs text) : Hooked text (packed (gated text)) ∧
    remapPackedIds.toList <:+: packed (gated text) :=
  ⟨packed_hooked (gated_hooked gates), packed_remap (gated_packs.mpr packs)⟩

theorem Settles.of_topk (settles : Settles files) (gates : Gates (currentForm (readText files.topk))) :
    (Completes (readText files.topk) (readText files.modelRunner) ∧
        (∀ block ∈ upg29, count block.old28.toList (readText files.topk) ≤ 1) ∧
        (remapPackedIds.toList <:+: currentForm (readText files.topk) → PackedHooked (currentForm (readText files.topk)))) ∨
      (Absent (readText files.topk) ∧ Skips (readText files.topk) ∧ PackedHooked (readText files.topk) ∧
        ¬ (afterForward.Applies (readText files.modelRunner) ∧ shrinkAfterLoad.Applies (readText files.modelRunner)) ∧
        (afterForward.Applies (readText files.modelRunner) → afterForward.InPlace (readText files.modelRunner))) := by
  rcases settles with completes | stops | fails
  · exact Or.inl completes
  · exact absurd (currentForm_absent stops.1 ▸ gates) stops.2.1
  · exact Or.inr fails

theorem counts_iff {after : Text} (hooked : Hooked (currentForm text) after) :
    Absent after ↔ ∀ block ∈ upg29, count block.old28.toList text ≤ 1 := by
  rw [absent_iff]
  apply forall₂_congr
  intro block member
  rw [count_eq_occurrences (upg29_unbordered block member), hooked.blocks block member,
    currentForm_occurrences text block member]
  omega

/-- The three promises of a run that has ended. -/
def SafeEnd (files : Files) (status : Nat) (after : Files) : Prop :=
  (status ≠ 0 → after = files) ∧ (status = 0 → (deploy after).files = after) ∧
    (ExitHooked (readText after.topk) → PackedHooked (readText after.topk))

section Missed

variable {topk runner : Text}

theorem gates_missed_iff (missed : ¬ Gates (currentForm (readText files.topk)))
    (left : LeftAs files.topk topk (currentForm (readText files.topk)) (Absent (readText files.topk))) :
    SafeEnd files 2 ⟨topk, files.modelRunner⟩ ↔ Settles files := by
  rw [SafeEnd]
  constructor
  · intro safe
    obtain ⟨atomic, _, paired⟩ := safe
    have unchanged := left.text_eq (congrArg Files.topk (atomic (by decide)))
    have absent := absent_of_same (fun _ _ => rfl) unchanged
    rw [left.text, unchanged] at paired
    rw [unchanged] at missed
    exact Or.inr (Or.inl ⟨absent, missed, paired⟩)
  · intro settles
    rcases settles with completes | stops | fails
    · exact absurd completes.1.1 missed
    · obtain ⟨absent, _, pairs⟩ := stops
      rw [left.text, currentForm_absent absent]
      exact ⟨fun _ => by rw [left.same absent], fun same => absurd same (by decide), pairs⟩
    · rw [currentForm_absent fails.1] at missed
      exact absurd fails.2.1.gates missed

theorem packed_missed (gates : Gates (currentForm (readText files.topk))) (missed : ¬ Packs (currentForm (readText files.topk)))
    (text : readText topk = gated (currentForm (readText files.topk))) : ¬ SafeEnd files 2 ⟨topk, files.modelRunner⟩ := by
  rw [SafeEnd, text, gated_packedHooked]
  intro safe
  exact missed (Or.inl (safe.2.2 (exitHooked_of_inPlace (gated_hooked gates).exit)).mentioned)

theorem Settles.packs (settles : Settles files) (gates : Gates (currentForm (readText files.topk))) :
    Packs (currentForm (readText files.topk)) := by
  rcases settles.of_topk gates with completes | fails
  · exact completes.1.2.1
  · rw [currentForm_absent fails.1]
    exact fails.2.1.packs

theorem forward_missed_iff (gates : Gates (currentForm (readText files.topk))) (packs : Packs (currentForm (readText files.topk)))
    (missed : ¬ afterForward.Applies (readText files.modelRunner))
    (left : LeftAs files.topk topk (packed (gated (currentForm (readText files.topk))))
      (Absent (readText files.topk) ∧ Skips (readText files.topk))) :
    SafeEnd files 2 ⟨topk, files.modelRunner⟩ ↔ Settles files := by
  obtain ⟨hooked, remap⟩ := passes_hooked gates packs
  rw [SafeEnd]
  constructor
  · intro safe
    have unchanged := left.text_eq (congrArg Files.topk (safe.1 (by decide)))
    obtain ⟨absent, skips⟩ := hooked.skips remap unchanged
    have paired := safe.2.2
    rw [left.text, unchanged] at paired
    exact Or.inr (Or.inr ⟨absent, skips, paired (exitHooked_of_inPlace skips.2.1), fun able => missed able.1,
      fun able => absurd able missed⟩)
  · intro settles
    rcases settles.of_topk gates with completes | fails
    · exact absurd completes.1.2.2.1 missed
    · have same := left.same ⟨fails.1, fails.2.1⟩
      exact ⟨fun _ => by rw [same], fun zero => absurd zero (by decide), fun _ => same ▸ fails.2.2.1⟩

theorem shrink_missed_iff (gates : Gates (currentForm (readText files.topk))) (packs : Packs (currentForm (readText files.topk)))
    (applies : afterForward.Applies (readText files.modelRunner)) (missed : ¬ shrinkAfterLoad.Applies (readText files.modelRunner))
    (left : LeftAs files.topk topk (packed (gated (currentForm (readText files.topk))))
      (Absent (readText files.topk) ∧ Skips (readText files.topk)))
    (leftRunner : LeftAs files.modelRunner runner (afterForward.applied (readText files.modelRunner))
      (afterForward.InPlace (readText files.modelRunner))) :
    SafeEnd files 2 ⟨topk, runner⟩ ↔ Settles files := by
  obtain ⟨hooked, remap⟩ := passes_hooked gates packs
  rw [SafeEnd]
  constructor
  · intro safe
    have same := safe.1 (by decide)
    have unchanged := left.text_eq (congrArg Files.topk same)
    obtain ⟨absent, skips⟩ := hooked.skips remap unchanged
    have paired := safe.2.2
    rw [left.text, unchanged] at paired
    have inPlace := Patch.inPlace_applied forward_unbordered applies
    rw [leftRunner.text_eq (congrArg Files.modelRunner same)] at inPlace
    exact Or.inr (Or.inr ⟨absent, skips, paired (exitHooked_of_inPlace skips.2.1), fun able => missed able.2, fun _ => inPlace⟩)
  · intro settles
    rcases settles.of_topk gates with completes | fails
    · exact absurd completes.1.2.2.2 missed
    · have same := left.same ⟨fails.1, fails.2.1⟩
      exact ⟨fun _ => by rw [same, leftRunner.same (fails.2.2.2.2 applies)], fun zero => absurd zero (by decide),
        fun _ => same ▸ fails.2.2.1⟩

end Missed

/-- A run that went through changes something again exactly where a v2.8 block was
there twice, and leaves the packed return alone where a mention made it skip. -/
theorem completed_iff {topk runner : Text} (completes : Completes (readText files.topk) (readText files.modelRunner))
    (left : LeftAs files.topk topk (packed (gated (currentForm (readText files.topk))))
      (Absent (readText files.topk) ∧ Skips (readText files.topk)))
    (leftRunner : LeftAs files.modelRunner runner (shrinkAfterLoad.applied (afterForward.applied (readText files.modelRunner)))
      (afterForward.InPlace (readText files.modelRunner) ∧ shrinkAfterLoad.InPlace (readText files.modelRunner))) :
    SafeEnd files 0 ⟨topk, runner⟩ ↔ Settles files := by
  have ⟨gates, packs, applies, shrinks⟩ := completes
  obtain ⟨hooked, remap⟩ := passes_hooked gates packs
  have repeats : (deploy ⟨topk, runner⟩).files = ⟨topk, runner⟩ ↔
      ∀ block ∈ upg29, count block.old28.toList (readText files.topk) ≤ 1 := by
    rw [← counts_iff hooked, ← left.text]
    apply deploy_skips
    · exact left.text ▸ ⟨hooked.gate, hooked.exit, remap⟩
    · exact leftRunner.text ▸ forward_inPlace applies
    · exact leftRunner.text ▸ Patch.inPlace_applied shrink_unbordered (shrink_applies_iff.mpr shrinks)
  have paired : (ExitHooked (readText topk) → PackedHooked (readText topk)) ↔
      (remapPackedIds.toList <:+: currentForm (readText files.topk) → PackedHooked (currentForm (readText files.topk))) := by
    rw [left.text, imp_iff_right (exitHooked_of_inPlace hooked.exit), packed_packedHooked (gated_packs.mpr packs), gated_remap,
      gated_packedHooked]
  rw [SafeEnd]
  constructor
  · intro safe
    exact Or.inl ⟨completes, repeats.mp (safe.2.1 rfl), paired.mp safe.2.2⟩
  · intro settles
    rcases settles.of_topk gates with once | fails
    · exact ⟨fun failed => absurd rfl failed, fun _ => repeats.mpr once.2.1, paired.mpr once.2.2⟩
    · exact absurd ⟨applies, shrinks⟩ fails.2.2.2.1

theorem Ends.safe_iff {status : Nat} {after : Files} (ends : Ends files status after) : SafeEnd files status after ↔ Settles files := by
  cases ends with
  | gates missed left => exact gates_missed_iff missed left
  | packed gates missed text => exact iff_of_false (packed_missed gates missed text) fun settles => missed (settles.packs gates)
  | forward gates packs missed left => exact forward_missed_iff gates packs missed left
  | shrink gates packs applies missed left leftRunner => exact shrink_missed_iff gates packs applies missed left leftRunner
  | completed gates packs applies shrinks left leftRunner =>
      exact completed_iff ⟨gates, packs, applies, shrinks⟩ left leftRunner

/-- A failed or a repeated run leaves all as it is, and no run leaves half of the
hooks, exactly where the installation settles. -/
theorem deploy_atomic_iff (files : Files) : (Atomic files ∧ Repeatable files ∧ Paired files) ↔ Settles files :=
  (deploy_ends files).safe_iff

/-- A `topk.py` with both anchors of `subTopk`, in which the packed return has changed. -/
def driftedReturn : Text := keepMaskGate.old.toList ++ stashRemapExit.old.toList

theorem driftedReturn_text : readText driftedReturn = driftedReturn := by
  apply readText_of_newlines
  intro found
  rcases List.mem_append.mp found with inGate | inExit
  · exact olds_newlines anchored _ (by simp) inGate
  · exact olds_newlines anchored _ (by simp) inExit

theorem driftedReturn_occurrences {x : Text} (gate : Apart x keepMaskGate.old.toList) (exit : Apart x stashRemapExit.old.toList) :
    occurrences x driftedReturn = 0 := by
  have none := @occurrences_skip _ _ x _ [] exit.2
  rw [List.append_nil] at none
  exact (occurrences_skip gate.2).trans none

theorem driftedReturn_absent : Absent driftedReturn := by
  rw [absent_iff]
  intro block member
  have leaves := hooks_leave_blocks block member
  exact driftedReturn_occurrences leaves.1.1 leaves.2.1.1

theorem driftedReturn_gates : Gates driftedReturn := by
  have apart : Apart keepMaskGate.old.toList stashRemapExit.old.toList := gate_apart_exit anchored _ (by simp) _ (by simp)
  refine ⟨Or.inr ?_, Or.inr ?_⟩
  · have one := @occurrences_self _ _ _ [] stashRemapExit.old.toList gate_unbordered
    have none := @occurrences_skip _ _ keepMaskGate.old.toList stashRemapExit.old.toList [] apart.2
    rw [List.append_nil] at none
    rw [List.nil_append, none] at one
    rw [count_eq_occurrences gate_unbordered, driftedReturn, one]
    rfl
  · have one := @occurrences_self _ _ _ [] [] exit_unbordered
    rw [List.nil_append, List.append_nil] at one
    rw [count_eq_occurrences exit_unbordered, driftedReturn, occurrences_skip apart.1, one]
    rfl

theorem driftedReturn_not_packs : ¬ Packs driftedReturn := by
  have none (text : String) (member : text ∈ [packedReturn.old, remapPackedIds, packedHook]) :
      occurrences text.toList driftedReturn = 0 :=
    driftedReturn_occurrences (topk_leaves_packed text member).1.1 (topk_leaves_packed text member).2.1
  intro packs
  rcases packs with present | once
  · have found := (occurrences_pos_iff remap_ne_nil).mpr present
    rw [none _ (by simp)] at found
    cases found
  · rw [count_eq_occurrences packed_unbordered, none _ (by simp)] at once
    cases once

/-- The script exits with 2 and has written the exit hook without the packed one. -/
theorem drifted_return_half_installed :
    (deploy ⟨driftedReturn, []⟩).status = 2 ∧ ¬ Atomic ⟨driftedReturn, []⟩ ∧ ¬ Paired ⟨driftedReturn, []⟩ := by
  have ends := deploy_ends ⟨driftedReturn, []⟩
  rw [Atomic, Paired]
  generalize (deploy ⟨driftedReturn, []⟩).status = status at ends ⊢
  generalize (deploy ⟨driftedReturn, []⟩).files = after at ends ⊢
  have text : currentForm (readText driftedReturn) = driftedReturn := by
    rw [driftedReturn_text, currentForm_absent driftedReturn_absent]
  have gates : Gates (currentForm (readText driftedReturn)) := by
    rw [text]
    exact driftedReturn_gates
  have stops : ¬ Packs (currentForm (readText driftedReturn)) := by
    rw [text]
    exact driftedReturn_not_packs
  cases ends with
  | gates missed _ => exact absurd gates missed
  | forward _ packs _ _ => exact absurd packs stops
  | shrink _ packs _ _ _ _ => exact absurd packs stops
  | completed _ packs _ _ _ _ => exact absurd packs stops
  | @packed topk _ _ left =>
      rw [text] at left
      have exit := gated_exit driftedReturn_gates
      have half : stashRemapExit.InPlace (readText topk) ∧ ¬ remapPackedIds.toList <:+: readText topk := by
        rw [left, gated_remap]
        exact ⟨exit, fun present => driftedReturn_not_packs (Or.inl present)⟩
      refine ⟨rfl, ?_, fun paired => half.2 (paired (exitHooked_of_inPlace half.1)).mentioned⟩
      intro atomic
      have same : topk = driftedReturn := congrArg Files.topk (atomic (by decide))
      rw [same, driftedReturn_text] at half
      -- the exit hook is apart from both anchors
      have none := driftedReturn_occurrences (gate_leaves_exit stashRemapExit.new (by simp)).1
        (exit_apart_anchor anchored _ (by simp) _ (by simp))
      have found := (occurrences_pos_iff (new_ne_nil (by simp))).mpr half.1
      rw [none] at found
      cases found

end Atomicity

end FlashNext.Install
