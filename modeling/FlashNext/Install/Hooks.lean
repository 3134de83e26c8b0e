import FlashNext.Data.Texts
import Mathlib.Data.List.Infix

namespace FlashNext.Install

open FlashNext.Data

/-! `deploy_expert_cold_pool.py` edits `topk.py` and `model_runner.py` in five passes.
Each pass reads its file, replaces anchors by anchors with a hook, and writes the
file back if it has changed; the first pass that misses an anchor ends the script.
Texts that the source builds with f-strings stand here with their values. -/

/-- The content of a file, character by character. -/
abbrev Text := List Char

/-- `open(path).read()` reads every line end as a newline. -/
def readText : Text → Text
  | [] => []
  | '\r' :: '\n' :: rest => '\n' :: readText rest
  | '\r' :: rest => '\n' :: readText rest
  | char :: rest => char :: readText rest

structure Block where
  old28 : String
  new29 : String

structure Patch where
  name : String
  old : String
  new : String

/-- `MARK`. -/
def mark : String := "# expert-cold-pool-v2"

/-- The gate at the entry of `select_experts`. -/
def layerGate : Block where
  old28 := "    _pre_mask_logits = None
    if layer_id is not None and _ecp.offload_active():
        router_logits, _pre_mask_logits = _ecp.apply_keep_mask(layer_id, router_logits)"
  new29 := "    _pre_mask_logits = None
    # v2.9 IDENTITY gate: keep the layer_id, but only act when this caller's
    # TopKConfig was registered by the shrink — MTP draft layers reuse
    # decoder layer_id 0..47 inside the same process and must stay untouched.
    _cp_lid = _ecp.is_managed_config(topk_config) if layer_id is not None else None
    if _cp_lid is not None:
        router_logits, _pre_mask_logits = _ecp.apply_keep_mask(_cp_lid, router_logits)"

def layerExit : Block where
  old28 := "    if _pre_mask_logits is not None:
        _k = topk_ids.shape[-1] if topk_ids.dim() > 1 else 1
        _ecp.stash_demand(layer_id, _pre_mask_logits, recorder_topk_ids, _k)
    topk_ids = _ecp.remap_topk_ids(layer_id, topk_ids)"
  new29 := "    if _cp_lid is not None:
        _k = topk_ids.shape[-1] if topk_ids.dim() > 1 else 1
        _ecp.stash_demand(_cp_lid, _pre_mask_logits, recorder_topk_ids, _k)
        topk_ids = _ecp.remap_topk_ids(_cp_lid, topk_ids)"

def layerPacked : Block where
  old28 := "        packed_topk = _ecp.remap_packed_ids(layer_id, packed_topk)"
  new29 := "        if _cp_lid is not None:
            packed_topk = _ecp.remap_packed_ids(_cp_lid, packed_topk)"

/-- `UPG29`. -/
def upg29 : List Block := [layerGate, layerExit, layerPacked]

def keepMaskGate : Patch where
  name := "keep-mask-gate"
  old := "    (
        router_logits,
        correction_bias,
    ) = expert_location_dispatch.transform_select_experts_inputs(
        router_logits=router_logits,
        correction_bias=correction_bias,
        info=expert_location_dispatch_info,
    )

    # DeepSeek V2/V3/R1 series models use grouped_top_k"
  new := "    (
        router_logits,
        correction_bias,
    ) = expert_location_dispatch.transform_select_experts_inputs(
        router_logits=router_logits,
        correction_bias=correction_bias,
        info=expert_location_dispatch_info,
    )

    # expert-cold-pool-v2: runtime expert keep-mask/cold-pool (see layers/moe/expert_cold_pool.py)
    from sglang.srt.layers.moe import expert_cold_pool as _ecp

    _pre_mask_logits = None
    # v2.9 IDENTITY gate: keep the layer_id, but only act when this caller's
    # TopKConfig was registered by the shrink — MTP draft layers reuse
    # decoder layer_id 0..47 inside the same process and must stay untouched.
    _cp_lid = _ecp.is_managed_config(topk_config) if layer_id is not None else None
    if _cp_lid is not None:
        router_logits, _pre_mask_logits = _ecp.apply_keep_mask(_cp_lid, router_logits)

    # DeepSeek V2/V3/R1 series models use grouped_top_k"

def stashRemapExit : Patch where
  name := "stash-remap-exit"
  old := "    topk_ids, topk_weights, recorder_topk_ids = _post_process_topk_ids(
        topk_ids=topk_ids,
        topk_weights=topk_weights,
        topk_config=topk_config,
        router_logits=router_logits,
        num_token_non_padded=num_token_non_padded,
        layer_id=layer_id,
        expert_location_dispatch_info=expert_location_dispatch_info,
    )

    get_global_expert_distribution_recorder().on_select_experts(
        topk_ids=recorder_topk_ids
    )"
  new := "    topk_ids, topk_weights, recorder_topk_ids = _post_process_topk_ids(
        topk_ids=topk_ids,
        topk_weights=topk_weights,
        topk_config=topk_config,
        router_logits=router_logits,
        num_token_non_padded=num_token_non_padded,
        layer_id=layer_id,
        expert_location_dispatch_info=expert_location_dispatch_info,
    )

    # expert-cold-pool-v2: runtime expert keep-mask/cold-pool (see layers/moe/expert_cold_pool.py) + demand stash + global->slot remap
    if _cp_lid is not None:
        _k = topk_ids.shape[-1] if topk_ids.dim() > 1 else 1
        _ecp.stash_demand(_cp_lid, _pre_mask_logits, recorder_topk_ids, _k)
        topk_ids = _ecp.remap_topk_ids(_cp_lid, topk_ids)

    get_global_expert_distribution_recorder().on_select_experts(
        topk_ids=recorder_topk_ids
    )"

def subTopk : List Patch := [keepMaskGate, stashRemapExit]

/-- `old_pack` and `new_pack`. -/
def packedReturn : Patch where
  name := "packed-remap"
  old := "    if packed_topk is not None:
        return StandardTopKOutputPacked(
            topk_weights, topk_ids, router_logits, packed_topk
        )"
  new := "    if packed_topk is not None:
        # expert-cold-pool-v2: packed ids carry global expert ids in the high 16 bits
        if _cp_lid is not None:
            packed_topk = _ecp.remap_packed_ids(_cp_lid, packed_topk)
        return StandardTopKOutputPacked(
            topk_weights, topk_ids, router_logits, packed_topk
        )"

/-- What the script looks for to tell whether the packed return has its hook. -/
def remapPackedIds : String := "remap_packed_ids"

def afterForward : Patch where
  name := "after-forward-hook"
  old := "        if get_exec().moe.elastic_ep_backend is not None:
            self.maybe_join_ep_ranks()

        return output

    def _maybe_execute_deferred_mamba_cow_and_clear("
  new := "        if get_exec().moe.elastic_ep_backend is not None:
            self.maybe_join_ep_ranks()

        # expert-cold-pool-v2: dynamic expert staging, strictly outside graph replay
        from sglang.srt.layers.moe import expert_cold_pool as _ecp

        _ecp.after_forward_hook()

        return output

    def _maybe_execute_deferred_mamba_cow_and_clear("

def shrinkAfterLoad : Patch where
  name := "shrink-after-model-load"
  old := "        self.loader = loaded.loader
        self.model = loaded.model
"
  new := "        self.loader = loaded.loader
        self.model = loaded.model
        # expert-cold-pool-v2: cold-pool shrink strictly AFTER process_weights_after_loading;
        # draft workers never shrink (their unquant FusedMoE layer_id can
        # collide with keep-mask keys)
        from sglang.srt.layers.moe import expert_cold_pool as _ecp

        if not self.is_draft_worker:
            _ecp.maybe_shrink_after_process(self.model)
"

def subMr : List Patch := [afterForward]

def subMr2 : List Patch := [shrinkAfterLoad]

/-- What a pass makes of the text it has read; a pass that missed an anchor writes
nothing. -/
structure Edited where
  src : Text
  changed : Bool
  missed : Bool
  printed : List String

/-- `{text!r}` of a text with newlines and neither quotes nor backslashes. -/
def reprText (text : Text) : String :=
  "'" ++ String.ofList (text.flatMap fun char => if char = '\n' then ['\\', 'n'] else [char]) ++ "'"

def upgradeFrom : List Block → Text → Text × Nat
  | [], src => (src, 0)
  | block :: rest, src =>
      if block.old28.toList <:+: src then
        let later := upgradeFrom rest (replaceFirst block.old28.toList block.new29.toList src)
        (later.1, later.2 + 1)
      else upgradeFrom rest src

def upgrade (src : Text) : Edited :=
  let result := upgradeFrom upg29 src
  { src := result.1
    changed := decide (result.2 ≠ 0)
    missed := false
    printed :=
      if result.2 ≠ 0 then ["[ok] topk v2.8->v2.9 identity-gate upgrade: " ++ toString result.2 ++ " blocks"] else [] }

/-- The loop of `patch_file`. -/
def patchText (label : String) : List Patch → Text → Edited
  | [], src => ⟨src, false, false, []⟩
  | patch :: rest, src =>
      let place := label ++ "/" ++ patch.name
      if mark.toList <:+: patch.new.toList ∧ mark.toList <:+: src ∧ patch.new.toList <:+: src then
        let later := patchText label rest src
        { later with printed := ("[skip] " ++ place ++ ": already applied") :: later.printed }
      else
        let cnt := count patch.old.toList src
        if cnt = 1 then
          let later := patchText label rest (replaceFirst patch.old.toList patch.new.toList src)
          { later with changed := true, printed := ("[ok] " ++ place ++ ": applied") :: later.printed }
        else
          { src := src
            changed := false
            missed := true
            printed := ["[MISS] " ++ place ++ ": anchor count=" ++ toString cnt ++ " for " ++
              reprText (patch.old.toList.take 70)] }

/-- The packed return.  That `new_pack` has text before its first colon, which the
source tests too, is so. -/
def packedRemap (src : Text) : Edited :=
  if ¬ remapPackedIds.toList <:+: src then
    let cnt := count packedReturn.old.toList src
    if cnt = 1 then
      { src := replaceFirst packedReturn.old.toList packedReturn.new.toList src
        changed := true
        missed := false
        printed := ["[ok] topk/packed-remap applied"] }
    else
      { src := src
        changed := false
        missed := true
        printed := ["[MISS] topk/packed-remap anchor count=" ++ toString cnt] }
  else ⟨src, false, false, ["[skip] topk/packed-remap"]⟩

/-- The two files, `TOPK` and `MR`. -/
inductive Path where
  | topk
  | modelRunner
deriving DecidableEq, Repr

structure Files where
  topk : Text
  modelRunner : Text
deriving DecidableEq

def Files.get (files : Files) : Path → Text
  | .topk => files.topk
  | .modelRunner => files.modelRunner

def Files.set (files : Files) (content : Text) : Path → Files
  | .topk => { files with topk := content }
  | .modelRunner => { files with modelRunner := content }

/-- A script that has exited. -/
structure Exit where
  status : Nat
  files : Files
  printed : List String

/-- The passes one after the other, up to the first that misses. -/
def runPasses : List (Path × (Text → Edited)) → Files → Exit
  | [], files =>
      { status := 0
        files := files
        printed := ["[done] cold-pool v2 hooks wired. Deploy expert_cold_pool.py to:",
          "  /opt/sglang-patch/sglang/python/sglang/srt/layers/moe/expert_cold_pool.py"] }
  | (path, edit) :: rest, files =>
      let edited := edit (readText (files.get path))
      if edited.missed then ⟨2, files, edited.printed⟩
      else
        let later := runPasses rest (if edited.changed then files.set edited.src path else files)
        { later with printed := edited.printed ++ later.printed }

/-- `deploy_expert_cold_pool.py`. -/
def deploy (files : Files) : Exit :=
  runPasses [(.topk, upgrade), (.topk, patchText "topk" subTopk), (.topk, packedRemap),
    (.modelRunner, patchText "model_runner" subMr), (.modelRunner, patchText "model_runner-shrink" subMr2)] files

end FlashNext.Install
