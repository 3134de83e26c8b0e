import FlashNext.Data.Chunks
import FlashNext.NGram.Windows
import Mathlib.Data.Nat.Find
import Mathlib.Data.Nat.Prime.Infinite

namespace FlashNext.NGram

open FlashNext.Data

structure NGramConfig where
  ngramSize : Nat
  headsPerNgram : Nat
  pleLayerIndex : Nat
  ngramEmbedDim : Nat
  unigramVocabSize : Nat
  seed : Int
  ngramVocabSizeBase : Nat
  makeNgramVocabSizeDivisibleBy : Nat
  eosTokenId : Token
  enablePleFusion : Bool

def maxLong : Nat := 2 ^ 63 - 1

def mask64 (value : Int) : Nat := (value % 2 ^ 64).toNat

def splitmixGamma : Nat := 0x9E3779B97F4A7C15

def splitmixM1 : Nat := 0xBF58476D1CE4E5B9

def splitmixM2 : Nat := 0x94D049BB133111EB

def prime1 : Nat := 10007

def splitmix64 (x : Nat) : Nat :=
  let x := (x + splitmixGamma) % 2 ^ 64
  let x := ((x ^^^ (x >>> 30)) * splitmixM1) % 2 ^ 64
  let x := ((x ^^^ (x >>> 27)) * splitmixM2) % 2 ^ 64
  (x ^^^ (x >>> 31)) % 2 ^ 64

/-- `sympy.nextprime`. -/
def nextprime (n : Nat) : Nat := Nat.find (Nat.exists_infinite_primes (n + 1))

namespace NGramConfig

variable (config : NGramConfig)

def ngramHeads : Nat := (config.ngramSize - 1) * config.headsPerNgram

def halfBound : Nat :=
  let mMax := maxLong / max config.unigramVocabSize 1
  max 1 (mMax / 2)

def multiplier (idx : Nat) : Nat :=
  let baseSeed := config.seed + prime1 * config.pleLayerIndex
  let x0 := mask64 (baseSeed + splitmixGamma * (idx + 1))
  2 * (splitmix64 x0 % config.halfBound) + 1

def buildLayerMultipliers : List Nat := (List.range config.ngramSize).map config.multiplier

/-- `_find_nth_prime_after`. -/
def nthPrimeAfter (start n : Nat) : Nat := Nat.iterate nextprime n start

def headSize (headIdx : Nat) : Nat :=
  let globalHeadIdx := config.pleLayerIndex * config.ngramHeads + headIdx
  nthPrimeAfter (config.ngramVocabSizeBase - 1) (globalHeadIdx + 1)

def buildHeadVocabAndOffsets : List Nat × List Nat × Nat :=
  (List.range config.ngramHeads).foldl (fun (sizes, offsets, total) headIdx =>
    let size := config.headSize headIdx
    (sizes ++ [size], offsets ++ [total], total + size)) ([], [], 0)

def paddedVocabSize : Nat :=
  (config.buildHeadVocabAndOffsets.2.2 + config.makeNgramVocabSizeDivisibleBy - 1) /
    config.makeNgramVocabSizeDivisibleBy * config.makeNgramVocabSizeDivisibleBy

end NGramConfig

/-- `overflow` is a value that no `torch.long` holds; the rows of the embedding
table are counted in one as well. -/
inductive NGramError where
  | ngramSize (value : Nat)
  | headsPerNgram (value : Nat)
  | embedDim (dim heads : Nat)
  | vocabSizeBase
  | zeroDivision
  | overflow
deriving DecidableEq, Repr

def NGramError.message : NGramError → Option String
  | .ngramSize value => some s!"ngram_size must be >= 2, got {value}"
  | .headsPerNgram value => some s!"heads_per_ngram must be > 0, got {value}"
  | .embedDim dim heads => some s!"ple_embed_dim must be divisible by total ngram heads: {dim} % {heads} != 0"
  | .vocabSizeBase => some "ngram_vocab_size_base must be > 0"
  | .zeroDivision | .overflow => none

/-- `torch.tensor(values, dtype=torch.long)`. -/
def longTensor (values : List Nat) : Except NGramError (List Token) :=
  if ∀ value ∈ values, value ≤ maxLong then .ok (values.map (BitVec.ofNat 64)) else .error .overflow

/-- `Qwen4ExpNGramEmbedding.__init__`, up to the size of the embedding table. -/
def NGramConfig.init (config : NGramConfig) : Except NGramError (Embedding × Nat) := do
  if config.ngramSize < 2 then throw (.ngramSize config.ngramSize)
  if config.headsPerNgram = 0 then throw (.headsPerNgram config.headsPerNgram)
  if config.ngramEmbedDim % config.ngramHeads ≠ 0 then throw (.embedDim config.ngramEmbedDim config.ngramHeads)
  if config.ngramVocabSizeBase = 0 then throw .vocabSizeBase
  let layerMultipliers ← longTensor config.buildLayerMultipliers
  let ngramHeadsVocabSizes ← longTensor config.buildHeadVocabAndOffsets.1
  let ngramHeadsOffsets ← longTensor config.buildHeadVocabAndOffsets.2.1
  if config.makeNgramVocabSizeDivisibleBy = 0 then throw .zeroDivision
  if maxLong < config.paddedVocabSize then throw .overflow
  return ({
    ngramSize := config.ngramSize
    headsPerNgram := config.headsPerNgram
    eosTokenId := config.eosTokenId
    enablePleFusion := config.enablePleFusion
    layerMultipliers := layerMultipliers
    ngramHeadsVocabSizes := ngramHeadsVocabSizes
    ngramHeadsOffsets := ngramHeadsOffsets }, config.paddedVocabSize)

variable {config : NGramConfig}

theorem lt_nextprime (n : Nat) : n < nextprime n :=
  (Nat.find_spec (Nat.exists_infinite_primes (n + 1))).1

theorem nthPrimeAfter_strictMono (start : Nat) {first second : Nat} (before : first < second) :
    NGramConfig.nthPrimeAfter start first < NGramConfig.nthPrimeAfter start second := by
  induction second with
  | zero => exact absurd before (Nat.not_lt_zero _)
  | succ second ih =>
      have step : NGramConfig.nthPrimeAfter start second < NGramConfig.nthPrimeAfter start (second + 1) := by
        rw [NGramConfig.nthPrimeAfter, NGramConfig.nthPrimeAfter, Function.iterate_succ_apply']
        exact lt_nextprime _
      rcases Nat.lt_succ_iff_lt_or_eq.mp before with earlier | rfl
      · exact (ih earlier).trans step
      · exact step

theorem nthPrimeAfter_injective (start : Nat) : Function.Injective (NGramConfig.nthPrimeAfter start) := by
  intro first second same
  rcases Nat.lt_trichotomy first second with before | equal | after
  · exact absurd same (Nat.ne_of_lt (nthPrimeAfter_strictMono start before))
  · exact equal
  · exact absurd same (Nat.ne_of_gt (nthPrimeAfter_strictMono start after))

theorem headSize_pos (config : NGramConfig) (headIdx : Nat) : 0 < config.headSize headIdx :=
  Nat.zero_lt_of_lt (nthPrimeAfter_strictMono (config.ngramVocabSizeBase - 1) (Nat.succ_pos _))

theorem headSize_injective {other : NGramConfig} (sizes : other.ngramHeads = config.ngramHeads)
    (bases : other.ngramVocabSizeBase = config.ngramVocabSizeBase) {head head' : Nat}
    (inside : head < config.ngramHeads) (inside' : head' < config.ngramHeads)
    (same : config.headSize head = other.headSize head') : config.pleLayerIndex = other.pleLayerIndex ∧ head = head' := by
  have place := nthPrimeAfter_injective _ (show NGramConfig.nthPrimeAfter (config.ngramVocabSizeBase - 1) _ =
    NGramConfig.nthPrimeAfter (config.ngramVocabSizeBase - 1) _ by
      simpa only [NGramConfig.headSize, sizes, bases] using same)
  have index := Nat.succ.inj place
  have positive : 0 < config.ngramHeads := by omega
  have quotient := congrArg (· / config.ngramHeads) index
  have rest := congrArg (· % config.ngramHeads) index
  simp only [Nat.mul_comm _ config.ngramHeads, Nat.mul_add_div positive, Nat.div_eq_of_lt inside,
    Nat.div_eq_of_lt inside', Nat.add_zero, Nat.mul_add_mod, Nat.mod_eq_of_lt inside, Nat.mod_eq_of_lt inside'] at quotient rest
  exact ⟨quotient, rest⟩

def NGramConfig.headOffset (config : NGramConfig) (headIdx : Nat) : Nat := ((List.range headIdx).map config.headSize).sum

theorem headOffset_succ (config : NGramConfig) (headIdx : Nat) :
    config.headOffset (headIdx + 1) = config.headOffset headIdx + config.headSize headIdx := by
  rw [NGramConfig.headOffset, NGramConfig.headOffset, List.range_succ, List.map_append, List.sum_append]
  exact congrArg _ List.sum_singleton

theorem headOffset_mono (config : NGramConfig) {first second : Nat} (le : first ≤ second) :
    config.headOffset first ≤ config.headOffset second := by
  induction second with
  | zero => rw [Nat.le_zero.mp le]
  | succ second ih =>
      rw [headOffset_succ]
      rcases Nat.of_le_succ le with earlier | rfl
      · exact (ih earlier).trans (Nat.le_add_right _ _)
      · rw [headOffset_succ]

theorem buildHeads_eq (config : NGramConfig) :
    config.buildHeadVocabAndOffsets = ((List.range config.ngramHeads).map config.headSize,
      (List.range config.ngramHeads).map config.headOffset, config.headOffset config.ngramHeads) := by
  have each (count : Nat) : (List.range count).foldl (fun (sizes, offsets, total) headIdx =>
      let size := config.headSize headIdx
      (sizes ++ [size], offsets ++ [total], total + size)) (([], [], 0) : List Nat × List Nat × Nat) =
        ((List.range count).map config.headSize, (List.range count).map config.headOffset, config.headOffset count) := by
    induction count with
    | zero => rfl
    | succ count ih =>
        rw [List.range_succ, List.foldl_append, ih, List.map_append, List.map_append, headOffset_succ]
        rfl
  exact each config.ngramHeads

theorem multiplier_lt (config : NGramConfig) (idx : Nat) : config.multiplier idx < 2 * config.halfBound := by
  have positive : 0 < config.halfBound := Nat.lt_of_lt_of_le Nat.one_pos (Nat.le_max_left _ _)
  have rest := Nat.mod_lt (splitmix64 (mask64 (config.seed + prime1 * config.pleLayerIndex + splitmixGamma * (idx + 1)))) positive
  rw [NGramConfig.multiplier]
  omega

theorem product_le {token idx : Nat} (vocabulary : config.unigramVocabSize ≤ maxLong) (known : token < config.unigramVocabSize) :
    token * config.multiplier idx ≤ maxLong := by
  have small := multiplier_lt config idx
  have size : max config.unigramVocabSize 1 = config.unigramVocabSize := Nat.max_eq_left (by omega)
  have share := Nat.div_mul_le_self maxLong config.unigramVocabSize
  simp only [NGramConfig.halfBound, size] at small
  rcases Nat.lt_or_ge (maxLong / config.unigramVocabSize) 2 with narrow | wide
  · -- only the multiplier 1 is left
    have one : config.multiplier idx ≤ 1 := by omega
    calc token * config.multiplier idx ≤ token * 1 := Nat.mul_le_mul_left _ one
      _ ≤ maxLong := by omega
  · have bound : config.multiplier idx ≤ maxLong / config.unigramVocabSize := by omega
    calc token * config.multiplier idx ≤ config.unigramVocabSize * (maxLong / config.unigramVocabSize) :=
          Nat.mul_le_mul (Nat.le_of_lt known) bound
      _ ≤ maxLong := by rwa [Nat.mul_comm]

structure Built (config : NGramConfig) (embedding : Embedding) (padded : Nat) : Prop where
  size : 2 ≤ config.ngramSize
  heads : 0 < config.headsPerNgram
  base : 0 < config.ngramVocabSizeBase
  divisible : 0 < config.makeNgramVocabSizeDivisibleBy
  ngramSize : embedding.ngramSize = config.ngramSize
  headsPerNgram : embedding.headsPerNgram = config.headsPerNgram
  eos : embedding.eosTokenId = config.eosTokenId
  multipliers : embedding.layerMultipliers = config.buildLayerMultipliers.map (BitVec.ofNat 64)
  long : ∀ value ∈ config.buildLayerMultipliers, value ≤ maxLong
  sizes : embedding.ngramHeadsVocabSizes = ((List.range config.ngramHeads).map config.headSize).map (BitVec.ofNat 64)
  offsets : embedding.ngramHeadsOffsets = ((List.range config.ngramHeads).map config.headOffset).map (BitVec.ofNat 64)
  rows : padded = config.paddedVocabSize
  fits : padded ≤ maxLong

theorem longTensor_eq {values : List Nat} {tensor : List Token} (made : longTensor values = .ok tensor) :
    tensor = values.map (BitVec.ofNat 64) ∧ ∀ value ∈ values, value ≤ maxLong := by
  rw [longTensor] at made
  split at made
  · rename_i small
    cases made
    exact ⟨rfl, small⟩
  · cases made

section Peeling

variable {α β : Type} {result : β}

theorem guard_eq_ok {reject : Prop} [Decidable reject] {error : NGramError} {next : α → Except NGramError β}
    {rest : Except NGramError β} :
    (if reject then throw error >>= next else rest) = .ok result ↔ ¬reject ∧ rest = .ok result := by
  constructor
  · intro made
    split at made
    · cases made
    · next passed => exact ⟨passed, made⟩
  · intro holds
    obtain ⟨passed, made⟩ := holds
    rw [if_neg passed, made]

theorem bind_eq_ok {first : Except NGramError α} {rest : α → Except NGramError β} :
    first >>= rest = .ok result ↔ ∃ value, first = .ok value ∧ rest value = .ok result := by
  cases first with
  | error error =>
      constructor
      · intro made
        cases made
      · intro holds
        obtain ⟨_, made, _⟩ := holds
        cases made
  | ok value =>
      constructor
      · intro made
        exact ⟨value, rfl, made⟩
      · intro holds
        obtain ⟨_, same, made⟩ := holds
        cases same
        exact made

end Peeling

theorem init_built {embedding : Embedding} {padded : Nat} (made : config.init = .ok (embedding, padded)) :
    Built config embedding padded := by
  simp only [NGramConfig.init, guard_eq_ok, bind_eq_ok, buildHeads_eq, Nat.not_lt] at made
  obtain ⟨size, heads, _, base, multipliers, mixed, sizes, sized, offsets, placed, divisible, fits, same⟩ := made
  obtain ⟨rfl, long⟩ := longTensor_eq mixed
  obtain ⟨rfl, _⟩ := longTensor_eq sized
  obtain ⟨rfl, _⟩ := longTensor_eq placed
  cases same
  exact {
    size := size
    heads := Nat.pos_of_ne_zero heads
    base := Nat.pos_of_ne_zero base
    divisible := Nat.pos_of_ne_zero divisible
    ngramSize := rfl
    headsPerNgram := rfl
    eos := rfl
    multipliers := rfl
    long := long
    sizes := rfl
    offsets := rfl
    rows := rfl
    fits := fits }

end FlashNext.NGram
