import FlashNext.NGram.Tables

namespace FlashNext.NGram

open FlashNext.Data

/-- A word that is not negative as a `torch.long`. -/
def Nonnegative (value : Token) : Prop := value.toNat ≤ maxLong

theorem Nonnegative.toInt {value : Token} (nonnegative : Nonnegative value) : value.toInt = value.toNat := by
  rw [Nonnegative, maxLong] at nonnegative
  exact BitVec.toInt_eq_toNat_of_lt (by omega)

theorem toNat_ofNat_of_le {value : Nat} (fits : value ≤ maxLong) : (BitVec.ofNat 64 value).toNat = value := by
  rw [maxLong] at fits
  rw [BitVec.toNat_ofNat, Nat.mod_eq_of_lt (by omega)]

theorem nonnegative_ofNat {value : Nat} (fits : value ≤ maxLong) : Nonnegative (BitVec.ofNat 64 value) := by
  rwa [Nonnegative, toNat_ofNat_of_le fits]

theorem Nonnegative.xor {left right : Token} (first : Nonnegative left) (second : Nonnegative right) :
    Nonnegative (left ^^^ right) := by
  rw [Nonnegative, maxLong] at first second ⊢
  rw [BitVec.toNat_xor]
  have small := @Nat.xor_lt_two_pow _ _ 63 (show left.toNat < 2 ^ 63 by omega) (show right.toNat < 2 ^ 63 by omega)
  omega

theorem Nonnegative.remainder {value size : Token} (mixed : Nonnegative value) (sized : Nonnegative size) :
    remainder value size = BitVec.ofNat 64 (value.toNat % size.toNat) := by
  rw [NGram.remainder, mixed.toInt, sized.toInt, Int.fmod_eq_emod_of_nonneg _ (Int.natCast_nonneg _),
    ← Int.natCast_emod, BitVec.ofInt_natCast]

theorem headId_bounds {value size offset : Token} (mixed : Nonnegative value) (positive : 0 < size.toNat)
    (fits : offset.toNat + size.toNat ≤ maxLong) :
    offset.toInt ≤ (remainder value size + offset).toInt ∧
      (remainder value size + offset).toInt < offset.toInt + size.toInt := by
  have sized : Nonnegative size := (Nat.le_add_left _ _).trans fits
  have placed : Nonnegative offset := (Nat.le_add_right _ _).trans fits
  have below := Nat.mod_lt value.toNat positive
  have rest : (remainder value size).toNat = value.toNat % size.toNat := by
    rw [mixed.remainder sized]
    exact toNat_ofNat_of_le (by omega)
  have entry : (remainder value size + offset).toNat = value.toNat % size.toNat + offset.toNat := by
    rw [maxLong] at fits
    rw [BitVec.toNat_add, rest, Nat.mod_eq_of_lt (by omega)]
  have word : Nonnegative (remainder value size + offset) := by
    rw [Nonnegative, entry]
    omega
  rw [word.toInt, entry, placed.toInt, sized.toInt]
  omega

theorem mem_shiftRow {eos token : Token} {n : Nat} {row : List Token} (member : token ∈ shiftRow eos n row) :
    token = eos ∨ token ∈ row := by
  obtain ⟨index, inside, rfl⟩ := List.mem_iff_getElem.mp member
  rw [shiftRow, List.length_mapIdx] at inside
  simp only [shiftRow, List.getElem_mapIdx]
  split
  · rw [List.getD_eq_getElem?_getD]
    cases found : row[(max ((index : Int) - n) 0).toNat]? with
    | none => exact Or.inl rfl
    | some token => exact Or.inr (List.mem_of_getElem? found)
  · exact Or.inl rfl

namespace Embedding

variable {embedding : Embedding} {contexts : List (List Token)} {known : Token → Prop}

theorem shifted_known (eos : known embedding.eosTokenId) (tokens : ∀ window ∈ contexts, ∀ token ∈ window, known token)
    {pos : Nat} (small : pos < embedding.ngramSize) :
    ∀ row ∈ (embedding.shiftedTokens contexts).getD pos [], ∀ token ∈ row, known token := by
  rw [shiftedTokens_getD contexts small, shiftRightIgnoreEos]
  split
  · exact tokens
  · intro row member token inside
    obtain ⟨window, present, rfl⟩ := List.mem_map.mp member
    rcases mem_shiftRow inside with rfl | old
    · exact eos
    · exact tokens window present token old

theorem mem_product {shifted : List (List (List Token))} {row pos : Nat} {value : Token}
    (member : value ∈ embedding.product shifted row pos) :
    ∃ tokens ∈ shifted.getD pos [], ∃ token ∈ tokens, value = token * embedding.layerMultipliers.getD pos 0 := by
  obtain ⟨token, inside, rfl⟩ := List.mem_map.mp member
  generalize shifted.getD pos [] = rows at inside ⊢
  refine ⟨rows.getD row [], ?_, token, inside, rfl⟩
  cases found : rows[row]? with
  | none =>
      rw [List.getD_eq_getElem?_getD, found] at inside
      cases inside
  | some tokens =>
      rw [List.getD_eq_getElem?_getD, found]
      exact List.mem_of_getElem? found

theorem mix_nonnegative {shifted : List (List (List Token))} {row ngram : Nat} (positive : 0 < ngram)
    (products : ∀ pos < ngram, ∀ value ∈ embedding.product shifted row pos, Nonnegative value) :
    ∀ value ∈ embedding.mix shifted row ngram, Nonnegative value := by
  have each (positions : List Nat) (small : ∀ pos ∈ positions, pos < ngram) (first : List Token)
      (start : ∀ value ∈ first, Nonnegative value) :
      ∀ value ∈ positions.foldl (fun mixed pos => List.zipWith (· ^^^ ·) mixed (embedding.product shifted row pos)) first,
        Nonnegative value := by
    induction positions generalizing first with
    | nil => exact start
    | cons pos rest ih =>
        refine ih (fun later member => small later (List.mem_cons_of_mem _ member)) _ ?_
        intro value member
        obtain ⟨index, inside, rfl⟩ := List.mem_iff_getElem.mp member
        rw [List.getElem_zipWith]
        exact (start _ (List.getElem_mem _)).xor (products pos (small pos List.mem_cons_self) _ (List.getElem_mem _))
  refine each _ ?_ _ (products 0 positive)
  intro pos member
  rw [List.mem_range'_1] at member
  omega

/-- The sizes and the offsets are those of `ngramSize - 1` orders. -/
structure Complete (embedding : Embedding) : Prop where
  sizes : embedding.ngramHeadsVocabSizes.length = (embedding.ngramSize - 1) * embedding.headsPerNgram
  offsets : embedding.ngramHeadsOffsets.length = (embedding.ngramSize - 1) * embedding.headsPerNgram

theorem heads_getElem? {order head : Nat} {size offset : Token} (inside : head < embedding.headsPerNgram)
    (sized : embedding.ngramHeadsVocabSizes[order * embedding.headsPerNgram + head]? = some size)
    (placed : embedding.ngramHeadsOffsets[order * embedding.headsPerNgram + head]? = some offset) :
    (embedding.heads (2 + order))[head]? = some (size, offset) := by
  rw [heads, List.getElem?_zip_eq_some, Nat.add_sub_cancel_left, List.getElem?_take_of_lt inside,
    List.getElem?_take_of_lt inside, List.getElem?_drop, List.getElem?_drop]
  exact ⟨sized, placed⟩

theorem length_heads (complete : embedding.Complete) {order : Nat} (inside : order < embedding.ngramSize - 1) :
    (embedding.heads (2 + order)).length = embedding.headsPerNgram := by
  have room : order * embedding.headsPerNgram + embedding.headsPerNgram ≤
      (embedding.ngramSize - 1) * embedding.headsPerNgram := by
    rw [← Nat.succ_mul]
    exact Nat.mul_le_mul_right _ inside
  rw [heads, List.length_zip, Nat.add_sub_cancel_left, List.length_take, List.length_drop, List.length_take,
    List.length_drop, complete.sizes, complete.offsets]
  omega

theorem blocks_uniform (complete : embedding.Complete) (shifted : List (List (List Token))) (row : Nat) :
    ∀ block ∈ (List.range' 2 (embedding.ngramSize - 1)).map fun ngram => (embedding.heads ngram).map fun head =>
      remainder ((embedding.mix shifted row ngram).getLastD 0) head.1 + head.2,
    block.length = embedding.headsPerNgram := by
  intro block member
  obtain ⟨ngram, inside, rfl⟩ := List.mem_map.mp member
  obtain ⟨order, small, rfl⟩ := List.mem_range'.mp inside
  rw [List.length_map, Nat.one_mul, length_heads complete small]

theorem length_rowIds (complete : embedding.Complete) (shifted : List (List (List Token))) (row : Nat) :
    (embedding.rowIds shifted row).length = embedding.ngramHeadsVocabSizes.length := by
  rw [rowIds, List.flatMap_def, flatten_uniform_length (blocks_uniform complete shifted row), List.length_map,
    List.length_range', complete.sizes]

theorem rowIds_getElem? (complete : embedding.Complete) {shifted : List (List (List Token))} {row head : Nat}
    {size offset : Token} (sized : embedding.ngramHeadsVocabSizes[head]? = some size)
    (placed : embedding.ngramHeadsOffsets[head]? = some offset) :
    (embedding.rowIds shifted row)[head]? =
      some (remainder ((embedding.mix shifted row (2 + head / embedding.headsPerNgram)).getLastD 0) size + offset) := by
  have bound : head < (embedding.ngramSize - 1) * embedding.headsPerNgram :=
    complete.sizes ▸ (List.getElem?_eq_some_iff.mp sized).1
  have positive : 0 < embedding.headsPerNgram := Nat.pos_of_mul_pos_left (Nat.zero_lt_of_lt bound)
  have order : head / embedding.headsPerNgram < embedding.ngramSize - 1 := Nat.div_lt_of_lt_mul (by rwa [Nat.mul_comm])
  have place : head / embedding.headsPerNgram * embedding.headsPerNgram + head % embedding.headsPerNgram = head :=
    Nat.div_add_mod' head embedding.headsPerNgram
  rw [← place] at sized placed
  have block := heads_getElem? (Nat.mod_lt _ positive) sized placed
  have found := flatten_getElem? (blocks_uniform complete shifted row) (by
    rw [List.getElem?_map, List.getElem?_range' order, Option.map_some, Nat.one_mul]) (Nat.mod_lt head positive)
  rw [place] at found
  rw [rowIds, List.flatMap_def, found, List.getElem?_map, block, Option.map_some]

/-- No product leaves the range of a `torch.long`. -/
def ProductsFit (embedding : Embedding) (contexts : List (List Token)) : Prop :=
  ∀ (pos : Nat) (multiplier : Token), embedding.layerMultipliers[pos]? = some multiplier →
    ∀ row ∈ (embedding.shiftedTokens contexts).getD pos [], ∀ token ∈ row,
      0 ≤ token.toInt * multiplier.toInt ∧ token.toInt * multiplier.toInt < 2 ^ 63

/-- A row has one id a head, in the interval of that head. -/
def IdsInside (embedding : Embedding) (ids : List Token) : Prop :=
  ids.length = embedding.ngramHeadsVocabSizes.length ∧
    ∀ (head : Nat) (size offset : Token), embedding.ngramHeadsVocabSizes[head]? = some size →
      embedding.ngramHeadsOffsets[head]? = some offset →
        ∃ id, ids[head]? = some id ∧ offset.toInt ≤ id.toInt ∧ id.toInt < offset.toInt + size.toInt

/-- The intervals of the heads, one behind the other in the embedding table. -/
structure Intervals (embedding : Embedding) (padded : Nat) : Prop where
  inside : ∀ (head : Nat) (size offset : Token), embedding.ngramHeadsVocabSizes[head]? = some size →
    embedding.ngramHeadsOffsets[head]? = some offset →
      0 ≤ offset.toInt ∧ 0 < size.toInt ∧ offset.toInt + size.toInt ≤ padded
  disjoint : ∀ (head head' : Nat) (size offset offset' : Token), head < head' →
    embedding.ngramHeadsVocabSizes[head]? = some size → embedding.ngramHeadsOffsets[head]? = some offset →
      embedding.ngramHeadsOffsets[head']? = some offset' → offset.toInt + size.toInt ≤ offset'.toInt

/-- What is cached of these contexts is what this layer would shift. -/
def CacheAgrees (embedding : Embedding) (contexts : List (List Token)) (pool : ReqToTokenPool) : Prop :=
  ∀ batch shifted, pool.pleWindowCache = some (batch, contexts, some shifted) →
    shifted = embedding.shiftedTokens contexts

theorem hashContexts_ids {fused : FusedHash} (faithful : fused.Faithful) (large : 0 < embedding.ngramSize)
    {pool : ReqToTokenPool} (agrees : embedding.CacheAgrees contexts pool) (decodeSized : Bool) :
    ∃ next, hashContexts fused embedding pool contexts decodeSized =
      .ok (embedding.eagerIds (embedding.shiftedTokens contexts) contexts, next) := by
  rw [hashContexts]
  cases route : if embedding.enablePleFusion && decodeSized then fused embedding contexts else none with
  | some ids =>
      refine ⟨pool, ?_⟩
      split at route
      · rw [faithful _ _ _ route]
      · contradiction
  | none =>
      cases cached : pool.pleWindowCache with
      | none => exact ⟨_, rfl⟩
      | some entry =>
          obtain ⟨batch, held, shifted⟩ := entry
          cases shifted with
          | none => exact ⟨_, rfl⟩
          | some shifted =>
              dsimp only
              split
              · next same =>
                  subst same
                  have length : (embedding.shiftedTokens held).length = embedding.ngramSize := by
                    rw [shiftedTokens, List.length_cons, List.length_map, List.length_range', Nat.sub_add_cancel large]
                  rw [agrees batch shifted cached, if_pos length]
                  exact ⟨_, rfl⟩
              · exact ⟨_, rfl⟩

end Embedding

/-- A token id in `[0, V)`. -/
def NGramConfig.InVocabulary (config : NGramConfig) (token : Token) : Prop :=
  0 ≤ token.toInt ∧ token.toInt < config.unigramVocabSize

instance {config : NGramConfig} {token : Token} : Decidable (config.InVocabulary token) :=
  inferInstanceAs (Decidable (_ ∧ _))

theorem NGramConfig.InVocabulary.toNat_lt {config : NGramConfig} {token : Token} (known : config.InVocabulary token) :
    token.toNat < config.unigramVocabSize := by
  obtain ⟨low, high⟩ := known
  rw [BitVec.toInt_eq_toNat_cond] at low high
  split at high
  · omega
  · omega

theorem words_getElem? {entry : Nat → Nat} {count index : Nat} {word : Token}
    (found : (((List.range count).map entry).map (BitVec.ofNat 64))[index]? = some word) :
    index < count ∧ word = BitVec.ofNat 64 (entry index) := by
  obtain ⟨inside, same⟩ := List.getElem?_eq_some_iff.mp found
  rw [List.length_map, List.length_map, List.length_range] at inside
  simp only [List.getElem_map, List.getElem_range] at same
  exact ⟨inside, same.symm⟩

namespace Built

variable {config : NGramConfig} {embedding : Embedding} {padded : Nat} {contexts : List (List Token)}

theorem multiplier_eq (built : Built config embedding padded) {pos : Nat} {multiplier : Token}
    (found : embedding.layerMultipliers[pos]? = some multiplier) :
    pos < config.ngramSize ∧ multiplier = BitVec.ofNat 64 (config.multiplier pos) := by
  rw [built.multipliers] at found
  exact words_getElem? found

theorem size_eq (built : Built config embedding padded) {head : Nat} {size : Token}
    (found : embedding.ngramHeadsVocabSizes[head]? = some size) :
    head < config.ngramHeads ∧ size = BitVec.ofNat 64 (config.headSize head) := by
  rw [built.sizes] at found
  exact words_getElem? found

theorem offset_eq (built : Built config embedding padded) {head : Nat} {offset : Token}
    (found : embedding.ngramHeadsOffsets[head]? = some offset) :
    head < config.ngramHeads ∧ offset = BitVec.ofNat 64 (config.headOffset head) := by
  rw [built.offsets] at found
  exact words_getElem? found

theorem complete (built : Built config embedding padded) : embedding.Complete where
  sizes := by
    rw [built.sizes, List.length_map, List.length_map, List.length_range, built.ngramSize, built.headsPerNgram]
    rfl
  offsets := by
    rw [built.offsets, List.length_map, List.length_map, List.length_range, built.ngramSize, built.headsPerNgram]
    rfl

theorem multiplier_long (built : Built config embedding padded) {pos : Nat} (small : pos < config.ngramSize) :
    config.multiplier pos ≤ maxLong :=
  built.long _ (List.mem_map_of_mem (List.mem_range.mpr small))

theorem head_fits (built : Built config embedding padded) {head : Nat} (inside : head < config.ngramHeads) :
    config.headOffset head + config.headSize head ≤ padded := by
  have total : config.headOffset (head + 1) ≤ config.headOffset config.ngramHeads := headOffset_mono config inside
  have rounded := @Nat.lt_div_mul_add (config.headOffset config.ngramHeads + config.makeNgramVocabSizeDivisibleBy - 1) _
    built.divisible
  have divisible := built.divisible
  rw [built.rows, NGramConfig.paddedVocabSize, buildHeads_eq, ← headOffset_succ]
  dsimp only
  omega

theorem head_words (built : Built config embedding padded) {head : Nat} {size offset : Token}
    (sized : embedding.ngramHeadsVocabSizes[head]? = some size) (placed : embedding.ngramHeadsOffsets[head]? = some offset) :
    (size.toInt = config.headSize head ∧ size.toNat = config.headSize head) ∧
      (offset.toInt = config.headOffset head ∧ offset.toNat = config.headOffset head) ∧
      config.headOffset head + config.headSize head ≤ padded := by
  obtain ⟨inside, rfl⟩ := built.size_eq sized
  obtain ⟨_, rfl⟩ := built.offset_eq placed
  have fits := built.head_fits inside
  have long := built.fits
  have sizeFits : config.headSize head ≤ maxLong := by omega
  have offsetFits : config.headOffset head ≤ maxLong := by omega
  rw [(nonnegative_ofNat sizeFits).toInt, (nonnegative_ofNat offsetFits).toInt, toNat_ofNat_of_le sizeFits,
    toNat_ofNat_of_le offsetFits]
  exact ⟨⟨rfl, rfl⟩, ⟨rfl, rfl⟩, fits⟩

theorem intervals (built : Built config embedding padded) : embedding.Intervals padded where
  inside := by
    intro head size offset sized placed
    obtain ⟨⟨size_eq, _⟩, ⟨offset_eq, _⟩, fits⟩ := built.head_words sized placed
    have positive := headSize_pos config head
    omega
  disjoint := by
    intro head head' size offset offset' before sized placed placed'
    obtain ⟨⟨size_eq, _⟩, ⟨offset_eq, _⟩, _⟩ := built.head_words sized placed
    obtain ⟨inside', rfl⟩ := built.offset_eq placed'
    have fits' := built.head_fits inside'
    have long := built.fits
    have order := headOffset_mono config (Nat.succ_le_of_lt before)
    rw [headOffset_succ] at order
    rw [(nonnegative_ofNat (by omega)).toInt, toNat_ofNat_of_le (by omega)]
    omega

theorem product_nonnegative (built : Built config embedding padded) (vocabulary : config.unigramVocabSize ≤ maxLong)
    {pos : Nat} {multiplier token : Token} (found : embedding.layerMultipliers[pos]? = some multiplier)
    (known : config.InVocabulary token) :
    Nonnegative (token * multiplier) ∧
      token.toInt * multiplier.toInt = ((token.toNat * multiplier.toNat : Nat) : Int) ∧
      token.toNat * multiplier.toNat ≤ maxLong := by
  obtain ⟨small, rfl⟩ := built.multiplier_eq found
  have long := built.multiplier_long small
  have bound := @product_le config token.toNat pos vocabulary known.toNat_lt
  have word : Nonnegative token := (Nat.le_of_lt known.toNat_lt).trans vocabulary
  rw [word.toInt, (nonnegative_ofNat long).toInt, toNat_ofNat_of_le long]
  refine ⟨?_, (Int.natCast_mul _ _).symm, bound⟩
  rw [Nonnegative, BitVec.toNat_mul, toNat_ofNat_of_le long]
  exact (Nat.mod_le _ _).trans bound

section Vocabulary

variable (vocabulary : config.unigramVocabSize ≤ maxLong) (eos : config.InVocabulary config.eosTokenId)
  (tokens : ∀ window ∈ contexts, ∀ token ∈ window, config.InVocabulary token)

include vocabulary eos tokens

theorem productsFit (built : Built config embedding padded) : embedding.ProductsFit contexts := by
  intro pos multiplier found row member token inside
  have small : pos < embedding.ngramSize := built.ngramSize ▸ (built.multiplier_eq found).1
  have known := Embedding.shifted_known (built.eos ▸ eos) tokens small row member token inside
  obtain ⟨_, product, bound⟩ := built.product_nonnegative vocabulary found known
  rw [maxLong] at bound
  rw [product]
  omega

theorem mix_nonnegative (built : Built config embedding padded) (row : Nat) {ngram : Nat} (positive : 0 < ngram)
    (small : ngram ≤ embedding.ngramSize) :
    Nonnegative ((embedding.mix (embedding.shiftedTokens contexts) row ngram).getLastD 0) := by
  have products : ∀ pos < ngram, ∀ value ∈ embedding.product (embedding.shiftedTokens contexts) row pos,
      Nonnegative value := by
    intro pos before value member
    obtain ⟨shifted, present, token, inside, rfl⟩ := Embedding.mem_product member
    have known := Embedding.shifted_known (built.eos ▸ eos) tokens (by omega) shifted present token inside
    have bound : pos < embedding.layerMultipliers.length := by
      rw [built.multipliers, NGramConfig.buildLayerMultipliers, List.length_map, List.length_map, List.length_range,
        ← built.ngramSize]
      omega
    rw [List.getD_eq_getElem?_getD, List.getElem?_eq_getElem bound, Option.getD_some]
    exact (built.product_nonnegative vocabulary (List.getElem?_eq_getElem bound) known).1
  have each := Embedding.mix_nonnegative positive products
  rw [List.getLastD_eq_getLast?]
  cases last : (embedding.mix (embedding.shiftedTokens contexts) row ngram).getLast? with
  | none => exact Nat.zero_le _
  | some value => exact each value (List.mem_of_getLast? last)

theorem idsInside (built : Built config embedding padded) :
    ∀ ids ∈ embedding.eagerIds (embedding.shiftedTokens contexts) contexts, embedding.IdsInside ids := by
  intro ids member
  obtain ⟨row, _, rfl⟩ := List.mem_map.mp member
  refine ⟨Embedding.length_rowIds built.complete _ row, ?_⟩
  intro head size offset sized placed
  obtain ⟨⟨_, size_eq⟩, ⟨_, offset_eq⟩, fits⟩ := built.head_words sized placed
  have positive := headSize_pos config head
  have long := built.fits
  have inside := (built.size_eq sized).1
  have order : head / embedding.headsPerNgram < embedding.ngramSize - 1 := by
    rw [built.headsPerNgram, built.ngramSize]
    exact Nat.div_lt_of_lt_mul (by rwa [Nat.mul_comm])
  have last : 2 + head / embedding.headsPerNgram ≤ embedding.ngramSize := by
    generalize head / embedding.headsPerNgram = order at order ⊢
    omega
  have mixed := built.mix_nonnegative vocabulary eos tokens row (Nat.add_pos_left Nat.two_pos _) last
  exact ⟨_, Embedding.rowIds_getElem? built.complete sized placed, headId_bounds mixed (by omega) (by omega)⟩

end Vocabulary

end Built

/-- The constructor keeps every product in a `torch.long`, every id in the
interval of its head, the intervals apart and in the table, and the sizes of
one base apart. -/
theorem hash_inside {config : NGramConfig} {embedding : Embedding} {padded : Nat}
    (made : config.init = .ok (embedding, padded)) (vocabulary : config.unigramVocabSize ≤ maxLong)
    (eos : config.InVocabulary config.eosTokenId) {contexts : List (List Token)}
    (tokens : ∀ window ∈ contexts, ∀ token ∈ window, config.InVocabulary token) {fused : FusedHash}
    (faithful : fused.Faithful) {pool : ReqToTokenPool} (agrees : embedding.CacheAgrees contexts pool)
    (decodeSized : Bool) :
    embedding.ProductsFit contexts ∧
      (∃ ids next, hashContexts fused embedding pool contexts decodeSized = .ok (ids, next) ∧
        ids.length = contexts.length ∧ ∀ row ∈ ids, embedding.IdsInside row) ∧
      embedding.Intervals padded ∧
      ∀ (other : NGramConfig) (embedding' : Embedding) (padded' : Nat), other.init = .ok (embedding', padded') →
        other.ngramSize = config.ngramSize → other.headsPerNgram = config.headsPerNgram →
        other.ngramVocabSizeBase = config.ngramVocabSizeBase →
        ∀ (head head' : Nat) (size : Token), embedding.ngramHeadsVocabSizes[head]? = some size →
          embedding'.ngramHeadsVocabSizes[head']? = some size →
            config.pleLayerIndex = other.pleLayerIndex ∧ head = head' := by
  have built := init_built made
  refine ⟨built.productsFit vocabulary eos tokens, ?_, built.intervals, ?_⟩
  · have large : 0 < embedding.ngramSize := by
      rw [built.ngramSize]
      exact Nat.zero_lt_of_lt built.size
    obtain ⟨next, hashed⟩ := Embedding.hashContexts_ids faithful large agrees decodeSized
    exact ⟨_, next, hashed, by simp [Embedding.eagerIds], built.idsInside vocabulary eos tokens⟩
  · intro other embedding' padded' made' sizes heads bases head head' size found found'
    have built' := init_built made'
    obtain ⟨inside, rfl⟩ := built.size_eq found
    obtain ⟨inside', same⟩ := built'.size_eq found'
    have fits := built.head_fits inside
    have fits' := built'.head_fits inside'
    have long := built.fits
    have long' := built'.fits
    have words := congrArg BitVec.toNat same
    rw [toNat_ofNat_of_le (by omega), toNat_ofNat_of_le (by omega)] at words
    have counts : other.ngramHeads = config.ngramHeads := by
      rw [NGramConfig.ngramHeads, NGramConfig.ngramHeads, sizes, heads]
    exact headSize_injective counts bases inside (counts ▸ inside') words

theorem nextprime_eq {n prime : Nat} (later : n < prime) (isPrime : prime.Prime)
    (between : ∀ smaller, n < smaller → smaller < prime → ¬ smaller.Prime) : nextprime n = prime := by
  rw [nextprime, Nat.find_eq_iff]
  exact ⟨⟨later, isPrime⟩, fun smaller before found => between smaller found.1 before found.2⟩

/-- One head for the bigrams and one for the trigrams. -/
def twoHeads : NGramConfig where
  ngramSize := 3
  headsPerNgram := 1
  pleLayerIndex := 0
  ngramEmbedDim := 64
  unigramVocabSize := 100
  seed := 1234
  ngramVocabSizeBase := 5
  makeNgramVocabSizeDivisibleBy := 8
  eosTokenId := 2
  enablePleFusion := false

def twoHeadsTables : Embedding where
  ngramSize := 3
  headsPerNgram := 1
  eosTokenId := 2
  enablePleFusion := false
  layerMultipliers := twoHeads.buildLayerMultipliers.map (BitVec.ofNat 64)
  ngramHeadsVocabSizes := [5, 7]
  ngramHeadsOffsets := [0, 5]

def twoHeadsPool : ReqToTokenPool where
  mambaIndex := id
  contextLen := 2
  context := fun _ => [2, 2]
  intermediate := []
  pleWindowCache := none

theorem twoHeads_heads : twoHeads.buildHeadVocabAndOffsets = ([5, 7], [0, 5], 12) := by
  have first : nextprime 4 = 5 := nextprime_eq (by decide) (by decide) fun smaller after before => by omega
  have bigrams : twoHeads.headSize 0 = 5 := first
  have trigrams : twoHeads.headSize 1 = 7 := by
    change nextprime (nextprime 4) = 7
    rw [first]
    refine nextprime_eq (by decide) (by decide) fun smaller after before => ?_
    obtain rfl : smaller = 6 := by omega
    decide
  change ([twoHeads.headSize 0, twoHeads.headSize 1], [0, 0 + twoHeads.headSize 0],
    0 + twoHeads.headSize 0 + twoHeads.headSize 1) = _
  rw [bigrams, trigrams]

theorem twoHeads_init : twoHeads.init = .ok (twoHeadsTables, 16) := by
  have multipliers : longTensor twoHeads.buildLayerMultipliers = .ok twoHeadsTables.layerMultipliers := by decide
  have padded : twoHeads.paddedVocabSize = 16 := by
    rw [NGramConfig.paddedVocabSize, twoHeads_heads]
    rfl
  simp only [NGramConfig.init, multipliers, padded, twoHeads_heads]
  rfl

theorem hash_inside_twoHeads : twoHeadsTables.ProductsFit [[99, 41, 7]] ∧ twoHeadsTables.Intervals 16 ∧
    ∃ ids next, hashContexts (fun _ _ => none) twoHeadsTables twoHeadsPool [[99, 41, 7]] false = .ok (ids, next) ∧
      ids.length = 1 ∧ ∀ row ∈ ids, twoHeadsTables.IdsInside row := by
  have faithful : FusedHash.Faithful fun _ _ => none := by
    intro _ _ _ found
    cases found
  have agrees : twoHeadsTables.CacheAgrees [[99, 41, 7]] twoHeadsPool := by
    intro _ _ found
    cases found
  have known : ∀ window ∈ [[99, 41, 7]], ∀ token ∈ window, twoHeads.InVocabulary token := by
    intro window member token inside
    cases List.mem_singleton.mp member
    simp only [List.mem_cons, List.not_mem_nil, or_false] at inside
    rcases inside with rfl | rfl | rfl
    · decide
    · decide
    · decide
  have inside := hash_inside twoHeads_init (by decide) (by decide) known faithful agrees false
  exact ⟨inside.1, inside.2.2.1, inside.2.1⟩

end FlashNext.NGram
