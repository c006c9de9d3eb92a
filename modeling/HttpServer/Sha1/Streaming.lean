import HttpServer.Sha1.Transform

/- The representation invariant of `sha1_context_t`: `Absorbed context M` says what a context
holds once the bytes `M` have gone through `sha1_update`, in any chunks. `sha1_init` sets it up,
`sha1_update` keeps it without a `memcpy` leaving the buffer, and from it `sha1_final` writes the
FIPS 180-4 digest of `M`. -/
namespace Sha1
open HttpServer Fips180

/-- The bit count is exact mod 2^64, the state has compressed every whole block of `M`, and the
buffer starts with the bytes after them. -/
structure Absorbed (context : Sha1Context) (M : List Byte) : Prop where
  count : context.count1.toNat * 2 ^ 32 + context.count0.toNat = 8 * M.length % 2 ^ 64
  state : context.state = hashBlocks H0 M
  buffer : context.buffer.take (M.length % 64) = M.drop (64 * (M.length / 64))

theorem index_of_count {c0 c1 : Word} {L : Nat}
    (count : c1.toNat * 2 ^ 32 + c0.toNat = 8 * L % 2 ^ 64) : bufferIndex c0 = L % 64 := by
  have low := c0.isLt
  have mask : (63 : Word).toNat = 2 ^ 6 - 1 := rfl
  rw [bufferIndex, BitVec.toNat_and, BitVec.toNat_ushiftRight, mask,
    Nat.and_pow_two_sub_one_eq_mod, Nat.shiftRight_eq_div_pow]
  omega

theorem carry_add (x y D : Nat) :
    ((y + (x + D % 2 ^ 32) / 2 ^ 32 + D / 2 ^ 32) % 2 ^ 32) * 2 ^ 32 + (x + D % 2 ^ 32) % 2 ^ 32 =
      (y * 2 ^ 32 + x + D) % 2 ^ 64 := by
  omega

theorem addLength_count {context : Sha1Context} {L : Nat}
    (count : context.count1.toNat * 2 ^ 32 + context.count0.toNat = 8 * L % 2 ^ 64) (len : Nat) :
    (addLength context len).count1.toNat * 2 ^ 32 + (addLength context len).count0.toNat =
      8 * (L + len) % 2 ^ 64 := by
  have lo : (BitVec.ofNat 32 len <<< 3).toNat = 8 * len % 2 ^ 32 := by
    simp only [BitVec.toNat_shiftLeft, BitVec.toNat_ofNat, Nat.shiftLeft_eq]; omega
  have hi : (BitVec.ofNat 32 (len >>> 29)).toNat = 8 * len / 2 ^ 32 % 2 ^ 32 := by
    simp only [BitVec.toNat_ofNat, Nat.shiftRight_eq_div_pow]; omega
  have carry : (if context.count0 + (BitVec.ofNat 32 len <<< 3) < context.count0 then
      context.count1 + 1 else context.count1).toNat =
      (context.count1.toNat + (context.count0.toNat + 8 * len % 2 ^ 32) / 2 ^ 32) % 2 ^ 32 := by
    have := context.count0.isLt; have := context.count1.isLt
    have one : (1 : Word).toNat = 1 := rfl
    split <;> rename_i over <;> rw [BitVec.lt_def, BitVec.toNat_add, lo] at over
    · rw [BitVec.toNat_add, one]; omega
    · omega
  have total : 8 * (L + len) % 2 ^ 64 =
      (context.count1.toNat * 2 ^ 32 + context.count0.toNat + 8 * len) % 2 ^ 64 := by
    rw [count]; omega
  simp only [addLength]
  rw [BitVec.toNat_add, BitVec.toNat_add, carry, hi, lo, total, ← carry_add]
  omega

theorem copyIn_length (context : Sha1Context) {off n : Nat} {src : List Byte}
    (fits : off + n ≤ 64 ∧ n ≤ src.length) :
    (context.buffer.take off ++ src.take n ++ context.buffer.drop (off + n)).length = 64 := by
  simp [context.buffer_length]; omega

theorem copyIn_of_fits {context : Sha1Context} {off n : Nat} {src : List Byte}
    (fits : off + n ≤ 64 ∧ n ≤ src.length) :
    context.copyIn off src n = some ⟨context.state, context.count0, context.count1,
      context.buffer.take off ++ src.take n ++ context.buffer.drop (off + n),
      copyIn_length context fits⟩ :=
  dif_pos fits

theorem updateLoop_spec {n : Nat} (state : HashValue) {data : List Byte}
    (fits : 64 * n ≤ data.length) :
    updateLoop n state data = ((blocks n data).foldl compress state, data.drop (64 * n)) := by
  induction n generalizing state data with
  | zero => rfl
  | succ n ih =>
    rw [updateLoop, ih _ (by simp; omega), sha1Transform_eq_compress _ (by simp; omega),
      List.drop_drop, Nat.mul_succ, Nat.add_comm 64]
    rfl

theorem absorbed_init (context : Sha1Context) : Absorbed (sha1Init context) [] :=
  ⟨by simp [sha1Init], rfl, by simp⟩

theorem drop_blocks_of_full {M data : List Byte} (full : 64 ≤ M.length % 64 + data.length) :
    (data.drop (64 - M.length % 64)).drop (64 * ((data.drop (64 - M.length % 64)).length / 64)) =
      (M ++ data).drop (64 * ((M ++ data).length / 64)) := by
  rw [List.drop_append_eq_append_drop,
    List.drop_of_length_le (show M.length ≤ 64 * ((M ++ data).length / 64) by simp; omega),
    List.nil_append, List.drop_drop]
  congr 1
  simp only [List.length_append, List.length_drop]
  omega

theorem absorbed_update {context : Sha1Context} {M : List Byte} (holds : Absorbed context M)
    (data : List Byte) : ∃ c, sha1Update context data = some c ∧ Absorbed c (M ++ data) := by
  have count := addLength_count holds.count data.length
  have buffer : (addLength context data.length).buffer.take (M.length % 64) = _ := holds.buffer
  have state : (addLength context data.length).state = _ := holds.state
  have length := (addLength context data.length).buffer_length
  simp only [sha1Update, index_of_count holds.count]
  generalize addLength context data.length = counted at count buffer state length
  split
  · rename_i full
    rw [copyIn_of_fits ⟨by omega, by omega⟩]
    simp only [Option.bind_eq_bind, Option.some_bind, pure_bind]
    have block : counted.buffer.take (M.length % 64) ++ data.take (64 - M.length % 64) ++
        counted.buffer.drop (M.length % 64 + (64 - M.length % 64)) =
        M.drop (64 * (M.length / 64)) ++ data.take (64 - M.length % 64) := by
      rw [buffer, List.drop_of_length_le (show counted.buffer.length ≤ _ by omega), List.append_nil]
    have block_len :
        (M.drop (64 * (M.length / 64)) ++ data.take (64 - M.length % 64)).length = 64 := by
      simp; omega
    simp only [block, sha1Transform_eq_compress _ block_len, state]
    rw [updateLoop_spec _ (by omega), copyIn_of_fits ⟨by simp; omega, le_refl _⟩]
    refine ⟨_, rfl, by simpa using count, (hashBlocks_append_full H0 full).symm, ?_⟩
    dsimp only
    have rest : (M ++ data).length % 64 = ((data.drop (64 - M.length % 64)).drop
        (64 * ((data.drop (64 - M.length % 64)).length / 64))).length := by simp; omega
    rw [List.take_zero, List.nil_append, List.take_length, rest, List.take_left' rfl,
      drop_blocks_of_full full]
  · rename_i short
    simp only [pure_bind, Nat.div_eq_of_lt (show data.length < 64 by omega), updateLoop]
    rw [copyIn_of_fits ⟨by omega, le_refl _⟩]
    refine ⟨_, rfl, by simpa using count, ?_, ?_⟩
    · simpa [hashBlocks_append_short H0 (show M.length % 64 + data.length < 64 by omega)]
        using state
    · have prefix_len : (counted.buffer.take (M.length % 64)).length = M.length % 64 := by
        simp; omega
      simp only [List.take_length, List.length_append, List.take_append_eq_append_take, prefix_len]
      rw [show (M.length + data.length) % 64 = M.length % 64 + data.length by omega,
        show (M.length + data.length) / 64 = M.length / 64 by omega,
        List.drop_append_of_le_length (by omega), ← buffer]
      simp

theorem absorbed_foldlM {context : Sha1Context} {M : List Byte} (holds : Absorbed context M)
    (chunks : List (List Byte)) :
    ∃ c, chunks.foldlM sha1Update context = some c ∧ Absorbed c (M ++ chunks.flatten) := by
  induction chunks generalizing context M with
  | nil => exact ⟨context, rfl, by simpa using holds⟩
  | cons chunk chunks ih =>
    obtain ⟨c, step, next⟩ := absorbed_update holds chunk
    obtain ⟨c', run, last⟩ := ih next
    exact ⟨c', by simp [step, run], by simpa using last⟩

/-- Representation invariant of `sha1_context_t`: from `sha1_init` and any chunking of `M`,
every copy stays in the buffer, the counter is `8 · |M|` mod 2^64, the state has compressed the
first `|M| / 64` blocks, the buffer holds the last `|M| mod 64` bytes, and
`(count[0] >> 3) & 63 = |M| mod 64`. -/
theorem sha1_context_invariant (context : Sha1Context) (chunks : List (List Byte)) :
    ∃ c, chunks.foldlM sha1Update (sha1Init context) = some c ∧
      Absorbed c chunks.flatten ∧ bufferIndex c.count0 = chunks.flatten.length % 64 := by
  obtain ⟨c, run, holds⟩ := absorbed_foldlM (absorbed_init context) chunks
  exact ⟨c, run, by simpa using holds, index_of_count (by simpa using holds.count)⟩

theorem count_byte {c0 c1 : Word} {L : Nat}
    (count : c1.toNat * 2 ^ 32 + c0.toNat = 8 * L % 2 ^ 64) {p : Nat} (hp : p < 8) :
    (((if p < 4 then c1 else c0) >>> ((3 - (p &&& 3)) * 8)) &&& 255).setWidth 8 =
      BitVec.ofNat 8 (8 * L / 2 ^ (8 * (7 - p))) := by
  have low := c0.isLt; have high := c1.isLt
  have mask : (255 : Word).toNat = 2 ^ 8 - 1 := rfl
  apply BitVec.eq_of_toNat_eq
  rw [BitVec.toNat_setWidth, BitVec.toNat_and, mask, Nat.and_pow_two_sub_one_eq_mod,
    BitVec.toNat_ushiftRight, Nat.shiftRight_eq_div_pow, BitVec.toNat_ofNat,
    show p &&& 3 = p &&& 2 ^ 2 - 1 from rfl, Nat.and_pow_two_sub_one_eq_mod]
  interval_cases p <;> simp <;> omega

theorem finalCount_eq {c0 c1 : Word} {L : Nat}
    (count : c1.toNat * 2 ^ 32 + c0.toNat = 8 * L % 2 ^ 64) :
    (List.range 8).map (fun p =>
        (((if p < 4 then c1 else c0) >>> ((3 - (p &&& 3)) * 8)) &&& 255).setWidth 8) =
      bytesBE 8 (8 * L) := by
  rw [bytesBE, show (List.range 8).reverse = (List.range 8).map (7 - ·) from rfl, List.map_map]
  exact List.map_congr_left fun p mem => count_byte count (List.mem_range.mp mem)

theorem padding_take {i : Nat} (hi : i < 64) :
    (0x80 :: List.replicate 63 (0 : Byte)).take (if i < 56 then 56 - i else 64 - i + 56) =
      0x80 :: List.replicate ((119 - i) % 64) 0 := by
  rw [show (if i < 56 then 56 - i else 64 - i + 56) = (119 - i) % 64 + 1 by split <;> omega,
    List.take_succ_cons, List.take_replicate, Nat.min_eq_left (by omega)]

theorem outputBytes_eq (s : Word) : outputBytes s = wordBytes s := by
  have mask : (0xFF : Word).toNat = 2 ^ 8 - 1 := rfl
  simp only [outputBytes, wordBytes, bytesBE, show (List.range 4).reverse = [3, 2, 1, 0] from rfl,
    List.map]
  congr <;> apply BitVec.eq_of_toNat_eq <;>
    simp only [BitVec.toNat_setWidth, BitVec.toNat_and, mask, Nat.and_pow_two_sub_one_eq_mod,
      BitVec.toNat_ushiftRight, Nat.shiftRight_eq_div_pow, BitVec.toNat_ofNat] <;> omega

theorem absorbed_final {context : Sha1Context} {M : List Byte} (holds : Absorbed context M) :
    ∃ c, sha1Final context = some (c, sha1 M) := by
  obtain ⟨c1, step1, holds1⟩ :=
    absorbed_update holds (0x80 :: List.replicate ((119 - M.length % 64) % 64) 0)
  obtain ⟨c2, step2, holds2⟩ := absorbed_update holds1 (bytesBE 8 (8 * M.length))
  have state : c2.state = hashBlocks H0 (M ++ padding M.length) := by
    rw [holds2.state, padding]; simp
  refine ⟨c2, ?_⟩
  simp only [sha1Final, index_of_count holds.count, padding_take (Nat.mod_lt _ (by omega)),
    finalCount_eq holds.count, step1, step2, Option.bind_eq_bind, Option.some_bind, state, sha1,
    digest, show outputBytes = wordBytes from funext outputBytes_eq]
  rfl

/-- `sha1_init`, `sha1_update` on each chunk, `sha1_final` write the FIPS 180-4 SHA-1 of the
concatenation, however the message is split; `httpd_crypto_sha1` writes SHA-1 of any nonempty
input and fails on the empty one. -/
theorem sha1_digest_of_chunks (context : Sha1Context) (chunks : List (List Byte))
    (data : List Byte) :
    (∃ c, (chunks.foldlM sha1Update (sha1Init context)).bind sha1Final =
      some (c, sha1 chunks.flatten)) ∧
    httpdCryptoSha1 context data =
      some (if data = [] then (espFail, []) else (espOk, sha1 data)) := by
  obtain ⟨c, run, holds⟩ := absorbed_foldlM (absorbed_init context) chunks
  obtain ⟨c', final⟩ := absorbed_final (by simpa using holds)
  refine ⟨⟨c', by rw [run, Option.some_bind, final]⟩, ?_⟩
  by_cases empty : data = []
  · simp [httpdCryptoSha1, empty]
  · obtain ⟨d, step, holdsD⟩ := absorbed_update (absorbed_init context) data
    obtain ⟨d', finalD⟩ := absorbed_final (by simpa using holdsD)
    simp [httpdCryptoSha1, empty, step, finalD]

end Sha1
