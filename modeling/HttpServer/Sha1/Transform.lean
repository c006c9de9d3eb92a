import HttpServer.Sha1.Context

/- `sha1_transform` is the compression function of FIPS 180-4 §6.1.2 on every 64-byte block:
the schedule loop fills `W_0 … W_79`, the `|` forms of `Ch` and `Maj` are the `⊕` forms of
§4.1.1, and `ROTL` is rotation. -/
namespace Sha1
open HttpServer Fips180

theorem rotl_eq_rotateLeft (x : Word) {n : Nat} (small : n < 32) : rotl x n = x.rotateLeft n :=
  (BitVec.rotateLeft_eq_rotateLeftAux_of_lt small).symm

theorem ch_eq_or (b c d : Word) : (b &&& c) ||| (~~~b &&& d) = ch b c d := by
  ext i
  simp only [ch, BitVec.getLsbD_or, BitVec.getLsbD_and, BitVec.getLsbD_xor, BitVec.getLsbD_not]
  cases b.getLsbD i <;> cases c.getLsbD i <;> cases d.getLsbD i <;> simp

theorem maj_eq_or (b c d : Word) : (b &&& c) ||| (b &&& d) ||| (c &&& d) = maj b c d := by
  ext i
  simp only [maj, BitVec.getLsbD_or, BitVec.getLsbD_and, BitVec.getLsbD_xor]
  cases b.getLsbD i <;> cases c.getLsbD i <;> cases d.getLsbD i <;> rfl

theorem W_of_lt (M : List Byte) {t : Nat} (small : t < 16) : W M t = blockWord M t := by
  rw [W.eq_2]; intro t' h; omega

theorem W_add_sixteen (M : List Byte) (t : Nat) :
    W M (t + 16) = (W M (t + 13) ^^^ W M (t + 8) ^^^ W M (t + 2) ^^^ W M t).rotateLeft 1 := by
  rw [W]

theorem loadWord_cons (b0 b1 b2 b3 : Byte) (rest : List Byte) :
    loadWord (b0 :: b1 :: b2 :: b3 :: rest) 0 =
      BitVec.ofNat 32 (b0.toNat * 2 ^ 24 + b1.toNat * 2 ^ 16 + b2.toNat * 2 ^ 8 + b3.toNat) := by
  apply BitVec.eq_of_toNat_eq
  have h0 := b0.isLt; have h1 := b1.isLt; have h2 := b2.isLt; have h3 := b3.isLt
  simp only [loadWord, List.getD_cons_succ, List.getD_cons_zero, Nat.zero_mul, Nat.zero_add,
    BitVec.or_assoc, BitVec.toNat_or, BitVec.toNat_shiftLeft, BitVec.toNat_setWidth,
    BitVec.toNat_ofNat, Nat.shiftLeft_eq]
  rw [Nat.mod_eq_of_lt (show b3.toNat < 2 ^ 32 by omega),
    Nat.mod_eq_of_lt (show b2.toNat < 2 ^ 32 by omega),
    Nat.mod_eq_of_lt (show b1.toNat < 2 ^ 32 by omega),
    Nat.mod_eq_of_lt (show b0.toNat < 2 ^ 32 by omega),
    Nat.mod_eq_of_lt (show b2.toNat * 2 ^ 8 < 2 ^ 32 by omega),
    Nat.mod_eq_of_lt (show b1.toNat * 2 ^ 16 < 2 ^ 32 by omega),
    Nat.mod_eq_of_lt (show b0.toNat * 2 ^ 24 < 2 ^ 32 by omega), mul_two_pow_or _ h3,
    mul_two_pow_or _ (show _ < 2 ^ 16 by omega), mul_two_pow_or _ (show _ < 2 ^ 24 by omega)]
  omega

theorem loadWord_drop (block : List Byte) (i : Nat) :
    loadWord block i = loadWord (block.drop (i * 4)) 0 := by
  simp only [loadWord, List.getD_eq_getElem?_getD, List.getElem?_drop, Nat.zero_mul,
    Nat.zero_add, Nat.add_zero]

theorem loadWord_eq_blockWord {block : List Byte} {i : Nat} (inside : i * 4 + 4 ≤ block.length) :
    loadWord block i = blockWord block i := by
  rw [loadWord_drop, blockWord, Nat.mul_comm 4 i]
  have long : 4 ≤ (block.drop (i * 4)).length := by simp; omega
  match block.drop (i * 4), long with
  | b0 :: b1 :: b2 :: b3 :: rest, _ =>
    rw [loadWord_cons]
    exact congrArg (BitVec.ofNat 32) (by simp only [bigEndian, List.take, List.foldl]; omega)

theorem expand_spec {block : List Byte} (full : block.length = 64) {k : Nat} (hk : k ≤ 64) :
    let w := (List.range' 16 k).foldl expandWord ((List.range 16).map (loadWord block))
    w.length = 16 + k ∧ ∀ t < 16 + k, w.getD t 0 = W block t := by
  induction k with
  | zero =>
    refine ⟨by simp, fun t ht => ?_⟩
    rw [List.range'_zero, List.foldl_nil, List.getD_eq_getElem _ _ (by simpa using ht),
      List.getElem_map, List.getElem_range, W_of_lt block ht]
    exact loadWord_eq_blockWord (by omega)
  | succ k ih =>
    obtain ⟨len, entries⟩ := ih (by omega)
    simp only [List.range'_concat, List.foldl_append, List.foldl_cons, List.foldl_nil,
      expandWord, List.length_append, len, List.length_singleton, Nat.one_mul]
    refine ⟨by omega, fun t ht => ?_⟩
    by_cases old : t < 16 + k
    · rw [List.getD_append _ _ _ _ (by omega), entries t old]
    · have top : t = k + 16 := by omega
      subst top
      rw [List.getD_append_right _ _ _ _ (by omega), W_add_sixteen,
        ← rotl_eq_rotateLeft _ (by omega), entries _ (by omega), entries _ (by omega),
        entries _ (by omega), entries _ (by omega)]
      simp only [show 16 + k - 3 = k + 13 by omega, show 16 + k - 8 = k + 8 by omega,
        show 16 + k - 14 = k + 2 by omega, show 16 + k - 16 = k by omega,
        len, show k + 16 - (16 + k) = 0 by omega, List.getD_cons_zero]

theorem messageSchedule_getD {block : List Byte} (full : block.length = 64) {t : Nat}
    (ht : t < 80) : (messageSchedule block).getD t 0 = W block t :=
  (expand_spec full (Nat.le_refl 64)).2 t ht

theorem transformRound_eq_round {block : List Byte} (full : block.length = 64) (v : Vars)
    {i : Nat} (hi : i < 80) :
    transformRound (messageSchedule block) v i = compressRound block v i := by
  simp only [transformRound, compressRound, roundFunction, f, K, messageSchedule_getD full hi,
    rotl_eq_rotateLeft _ (show 5 < 32 by omega), rotl_eq_rotateLeft _ (show 30 < 32 by omega)]
  split_ifs <;> first | omega | simp [ch_eq_or, maj_eq_or, parity, sha1K0, sha1K1, sha1K2, sha1K3]

theorem sha1Transform_eq_compress (H : HashValue) {block : List Byte} (full : block.length = 64) :
    sha1Transform H block = compress H block := by
  simp only [sha1Transform, compress]
  rw [List.foldl_ext _ _ _ fun v i mem => transformRound_eq_round full v (List.mem_range.mp mem)]
  simp only [HashValue.mk.injEq, BitVec.add_comm, and_self]

end Sha1
