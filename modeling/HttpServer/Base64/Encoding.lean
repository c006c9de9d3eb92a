import HttpServer.Base64.Codec
import HttpServer.Base64.Rfc4648

/- What `base64_encode` writes, group by group, and that it is the RFC 4648 encoding; what its
size check lets through once `base64_encoded_length` wraps. -/
namespace Base64
open HttpServer Rfc4648

theorem base64Chars_getD {v : Nat} (small : v < 64) :
    base64Chars.getD v 0 = ascii (alphabet v) := by
  have table : ∀ v : Fin 64, base64Chars.getD v 0 = ascii (alphabet v) := by decide
  exact table ⟨v, small⟩

theorem ascii_eq_pad : ascii '=' = base64Pad := rfl

theorem zero_toNat : (0 : Byte).toNat = 0 := rfl

theorem triple_eq (a b c : Byte) : a.toNat <<< 16 ||| b.toNat <<< 8 ||| c.toNat =
    a.toNat * 2 ^ 16 + b.toNat * 2 ^ 8 + c.toNat := by
  have hb := b.isLt; have hc := c.isLt
  rw [Nat.or_assoc, Nat.shiftLeft_eq, Nat.shiftLeft_eq, mul_two_pow_or _ hc,
    mul_two_pow_or _ (show b.toNat * 2 ^ 8 + c.toNat < 2 ^ 16 by omega)]
  omega

theorem encodeGroup_eq (a b c : Byte) :
    encodeGroup a b c = [(a.toNat * 2 ^ 16 + b.toNat * 2 ^ 8 + c.toNat) / 2 ^ 18 % 64,
      (a.toNat * 2 ^ 16 + b.toNat * 2 ^ 8 + c.toNat) / 2 ^ 12 % 64,
      (a.toNat * 2 ^ 16 + b.toNat * 2 ^ 8 + c.toNat) / 2 ^ 6 % 64,
      (a.toNat * 2 ^ 16 + b.toNat * 2 ^ 8 + c.toNat) % 64].map fun v => ascii (alphabet v) := by
  have mask : (0x3F : Nat) = 2 ^ 6 - 1 := rfl
  simp only [encodeGroup, triple_eq, mask, Nat.and_pow_two_sub_one_eq_mod,
    Nat.shiftRight_eq_div_pow, List.map, base64Chars_getD (Nat.mod_lt _ (show 0 < 2 ^ 6 by omega))]

theorem encodeGroup_four (a b c : Byte) :
    ∃ c0 c1 c2 c3, encodeGroup a b c = [c0, c1, c2, c3] := ⟨_, _, _, _, rfl⟩

def paddedGroups : List Byte → List Byte
  | [] => []
  | [a] => (encodeGroup a 0 0).take 2 ++ [base64Pad, base64Pad]
  | [a, b] => (encodeGroup a b 0).take 3 ++ [base64Pad]
  | a :: b :: c :: rest => encodeGroup a b c ++ paddedGroups rest

theorem encodeLoop_length (x : List Byte) : (encodeLoop x).length = 4 * ((x.length + 2) / 3) := by
  induction x using encodeLoop.induct with
  | case1 => rfl
  | case2 a => simp [encodeLoop, encodeGroup]
  | case3 a b => simp [encodeLoop, encodeGroup]
  | case4 a b c rest ih => simp [encodeLoop, encodeGroup, ih]; omega

theorem addPadding_length (out : List Byte) (remainder : Nat) :
    (addPadding out remainder).length = out.length := by
  unfold addPadding; split_ifs <;> simp

theorem addPadding_append (g : List Byte) {out : List Byte} (long : 2 ≤ out.length)
    (remainder : Nat) : addPadding (g ++ out) remainder = g ++ addPadding out remainder := by
  have skip : ∀ {t : List Byte} (i : Nat) (x : Byte),
      (g ++ t).set (g.length + i) x = g ++ t.set i x := fun i x => by
    rw [List.set_append_right _ _ (by omega), Nat.add_sub_cancel_left]
  simp only [addPadding, List.length_append, Nat.add_sub_assoc (show 1 ≤ out.length by omega),
    Nat.add_sub_assoc long]
  split_ifs <;> simp only [skip]

theorem addPadding_encodeLoop {x : List Byte} (nonempty : x ≠ []) :
    addPadding (encodeLoop x) (x.length % 3) = paddedGroups x := by
  induction x using encodeLoop.induct with
  | case1 => contradiction
  | case2 a =>
    obtain ⟨c0, c1, c2, c3, e⟩ := encodeGroup_four a 0 0
    simp only [encodeLoop, paddedGroups, e]; rfl
  | case3 a b =>
    obtain ⟨c0, c1, c2, c3, e⟩ := encodeGroup_four a b 0
    simp only [encodeLoop, paddedGroups, e]; rfl
  | case4 a b c rest ih =>
    by_cases empty : rest = []
    · subst empty; simp [encodeLoop, paddedGroups, addPadding]
    · have long : 2 ≤ (encodeLoop rest).length := by
        rw [encodeLoop_length]; have := List.length_pos.mpr empty; omega
      rw [encodeLoop, paddedGroups, addPadding_append _ long,
        show (a :: b :: c :: rest).length % 3 = rest.length % 3 by simp; omega, ih empty]

theorem paddedGroups_length {x : List Byte} (nonempty : x ≠ []) :
    (paddedGroups x).length = 4 * ((x.length + 2) / 3) := by
  rw [← addPadding_encodeLoop nonempty, addPadding_length, encodeLoop_length]

theorem paddedGroups_eq_encode (x : List Byte) : paddedGroups x = (encode x).map ascii := by
  induction x using paddedGroups.induct with
  | case1 => rfl
  | case2 a =>
    have ha := a.isLt
    rw [paddedGroups, encodeGroup_eq, encode_one]
    simp only [List.map, List.take, List.cons_append, List.nil_append, zero_toNat, ascii_eq_pad]
    rw [show (a.toNat * 2 ^ 16 + 0 * 2 ^ 8 + 0) / 2 ^ 18 % 64 = a.toNat / 2 ^ 2 % 64 by omega,
      show (a.toNat * 2 ^ 16 + 0 * 2 ^ 8 + 0) / 2 ^ 12 % 64 = a.toNat % 4 * 16 by omega]
  | case3 a b =>
    have ha := a.isLt; have hb := b.isLt
    generalize V : a.toNat * 2 ^ 8 + b.toNat = v
    rw [paddedGroups, encodeGroup_eq, encode_two, V]
    simp only [List.map, List.take, List.cons_append, List.nil_append, zero_toNat, ascii_eq_pad]
    rw [show (a.toNat * 2 ^ 16 + b.toNat * 2 ^ 8 + 0) / 2 ^ 18 % 64 = v / 2 ^ 10 % 64 by omega,
      show (a.toNat * 2 ^ 16 + b.toNat * 2 ^ 8 + 0) / 2 ^ 12 % 64 = v / 2 ^ 4 % 64 by omega,
      show (a.toNat * 2 ^ 16 + b.toNat * 2 ^ 8 + 0) / 2 ^ 6 % 64 = v % 16 * 4 by omega]
  | case4 a b c rest ih =>
    rw [paddedGroups, encodeGroup_eq, encode_cons3, ih, List.map_append, List.map_map]
    rfl

section
variable (w : Nat)

theorem base64EncodedLength_eq {n : Nat} (nonzero : n ≠ 0)
    (fits : 4 * ((n + 2) / 3) + 1 < 2 ^ w) : base64EncodedLength w n = 4 * ((n + 2) / 3) := by
  rw [base64EncodedLength, if_neg nonzero, Nat.mod_eq_of_lt (show n + 2 < 2 ^ w by omega),
    Nat.mod_eq_of_lt (by omega), Nat.mul_comm]

theorem base64Encode_eq {x : List Byte} (nonempty : x ≠ []) {L : Nat}
    (passes : ¬ L < (base64EncodedLength w x.length + 1) % 2 ^ w) :
    base64Encode w x L = (4 * ((x.length + 2) / 3), paddedGroups x ++ [0]) := by
  rw [base64Encode, if_neg (by simpa using nonempty), if_neg passes]
  simp only [encodeLoop_length, addPadding_encodeLoop nonempty]

theorem base64_encode_matches_rfc4648 {x : List Byte} (nonempty : x ≠ []) {L : Nat}
    (room : base64EncodedLength w x.length + 1 ≤ L) :
    (base64Encode w x L).2.take (base64Encode w x L).1 = (encode x).map ascii := by
  have reduced := Nat.mod_le (base64EncodedLength w x.length + 1) (2 ^ w)
  rw [base64Encode_eq w nonempty (by omega), ← paddedGroups_length nonempty, List.take_left,
    paddedGroups_eq_encode]

theorem base64_encode_abc_rfc4648 : ([0x41, 0x42, 0x43] : List Byte) ≠ [] ∧
    base64EncodedLength 64 3 + 1 ≤ 5 ∧
    (base64Encode 64 [0x41, 0x42, 0x43] 5).2.take (base64Encode 64 [0x41, 0x42, 0x43] 5).1 =
      (encode [0x41, 0x42, 0x43]).map ascii :=
  ⟨by decide, by decide, base64_encode_matches_rfc4648 64 (by decide) (by decide)⟩

/-- Where nothing wraps the check is sound: the encoder writes nothing past
`out[output_len - 1]`. -/
theorem base64Encode_within {x : List Byte} (fits : 4 * ((x.length + 2) / 3) + 1 < 2 ^ w)
    (L : Nat) : (base64Encode w x L).2.length ≤ L := by
  by_cases empty : x = []
  · subst empty; simp only [base64Encode, List.length_nil, if_true]; split_ifs <;> simp; omega
  by_cases passes : L < (base64EncodedLength w x.length + 1) % 2 ^ w
  · simp [base64Encode, passes, empty]
  · rw [base64Encode_eq w empty passes, List.length_append, paddedGroups_length empty]
    rw [base64EncodedLength_eq w (by simpa using empty) fits, Nat.mod_eq_of_lt fits] at passes
    simp; omega

theorem base64Encode_within_abc :
    4 * ((([0x41, 0x42, 0x43] : List Byte).length + 2) / 3) + 1 < 2 ^ 64 ∧
    (base64Encode 64 [0x41, 0x42, 0x43] 5).2 = "QUJD".toList.map ascii ++ [0] ∧
    (base64Encode 64 [0x41, 0x42, 0x43] 5).2.length ≤ 5 :=
  ⟨by decide, by decide, base64Encode_within 64 (by decide) 5⟩

end

/-- With a 32-bit `size_t`, `3 · 2^30` input bytes make the required length wrap to 0, so the check
passes for a one-byte buffer and the encoder writes `2^32 + 1` bytes into it. -/
theorem base64Encode_overruns :
    base64EncodedLength 32 (3 * 2 ^ 30) = 0 ∧
      (base64Encode 32 (List.replicate (3 * 2 ^ 30) 0) 1).2.length = 2 ^ 32 + 1 := by
  have wraps : base64EncodedLength 32 (3 * 2 ^ 30) = 0 := by decide
  have nonempty : List.replicate (3 * 2 ^ 30) (0 : Byte) ≠ [] := by
    rw [Ne, List.replicate_eq_nil_iff]; norm_num
  refine ⟨wraps, ?_⟩
  rw [base64Encode_eq 32 nonempty (by rw [List.length_replicate, wraps]; decide),
    List.length_append, paddedGroups_length nonempty, List.length_replicate]
  rfl

end Base64
