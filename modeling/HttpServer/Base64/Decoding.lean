import HttpServer.Base64.Encoding

/- What `base64_decode` stores and returns: the size check bounds every store, an `=` inside the
string is read as a zero sextet, and decoding undoes `base64_encode`. -/
namespace Base64
open HttpServer Rfc4648

theorem decodeGroup_some {c0 c1 c2 c3 : Byte} {out : List Byte}
    (decoded : decodeGroup c0 c1 c2 c3 = some out) :
    (∀ c ∈ [c0, c1, c2, c3], base64CharToValue c ≠ -1) ∧
      out.length = 1 + (if c2 = base64Pad then 0 else 1) + (if c3 = base64Pad then 0 else 1) := by
  simp only [decodeGroup] at decoded
  split at decoded
  · cases decoded
  · cases decoded; exact ⟨by simp_all, by split_ifs <;> simp_all⟩

theorem eq_nil_of_no_group {t : List Byte} (whole : t.length % 4 = 0)
    (short : ∀ c0 c1 c2 c3 rest, t = c0 :: c1 :: c2 :: c3 :: rest → False) : t = [] := by
  match t, whole with
  | [], _ => rfl
  | c0 :: c1 :: c2 :: c3 :: rest, _ => exact (short c0 c1 c2 c3 rest rfl).elim
  | [_], whole | [_, _], whole | [_, _, _], whole => simp at whole

theorem numPaddingChars_le (s : List Byte) : numPaddingChars s ≤ 2 := by
  unfold numPaddingChars; split_ifs <;> simp

theorem numPaddingChars_append {g : List Byte} (whole : g.length % 4 = 0) {p : List Byte}
    (long : 2 ≤ p.length) : numPaddingChars (g ++ p) = numPaddingChars p := by
  have last : ∀ k, 1 ≤ k → k ≤ 2 →
      (g ++ p).getD ((g ++ p).length - k) 0 = p.getD (p.length - k) 0 := fun k one two => by
      rw [List.getD_append_right _ _ _ _ (by simp; omega), List.length_append]; congr 1; omega
  unfold numPaddingChars
  rw [last 1 le_rfl (by omega), last 2 (by omega) le_rfl, List.length_append]
  exact if_congr (by omega) rfl rfl

theorem decodeLoop_nil : decodeLoop [] = ([], true) := rfl

theorem numPaddingChars_group (c0 c1 c2 c3 : Byte) : numPaddingChars [c0, c1, c2, c3] =
    (if c2 = base64Pad then 1 else 0) + (if c3 = base64Pad then 1 else 0) := by
  simp [numPaddingChars, eq_comm, Nat.add_comm]

theorem numPaddingChars_cons {c0 c1 c2 c3 : Byte} {rest : List Byte} (long : 2 ≤ rest.length) :
    numPaddingChars (c0 :: c1 :: c2 :: c3 :: rest) = numPaddingChars rest :=
  numPaddingChars_append (show [c0, c1, c2, c3].length % 4 = 0 by simp) long

theorem decodeLoop_length_add_pads {s : List Byte} (whole : s.length % 4 = 0)
    (nonempty : s ≠ []) : (decodeLoop s).1.length + numPaddingChars s ≤ s.length / 4 * 3 := by
  induction s using decodeLoop.induct with
  | case1 c0 c1 c2 c3 rest invalid =>
    have := numPaddingChars_le (c0 :: c1 :: c2 :: c3 :: rest)
    simp only [decodeLoop, invalid, List.length_nil, List.length_cons]; omega
  | case2 c0 c1 c2 c3 rest out decoded ih =>
    have group := (decodeGroup_some decoded).2
    simp only [decodeLoop, decoded, List.length_append, List.length_cons] at whole ⊢
    by_cases empty : rest = []
    · subst empty
      rw [decodeLoop_nil, numPaddingChars_group]
      split_ifs at group ⊢ <;> simp <;> omega
    · have long := List.length_pos.mpr empty
      have := ih (by omega) empty
      rw [numPaddingChars_cons (by omega)]; split_ifs at group <;> omega
  | case3 t short => exact absurd (eq_nil_of_no_group whole short) nonempty

theorem decodeLoop_length_le {s : List Byte} (whole : s.length % 4 = 0) :
    (decodeLoop s).1.length ≤ base64DecodedLength s := by
  by_cases empty : s = []
  · subst empty; decide
  · have := decodeLoop_length_add_pads whole empty
    rw [base64DecodedLength, if_neg (by simpa using empty)]; omega

theorem base64_decode_within (s : List Byte) (M : Nat) :
    (base64Decode s M).2.length ≤ M ∧ (base64Decode s M).1 ≤ base64DecodedLength s ∧
      (base64Decode s M).2.length ≤ base64DecodedLength s := by
  unfold base64Decode
  split_ifs with empty ragged small
  · simp
  · simp
  · simp
  · have := decodeLoop_length_le (not_not.mp ragged)
    simp only; split <;> omega

theorem decodeLoop_invalid {s : List Byte} (whole : s.length % 4 = 0) {c : Byte} (mem : c ∈ s)
    (invalid : base64CharToValue c = -1) : (decodeLoop s).2 = false := by
  induction s using decodeLoop.induct with
  | case1 c0 c1 c2 c3 rest none => simp [decodeLoop, none]
  | case2 c0 c1 c2 c3 rest out decoded ih =>
    simp only [decodeLoop, decoded]
    rcases List.mem_append.mp (show c ∈ [c0, c1, c2, c3] ++ rest from mem) with group | mem
    · exact absurd invalid ((decodeGroup_some decoded).1 c group)
    · exact ih (by simp at whole; omega) mem
  | case3 t short => cases eq_nil_of_no_group whole short; cases mem

/-- As the header says, a string with an invalid character decodes to 0 bytes. -/
theorem base64Decode_invalid (s : List Byte) (M : Nat) {c : Byte} (mem : c ∈ s)
    (invalid : base64CharToValue c = -1) : (base64Decode s M).1 = 0 := by
  unfold base64Decode
  split_ifs with empty ragged <;> try rfl
  simp only [decodeLoop_invalid (not_not.mp ragged) mem invalid]; rfl

theorem base64Decode_invalid_bang : ascii '!' ∈ "QQ!=".toList.map ascii ∧
    base64CharToValue (ascii '!') = -1 ∧ (base64Decode ("QQ!=".toList.map ascii) 3).1 = 0 :=
  ⟨by decide, by decide,
    base64Decode_invalid _ 3 (show ascii '!' ∈ "QQ!=".toList.map ascii by decide) (by decide)⟩

/-- An `=` inside the string is read as a zero sextet: "QQ==QUJD" decodes to four bytes. -/
theorem base64Decode_embedded_pad :
    base64Decode ("QQ==QUJD".toList.map ascii) 8 = (4, [0x41, 0x41, 0x42, 0x43]) := by decide

theorem charToValue_alphabet {v : Nat} (small : v < 64) :
    base64CharToValue (ascii (alphabet v)) = v := by
  have table : ∀ v : Fin 64, base64CharToValue (ascii (alphabet v)) = v := by decide
  exact table ⟨v, small⟩

theorem alphabet_ne_pad {v : Nat} (small : v < 64) : ascii (alphabet v) ≠ base64Pad := by
  have table : ∀ v : Fin 64, ascii (alphabet v) ≠ base64Pad := by decide
  exact table ⟨v, small⟩

theorem charToValue_pad : base64CharToValue base64Pad = ((0 : Nat) : Int) := by decide

theorem quadruple_eq {v0 v1 v2 v3 : Nat} (s1 : v1 < 64) (s2 : v2 < 64) (s3 : v3 < 64) :
    v0 <<< 18 ||| v1 <<< 12 ||| v2 <<< 6 ||| v3 =
      v0 * 2 ^ 18 + v1 * 2 ^ 12 + v2 * 2 ^ 6 + v3 := by
  rw [Nat.or_assoc, Nat.or_assoc, Nat.shiftLeft_eq, Nat.shiftLeft_eq, Nat.shiftLeft_eq,
    mul_two_pow_or _ (show v3 < 2 ^ 6 by omega),
    mul_two_pow_or _ (show v2 * 2 ^ 6 + v3 < 2 ^ 12 by omega),
    mul_two_pow_or _ (show v1 * 2 ^ 12 + (v2 * 2 ^ 6 + v3) < 2 ^ 18 by omega)]
  omega

theorem decodeGroup_of_values {c0 c1 c2 c3 : Byte} {v0 v1 v2 v3 : Nat}
    (h0 : base64CharToValue c0 = v0) (h1 : base64CharToValue c1 = v1)
    (h2 : base64CharToValue c2 = v2) (h3 : base64CharToValue c3 = v3)
    (s1 : v1 < 64) (s2 : v2 < 64) (s3 : v3 < 64) :
    decodeGroup c0 c1 c2 c3 =
      some ([BitVec.ofNat 8 ((v0 * 2 ^ 18 + v1 * 2 ^ 12 + v2 * 2 ^ 6 + v3) / 2 ^ 16 % 2 ^ 8)] ++
        (if c2 ≠ base64Pad then
          [BitVec.ofNat 8 ((v0 * 2 ^ 18 + v1 * 2 ^ 12 + v2 * 2 ^ 6 + v3) / 2 ^ 8 % 2 ^ 8)]
        else []) ++
        (if c3 ≠ base64Pad then
          [BitVec.ofNat 8 ((v0 * 2 ^ 18 + v1 * 2 ^ 12 + v2 * 2 ^ 6 + v3) % 2 ^ 8)] else [])) := by
  have valid : ∀ v : Nat, (v : Int) ≠ -1 := fun v => by omega
  have mask : (0xFF : Nat) = 2 ^ 8 - 1 := rfl
  simp only [decodeGroup, h0, h1, h2, h3, valid, or_self, if_false, Int.toNat_natCast,
    quadruple_eq s1 s2 s3, mask, Nat.and_pow_two_sub_one_eq_mod, Nat.shiftRight_eq_div_pow]

theorem byte_ofNat {n : Nat} (a : Byte) (low : n % 2 ^ 8 = a.toNat) : BitVec.ofNat 8 n = a :=
  BitVec.eq_of_toNat_eq (by rw [BitVec.toNat_ofNat, low])

theorem sextet_lt (t k : Nat) : t / 2 ^ k % 64 < 64 := Nat.mod_lt _ (by decide)

theorem decodeGroup_triple (a b c : Byte) :
    decodeGroup (ascii (alphabet ((a.toNat * 2 ^ 16 + b.toNat * 2 ^ 8 + c.toNat) / 2 ^ 18 % 64)))
      (ascii (alphabet ((a.toNat * 2 ^ 16 + b.toNat * 2 ^ 8 + c.toNat) / 2 ^ 12 % 64)))
      (ascii (alphabet ((a.toNat * 2 ^ 16 + b.toNat * 2 ^ 8 + c.toNat) / 2 ^ 6 % 64)))
      (ascii (alphabet ((a.toNat * 2 ^ 16 + b.toNat * 2 ^ 8 + c.toNat) % 64))) =
      some [a, b, c] := by
  have ha := a.isLt; have hb := b.isLt; have hc := c.isLt
  generalize T : a.toNat * 2 ^ 16 + b.toNat * 2 ^ 8 + c.toNat = t
  have last : t % 64 < 64 := Nat.mod_lt _ (by decide)
  rw [decodeGroup_of_values (charToValue_alphabet (sextet_lt t 18)) (charToValue_alphabet
    (sextet_lt t 12)) (charToValue_alphabet (sextet_lt t 6)) (charToValue_alphabet last)
    (sextet_lt t 12) (sextet_lt t 6) last, if_pos (alphabet_ne_pad (sextet_lt t 6)),
    if_pos (alphabet_ne_pad last), byte_ofNat a (by omega), byte_ofNat b (by omega),
    byte_ofNat c (by omega)]
  rfl

theorem decodeGroup_one (a : Byte) :
    decodeGroup (ascii (alphabet (a.toNat / 2 ^ 2 % 64))) (ascii (alphabet (a.toNat % 4 * 16)))
      base64Pad base64Pad = some [a] := by
  have ha := a.isLt
  have low : a.toNat % 4 * 16 < 64 := by omega
  rw [decodeGroup_of_values (charToValue_alphabet (sextet_lt _ 2)) (charToValue_alphabet low)
    charToValue_pad charToValue_pad low (by decide) (by decide), byte_ofNat a (by omega)]
  simp

theorem decodeGroup_two (a b : Byte) :
    decodeGroup (ascii (alphabet ((a.toNat * 2 ^ 8 + b.toNat) / 2 ^ 10 % 64)))
      (ascii (alphabet ((a.toNat * 2 ^ 8 + b.toNat) / 2 ^ 4 % 64)))
      (ascii (alphabet ((a.toNat * 2 ^ 8 + b.toNat) % 16 * 4))) base64Pad = some [a, b] := by
  have ha := a.isLt; have hb := b.isLt
  generalize V : a.toNat * 2 ^ 8 + b.toNat = v
  have low : v % 16 * 4 < 64 := by omega
  rw [decodeGroup_of_values (charToValue_alphabet (sextet_lt v 10)) (charToValue_alphabet
    (sextet_lt v 4)) (charToValue_alphabet low) charToValue_pad (sextet_lt v 4) low (by decide),
    if_pos (alphabet_ne_pad low), byte_ofNat a (by omega), byte_ofNat b (by omega)]
  simp

theorem decodeLoop_encode (x : List Byte) : decodeLoop ((encode x).map ascii) = (x, true) := by
  induction x using paddedGroups.induct with
  | case1 => rfl
  | case2 a =>
    rw [encode_one]
    simp only [List.map, ascii_eq_pad]
    rw [decodeLoop, decodeGroup_one]
    rfl
  | case3 a b =>
    rw [encode_two]
    simp only [List.map, ascii_eq_pad]
    rw [decodeLoop, decodeGroup_two]
    rfl
  | case4 a b c rest ih =>
    rw [encode_cons3, List.map_append, List.map_map]
    simp only [List.map, Function.comp, List.cons_append, List.nil_append]
    rw [decodeLoop, decodeGroup_triple, ih]
    rfl

theorem numPaddingChars_encode {x : List Byte} (nonempty : x ≠ []) :
    numPaddingChars ((encode x).map ascii) = (3 - x.length % 3) % 3 := by
  induction x using paddedGroups.induct with
  | case1 => contradiction
  | case2 a => simp [encode_one, ascii_eq_pad, numPaddingChars_group]
  | case3 a b =>
    have low := alphabet_ne_pad (show (a.toNat * 2 ^ 8 + b.toNat) % 16 * 4 < 64 by omega)
    rw [encode_two]
    simp only [List.map, ascii_eq_pad, numPaddingChars_group, low, ↓reduceIte]
    rfl
  | case4 a b c rest ih =>
    rw [encode_cons3, List.map_append, List.map_map]
    simp only [List.map, Function.comp, List.cons_append, List.nil_append]
    by_cases empty : rest = []
    · subst empty
      have third := alphabet_ne_pad (sextet_lt (a.toNat * 2 ^ 16 + b.toNat * 2 ^ 8 + c.toNat) 6)
      have fourth := alphabet_ne_pad (Nat.mod_lt (a.toNat * 2 ^ 16 + b.toNat * 2 ^ 8 + c.toNat)
        (show 0 < 64 by decide))
      rw [show encode [] = [] from rfl, List.map_nil, numPaddingChars_group, if_neg third,
        if_neg fourth]
      simp
    · have long : 2 ≤ ((encode rest).map ascii).length := by
        have := List.length_pos.mpr empty
        rw [← paddedGroups_eq_encode, paddedGroups_length empty]; omega
      rw [numPaddingChars_cons long, ih empty, List.length_cons, List.length_cons, List.length_cons]
      omega

theorem base64DecodedLength_encode {x : List Byte} (nonempty : x ≠ []) :
    base64DecodedLength ((encode x).map ascii) = x.length := by
  have len := paddedGroups_length nonempty
  rw [paddedGroups_eq_encode] at len
  rw [base64DecodedLength, if_neg (by have := List.length_pos.mpr nonempty; omega),
    numPaddingChars_encode nonempty, len]
  omega

theorem base64Decode_encode {x : List Byte} (nonempty : x ≠ []) {M : Nat}
    (enough : x.length ≤ M) : base64Decode ((encode x).map ascii) M = (x.length, x) := by
  have len := paddedGroups_length nonempty
  rw [paddedGroups_eq_encode] at len
  have := List.length_pos.mpr nonempty
  rw [base64Decode, if_neg (by omega), if_neg (by omega),
    if_neg (by rw [base64DecodedLength_encode nonempty]; omega), decodeLoop_encode]
  rfl

theorem base64_round_trip (w : Nat) {x : List Byte} (nonempty : x ≠ [])
    (fits : 4 * ((x.length + 2) / 3) + 1 < 2 ^ w) {L : Nat}
    (room : base64EncodedLength w x.length + 1 ≤ L) {M : Nat} (enough : x.length ≤ M) :
    ∃ e out, base64Encode w x L = (e, out) ∧ e = base64EncodedLength w x.length ∧
      e = 4 * ((x.length + 2) / 3) ∧ out[e]? = some 0 ∧
      base64DecodedLength (out.take e) = x.length ∧ base64Decode (out.take e) M = (x.length, x) := by
  have exact := base64EncodedLength_eq w (by simpa using nonempty) fits
  have len := paddedGroups_length nonempty
  refine ⟨_, _, base64Encode_eq w nonempty ?_, exact.symm, rfl, ?_, ?_, ?_⟩
  · rw [exact, Nat.mod_eq_of_lt fits]; rw [exact] at room; omega
  · rw [List.getElem?_append_right (by omega), len, Nat.sub_self]; rfl
  · rw [← len, List.take_left, paddedGroups_eq_encode, base64DecodedLength_encode nonempty]
  · rw [← len, List.take_left, paddedGroups_eq_encode, base64Decode_encode nonempty enough]

theorem base64_round_trip_abc : ([0x41, 0x42, 0x43] : List Byte) ≠ [] ∧ 4 * ((3 + 2) / 3) + 1 < 2 ^ 64 ∧
    base64EncodedLength 64 3 + 1 ≤ 5 ∧ 3 ≤ 3 ∧
    ∃ e out, base64Encode 64 [0x41, 0x42, 0x43] 5 = (e, out) ∧ e = base64EncodedLength 64 3 ∧
      e = 4 * ((3 + 2) / 3) ∧ out[e]? = some 0 ∧ base64DecodedLength (out.take e) = 3 ∧
      base64Decode (out.take e) 3 = (3, [0x41, 0x42, 0x43]) :=
  ⟨by decide, by decide, by decide, le_rfl,
    base64_round_trip 64 (by decide) (by decide) (by decide) (le_refl 3)⟩

end Base64
