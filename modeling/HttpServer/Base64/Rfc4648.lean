import HttpServer.Basic

/- Base64 as RFC 4648 §4 defines it: the bits of the input, most significant first, cut into
6-bit groups, the last one filled with zero bits, each group mapped through the alphabet of
Table 1, and `=` added up to a multiple of four characters. -/
namespace Rfc4648
open HttpServer

def bitsBE : Nat → Nat → List Bool
  | 0, _ => []
  | n + 1, v => v.testBit n :: bitsBE n v

def bitString (x : List Byte) : List Bool := x.flatMap fun b => bitsBE 8 b.toNat

def sextets : List Bool → List (List Bool)
  | b0 :: b1 :: b2 :: b3 :: b4 :: b5 :: rest => [b0, b1, b2, b3, b4, b5] :: sextets rest
  | [] => []
  | last => [last ++ List.replicate (6 - last.length) false]

def value (g : List Bool) : Nat := g.foldl (fun acc b => 2 * acc + b.toNat) 0

/-- Table 1 of §4. -/
def alphabet (v : Nat) : Char :=
  if v < 26 then Char.ofNat ('A'.toNat + v)
  else if v < 52 then Char.ofNat ('a'.toNat + (v - 26))
  else if v < 62 then Char.ofNat ('0'.toNat + (v - 52))
  else if v = 62 then '+' else '/'

def encode (x : List Byte) : List Char :=
  let chars := (sextets (bitString x)).map fun g => alphabet (value g)
  chars ++ List.replicate ((4 - chars.length % 4) % 4) '='

-- The examples of RFC 4648, section 10.
example : encode ("foob".toList.map ascii) = "Zm9vYg==".toList ∧
    encode ("fooba".toList.map ascii) = "Zm9vYmE=".toList ∧
    encode ("foobar".toList.map ascii) = "Zm9vYmFy".toList := by decide

theorem bitsBE_length (n v : Nat) : (bitsBE n v).length = n := by
  induction n with
  | zero => rfl
  | succ n ih => simp [bitsBE, ih]

theorem bitsBE_add (m n v : Nat) : bitsBE (m + n) v = bitsBE m (v >>> n) ++ bitsBE n v := by
  induction m with
  | zero => simp [bitsBE]
  | succ m ih =>
    rw [Nat.add_right_comm, bitsBE, ih, bitsBE, Nat.testBit_shiftRight, Nat.add_comm n]
    rfl

theorem bitsBE_mod (n v : Nat) : bitsBE n (v % 2 ^ n) = bitsBE n v := by
  induction n generalizing v with
  | zero => rfl
  | succ n ih =>
    have low : v % 2 ^ (n + 1) % 2 ^ n = v % 2 ^ n :=
      Nat.mod_mod_of_dvd _ (Nat.pow_dvd_pow 2 (Nat.le_succ n))
    rw [bitsBE, bitsBE, Nat.testBit_mod_two_pow, ← ih (v % 2 ^ (n + 1)), low, ih v]
    simp

theorem value_cons (b : Bool) (r : List Bool) :
    value (b :: r) = b.toNat * 2 ^ r.length + value r := by
  have shift : ∀ (acc : Nat) (r : List Bool), r.foldl (fun acc b => 2 * acc + b.toNat) acc =
      acc * 2 ^ r.length + value r := by
    intro acc r
    induction r generalizing acc with
    | nil => simp [value]
    | cons c r ih =>
      have head : value (c :: r) = (2 * 0 + c.toNat) * 2 ^ r.length + value r := ih _
      rw [List.foldl_cons, ih, head, List.length_cons, Nat.pow_succ]
      ring
  exact (shift (2 * 0 + b.toNat) r).trans (by simp)

theorem value_append (l r : List Bool) : value (l ++ r) = value l * 2 ^ r.length + value r := by
  induction l with
  | nil => simp [value]
  | cons b l ih =>
    rw [List.cons_append, value_cons, value_cons, ih, List.length_append, Nat.pow_add]
    ring

theorem value_bitsBE (n v : Nat) : value (bitsBE n v) = v % 2 ^ n := by
  induction n with
  | zero => simp [bitsBE, value, Nat.mod_one]
  | succ n ih =>
    rw [bitsBE, value_cons, ih, bitsBE_length, Nat.testBit_to_div_mod, Nat.mod_pow_succ]
    rcases Nat.mod_two_eq_zero_or_one (v / 2 ^ n) with parity | parity <;> simp [parity]
    ring

theorem value_zeros (l : List Bool) (k : Nat) :
    value (l ++ List.replicate k false) = value l * 2 ^ k := by
  have zero : value (List.replicate k false) = 0 := by
    induction k with
    | zero => rfl
    | succ k ih => rw [List.replicate_succ', value_append, ih]; rfl
  rw [value_append, zero, List.length_replicate, Nat.add_zero]

theorem sextets_six {g : List Bool} (six : g.length = 6) (r : List Bool) :
    sextets (g ++ r) = g :: sextets r := by
  match g, six with
  | [_, _, _, _, _, _], _ => rfl

theorem bitsBE_congr {n v v' : Nat} (same : v % 2 ^ n = v' % 2 ^ n) :
    bitsBE n v = bitsBE n v' := by
  rw [← bitsBE_mod n v, same, bitsBE_mod]

theorem bitsBE_split (m n v : Nat) : bitsBE (m + n) v = bitsBE m (v / 2 ^ n) ++ bitsBE n v := by
  rw [bitsBE_add, Nat.shiftRight_eq_div_pow]

theorem sextets_three (a b c : Byte) (rest : List Bool) :
    sextets (bitsBE 8 a.toNat ++ bitsBE 8 b.toNat ++ bitsBE 8 c.toNat ++ rest) =
      bitsBE 6 ((a.toNat * 2 ^ 16 + b.toNat * 2 ^ 8 + c.toNat) / 2 ^ 18) ::
      bitsBE 6 ((a.toNat * 2 ^ 16 + b.toNat * 2 ^ 8 + c.toNat) / 2 ^ 12) ::
      bitsBE 6 ((a.toNat * 2 ^ 16 + b.toNat * 2 ^ 8 + c.toNat) / 2 ^ 6) ::
      bitsBE 6 (a.toNat * 2 ^ 16 + b.toNat * 2 ^ 8 + c.toNat) :: sextets rest := by
  have ha := a.isLt; have hb := b.isLt; have hc := c.isLt
  generalize T : a.toNat * 2 ^ 16 + b.toNat * 2 ^ 8 + c.toNat = t
  have bytes : bitsBE 8 a.toNat ++ bitsBE 8 b.toNat ++ bitsBE 8 c.toNat =
      bitsBE 6 (t / 2 ^ 18) ++ bitsBE 6 (t / 2 ^ 12) ++ bitsBE 6 (t / 2 ^ 6) ++ bitsBE 6 t := by
    have s24 : bitsBE 24 t = bitsBE 6 (t / 2 ^ 18) ++ bitsBE 18 t := bitsBE_split 6 18 t
    have s18 : bitsBE 18 t = bitsBE 6 (t / 2 ^ 12) ++ bitsBE 12 t := bitsBE_split 6 12 t
    have s12 : bitsBE 12 t = bitsBE 6 (t / 2 ^ 6) ++ bitsBE 6 t := bitsBE_split 6 6 t
    have b24 : bitsBE 24 t = bitsBE 8 (t / 2 ^ 16) ++ bitsBE 16 t := bitsBE_split 8 16 t
    have b16 : bitsBE 16 t = bitsBE 8 (t / 2 ^ 8) ++ bitsBE 8 t := bitsBE_split 8 8 t
    rw [bitsBE_congr (show a.toNat % 2 ^ 8 = t / 2 ^ 16 % 2 ^ 8 by omega),
      bitsBE_congr (show b.toNat % 2 ^ 8 = t / 2 ^ 8 % 2 ^ 8 by omega),
      bitsBE_congr (show c.toNat % 2 ^ 8 = t % 2 ^ 8 by omega), List.append_assoc, ← b16, ← b24,
      s24, s18, s12]
    simp only [List.append_assoc]
  rw [bytes]
  simp only [List.append_assoc, sextets_six (bitsBE_length 6 _)]

theorem sextets_short {l : List Bool} (short : 0 < l.length ∧ l.length < 6) :
    sextets l = [l ++ List.replicate (6 - l.length) false] := by
  match l, short with
  | [_], _ | [_, _], _ | [_, _, _], _ | [_, _, _, _], _ | [_, _, _, _, _], _ => rfl

theorem encode_cons3 (a b c : Byte) (rest : List Byte) :
    encode (a :: b :: c :: rest) =
      [(a.toNat * 2 ^ 16 + b.toNat * 2 ^ 8 + c.toNat) / 2 ^ 18 % 64,
        (a.toNat * 2 ^ 16 + b.toNat * 2 ^ 8 + c.toNat) / 2 ^ 12 % 64,
        (a.toNat * 2 ^ 16 + b.toNat * 2 ^ 8 + c.toNat) / 2 ^ 6 % 64,
        (a.toNat * 2 ^ 16 + b.toNat * 2 ^ 8 + c.toNat) % 64].map alphabet ++ encode rest := by
  have bits : bitString (a :: b :: c :: rest) =
      bitsBE 8 a.toNat ++ bitsBE 8 b.toNat ++ bitsBE 8 c.toNat ++ bitString rest := by
    simp [bitString]
  simp only [encode, bits, sextets_three, List.map_cons, value_bitsBE, List.length_cons,
    List.length_map, List.cons_append, List.nil_append, List.map_nil]
  rw [show (4 - (List.length (sextets (bitString rest)) + 1 + 1 + 1 + 1) % 4) % 4 =
    (4 - List.length (sextets (bitString rest)) % 4) % 4 by omega]
  rfl

theorem encode_one (a : Byte) :
    encode [a] = [alphabet (a.toNat / 2 ^ 2 % 64), alphabet (a.toNat % 4 * 16), '=', '='] := by
  have bits : bitString [a] = bitsBE 6 (a.toNat / 2 ^ 2) ++ bitsBE 2 a.toNat := by
    rw [bitString, List.flatMap_cons, List.flatMap_nil, List.append_nil]; exact bitsBE_split 6 2 _
  rw [encode, bits, sextets_six (bitsBE_length 6 _),
    sextets_short (by rw [bitsBE_length]; omega)]
  simp only [List.map, value_bitsBE, value_zeros, bitsBE_length]
  rfl

theorem encode_two (a b : Byte) :
    encode [a, b] = [alphabet ((a.toNat * 2 ^ 8 + b.toNat) / 2 ^ 10 % 64),
      alphabet ((a.toNat * 2 ^ 8 + b.toNat) / 2 ^ 4 % 64),
      alphabet ((a.toNat * 2 ^ 8 + b.toNat) % 16 * 4), '='] := by
  have ha := a.isLt; have hb := b.isLt
  generalize V : a.toNat * 2 ^ 8 + b.toNat = v
  have bits : bitString [a, b] = bitsBE 6 (v / 2 ^ 10) ++ bitsBE 6 (v / 2 ^ 4) ++ bitsBE 4 v := by
    have s16 : bitsBE 16 v = bitsBE 6 (v / 2 ^ 10) ++ bitsBE 10 v := bitsBE_split 6 10 v
    have s10 : bitsBE 10 v = bitsBE 6 (v / 2 ^ 4) ++ bitsBE 4 v := bitsBE_split 6 4 v
    have b16 : bitsBE 16 v = bitsBE 8 (v / 2 ^ 8) ++ bitsBE 8 v := bitsBE_split 8 8 v
    rw [bitString, List.flatMap_cons, List.flatMap_cons, List.flatMap_nil, List.append_nil,
      bitsBE_congr (show a.toNat % 2 ^ 8 = v / 2 ^ 8 % 2 ^ 8 by omega),
      bitsBE_congr (show b.toNat % 2 ^ 8 = v % 2 ^ 8 by omega), ← b16, s16, s10, List.append_assoc]
  rw [encode, bits, List.append_assoc, sextets_six (bitsBE_length 6 _),
    sextets_six (bitsBE_length 6 _), sextets_short (by rw [bitsBE_length]; omega)]
  simp only [List.map, value_bitsBE, value_zeros, bitsBE_length]
  rfl

end Rfc4648
