import HttpServer.Basic

/- SHA-1 as FIPS 180-4 defines it, for messages of whole bytes: the functions of §4.1.1,
constants of §4.2.1 and §5.3.1, padding of §5.1.1, parsing of §5.2.1 and the computation of
§6.1.2. This is the reference the streaming code of `sha1.c` is measured against. -/
namespace Fips180
open HttpServer

structure HashValue where
  h0 : Word
  h1 : Word
  h2 : Word
  h3 : Word
  h4 : Word
  deriving DecidableEq, Repr

def ch (x y z : Word) : Word := (x &&& y) ^^^ (~~~x &&& z)
def parity (x y z : Word) : Word := x ^^^ y ^^^ z
def maj (x y z : Word) : Word := (x &&& y) ^^^ (x &&& z) ^^^ (y &&& z)

def f (t : Nat) : Word → Word → Word → Word :=
  if t ≤ 19 then ch else if t ≤ 39 then parity else if t ≤ 59 then maj else parity

def K (t : Nat) : Word :=
  if t ≤ 19 then 0x5a827999 else if t ≤ 39 then 0x6ed9eba1
  else if t ≤ 59 then 0x8f1bbcdc else 0xca62c1d6

def H0 : HashValue := ⟨0x67452301, 0xefcdab89, 0x98badcfe, 0x10325476, 0xc3d2e1f0⟩

def bigEndian (bytes : List Byte) : Nat := bytes.foldl (fun acc b => acc * 256 + b.toNat) 0

def blockWord (M : List Byte) (j : Nat) : Word :=
  BitVec.ofNat 32 (bigEndian ((M.drop (4 * j)).take 4))

/-- The message schedule `W_t` of §6.1.2 step 1. -/
def W (M : List Byte) : Nat → Word
  | t + 16 => (W M (t + 13) ^^^ W M (t + 8) ^^^ W M (t + 2) ^^^ W M t).rotateLeft 1
  | t => blockWord M t

structure Vars where
  a : Word
  b : Word
  c : Word
  d : Word
  e : Word
  deriving DecidableEq, Repr

/-- Round `t` of §6.1.2 step 3. -/
def compressRound (M : List Byte) (v : Vars) (t : Nat) : Vars :=
  ⟨v.a.rotateLeft 5 + f t v.b v.c v.d + v.e + K t + W M t, v.a, v.b.rotateLeft 30, v.c, v.d⟩

/-- One block `M` of §6.1.2: the eighty rounds, then `H_j := v_j + H_j`. -/
def compress (H : HashValue) (M : List Byte) : HashValue :=
  let v := (List.range 80).foldl (compressRound M) ⟨H.h0, H.h1, H.h2, H.h3, H.h4⟩
  ⟨v.a + H.h0, v.b + H.h1, v.c + H.h2, v.d + H.h3, v.e + H.h4⟩

/-- The first `n` 64-byte blocks of a message (§5.2.1). -/
def blocks : Nat → List Byte → List (List Byte)
  | 0, _ => []
  | n + 1, M => M.take 64 :: blocks n (M.drop 64)

def hashBlocks (H : HashValue) (M : List Byte) : HashValue :=
  (blocks (M.length / 64) M).foldl compress H

def bytesBE (n v : Nat) : List Byte :=
  (List.range n).reverse.map fun i => BitVec.ofNat 8 (v / 2 ^ (8 * i))

/-- §5.1.1 for `len` bytes: the bit `1` and seven `0` bits as `0x80`, zero bytes up to 56 mod 64,
then `ℓ = 8 · len` as a 64-bit big-endian integer. -/
def padding (len : Nat) : List Byte :=
  0x80 :: List.replicate ((119 - len % 64) % 64) 0 ++ bytesBE 8 (8 * len)

def wordBytes (x : Word) : List Byte := bytesBE 4 x.toNat

def digest (H : HashValue) : List Byte := [H.h0, H.h1, H.h2, H.h3, H.h4].flatMap wordBytes

def sha1 (M : List Byte) : List Byte := digest (hashBlocks H0 (M ++ padding M.length))

-- The RFC 3174 test vector for "abc".
set_option maxRecDepth 100000 in
example : sha1 [0x61, 0x62, 0x63] = [0xa9, 0x99, 0x3e, 0x36, 0x47, 0x06, 0x81, 0x6a, 0xba, 0x3e,
    0x25, 0x71, 0x78, 0x50, 0xc2, 0x6c, 0x9c, 0xd0, 0xd8, 0x9d] := by rfl

theorem blocks_add (a b : Nat) (M : List Byte) :
    blocks (a + b) M = blocks a M ++ blocks b (M.drop (64 * a)) := by
  induction a generalizing M with
  | zero => simp [blocks]
  | succ a ih =>
    rw [Nat.add_right_comm, blocks, blocks, ih, List.drop_drop, Nat.mul_succ, Nat.add_comm 64]
    rfl

theorem blocks_append (d : List Byte) {n : Nat} {M : List Byte} (fits : 64 * n ≤ M.length) :
    blocks n (M ++ d) = blocks n M := by
  induction n generalizing M with
  | zero => rfl
  | succ n ih =>
    rw [blocks, blocks, List.take_append_of_le_length (by omega),
      List.drop_append_of_le_length (by omega), ih (by simp; omega)]

theorem hashBlocks_append_short (H : HashValue) {M d : List Byte}
    (short : M.length % 64 + d.length < 64) : hashBlocks H (M ++ d) = hashBlocks H M := by
  rw [hashBlocks, hashBlocks, List.length_append,
    show (M.length + d.length) / 64 = M.length / 64 by omega, blocks_append d (by omega)]

theorem hashBlocks_append_full (H : HashValue) {M d : List Byte}
    (full : 64 ≤ M.length % 64 + d.length) :
    hashBlocks H (M ++ d) =
      (blocks ((d.drop (64 - M.length % 64)).length / 64) (d.drop (64 - M.length % 64))).foldl
        compress (compress (hashBlocks H M)
          (M.drop (64 * (M.length / 64)) ++ d.take (64 - M.length % 64))) := by
  have count : (M ++ d).length / 64 =
      M.length / 64 + 1 + (d.drop (64 - M.length % 64)).length / 64 := by
    simp only [List.length_append, List.length_drop]; omega
  have tail : (M.drop (64 * (M.length / 64))).length = M.length % 64 := by simp; omega
  rw [hashBlocks, count, blocks_add, blocks_add, blocks_append d (by omega), List.foldl_append,
    List.foldl_append, List.drop_append_of_le_length (by omega), List.drop_append_eq_append_drop,
    List.drop_of_length_le (show M.length ≤ 64 * (M.length / 64 + 1) by omega), List.nil_append,
    show 64 * (M.length / 64 + 1) - M.length = 64 - M.length % 64 by omega]
  simp only [blocks, List.foldl_cons, List.foldl_nil, List.take_append_eq_append_take, tail,
    List.take_of_length_le (show (M.drop (64 * (M.length / 64))).length ≤ 64 by omega)]
  rfl

/-- The zero bytes of `padding` solve `ℓ + 1 + k ≡ 448 (mod 512)` of §5.1.1, and every solution is
that count plus a multiple of 64 bytes, so it is the least one. -/
theorem padding_zeros_least (len k : Nat) :
    (len + 1 + k) % 64 = 56 ↔ k % 64 = (119 - len % 64) % 64 := by
  omega

end Fips180
