import HttpServer.Basic

/- `base64_codec.c`. A function that writes an output buffer returns, with its result, the bytes
it writes at `out[0]`, `out[1]`, … in order: both functions store at consecutive addresses from
the start (the encoder's padding overwrites two of them). `size_t` is `w` bits wide where it can
wrap; the pointers are not null. -/
namespace Base64
open HttpServer

def base64Chars : List Byte :=
  "ABCDEFGHIJKLMNOPQRSTUVWXYZabcdefghijklmnopqrstuvwxyz0123456789+/".toList.map ascii

def base64Pad : Byte := ascii '='

def base64CharToValue (c : Byte) : Int :=
  if 'A'.toNat ≤ c.toNat ∧ c.toNat ≤ 'Z'.toNat then (c.toNat : Int) - 'A'.toNat
  else if 'a'.toNat ≤ c.toNat ∧ c.toNat ≤ 'z'.toNat then (c.toNat : Int) - 'a'.toNat + 26
  else if '0'.toNat ≤ c.toNat ∧ c.toNat ≤ '9'.toNat then (c.toNat : Int) - '0'.toNat + 52
  else if c = ascii '+' then 62
  else if c = ascii '/' then 63
  else if c = base64Pad then 0
  else -1

section
variable (w : Nat)

/-- `((input_len + 2) / 3) * 4` in `w`-bit `size_t`. -/
def base64EncodedLength (inputLen : Nat) : Nat :=
  if inputLen = 0 then 0 else (inputLen + 2) % 2 ^ w / 3 * 4 % 2 ^ w

def encodeGroup (a b c : Byte) : List Byte :=
  let triple := a.toNat <<< 16 ||| b.toNat <<< 8 ||| c.toNat
  [triple >>> 18 &&& 0x3F, triple >>> 12 &&& 0x3F, triple >>> 6 &&& 0x3F, triple &&& 0x3F].map
    fun v => base64Chars.getD v 0

/-- The encode loop; a byte past the end reads as 0. -/
def encodeLoop : List Byte → List Byte
  | [] => []
  | [a] => encodeGroup a 0 0
  | [a, b] => encodeGroup a b 0
  | a :: b :: c :: rest => encodeGroup a b c ++ encodeLoop rest

/-- The padding written over the last one or two characters. -/
def addPadding (out : List Byte) (remainder : Nat) : List Byte :=
  if remainder = 1 then (out.set (out.length - 2) base64Pad).set (out.length - 1) base64Pad
  else if remainder = 2 then out.set (out.length - 1) base64Pad
  else out

/-- `base64_encode(input, input_len, output, output_len)`: the return value and `out[0..)`. -/
def base64Encode (input : List Byte) (outputLen : Nat) : Nat × List Byte :=
  if input.length = 0 then
    if outputLen < 1 then (0, []) else (0, [0])
  else if outputLen < (base64EncodedLength w input.length + 1) % 2 ^ w then (0, [])
  else
    let out := encodeLoop input
    (out.length, addPadding out (input.length % 3) ++ [0])

end

/-- `num_padding_chars` of `base64_decoded_length`: the `=` among the last two characters, looked at
only when the length is a multiple of four. -/
def numPaddingChars (input : List Byte) : Nat :=
  if 2 ≤ input.length ∧ input.length % 4 = 0 then
    (if base64Pad = input.getD (input.length - 1) 0 then 1 else 0) +
      (if base64Pad = input.getD (input.length - 2) 0 then 1 else 0)
  else 0

/-- `(input_len / 4) * 3 - num_padding_chars`, which cannot wrap: it is at most `input_len`, and
padding is counted only when `input_len ≥ 4`. -/
def base64DecodedLength (input : List Byte) : Nat :=
  if input.length = 0 then 0 else input.length / 4 * 3 - numPaddingChars input

def decodeGroup (c0 c1 c2 c3 : Byte) : Option (List Byte) :=
  let v0 := base64CharToValue c0
  let v1 := base64CharToValue c1
  let v2 := base64CharToValue c2
  let v3 := base64CharToValue c3
  if v0 = -1 ∨ v1 = -1 ∨ v2 = -1 ∨ v3 = -1 then none
  else
    let quadruple := v0.toNat <<< 18 ||| v1.toNat <<< 12 ||| v2.toNat <<< 6 ||| v3.toNat
    some ([BitVec.ofNat 8 (quadruple >>> 16 &&& 0xFF)] ++
      (if c2 ≠ base64Pad then [BitVec.ofNat 8 (quadruple >>> 8 &&& 0xFF)] else []) ++
      (if c3 ≠ base64Pad then [BitVec.ofNat 8 (quadruple &&& 0xFF)] else []))

/-- The decode loop: the bytes stored, and `false` when it returned 0 at an invalid character. -/
def decodeLoop : List Byte → List Byte × Bool
  | c0 :: c1 :: c2 :: c3 :: rest =>
    match decodeGroup c0 c1 c2 c3 with
    | none => ([], false)
    | some out => ((out ++ (decodeLoop rest).1), (decodeLoop rest).2)
  | _ => ([], true)

/-- `base64_decode(input, input_len, output, output_len)`: the return value and `out[0..)`. -/
def base64Decode (input : List Byte) (outputLen : Nat) : Nat × List Byte :=
  if input.length = 0 then (0, [])
  else if input.length % 4 ≠ 0 then (0, [])
  else if outputLen < base64DecodedLength input then (0, [])
  else
    let run := decodeLoop input
    (if run.2 then run.1.length else 0, run.1)

end Base64
