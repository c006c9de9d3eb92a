import HttpServer.Sha1.Fips

/- The SHA-1 of `sha1.c`: `sha1_transform`, `sha1_init`, `sha1_update`, `sha1_final`, and the
non-ESP branch of `httpd_crypto_sha1`. A `memcpy` that would leave the 64-byte buffer is
undefined behaviour and is `none`. `size_t` lengths are `Nat`: `j + len` cannot wrap for the
length of an object in memory. -/
namespace Sha1
open HttpServer Fips180

def sha1K0 : Word := 0x5A827999
def sha1K1 : Word := 0x6ED9EBA1
def sha1K2 : Word := 0x8F1BBCDC
def sha1K3 : Word := 0xCA62C1D6

/-- `ROTL(x, n)`. -/
def rotl (x : Word) (n : Nat) : Word := x <<< n ||| x >>> (32 - n)

/-- The first loop of `sha1_transform`: `w[i]` from bytes `4i … 4i+3` of the block. -/
def loadWord (block : List Byte) (i : Nat) : Word :=
  (block.getD (i * 4) 0).setWidth 32 <<< 24 ||| (block.getD (i * 4 + 1) 0).setWidth 32 <<< 16 |||
    (block.getD (i * 4 + 2) 0).setWidth 32 <<< 8 ||| (block.getD (i * 4 + 3) 0).setWidth 32

def expandWord (w : List Word) (i : Nat) : List Word :=
  w ++ [rotl (w.getD (i - 3) 0 ^^^ w.getD (i - 8) 0 ^^^ w.getD (i - 14) 0 ^^^ w.getD (i - 16) 0) 1]

def messageSchedule (block : List Byte) : List Word :=
  (List.range' 16 64).foldl expandWord ((List.range 16).map (loadWord block))

def roundFunction (i : Nat) (b c d : Word) : Word × Word :=
  if i < 20 then ((b &&& c) ||| (~~~b &&& d), sha1K0)
  else if i < 40 then (b ^^^ c ^^^ d, sha1K1)
  else if i < 60 then ((b &&& c) ||| (b &&& d) ||| (c &&& d), sha1K2)
  else (b ^^^ c ^^^ d, sha1K3)

/-- One pass of the round loop over the registers `a … e`. -/
def transformRound (w : List Word) (v : Vars) (i : Nat) : Vars :=
  let fk := roundFunction i v.b v.c v.d
  ⟨rotl v.a 5 + fk.1 + v.e + fk.2 + w.getD i 0, v.a, rotl v.b 30, v.c, v.d⟩

/-- `sha1_transform` reads and writes only `context->state`. -/
def sha1Transform (state : HashValue) (block : List Byte) : HashValue :=
  let v := (List.range 80).foldl (transformRound (messageSchedule block))
    ⟨state.h0, state.h1, state.h2, state.h3, state.h4⟩
  ⟨state.h0 + v.a, state.h1 + v.b, state.h2 + v.c, state.h3 + v.d, state.h4 + v.e⟩

/-- `sha1_context_t`; `count0` and `count1` are `count[0]` and `count[1]`. -/
structure Sha1Context where
  state : HashValue
  count0 : Word
  count1 : Word
  buffer : List Byte
  buffer_length : buffer.length = 64

/-- `sha1_init` leaves the buffer as it was. -/
def sha1Init (context : Sha1Context) : Sha1Context :=
  { context with
    state := ⟨0x67452301, 0xEFCDAB89, 0x98BADCFE, 0x10325476, 0xC3D2E1F0⟩
    count0 := 0
    count1 := 0 }

/-- `memcpy(&context->buffer[off], src, n)`. -/
def Sha1Context.copyIn (context : Sha1Context) (off : Nat) (src : List Byte) (n : Nat) :
    Option Sha1Context :=
  if h : off + n ≤ 64 ∧ n ≤ src.length then
    some { context with
      buffer := context.buffer.take off ++ src.take n ++ context.buffer.drop (off + n)
      buffer_length := by simp [context.buffer_length]; omega }
  else none

/-- The `while (len >= 64)` loop of `sha1_update`, for its `len / 64` passes. -/
def updateLoop : Nat → HashValue → List Byte → HashValue × List Byte
  | 0, state, data => (state, data)
  | n + 1, state, data => updateLoop n (sha1Transform state (data.take 64)) (data.drop 64)

def addLength (context : Sha1Context) (len : Nat) : Sha1Context :=
  let count0 := context.count0 + (BitVec.ofNat 32 len <<< 3)
  { context with
    count0
    count1 := (if count0 < context.count0 then context.count1 + 1 else context.count1) +
      BitVec.ofNat 32 (len >>> 29) }

def bufferIndex (count0 : Word) : Nat := ((count0 >>> 3) &&& 63).toNat

def sha1Update (context : Sha1Context) (data : List Byte) : Option Sha1Context := do
  let j := bufferIndex context.count0
  let context := addLength context data.length
  let (context, j, data) ←
    if 64 ≤ j + data.length then do
      let context ← context.copyIn j data (64 - j)
      pure ({ context with state := sha1Transform context.state context.buffer }, 0,
        data.drop (64 - j))
    else pure (context, j, data)
  let (state, data) := updateLoop (data.length / 64) context.state data
  { context with state }.copyIn j data data.length

def outputBytes (s : Word) : List Byte :=
  [((s >>> 24) &&& 0xFF).setWidth 8, ((s >>> 16) &&& 0xFF).setWidth 8,
    ((s >>> 8) &&& 0xFF).setWidth 8, (s &&& 0xFF).setWidth 8]

/-- `sha1_final`: the context it leaves and the 20 bytes it writes to `hash`. -/
def sha1Final (context : Sha1Context) : Option (Sha1Context × List Byte) := do
  let finalCount := (List.range 8).map fun i =>
    (((if i < 4 then context.count1 else context.count0) >>> ((3 - (i &&& 3)) * 8)) &&&
      255).setWidth 8
  let i := bufferIndex context.count0
  let padding : List Byte := 0x80 :: List.replicate 63 0
  let context ← sha1Update context (padding.take (if i < 56 then 56 - i else 64 - i + 56))
  let context ← sha1Update context finalCount
  let s := context.state
  pure (context, [s.h0, s.h1, s.h2, s.h3, s.h4].flatMap outputBytes)

def espOk : Int := 0
def espFail : Int := -1

/-- The non-ESP branch of `httpd_crypto_sha1` on valid pointers, from the bytes `context` that its
local `sha1_context_t` starts with: the result code and the bytes written to `hash`. -/
def httpdCryptoSha1 (context : Sha1Context) (data : List Byte) : Option (Int × List Byte) :=
  if data.length = 0 then some (espFail, [])
  else do
    let context ← sha1Update (sha1Init context) data
    let (_, hash) ← sha1Final context
    pure (espOk, hash)

end Sha1
