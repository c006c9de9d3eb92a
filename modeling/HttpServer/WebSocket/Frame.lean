import HttpServer.Sha1.Fips
import HttpServer.TestClient.Send

/- WebSocket frames of the test client `http_test_client.c`: the header and payload that
`ws_test_client_send_frame` hands to two `send_data` calls, and `ws_test_client_recv_frame` reading
a frame from a connection. The uninitialised `header_buf` holds unspecified bytes, taken as an
argument, and a write past `header` or past the payload block is undefined behaviour: `none`.
`size_t` is 64 bits, the connection is open and allocations do not fail. -/
namespace WebSocket
open HttpServer Fips180 TestClient

/-- `mask[i % 4]` XORed into byte `i` of the payload, the loop of both functions. -/
def maskPayload (mask payload : List Byte) : List Byte :=
  payload.mapIdx fun i b => b ^^^ mask.getD (i % 4) 0

/-- `frame->mask` after the `memset` and a `recv_data` that wrote `read`. -/
def fillMask (read : List Byte) : List Byte := (List.range 4).map fun k => read.getD k 0

@[simp] theorem fillMask_length (read : List Byte) : (fillMask read).length = 4 := by
  simp [fillMask]

/-- `ws_test_frame_t`; `type` is the value of its `ws_frame_type_t`, and `payload_len` is the length
of the payload. -/
structure WsTestFrame where
  type : Nat
  fin : Bool
  masked : Bool
  mask : List Byte
  mask_length : mask.length = 4
  payload : List Byte
  deriving DecidableEq, Repr

/-- Byte 1 of `header` and the extended payload length, in network byte order. -/
def lengthBytes (maskBit : Byte) (len : Nat) : List Byte :=
  if len ≤ 125 then [maskBit ||| BitVec.ofNat 8 len]
  else if len ≤ 65535 then
    [maskBit ||| 126, BitVec.ofNat 8 ((len >>> 8) &&& 0xFF), BitVec.ofNat 8 (len &&& 0xFF)]
  else (maskBit ||| 127) :: [56, 48, 40, 32, 24, 16, 8, 0].map fun k =>
    BitVec.ofNat 8 ((len >>> k) &&& 0xFF)

/-- The bytes `ws_test_client_send_frame` writes into `header`, from `header[0]` on. -/
def headerBytes (frame : WsTestFrame) : List Byte :=
  BitVec.ofNat 8 ((if frame.fin then 0x80 else 0) ||| frame.type) ::
    lengthBytes (if frame.masked then 0x80 else 0) frame.payload.length ++
    (if frame.masked then frame.mask else [])

/-- `header` as the first `send_data` gets it: `none` where the writes run past `header[10]`. -/
def frameHeader (frame : WsTestFrame) : Option (List Byte) :=
  if (headerBytes frame).length ≤ 10 then some (headerBytes frame) else none

/-- `ws_test_client_send_frame` over the outcomes of the `send` calls of its two `send_data` calls:
the bytes the socket took, in order, and the code returned. The payload goes out XORed with the
mask whether the frame is masked or not. -/
def wsTestClientSendFrame (frame : WsTestFrame) (headerSends payloadSends : List SendOutcome) :
    Option (List Byte × Except HttpTestClientErr Unit) :=
  (frameHeader frame).bind fun header => (sendData header headerSends).bind fun
    | (sent, .error e) => some (sent, .error e)
    | (sent, .ok ()) =>
      if 0 < frame.payload.length then
        (sendData (maskPayload frame.mask frame.payload) payloadSends).map fun r => (sent ++ r.1, r.2)
      else some (sent, .ok ())

/-- `header_buf` after `recv_data` wrote `read` from `header_buf[off]` on. -/
def writeHeader (buf : Nat → Byte) (off : Nat) (read : List Byte) : Nat → Byte :=
  fun i => if off ≤ i ∧ i < off + read.length then read.getD (i - off) 0 else buf i

/-- `bytes_read = recv_data(sockfd, header_buf + total_header_bytes, n, timeout_ms)`, returning
`HTTP_TEST_CLIENT_ERR_RECV` where it read nothing: `header_buf`, `total_header_bytes` and the
segments left. -/
def recvHeader (buf : Nat → Byte) (total n : Nat) (segs : List (List Byte)) :
    Except HttpTestClientErr ((Nat → Byte) × Nat × List (List Byte)) :=
  let (read, segs) := recvData n segs
  if read = [] then .error .errRecv else .ok (writeHeader buf total read, total + read.length, segs)

/-- `frame->payload_len` from `payload_len_indicator`, reading an extended length into `header_buf`
after the `total` bytes read so far. -/
def recvPayloadLen (indicator : Nat) (buf : Nat → Byte) (total : Nat) (segs : List (List Byte)) :
    Except HttpTestClientErr (Nat × List (List Byte)) :=
  if indicator ≤ 125 then .ok (indicator, segs)
  else if indicator = 126 then
    (recvHeader buf total 2 segs).map fun (buf, _, segs) => ((buf 2).toNat <<< 8 ||| (buf 3).toNat, segs)
  else
    (recvHeader buf total 8 segs).map fun (buf, _, segs) =>
      ((buf 2).toNat <<< 56 ||| (buf 3).toNat <<< 48 ||| (buf 4).toNat <<< 40 |||
        (buf 5).toNat <<< 32 ||| (buf 6).toNat <<< 24 ||| (buf 7).toNat <<< 16 |||
        (buf 8).toNat <<< 8 ||| (buf 9).toNat, segs)

/-- The `while (total_payload_recv < frame->payload_len)` loop, which returns
`HTTP_TEST_CLIENT_ERR_RECV` where a read times out and where the connection closes. At
`payload_len = 2^64 - 1` the block is `malloc(0)`, and the first bytes the loop reads go past it. -/
def recvPayload (len : Nat) (segs : List (List Byte)) :
    Option (Except HttpTestClientErr (List Byte × List (List Byte))) :=
  if (len + 1) % 2 ^ 64 = 0 ∧ (recvData len segs).1 ≠ [] then none
  else some (recvAll .errRecv .errRecv len segs)

/-- The mask and payload reads, once `payload_len` is known. -/
def recvMaskAndPayload (type : Nat) (fin masked : Bool) (len : Nat) (segs : List (List Byte)) :
    Option (Except HttpTestClientErr (WsTestFrame × List (List Byte))) :=
  let (read, segs) := if masked then recvData 4 segs else ([], segs)
  if masked ∧ read = [] then some (.error .errRecv)
  else (recvPayload len segs).map fun r => r.map fun (payload, left) =>
    (⟨type, fin, masked, fillMask read, fillMask_length read,
      if masked then maskPayload (fillMask read) payload else payload⟩, left)

/-- `ws_test_client_recv_frame`, from the bytes `header_buf` starts with: what it returns, with the
frame and the segments left for `HTTP_TEST_CLIENT_OK`. -/
def wsTestClientRecvFrame (stale : Nat → Byte) (segs : List (List Byte)) :
    Option (Except HttpTestClientErr (WsTestFrame × List (List Byte))) :=
  match recvHeader stale 0 2 segs with
  | .error e => some (.error e)
  | .ok (buf, total, segs) =>
    match recvPayloadLen (buf 1 &&& 0x7F).toNat buf total segs with
    | .error e => some (.error e)
    | .ok (len, segs) =>
      recvMaskAndPayload (buf 0 &&& 0x0F).toNat (buf 0 &&& 0x80 != 0) (buf 1 &&& 0x80 != 0) len segs

theorem maskPayload_maskPayload (mask payload : List Byte) :
    maskPayload mask (maskPayload mask payload) = payload := by
  apply List.ext_getElem (by simp [maskPayload])
  intro i _ _
  simp [maskPayload, BitVec.xor_assoc]

theorem length_lengthBytes (maskBit : Byte) (len : Nat) :
    (lengthBytes maskBit len).length = if len ≤ 125 then 1 else if len ≤ 65535 then 3 else 9 := by
  unfold lengthBytes; split_ifs <;> rfl

theorem eq_headerBytes_of_frameHeader {frame : WsTestFrame} {header : List Byte}
    (built : frameHeader frame = some header) : header = headerBytes frame := by
  unfold frameHeader at built; split_ifs at built; exact (Option.some.inj built).symm

theorem frameHeader_eq_none (frame : WsTestFrame) :
    frameHeader frame = none ↔ frame.masked = true ∧ 65535 < frame.payload.length := by
  have long : (headerBytes frame).length =
      1 + (lengthBytes (if frame.masked then 0x80 else 0) frame.payload.length).length +
        (if frame.masked then 4 else 0) := by
    by_cases masked : frame.masked = true <;> simp [headerBytes, masked, frame.mask_length] <;> omega
  rw [frameHeader, long, length_lengthBytes]
  cases frame.masked <;> simp <;> split_ifs <;> omega

/-- `ws_test_client_send_frame` writes past `header[10]` for every behaviour of the socket exactly
when the frame is masked and its payload is longer than 65535 bytes: 2 bytes, an 8-byte length and
the 4-byte mask. -/
theorem wsTestClientSendFrame_overflow (frame : WsTestFrame) :
    (∀ headerSends payloadSends, wsTestClientSendFrame frame headerSends payloadSends = none) ↔
      frame.masked = true ∧ 65535 < frame.payload.length := by
  rw [← frameHeader_eq_none]
  constructor
  · intro never
    cases built : frameHeader frame with
    | none => rfl
    | some header =>
      have nonempty : 0 < header.length := by simp [eq_headerBytes_of_frameHeader built, headerBytes]
      have failed := never [.failed] []
      rw [wsTestClientSendFrame, built, Option.some_bind, sendData, sendLoop_failed nonempty] at failed
      cases failed
  · intro none_built _ _
    rw [wsTestClientSendFrame, none_built, Option.none_bind]

def helloPayload : List Byte := [0x48, 0x65, 0x6c, 0x6c, 0x6f]

theorem recvHeader_flatten {buf buf' : Nat → Byte} {total total' n : Nat}
    {segs left : List (List Byte)} (h : recvHeader buf total n segs = .ok (buf', total', left)) :
    ∃ read : List Byte, read ≠ [] ∧ read.length ≤ n ∧ total' = total + read.length ∧
      segs.flatten = read ++ left.flatten := by
  obtain ⟨flat, short⟩ := recvData_flatten n segs
  rcases read : recvData n segs with ⟨bytes, rest⟩
  simp only [recvHeader, read] at h flat short
  split_ifs at h with empty
  cases h
  exact ⟨bytes, empty, short, rfl, flat.symm⟩

theorem recvPayloadLen_flatten {indicator total len : Nat} {buf : Nat → Byte}
    {segs left : List (List Byte)} (h : recvPayloadLen indicator buf total segs = .ok (len, left)) :
    ∃ ext : List Byte, ext.length ≤ 8 ∧ segs.flatten = ext ++ left.flatten := by
  unfold recvPayloadLen at h
  split_ifs at h
  · cases h; exact ⟨[], by simp, rfl⟩
  all_goals
    obtain ⟨⟨buf', total', segs'⟩, read, eq⟩ := exceptMap_eq_ok h
    cases eq
    obtain ⟨ext, -, short, -, flat⟩ := recvHeader_flatten read
    exact ⟨ext, by omega, flat⟩

theorem recvPayload_flatten {len : Nat} {segs left : List (List Byte)} {payload : List Byte}
    (h : recvPayload len segs = some (.ok (payload, left))) : payload ++ left.flatten = segs.flatten := by
  unfold recvPayload at h
  split_ifs at h
  exact (recvAll_flatten (Option.some.inj h)).1

theorem recvMaskAndPayload_flatten {type len : Nat} {fin masked : Bool}
    {segs left : List (List Byte)} {frame : WsTestFrame}
    (h : recvMaskAndPayload type fin masked len segs = some (.ok (frame, left))) :
    ∃ read : List Byte, read.length ≤ 4 ∧ frame.masked = masked ∧ segs.flatten =
      read ++ (if masked then maskPayload frame.mask frame.payload else frame.payload) ++
        left.flatten := by
  unfold recvMaskAndPayload at h
  cases masked with
  | false =>
    simp only [Bool.false_eq_true, if_false, false_and] at h
    obtain ⟨r, run, eq⟩ := Option.map_eq_some'.mp h
    obtain ⟨⟨payload, left'⟩, rfl, eq⟩ := exceptMap_eq_ok eq
    cases eq
    exact ⟨[], by simp, rfl, by simpa using (recvPayload_flatten run).symm⟩
  | true =>
    obtain ⟨flat, short⟩ := recvData_flatten 4 segs
    rcases read : recvData 4 segs with ⟨bytes, rest⟩
    simp only [if_true, true_and, read] at h flat short
    by_cases empty : bytes = []
    · simp [empty] at h
    rw [if_neg empty] at h
    obtain ⟨r, run, eq⟩ := Option.map_eq_some'.mp h
    obtain ⟨⟨payload, left'⟩, rfl, eq⟩ := exceptMap_eq_ok eq
    cases eq
    refine ⟨bytes, short, rfl, ?_⟩
    simp [maskPayload_maskPayload, ← flat, ← recvPayload_flatten run]

/-- Whatever the connection holds, however it is split and whatever `header_buf` held, a frame that
`ws_test_client_recv_frame` returns was read from the front of the connection: a header of 1 to 14
bytes, then the payload as it travelled, and what it leaves on the connection follows them in
order. -/
theorem recvFrame_consumes {stale : Nat → Byte} {segs left : List (List Byte)} {frame : WsTestFrame}
    (h : wsTestClientRecvFrame stale segs = some (.ok (frame, left))) :
    ∃ header : List Byte, 1 ≤ header.length ∧ header.length ≤ 14 ∧ segs.flatten =
      header ++ (if frame.masked then maskPayload frame.mask frame.payload else frame.payload) ++
        left.flatten := by
  unfold wsTestClientRecvFrame at h
  split at h
  · cases h
  next buf total rest first =>
    obtain ⟨read, nonempty, short, -, flat⟩ := recvHeader_flatten first
    split at h
    · cases h
    next len rest' length =>
      obtain ⟨ext, extShort, extFlat⟩ := recvPayloadLen_flatten length
      obtain ⟨mask, maskShort, masked, maskFlat⟩ := recvMaskAndPayload_flatten h
      have one := List.length_pos.mpr nonempty
      refine ⟨read ++ ext ++ mask, by simp; omega, by simp; omega, ?_⟩
      rw [flat, extFlat, maskFlat, masked]
      simp

theorem recvFrame_consumes_short :
    wsTestClientRecvFrame (fun _ => 5) [[0x81], helloPayload] =
      some (.ok (⟨1, true, false, [0, 0, 0, 0], rfl, helloPayload⟩, [])) ∧
    ∃ header : List Byte, 1 ≤ header.length ∧ header.length ≤ 14 ∧
      [[0x81], helloPayload].flatten = header ++ helloPayload ++ ([] : List (List Byte)).flatten := by
  refine ⟨?run, recvFrame_consumes ?run⟩
  decide

end WebSocket
