import HttpServer.Sha1.Streaming
import HttpServer.Base64.Encoding
import HttpServer.TestClient.Handshake

/- `generate_ws_accept_key` of the WebSocket tests: the `Sec-WebSocket-Accept` value the test
expects, computed with `sha1.c` and `base64_codec.c`, and the handshake of `http_test_client.c`
against a server that computes that value as RFC 6455 asks. The client key is the bytes of its C
string, and `size_t` is 64 bits. -/
namespace WebSocket
open HttpServer Sha1 Base64 Fips180 TestClient

/-- `ws_magic_uuid`. -/
def wsMagicUuid : List Byte := "258EAFA5-E914-47DA-95CA-C5AB0DC85B11".toList.map ascii

def serverRawText (clientKey : List Byte) : List Byte := (clientKey ++ wsMagicUuid).take 127

/-- `generate_ws_accept_key`, from the bytes its uninitialised `sha1_ctx` starts with: the bytes
`base64_encode` writes to `server_key_out`, or `none` where `sha1.c` would copy outside its
buffer. -/
def generateWsAcceptKey (sha1Ctx : Sha1Context) (clientKey : List Byte) (outBufLen : Nat) :
    Option (List Byte) := do
  let sha1Ctx ← sha1Update (sha1Init sha1Ctx) (serverRawText clientKey)
  let (_, serverKeyHash) ← sha1Final sha1Ctx
  pure (base64Encode 64 serverKeyHash outBufLen).2

@[simp] theorem sha1_length (M : List Byte) : (sha1 M).length = 20 := by
  simp [sha1, digest, wordBytes, bytesBE]

theorem generateWsAcceptKey_sha1 (sha1Ctx : Sha1Context) (clientKey : List Byte) (outBufLen : Nat) :
    generateWsAcceptKey sha1Ctx clientKey outBufLen =
      some (base64Encode 64 (sha1 (serverRawText clientKey)) outBufLen).2 := by
  obtain ⟨c, update, holds⟩ := absorbed_update (absorbed_init sha1Ctx) (serverRawText clientKey)
  obtain ⟨c', final⟩ := absorbed_final (by simpa using holds)
  simp only [generateWsAcceptKey, update, final, Option.bind_eq_bind, Option.some_bind]
  rfl

theorem base64Encode_digest {hash : List Byte} (twenty : hash.length = 20) {outBufLen : Nat}
    (room : 29 ≤ outBufLen) : (base64Encode 64 hash outBufLen).2 = paddedGroups hash ++ [0] := by
  have passes : ¬ outBufLen < (base64EncodedLength 64 hash.length + 1) % 2 ^ 64 := by
    rw [twenty, show (base64EncodedLength 64 20 + 1) % 2 ^ 64 = 29 by decide]; omega
  rw [base64Encode_eq 64 (by simp [← List.length_pos, twenty]) passes]

/-- Whatever `sha1_ctx` held, a buffer of at least 29 bytes receives the Base64 of the SHA-1 of the
key and the magic GUID, as far as `server_raw_text` holds them, and a terminating NUL. -/
theorem generateWsAcceptKey_eq (sha1Ctx : Sha1Context) (clientKey : List Byte) {outBufLen : Nat}
    (room : 29 ≤ outBufLen) :
    generateWsAcceptKey sha1Ctx clientKey outBufLen =
      some ((Rfc4648.encode (sha1 (serverRawText clientKey))).map ascii ++ [0]) := by
  rw [generateWsAcceptKey_sha1, base64Encode_digest (sha1_length _) room, paddedGroups_eq_encode]

def zeroContext : Sha1Context := ⟨⟨0, 0, 0, 0, 0⟩, 0, 0, List.replicate 64 0, List.length_replicate 64 0⟩

theorem generateWsAcceptKey_sample :
    29 ≤ 33 ∧ generateWsAcceptKey zeroContext ("dGhlIHNhbXBsZSBub25jZQ==".toList.map ascii) 33 =
      some ((Rfc4648.encode (sha1 (serverRawText ("dGhlIHNhbXBsZSBub25jZQ==".toList.map ascii)))).map
        ascii ++ [0]) :=
  ⟨by decide, generateWsAcceptKey_eq zeroContext _ (by decide)⟩

section Digits

variable (P : Byte → Prop) (alpha : ∀ v : Fin 64, P (ascii (Rfc4648.alphabet v))) (pad : P base64Pad)
include alpha

theorem encodeGroup_forall (a b c : Byte) : ∀ d ∈ encodeGroup a b c, P d := by
  rw [encodeGroup_eq]
  simp only [List.mem_map, List.mem_cons, List.mem_singleton, List.not_mem_nil, or_false]
  rintro d ⟨v, hv, rfl⟩
  rcases hv with rfl | rfl | rfl | rfl <;> exact alpha ⟨_, Nat.mod_lt _ (by norm_num)⟩

include pad

theorem paddedGroups_forall (x : List Byte) : ∀ d ∈ paddedGroups x, P d := by
  induction x using paddedGroups.induct with
  | case1 => simp [paddedGroups]
  | case2 a =>
    simp only [paddedGroups, List.mem_append, List.mem_cons, List.mem_singleton, List.not_mem_nil]
    rintro d (mem | rfl | rfl | h)
    · exact encodeGroup_forall P alpha a 0 0 d (List.mem_of_mem_take mem)
    · exact pad
    · exact pad
    · exact h.elim
  | case3 a b =>
    simp only [paddedGroups, List.mem_append, List.mem_cons, List.not_mem_nil]
    rintro d (mem | rfl | h)
    · exact encodeGroup_forall P alpha a b 0 d (List.mem_of_mem_take mem)
    · exact pad
    · exact h.elim
  | case4 a b c rest ih =>
    simp only [paddedGroups, List.mem_append]
    rintro d (mem | mem)
    · exact encodeGroup_forall P alpha a b c d mem
    · exact ih d mem

end Digits

def acceptLine (clientKey : List Byte) : List Byte :=
  secWebSocketAccept ++ ": ".toList.map ascii ++
    (Rfc4648.encode (sha1 (clientKey ++ wsMagicUuid))).map ascii

theorem acceptLine_eq (clientKey : List Byte) :
    acceptLine clientKey = secWebSocketAccept ++ ": ".toList.map ascii ++
      paddedGroups (sha1 (clientKey ++ wsMagicUuid)) := by
  rw [acceptLine, paddedGroups_eq_encode]

@[simp] theorem length_acceptLine (clientKey : List Byte) : (acceptLine clientKey).length = 50 := by
  rw [acceptLine_eq, List.length_append, paddedGroups_length (by simp [← List.length_pos])]
  simp [secWebSocketAccept]

theorem plain_acceptLine (clientKey : List Byte) : acceptLine clientKey ≠ [] ∧ Plain (acceptLine clientKey) := by
  rw [acceptLine_eq]
  refine ⟨by simp [secWebSocketAccept], fun c mem => ?_⟩
  rcases List.mem_append.mp mem with mem | mem
  · exact (show Plain (secWebSocketAccept ++ ": ".toList.map ascii) by decide) c mem
  · exact paddedGroups_forall (fun c => c ≠ ascii '\r' ∧ c ≠ 0) (by decide) (by decide) _ c mem

theorem strstr_acceptLine (clientKey : List Byte) :
    strstr (acceptLine clientKey) contentLengthName = none := by
  have noC : ∀ c ∈ secWebSocketAccept ++ ": ".toList.map ascii, c ≠ ascii 'C' := fun c mem =>
    bne_iff_ne.mp (List.all_eq_true.mp
      (show (secWebSocketAccept ++ ": ".toList.map ascii).all (· != ascii 'C') by decide) c mem)
  have colon : ascii ':' ∈ ascii 'C' :: "ontent-Length:".toList.map ascii := by decide
  rw [acceptLine_eq, show contentLengthName = ascii 'C' :: "ontent-Length:".toList.map ascii from rfl,
    strstr_append_of_ne noC, strstr_of_not_mem colon
      (paddedGroups_forall (fun c => c ≠ ascii ':') (by decide) (by decide) _ (ascii ':') · rfl)]
  rfl

theorem headerValue_acceptLine (clientKey : List Byte) :
    headerValue secWebSocketAccept (acceptLine clientKey) =
      some ((Rfc4648.encode (sha1 (clientKey ++ wsMagicUuid))).map ascii) := by
  have nonempty : sha1 (clientKey ++ wsMagicUuid) ≠ [] := by simp [← List.length_pos]
  rw [acceptLine_eq, ← paddedGroups_eq_encode]
  obtain ⟨v, value, digest⟩ := List.exists_cons_of_ne_nil
    (show paddedGroups (sha1 (clientKey ++ wsMagicUuid)) ≠ [] by
      rw [← List.length_pos, paddedGroups_length nonempty, sha1_length]; decide)
  have notBlank : isBlank v = false := paddedGroups_forall (fun c => isBlank c = false)
    (by decide) (by decide) _ v (by rw [digest]; exact List.mem_cons_self _ _)
  have named : ((secWebSocketAccept ++ ": ".toList.map ascii ++ v :: value).take
      secWebSocketAccept.length).map toLower = secWebSocketAccept.map toLower ∧
      (secWebSocketAccept ++ ": ".toList.map ascii ++ v :: value).getD secWebSocketAccept.length 0 =
        ascii ':' := by
    rw [List.append_assoc, List.take_left, List.getD_append_right _ _ _ _ le_rfl, Nat.sub_self]
    exact ⟨rfl, rfl⟩
  rw [digest, headerValue, if_pos named, List.append_assoc, List.drop_append]
  show some ((ascii ' ' :: v :: value).dropWhile isBlank) = _
  rw [List.dropWhile_cons_of_pos (by decide), List.dropWhile_cons_of_neg (by simp [notBlank])]

theorem cString_generated (sha1Ctx : Sha1Context) {clientKey : List Byte}
    (keyFits : clientKey.length ≤ 91) {outBufLen : Nat} (room : 29 ≤ outBufLen) {written : List Byte}
    (generated : generateWsAcceptKey sha1Ctx clientKey outBufLen = some written) :
    cString written = (Rfc4648.encode (sha1 (clientKey ++ wsMagicUuid))).map ascii := by
  have whole : serverRawText clientKey = clientKey ++ wsMagicUuid :=
    List.take_of_length_le (by simp [wsMagicUuid]; omega)
  rw [generateWsAcceptKey_sha1, base64Encode_digest (sha1_length _) room, whole,
    Option.some.injEq] at generated
  rw [← generated, cString_append (paddedGroups_forall (fun c => c ≠ 0) (by decide) (by decide) _ 0 · rfl),
    cString_cons_zero, List.append_nil, paddedGroups_eq_encode]

/-- The WebSocket tests' handshake passes against a server that answers as RFC 6455 asks: with the
key `generate_ws_accept_key` wrote for a client key of at most 91 bytes, a well-formed 101 reply
without `Content-Length` whose first `Sec-WebSocket-Accept` line carries the Base64 of the SHA-1 of
the key and the GUID makes `ws_test_client_handshake` return `HTTP_TEST_CLIENT_OK`, however the
reply arrives. -/
theorem wsTestClientHandshake_rfc6455 (sha1Ctx : Sha1Context) {clientKey : List Byte}
    (keyFits : clientKey.length ≤ 91) {outBufLen : Nat} (room : 29 ≤ outBufLen) {written : List Byte}
    (generated : generateWsAcceptKey sha1Ctx clientKey outBufLen = some written)
    (maxUriLen : Nat) (uri host : List Byte) {version statusText : List Byte}
    (word : version ≠ [] ∧ Plain version ∧ ascii ' ' ∉ version)
    (text : statusText ≠ [] ∧ Plain statusText)
    {before after : List (List Byte)} (lineText : ∀ line ∈ before ++ after, line ≠ [] ∧ Plain line)
    (absent : ∀ line ∈ before ++ after, strstr line contentLengthName = none)
    (first : ∀ line ∈ before, headerValue secWebSocketAccept line = none)
    (fits : (responseHead version 101 statusText
      (before ++ acceptLine clientKey :: after)).length + 4 < httpRecvBufferSize)
    {segs : List (List Byte)} {rest : List Byte}
    (arrives : segs.flatten = responseHead version 101 statusText
      (before ++ acceptLine clientKey :: after) ++ crlf ++ crlf ++ rest)
    (live : [] ∉ segs) :
    ∃ left, (wsTestClientHandshake maxUriLen uri host clientKey (cString written) segs).2 =
      some (.ok left) ∧ left.flatten <:+ rest := by
  have lineText' := forall_mem_middle lineText (plain_acceptLine clientKey)
  have absent' := forall_mem_middle absent (strstr_acceptLine clientKey)
  obtain ⟨body, left, got, split⟩ := recvResponse_noContentLength word text (by norm_num) lineText'
    (by simp) absent' fits arrives live
  refine ⟨left, ?_, body, split⟩
  have found : (before ++ acceptLine clientKey :: after).findSome? (headerValue secWebSocketAccept) =
      some (cString written) := by
    rw [List.findSome?_append, List.findSome?_eq_none_iff.mpr first, Option.none_or,
      List.findSome?_cons, headerValue_acceptLine, cString_generated sha1Ctx keyFits room generated]
  simp only [wsTestClientHandshake, httpTestClientSendRequest, got, Option.map_some', Except.bind,
    checkHandshake_crlfJoin _ _ _ (fun line mem => (lineText' line mem).2), found, and_self, if_true]

def sampleKey : List Byte := "dGhlIHNhbXBsZSBub25jZQ==".toList.map ascii

def sampleWritten : List Byte := (Rfc4648.encode (sha1 (serverRawText sampleKey))).map ascii ++ [0]

def switchingText : List Byte := "Switching Protocols".toList.map ascii

def sampleReply : List Byte :=
  responseHead httpVersion 101 switchingText ([] ++ acceptLine sampleKey :: []) ++ crlf ++ crlf

theorem wsTestClientHandshake_rfc6455_sample :
    sampleKey.length ≤ 91 ∧ 29 ≤ 33 ∧ generateWsAcceptKey zeroContext sampleKey 33 = some sampleWritten ∧
    (httpVersion ≠ [] ∧ Plain httpVersion ∧ ascii ' ' ∉ httpVersion) ∧
    (switchingText ≠ [] ∧ Plain switchingText) ∧
    (∀ line ∈ ([] : List (List Byte)) ++ [], line ≠ [] ∧ Plain line) ∧
    (∀ line ∈ ([] : List (List Byte)) ++ [], strstr line contentLengthName = none) ∧
    (∀ line ∈ ([] : List (List Byte)), headerValue secWebSocketAccept line = none) ∧
    (responseHead httpVersion 101 switchingText ([] ++ acceptLine sampleKey :: [])).length + 4 <
      httpRecvBufferSize ∧
    [sampleReply].flatten =
      responseHead httpVersion 101 switchingText ([] ++ acceptLine sampleKey :: []) ++ crlf ++ crlf ++ [] ∧
    [] ∉ [sampleReply] ∧
    ∃ left, (wsTestClientHandshake 1024 ("/ws".toList.map ascii) ("h".toList.map ascii) sampleKey
      (cString sampleWritten) [sampleReply]).2 = some (.ok left) ∧ left.flatten <:+ [] := by
  have generated : generateWsAcceptKey zeroContext sampleKey 33 = some sampleWritten := by
    rw [generateWsAcceptKey_sha1, base64Encode_digest (sha1_length _) (by decide),
      paddedGroups_eq_encode]
    rfl
  have fits : (responseHead httpVersion 101 switchingText
      ([] ++ acceptLine sampleKey :: [])).length + 4 < httpRecvBufferSize := by
    simp [responseHead, statusLine, decimal, crlfJoin, httpRecvBufferSize, httpVersion, switchingText]
  have arrives : [sampleReply].flatten = responseHead httpVersion 101 switchingText
      ([] ++ acceptLine sampleKey :: []) ++ crlf ++ crlf ++ [] := by simp [sampleReply]
  have live : [] ∉ [sampleReply] := by simp [sampleReply, crlf]
  exact ⟨by decide, by decide, generated, by decide, by decide, by decide, by decide, by decide, fits,
    arrives, live, wsTestClientHandshake_rfc6455 zeroContext (by decide) (by decide) generated 1024 _ _
      (by decide) (by decide) (by decide) (by decide) (by decide) fits arrives live⟩

end WebSocket
