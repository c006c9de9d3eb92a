import HttpServer.TestClient.Request

/- `ws_test_client_handshake` of `http_test_client.c`: the upgrade request it sends with
`http_test_client_send_request`, and its checks of the reply: status 101 and the
`Sec-WebSocket-Accept` header read with `http_test_client_get_header` and compared with `strcmp`.
-/
namespace TestClient
open HttpServer

/-- `headers_str`: `snprintf` into 512 bytes. -/
def handshakeHeaders (host clientKey : List Byte) : List Byte :=
  snprintf 512 ("Host: ".toList.map ascii ++ host ++ crlf ++ upgradeWebsocket ++ crlf ++
    "Connection: Upgrade".toList.map ascii ++ crlf ++ "Sec-WebSocket-Key: ".toList.map ascii ++
    clientKey ++ crlf ++ "Sec-WebSocket-Version: 13".toList.map ascii ++ crlf)

def secWebSocketAccept : List Byte := "Sec-WebSocket-Accept".toList.map ascii

/-- The checks of the response once `http_test_client_send_request` returned
`HTTP_TEST_CLIENT_OK`: status 101, then a `Sec-WebSocket-Accept` equal to the expected key. -/
def checkHandshake (expectedAcceptKey : List Byte) (response : HttpTestResponse)
    (segs : List (List Byte)) : Except HttpTestClientErr (List (List Byte)) :=
  if response.statusCode ≠ 101 then .error .errProtocol
  else match httpTestClientGetHeader response.headers secWebSocketAccept with
    | none => .error .errProtocol
    | some receivedAcceptKey =>
      if receivedAcceptKey = expectedAcceptKey then .ok segs else .error .errProtocol

/-- `ws_test_client_handshake` on a connected client: the bytes it sends, and what it returns,
with the segments left for `HTTP_TEST_CLIENT_OK`; `none` at undefined behaviour. -/
def wsTestClientHandshake (maxUriLen : Nat) (uri host clientKey expectedAcceptKey : List Byte)
    (segs : List (List Byte)) : List Byte × Option (Except HttpTestClientErr (List (List Byte))) :=
  let (request, result) := httpTestClientSendRequest maxUriLen .httpMethodGet uri
    (some (handshakeHeaders host clientKey)) none segs
  (request, result.map fun result => result.bind fun (response, segs) =>
    checkHandshake expectedAcceptKey response segs)

theorem checkHandshake_crlfJoin (expectedAcceptKey : List Byte) (code : Nat)
    (statusText : List Byte) {lines : List (List Byte)} (plainLines : ∀ line ∈ lines, Plain line)
    (body : List Byte) (segs : List (List Byte)) :
    checkHandshake expectedAcceptKey (httpTestResponse code statusText (crlfJoin lines) body) segs =
      if code = 101 ∧ lines.findSome? (headerValue secWebSocketAccept) = some expectedAcceptKey
      then .ok segs else .error .errProtocol := by
  have accept := getHeaderFrom_crlfJoin (show Plain secWebSocketAccept by decide) lines plainLines
  simp only [checkHandshake, httpTestResponse_statusCode, httpTestResponse_headers,
    httpTestClientGetHeader, accept]
  generalize lines.findSome? (headerValue secWebSocketAccept) = found
  by_cases switching : code = 101
  · rw [if_neg (by omega)]
    cases found with
    | none => simp
    | some key => by_cases same : key = expectedAcceptKey <;> simp [switching, same]
  · rw [if_pos (by omega), if_neg fun h => switching h.1]

/-- When the URI fits `request_line` and the host and key fit `headers_str`, the handshake sends the
opening handshake of RFC 6455: the GET request line, `Host`, `Upgrade: websocket`,
`Connection: Upgrade`, `Sec-WebSocket-Key`, `Sec-WebSocket-Version: 13` and the empty line, with no
`Connection: close`. -/
theorem wsTestClientHandshake_request {maxUriLen : Nat} {uri host clientKey : List Byte}
    (uriFits : uri.length + 15 ≤ maxUriLen + 255)
    (headersFit : host.length + clientKey.length + 97 < 512)
    (expectedAcceptKey : List Byte) (segs : List (List Byte)) :
    (wsTestClientHandshake maxUriLen uri host clientKey expectedAcceptKey segs).1 =
      crlfJoin ["GET".toList.map ascii ++ ascii ' ' :: uri ++ " HTTP/1.1".toList.map ascii,
        "Host: ".toList.map ascii ++ host, upgradeWebsocket, "Connection: Upgrade".toList.map ascii,
        "Sec-WebSocket-Key: ".toList.map ascii ++ clientKey,
        "Sec-WebSocket-Version: 13".toList.map ascii] ++ crlf ++ crlf := by
  have headers : handshakeHeaders host clientKey = "Host: ".toList.map ascii ++ host ++ crlf ++
      upgradeWebsocket ++ crlf ++ "Connection: Upgrade".toList.map ascii ++ crlf ++
      "Sec-WebSocket-Key: ".toList.map ascii ++ clientKey ++ crlf ++
      "Sec-WebSocket-Version: 13".toList.map ascii ++ crlf :=
    snprintf_of_lt (by simp [crlf, upgradeWebsocket]; omega)
  have upgrade : isWebsocketUpgrade (some (handshakeHeaders host clientKey)) = true := by
    rw [headers, isWebsocketUpgrade]
    exact strstr_isSome ⟨"Host: ".toList.map ascii ++ host ++ crlf, crlf ++
      "Connection: Upgrade".toList.map ascii ++ crlf ++ "Sec-WebSocket-Key: ".toList.map ascii ++
      clientKey ++ crlf ++ "Sec-WebSocket-Version: 13".toList.map ascii ++ crlf,
      by simp only [List.append_assoc]⟩
  simp only [wsTestClientHandshake, httpTestClientSendRequest, requestBytes,
    requestLine_eq (show (methodStr .httpMethodGet).length + uri.length + 12 ≤ maxUriLen + 255 by
      simp [methodStr]; omega), upgrade]
  rw [headers]
  simp [methodStr, crlfJoin, crlf]

theorem wsTestClientHandshake_request_ws :
    ("/ws".toList.map ascii).length + 15 ≤ 1024 + 255 ∧
    ("h".toList.map ascii).length + ("k".toList.map ascii).length + 97 < 512 ∧
    (wsTestClientHandshake 1024 ("/ws".toList.map ascii) ("h".toList.map ascii) ("k".toList.map ascii)
      [] []).1 =
      crlfJoin ["GET".toList.map ascii ++ ascii ' ' :: "/ws".toList.map ascii ++
          " HTTP/1.1".toList.map ascii,
        "Host: ".toList.map ascii ++ "h".toList.map ascii, upgradeWebsocket,
        "Connection: Upgrade".toList.map ascii, "Sec-WebSocket-Key: ".toList.map ascii ++
          "k".toList.map ascii, "Sec-WebSocket-Version: 13".toList.map ascii] ++ crlf ++ crlf :=
  ⟨by decide, by decide, wsTestClientHandshake_request (by decide) (by decide) [] []⟩

/-- Against a well-formed reply without `Content-Length`, whose head fits `recv_buf`, however it
arrives and with no read timing out, the handshake succeeds exactly when the code is 101 and the
first `Sec-WebSocket-Accept` header, its name compared without case, holds the expected key;
otherwise it fails with `HTTP_TEST_CLIENT_ERR_PROTOCOL`. The data it leaves is what followed the
reply, less what came with the reply's last read. -/
theorem wsTestClientHandshake_reply (maxUriLen : Nat) (uri host clientKey expectedAcceptKey : List Byte)
    {version statusText : List Byte} {code : Nat}
    (word : version ≠ [] ∧ Plain version ∧ ascii ' ' ∉ version)
    (text : statusText ≠ [] ∧ Plain statusText) (codeFits : code < 2 ^ 31)
    {lines : List (List Byte)} (lineText : ∀ line ∈ lines, line ≠ [] ∧ Plain line)
    (hasLines : lines ≠ []) (absent : ∀ line ∈ lines, strstr line contentLengthName = none)
    (fits : (responseHead version code statusText lines).length + 4 < httpRecvBufferSize)
    {segs : List (List Byte)} {rest : List Byte}
    (arrives : segs.flatten = responseHead version code statusText lines ++ crlf ++ crlf ++ rest)
    (live : [] ∉ segs) :
    ∃ left, (wsTestClientHandshake maxUriLen uri host clientKey expectedAcceptKey segs).2 =
        some (if code = 101 ∧ lines.findSome? (headerValue secWebSocketAccept) = some expectedAcceptKey
          then .ok left else .error .errProtocol) ∧
      left.flatten <:+ rest := by
  obtain ⟨body, left, got, split⟩ :=
    recvResponse_noContentLength word text codeFits lineText hasLines absent fits arrives live
  refine ⟨left, ?_, body, split⟩
  simp only [wsTestClientHandshake, httpTestClientSendRequest, got, Option.map_some', Except.bind,
    checkHandshake_crlfJoin expectedAcceptKey code statusText (fun line mem => (lineText line mem).2)]

def replyLines : List (List Byte) := ["A: b".toList.map ascii]

def switchingHead : List Byte := responseHead httpVersion 101 statusOk replyLines

theorem wsTestClientHandshake_reply_switching :
    (httpVersion ≠ [] ∧ Plain httpVersion ∧ ascii ' ' ∉ httpVersion) ∧
    (statusOk ≠ [] ∧ Plain statusOk) ∧ 101 < 2 ^ 31 ∧
    (∀ line ∈ replyLines, line ≠ [] ∧ Plain line) ∧ replyLines ≠ [] ∧
    (∀ line ∈ replyLines, strstr line contentLengthName = none) ∧
    switchingHead.length + 4 < httpRecvBufferSize ∧
    [switchingHead ++ crlf ++ crlf ++ [0x81]].flatten = switchingHead ++ crlf ++ crlf ++ [0x81] ∧
    [] ∉ [switchingHead ++ crlf ++ crlf ++ [0x81]] ∧
    ∃ left, (wsTestClientHandshake 1024 ("/ws".toList.map ascii) ("h".toList.map ascii)
        ("k".toList.map ascii) ("k".toList.map ascii) [switchingHead ++ crlf ++ crlf ++ [0x81]]).2 =
        some (if 101 = 101 ∧ replyLines.findSome? (headerValue secWebSocketAccept) =
          some ("k".toList.map ascii) then .ok left else .error .errProtocol) ∧
      left.flatten <:+ [0x81] := by
  have fits : switchingHead.length + 4 < httpRecvBufferSize := by
    simp [switchingHead, responseHead, statusLine, decimal, crlfJoin, httpRecvBufferSize, httpVersion,
      statusOk, replyLines]
  have live : [] ∉ [switchingHead ++ crlf ++ crlf ++ [0x81]] := by simp [crlf]
  exact ⟨by decide, by decide, by decide, by decide, by decide, by decide, fits, by simp, live,
    wsTestClientHandshake_reply 1024 _ _ _ _ (by decide) (by decide) (by decide) (by decide)
      (by decide) (by decide) fits (by simp [switchingHead]) live⟩

end TestClient
