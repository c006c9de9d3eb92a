import HttpServer.TestClient.Response

/- The request half of `http_test_client_send_request` in `http_test_client.c`: the request
`full_request` built with `snprintf` and `strcat`, and the body sent after it. `size_t` is 64 bits,
`send_data` sends every byte it is given, and allocations do not fail. -/
namespace TestClient
open HttpServer

/-- `http_method_t`. -/
inductive HttpMethod
  | httpMethodGet
  | httpMethodPost
  deriving DecidableEq, Repr

/-- `method_str`. -/
def methodStr : HttpMethod → List Byte
  | .httpMethodGet => "GET".toList.map ascii
  | .httpMethodPost => "POST".toList.map ascii

/-- What `snprintf(buf, size, ...)` leaves in `buf` before its NUL, for a text with no NUL. -/
def snprintf (size : Nat) (formatted : List Byte) : List Byte := formatted.take (size - 1)

/-- `"%s %s HTTP/1.1\r\n"` into `request_line[CONFIG_HTTPD_MAX_URI_LEN + 256]`. -/
def requestLine (maxUriLen : Nat) (method : HttpMethod) (uri : List Byte) : List Byte :=
  snprintf (maxUriLen + 256)
    (methodStr method ++ ascii ' ' :: uri ++ " HTTP/1.1".toList.map ascii ++ crlf)

/-- `"Content-Length: %zu\r\n"` into `content_length_hdr[64]`. -/
def contentLengthHdr (bodyLen : Nat) : List Byte :=
  snprintf 64 ("Content-Length: ".toList.map ascii ++ decimal bodyLen ++ crlf)

def upgradeWebsocket : List Byte := "Upgrade: websocket".toList.map ascii

/-- `is_websocket_upgrade`: `headers_str` is not `NULL` and holds `"Upgrade: websocket"`. -/
def isWebsocketUpgrade : Option (List Byte) → Bool
  | some headersStr => (strstr headersStr upgradeWebsocket).isSome
  | none => false

def connectionClose : List Byte := "Connection: close".toList.map ascii ++ crlf

/-- The bytes `http_test_client_send_request` passes to `send_data`: `full_request`, then the body
of a POST that has one. `headers_str` and `body` are `NULL` or their bytes, `body_len` the number
of bytes of `body`. -/
def requestBytes (maxUriLen : Nat) (method : HttpMethod) (uri : List Byte)
    (headersStr body : Option (List Byte)) : List Byte :=
  let sendsBody := method = .httpMethodPost ∧ 0 < (body.getD []).length
  requestLine maxUriLen method uri ++ headersStr.getD [] ++
    (if sendsBody then contentLengthHdr (body.getD []).length else []) ++
    (if isWebsocketUpgrade headersStr then [] else connectionClose) ++ crlf ++
    (if sendsBody then body.getD [] else [])

/-- `http_test_client_send_request` on a connected client: the bytes it sends, and what it returns
with the response it reads after them. -/
def httpTestClientSendRequest (maxUriLen : Nat) (method : HttpMethod) (uri : List Byte)
    (headersStr body : Option (List Byte)) (segs : List (List Byte)) :
    List Byte × Option (Except HttpTestClientErr (HttpTestResponse × List (List Byte))) :=
  (requestBytes maxUriLen method uri headersStr body, recvResponse segs)

theorem snprintf_of_lt {size : Nat} {formatted : List Byte} (fits : formatted.length < size) :
    snprintf size formatted = formatted :=
  List.take_of_length_le (by omega)

theorem length_decimal_le {n : Nat} (fits : n < 2 ^ 64) : (decimal n).length ≤ 20 := by
  rw [decimal]
  split
  · simp
  · rename_i nonzero
    have := Nat.log_lt_of_lt_pow nonzero (show n < 10 ^ 20 by omega)
    simp [Nat.digits_len 10 n (by norm_num) nonzero]
    omega

theorem contentLengthHdr_eq {bodyLen : Nat} (fits : bodyLen < 2 ^ 64) :
    contentLengthHdr bodyLen = "Content-Length: ".toList.map ascii ++ decimal bodyLen ++ crlf := by
  have := length_decimal_le fits
  exact snprintf_of_lt (by simp [crlf]; omega)

theorem requestLine_eq {maxUriLen : Nat} {method : HttpMethod} {uri : List Byte}
    (fits : (methodStr method).length + uri.length + 12 ≤ maxUriLen + 255) :
    requestLine maxUriLen method uri =
      methodStr method ++ ascii ' ' :: uri ++ " HTTP/1.1".toList.map ascii ++ crlf :=
  snprintf_of_lt (by simp [crlf]; omega)

theorem strstr_isSome {haystack needle : List Byte} (h : needle <:+: haystack) :
    (strstr haystack needle).isSome := by
  by_cases empty : needle = []
  · subst empty; simp [strstr_at_start List.nil_prefix]
  obtain ⟨front, back, rfl⟩ := h
  rw [Option.isSome_iff_ne_none, Ne, strstr_eq_none empty, not_forall]
  exact ⟨front.length, by simp [List.append_assoc]⟩

end TestClient
