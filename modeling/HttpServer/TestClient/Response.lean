import HttpServer.TestClient.Connection
import HttpServer.TestClient.Header

/- The response half of `http_test_client_send_request` in `http_test_client.c`: the reads into its
`recv_buf` until the end of the headers, the status line split by `strtok` and read by `atoi`, the
headers copied by `strdup`, `Content-Length`, and the body. `int` is 32 bits and `size_t` 64. An
`atoi` whose value does not fit an `int`, and a write that leaves an allocation, are undefined
behaviour: `none`. Allocations do not fail. -/
namespace TestClient
open HttpServer

/-- `HTTP_RECV_BUFFER_SIZE`. -/
def httpRecvBufferSize : Nat := 4096

/-- The loop that reads until `strstr(recv_buf, "\r\n\r\n")` finds the end of the headers: the
bytes in `recv_buf`, the offset of that end where it was found, and the segments left. -/
def recvHeaders (buf : List Byte) (segs : List (List Byte)) :
    Except HttpTestClientErr (List Byte × Option Nat × List (List Byte)) :=
  if buf.length < httpRecvBufferSize then
    match recvData (httpRecvBufferSize - buf.length - 1) segs with
    | ([], segs) => if buf = [] then .error .errTimeout else .ok (buf, none, segs)
    | (b :: read, segs) =>
      match strstr (cString (buf ++ b :: read)) (crlf ++ crlf) with
      | some headerEnd => .ok (buf ++ b :: read, some headerEnd, segs)
      | none => recvHeaders (buf ++ b :: read) segs
  else .ok (buf, none, segs)
termination_by httpRecvBufferSize - buf.length

/-- `http_test_response_t`; `body_len` is the length of the body, and `status_text` holds at most
63 characters before its NUL. -/
structure HttpTestResponse where
  statusCode : Int
  statusText : List Byte
  statusText_length : statusText.length ≤ 63
  headers : List Byte
  body : List Byte
  deriving DecidableEq, Repr

def httpTestResponse (statusCode : Int) (statusText headers body : List Byte) : HttpTestResponse :=
  ⟨statusCode, statusText.take 63, List.length_take_le _ _, headers, body⟩

@[simp] theorem httpTestResponse_statusCode (statusCode : Int) (statusText headers body : List Byte) :
    (httpTestResponse statusCode statusText headers body).statusCode = statusCode := rfl

@[simp] theorem httpTestResponse_headers (statusCode : Int) (statusText headers body : List Byte) :
    (httpTestResponse statusCode statusText headers body).headers = headers := rfl

/-- The three `strtok` calls on the status line: the version, the code and the status text. -/
def statusTokens (statusLine : List Byte) : Option (List Byte × List Byte × List Byte) := do
  let (version, rest) ← strtok [ascii ' '] statusLine
  let (statusCode, rest) ← strtok [ascii ' '] rest
  let (statusText, _) ← strtok [] rest
  pure (version, statusCode, statusText)

def contentLengthName : List Byte := "Content-Length:".toList.map ascii

/-- `content_length` as an `int`: `atoi` after the first `"Content-Length:"` of the headers, else 0. -/
def contentLength (headers : List Byte) : Option Int :=
  match strstr headers contentLengthName with
  | some k => atoi (headers.drop (k + contentLengthName.length))
  | none => some 0

/-- The body once `content_length` is known: with a positive length, the bytes already in
`recv_buf` copied into `malloc(content_length + 1)` and the rest read by `recv`; else the bytes
already in `recv_buf`. -/
def recvBody (contentLength : Nat) (inBuf : List Byte) (segs : List (List Byte)) :
    Option (Except HttpTestClientErr (List Byte × List (List Byte))) :=
  if 0 < contentLength then
    let allocated := (contentLength + 1) % 2 ^ 64
    if allocated < inBuf.length then none
    else if contentLength ≤ inBuf.length then some (.ok (inBuf.take contentLength, segs))
    else if allocated < contentLength then
      match segs with
      | [] => some (.error .errProtocol)
      | [] :: _ => some (.error .errRecv)
      | _ => none
    else some ((recvAll .errRecv .errProtocol (contentLength - inBuf.length) segs).map
      fun r => (inBuf ++ r.1, r.2))
  else some (.ok (inBuf, segs))

/-- The response half of `http_test_client_send_request`, from its first `recv_data`: `none` at
undefined behaviour, else what it returns, with the response and the segments left for
`HTTP_TEST_CLIENT_OK`. -/
def recvResponse (segs : List (List Byte)) :
    Option (Except HttpTestClientErr (HttpTestResponse × List (List Byte))) :=
  match recvHeaders [] segs with
  | .error e => some (.error e)
  | .ok (_, none, _) => some (.error .errProtocol)
  | .ok (buf, some headerEnd, segs) =>
    let head := buf.take headerEnd
    match strstr head crlf with
    | none => some (.error .errProtocol)
    | some statusLineEnd =>
      match statusTokens (head.take statusLineEnd) with
      | none => some (.error .errProtocol)
      | some (_, statusCode, statusText) => do
        let statusCode ← atoi statusCode
        let headers := head.drop (statusLineEnd + 2)
        let contentLength ← contentLength headers
        let body ← recvBody (contentLength % 2 ^ 64).toNat (buf.drop (headerEnd + 4)) segs
        pure (body.map fun (body, segs) =>
          (httpTestResponse statusCode statusText headers body, segs))

section Headers

variable {head data : List Byte} (noNul : 0 ∉ head ++ crlf ++ crlf)
  (found : strstr (head ++ crlf ++ crlf) (crlf ++ crlf) = some head.length)
  (fits : head.length + 4 < httpRecvBufferSize) (starts : head ++ crlf ++ crlf <+: data)
include noNul found fits starts

theorem recvHeaders_found (buf : List Byte) (front back : List (List Byte))
    (joined : buf ++ front.flatten = data) (short : buf.length < head.length + 4)
    (live : [] ∉ front ++ back) :
    ∃ buf' front', recvHeaders buf (front ++ back) = .ok (buf', some head.length, front' ++ back) ∧
      buf' ++ front'.flatten = data ∧ head.length + 4 ≤ buf'.length ∧ [] ∉ front' ++ back := by
  have whole : (head ++ crlf ++ crlf).length = head.length + 4 := by simp [crlf]
  generalize measure : head.length + 4 - buf.length = n
  induction n using Nat.strong_induction_on generalizing buf front with
  | _ n ih =>
  have more : front.flatten ≠ [] := by
    rintro empty
    have := starts.length_le
    rw [← joined, empty, List.append_nil, whole] at this
    omega
  obtain ⟨seg, front, rfl⟩ := List.exists_cons_of_ne_nil
    (show front ≠ [] from fun h => more (by simp [h]))
  have live₀ : [] ∉ seg :: front := fun mem => live (List.mem_append_left _ mem)
  set k := httpRecvBufferSize - buf.length - 1
  obtain ⟨b, read, taken⟩ := List.exists_cons_of_ne_nil
    (show (recvData k (seg :: front)).1 ≠ [] by
      simp [recvData, show seg ≠ [] from fun h => live₀ (h ▸ List.mem_cons_self _ _)]; omega)
  have joined₁ : (buf ++ b :: read) ++ (recvData k (seg :: front)).2.flatten = data := by
    rw [← taken, List.append_assoc, (recvData_flatten k _).1, joined]
  have live₁ : [] ∉ (recvData k (seg :: front)).2 ++ back := by
    simp only [List.mem_append, not_or]
    exact ⟨live_recvData live₀ k, fun mem => live (List.mem_append_right _ mem)⟩
  rw [recvHeaders, if_pos (by omega), recvData_append, taken]
  dsimp only
  by_cases short₁ : (buf ++ b :: read).length < head.length + 4
  · have pre : buf ++ b :: read <+: head ++ crlf ++ crlf :=
      List.prefix_of_prefix_length_le ⟨_, joined₁⟩ starts (by rw [whole]; omega)
    have none : strstr (buf ++ b :: read) (crlf ++ crlf) = none := by
      rw [List.prefix_iff_eq_take.mp pre]; exact strstr_take found (by simpa [crlf] using short₁)
    rw [cString_eq_self fun mem => noNul (pre.subset mem), none]
    exact ih _ (by simp only [List.length_append, List.length_cons] at short₁ ⊢; omega) _ _
      joined₁ short₁ live₁ rfl
  · obtain ⟨x, hx⟩ : head ++ crlf ++ crlf <+: buf ++ b :: read :=
      List.prefix_of_prefix_length_le starts ⟨_, joined₁⟩ (by rw [whole]; omega)
    rw [← hx, cString_append noNul, strstr_append found]
    exact ⟨_, _, rfl, hx ▸ joined₁, by simp only [← hx, List.length_append, whole]; omega, live₁⟩

end Headers

theorem zero_not_mem_crlfJoin {lines : List (List Byte)} (noNul : ∀ line ∈ lines, 0 ∉ line) :
    0 ∉ crlfJoin lines := by
  induction lines with
  | nil => simp [crlfJoin]
  | cons line lines ih =>
    have rest := ih fun l mem => noNul l (List.mem_cons_of_mem _ mem)
    cases lines with
    | nil => exact noNul line (List.mem_cons_self _ _)
    | cons next lines =>
      rw [crlfJoin_cons_cons]
      simp only [List.mem_append, List.mem_cons, not_or]
      exact ⟨noNul line (List.mem_cons_self _ _), by decide, by decide, rest⟩

def statusLine (version : List Byte) (code : Nat) (statusText : List Byte) : List Byte :=
  version ++ ascii ' ' :: (decimal code ++ ascii ' ' :: statusText)

theorem plain_decimal (n : Nat) : Plain (decimal n) := by
  intro c mem
  have := toNat_of_mem_decimal mem
  constructor <;> intro h <;> subst h <;> exact absurd this (by decide)

theorem plain_statusLine {version statusText : List Byte} (plainVersion : Plain version)
    (plainText : Plain statusText) (code : Nat) : Plain (statusLine version code statusText) := by
  intro c mem
  simp only [statusLine, List.mem_append, List.mem_cons] at mem
  rcases mem with mem | rfl | mem | rfl | mem
  · exact plainVersion c mem
  · decide
  · exact plain_decimal code c mem
  · decide
  · exact plainText c mem

theorem statusTokens_statusLine {version statusText : List Byte} (word : version ≠ [])
    (noSpace : ascii ' ' ∉ version) (text : statusText ≠ []) (code : Nat) :
    statusTokens (statusLine version code statusText) = some (version, decimal code, statusText) := by
  have versionWord : ∀ c ∈ version, c ∉ [ascii ' '] := by
    intro c mem h; rw [List.mem_singleton] at h; exact noSpace (h ▸ mem)
  have codeWord : ∀ c ∈ decimal code, c ∉ [ascii ' '] := by
    intro c mem h; rw [List.mem_singleton] at h
    have := toNat_of_mem_decimal mem; subst h; exact absurd this (by decide)
  simp [statusTokens, statusLine, strtok_word (List.mem_singleton_self _) word versionWord,
    strtok_word (List.mem_singleton_self _) (decimal_ne_nil code) codeWord, strtok_nil text]

def contentLengthLine (n : Nat) : List Byte := contentLengthName ++ ascii ' ' :: decimal n

theorem plain_contentLengthLine (n : Nat) : Plain (contentLengthLine n) := by
  intro c mem
  simp only [contentLengthLine, List.mem_append, List.mem_cons] at mem
  rcases mem with mem | rfl | mem
  · exact (show Plain contentLengthName by decide) c mem
  · decide
  · exact plain_decimal n c mem

theorem contentLengthName_needle : contentLengthName ≠ [] ∧ ascii '\r' ∉ contentLengthName ∧
    contentLengthName.head? ≠ some (ascii '\n') := by
  decide

theorem contentLength_crlfJoin {before : List (List Byte)}
    (absent : ∀ line ∈ before, strstr line contentLengthName = none) {n : Nat} (fits : n < 2 ^ 31)
    (after : List (List Byte)) :
    contentLength (crlfJoin (before ++ contentLengthLine n :: after)) = some (n : Int) := by
  obtain ⟨nonempty, noCr, noLf⟩ := contentLengthName_needle
  have starts : contentLengthName <+: contentLengthLine n := List.prefix_append _ _
  obtain ⟨k, found, rest⟩ := strstr_crlfJoin_found nonempty noCr noLf absent starts after
  obtain ⟨t, joined, ends⟩ := crlfJoin_cons_lineEnd (contentLengthLine n) after
  rw [contentLength, found]
  dsimp only
  rw [← List.drop_drop, rest, joined, contentLengthLine, List.append_assoc,
    List.drop_left]
  have stop : ∀ c ∈ t.head?, isDigit c = false := by
    rcases ends with rfl | ⟨more, rfl⟩
    · simp
    · simp only [List.head?_cons, Option.mem_def, Option.some.injEq]; rintro c rfl; decide
  simpa using atoi_decimal (show ∀ c ∈ [ascii ' '], isSpace c by decide) fits stop

theorem contentLength_crlfJoin_none {lines : List (List Byte)}
    (absent : ∀ line ∈ lines, strstr line contentLengthName = none) :
    contentLength (crlfJoin lines) = some 0 := by
  obtain ⟨nonempty, noCr, noLf⟩ := contentLengthName_needle
  rw [contentLength, strstr_crlfJoin_none nonempty noCr noLf absent]

theorem recvBody_overflow {n : Nat} (positive : 0 < n) (fits : n < 2 ^ 63) {inBuf : List Byte}
    (overflow : n + 1 < inBuf.length) (segs : List (List Byte)) : recvBody n inBuf segs = none := by
  unfold recvBody
  rw [if_pos positive]
  dsimp only
  rw [Nat.mod_eq_of_lt (by omega), if_pos overflow]

theorem recvBody_prefix {inBuf body : List Byte} (pre : inBuf <+: body) (fits : body.length < 2 ^ 63)
    {segs : List (List Byte)} {rest : List Byte} (arrives : segs.flatten = body.drop inBuf.length ++ rest)
    (live : [] ∉ segs) :
    ∃ left, recvBody body.length inBuf segs = some (.ok (body, left)) ∧ left.flatten = rest := by
  obtain ⟨more, rfl⟩ := pre
  simp only [List.length_append, List.drop_left] at fits arrives ⊢
  unfold recvBody
  by_cases empty : inBuf.length + more.length = 0
  · obtain ⟨rfl, rfl⟩ : inBuf = [] ∧ more = [] := by simpa using empty
    exact ⟨segs, by simp, by simpa using arrives⟩
  rw [if_pos (Nat.pos_of_ne_zero empty)]
  dsimp only
  rw [Nat.mod_eq_of_lt (by omega), if_neg (by omega)]
  by_cases whole : more = []
  · subst whole
    exact ⟨segs, by simp, by simpa using arrives⟩
  have short : ¬ inBuf.length + more.length ≤ inBuf.length := by simpa using whole
  rw [if_neg short, if_neg (by omega)]
  obtain ⟨left, got, flat, -⟩ := recvAll_live live .errRecv .errProtocol more.length
    (by simp [arrives])
  refine ⟨left, ?_, by simpa [arrives] using flat⟩
  rw [Nat.add_sub_cancel_left, got, arrives]
  simp [Except.map]

theorem headerEnd_crlfJoin {lines : List (List Byte)}
    (lineText : ∀ line ∈ lines, line ≠ [] ∧ Plain line) :
    0 ∉ crlfJoin lines ++ crlf ++ crlf ∧
      strstr (crlfJoin lines ++ crlf ++ crlf) (crlf ++ crlf) = some (crlfJoin lines).length := by
  refine ⟨?_, strstr_headerEnd lineText⟩
  simp only [List.mem_append, not_or]
  exact ⟨⟨zero_not_mem_crlfJoin fun line mem h => ((lineText line mem).2 0 h).2 rfl, by decide⟩,
    by decide⟩

theorem recvHeaders_crlfJoin {lines : List (List Byte)} (lineText : ∀ line ∈ lines, line ≠ [] ∧ Plain line)
    (fits : (crlfJoin lines).length + 4 < httpRecvBufferSize) {front back : List (List Byte)}
    {rest : List Byte} (arrives : front.flatten = crlfJoin lines ++ crlf ++ crlf ++ rest)
    (live : [] ∉ front ++ back) :
    ∃ inBuf front', recvHeaders [] (front ++ back) =
        .ok (crlfJoin lines ++ crlf ++ crlf ++ inBuf, some (crlfJoin lines).length, front' ++ back) ∧
      inBuf ++ front'.flatten = rest ∧ [] ∉ front' ++ back := by
  obtain ⟨noNul, found⟩ := headerEnd_crlfJoin lineText
  obtain ⟨buf, front', headers, joined, long, live'⟩ := recvHeaders_found noNul found fits
    (List.prefix_append _ rest) [] front back (by rw [arrives, List.nil_append]) (by simp [crlf]) live
  obtain ⟨inBuf, rfl⟩ := List.prefix_of_prefix_length_le (List.prefix_append _ rest) ⟨_, joined⟩
    (by simpa [crlf] using long)
  rw [List.append_assoc] at joined
  exact ⟨inBuf, front', headers, List.append_cancel_left joined, live'⟩

theorem recvHeaders_segment {lines : List (List Byte)} (lineText : ∀ line ∈ lines, line ≠ [] ∧ Plain line)
    {rest : List Byte} (fits : (crlfJoin lines ++ crlf ++ crlf ++ rest).length < httpRecvBufferSize)
    (more : List (List Byte)) :
    recvHeaders [] ((crlfJoin lines ++ crlf ++ crlf ++ rest) :: more) =
      .ok (crlfJoin lines ++ crlf ++ crlf ++ rest, some (crlfJoin lines).length, more) := by
  obtain ⟨noNul, found⟩ := headerEnd_crlfJoin lineText
  obtain ⟨b, read, whole⟩ := List.exists_cons_of_ne_nil
    (show crlfJoin lines ++ crlf ++ crlf ++ rest ≠ [] by simp [crlf])
  have taken : (recvData (httpRecvBufferSize - ([] : List Byte).length - 1)
      ((crlfJoin lines ++ crlf ++ crlf ++ rest) :: more)) =
      (crlfJoin lines ++ crlf ++ crlf ++ rest, more) := by
    simp only [recvData, List.length_nil, Nat.sub_zero]
    rw [List.take_of_length_le (by omega), if_neg (by omega)]
  rw [recvHeaders, if_pos (by simp [httpRecvBufferSize]), taken, whole]
  dsimp only
  rw [List.nil_append, ← whole, cString_append noNul, strstr_append found]

def responseHead (version : List Byte) (code : Nat) (statusText : List Byte)
    (lines : List (List Byte)) : List Byte :=
  crlfJoin (statusLine version code statusText :: lines)

theorem drop_crlfJoin_cons (line : List Byte) (lines : List (List Byte)) :
    (crlfJoin (line :: lines)).drop (line.length + 2) = crlfJoin lines := by
  cases lines with
  | nil => simp [crlfJoin]
  | cons next lines => simp [crlfJoin_cons_cons, List.drop_append_eq_append_drop]

theorem recvResponse_parse {version statusText : List Byte} {code : Nat} {lines : List (List Byte)}
    (word : version ≠ [] ∧ Plain version ∧ ascii ' ' ∉ version)
    (text : statusText ≠ [] ∧ Plain statusText) (codeFits : code < 2 ^ 31) (hasLines : lines ≠ [])
    {segs segs' : List (List Byte)} {inBuf : List Byte}
    (headers : recvHeaders [] segs = .ok (responseHead version code statusText lines ++ crlf ++ crlf ++ inBuf,
      some (responseHead version code statusText lines).length, segs')) :
    recvResponse segs = (do
      let contentLength ← contentLength (crlfJoin lines)
      let body ← recvBody (contentLength % 2 ^ 64).toNat inBuf segs'
      pure (body.map fun (body, segs) =>
        (httpTestResponse code statusText (crlfJoin lines) body, segs))) := by
  have plain := plain_statusLine word.2.1 text.2 code
  have atoiCode : atoi (decimal code) = some (code : Int) := by
    simpa using atoi_decimal (show ∀ c ∈ ([] : List Byte), isSpace c by simp) codeFits
      (show ∀ c ∈ ([] : List Byte).head?, isDigit c = false by simp)
  rw [recvResponse, headers]
  dsimp only
  rw [List.append_assoc, List.append_assoc, List.take_left, responseHead,
    crlfJoin_cons_cons' _ hasLines, strstr_line plain]
  dsimp only
  rw [List.take_left, statusTokens_statusLine word.1 word.2.2 text.1]
  dsimp only
  have ends (head : List Byte) : head.length + 4 = (head ++ crlf ++ crlf).length := by simp [crlf]
  rw [atoiCode, ← crlfJoin_cons_cons' _ hasLines, drop_crlfJoin_cons, ends, ← List.append_assoc,
    ← List.append_assoc, List.drop_left]
  rfl

theorem lineText_response {version statusText : List Byte} (word : version ≠ [] ∧ Plain version)
    (text : Plain statusText) (code : Nat) {lines : List (List Byte)}
    (lineText : ∀ line ∈ lines, line ≠ [] ∧ Plain line) :
    ∀ line ∈ statusLine version code statusText :: lines, line ≠ [] ∧ Plain line := by
  intro line mem
  rcases List.mem_cons.mp mem with rfl | mem
  · exact ⟨by simp [statusLine], plain_statusLine word.2 text code⟩
  · exact lineText line mem

theorem lineText_contentLength {before after : List (List Byte)}
    (lineText : ∀ line ∈ before ++ after, line ≠ [] ∧ Plain line) (n : Nat) :
    ∀ line ∈ before ++ contentLengthLine n :: after, line ≠ [] ∧ Plain line :=
  forall_mem_middle lineText ⟨by simp [contentLengthLine], plain_contentLengthLine _⟩

/-- A response with a `Content-Length` header that fits an `int`, whose head fits `recv_buf` and
whose segments all carry data, is read back whole: its code, its status text cut to 63 bytes, its
header lines and exactly its body, with what follows it left on the connection. -/
theorem recvResponse_contentLength {version statusText : List Byte} {code : Nat}
    (word : version ≠ [] ∧ Plain version ∧ ascii ' ' ∉ version)
    (text : statusText ≠ [] ∧ Plain statusText) (codeFits : code < 2 ^ 31)
    {before after : List (List Byte)} (lineText : ∀ line ∈ before ++ after, line ≠ [] ∧ Plain line)
    (absent : ∀ line ∈ before, strstr line contentLengthName = none)
    {body : List Byte} (bodyFits : body.length < 2 ^ 31)
    (fits : (responseHead version code statusText
      (before ++ contentLengthLine body.length :: after)).length + 4 < httpRecvBufferSize)
    {front back : List (List Byte)}
    (arrives : front.flatten = responseHead version code statusText
      (before ++ contentLengthLine body.length :: after) ++ crlf ++ crlf ++ body)
    (live : [] ∉ front ++ back) :
    ∃ left, recvResponse (front ++ back) = some (.ok (httpTestResponse code statusText
        (crlfJoin (before ++ contentLengthLine body.length :: after)) body, left)) ∧
      left.flatten = back.flatten := by
  obtain ⟨inBuf, front', headers, joined, live'⟩ := recvHeaders_crlfJoin
    (lineText_response ⟨word.1, word.2.1⟩ text.2 code (lineText_contentLength lineText _)) fits arrives live
  obtain ⟨left, got, flat⟩ := recvBody_prefix ⟨_, joined⟩ (by omega)
    (by rw [← joined, List.drop_left, List.flatten_append]) live'
  refine ⟨left, ?_, flat⟩
  have length : ((body.length : Int) % 2 ^ 64).toNat = body.length := by omega
  rw [recvResponse_parse word text codeFits (by simp) headers, contentLength_crlfJoin absent bodyFits]
  simp [-Int.reducePow, length, got, Except.map]

def httpVersion : List Byte := "HTTP/1.1".toList.map ascii

def statusOk : List Byte := "OK".toList.map ascii

def bodyHi : List Byte := "hi".toList.map ascii

def headHi : List Byte :=
  responseHead httpVersion 200 statusOk ([] ++ contentLengthLine bodyHi.length :: [])

theorem recvResponse_contentLength_hi :
    (httpVersion ≠ [] ∧ Plain httpVersion ∧ ascii ' ' ∉ httpVersion) ∧
    (statusOk ≠ [] ∧ Plain statusOk) ∧ 200 < 2 ^ 31 ∧
    (∀ line ∈ ([] : List (List Byte)) ++ [], line ≠ [] ∧ Plain line) ∧
    (∀ line ∈ ([] : List (List Byte)), strstr line contentLengthName = none) ∧
    bodyHi.length < 2 ^ 31 ∧ headHi.length + 4 < httpRecvBufferSize ∧
    [headHi ++ crlf ++ crlf ++ bodyHi].flatten = headHi ++ crlf ++ crlf ++ bodyHi ∧
    [] ∉ [headHi ++ crlf ++ crlf ++ bodyHi] ++ [] ∧
    ∃ left, recvResponse ([headHi ++ crlf ++ crlf ++ bodyHi] ++ []) =
      some (.ok (httpTestResponse 200 statusOk
        (crlfJoin ([] ++ contentLengthLine bodyHi.length :: [])) bodyHi, left)) ∧
      left.flatten = ([] : List (List Byte)).flatten := by
  have fits : headHi.length + 4 < httpRecvBufferSize := by
    simp [headHi, responseHead, statusLine, contentLengthLine, decimal, crlfJoin, contentLengthName,
      httpRecvBufferSize, httpVersion, statusOk, bodyHi]
  have live : [] ∉ [headHi ++ crlf ++ crlf ++ bodyHi] ++ [] := by simp [crlf]
  exact ⟨by decide, by decide, by decide, by decide, by decide, by decide, fits, by simp, live,
    recvResponse_contentLength (by decide) (by decide) (by decide) (by decide) (by decide) (by decide)
      fits (by simp [headHi]) live⟩

theorem recvResponse_noContentLength {version statusText : List Byte} {code : Nat}
    (word : version ≠ [] ∧ Plain version ∧ ascii ' ' ∉ version)
    (text : statusText ≠ [] ∧ Plain statusText) (codeFits : code < 2 ^ 31)
    {lines : List (List Byte)} (lineText : ∀ line ∈ lines, line ≠ [] ∧ Plain line)
    (hasLines : lines ≠ []) (absent : ∀ line ∈ lines, strstr line contentLengthName = none)
    (fits : (responseHead version code statusText lines).length + 4 < httpRecvBufferSize)
    {segs : List (List Byte)} {rest : List Byte}
    (arrives : segs.flatten = responseHead version code statusText lines ++ crlf ++ crlf ++ rest)
    (live : [] ∉ segs) :
    ∃ body left, recvResponse segs = some (.ok (httpTestResponse code statusText (crlfJoin lines) body,
      left)) ∧ body ++ left.flatten = rest := by
  obtain ⟨inBuf, front', headers, joined, -⟩ := recvHeaders_crlfJoin
    (lineText_response ⟨word.1, word.2.1⟩ text.2 code lineText) fits arrives
    (show [] ∉ segs ++ [] by simpa using live)
  rw [List.append_nil] at headers
  refine ⟨inBuf, front' ++ [], ?_, by simpa using joined⟩
  rw [recvResponse_parse word text codeFits hasLines headers, contentLength_crlfJoin_none absent]
  rfl

/-- A response whose head is a status line alone, with no header line, is rejected, however it
arrives. -/
theorem recvResponse_statusOnly {status : List Byte} (line : status ≠ [] ∧ Plain status)
    (fits : status.length + 4 < httpRecvBufferSize) {segs : List (List Byte)} {rest : List Byte}
    (arrives : segs.flatten = status ++ crlf ++ crlf ++ rest) (live : [] ∉ segs) :
    recvResponse segs = some (.error .errProtocol) := by
  obtain ⟨inBuf, front', headers, -, -⟩ := recvHeaders_crlfJoin
    (show ∀ l ∈ [status], l ≠ [] ∧ Plain l by simpa using line) fits arrives
    (show [] ∉ segs ++ [] by simpa using live)
  rw [List.append_nil] at headers
  rw [recvResponse, headers]
  dsimp only
  rw [crlfJoin, List.append_assoc, List.append_assoc, List.take_left, strstr_plain line.2]

theorem recvResponse_statusOnly_noContent :
    ("HTTP/1.1 204".toList.map ascii ≠ [] ∧ Plain ("HTTP/1.1 204".toList.map ascii)) ∧
    ("HTTP/1.1 204".toList.map ascii).length + 4 < httpRecvBufferSize ∧
    [("HTTP/1.1 204".toList.map ascii) ++ crlf ++ crlf].flatten =
      "HTTP/1.1 204".toList.map ascii ++ crlf ++ crlf ++ [] ∧
    [] ∉ [("HTTP/1.1 204".toList.map ascii) ++ crlf ++ crlf] ∧
    recvResponse [("HTTP/1.1 204".toList.map ascii) ++ crlf ++ crlf] = some (.error .errProtocol) := by
  have line : "HTTP/1.1 204".toList.map ascii ≠ [] ∧ Plain ("HTTP/1.1 204".toList.map ascii) := by
    decide
  have fits : ("HTTP/1.1 204".toList.map ascii).length + 4 < httpRecvBufferSize := by decide
  have arrives : [("HTTP/1.1 204".toList.map ascii) ++ crlf ++ crlf].flatten =
      "HTTP/1.1 204".toList.map ascii ++ crlf ++ crlf ++ [] := by simp
  exact ⟨line, fits, arrives, by simp, recvResponse_statusOnly line fits arrives (by simp)⟩

/-- With a positive `Content-Length` and more than one byte beyond it in the first read after the
head, the copy into the `content_length + 1` bytes of the body writes past them. -/
theorem recvResponse_overflow {version statusText : List Byte} {code : Nat}
    (word : version ≠ [] ∧ Plain version ∧ ascii ' ' ∉ version)
    (text : statusText ≠ [] ∧ Plain statusText) (codeFits : code < 2 ^ 31)
    {before after : List (List Byte)} (lineText : ∀ line ∈ before ++ after, line ≠ [] ∧ Plain line)
    (absent : ∀ line ∈ before, strstr line contentLengthName = none)
    {n : Nat} (positive : 0 < n) (lengthFits : n < 2 ^ 31) {extra : List Byte}
    (overflow : n + 1 < extra.length)
    (fits : (responseHead version code statusText (before ++ contentLengthLine n :: after) ++
      crlf ++ crlf ++ extra).length < httpRecvBufferSize) (more : List (List Byte)) :
    recvResponse ((responseHead version code statusText (before ++ contentLengthLine n :: after) ++
      crlf ++ crlf ++ extra) :: more) = none := by
  have headers := recvHeaders_segment
    (lineText_response ⟨word.1, word.2.1⟩ text.2 code (lineText_contentLength lineText n)) fits more
  have length : ((n : Int) % 2 ^ 64).toNat = n := by omega
  unfold responseHead
  rw [recvResponse_parse word text codeFits (by simp) headers, contentLength_crlfJoin absent lengthFits]
  simp only [Option.bind_eq_bind, Option.some_bind]
  rw [length, recvBody_overflow positive (by omega) overflow]
  rfl

def bodyAbc : List Byte := "abc".toList.map ascii

def overflowingAbc : List Byte :=
  responseHead httpVersion 200 statusOk ([] ++ contentLengthLine 1 :: []) ++ crlf ++ crlf ++ bodyAbc

theorem recvResponse_overflow_abc :
    (httpVersion ≠ [] ∧ Plain httpVersion ∧ ascii ' ' ∉ httpVersion) ∧
    (statusOk ≠ [] ∧ Plain statusOk) ∧ 200 < 2 ^ 31 ∧
    (∀ line ∈ ([] : List (List Byte)) ++ [], line ≠ [] ∧ Plain line) ∧
    (∀ line ∈ ([] : List (List Byte)), strstr line contentLengthName = none) ∧
    0 < 1 ∧ 1 < 2 ^ 31 ∧ 1 + 1 < bodyAbc.length ∧ overflowingAbc.length < httpRecvBufferSize ∧
    recvResponse [overflowingAbc] = none := by
  have fits : overflowingAbc.length < httpRecvBufferSize := by
    simp [overflowingAbc, responseHead, statusLine, contentLengthLine, decimal, crlfJoin,
      contentLengthName, crlf, httpRecvBufferSize, httpVersion, statusOk, bodyAbc]
  exact ⟨by decide, by decide, by decide, by decide, by decide, by decide, by decide, by decide, fits,
    recvResponse_overflow (by decide) (by decide) (by decide) (by decide) (by decide) (by decide)
      (by decide) (by decide) fits []⟩

theorem recvHeaders_flatten {buf buf' : List Byte} {segs segs' : List (List Byte)}
    {headerEnd : Option Nat} (h : recvHeaders buf segs = .ok (buf', headerEnd, segs'))
    (short : buf.length < httpRecvBufferSize) :
    buf' ++ segs'.flatten = buf ++ segs.flatten ∧ buf'.length < httpRecvBufferSize ∧
      ∀ e ∈ headerEnd, strstr (cString buf') (crlf ++ crlf) = some e := by
  induction buf, segs using recvHeaders.induct generalizing buf' segs' headerEnd with
  | case1 segs segs₁ within read =>
    rw [recvHeaders, if_pos within, read] at h; cases h
  | case2 buf segs within segs₁ read nonempty =>
    rw [recvHeaders, if_pos within, read] at h
    simp only [nonempty, if_false, Except.ok.injEq, Prod.mk.injEq] at h
    obtain ⟨rfl, rfl, rfl⟩ := h
    have flat := (recvData_flatten (httpRecvBufferSize - buf.length - 1) segs).1
    rw [read, List.nil_append] at flat
    exact ⟨by rw [flat], short, by simp⟩
  | case3 buf segs within b rest segs₁ read headerEnd found =>
    rw [recvHeaders, if_pos within, read] at h
    simp only [found, Except.ok.injEq, Prod.mk.injEq] at h
    obtain ⟨rfl, rfl, rfl⟩ := h
    obtain ⟨flat, taken⟩ := recvData_flatten (httpRecvBufferSize - buf.length - 1) segs
    rw [read] at flat taken
    simp only [List.length_append] at taken ⊢
    exact ⟨by rw [List.append_assoc, flat], by omega, by simpa using found⟩
  | case4 buf segs within b rest segs₁ read missing ih =>
    rw [recvHeaders, if_pos within, read] at h
    simp only [missing] at h
    obtain ⟨flat, taken⟩ := recvData_flatten (httpRecvBufferSize - buf.length - 1) segs
    rw [read] at flat taken
    obtain ⟨flat', short', found⟩ := ih h (by simp only [List.length_append] at taken ⊢; omega)
    exact ⟨by rw [flat', List.append_assoc, flat], short', found⟩
  | case5 buf segs long => exact absurd short long

theorem recvBody_flatten {n : Nat} {inBuf body : List Byte} {segs left : List (List Byte)}
    (h : recvBody n inBuf segs = some (.ok (body, left))) :
    ∃ dropped, inBuf ++ segs.flatten = body ++ dropped ++ left.flatten ∧ dropped.length ≤ 1 := by
  unfold recvBody at h
  by_cases positive : 0 < n
  swap
  · rw [if_neg positive] at h
    obtain ⟨rfl, rfl⟩ : inBuf = body ∧ segs = left := by simpa using h
    exact ⟨[], by simp, by simp⟩
  rw [if_pos positive] at h
  dsimp only at h
  split_ifs at h with overrun within small
  · obtain ⟨rfl, rfl⟩ : inBuf.take n = body ∧ segs = left := by simpa using h
    refine ⟨inBuf.drop n, by rw [List.take_append_drop], ?_⟩
    have := Nat.mod_le (n + 1) (2 ^ 64)
    simp only [List.length_drop]; omega
  · split at h <;> cases h
  · cases run : recvAll .errRecv .errProtocol (n - inBuf.length) segs with
    | error e => simp [run, Except.map] at h
    | ok r =>
      simp only [run, Except.map, Option.some.injEq, Except.ok.injEq, Prod.mk.injEq] at h
      obtain ⟨rfl, rfl⟩ := h
      exact ⟨[], by simp [(recvAll_flatten run).1], by simp⟩

theorem recvHeaders_error {buf : List Byte} {segs : List (List Byte)} {e : HttpTestClientErr}
    (h : recvHeaders buf segs = .error e) :
    buf = [] ∧ (recvData (httpRecvBufferSize - 1) segs).1 = [] := by
  induction buf, segs using recvHeaders.induct with
  | case1 segs segs₁ within read => exact ⟨rfl, by simpa using congrArg Prod.fst read⟩
  | case2 buf segs within segs₁ read nonempty =>
    rw [recvHeaders, if_pos within, read] at h; simp [nonempty] at h
  | case3 buf segs within b rest segs₁ read headerEnd found =>
    rw [recvHeaders, if_pos within, read] at h; simp [found] at h
  | case4 buf segs within b rest segs₁ read missing ih =>
    rw [recvHeaders, if_pos within, read] at h
    simp only [missing] at h
    exact absurd (ih h).1 (by simp)
  | case5 buf segs long => rw [recvHeaders, if_neg long] at h; cases h

theorem split_headerEnd {buf : List Byte} {headerEnd : Nat}
    (found : strstr (cString buf) (crlf ++ crlf) = some headerEnd) :
    buf = buf.take headerEnd ++ crlf ++ crlf ++ buf.drop (headerEnd + 4) := by
  obtain ⟨t, ht⟩ := (strstr_eq_some.mp found).1.trans
    ((show cString buf <+: buf from List.takeWhile_prefix _).drop headerEnd)
  have rest : buf.drop (headerEnd + 4) = t := by
    rw [← List.drop_drop, ← ht]; rfl
  calc buf = buf.take headerEnd ++ buf.drop headerEnd := (List.take_append_drop _ _).symm
    _ = _ := by rw [← ht, rest]; simp only [List.append_assoc]

/-- Whatever the connection holds and however it is split, a response that
`http_test_client_send_request` returns was read from the front of the connection: a head that fits
`recv_buf` and holds the headers returned, the empty line, the body, and what is left on the
connection follows in order. One byte can be lost between them: the byte after a `Content-Length`
body that came in with the head. -/
theorem recvResponse_consumes {segs left : List (List Byte)} {response : HttpTestResponse}
    (h : recvResponse segs = some (.ok (response, left))) :
    ∃ head dropped, segs.flatten = head ++ crlf ++ crlf ++ response.body ++ dropped ++ left.flatten ∧
      head.length + 4 < httpRecvBufferSize ∧ response.headers <:+ head ∧ dropped.length ≤ 1 := by
  unfold recvResponse at h
  split at h
  · cases h
  · cases h
  next buf headerEnd segs' headersRead =>
  obtain ⟨flat, short, found⟩ := recvHeaders_flatten headersRead (by decide)
  have whole := split_headerEnd (found headerEnd rfl)
  dsimp only at h
  split at h
  · cases h
  next statusLineEnd lineEnd =>
  split at h
  · cases h
  next version code text tokens =>
  obtain ⟨statusCode, -, h⟩ := Option.bind_eq_some.mp h
  obtain ⟨contentLength, -, h⟩ := Option.bind_eq_some.mp h
  obtain ⟨result, body, h⟩ := Option.bind_eq_some.mp h
  cases result with
  | error e => cases h
  | ok r =>
    obtain ⟨bytes, left'⟩ := r
    obtain ⟨rfl, rfl⟩ : httpTestResponse statusCode text
        ((buf.take headerEnd).drop (statusLineEnd + 2)) bytes = response ∧ left' = left := by
      simpa [Except.map] using h
    obtain ⟨dropped, bodyFlat, dropShort⟩ := recvBody_flatten body
    have long := congrArg List.length whole
    simp only [List.length_append, List.length_take, List.length_drop, crlf, List.length_cons,
      List.length_nil] at long
    refine ⟨buf.take headerEnd, dropped, ?_, by simp only [List.length_take]; omega,
      List.drop_suffix _ _, dropShort⟩
    calc segs.flatten = buf ++ segs'.flatten := by rw [flat, List.nil_append]
      _ = buf.take headerEnd ++ crlf ++ crlf ++ (buf.drop (headerEnd + 4) ++ segs'.flatten) := by
        conv_lhs => rw [whole]
        simp only [List.append_assoc]
      _ = _ := by rw [bodyFlat]; simp only [httpTestResponse, List.append_assoc]

/-- A response whose end of headers is not in the string its first `HTTP_RECV_BUFFER_SIZE - 1`
bytes hold, because its head is longer or holds a NUL, is rejected with
`HTTP_TEST_CLIENT_ERR_PROTOCOL` once its first read brings data, however the rest arrives. -/
theorem recvResponse_noHeaderEnd {segs : List (List Byte)} (first : segs.headD [] ≠ [])
    (noEnd : strstr (cString (segs.flatten.take (httpRecvBufferSize - 1))) (crlf ++ crlf) = none) :
    recvResponse segs = some (.error .errProtocol) := by
  unfold recvResponse
  split
  next e headersRead =>
    obtain ⟨-, nothing⟩ := recvHeaders_error headersRead
    cases segs with
    | nil => exact absurd rfl first
    | cons seg rest =>
      simp only [recvData, List.take_eq_nil_iff, httpRecvBufferSize] at nothing
      exact absurd (nothing.resolve_left (by decide)) first
  · rfl
  next buf headerEnd segs' headersRead =>
    obtain ⟨flat, short, found⟩ := recvHeaders_flatten headersRead (by decide)
    have held : buf <+: segs.flatten.take (httpRecvBufferSize - 1) :=
      List.prefix_take_iff.mpr ⟨⟨_, by simpa using flat⟩, by omega⟩
    exact absurd ((strstr_eq_some.mp (found headerEnd rfl)).1.trans ((cString_mono held).drop _))
      ((strstr_eq_none (by simp [crlf])).mp noEnd headerEnd)

theorem recvResponse_noHeaderEnd_nul :
    [("HTTP/1.1 200 OK".toList.map ascii ++ 0 :: crlf ++ crlf)].headD [] ≠ [] ∧
    strstr (cString ([("HTTP/1.1 200 OK".toList.map ascii ++ 0 :: crlf ++ crlf)].flatten.take
      (httpRecvBufferSize - 1))) (crlf ++ crlf) = none ∧
    recvResponse [("HTTP/1.1 200 OK".toList.map ascii ++ 0 :: crlf ++ crlf)] =
      some (.error .errProtocol) := by
  have first : [("HTTP/1.1 200 OK".toList.map ascii ++ 0 :: crlf ++ crlf)].headD [] ≠ [] := by
    decide
  have noEnd : strstr (cString ([("HTTP/1.1 200 OK".toList.map ascii ++ 0 :: crlf ++ crlf)].flatten.take
      (httpRecvBufferSize - 1))) (crlf ++ crlf) = none := by decide
  exact ⟨first, noEnd, recvResponse_noHeaderEnd first noEnd⟩

theorem recvResponse_consumes_dropped :
    recvResponse [responseHead ("HTTP/1.1".toList.map ascii) 200 ("OK".toList.map ascii)
        [contentLengthLine 2] ++ crlf ++ crlf ++ "hi!".toList.map ascii] =
      some (.ok (httpTestResponse 200 ("OK".toList.map ascii) (crlfJoin [contentLengthLine 2])
        ("hi".toList.map ascii), [])) ∧
    ∃ head dropped, [responseHead ("HTTP/1.1".toList.map ascii) 200 ("OK".toList.map ascii)
        [contentLengthLine 2] ++ crlf ++ crlf ++ "hi!".toList.map ascii].flatten =
      head ++ crlf ++ crlf ++ (httpTestResponse 200 ("OK".toList.map ascii)
        (crlfJoin [contentLengthLine 2]) ("hi".toList.map ascii)).body ++ dropped ++
        ([] : List (List Byte)).flatten ∧
      head.length + 4 < httpRecvBufferSize ∧
      (httpTestResponse 200 ("OK".toList.map ascii) (crlfJoin [contentLengthLine 2])
        ("hi".toList.map ascii)).headers <:+ head ∧ dropped.length ≤ 1 := by
  have word : "HTTP/1.1".toList.map ascii ≠ [] ∧ Plain ("HTTP/1.1".toList.map ascii) ∧
      ascii ' ' ∉ "HTTP/1.1".toList.map ascii := by decide
  have text : "OK".toList.map ascii ≠ [] ∧ Plain ("OK".toList.map ascii) := by decide
  have fits : (crlfJoin [statusLine ("HTTP/1.1".toList.map ascii) 200 ("OK".toList.map ascii),
      contentLengthLine 2] ++ crlf ++ crlf ++ "hi!".toList.map ascii).length < httpRecvBufferSize := by
    simp [statusLine, contentLengthLine, decimal, crlfJoin, contentLengthName, crlf,
      httpRecvBufferSize]
  have lines : ∀ line ∈ [contentLengthLine 2], line ≠ [] ∧ Plain line := by
    simp only [List.mem_singleton, forall_eq]
    exact ⟨by simp [contentLengthLine], plain_contentLengthLine 2⟩
  have headers := recvHeaders_segment (lineText_response ⟨word.1, word.2.1⟩ text.2 200 lines) fits []
  have cl : contentLength (crlfJoin [contentLengthLine 2]) = some 2 :=
    contentLength_crlfJoin (show ∀ line ∈ ([] : List (List Byte)), strstr line contentLengthName = none
      by simp) (by decide) []
  have run : recvResponse [responseHead ("HTTP/1.1".toList.map ascii) 200 ("OK".toList.map ascii)
      [contentLengthLine 2] ++ crlf ++ crlf ++ "hi!".toList.map ascii] =
      some (.ok (httpTestResponse 200 ("OK".toList.map ascii) (crlfJoin [contentLengthLine 2])
        ("hi".toList.map ascii), [])) := by
    unfold responseHead
    rw [recvResponse_parse word text (by decide) (by simp) headers, cl]; rfl
  exact ⟨run, recvResponse_consumes run⟩

end TestClient
