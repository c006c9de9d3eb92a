import HttpServer.TestClient.Connection

/- `send_data` of `http_test_client.c`: the loop that hands a buffer to `send` until all of it has
gone out. Each call takes some of the bytes it is asked for, or fails. `int bytes_left = len` keeps
the length modulo `2^32`, as gcc converts it; a call asked to read past the buffer, and a
`bytes_left -= ret` that overflows, are undefined behaviour: `none`. -/
namespace TestClient
open HttpServer

/-- What one `send` call does with the bytes it is asked for: take the first `n` of them, or fail
with `errno` `EWOULDBLOCK`, `EAGAIN` or `EINTR` (`wouldBlock`) or another (`failed`). A call takes
fewer than `2^31` bytes, so that `int ret` holds the count: Linux caps one below `INT_MAX`. -/
inductive SendOutcome
  | accepted (n : Fin (2 ^ 31))
  | wouldBlock
  | failed
  deriving DecidableEq, Repr

/-- A `size_t` converted to `int`, modulo `2^32` as gcc does. -/
def toInt32 (v : Nat) : Int := ((v : Int) + 2 ^ 31) % 2 ^ 32 - 2 ^ 31

/-- The `while (total_sent < len)` loop of `send_data(sockfd, data, len, timeout_ms)` from
`total_sent` and `bytes_left`, over the outcomes of its `send` calls: the bytes the socket took, in
order, and the code returned; `none` also where the outcomes run out first. -/
def sendLoop (data : List Byte) :
    Nat → Int → List SendOutcome → Option (List Byte × Except HttpTestClientErr Unit)
  | totalSent, bytesLeft, outcomes =>
    if totalSent < data.length then
      match outcomes with
      | [] => none
      | .wouldBlock :: _ => some ([], .error .errTimeout)
      | .failed :: _ => some ([], .error .errSend)
      | .accepted n :: outcomes =>
        let ret := min n.val (bytesLeft % 2 ^ 64).toNat
        if data.length < totalSent + ret ∨ bytesLeft - ret < -2 ^ 31 then none
        else (sendLoop data (totalSent + ret) (bytesLeft - ret) outcomes).map
          fun r => ((data.drop totalSent).take ret ++ r.1, r.2)
    else some ([], .ok ())

/-- `send_data(sockfd, data, len, timeout_ms)` with `len` the length of `data`. -/
def sendData (data : List Byte) (outcomes : List SendOutcome) :
    Option (List Byte × Except HttpTestClientErr Unit) :=
  sendLoop data 0 (toInt32 data.length) outcomes

/-- What `send_data` is for: the bytes go out in order, each call taking the next of those left,
until none is left or a call fails. -/
def transmit : List Byte → List SendOutcome → Option (List Byte × Except HttpTestClientErr Unit)
  | [], _ => some ([], .ok ())
  | _ :: _, [] => none
  | _ :: _, .wouldBlock :: _ => some ([], .error .errTimeout)
  | _ :: _, .failed :: _ => some ([], .error .errSend)
  | data@(_ :: _), .accepted n :: outcomes =>
    (transmit (data.drop n) outcomes).map fun r => (data.take n ++ r.1, r.2)

theorem sendLoop_sent_all (data : List Byte) (bytesLeft : Int) (outcomes : List SendOutcome) :
    sendLoop data data.length bytesLeft outcomes = some ([], .ok ()) := by
  unfold sendLoop; exact if_neg (lt_irrefl _)

theorem sendLoop_wouldBlock {data : List Byte} {totalSent : Nat} (pending : totalSent < data.length)
    (bytesLeft : Int) (outcomes : List SendOutcome) :
    sendLoop data totalSent bytesLeft (.wouldBlock :: outcomes) = some ([], .error .errTimeout) := by
  rw [sendLoop, if_pos pending]

theorem sendLoop_failed {data : List Byte} {totalSent : Nat} (pending : totalSent < data.length)
    (bytesLeft : Int) (outcomes : List SendOutcome) :
    sendLoop data totalSent bytesLeft (.failed :: outcomes) = some ([], .error .errSend) := by
  rw [sendLoop, if_pos pending]

theorem transmit_accepted_cons {data : List Byte} (nonempty : data ≠ []) (n : Fin (2 ^ 31))
    (outcomes : List SendOutcome) :
    transmit data (.accepted n :: outcomes) =
      (transmit (data.drop n) outcomes).map fun r => (data.take n ++ r.1, r.2) := by
  obtain ⟨c, rest, rfl⟩ := List.exists_cons_of_ne_nil nonempty
  rfl

theorem transmit_in_order {data sent : List Byte} {outcomes : List SendOutcome}
    {r : Except HttpTestClientErr Unit} (h : transmit data outcomes = some (sent, r)) :
    sent <+: data ∧ (r = .ok () ↔ sent = data) := by
  induction data, outcomes using transmit.induct generalizing sent r with
  | case1 | case2 | case3 | case4 => simp_all [transmit, eq_comm]
  | case5 c rest n outcomes ih =>
    rw [transmit_accepted_cons (List.cons_ne_nil c rest)] at h
    obtain ⟨⟨sent', r'⟩, run, eq⟩ := Option.map_eq_some'.mp h
    simp only [Prod.mk.injEq] at eq
    obtain ⟨rfl, rfl⟩ := eq
    obtain ⟨front, ok⟩ := ih run
    have whole := List.take_append_drop n (c :: rest)
    generalize (c :: rest).take n = pre, (c :: rest).drop n = post at whole front ok ⊢
    rw [← whole]
    exact ⟨(List.prefix_append_right_inj pre).mpr front, by rw [ok, List.append_cancel_left_eq]⟩

theorem transmit_accepted (ns : List (Fin (2 ^ 31))) (more : List SendOutcome) (data : List Byte)
    (enough : data.length ≤ (ns.map Fin.val).sum) :
    transmit data (ns.map .accepted ++ more) = some (data, .ok ()) := by
  induction ns generalizing data with
  | nil => simp_all [transmit]
  | cons n ns ih =>
    cases data with
    | nil => rfl
    | cons c rest =>
      rw [List.map_cons, List.cons_append,
        transmit_accepted_cons (List.cons_ne_nil c rest),
        ih _ (by simp at enough ⊢; omega)]
      simp

theorem take_min_length (l : List Byte) (n : Nat) : l.take (min n l.length) = l.take n := by
  rw [← List.take_take, List.take_length]

theorem drop_min_length (l : List Byte) (n : Nat) : l.drop (min n l.length) = l.drop n := by
  rcases le_total n l.length with h | h
  · rw [min_eq_left h]
  · rw [min_eq_right h, List.drop_length, List.drop_eq_nil_of_le h]

theorem sendLoop_eq_transmit {data : List Byte} (small : data.length < 2 ^ 31)
    (outcomes : List SendOutcome) (totalSent : Nat) (within : totalSent ≤ data.length) :
    sendLoop data totalSent ((data.length - totalSent : Nat) : Int) outcomes =
      transmit (data.drop totalSent) outcomes := by
  induction outcomes generalizing totalSent with
  | nil =>
    rcases within.lt_or_eq with less | rfl
    · obtain ⟨c, rest, left⟩ := List.exists_cons_of_ne_nil
        (show data.drop totalSent ≠ [] by simp; omega)
      rw [sendLoop, if_pos less, left]; rfl
    · rw [sendLoop_sent_all, List.drop_length, transmit]
  | cons outcome outcomes ih =>
    rcases within.lt_or_eq with less | rfl
    swap
    · rw [sendLoop_sent_all, List.drop_length, transmit]
    have nonempty : data.drop totalSent ≠ [] := by simp; omega
    obtain ⟨c, rest, left⟩ := List.exists_cons_of_ne_nil nonempty
    cases outcome with
    | wouldBlock => rw [sendLoop_wouldBlock less, left]; rfl
    | failed => rw [sendLoop_failed less, left]; rfl
    | accepted n =>
      have asked : (((data.length - totalSent : Nat) : Int) % 2 ^ 64).toNat =
          (data.drop totalSent).length := by simp; omega
      have next : ((data.length - totalSent : Nat) : Int) - (min n.val (data.length - totalSent) : Nat) =
          ((data.length - (totalSent + min n.val (data.length - totalSent)) : Nat) : Int) := by
        omega
      rw [sendLoop, if_pos less]
      simp only [asked, List.length_drop]
      rw [if_neg (by omega), next, ih _ (by omega), ← List.drop_drop,
        ← List.length_drop, drop_min_length, take_min_length,
        transmit_accepted_cons nonempty]

/-- Below `2^31` bytes `send_data` is the transmission of its buffer. -/
theorem sendData_eq_transmit {data : List Byte} (small : data.length < 2 ^ 31)
    (outcomes : List SendOutcome) : sendData data outcomes = transmit data outcomes := by
  have start : toInt32 data.length = ((data.length - 0 : Nat) : Int) := by
    unfold toInt32; omega
  rw [sendData, start, sendLoop_eq_transmit small outcomes 0 (Nat.zero_le _), List.drop_zero]

/-- On a buffer under `2^31` bytes, `send_data` hands the socket the front of the buffer, in order
and without repeats, and returns `HTTP_TEST_CLIENT_OK` exactly when that is all of it. -/
theorem sendData_in_order {data sent : List Byte} {outcomes : List SendOutcome}
    {r : Except HttpTestClientErr Unit} (small : data.length < 2 ^ 31)
    (h : sendData data outcomes = some (sent, r)) :
    sent <+: data ∧ (r = .ok () ↔ sent = data) :=
  transmit_in_order (sendData_eq_transmit small outcomes ▸ h)

theorem sendData_in_order_partial :
    ("abc".toList.map ascii).length < 2 ^ 31 ∧
    sendData ("abc".toList.map ascii) [.accepted 2, .wouldBlock] =
      some ("ab".toList.map ascii, .error .errTimeout) ∧
    ("ab".toList.map ascii <+: "abc".toList.map ascii ∧
      ((.error .errTimeout : Except HttpTestClientErr Unit) = .ok () ↔
        "ab".toList.map ascii = "abc".toList.map ascii)) := by
  have run : sendData ("abc".toList.map ascii) [.accepted 2, .wouldBlock] =
      some ("ab".toList.map ascii, .error .errTimeout) := by decide
  exact ⟨by decide, run, sendData_in_order (by decide) run⟩

/-- On a buffer under `2^31` bytes, `send_data` resumes after partial sends: when the socket takes
at least the whole buffer over its calls before any fails, all of it goes out, in order, and
`send_data` returns `HTTP_TEST_CLIENT_OK`. -/
theorem sendData_completes {data : List Byte} (small : data.length < 2 ^ 31)
    (ns : List (Fin (2 ^ 31))) (more : List SendOutcome) (enough : data.length ≤ (ns.map Fin.val).sum) :
    sendData data (ns.map .accepted ++ more) = some (data, .ok ()) := by
  rw [sendData_eq_transmit small, transmit_accepted ns more data enough]

theorem sendData_completes_split :
    ("abc".toList.map ascii).length < 2 ^ 31 ∧
    ("abc".toList.map ascii).length ≤ (([1, 0, 5] : List (Fin (2 ^ 31))).map Fin.val).sum ∧
    sendData ("abc".toList.map ascii) (([1, 0, 5] : List (Fin (2 ^ 31))).map .accepted ++ [.failed]) =
      some ("abc".toList.map ascii, .ok ()) :=
  ⟨by decide, by decide, sendData_completes (by decide) _ _ (by decide)⟩

theorem sendLoop_short {data sent : List Byte} {r : Except HttpTestClientErr Unit}
    (outcomes : List SendOutcome) (totalSent : Nat) (bytesLeft : Int)
    (short : totalSent + bytesLeft + 2 ^ 31 < data.length) (floor : -2 ^ 31 ≤ bytesLeft)
    (h : sendLoop data totalSent bytesLeft outcomes = some (sent, r)) : r ≠ .ok () := by
  induction outcomes generalizing totalSent bytesLeft sent with
  | nil => rw [sendLoop, if_pos (by omega)] at h; cases h
  | cons outcome outcomes ih =>
    cases outcome with
    | wouldBlock => rw [sendLoop_wouldBlock (by omega)] at h; cases h; simp
    | failed => rw [sendLoop_failed (by omega)] at h; cases h; simp
    | accepted n =>
      rw [sendLoop, if_pos (by omega)] at h
      simp only at h
      split_ifs at h with bad
      obtain ⟨⟨sent', r'⟩, run, eq⟩ := Option.map_eq_some'.mp h
      obtain ⟨-, rfl⟩ := Prod.mk.inj eq
      exact ih _ _ (by push_cast; omega) (by omega) run

/-- From `2^31` bytes on, `int bytes_left = len` starts below what is left to send, so
`send_data` never returns `HTTP_TEST_CLIENT_OK`, whatever the socket does: it fails, keeps
calling `send` for nothing, or overflows `bytes_left`. -/
theorem sendData_large {data sent : List Byte} {outcomes : List SendOutcome}
    {r : Except HttpTestClientErr Unit} (large : 2 ^ 31 ≤ data.length)
    (h : sendData data outcomes = some (sent, r)) : r ≠ .ok () :=
  sendLoop_short outcomes 0 _ (by unfold toInt32; omega) (by unfold toInt32; omega) h

theorem sendData_large_blocked :
    2 ^ 31 ≤ (List.replicate (2 ^ 31) (0 : Byte)).length ∧
    sendData (List.replicate (2 ^ 31) 0) [.wouldBlock] = some ([], .error .errTimeout) ∧
    (.error .errTimeout : Except HttpTestClientErr Unit) ≠ .ok () := by
  have large : 2 ^ 31 ≤ (List.replicate (2 ^ 31) (0 : Byte)).length := by
    rw [List.length_replicate]
  have blocked : sendData (List.replicate (2 ^ 31) 0) [.wouldBlock] =
      some ([], .error .errTimeout) :=
    sendLoop_wouldBlock (lt_of_lt_of_le (Nat.two_pow_pos 31) large) _ _
  exact ⟨large, blocked, sendData_large large blocked⟩

end TestClient
