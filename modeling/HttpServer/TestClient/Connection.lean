import HttpServer.Basic

/- The connection the test client `http_test_client.c` reads from, as the segments in which its
data arrives. One `recv` returns at most the bytes asked for, from the segment at hand; an empty
segment is a read that timed out and the end of the list a closed connection. `recv_data` returns
`0` for both, and a bare `recv` `-1` for a timeout and `0` for a close. Reads never fail
otherwise. -/
namespace TestClient
open HttpServer

/-- The codes of `http_test_client_err_t` that the modelled paths return, besides
`HTTP_TEST_CLIENT_OK`. -/
inductive HttpTestClientErr
  | errSend
  | errRecv
  | errTimeout
  | errProtocol
  deriving DecidableEq, Repr

instance decidableEqExcept {ε α : Type} [DecidableEq ε] [DecidableEq α] :
    DecidableEq (Except ε α)
  | .error x, .error y => decidable_of_iff (x = y) (by simp)
  | .ok x, .ok y => decidable_of_iff (x = y) (by simp)
  | .error _, .ok _ => isFalse (by simp)
  | .ok _, .error _ => isFalse (by simp)

theorem exceptMap_eq_ok {ε α β : Type} {f : α → β} {x : Except ε α} {b : β} (h : x.map f = .ok b) :
    ∃ a, x = .ok a ∧ f a = b := by
  cases x with
  | error e => cases h
  | ok a => exact ⟨a, rfl, Except.ok.inj h⟩

/-- `recv_data` asking for `n` bytes: what it wrote, and the segments left. -/
def recvData (n : Nat) : List (List Byte) → List Byte × List (List Byte)
  | [] => ([], [])
  | seg :: segs => (seg.take n, if n < seg.length then seg.drop n :: segs else segs)

/-- A loop that reads until `need` more bytes have arrived, returning `timedOut` where a read times
out and `closed` where the connection closes: the bytes read and the segments left. Each pass
reads from the segment at hand, and either completes the bytes or empties the segment. -/
def recvAll (timedOut closed : HttpTestClientErr) :
    Nat → List (List Byte) → Except HttpTestClientErr (List Byte × List (List Byte))
  | 0, segs => .ok ([], segs)
  | _ + 1, [] => .error closed
  | need + 1, seg :: segs =>
    if seg = [] then .error timedOut
    else if need + 1 < seg.length then .ok (seg.take (need + 1), seg.drop (need + 1) :: segs)
    else (recvAll timedOut closed (need + 1 - seg.length) segs).map fun r => (seg ++ r.1, r.2)

theorem recvData_append (n : Nat) (seg : List Byte) (front back : List (List Byte)) :
    recvData n (seg :: front ++ back) =
      ((recvData n (seg :: front)).1, (recvData n (seg :: front)).2 ++ back) := by
  rw [List.cons_append, recvData, recvData]; split <;> rfl

theorem live_recvData {segs : List (List Byte)} (live : [] ∉ segs) (n : Nat) :
    [] ∉ (recvData n segs).2 := by
  cases segs with
  | nil => simp [recvData]
  | cons seg segs =>
    simp only [recvData]; split
    · simp_all [eq_comm, List.drop_eq_nil_iff]
    · exact fun mem => live (List.mem_cons_of_mem _ mem)

theorem recvData_flatten (n : Nat) (segs : List (List Byte)) :
    (recvData n segs).1 ++ (recvData n segs).2.flatten = segs.flatten ∧
      (recvData n segs).1.length ≤ n := by
  cases segs with
  | nil => simp [recvData]
  | cons seg segs =>
    refine ⟨?_, List.length_take_le _ _⟩
    simp only [recvData]
    split
    · simp [← List.append_assoc]
    · simp [List.take_of_length_le (show seg.length ≤ n by omega)]

theorem recvAll_live {segs : List (List Byte)} (live : [] ∉ segs) (timedOut closed : HttpTestClientErr)
    (need : Nat) (enough : need ≤ segs.flatten.length) :
    ∃ left, recvAll timedOut closed need segs = .ok (segs.flatten.take need, left) ∧
      left.flatten = segs.flatten.drop need ∧ [] ∉ left := by
  induction segs generalizing need with
  | nil =>
    obtain rfl : need = 0 := by simpa using enough
    exact ⟨[], rfl, rfl, by simp⟩
  | cons seg segs ih =>
    have nonempty : seg ≠ [] := fun h => live (h ▸ List.mem_cons_self _ _)
    have rest : [] ∉ segs := fun h => live (List.mem_cons_of_mem _ h)
    cases need with
    | zero => exact ⟨seg :: segs, rfl, by simp, live⟩
    | succ need =>
      simp only [List.flatten_cons, List.length_append] at enough ⊢
      by_cases within : need + 1 < seg.length
      · refine ⟨seg.drop (need + 1) :: segs, ?_, ?_, ?_⟩
        · simp [recvAll, nonempty, within, List.take_append_of_le_length within.le]
        · simp [List.drop_append_of_le_length within.le]
        · simp [rest, eq_comm, List.drop_eq_nil_iff]; omega
      · obtain ⟨left, run, flat, live'⟩ := ih rest (need + 1 - seg.length) (by omega)
        refine ⟨left, ?_, ?_, live'⟩
        · simp [recvAll, nonempty, within, run, Except.map, List.take_append_eq_append_take,
            List.take_of_length_le (show seg.length ≤ need + 1 by omega)]
        · simp [flat, List.drop_append_eq_append_drop,
            List.drop_eq_nil_of_le (show seg.length ≤ need + 1 by omega)]

theorem recvAll_flatten {timedOut closed : HttpTestClientErr} {need : Nat}
    {segs : List (List Byte)} {bytes : List Byte} {left : List (List Byte)}
    (h : recvAll timedOut closed need segs = .ok (bytes, left)) :
    bytes ++ left.flatten = segs.flatten ∧ bytes.length = need := by
  induction segs generalizing need bytes with
  | nil => cases need <;> simp_all [recvAll]
  | cons seg segs ih =>
    cases need with
    | zero => simp_all [recvAll]
    | succ need =>
      simp only [recvAll] at h
      split_ifs at h with empty within
      · cases h; exact ⟨by simp [← List.append_assoc], by simp; omega⟩
      · cases run : recvAll timedOut closed (need + 1 - seg.length) segs with
        | error e => simp [run, Except.map] at h
        | ok r =>
          simp only [run, Except.map, Except.ok.injEq, Prod.mk.injEq] at h
          obtain ⟨rfl, rfl⟩ := h
          obtain ⟨flat, len⟩ := ih run
          simp [← flat, len]; omega

end TestClient
