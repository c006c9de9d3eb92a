import HttpServer.TestClient.CString

/- `http_test_client_get_header` of `http_test_client.c` and its `strncasecmp_custom`, over the
C strings of `TestClient.CString`. The copy's allocation does not fail. -/
namespace TestClient
open HttpServer

/-- `strncasecmp_custom(s1, s2, n)`. -/
def strncasecmpCustom : List Byte → List Byte → Nat → Int
  | _, _, 0 => 0
  | s1, s2, n + 1 =>
    let c1 := toLower (s1.headD 0)
    let c2 := toLower (s2.headD 0)
    if c1 ≠ c2 then (c1.toNat : Int) - c2.toNat
    else if c1 = 0 then 0
    else strncasecmpCustom s1.tail s2.tail n

def isBlank (c : Byte) : Bool := c == ascii ' ' || c == ascii '\t'

/-- The `while (current_pos && *current_pos != '\0')` loop from `current_pos`: the value it
copies, or `none` where it returns `NULL`. -/
def getHeaderFrom (name : List Byte) : List Byte → Option (List Byte)
  | [] => none
  | pos@(_ :: _) =>
    if strncasecmpCustom name pos name.length = 0 ∧ pos.getD name.length 0 = ascii ':' then
      let valueStart := (pos.drop (name.length + 1)).dropWhile isBlank
      some (match strstr valueStart crlf with
        | some valueLen => valueStart.take valueLen
        | none => valueStart)
    else match strstr pos crlf with
      | some i => getHeaderFrom name (pos.drop (i + 2))
      | none => none
termination_by pos => pos.length

/-- `http_test_client_get_header(response, header_name)` on the bytes of `response->headers`. -/
def httpTestClientGetHeader (headers headerName : List Byte) : Option (List Byte) :=
  getHeaderFrom headerName headers

def headerValue (name line : List Byte) : Option (List Byte) :=
  if (line.take name.length).map toLower = name.map toLower ∧ line.getD name.length 0 = ascii ':'
  then some ((line.drop (name.length + 1)).dropWhile isBlank) else none

theorem headD_of_lineEnd {rest : List Byte} (ends : LineEnd rest) :
    rest.headD 0 = 0 ∨ rest.headD 0 = ascii '\r' := by
  rcases ends with rfl | ⟨more, rfl⟩ <;> simp

theorem toNat_sub_ne_zero {a b : Byte} (h : a ≠ b) : (a.toNat : Int) - b.toNat ≠ 0 := by
  rw [Ne, sub_eq_zero, Nat.cast_inj, ← BitVec.toNat_eq]; exact h

theorem strncasecmpCustom_eq_zero_iff (s1 s2 : List Byte) (n : Nat) :
    strncasecmpCustom s1 s2 n = 0 ↔
      ((cString s1).take n).map toLower = ((cString s2).take n).map toLower := by
  induction n generalizing s1 s2 with
  | zero => simp [strncasecmpCustom]
  | succ n ih =>
    have zero : toLower 0 = 0 := by decide
    rw [cString_eq_headD s1, cString_eq_headD s2]
    by_cases end1 : s1.headD 0 = 0 <;> by_cases end2 : s2.headD 0 = 0
    · simp only [strncasecmpCustom, end1, end2, zero, ne_eq, not_true_eq_false, if_false, if_true,
        List.take_nil, List.map_nil]
    · have differ : toLower (s1.headD 0) ≠ toLower (s2.headD 0) := by
        rw [end1, zero, Ne, eq_comm, toLower_eq_zero]; exact end2
      simp only [strncasecmpCustom, if_pos differ, if_pos end1, if_neg end2]
      exact iff_of_false (toNat_sub_ne_zero differ) (by simp)
    · have differ : toLower (s1.headD 0) ≠ toLower (s2.headD 0) := by
        rw [end2, zero, Ne, toLower_eq_zero]; exact end1
      simp only [strncasecmpCustom, if_pos differ, if_neg end1, if_pos end2]
      exact iff_of_false (toNat_sub_ne_zero differ) (by simp)
    · simp only [strncasecmpCustom, if_neg end1, if_neg end2, List.take_succ_cons, List.map_cons,
        List.cons.injEq]
      by_cases same : toLower (s1.headD 0) = toLower (s2.headD 0)
      · rw [if_neg (not_not.mpr same), if_neg (mt (toLower_eq_zero _).mp end1), ih]
        simp only [same, true_and]
      · rw [if_pos same]
        exact iff_of_false (toNat_sub_ne_zero same) fun h => same h.1

theorem strncasecmp_line {name line rest : List Byte} (plainName : Plain name)
    (plainLine : Plain line) (ends : LineEnd rest) :
    strncasecmpCustom name (line ++ rest) name.length = 0 ↔
      (line.take name.length).map toLower = name.map toLower := by
  have nul {s : List Byte} (plain : Plain s) : 0 ∉ s := fun h => (plain 0 h).2 rfl
  rw [strncasecmpCustom_eq_zero_iff, cString_eq_self (nul plainName), List.take_length,
    cString_append (nul plainLine), eq_comm]
  rcases le_or_lt name.length line.length with within | beyond
  · rw [List.take_append_of_le_length within]
  have short : (line.take name.length).map toLower ≠ name.map toLower := fun h => by
    have := congrArg List.length h; simp at this; omega
  refine iff_of_false (fun h => ?_) short
  rcases ends with rfl | ⟨more, rfl⟩
  · exact short (by simpa using h)
  · rw [List.take_append_eq_append_take, List.take_of_length_le beyond.le, cString_eq_headD,
      List.headD_cons, if_neg (show ¬ ascii '\r' = 0 by decide),
      show name.length - line.length = (name.length - line.length - 1) + 1 by omega] at h
    have cr : toLower (ascii '\r') ∈ name.map toLower := by
      rw [← h]; simp
    obtain ⟨c, mem, lower⟩ := List.mem_map.mp cr
    exact (plainName c mem).1 ((toLower_eq_cr c).mp (lower.trans (by decide)))

/-- On strings without NUL, `strncasecmp_custom` returns 0 exactly when their first `n` bytes
agree without regard to case, a shorter string agreeing only with one as short. -/
theorem strncasecmpCustom_eq_zero {s1 s2 : List Byte} (nul1 : 0 ∉ s1) (nul2 : 0 ∉ s2) (n : Nat) :
    strncasecmpCustom s1 s2 n = 0 ↔ (s1.take n).map toLower = (s2.take n).map toLower := by
  rw [strncasecmpCustom_eq_zero_iff, cString_eq_self nul1, cString_eq_self nul2]

theorem strncasecmpCustom_eq_zero_host :
    0 ∉ "Host".toList.map ascii ∧ 0 ∉ "HOST: x".toList.map ascii ∧
    (strncasecmpCustom ("Host".toList.map ascii) ("HOST: x".toList.map ascii) 4 = 0 ↔
      (("Host".toList.map ascii).take 4).map toLower = (("HOST: x".toList.map ascii).take 4).map toLower) :=
  ⟨by decide, by decide, strncasecmpCustom_eq_zero (by decide) (by decide) 4⟩

theorem lineMatches_iff {name line rest : List Byte} (plainName : Plain name)
    (plainLine : Plain line) (ends : LineEnd rest) :
    (strncasecmpCustom name (line ++ rest) name.length = 0 ∧
      (line ++ rest).getD name.length 0 = ascii ':') ↔
    ((line.take name.length).map toLower = name.map toLower ∧
      line.getD name.length 0 = ascii ':') := by
  rw [strncasecmp_line plainName plainLine ends]
  refine and_congr_right fun same => ?_
  have long : name.length ≤ line.length := by
    have := congrArg List.length same; simp at this; omega
  rcases long.lt_or_eq with within | whole
  · rw [List.getD_append _ _ _ _ within]
  · rw [List.getD_append_right _ _ _ _ whole.ge, List.getD_eq_default _ _ whole.ge, whole,
      Nat.sub_self]
    rcases ends with rfl | ⟨more, rfl⟩
    · exact Iff.rfl
    · simp only [List.getD_cons_zero]; decide

theorem dropWhile_blank_append {rest : List Byte} (ends : LineEnd rest) (s : List Byte) :
    (s ++ rest).dropWhile isBlank = s.dropWhile isBlank ++ rest := by
  induction s with
  | nil => rcases ends with rfl | ⟨more, rfl⟩ <;> rfl
  | cons c s ih => simp only [List.cons_append, List.dropWhile_cons]; split <;> simp_all

theorem value_line {line rest : List Byte} (plain : Plain line) (ends : LineEnd rest) (k : Nat)
    (within : k ≤ line.length) :
    (match strstr (((line ++ rest).drop k).dropWhile isBlank) crlf with
      | some valueLen => (((line ++ rest).drop k).dropWhile isBlank).take valueLen
      | none => ((line ++ rest).drop k).dropWhile isBlank) = (line.drop k).dropWhile isBlank := by
  have value : Plain ((line.drop k).dropWhile isBlank) :=
    plain.suffix ((List.dropWhile_suffix _).trans (List.drop_suffix _ _))
  rw [List.drop_append_of_le_length within, dropWhile_blank_append ends]
  rcases ends with rfl | ⟨more, rfl⟩
  · simp [strstr_plain value]
  · simp [strstr_line value more]

theorem getHeaderFrom_line {name line rest : List Byte} (plainName : Plain name)
    (plainLine : Plain line) (ends : LineEnd rest) :
    getHeaderFrom name (line ++ rest) = (headerValue name line).or (getHeaderFrom name (rest.drop 2)) := by
  by_cases empty : line ++ rest = []
  · obtain ⟨rfl, rfl⟩ := List.append_eq_nil.mp empty
    have colon : ¬ 0#8 = ascii ':' := by decide
    simp [getHeaderFrom, headerValue, colon]
  obtain ⟨c, t, cons⟩ := List.exists_cons_of_ne_nil empty
  rw [cons, getHeaderFrom, ← cons]
  by_cases found : (line.take name.length).map toLower = name.map toLower ∧
      line.getD name.length 0 = ascii ':'
  · have within : name.length < line.length := by
      by_contra outside
      have := List.getD_eq_default line 0 (Nat.le_of_not_lt outside)
      rw [this] at found; exact absurd found.2 (by decide)
    rw [if_pos ((lineMatches_iff plainName plainLine ends).mpr found)]
    dsimp only
    rw [value_line plainLine ends (name.length + 1) within, headerValue, if_pos found]
    rfl
  · rw [if_neg (mt (lineMatches_iff plainName plainLine ends).mp found), headerValue, if_neg found,
      Option.none_or]
    rcases ends with rfl | ⟨more, rfl⟩
    · simp [strstr_plain plainLine, getHeaderFrom]
    · simp [strstr_line plainLine more, List.drop_append_of_le_length]

theorem getHeaderFrom_crlfJoin {name : List Byte} (plainName : Plain name) (lines : List (List Byte))
    (plainLines : ∀ line ∈ lines, Plain line) :
    getHeaderFrom name (crlfJoin lines) = lines.findSome? (headerValue name) := by
  induction lines with
  | nil => simp [crlfJoin, getHeaderFrom]
  | cons line lines ih =>
    have plainLine := plainLines line (List.mem_cons_self _ _)
    have rest := ih fun l mem => plainLines l (List.mem_cons_of_mem _ mem)
    cases lines with
    | nil =>
      have step : getHeaderFrom name (line ++ []) = _ :=
        getHeaderFrom_line plainName plainLine (.inl rfl)
      simp only [List.append_nil] at step
      simp only [crlfJoin, step, List.findSome?_cons]
      cases headerValue name line <;> simp [getHeaderFrom]
    | cons next lines =>
      have step := getHeaderFrom_line plainName plainLine (.inr ⟨crlfJoin (next :: lines), rfl⟩)
      show getHeaderFrom name (line ++ ascii '\r' :: ascii '\n' :: crlfJoin (next :: lines)) = _
      rw [step, List.drop_succ_cons, List.drop_succ_cons, List.drop_zero, rest]
      conv_rhs => rw [List.findSome?_cons]
      cases headerValue name line <;> rfl

/-- On a header block whose lines hold no CR or NUL, and a name with neither,
`http_test_client_get_header` returns the value of the first line that is a header of that name,
compared without case, and `NULL` when there is none. -/
theorem getHeader_findSome {name : List Byte} (plainName : Plain name) (lines : List (List Byte))
    (plainLines : ∀ line ∈ lines, Plain line) :
    httpTestClientGetHeader (crlfJoin lines) name = lines.findSome? (headerValue name) :=
  getHeaderFrom_crlfJoin plainName lines plainLines

theorem getHeader_findSome_host :
    Plain ("host".toList.map ascii) ∧ (∀ line ∈ [("Host: a".toList.map ascii)], Plain line) ∧
    httpTestClientGetHeader (crlfJoin [("Host: a".toList.map ascii)]) ("host".toList.map ascii) =
      [("Host: a".toList.map ascii)].findSome? (headerValue ("host".toList.map ascii)) :=
  ⟨by decide, by decide, getHeader_findSome (by decide) _ (by decide)⟩

end TestClient
