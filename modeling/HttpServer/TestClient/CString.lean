import HttpServer.Basic

/- The C library string functions of the test client, on C strings: a list holds the bytes
before the terminating NUL, and a read past its end reads that NUL. `tolower`, `isspace` and
`isdigit` are the C locale's, and `int` is 32 bits. Also the CRLF-separated lines of an HTTP
head. -/
namespace TestClient
open HttpServer

/-- `tolower`. -/
def toLower (c : Byte) : Byte :=
  if 'A'.toNat ≤ c.toNat ∧ c.toNat ≤ 'Z'.toNat then c + 32 else c

/-- `strstr(haystack, needle)`: the offset of the first occurrence. -/
def strstr (haystack needle : List Byte) : Option Nat :=
  if needle.isPrefixOf haystack then some 0
  else match haystack with
    | [] => none
    | _ :: rest => (strstr rest needle).map (· + 1)

/-- The string a buffer holds: its bytes before the first NUL. -/
def cString (buf : List Byte) : List Byte := buf.takeWhile (· != 0)

/-- `strtok` with the delimiters `delims`: the token from `s` on, and where the next call
resumes; `none` for `NULL`. -/
def strtok (delims s : List Byte) : Option (List Byte × List Byte) :=
  let s := s.dropWhile (· ∈ delims)
  if s = [] then none else some (s.takeWhile (· ∉ delims), (s.dropWhile (· ∉ delims)).drop 1)

/-- `isspace`. -/
def isSpace (c : Byte) : Bool := c == ascii ' ' || (9 ≤ c.toNat && c.toNat ≤ 13)

/-- `isdigit`. -/
def isDigit (c : Byte) : Bool := '0'.toNat ≤ c.toNat && c.toNat ≤ '9'.toNat

def decimalValue (digits : List Byte) : Nat :=
  digits.foldl (fun acc d => 10 * acc + (d.toNat - '0'.toNat)) 0

/-- `atoi(s)`: `none` where the value does not fit an `int`, which is undefined behaviour. -/
def atoi (s : List Byte) : Option Int :=
  let s := s.dropWhile isSpace
  let (negative, s) := match s with
    | c :: rest => if c = ascii '-' then (true, rest) else if c = ascii '+' then (false, rest)
      else (false, c :: rest)
    | [] => (false, [])
  let v : Int := decimalValue (s.takeWhile isDigit)
  let v := if negative then -v else v
  if -2 ^ 31 ≤ v ∧ v < 2 ^ 31 then some v else none

def crlf : List Byte := [ascii '\r', ascii '\n']

def crlfJoin : List (List Byte) → List Byte
  | [] => []
  | [line] => line
  | line :: lines => line ++ ascii '\r' :: ascii '\n' :: crlfJoin lines

def Plain (s : List Byte) : Prop := ∀ c ∈ s, c ≠ ascii '\r' ∧ c ≠ 0

instance (s : List Byte) : Decidable (Plain s) :=
  decidable_of_iff (s.all fun c => c != ascii '\r' && c != 0) (by simp [Plain])

def LineEnd (rest : List Byte) : Prop := rest = [] ∨ ∃ more, rest = ascii '\r' :: ascii '\n' :: more

def decimal (n : Nat) : List Byte :=
  (if n = 0 then [0] else Nat.digits 10 n).reverse.map fun d => BitVec.ofNat 8 ('0'.toNat + d)

theorem Plain.tail {c : Byte} {s : List Byte} (plain : Plain (c :: s)) : Plain s :=
  fun x mem => plain x (List.mem_cons_of_mem _ mem)

theorem Plain.suffix {s t : List Byte} (plain : Plain t) (h : s <:+ t) : Plain s :=
  fun x mem => plain x (h.subset mem)

theorem forall_mem_middle {P : List Byte → Prop} {before after : List (List Byte)}
    {line : List Byte} (outer : ∀ l ∈ before ++ after, P l) (middle : P line) :
    ∀ l ∈ before ++ line :: after, P l := by
  simp only [List.forall_mem_append, List.forall_mem_cons] at outer ⊢
  exact ⟨outer.1, middle, outer.2⟩

theorem toLower_eq_zero (c : Byte) : toLower c = 0 ↔ c = 0 := by revert c; decide

theorem toLower_eq_cr (c : Byte) : toLower c = ascii '\r' ↔ c = ascii '\r' := by revert c; decide

@[simp] theorem cString_nil : cString [] = [] := rfl

@[simp] theorem cString_cons_zero (rest : List Byte) : cString (0 :: rest) = [] := by
  simp [cString]

theorem cString_eq_headD (s : List Byte) :
    cString s = if s.headD 0 = 0 then [] else s.headD 0 :: cString s.tail := by
  cases s with
  | nil => rfl
  | cons c s => by_cases h : c = 0 <;> simp [cString, List.takeWhile_cons, h]

theorem cString_append {s : List Byte} (nul : 0 ∉ s) (t : List Byte) :
    cString (s ++ t) = s ++ cString t := by
  rw [cString, List.takeWhile_append_of_pos]; · rfl
  intro c mem; simpa using fun h : c = 0 => nul (h ▸ mem)

theorem cString_eq_self {s : List Byte} (nul : 0 ∉ s) : cString s = s := by
  simpa using cString_append nul []

theorem cString_mono {s t : List Byte} (h : s <+: t) : cString s <+: cString t := by
  obtain ⟨u, rfl⟩ := h
  rw [cString, cString, List.takeWhile_append]
  split
  next whole =>
    rw [List.IsPrefix.eq_of_length (List.takeWhile_prefix _) whole]
    exact List.prefix_append _ _
  · exact List.prefix_rfl

theorem strtok_word {delims w : List Byte} {d : Byte} (sep : d ∈ delims) (nonempty : w ≠ [])
    (word : ∀ c ∈ w, c ∉ delims) (rest : List Byte) :
    strtok delims (w ++ d :: rest) = some (w, rest) := by
  obtain ⟨c, cs, rfl⟩ := List.exists_cons_of_ne_nil nonempty
  have start : ((c :: cs) ++ d :: rest).dropWhile (· ∈ delims) = (c :: cs) ++ d :: rest := by
    simp [List.dropWhile_cons, word c (List.mem_cons_self _ _)]
  have token : ((c :: cs) ++ d :: rest).takeWhile (· ∉ delims) = c :: cs := by
    rw [List.takeWhile_append_of_pos (by simpa using word)]
    simp [sep]
  have after : ((c :: cs) ++ d :: rest).dropWhile (· ∉ delims) = d :: rest := by
    rw [List.dropWhile_append_of_pos (by simpa using word)]
    simp [sep]
  simp only [strtok, start, token, after]
  simp

theorem strtok_nil {s : List Byte} (nonempty : s ≠ []) : strtok [] s = some (s, []) := by
  have whole (t : List Byte) : t.takeWhile (fun _ => true) = t ∧ t.dropWhile (fun _ => true) = [] := by
    induction t with
    | nil => exact ⟨rfl, rfl⟩
    | cons c t ih => simp [ih]
  have keep : s.dropWhile (fun _ => false) = s := by cases s <;> rfl
  simp [strtok, nonempty, keep, whole]

theorem toNat_decimal_digit {d : Nat} (digit : d < 10) :
    (BitVec.ofNat 8 ('0'.toNat + d)).toNat = '0'.toNat + d := by
  simp only [BitVec.toNat_ofNat]; exact Nat.mod_eq_of_lt (by simp; omega)

theorem decimalValue_digits (ds : List Nat) (digits : ∀ d ∈ ds, d < 10) :
    decimalValue (ds.reverse.map fun d => BitVec.ofNat 8 ('0'.toNat + d)) = Nat.ofDigits 10 ds := by
  induction ds with
  | nil => rfl
  | cons d ds ih =>
    rw [List.reverse_cons, List.map_append, decimalValue, List.foldl_append, ← decimalValue,
      ih fun x mem => digits x (List.mem_cons_of_mem _ mem)]
    simp only [List.map_cons, List.map_nil, List.foldl_cons, List.foldl_nil, Nat.ofDigits_cons,
      toNat_decimal_digit (digits d (List.mem_cons_self _ _))]
    omega

theorem decimalValue_decimal (n : Nat) : decimalValue (decimal n) = n := by
  rw [decimal]
  split
  · subst n; rfl
  · rw [decimalValue_digits _ fun d => Nat.digits_lt_base (by omega), Nat.ofDigits_digits]

theorem toNat_of_mem_decimal {n : Nat} {c : Byte} (mem : c ∈ decimal n) :
    '0'.toNat ≤ c.toNat ∧ c.toNat ≤ '9'.toNat := by
  simp only [decimal, List.mem_map, List.mem_reverse] at mem
  obtain ⟨d, mem, rfl⟩ := mem
  have digit : d < 10 := by
    split at mem
    · simp at mem; omega
    · exact Nat.digits_lt_base (by omega) mem
  rw [toNat_decimal_digit digit]; simp; omega

theorem decimal_ne_nil (n : Nat) : decimal n ≠ [] := by
  rw [decimal]; split
  · simp
  · simpa [Nat.digits_ne_nil_iff_ne_zero]

theorem digit_classes (c : Byte) (digit : '0'.toNat ≤ c.toNat ∧ c.toNat ≤ '9'.toNat) :
    isSpace c = false ∧ isDigit c = true ∧ c ≠ ascii '-' ∧ c ≠ ascii '+' := by
  revert c; decide

theorem atoi_decimal {pre : List Byte} (spaces : ∀ c ∈ pre, isSpace c) {n : Nat} (fits : n < 2 ^ 31)
    {rest : List Byte} (stop : ∀ c ∈ rest.head?, isDigit c = false) :
    atoi (pre ++ decimal n ++ rest) = some n := by
  obtain ⟨c, cs, digits⟩ := List.exists_cons_of_ne_nil (decimal_ne_nil n)
  have classes (x) (mem : x ∈ decimal n) := digit_classes x (toNat_of_mem_decimal mem)
  obtain ⟨notSpace, -, notMinus, notPlus⟩ := classes c (digits ▸ List.mem_cons_self c cs)
  have skip : (pre ++ decimal n ++ rest).dropWhile isSpace = c :: (cs ++ rest) := by
    rw [List.append_assoc, List.dropWhile_append, (List.dropWhile_eq_nil_iff).mpr spaces, digits]
    simp [notSpace]
  have number : (cs ++ rest).takeWhile isDigit = cs := by
    rw [List.takeWhile_append_of_pos fun x mem => (classes x (digits ▸ List.mem_cons_of_mem c mem)).2.1]
    cases rest with
    | nil => simp
    | cons r rest => simp [stop r rfl]
  simp only [atoi, skip, if_neg notMinus, if_neg notPlus, List.takeWhile_cons_of_pos
    (classes c (digits ▸ List.mem_cons_self c cs)).2.1, number, ← digits, decimalValue_decimal]
  simp; omega

theorem strstr_cons (c : Byte) (rest needle : List Byte) :
    strstr (c :: rest) needle =
      if needle <+: c :: rest then some 0 else (strstr rest needle).map (· + 1) := by
  rw [strstr]; simp only [List.isPrefixOf_iff_prefix]

theorem strstr_eq_some {haystack needle : List Byte} {i : Nat} :
    strstr haystack needle = some i ↔
      needle <+: haystack.drop i ∧ ∀ j < i, ¬ needle <+: haystack.drop j := by
  induction haystack generalizing i with
  | nil =>
    rw [strstr]
    by_cases empty : needle = []
    · subst empty
      cases i with
      | zero => simp
      | succ i => simp; exact ⟨0, Nat.succ_pos i⟩
    · simp [List.isPrefixOf_iff_prefix, List.prefix_nil, empty]
  | cons c rest ih =>
    rw [strstr_cons]
    cases i with
    | zero => by_cases here : needle <+: c :: rest <;> simp [here]
    | succ i =>
      by_cases here : needle <+: c :: rest
      · simp only [here, if_true, Option.some.injEq]
        exact iff_of_false (by omega) fun ⟨_, before⟩ => before 0 (Nat.succ_pos i) here
      · simp only [here, if_false, Option.map_eq_some', Nat.add_right_cancel_iff, exists_eq_right,
          ih, List.drop_succ_cons]
        refine and_congr_right fun _ => ⟨fun later j short => ?_, fun all j short => ?_⟩
        · cases j with
          | zero => exact here
          | succ j => exact later j (by omega)
        · exact all (j + 1) (by omega)

theorem strstr_at_start {haystack needle : List Byte} (h : needle <+: haystack) :
    strstr haystack needle = some 0 :=
  strstr_eq_some.mpr ⟨h, fun j short => absurd short (Nat.not_lt_zero j)⟩

theorem strstr_eq_none {haystack needle : List Byte} (nonempty : needle ≠ []) :
    strstr haystack needle = none ↔ ∀ j, ¬ needle <+: haystack.drop j := by
  induction haystack with
  | nil => simp [strstr, List.isPrefixOf_iff_prefix, List.prefix_nil, nonempty]
  | cons c rest ih =>
    rw [strstr_cons]
    by_cases here : needle <+: c :: rest
    · simp only [here, if_true, reduceCtorEq, false_iff, not_forall, not_not]
      exact ⟨0, here⟩
    · simp only [here, if_false, Option.map_eq_none', ih]
      refine ⟨fun later j => ?_, fun all j => all (j + 1)⟩
      cases j with
      | zero => exact here
      | succ j => exact later j

theorem strstr_append {haystack needle : List Byte} {i : Nat}
    (first : strstr haystack needle = some i) (tail : List Byte) :
    strstr (haystack ++ tail) needle = some i := by
  obtain ⟨found, before⟩ := strstr_eq_some.mp first
  have within : i + needle.length ≤ haystack.length := by
    by_cases empty : needle = []
    · subst empty
      cases i with
      | zero => simp
      | succ i => exact absurd List.nil_prefix (before 0 (by omega))
    · have fits := found.length_le
      have : 0 < needle.length := List.length_pos.mpr empty
      rw [List.length_drop] at fits
      omega
  refine strstr_eq_some.mpr ⟨?_, fun j short occurs => before j short ?_⟩
  · rw [List.drop_append_of_le_length (by omega)]
    exact found.trans (List.prefix_append _ _)
  · rw [List.drop_append_of_le_length (by omega)] at occurs
    exact List.prefix_of_prefix_length_le occurs (List.prefix_append _ _)
      (by simp only [List.length_drop]; omega)

theorem strstr_take {haystack needle : List Byte} {i k : Nat}
    (first : strstr haystack needle = some i) (short : k < i + needle.length) :
    strstr (haystack.take k) needle = none := by
  obtain ⟨_, before⟩ := strstr_eq_some.mp first
  have nonempty : needle ≠ [] := by
    rintro rfl
    cases i with
    | zero => simp at short
    | succ i => exact before 0 (by omega) List.nil_prefix
  refine (strstr_eq_none nonempty).mpr fun j occurs => ?_
  rw [List.drop_take] at occurs
  have fits := occurs.length_le
  have whole := occurs.trans (List.take_prefix _ _)
  simp only [List.length_take] at fits
  by_cases earlier : j < i
  · exact before j earlier whole
  · have := List.length_pos.mpr nonempty
    omega

theorem strstr_cons_of_ne {c d : Byte} (other : c ≠ d) (rest needle : List Byte) :
    strstr (c :: rest) (d :: needle) = (strstr rest (d :: needle)).map (· + 1) := by
  rw [strstr_cons, if_neg (by simp [List.cons_prefix_cons, Ne.symm other])]

theorem strstr_append_of_ne {line : List Byte} {d : Byte} (other : ∀ c ∈ line, c ≠ d)
    (rest needle : List Byte) :
    strstr (line ++ rest) (d :: needle) = (strstr rest (d :: needle)).map (· + line.length) := by
  induction line with
  | nil => simp [Option.map_id']
  | cons c line ih =>
    rw [List.cons_append, strstr_cons_of_ne (other c (List.mem_cons_self _ _)),
      ih fun x mem => other x (List.mem_cons_of_mem _ mem), Option.map_map]
    rfl

theorem strstr_plain_append {line : List Byte} (plain : Plain line) (rest needle : List Byte) :
    strstr (line ++ rest) (ascii '\r' :: needle) =
      (strstr rest (ascii '\r' :: needle)).map (· + line.length) :=
  strstr_append_of_ne (fun c mem => (plain c mem).1) rest needle

theorem strstr_of_not_mem {haystack needle : List Byte} {c : Byte} (needs : c ∈ needle)
    (lacks : c ∉ haystack) : strstr haystack needle = none :=
  (strstr_eq_none (List.ne_nil_of_mem needs)).mpr fun j found =>
    lacks ((List.drop_subset j haystack) (found.subset needs))

theorem strstr_line {line : List Byte} (plain : Plain line) (more : List Byte) :
    strstr (line ++ ascii '\r' :: ascii '\n' :: more) crlf = some line.length := by
  rw [crlf, strstr_plain_append plain]
  simp [strstr, List.isPrefixOf]

theorem strstr_plain {line : List Byte} (plain : Plain line) : strstr line crlf = none := by
  have := strstr_plain_append plain [] [ascii '\n']
  simp only [List.append_nil] at this
  rw [crlf, this]; rfl

theorem prefix_of_prefix_append_cons {needle front back : List Byte} {c : Byte}
    (h : needle <+: front ++ c :: back) (absent : c ∉ needle) : needle <+: front := by
  induction front generalizing needle with
  | nil =>
    cases needle with
    | nil => exact List.nil_prefix
    | cons d needle =>
      obtain ⟨rfl, -⟩ := List.cons_prefix_cons.mp h
      exact absurd (List.mem_cons_self _ _) absent
  | cons a front ih =>
    cases needle with
    | nil => exact List.nil_prefix
    | cons d needle =>
      obtain ⟨rfl, rest⟩ := List.cons_prefix_cons.mp h
      exact List.cons_prefix_cons.mpr ⟨rfl, ih rest fun mem => absent (List.mem_cons_of_mem _ mem)⟩

theorem crlfJoin_cons_cons (line next : List Byte) (lines : List (List Byte)) :
    crlfJoin (line :: next :: lines) = line ++ ascii '\r' :: ascii '\n' :: crlfJoin (next :: lines) :=
  rfl

theorem crlfJoin_cons_cons' (line : List Byte) {lines : List (List Byte)} (more : lines ≠ []) :
    crlfJoin (line :: lines) = line ++ ascii '\r' :: ascii '\n' :: crlfJoin lines := by
  obtain ⟨next, lines, rfl⟩ := List.exists_cons_of_ne_nil more
  rfl

theorem crlfJoin_cons_lineEnd (line : List Byte) (lines : List (List Byte)) :
    ∃ rest, crlfJoin (line :: lines) = line ++ rest ∧ LineEnd rest := by
  cases lines with
  | nil => exact ⟨[], (List.append_nil _).symm, .inl rfl⟩
  | cons next lines => exact ⟨_, rfl, .inr ⟨_, rfl⟩⟩

theorem crlfJoin_cons_prefix (line : List Byte) (lines : List (List Byte)) :
    line <+: crlfJoin (line :: lines) :=
  let ⟨rest, joined, _⟩ := crlfJoin_cons_lineEnd line lines
  ⟨rest, joined.symm⟩

section Lines

variable {needle : List Byte} (nonempty : needle ≠ []) (noCr : ascii '\r' ∉ needle)
  (noLf : needle.head? ≠ some (ascii '\n'))
include nonempty noCr noLf

theorem strstr_crlf_append {line : List Byte} (absent : strstr line needle = none)
    (rest : List Byte) :
    strstr (line ++ ascii '\r' :: ascii '\n' :: rest) needle =
      (strstr rest needle).map (· + (line.length + 2)) := by
  obtain ⟨d, needle, rfl⟩ := List.exists_cons_of_ne_nil nonempty
  induction line with
  | nil =>
    have cr : ascii '\r' ≠ d := fun h => noCr (h ▸ List.mem_cons_self _ _)
    have lf : ascii '\n' ≠ d := fun h => noLf (h ▸ rfl)
    rw [List.nil_append, strstr_cons_of_ne cr, strstr_cons_of_ne lf, Option.map_map]
    rfl
  | cons c line ih =>
    rw [strstr_cons] at absent
    split_ifs at absent with here
    rw [Option.map_eq_none'] at absent
    have notHere : ¬ d :: needle <+: c :: (line ++ ascii '\r' :: ascii '\n' :: rest) :=
      mt (prefix_of_prefix_append_cons · noCr) here
    rw [List.cons_append, strstr_cons, if_neg notHere, ih absent, Option.map_map]
    rfl

theorem strstr_crlfJoin_none {lines : List (List Byte)}
    (absent : ∀ line ∈ lines, strstr line needle = none) : strstr (crlfJoin lines) needle = none := by
  induction lines with
  | nil => exact (strstr_eq_none nonempty).mpr fun j => by simpa [crlfJoin, List.prefix_nil] using nonempty
  | cons line lines ih =>
    have rest := ih fun l mem => absent l (List.mem_cons_of_mem _ mem)
    cases lines with
    | nil => exact absent line (List.mem_cons_self _ _)
    | cons next lines =>
      rw [crlfJoin_cons_cons, strstr_crlf_append nonempty noCr noLf (absent line (List.mem_cons_self _ _)),
        rest, Option.map_none']

theorem strstr_crlfJoin_found {before : List (List Byte)}
    (absent : ∀ line ∈ before, strstr line needle = none) {line : List Byte} (starts : needle <+: line)
    (after : List (List Byte)) :
    ∃ k, strstr (crlfJoin (before ++ line :: after)) needle = some k ∧
      (crlfJoin (before ++ line :: after)).drop k = crlfJoin (line :: after) := by
  induction before with
  | nil =>
    obtain ⟨t, joined⟩ := crlfJoin_cons_prefix line after
    rw [List.nil_append, ← joined]
    exact ⟨0, strstr_at_start (starts.trans (List.prefix_append _ _)), rfl⟩
  | cons first before ih =>
    obtain ⟨k, found, rest⟩ := ih fun l mem => absent l (List.mem_cons_of_mem _ mem)
    refine ⟨k + (first.length + 2), ?_, ?_⟩
    · rw [List.cons_append, crlfJoin_cons_cons' first (List.append_ne_nil_of_right_ne_nil _ (List.cons_ne_nil _ _)),
        strstr_crlf_append nonempty noCr noLf (absent first (List.mem_cons_self _ _)), found]
      rfl
    · rw [List.cons_append, crlfJoin_cons_cons' first (List.append_ne_nil_of_right_ne_nil _ (List.cons_ne_nil _ _)),
        Nat.add_comm, ← List.drop_drop]
      simpa using rest

end Lines

theorem crlf_append (rest : List Byte) : crlf ++ rest = ascii '\r' :: ascii '\n' :: rest := rfl

theorem strstr_headerEnd {lines : List (List Byte)} (text : ∀ line ∈ lines, line ≠ [] ∧ Plain line) :
    strstr (crlfJoin lines ++ crlf ++ crlf) (crlf ++ crlf) = some (crlfJoin lines).length := by
  induction lines with
  | nil => exact strstr_at_start (List.prefix_refl _)
  | cons line lines ih =>
    have plain := (text line (List.mem_cons_self _ _)).2
    have rest := ih fun l mem => text l (List.mem_cons_of_mem _ mem)
    cases lines with
    | nil =>
      rw [crlfJoin, List.append_assoc, crlf_append, strstr_plain_append plain,
        strstr_at_start (List.prefix_refl _)]
      simp
    | cons next lines =>
      obtain ⟨c, cs, rfl⟩ := List.exists_cons_of_ne_nil (text next (by simp)).1
      have other : c ≠ ascii '\r' := ((text (c :: cs) (by simp)).2 c (List.mem_cons_self _ _)).1
      obtain ⟨t, joined⟩ := crlfJoin_cons_prefix (c :: cs) lines
      rw [← joined] at rest
      rw [crlfJoin_cons_cons, ← joined]
      simp only [List.append_assoc, crlf_append, List.cons_append] at rest ⊢
      rw [strstr_plain_append plain, strstr_cons, if_neg (by simp [crlf, Ne.symm other]),
        strstr_cons_of_ne (by decide), rest]
      simp only [Option.map_some', List.length_append, List.length_cons]
      congr 1; omega

end TestClient
