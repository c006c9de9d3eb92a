import HttpServer.EventGroup.Posix

/- What every interleaving of the group's steps guarantees: returns that meet their condition, bits
cleared only when reported, and a set bit consumed at most once. Then the timeout the POSIX code
does not honour. -/
namespace EventGroup
open HttpServer

theorem conditionMet_iff (bits : Word) (call : WaitCall) : conditionMet bits call = true ↔
    (call.waitForAllBits = true → bits &&& call.bitsToWaitFor = call.bitsToWaitFor) ∧
      (call.waitForAllBits = false → bits &&& call.bitsToWaitFor ≠ 0) := by
  unfold conditionMet
  cases call.waitForAllBits <;> simp

theorem step_wait_return {s s' : State} {a : Act} {t : Nat} {call : WaitCall} {v : Word}
    (h : step s a = some (s', some (.waitBits t call v false))) :
    v = s.bits ∧ (conditionMet v call ∨ call.ticksToWait = 0) := by
  rcases step_cases h with ⟨t', call', -, pass⟩ | ⟨_, _, _, silent, _⟩ | ⟨_, _, _, _, normal⟩ |
    ⟨silent, _⟩
  · obtain ⟨rfl, -, rfl, met⟩ := waitStep_returns pass
    exact ⟨rfl, met⟩
  · cases silent
  · exact absurd rfl (normal t call v)
  · cases silent

theorem step_bits {s s' : State} {a : Act} {r : Option Ret} (h : step s a = some (s', r)) :
    s'.bits = s.bits ∨ (∃ t v, a = .setBits t v ∧ s'.bits = s.bits ||| v) ∨
    (∃ t call, call.clearOnExit ∧ conditionMet s.bits call ∧
      s'.bits = s.bits &&& ~~~call.bitsToWaitFor ∧ r = some (.waitBits t call s.bits false)) := by
  rcases step_cases h with ⟨t, call, -, pass⟩ | ⟨t, v, rfl, -, rfl⟩ | ⟨_, _, rfl, -⟩ | ⟨-, rfl⟩
  · obtain ⟨bits, ret⟩ := waitStep_spec s t call
    rw [pass] at bits ret
    rcases (waitPass_spec s.bits call).2 with kept | ⟨clear, met, cleared, found⟩
    · exact .inl (bits.trans kept)
    · exact .inr (.inr ⟨t, call, clear, met, bits.trans cleared, ret.trans (by rw [found]; rfl)⟩)
  · exact .inr (.inl ⟨t, v, rfl, rfl⟩)
  · exact .inl rfl
  · exact .inl rfl

theorem step_clears_reported {s s' : State} {a : Act} {r : Option Ret}
    (h : step s a = some (s', r)) {k : Nat} (set : s.bits.getLsbD k = true)
    (cleared : s'.bits.getLsbD k = false) :
    ∃ t call v, r = some (.waitBits t call v false) ∧ call.clearOnExit ∧ v.getLsbD k = true := by
  rcases step_bits h with same | ⟨t, v, -, ored⟩ | ⟨t, call, clear, -, -, found⟩
  · rw [same, set] at cleared; cases cleared
  · rw [ored, BitVec.getLsbD_or, set] at cleared; cases cleared
  · exact ⟨t, call, s.bits, found, clear, set⟩

theorem step_sets_bit {s s' : State} {a : Act} {r : Option Ret} (h : step s a = some (s', r))
    {k : Nat} (off : s.bits.getLsbD k = false) (raised : s'.bits.getLsbD k = true) :
    ∃ t v, a = .setBits t v ∧ v.getLsbD k = true := by
  rcases step_bits h with same | ⟨t, v, rfl, ored⟩ | ⟨_, _, -, -, cleared, -⟩
  · rw [same, off] at raised; cases raised
  · rw [ored, BitVec.getLsbD_or, off] at raised; exact ⟨t, v, rfl, raised⟩
  · rw [cleared, BitVec.getLsbD_and, off] at raised; cases raised

theorem run_sets_bit {s s' : State} {acts : List Act} (h : run s acts = some s') {k : Nat}
    (off : s.bits.getLsbD k = false) (raised : s'.bits.getLsbD k = true) :
    ∃ t v, Act.setBits t v ∈ acts ∧ v.getLsbD k = true := by
  induction acts generalizing s with
  | nil => cases h; rw [off] at raised; cases raised
  | cons a acts ih =>
    obtain ⟨mid, r, first, rest⟩ := run_cons h
    cases midBit : mid.bits.getLsbD k
    · obtain ⟨t, v, mem, bit⟩ := ih rest midBit
      exact ⟨t, v, List.mem_cons_of_mem a mem, bit⟩
    · obtain ⟨t, v, rfl, bit⟩ := step_sets_bit first off midBit
      exact ⟨t, v, List.mem_cons_self _ _, bit⟩

def Consumes (s s' : State) (k : Nat) : Prop := s.bits.getLsbD k = true ∧ s'.bits.getLsbD k = false

theorem event_group_wait_safety :
    (∀ s a s' t call v, step s a = some (s', some (.waitBits t call v false)) →
      call.ticksToWait ≠ 0 →
      (call.waitForAllBits = true → v &&& call.bitsToWaitFor = call.bitsToWaitFor) ∧
        (call.waitForAllBits = false → v &&& call.bitsToWaitFor ≠ 0)) ∧
    (∀ s a s' r, step s a = some (s', r) →
      s'.bits = s.bits ∨ (∃ t v, a = .setBits t v ∧ s'.bits = s.bits ||| v) ∨
      (∃ t call, call.clearOnExit ∧ conditionMet s.bits call ∧
        s'.bits = s.bits &&& ~~~call.bitsToWaitFor ∧ r = some (.waitBits t call s.bits false))) ∧
    (∀ s a s' r k, step s a = some (s', r) → Consumes s s' k →
      ∃ t call v, r = some (.waitBits t call v false) ∧ call.clearOnExit ∧ v.getLsbD k = true) ∧
    (∀ s a s1 r1 mid s2 b s3 r2 k, step s a = some (s1, r1) → Consumes s s1 k →
      run s1 mid = some s2 → step s2 b = some (s3, r2) → Consumes s2 s3 k →
      ∃ t v, Act.setBits t v ∈ mid ∧ v.getLsbD k = true) := by
  refine ⟨fun s a s' t call v h waits => ?_, fun s a s' r h => step_bits h,
    fun s a s' r k h consumed => step_clears_reported h consumed.1 consumed.2,
    fun s a s1 r1 mid s2 b s3 r2 k _ first between _ second =>
      run_sets_bit between first.2 second.1⟩
  obtain ⟨-, met | zero⟩ := step_wait_return h
  · exact (conditionMet_iff v call).mp met
  · exact absurd zero waits

theorem run_ticks (s : State) (n : Nat) :
    run s (List.replicate n .tick) = some { s with clock := s.clock + n } := by
  induction n generalizing s with
  | zero => rfl
  | succ n ih =>
    rw [List.replicate_succ, run, step, Option.some_bind, ih, Nat.add_right_comm, Nat.add_assoc]

/-- `ticks_to_wait` only decides whether to wait at all: a waiter for bit 0 with a timeout of one
tick, on a fresh group that nobody sets, is still blocked however many ticks pass. -/
theorem waitBits_ignores_timeout (n : Nat) :
    ∃ s, run eventGroupCreate (.waitBits 0 1 false true 1 :: List.replicate n .tick) = some s ∧
      s.pc 0 = .blocked ⟨1, false, true, 1, 0⟩ ∧ s.clock = n ∧ s.bits = 0 := by
  have first : step eventGroupCreate (.waitBits 0 1 false true 1) =
      some (⟨0, 0, Function.update (fun _ => .idle) 0 (.blocked ⟨1, false, true, 1, 0⟩)⟩, none) :=
    rfl
  rw [run, first, Option.some_bind, run_ticks]
  exact ⟨_, rfl, by simp, Nat.zero_add n, rfl⟩

end EventGroup
