import HttpServer.EventGroup.Posix

/- The waiters of every state a run from `event_group_create` reaches: a thread stays blocked only
while its condition is unmet, so no `set_bits` that meets it leaves it asleep, and only a call that
may wait is ever pending. -/
namespace EventGroup
open HttpServer

def Pending (pc : Pc) (call : WaitCall) : Prop := pc = .blocked call ∨ pc = .woken call

/-- A blocked thread's condition is unmet, and a pending call may wait and started by now. -/
structure Waiting (s : State) : Prop where
  unmet : ∀ t call, s.pc t = .blocked call → conditionMet s.bits call = false
  pending : ∀ t call, Pending (s.pc t) call → call.ticksToWait ≠ 0 ∧ call.start ≤ s.clock

def Reachable (s : State) : Prop := ∃ acts, run eventGroupCreate acts = some s

theorem conditionMet_and {bits : Word} {call : WaitCall} (unmet : conditionMet bits call = false)
    (x : Word) : conditionMet (bits &&& x) call = false := by
  unfold conditionMet at *
  cases all : call.waitForAllBits <;> simp only [all, Bool.false_eq_true, ↓reduceIte,
    bne_eq_false_iff_eq, beq_eq_false_iff_ne, ne_eq] at unmet ⊢
  · rw [BitVec.and_comm bits, BitVec.and_assoc, unmet]; simp
  · intro met
    apply unmet
    calc bits &&& call.bitsToWaitFor = bits &&& (bits &&& x &&& call.bitsToWaitFor) := by rw [met]
      _ = bits &&& x &&& call.bitsToWaitFor := by
        rw [← BitVec.and_assoc, ← BitVec.and_assoc, BitVec.and_self]
      _ = call.bitsToWaitFor := met

theorem waitPass_unmet (bits : Word) (call : WaitCall) {c : WaitCall}
    (unmet : conditionMet bits c = false) : conditionMet (waitPass bits call).1 c = false := by
  unfold waitPass; split_ifs <;> first | exact conditionMet_and unmet _ | exact unmet

theorem waitPass_blocks {bits bits' : Word} {call : WaitCall}
    (h : waitPass bits call = (bits', none)) :
    bits' = bits ∧ conditionMet bits call = false ∧ call.ticksToWait ≠ 0 := by
  unfold waitPass at h; split_ifs at h with met zero <;> cases h; simp_all


theorem waiting_update {s : State} {bits : Word} {t : Nat} {p : Pc} (inv : Waiting s)
    (shrink : ∀ c, conditionMet s.bits c = false → conditionMet bits c = false)
    (unmet : ∀ c, p = .blocked c → conditionMet bits c = false)
    (pending : ∀ c, Pending p c → c.ticksToWait ≠ 0 ∧ c.start ≤ s.clock) :
    Waiting { s with bits := bits, pc := Function.update s.pc t p } := by
  constructor
  · intro u c blocked
    by_cases same : u = t
    · subst same; exact unmet c (by simpa using blocked)
    · exact shrink c (inv.unmet u c (by simpa [Function.update_noteq same] using blocked))
  · intro u c pend
    by_cases same : u = t
    · subst same; exact pending c (by simpa using pend)
    · exact inv.pending u c (by simpa [Function.update_noteq same] using pend)

theorem waiting_waitStep {s : State} {t : Nat} {call : WaitCall} (inv : Waiting s)
    (entry : s.pc t = .idle ∧ call.start = s.clock ∨ s.pc t = .woken call) :
    Waiting (waitStep s t call).1 := by
  have started : call.start ≤ s.clock := by
    rcases entry with ⟨-, start⟩ | woken
    · exact start.le
    · exact (inv.pending t call (.inr woken)).2
  unfold waitStep
  split
  next bits v found =>
    refine waiting_update inv (fun c unmet => ?_) (fun c blocked => by cases blocked)
      (fun c pend => by simp [Pending] at pend)
    simpa [found] using waitPass_unmet s.bits call unmet
  next bits found =>
    obtain ⟨rfl, unmet, waits⟩ := waitPass_blocks found
    refine waiting_update inv (fun c h => h) (fun c blocked => by cases blocked; exact unmet)
      (fun c pend => ?_)
    rcases pend with pend | pend <;> cases pend
    exact ⟨waits, started⟩

theorem waiting_setBits {s : State} (inv : Waiting s) (t : Nat) (v : Word) :
    Waiting { s with
      bits := s.bits ||| v
      pc := Function.update (fun u => broadcast (s.pc u)) t .setReturning } := by
  constructor
  · intro u c blocked
    by_cases same : u = t
    · subst same; simp at blocked
    · simp only [Function.update_noteq same] at blocked
      cases found : s.pc u <;> simp [found, broadcast] at blocked
  · intro u c pend
    by_cases same : u = t
    · subst same; simp [Pending] at pend
    · simp only [Function.update_noteq same] at pend
      apply inv.pending u c
      cases found : s.pc u <;> simp [found, broadcast, Pending] at pend ⊢ <;> exact pend

theorem waiting_step {s s' : State} {a : Act} {r : Option Ret} (h : step s a = some (s', r))
    (inv : Waiting s) : Waiting s' := by
  rcases step_cases h with ⟨t, call, entry, pass⟩ | ⟨t, v, -, -, rfl⟩ | ⟨t, p, rfl, moved, -⟩ |
    ⟨-, rfl⟩
  · have next := waiting_waitStep inv entry
    rwa [pass] at next
  · exact waiting_setBits inv t v
  · refine waiting_update inv (fun c h => h) (fun c blocked => ?_) (fun c pend => ?_)
    · rcases moved with rfl | ⟨_, _, rfl⟩ <;> cases blocked
    · rcases moved with rfl | ⟨call, blocked, rfl⟩
      · rcases pend with pend | pend <;> cases pend
      · rcases pend with pend | pend <;> cases pend
        exact inv.pending t _ (.inl blocked)
  · exact ⟨inv.unmet, fun t c pend => ⟨(inv.pending t c pend).1,
      Nat.le_succ_of_le (inv.pending t c pend).2⟩⟩

theorem waiting_run {s s' : State} {acts : List Act} (h : run s acts = some s') (inv : Waiting s) :
    Waiting s' := by
  induction acts generalizing s with
  | nil => cases h; exact inv
  | cons a acts ih =>
    obtain ⟨mid, r, first, rest⟩ := run_cons h
    exact ih rest (waiting_step first inv)

theorem waiting_create : Waiting eventGroupCreate :=
  ⟨fun _ _ blocked => (by cases blocked),
    fun _ _ pend => (by rcases pend with pend | pend <;> cases pend)⟩

/-- No lost wakeup: in every reachable state a thread blocked in `pthread_cond_wait` waits on a
condition the bits do not meet, and only a call with a nonzero timeout is ever pending. -/
theorem reachable_waiting {s : State} (h : Reachable s) : Waiting s :=
  let ⟨_, run⟩ := h
  waiting_run run waiting_create

def oneWaiterBlocked : State :=
  ⟨0, 1, Function.update (fun _ => .idle) 0 (.blocked ⟨1, false, true, 1, 0⟩)⟩

theorem reachable_waiting_blocked : Reachable oneWaiterBlocked ∧ Waiting oneWaiterBlocked :=
  let reach : Reachable oneWaiterBlocked := ⟨[.waitBits 0 1 false true 1, .tick], rfl⟩
  ⟨reach, reachable_waiting reach⟩

end EventGroup
