import HttpServer.Basic

/- `event_group_posix.c` as a transition system over any number of threads. Each stretch a thread
runs with the group's mutex held is one step. `pthread_cond_wait` releases the mutex and blocks
until a broadcast or a spurious wakeup; the woken thread's next step reacquires it. -/
namespace EventGroup
open HttpServer

structure WaitCall where
  bitsToWaitFor : Word
  clearOnExit : Bool
  waitForAllBits : Bool
  ticksToWait : Word
  start : Nat
  deriving DecidableEq, Repr

/-- `condition_met`. -/
def conditionMet (bits : Word) (call : WaitCall) : Bool :=
  if call.waitForAllBits then bits &&& call.bitsToWaitFor == call.bitsToWaitFor
  else bits &&& call.bitsToWaitFor != 0

def waitPass (bits : Word) (call : WaitCall) : Word × Option Word :=
  if conditionMet bits call then
    (if call.clearOnExit then bits &&& ~~~call.bitsToWaitFor else bits, some bits)
  else if call.ticksToWait = 0 then (bits, some bits)
  else (bits, none)

inductive Pc
  | idle
  /-- In `event_group_set_bits` past the unlock, about to read `group->bits` for its result. -/
  | setReturning
  /-- In `pthread_cond_wait`, the mutex released. -/
  | blocked (call : WaitCall)
  /-- Woken by a broadcast or spuriously, and reacquiring the mutex. -/
  | woken (call : WaitCall)
  deriving DecidableEq, Repr

structure State where
  bits : Word
  clock : Nat
  pc : Nat → Pc

inductive Ret
  | setBits (t : Nat) (v : Word)
  | waitBits (t : Nat) (call : WaitCall) (v : Word) (condWaitFailed : Bool)
  deriving DecidableEq, Repr

inductive Act
  | setBits (t : Nat) (bitsToSet : Word)
  | setReturn (t : Nat)
  | waitBits (t : Nat) (bitsToWaitFor : Word) (clearOnExit waitForAllBits : Bool)
      (ticksToWait : Word)
  | spurious (t : Nat)
  | resume (t : Nat)
  | condWaitError (t : Nat)
  | tick
  deriving DecidableEq, Repr

/-- `event_group_create`: no bit set, no thread inside the group. -/
def eventGroupCreate : State := ⟨0, 0, fun _ => .idle⟩

/-- `pthread_cond_broadcast`, as seen by one thread. -/
def broadcast : Pc → Pc
  | .blocked call => .woken call
  | pc => pc

/-- A pass of thread `t` through the wait loop: it returns, or blocks again. -/
def waitStep (s : State) (t : Nat) (call : WaitCall) : State × Option Ret :=
  match waitPass s.bits call with
  | (bits, some v) =>
    ({ s with bits := bits, pc := Function.update s.pc t .idle }, some (.waitBits t call v false))
  | (bits, none) => ({ s with bits := bits, pc := Function.update s.pc t (.blocked call) }, none)

def step (s : State) : Act → Option (State × Option Ret)
  | .setBits t bitsToSet =>
    if s.pc t = .idle then
      some ({ s with
        bits := s.bits ||| bitsToSet
        pc := Function.update (fun u => broadcast (s.pc u)) t .setReturning }, none)
    else none
  | .setReturn t =>
    if s.pc t = .setReturning then
      some ({ s with pc := Function.update s.pc t .idle }, some (.setBits t s.bits))
    else none
  | .waitBits t mask clear all ticks =>
    if s.pc t = .idle then some (waitStep s t ⟨mask, clear, all, ticks, s.clock⟩) else none
  | .spurious t =>
    match s.pc t with
    | .blocked call => some ({ s with pc := Function.update s.pc t (.woken call) }, none)
    | _ => none
  | .resume t =>
    match s.pc t with
    | .woken call => some (waitStep s t call)
    | _ => none
  | .condWaitError t =>
    match s.pc t with
    | .blocked call | .woken call =>
      some ({ s with pc := Function.update s.pc t .idle }, some (.waitBits t call s.bits true))
    | _ => none
  | .tick => some ({ s with clock := s.clock + 1 }, none)

def run (s : State) : List Act → Option State
  | [] => some s
  | a :: acts => (step s a).bind fun r => run r.1 acts

theorem run_cons {s : State} {a : Act} {acts : List Act} {s' : State}
    (h : run s (a :: acts) = some s') :
    ∃ mid r, step s a = some (mid, r) ∧ run mid acts = some s' := by
  simp only [run, Option.bind_eq_some] at h
  obtain ⟨⟨mid, r⟩, first, rest⟩ := h
  exact ⟨mid, r, first, rest⟩

theorem waitPass_spec (bits : Word) (call : WaitCall) :
    (∀ v, (waitPass bits call).2 = some v →
      v = bits ∧ (conditionMet bits call ∨ call.ticksToWait = 0)) ∧
    ((waitPass bits call).1 = bits ∨ call.clearOnExit ∧ conditionMet bits call ∧
      (waitPass bits call).1 = bits &&& ~~~call.bitsToWaitFor ∧
      (waitPass bits call).2 = some bits) := by
  unfold waitPass
  split_ifs <;> simp_all

theorem waitStep_spec (s : State) (t : Nat) (call : WaitCall) :
    (waitStep s t call).1.bits = (waitPass s.bits call).1 ∧
      (waitStep s t call).2 = (waitPass s.bits call).2.map fun v => .waitBits t call v false := by
  unfold waitStep
  split <;> simp_all

theorem waitStep_returns {s s' : State} {t u : Nat} {call c : WaitCall} {v : Word} {failed : Bool}
    (h : waitStep s t call = (s', some (.waitBits u c v failed))) :
    c = call ∧ failed = false ∧ v = s.bits ∧ (conditionMet v call ∨ call.ticksToWait = 0) := by
  have ret := (waitStep_spec s t call).2
  rw [h] at ret
  cases found : (waitPass s.bits call).2 with
  | none => simp [found] at ret
  | some w =>
    simp only [found, Option.map_some', Option.some.injEq, Ret.waitBits.injEq] at ret
    obtain ⟨-, rfl, rfl, rfl⟩ := ret
    obtain ⟨rfl, met⟩ := (waitPass_spec s.bits c).1 v found
    exact ⟨rfl, rfl, rfl, met⟩

theorem step_cases {s s' : State} {a : Act} {r : Option Ret} (h : step s a = some (s', r)) :
    (∃ t call, (s.pc t = .idle ∧ call.start = s.clock ∨ s.pc t = .woken call) ∧
      waitStep s t call = (s', r)) ∨
    (∃ t v, a = .setBits t v ∧ r = none ∧ s' = { s with
      bits := s.bits ||| v
      pc := Function.update (fun u => broadcast (s.pc u)) t .setReturning }) ∨
    (∃ t p, s' = { s with pc := Function.update s.pc t p } ∧
      (p = .idle ∨ ∃ call, s.pc t = .blocked call ∧ p = .woken call) ∧
      ∀ t call v, r ≠ some (.waitBits t call v false)) ∨
    (r = none ∧ s' = { s with clock := s.clock + 1 }) := by
  cases a with
  | setBits t v =>
    simp only [step] at h; split at h <;> cases h
    exact .inr (.inl ⟨t, v, rfl, rfl, rfl⟩)
  | setReturn t =>
    simp only [step] at h; split at h <;> cases h
    exact .inr (.inr (.inl ⟨t, .idle, rfl, .inl rfl, by simp⟩))
  | waitBits t mask clear all ticks =>
    simp only [step] at h; split at h
    · exact .inl ⟨t, _, .inl ⟨‹_›, rfl⟩, Option.some.inj h⟩
    · cases h
  | spurious t =>
    simp only [step] at h; split at h
    next call blocked =>
      cases h; exact .inr (.inr (.inl ⟨t, _, rfl, .inr ⟨call, blocked, rfl⟩, by simp⟩))
    · cases h
  | resume t =>
    simp only [step] at h; split at h
    next call woken => exact .inl ⟨t, call, .inr woken, Option.some.inj h⟩
    · cases h
  | condWaitError t =>
    simp only [step] at h; split at h <;> cases h
    all_goals exact .inr (.inr (.inl ⟨t, .idle, rfl, .inl rfl, by simp⟩))
  | tick => cases h; exact .inr (.inr (.inr ⟨rfl, rfl⟩))

end EventGroup
