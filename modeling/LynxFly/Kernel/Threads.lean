-- SUMMARY: Threads in calls of the kernel, preempted between any two sections of it, and interrupts.
import LynxFly.Base.Waiters
import LynxFly.Kernel.Ipc

/-!
# Threads in calls of the kernel

Only the current thread runs. A call is a section with interrupts disabled; many go on to
`rt_schedule`, and those that wait read `error` once the thread runs again. The tick and other
interrupts come between any two of these steps, and may make another thread the current one.
-/

namespace Kernel

/-- A call that may wait. -/
inductive Call where
  | rt_sem_take (i : ℕ)
  | rt_mutex_take (i : ℕ)
  | rt_event_recv (e : ℕ) (set : BitVec 32) (option : BitVec 8)
  | rt_thread_sleep
  deriving DecidableEq

/-- The object whose list a thread is in while it waits. -/
def Call.object : Call → Option Ipc
  | rt_sem_take i => some (.semaphore i)
  | rt_mutex_take i => some (.mutex i)
  | rt_event_recv e _ _ => some (.event e)
  | rt_thread_sleep => none

/-- A call that waits since that tick, for so many ticks at most if not forever. -/
structure Pending where
  call : Call
  since : ℕ
  time : Option ℕ
  deriving DecidableEq

/-- Where a thread is: in no call, before `rt_schedule`, or after it. -/
inductive Pc where
  | user
  | pass
  | schedule (w : Pending)
  | back (w : Pending)
  deriving DecidableEq

def Pc.pending : Pc → Option Pending
  | user => none
  | pass => none
  | schedule w => some w
  | back w => some w

/-- The kernel, where the threads are, and what has happened so far: ticks, permits of semaphores
    taken and released, and how often a thread has taken a mutex it has not released. -/
structure Machine where
  kernel : State
  pc : ℕ → Pc
  now : ℕ
  taken : ℕ → ℕ
  released : ℕ → ℕ
  holds : ℕ → ℕ → ℕ

/-- What the current thread does next, or an interrupt. -/
inductive Act where
  | rt_sem_take (i : ℕ) (time : ℤ)
  | rt_sem_release (i : ℕ)
  | rt_mutex_take (i : ℕ) (time : ℤ)
  | rt_mutex_release (i : ℕ)
  | rt_event_send (e : ℕ) (set : BitVec 32)
  | rt_event_recv (e : ℕ) (set : BitVec 32) (option : BitVec 8) (timeout : ℤ)
  | rt_thread_sleep (tick : BitVec 32)
  | rt_thread_yield
  | rt_thread_startup (t : ℕ)
  | rt_enter_critical
  | rt_exit_critical
  | rt_schedule
  | ret
  | tick
  | irq_sem_release (i : ℕ)
  | irq_event_send (e : ℕ) (set : BitVec 32)

namespace Machine

/-! ## Steps -/

def current (m : Machine) : ℕ := m.kernel.rt_current_thread

/-- The thread that runs. -/
def running (m : Machine) : rt_thread := m.kernel.thread m.current

def pending (m : Machine) (t : ℕ) : Option Pending := (m.pc t).pending

def setPc (m : Machine) (t : ℕ) (pc : Pc) : Machine :=
  { m with pc := Function.update m.pc t pc }

/-- A call that waits has returned `RT_EOK` to `t`. -/
def credit (m : Machine) (t : ℕ) : Call → Machine
  | .rt_sem_take i => { m with taken := Function.update m.taken i (m.taken i + 1) }
  | .rt_mutex_take i =>
    { m with
      holds := Function.update m.holds i (Function.update (m.holds i) t (m.holds i t + 1)) }
  | .rt_event_recv _ _ _ => m
  | .rt_thread_sleep => m

def addReleased (m : Machine) (i : ℕ) : Machine :=
  { m with released := Function.update m.released i (m.released i + 1) }

def unhold (m : Machine) (i t : ℕ) : Machine :=
  { m with
    holds := Function.update m.holds i (Function.update (m.holds i) t (m.holds i t - 1)) }

/-- How a call goes on that does not wait. -/
def passes (m : Machine) (k : State) : Next → Machine
  | .ret _ => { m with kernel := k }
  | .schedule => { m with kernel := k }.setPc m.current .pass

/-- How a call goes on that may wait. -/
def waits (m : Machine) (call : Call) (time : Option ℕ) (k : State) : Next → Machine
  | .ret error =>
    if error = RT_EOK then { m with kernel := k }.credit m.current call else { m with kernel := k }
  | .schedule => { m with kernel := k }.setPc m.current (.schedule ⟨call, m.now, time⟩)

/-- `RT_WAITING_FOREVER` is less than 0. -/
def ticks (time : ℤ) : Option ℕ := if 0 < time then some time.toNat else none

/-- An interrupt calls `rt_schedule` before it ends. -/
def interrupted (m : Machine) : State × Next → Option Machine
  | (k, .ret _) => some { m with kernel := k }
  | (k, .schedule) => k.rt_schedule.map fun k => { m with kernel := k }

/-- What a call that waited returns; `rt_thread_sleep` clears the error. -/
def returns (m : Machine) (t : ℕ) (w : Pending) : Machine :=
  match w.call with
  | .rt_thread_sleep =>
    { m.setPc t .user with
      kernel := m.kernel.update t fun thread =>
        { thread with error := if thread.error = -RT_ETIMEOUT then RT_EOK else thread.error } }
  | call =>
    if (m.kernel.thread t).error = RT_EOK then (m.setPc t .user).credit t call else m.setPc t .user

/-- One step; `fuel` bounds the loops of the kernel. -/
def step (fuel : ℕ) (m : Machine) : Act → Option Machine
  | .rt_sem_take i time =>
    (m.kernel.rt_sem_take fuel i time).map fun (k, next) =>
      m.waits (.rt_sem_take i) (ticks time) k next
  | .rt_sem_release i =>
    (m.kernel.rt_sem_release i).map fun (k, next) => (m.passes k next).addReleased i
  | .rt_mutex_take i time =>
    (m.kernel.rt_mutex_take fuel i time).map fun (k, next) =>
      m.waits (.rt_mutex_take i) (ticks time) k next
  | .rt_mutex_release i =>
    (m.kernel.rt_mutex_release i).map fun (k, next) =>
      if next = .ret (-RT_ERROR) then m.passes k next else (m.passes k next).unhold i m.current
  | .rt_event_send e set =>
    (m.kernel.rt_event_send fuel e set).map fun (k, next) => m.passes k next
  | .rt_event_recv e set option timeout =>
    (m.kernel.rt_event_recv fuel e set option timeout).map fun (k, next, _) =>
      m.waits (.rt_event_recv e set option) (ticks timeout) k next
  | .rt_thread_sleep tick =>
    (m.kernel.rt_thread_sleep fuel tick).map fun k =>
      m.waits .rt_thread_sleep (some tick.toNat) k .schedule
  | .rt_thread_yield =>
    let (k, need_schedule) := m.kernel.rt_thread_yield
    some (m.passes k (if need_schedule then .schedule else .ret RT_EOK))
  | .rt_thread_startup t => (m.kernel.rt_thread_startup t).map fun k => m.passes k .schedule
  | .rt_enter_critical => some { m with kernel := m.kernel.rt_enter_critical }
  | .rt_exit_critical =>
    let (k, need_schedule) := m.kernel.rt_exit_critical
    some (m.passes k (if need_schedule then .schedule else .ret RT_EOK))
  | .rt_schedule =>
    match m.pc m.current with
    | .pass => m.kernel.rt_schedule.map fun k => { m with kernel := k }.setPc m.current .user
    | .schedule w =>
      m.kernel.rt_schedule.map fun k => { m with kernel := k }.setPc m.current (.back w)
    | _ => none
  | .ret =>
    match m.pc m.current with
    | .back w => some (m.returns m.current w)
    | _ => none
  | .tick => (m.kernel.rt_tick_increase fuel).map fun k => { m with kernel := k, now := m.now + 1 }
  | .irq_sem_release i =>
    ((m.kernel.rt_sem_release i).bind m.interrupted).map fun m => m.addReleased i
  | .irq_event_send e set => (m.kernel.rt_event_send fuel e set).bind m.interrupted

/-- Steps one after the other. -/
def run (fuel : ℕ) (m : Machine) (acts : List Act) : Option Machine := acts.foldlM (step fuel) m

/-! ## What callers keep to -/

/-- A thread may be suspended unless it is the idle thread or has locked the scheduler. -/
def MayWait (m : Machine) (idle : ℕ) : Prop :=
  m.current ≠ idle ∧ m.kernel.rt_scheduler_lock_nest = 0

/-- What the kernel relies on: times that timers can measure, counts that fit, and a thread that
    goes on in the call it is in. -/
def Legal (n idle : ℕ) (m : Machine) : Act → Prop
  | .rt_sem_take _ time =>
    m.pc m.current = .user ∧ time < RT_TICK_MAX / 2 ∧ (time = 0 ∨ m.MayWait idle)
  | .rt_sem_release _ => m.pc m.current = .user
  | .rt_mutex_take i time =>
    m.pc m.current = .user ∧ time < RT_TICK_MAX / 2 ∧ (time = 0 ∨ m.MayWait idle) ∧
      (m.kernel.mutex i).hold < 2 ^ 8 - 1
  | .rt_mutex_release _ => m.pc m.current = .user
  | .rt_event_send _ _ => m.pc m.current = .user
  | .rt_event_recv _ _ _ timeout =>
    m.pc m.current = .user ∧ timeout < RT_TICK_MAX / 2 ∧ (timeout = 0 ∨ m.MayWait idle)
  | .rt_thread_sleep tick =>
    m.pc m.current = .user ∧ tick.toNat < RT_TICK_MAX / 2 ∧ m.MayWait idle
  | .rt_thread_yield => m.pc m.current = .user
  | .rt_thread_startup t => m.pc m.current = .user ∧ (m.kernel.thread t).stat = .init ∧ t < n
  | .rt_enter_critical =>
    m.pc m.current = .user ∧ m.kernel.rt_scheduler_lock_nest < 2 ^ 15 - 1
  | .rt_exit_critical => m.pc m.current = .user
  | .rt_schedule => m.pc m.current = .pass ∨ ∃ w, m.pc m.current = .schedule w
  | .ret => ∃ w, m.pc m.current = .back w
  | .tick => True
  | .irq_sem_release _ => True
  | .irq_event_send _ _ => True

/-- The condition holds of every step. -/
def Along (P : Machine → Act → Prop) (fuel : ℕ) : Machine → List Act → Prop
  | _, [] => True
  | m, a :: as => P m a ∧ ∀ m', m.step fuel a = some m' → Along P fuel m' as

instance decidableSchedule : (p : Pc) → Decidable (∃ w, p = .schedule w)
  | .schedule w => isTrue ⟨w, rfl⟩
  | .user => isFalse fun h => h.elim fun _ hw => Pc.noConfusion hw
  | .pass => isFalse fun h => h.elim fun _ hw => Pc.noConfusion hw
  | .back _ => isFalse fun h => h.elim fun _ hw => Pc.noConfusion hw

instance decidableBack : (p : Pc) → Decidable (∃ w, p = .back w)
  | .back w => isTrue ⟨w, rfl⟩
  | .user => isFalse fun h => h.elim fun _ hw => Pc.noConfusion hw
  | .pass => isFalse fun h => h.elim fun _ hw => Pc.noConfusion hw
  | .schedule _ => isFalse fun h => h.elim fun _ hw => Pc.noConfusion hw

instance decidableMayWait (m : Machine) (idle : ℕ) : Decidable (m.MayWait idle) :=
  inferInstanceAs (Decidable (_ ∧ _))

instance decidableLegal (n idle : ℕ) (m : Machine) : (a : Act) → Decidable (m.Legal n idle a)
  | .rt_sem_take _ _ => inferInstanceAs (Decidable (_ ∧ _ ∧ _))
  | .rt_sem_release _ => inferInstanceAs (Decidable (_ = _))
  | .rt_mutex_take _ _ => inferInstanceAs (Decidable (_ ∧ _ ∧ _ ∧ _))
  | .rt_mutex_release _ => inferInstanceAs (Decidable (_ = _))
  | .rt_event_send _ _ => inferInstanceAs (Decidable (_ = _))
  | .rt_event_recv _ _ _ _ => inferInstanceAs (Decidable (_ ∧ _ ∧ _))
  | .rt_thread_sleep _ => inferInstanceAs (Decidable (_ ∧ _ ∧ _))
  | .rt_thread_yield => inferInstanceAs (Decidable (_ = _))
  | .rt_thread_startup _ => inferInstanceAs (Decidable (_ ∧ _ ∧ _))
  | .rt_enter_critical => inferInstanceAs (Decidable (_ ∧ _))
  | .rt_exit_critical => inferInstanceAs (Decidable (_ = _))
  | .rt_schedule => inferInstanceAs (Decidable (_ ∨ ∃ w, m.pc m.current = .schedule w))
  | .ret => inferInstanceAs (Decidable (∃ w, m.pc m.current = .back w))
  | .tick => isTrue trivial
  | .irq_sem_release _ => isTrue trivial
  | .irq_event_send _ _ => isTrue trivial

/-- Whether callers keep to it can be tried out. -/
instance decidableAlong {P : Machine → Act → Prop} [∀ m a, Decidable (P m a)] (fuel : ℕ) :
    (m : Machine) → (acts : List Act) → Decidable (Along P fuel m acts)
  | _, [] => isTrue trivial
  | m, a :: acts =>
    match hs : m.step fuel a with
    | none => decidable_of_iff (P m a)
        ⟨fun h => ⟨h, fun m' hm => absurd (hs.symm.trans hm).symm (Option.some_ne_none m')⟩,
          fun h => h.1⟩
    | some m' =>
      letI := decidableAlong (P := P) fuel m' acts
      decidable_of_iff (P m a ∧ Along P fuel m' acts)
        ⟨fun h => ⟨h.1, fun _ hm => Option.some_inj.mp (hs.symm.trans hm) ▸ h.2⟩,
          fun h => ⟨h.1, h.2 m' hs⟩⟩

end Machine

/-! ## What threads wait for -/

/-- The events in a set. -/
def bits (set : BitVec 32) : Set ℕ := {j | set.getLsbD j = true}

/-- What is asked for with `RT_EVENT_FLAG_AND` is all events, with `RT_EVENT_FLAG_OR` any. -/
def asked (set : BitVec 32) (option : BitVec 8) : UpperSet (Set ℕ) where
  carrier := {s |
    if option &&& State.RT_EVENT_FLAG_AND ≠ 0 then
      bits set ⊆ s
    else
      option &&& State.RT_EVENT_FLAG_OR ≠ 0 ∧ (bits set ∩ s).Nonempty}
  upper' := by
    intro s s' hle hs
    rw [Set.mem_ofPred_eq] at hs ⊢
    split at hs
    case isTrue h => exact (if_pos h).mpr (hs.trans hle)
    case isFalse h => exact (if_neg h).mpr ⟨hs.1, hs.2.mono (Set.inter_subset_inter_right _ hle)⟩

def Call.want : Call → Want ℕ ℕ ℕ ℕ
  | rt_sem_take i => .permit i
  | rt_mutex_take i => .lock i
  | rt_event_recv e set option => .events e (asked set option)
  | rt_thread_sleep => .nothing

/-- Where a thread stands that is in the call `w`. -/
def status (w : Option Pending) (thread : rt_thread) : Status (Want ℕ ℕ ℕ ℕ) :=
  match w with
  | none => .free
  | some w =>
    if thread.stat = .suspend then
      .waiting w.call.want w.since w.time
    else if thread.error = RT_EOK then
      .granted w.call.want
    else
      .expired w.call.want w.since w.time

/-- The threads without the kernel's lists, priorities and timers. -/
def Machine.waiters (m : Machine) : Waiters ℕ ℕ ℕ ℕ ℕ where
  now := m.now
  status t := status (m.pending t) (m.kernel.thread t)
  value i := (m.kernel.semaphore i).value
  taken := m.taken
  released := m.released
  owner i := (m.kernel.mutex i).owner
  hold i := (m.kernel.mutex i).hold
  holds := m.holds
  sent e := bits (m.kernel.event e).set

end Kernel
