-- SUMMARY: Threads, the scheduler and the timers of threads, over the linked lists they are kept in.
import LynxFly.Base.Links
import LynxFly.Kernel.Config
import Mathlib.Data.BitVec

/-!
# scheduler.c, thread.c, timer.c, clock.c

A thread is in the list of its priority while it is ready, and in the list of an IPC object while
it waits for one. `rt_schedule` looks up the first list that is not empty in a bitmap. The timer
of a thread that waits for so long at most is in the timer list, the next to fire first.

Each definition is what happens with interrupts disabled. The timers are those of threads, which
fire once; user timers, stack checks, hooks and thread deletion are left out.
-/

namespace Kernel

/-! ## Data -/

/-- What threads wait for. -/
inductive Ipc where
  | semaphore (i : ℕ)
  | mutex (i : ℕ)
  | event (i : ℕ)
  deriving DecidableEq

/-- The list nodes there are: the heads of the lists, and what threads are linked by. -/
inductive Node where
  | rt_thread_priority_table (p : ℕ)
  | suspend_thread (o : Ipc)
  | rt_timer_list
  | tlist (t : ℕ)
  | timer (t : ℕ)
  deriving DecidableEq

inductive Stat where
  | init
  | ready
  | suspend
  deriving DecidableEq

/-- `struct rt_timer`, of a thread. -/
structure rt_timer where
  activated : Bool
  init_tick : BitVec 32
  timeout_tick : BitVec 32

/-- `struct rt_thread`. -/
structure rt_thread where
  error : ℤ
  stat : Stat
  current_priority : ℕ
  init_priority : ℕ
  number_mask : BitVec 32
  event_set : BitVec 32
  event_info : BitVec 8
  init_tick : BitVec 32
  remaining_tick : BitVec 32
  thread_timer : rt_timer

/-- In what order threads wait: `RT_IPC_FLAG_FIFO`, `RT_IPC_FLAG_PRIO`. -/
inductive Flag where
  | fifo
  | prio
  deriving DecidableEq

structure rt_semaphore where
  flag : Flag
  value : ℕ

structure rt_mutex where
  flag : Flag
  value : ℕ
  original_priority : ℕ
  hold : ℕ
  owner : Option ℕ

structure rt_event where
  flag : Flag
  set : BitVec 32

/-- The variables of the kernel. -/
structure State where
  links : NodeLinks Node
  thread : ℕ → rt_thread
  semaphore : ℕ → rt_semaphore
  mutex : ℕ → rt_mutex
  event : ℕ → rt_event
  rt_thread_ready_priority_group : BitVec 32
  rt_current_thread : ℕ
  rt_current_priority : ℕ
  rt_scheduler_lock_nest : ℤ
  rt_tick : BitVec 32

namespace State

/-- Changing a thread. -/
def update (k : State) (t : ℕ) (f : rt_thread → rt_thread) : State :=
  { k with thread := Function.update k.thread t (f (k.thread t)) }

/-! ## scheduler.c -/

def rt_lowest_bitmap : List ℕ := [
    /- 00 -/ 0, 0, 1, 0, 2, 0, 1, 0, 3, 0, 1, 0, 2, 0, 1, 0,
    /- 10 -/ 4, 0, 1, 0, 2, 0, 1, 0, 3, 0, 1, 0, 2, 0, 1, 0,
    /- 20 -/ 5, 0, 1, 0, 2, 0, 1, 0, 3, 0, 1, 0, 2, 0, 1, 0,
    /- 30 -/ 4, 0, 1, 0, 2, 0, 1, 0, 3, 0, 1, 0, 2, 0, 1, 0,
    /- 40 -/ 6, 0, 1, 0, 2, 0, 1, 0, 3, 0, 1, 0, 2, 0, 1, 0,
    /- 50 -/ 4, 0, 1, 0, 2, 0, 1, 0, 3, 0, 1, 0, 2, 0, 1, 0,
    /- 60 -/ 5, 0, 1, 0, 2, 0, 1, 0, 3, 0, 1, 0, 2, 0, 1, 0,
    /- 70 -/ 4, 0, 1, 0, 2, 0, 1, 0, 3, 0, 1, 0, 2, 0, 1, 0,
    /- 80 -/ 7, 0, 1, 0, 2, 0, 1, 0, 3, 0, 1, 0, 2, 0, 1, 0,
    /- 90 -/ 4, 0, 1, 0, 2, 0, 1, 0, 3, 0, 1, 0, 2, 0, 1, 0,
    /- A0 -/ 5, 0, 1, 0, 2, 0, 1, 0, 3, 0, 1, 0, 2, 0, 1, 0,
    /- B0 -/ 4, 0, 1, 0, 2, 0, 1, 0, 3, 0, 1, 0, 2, 0, 1, 0,
    /- C0 -/ 6, 0, 1, 0, 2, 0, 1, 0, 3, 0, 1, 0, 2, 0, 1, 0,
    /- D0 -/ 4, 0, 1, 0, 2, 0, 1, 0, 3, 0, 1, 0, 2, 0, 1, 0,
    /- E0 -/ 5, 0, 1, 0, 2, 0, 1, 0, 3, 0, 1, 0, 2, 0, 1, 0,
    /- F0 -/ 4, 0, 1, 0, 2, 0, 1, 0, 3, 0, 1, 0, 2, 0, 1, 0]

/-- The priority `rt_schedule` finds, a byte of the bitmap after the other. -/
def highest_ready_priority (group : BitVec 32) : ℕ :=
  if group &&& 0xff#32 ≠ 0#32 then
    rt_lowest_bitmap.getD (group &&& 0xff#32).toNat 0
  else if group &&& 0xff00#32 ≠ 0#32 then
    rt_lowest_bitmap.getD (group >>> 8 &&& 0xff#32).toNat 0 + 8
  else if group &&& 0xff0000#32 ≠ 0#32 then
    rt_lowest_bitmap.getD (group >>> 16 &&& 0xff#32).toNat 0 + 16
  else
    rt_lowest_bitmap.getD (group >>> 24 &&& 0xff#32).toNat 0 + 24

/-- `rt_list_entry`, for a list of threads: the head of a list is no thread. -/
def entry : Node → Option ℕ
  | .tlist t => some t
  | _ => none

/-- `rt_schedule`. -/
def rt_schedule (k : State) : Option State :=
  if k.rt_scheduler_lock_nest = 0 then do
    let priority := highest_ready_priority k.rt_thread_ready_priority_group
    let to_thread ← entry (k.links.next (.rt_thread_priority_table priority))
    if to_thread ≠ k.rt_current_thread then
      some { k with rt_current_priority := priority, rt_current_thread := to_thread }
    else
      some k
  else
    some k

/-- `rt_schedule_insert_thread`. -/
def rt_schedule_insert_thread (k : State) (t : ℕ) : State :=
  let k := k.update t fun thread => { thread with stat := .ready }
  let thread := k.thread t
  { k with
    links := k.links.insertBefore (.rt_thread_priority_table thread.current_priority) (.tlist t)
    rt_thread_ready_priority_group := k.rt_thread_ready_priority_group ||| thread.number_mask }

/-- `rt_schedule_remove_thread`. -/
def rt_schedule_remove_thread (k : State) (t : ℕ) : State :=
  let thread := k.thread t
  let k := { k with links := k.links.remove (.tlist t) }
  if k.links.isEmpty (.rt_thread_priority_table thread.current_priority) then
    { k with
      rt_thread_ready_priority_group := k.rt_thread_ready_priority_group &&& ~~~thread.number_mask }
  else
    k

/-- `rt_enter_critical`. -/
def rt_enter_critical (k : State) : State :=
  { k with rt_scheduler_lock_nest := k.rt_scheduler_lock_nest + 1 }

/-- `rt_exit_critical`, and whether it goes on to `rt_schedule`. -/
def rt_exit_critical (k : State) : State × Bool :=
  let nest := k.rt_scheduler_lock_nest - 1
  if nest ≤ 0 then
    ({ k with rt_scheduler_lock_nest := 0 }, true)
  else
    ({ k with rt_scheduler_lock_nest := nest }, false)

/-! ## timer.c -/

/-- How far a tick lies ahead, or how long ago, in the arithmetic of ticks. -/
def within (a b : BitVec 32) : Prop := (a - b).toNat < RT_TICK_MAX / 2

instance (a b : BitVec 32) : Decidable (within a b) := inferInstanceAs (Decidable (_ < _))

/-- `rt_timer_control` with `RT_TIMER_CTRL_SET_TIME`, for the timer of a thread. -/
def rt_timer_set_time (k : State) (t : ℕ) (time : BitVec 32) : State :=
  k.update t fun thread => { thread with thread_timer.init_tick := time }

/-- The test of the loop in `rt_timer_start`. -/
def later (k : State) (timeout_tick : BitVec 32) : Node → Bool
  | .timer t => within (k.thread t).thread_timer.timeout_tick timeout_tick
  | _ => false

/-- `rt_timer_start`, for the timer of a thread; `fuel` bounds the walk along the list. -/
def rt_timer_start (k : State) (fuel t : ℕ) : Option State :=
  let timer := (k.thread t).thread_timer
  if timer.activated then
    some k
  else do
    RT_ASSERT (timer.init_tick.toNat < RT_TICK_MAX / 2)
    let timeout_tick := k.rt_tick + timer.init_tick
    let n ← k.links.seek .rt_timer_list (k.later timeout_tick) fuel (k.links.next .rt_timer_list)
    let k := { k with links := k.links.insertBefore n (.timer t) }
    some (k.update t fun thread =>
      { thread with thread_timer := { timer with timeout_tick := timeout_tick, activated := true } })

/-! ## thread.c -/

/-- `rt_thread_suspend`. -/
def rt_thread_suspend (k : State) (t : ℕ) : State :=
  if (k.thread t).stat ≠ .ready then
    k
  else
    (k.update t fun thread => { thread with stat := .suspend }).rt_schedule_remove_thread t

/-- `rt_thread_resume`. -/
def rt_thread_resume (k : State) (t : ℕ) : State :=
  if (k.thread t).stat ≠ .suspend then
    k
  else
    let k := { k with links := k.links.remove (.tlist t) }
    let k := { k with links := k.links.remove (.timer t) }
    let k := k.update t fun thread => { thread with thread_timer.activated := false }
    k.rt_schedule_insert_thread t

/-- `rt_thread_timeout`, the timeout function of the timer of a thread. -/
def rt_thread_timeout (k : State) (t : ℕ) : Option State := do
  RT_ASSERT ((k.thread t).stat = .suspend)
  let k := k.update t fun thread => { thread with error := -RT_ETIMEOUT }
  let k := { k with links := k.links.remove (.tlist t) }
  (k.rt_schedule_insert_thread t).rt_schedule

/-- `rt_thread_startup`, up to `rt_schedule`. -/
def rt_thread_startup (k : State) (t : ℕ) : Option State := do
  RT_ASSERT ((k.thread t).stat = .init)
  let k := k.update t fun thread =>
    { thread with
      current_priority := thread.init_priority
      number_mask := 1#32 <<< thread.init_priority
      stat := .suspend }
  some (k.rt_thread_resume t)

/-- `rt_thread_yield`, up to `rt_schedule`, and whether it goes on to it. -/
def rt_thread_yield (k : State) : State × Bool :=
  let t := k.rt_current_thread
  let thread := k.thread t
  if thread.stat = .ready ∧ k.links.next (.tlist t) ≠ k.links.prev (.tlist t) then
    let k := { k with links := k.links.remove (.tlist t) }
    ({ k with
       links := k.links.insertBefore (.rt_thread_priority_table thread.current_priority) (.tlist t) },
      true)
  else
    (k, false)

/-- `rt_thread_sleep`, up to `rt_schedule`. -/
def rt_thread_sleep (k : State) (fuel : ℕ) (tick : BitVec 32) : Option State :=
  let t := k.rt_current_thread
  ((k.rt_thread_suspend t).rt_timer_set_time t tick).rt_timer_start fuel t

/-- `rt_thread_control` with `RT_THREAD_CTRL_CHANGE_PRIORITY`. -/
def rt_thread_change_priority (k : State) (t priority : ℕ) : State :=
  let change := fun thread : rt_thread =>
    { thread with current_priority := priority, number_mask := 1#32 <<< priority }
  if (k.thread t).stat = .ready then
    ((k.rt_schedule_remove_thread t).update t change).rt_schedule_insert_thread t
  else
    k.update t change

/-! ## timer.c and clock.c, at the tick -/

/-- The thread whose timer is linked by the node. -/
def owner : Node → Option ℕ
  | .timer t => some t
  | _ => none

/-- The loop of `rt_timer_check`; `fuel` bounds its rounds. -/
def rt_timer_check (k : State) : ℕ → Option State
  | 0 => none
  | fuel + 1 =>
    if k.links.isEmpty .rt_timer_list then
      some k
    else do
      let t ← owner (k.links.next .rt_timer_list)
      if within k.rt_tick (k.thread t).thread_timer.timeout_tick then do
        let k := { k with links := k.links.remove (.timer t) }
        let k ← k.rt_thread_timeout t
        let k := k.update t fun thread => { thread with thread_timer.activated := false }
        k.rt_timer_check fuel
      else
        some k

/-- `rt_tick_increase`. -/
def rt_tick_increase (k : State) (fuel : ℕ) : Option State := do
  let k := { k with rt_tick := k.rt_tick + 1#32 }
  let t := k.rt_current_thread
  let remaining_tick := (k.thread t).remaining_tick - 1#32
  let k := k.update t fun thread => { thread with remaining_tick := remaining_tick }
  let k ←
    if remaining_tick = 0#32 then
      let k := k.update t fun thread => { thread with remaining_tick := thread.init_tick }
      match k.rt_thread_yield with
      | (k, true) => k.rt_schedule
      | (k, false) => some k
    else
      some k
  k.rt_timer_check fuel

end State

end Kernel
