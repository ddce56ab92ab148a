-- SUMMARY: Semaphores, mutexes and events, as the sections of their functions that run with interrupts disabled.
import LynxFly.Kernel.Thread

/-!
# ipc.c

A call either returns at once, or suspends the calling thread and goes on to `rt_schedule`; what
it returns then is the `error` it finds in its thread. Objects that are deleted or reset, mailboxes
and message queues are left out.
-/

namespace Kernel

/-- How a section ends: the call returns, or goes on to `rt_schedule`. -/
inductive Next where
  | ret (error : ℤ)
  | schedule
  deriving DecidableEq

namespace State

/-- The list of the threads that wait for an object, and its order. -/
def flag (k : State) : Ipc → Flag
  | .semaphore i => (k.semaphore i).flag
  | .mutex i => (k.mutex i).flag
  | .event i => (k.event i).flag

/-- The test of the loop in `rt_ipc_list_suspend`. -/
def lower (k : State) (current_priority : ℕ) : Node → Bool
  | .tlist t => current_priority < (k.thread t).current_priority
  | _ => false

/-- `rt_ipc_list_suspend`; `fuel` bounds the walk along the list. -/
def rt_ipc_list_suspend (k : State) (fuel : ℕ) (o : Ipc) (t : ℕ) : Option State :=
  let k := k.rt_thread_suspend t
  match k.flag o with
  | .fifo => some { k with links := k.links.insertBefore (.suspend_thread o) (.tlist t) }
  | .prio => do
    let n ← k.links.seek (.suspend_thread o) (k.lower (k.thread t).current_priority) fuel
      (k.links.next (.suspend_thread o))
    some { k with links := k.links.insertBefore n (.tlist t) }

/-- `rt_ipc_list_resume`. -/
def rt_ipc_list_resume (k : State) (o : Ipc) : Option State := do
  some (k.rt_thread_resume (← entry (k.links.next (.suspend_thread o))))

/-- The end of a call that waits: the current thread is suspended, with a timer if `time` is not
    `RT_WAITING_FOREVER`. -/
def wait (k : State) (fuel : ℕ) (o : Ipc) (time : ℤ) : Option State := do
  let t := k.rt_current_thread
  let k ← k.rt_ipc_list_suspend fuel o t
  if 0 < time then
    (k.rt_timer_set_time t (BitVec.ofInt 32 time)).rt_timer_start fuel t
  else
    some k

/-! ## Semaphores -/

def setSemaphore (k : State) (i value : ℕ) : State :=
  { k with semaphore :=
      Function.update k.semaphore i { k.semaphore i with value := value } }

/-- `rt_sem_take`. -/
def rt_sem_take (k : State) (fuel i : ℕ) (time : ℤ) : Option (State × Next) :=
  let sem := k.semaphore i
  if 0 < sem.value then
    some (k.setSemaphore i (sem.value - 1), .ret RT_EOK)
  else if time = 0 then
    some (k, .ret (-RT_ETIMEOUT))
  else do
    let k := k.update k.rt_current_thread fun thread => { thread with error := RT_EOK }
    some (← k.wait fuel (.semaphore i) time, .schedule)

/-- `rt_sem_release`. -/
def rt_sem_release (k : State) (i : ℕ) : Option (State × Next) :=
  if ¬k.links.isEmpty (.suspend_thread (.semaphore i)) then do
    some (← k.rt_ipc_list_resume (.semaphore i), .schedule)
  else
    some (k.setSemaphore i (((k.semaphore i).value + 1) % 2 ^ 16), .ret RT_EOK)

/-! ## Mutexes -/

def setMutex (k : State) (i : ℕ) (m : rt_mutex) : State :=
  { k with mutex := Function.update k.mutex i m }

/-- `rt_mutex_take`. -/
def rt_mutex_take (k : State) (fuel i : ℕ) (time : ℤ) : Option (State × Next) :=
  let t := k.rt_current_thread
  let m := k.mutex i
  let k := k.update t fun thread => { thread with error := RT_EOK }
  if m.owner = some t then
    some (k.setMutex i { m with hold := (m.hold + 1) % 2 ^ 8 }, .ret RT_EOK)
  else if 0 < m.value then
    some (k.setMutex i
      { m with
        value := m.value - 1
        owner := some t
        original_priority := (k.thread t).current_priority
        hold := (m.hold + 1) % 2 ^ 8 }, .ret RT_EOK)
  else if time = 0 then
    some (k.update t fun thread => { thread with error := -RT_ETIMEOUT }, .ret (-RT_ETIMEOUT))
  else do
    -- The owner is run at the priority of who waits for it.
    let owner ← m.owner
    let priority := (k.thread t).current_priority
    let k :=
      if priority < (k.thread owner).current_priority then
        k.rt_thread_change_priority owner priority
      else
        k
    some (← k.wait fuel (.mutex i) time, .schedule)

/-- `rt_mutex_release`. -/
def rt_mutex_release (k : State) (i : ℕ) : Option (State × Next) :=
  let t := k.rt_current_thread
  let m := k.mutex i
  if m.owner ≠ some t then
    some (k.update t fun thread => { thread with error := -RT_ERROR }, .ret (-RT_ERROR))
  else
    let m := { m with hold := (m.hold + 2 ^ 8 - 1) % 2 ^ 8 }
    if m.hold = 0 then
      let k :=
        if m.original_priority ≠ (k.thread t).current_priority then
          k.rt_thread_change_priority t m.original_priority
        else
          k
      if ¬k.links.isEmpty (.suspend_thread (.mutex i)) then do
        -- The first thread that waits is the new owner.
        let t ← entry (k.links.next (.suspend_thread (.mutex i)))
        let k := k.setMutex i
          { m with
            owner := some t
            original_priority := (k.thread t).current_priority
            hold := m.hold + 1 }
        some (← k.rt_ipc_list_resume (.mutex i), .schedule)
      else
        some (k.setMutex i
          { m with value := (m.value + 1) % 2 ^ 16, owner := none, original_priority := 0xff },
          .ret RT_EOK)
    else
      some (k.setMutex i m, .ret RT_EOK)

/-! ## Events -/

def RT_EVENT_FLAG_AND : BitVec 8 := 0x01
def RT_EVENT_FLAG_OR : BitVec 8 := 0x02
def RT_EVENT_FLAG_CLEAR : BitVec 8 := 0x04

def setEvent (k : State) (e : ℕ) (set : BitVec 32) : State :=
  { k with event := Function.update k.event e { k.event e with set := set } }

/-- Whether the events sent are what is asked for. -/
def received (sent set : BitVec 32) (option : BitVec 8) : Bool :=
  if option &&& RT_EVENT_FLAG_AND ≠ 0 then
    sent &&& set = set
  else
    option &&& RT_EVENT_FLAG_OR ≠ 0 ∧ sent &&& set ≠ 0

/-- The loop of `rt_event_send`, from the node `n` on, and whether a thread was resumed;
    `fuel` bounds its rounds. -/
def resume_received (k : State) (e : ℕ) : ℕ → Node → Bool → Option (State × Bool)
  | 0, _, _ => none
  | fuel + 1, n, need_schedule =>
    if n = .suspend_thread (.event e) then
      some (k, need_schedule)
    else do
      let t ← entry n
      let thread := k.thread t
      let set := (k.event e).set
      let n := k.links.next n
      if received set thread.event_set thread.event_info then
        let k :=
          if thread.event_info &&& RT_EVENT_FLAG_AND ≠ 0 then
            k
          else
            k.update t fun thread => { thread with event_set := thread.event_set &&& set }
        let k :=
          if thread.event_info &&& RT_EVENT_FLAG_CLEAR ≠ 0 then
            k.setEvent e (set &&& ~~~(k.thread t).event_set)
          else
            k
        (k.rt_thread_resume t).resume_received e fuel n true
      else
        k.resume_received e fuel n need_schedule

/-- `rt_event_send`. -/
def rt_event_send (k : State) (fuel e : ℕ) (set : BitVec 32) : Option (State × Next) :=
  if set = 0 then
    some (k, .ret (-RT_ERROR))
  else do
    let k := k.setEvent e ((k.event e).set ||| set)
    let (k, need_schedule) ←
      k.resume_received e fuel (k.links.next (.suspend_thread (.event e))) false
    some (k, if need_schedule then .schedule else .ret RT_EOK)

/-- `rt_event_recv`, and what it has received if it returns at once. -/
def rt_event_recv (k : State) (fuel e : ℕ) (set : BitVec 32) (option : BitVec 8) (timeout : ℤ) :
    Option (State × Next × BitVec 32) :=
  if set = 0 then
    some (k, .ret (-RT_ERROR), 0)
  else
    let t := k.rt_current_thread
    let sent := (k.event e).set
    let k := k.update t fun thread => { thread with error := RT_EOK }
    if received sent set option then
      let k := if option &&& RT_EVENT_FLAG_CLEAR ≠ 0 then k.setEvent e (sent &&& ~~~set) else k
      some (k, .ret RT_EOK, sent &&& set)
    else if timeout = 0 then
      some (k.update t fun thread => { thread with error := -RT_ETIMEOUT }, .ret (-RT_ETIMEOUT), 0)
    else do
      let k := k.update t fun thread => { thread with event_set := set, event_info := option }
      some (← k.wait fuel (.event e) timeout, .schedule, 0)

end State

end Kernel
