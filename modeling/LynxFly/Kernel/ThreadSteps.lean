-- SUMMARY: The steps of sleeping, starting and returning threads, and of interrupts.
import LynxFly.Kernel.ThreadRuns

/-!
# Steps of threads

Each step of the kernel keeps `Sound` and is a step of `Waiters`.
-/

namespace Kernel

open State

namespace Machine

/-! ## Returning from a call -/

section Returning

variable {m : Machine} {fuel n idle t : ℕ} {q : Head → List Node} {w : Pending}

/-- A thread leaves the call it was in. -/
theorem waiters_leave {k : State} (hothers : k.others = m.kernel.others)
    (hthread : ∀ u, u ≠ t → seen (k.thread u) = seen (m.kernel.thread u)) :
    ({ m with kernel := k }.setPc t .user).waiters = m.waiters.put t .free := by
  obtain ⟨hsem, hmutex, hevent, -, -⟩ := others_eq hothers
  have hstatus := status_update (k := m.kernel) (l := k) (p := m.pc)
    (r := Function.update m.pc t .user) (t := t) (s := .free) hthread
    (fun u hu => by rw [Function.update_of_ne hu]) (by rw [Function.update_self]; rfl)
  refine Waiters.ext rfl hstatus ?_ rfl rfl ?_ ?_ rfl ?_
  · exact funext fun i => congrArg (fun f => (f i).value) hsem
  · exact funext fun i => congrArg (fun f => (f i).owner) hmutex
  · exact funext fun i => congrArg (fun f => (f i).hold) hmutex
  · exact funext fun i => congrArg (fun f : ℕ → rt_event => bits (f i).set) hevent

theorem status_of_back (hpc : m.pc m.current = .back w)
    (hs : (m.kernel.thread m.current).stat = .ready) :
    m.waiters.status m.current = if (m.kernel.thread m.current).error = RT_EOK then
      .granted w.call.want else .expired w.call.want w.since w.time := by
  have hne : (m.kernel.thread m.current).stat ≠ .suspend := by
    rw [hs]
    exact Stat.ready_ne_suspend
  simp only [waiters, pending, hpc, Pc.pending, status, if_neg hne]

/-- The two ways to return. -/
theorem step_leave (hpc : m.pc m.current = .back w)
    (hs : (m.kernel.thread m.current).stat = .ready) :
    Waiters.Step (2 ^ 16) (Finset.range n) m.waiters
      (if (m.kernel.thread m.current).error = RT_EOK then
        (m.waiters.put m.current .free).credit m.current w.call.want
      else m.waiters.put m.current .free) := by
  have hstatus := status_of_back hpc hs
  by_cases he : (m.kernel.thread m.current).error = RT_EOK
  · rw [if_pos he] at hstatus ⊢
    exact .back m.current w.call.want hstatus
  · rw [if_neg he] at hstatus ⊢
    exact .give_up m.current w.call.want w.since w.time hstatus

/-- The current thread is ready once it has been through `rt_schedule`. -/
theorem ready_of_back (h : Sound m.kernel m.pc m.now n idle q) (hpc : m.pc m.current = .back w) :
    (m.kernel.thread m.current).stat = .ready := by
  rcases h.running with hs | ⟨w', hw⟩
  · exact hs
  · have heq : Pc.back w = .schedule w' := hpc.symm.trans hw
    exact absurd heq Pc.noConfusion

theorem best_of_back (h : m.Settled) (h0 : m.kernel.rt_scheduler_lock_nest = 0)
    (hpc : m.pc m.current = .back w) : Best m.kernel := by
  refine h h0 ?_ fun w' => ?_
  · rw [hpc]
    exact Pc.noConfusion
  · rw [hpc]
    exact Pc.noConfusion

theorem returns_of_ne (hcall : w.call ≠ .rt_thread_sleep) : m.returns t w =
    if (m.kernel.thread t).error = RT_EOK then (m.setPc t .user).credit t w.call
    else m.setPc t .user := by
  obtain ⟨c, since, time⟩ := w
  cases c with
  | rt_thread_sleep => exact absurd rfl hcall
  | rt_sem_take i => rfl
  | rt_mutex_take i => rfl
  | rt_event_recv e set option => rfl

theorem goes_ret (h : Sound m.kernel m.pc m.now n idle q) (hl : m.Legal n idle .ret) :
    m.Goes fuel n idle .ret := by
  obtain ⟨w, hpc⟩ := hl
  have hs := ready_of_back h hpc
  have hstep := step_leave (n := n) hpc hs
  have hrun : m.step fuel .ret = some (m.returns m.current w) := by simp only [step, hpc]
  have hgoto : Sound m.kernel (Function.update m.pc m.current .user) m.now n idle q :=
    h.goto (.inr ⟨rfl, hs⟩) hs
  have hfree : (Function.update m.pc m.current Pc.user m.current).pending = none := by
    rw [Function.update_self]
    rfl
  have hbest : m.Settled → m.kernel.rt_scheduler_lock_nest = 0 → Best m.kernel :=
    fun hset h0 => best_of_back hset h0 hpc
  by_cases hcall : w.call = .rt_thread_sleep
  · -- Nothing is credited, and the error of the thread is cleared.
    let k' := m.kernel.update m.current fun thread => { thread with
      error := if thread.error = -RT_ETIMEOUT then RT_EOK else thread.error }
    have hself : k'.thread m.current = { m.kernel.thread m.current with
        error := if (m.kernel.thread m.current).error = -RT_ETIMEOUT then RT_EOK
          else (m.kernel.thread m.current).error } := thread_update_self
    have hne : ∀ u, u ≠ m.current → seen (k'.thread u) = seen (m.kernel.thread u) :=
      fun u hu => congrArg seen (thread_update_of_ne hu)
    have hstat : (k'.thread m.current).stat = .ready := by
      rw [hself]
      exact hs
    have hprio : ∀ u, (k'.thread u).stat = (m.kernel.thread u).stat ∧
        (k'.thread u).current_priority = (m.kernel.thread u).current_priority := fun u => by
      by_cases hu : u = m.current
      · rw [hu, hself]
        exact ⟨rfl, rfl⟩
      · rw [show k'.thread u = m.kernel.thread u from thread_update_of_ne hu]
        exact ⟨rfl, rfl⟩
    have hkeep : Sound k' (Function.update m.pc m.current .user) m.now n idle q :=
      hgoto.keep hfree hs (h.waiting.queued.update rfl) (fun _ => rfl) rfl
        (fun o => by cases o <;> rfl) h.mutex hne hstat
    have hret : m.returns m.current w = { m with kernel := k' }.setPc m.current .user := by
      obtain ⟨c, since, time⟩ := w
      subst hcall
      rfl
    refine ⟨_, q, hrun, ?_, ?_, fun hset _ => ?_⟩
    · rw [hret]
      exact hkeep
    · have hleave := waiters_leave (m := m) (k := k') (t := m.current) rfl hne
      rw [hcall] at hstep
      rw [hret]
      refine .single ?_
      split at hstep
      · exact hleave ▸ hstep
      · exact hleave ▸ hstep
    · rw [hret]
      intro h0 _ _
      exact (hbest hset h0).keep rfl (fun u => (hprio u).1) fun u => (hprio u).2
  · refine ⟨_, q, hrun, ?_, ?_, fun hset _ => ?_⟩
    · rw [returns_of_ne hcall]
      split
      · cases w.call <;> exact hgoto
      · exact hgoto
    · have hleave := waiters_leave (m := m) (t := m.current) rfl fun _ _ => rfl
      rw [returns_of_ne hcall]
      refine .single ?_
      split at hstep
      case isTrue he =>
        rw [if_pos he, waiters_credit]
        exact hleave ▸ hstep
      case isFalse he =>
        rw [if_neg he]
        exact hleave ▸ hstep
    · rw [returns_of_ne hcall]
      split
      · cases w.call <;> exact fun h0 _ _ => hbest hset h0
      · exact fun h0 _ _ => hbest hset h0

end Returning

/-! ## Starting and sleeping -/

section Sleeping

variable {m : Machine} {fuel n idle t : ℕ} {q : Head → List Node} {tick : BitVec 32}

theorem goes_rt_thread_startup (h : Sound m.kernel m.pc m.now n idle q)
    (hl : m.Legal n idle (.rt_thread_startup t)) :
    m.Goes fuel n idle (.rt_thread_startup t) := by
  obtain ⟨hpc, hinit, ht⟩ := hl
  obtain ⟨k', hk, hq, hothers, hthread⟩ := h.waiting.queued.rt_thread_startup hinit ht
  obtain ⟨-, hmutex, -, hsched, hflag⟩ := others_eq hothers
  have hfresh : m.pending t = none := (h.waiting.placed t).fresh hinit
  have hcur : k'.rt_current_thread = m.current := (sched_eq hsched).1
  have hne : ∀ u, u ≠ t → seen (k'.thread u) = seen (m.kernel.thread u) := fun u hu => by
    rw [hthread, thread_update_of_ne hu]
  have hs : Sound k' m.pc m.now n idle (woken q t (m.kernel.thread t).init_priority) := by
    refine h.wake hq hsched hflag (fun i => ?_) hne ?_ fun w hw => ?_
    · rw [hmutex]
      exact h.mutex i
    · rw [hthread, thread_update_self]
    · exact absurd (hfresh.symm.trans hw).symm (Option.some_ne_none w)
  refine ⟨m.passes k' .schedule, _, ?_, sound_pass hs hpc hcur, ?_, fun _ _ => settled_passes hcur⟩
  · simp only [step, hk, Option.map_some]
  · have hstatus := status_keep (k := m.kernel) (l := k') (p := m.pc) (r := m.pc) (t := t) hne
      (fun _ => rfl) hfresh
    have heq : { m with kernel := k' }.waiters = m.waiters := by
      obtain ⟨hsem, hmutex, hevent, -, -⟩ := others_eq hothers
      refine Waiters.ext rfl hstatus ?_ rfl rfl ?_ ?_ rfl ?_
      · exact funext fun i => congrArg (fun f => (f i).value) hsem
      · exact funext fun i => congrArg (fun f => (f i).owner) hmutex
      · exact funext fun i => congrArg (fun f => (f i).hold) hmutex
      · exact funext fun i => congrArg (fun f : ℕ → rt_event => bits (f i).set) hevent
    rw [waiters_pass hpc, heq]
    exact .refl

theorem goes_rt_thread_sleep (h : Sound m.kernel m.pc m.now n idle q) (hfuel : n < fuel)
    (hl : m.Legal n idle (.rt_thread_sleep tick)) : m.Goes fuel n idle (.rt_thread_sleep tick) := by
  obtain ⟨hpc, htick, hmay⟩ := hl
  have hs : (m.kernel.thread m.current).stat = .ready := h.ready_of_user hpc
  have hq1 := h.waiting.queued.rt_thread_suspend hs
  have hthread1 := thread_rt_thread_suspend hs
  have hothers1 := others_rt_thread_suspend (k := m.kernel) (t := m.current)
  have htick1 : (m.kernel.rt_thread_suspend m.current).rt_tick = m.kernel.rt_tick :=
    (sched_eq (others_eq hothers1).2.2.2.1).2.2
  have hself1 : (m.kernel.rt_thread_suspend m.current).thread m.current =
      { m.kernel.thread m.current with stat := .suspend } := by
    rw [hthread1, thread_update_self]
  have ha : (m.kernel.thread m.current).thread_timer.activated = false := by
    by_contra hact
    have hsus := h.waiting.queued.timed m.current (by simpa using hact)
    exact Stat.ready_ne_suspend (hs.symm.trans hsus)
  obtain ⟨k', q', hk', hq', hipc, hothers', hne', hparks⟩ := State.Queued.park_timer
    (htick1 ▸ hq1) (by rw [hself1]) (by rw [hself1]; exact ha) htick hfuel
  have hothers := hothers'.trans hothers1
  obtain ⟨-, hmutex, -, hsched, hflag⟩ := others_eq hothers
  have hne : ∀ u, u ≠ m.current → seen (k'.thread u) = seen (m.kernel.thread u) := fun u hu => by
    rw [hne' u hu, hthread1, thread_update_of_ne hu]
  have hsus := hparks.suspended .rt_thread_sleep m.now (fun hc => absurd rfl hc)
    fun e set option hc => absurd hc Call.noConfusion
  have hnot : ∀ o, (q (.ipc o)).erase (.tlist m.current) = q (.ipc o) := fun o =>
    List.erase_of_not_mem (h.not_listed (by rw [hs]; exact Stat.ready_ne_suspend) o)
  refine ⟨m.waits .rt_thread_sleep (some tick.toNat) k' .schedule, q', ?_, ?_, ?_, fun _ _ =>
    settled_of_schedule (w := ⟨.rt_thread_sleep, m.now, some tick.toNat⟩) ?_⟩
  · have hk : m.kernel.rt_thread_sleep fuel tick = some k' := hk'
    simp only [step, hk, Option.map_some]
  · refine h.park hpc hmay.1 hmay.2 (htick1 ▸ hq') hsched hflag (fun i => ?_) hne hparks.stat
      (htick1 ▸ hsus) rfl (fun o _ => (hipc o).trans (hnot o)) fun o ho =>
        absurd ho.symm (Option.some_ne_none o)
    show (k'.mutex i).Ok
    rw [hmutex]
    exact h.mutex i
  · rw [waiters_schedule hothers hne hparks.stat]
    have hm : m.current ∈ Finset.range n := mem_range h.waiting.queued hs
    exact .single (.wait m.current .nothing _ hm (status_of_user hpc) trivial)
  · have hcur : k'.rt_current_thread = m.current := (sched_eq hsched).1
    show Function.update m.pc m.current _ k'.rt_current_thread = _
    rw [hcur, Function.update_self]

end Sleeping

/-! ## Interrupts that release semaphores -/

section Interrupts

variable {m : Machine} {fuel n idle i : ℕ} {q : Head → List Node}

/-- An interrupt makes the thread current that `rt_schedule` finds. -/
theorem exists_rt_schedule {k : State} (h : Sound k m.pc m.now n idle q) : ∃ k',
    k.rt_schedule = some k' ∧ Sound k' m.pc m.now n idle q ∧ k'.others.1 = k.others.1 ∧
      { m with kernel := k' }.waiters = { m with kernel := k }.waiters ∧
        { m with kernel := k' }.Settled := by
  obtain ⟨c, t, hk, ht, hbest⟩ := h.rt_schedule
  exact ⟨_, hk, h.switch ht, rfl, rfl, fun h0 _ _ => hbest h0⟩

theorem goes_irq_sem_release (h : Sound m.kernel m.pc m.now n idle q) :
    m.Goes fuel n idle (.irq_sem_release i) := by
  obtain ⟨k1, next, q1, hk1, hs1, hsched, hnext, hstep⟩ := exists_rt_sem_release h i
  rcases hnext with rfl | ⟨rfl, hthread⟩
  · obtain ⟨k', hk', hs', -, hw, hset⟩ := exists_rt_schedule hs1
    refine ⟨{ m with kernel := k' }.addReleased i, q1, ?_, hs', .single ?_, fun _ _ => hset⟩
    · simp only [step, hk1, Option.bind_some, interrupted, hk', Option.map_some]
    · have heq : ({ m with kernel := k' }.addReleased i).waiters =
          ({ m with kernel := k1 }.addReleased i).waiters :=
        congrArg (fun a => a.addReleased i) hw
      rw [heq]
      exact hstep
  · refine ⟨{ m with kernel := k1 }.addReleased i, q1, ?_, hs1, .single hstep, fun hset _ =>
      hset.keep hsched rfl ?_ ?_⟩
    · simp only [step, hk1, Option.bind_some, interrupted, Option.map_some]
    · exact fun u => congrArg (fun f => (f u).stat) hthread
    · exact fun u => congrArg (fun f => (f u).current_priority) hthread

end Interrupts

/-! ## The tick -/

/-- The same state at another tick. -/
def setTick (k : State) (tick : BitVec 32) : State := { k with rt_tick := tick }

/-- What `rt_tick_increase` does about the time slice of the current thread. -/
def slice (k : State) : Option State :=
  let t := k.rt_current_thread
  let remaining_tick := (k.thread t).remaining_tick - 1#32
  let k := k.update t fun thread => { thread with remaining_tick := remaining_tick }
  if remaining_tick = 0#32 then
    let k := k.update t fun thread => { thread with remaining_tick := thread.init_tick }
    match k.rt_thread_yield with
    | (k, true) => k.rt_schedule
    | (k, false) => some k
  else
    some k

section Slices

variable {k k' : State} {tick : BitVec 32} {fuel t : ℕ}

theorem rt_thread_yield_setTick : (setTick k tick).rt_thread_yield =
    (setTick k.rt_thread_yield.1 tick, k.rt_thread_yield.2) := by
  rw [State.rt_thread_yield, State.rt_thread_yield]
  by_cases h : (k.thread k.rt_current_thread).stat = .ready ∧
      k.links.next (.tlist k.rt_current_thread) ≠ k.links.prev (.tlist k.rt_current_thread)
  · rw [if_pos h]
    exact if_pos h
  · rw [if_neg h]
    exact if_neg h

theorem rt_schedule_setTick :
    (setTick k tick).rt_schedule = k.rt_schedule.map fun k => setTick k tick := by
  rw [rt_schedule_eq, rt_schedule_eq]
  show (if k.rt_scheduler_lock_nest = 0 then _ else _) = _
  by_cases hn : k.rt_scheduler_lock_nest = 0
  · rw [if_pos hn, if_pos hn]
    cases he : entry (k.links.next (.rt_thread_priority_table
        (highest_ready_priority k.rt_thread_ready_priority_group))) with
    | none =>
      show (entry (k.links.next (.rt_thread_priority_table
        (highest_ready_priority k.rt_thread_ready_priority_group)))).bind _ = _
      rw [he]
      rfl
    | some t =>
      show (entry (k.links.next (.rt_thread_priority_table
        (highest_ready_priority k.rt_thread_ready_priority_group)))).bind _ = _
      rw [he]
      show (if t ≠ k.rt_current_thread then _ else _) =
        Option.map _ (if t ≠ k.rt_current_thread then _ else _)
      by_cases ht : t ≠ k.rt_current_thread
      · rw [if_pos ht, if_pos ht]
        rfl
      · rw [if_neg ht, if_neg ht]
        rfl
  · rw [if_neg hn, if_neg hn]
    rfl

theorem rt_tick_increase_eq : k.rt_tick_increase fuel =
    (slice k).bind fun k' => (setTick k' (k.rt_tick + 1#32)).rt_timer_check fuel := by
  let k1 := k.update k.rt_current_thread fun thread =>
    { thread with remaining_tick := (k.thread k.rt_current_thread).remaining_tick - 1#32 }
  let k2 := k1.update k.rt_current_thread fun thread =>
    { thread with remaining_tick := thread.init_tick }
  by_cases h0 : (k.thread k.rt_current_thread).remaining_tick - 1#32 = 0#32
  · have hslice : slice k = match k2.rt_thread_yield with
        | (k, true) => k.rt_schedule
        | (k, false) => some k := if_pos h0
    have htick : k.rt_tick_increase fuel =
        match (setTick k2 (k.rt_tick + 1#32)).rt_thread_yield with
        | (k, true) => k.rt_schedule.bind fun k => k.rt_timer_check fuel
        | (k, false) => (some k).bind fun k => k.rt_timer_check fuel := if_pos h0
    rw [htick, hslice, rt_thread_yield_setTick]
    obtain ⟨k3, need⟩ := k2.rt_thread_yield
    cases need with
    | true =>
      show (setTick k3 _).rt_schedule.bind _ = k3.rt_schedule.bind _
      rw [rt_schedule_setTick]
      cases k3.rt_schedule <;> rfl
    | false => rfl
  · have hslice : slice k = some k1 := if_neg h0
    have htick : k.rt_tick_increase fuel =
        (some (setTick k1 (k.rt_tick + 1#32))).bind fun k => k.rt_timer_check fuel := if_neg h0
    rw [htick, hslice]
    rfl

end Slices

section Slicing

variable {m : Machine} {k k' : State} {pc : ℕ → Pc} {now n idle : ℕ} {q q' : Head → List Node}

/-- Nothing changes that calls depend on. -/
theorem sound_same (h : Sound k pc now n idle q) (hq : Queued k' n k.rt_tick q')
    (hipc : ∀ o, q' (.ipc o) = q (.ipc o)) (hothers : k'.others = k.others)
    (hthread : ∀ u, seen (k'.thread u) = seen (k.thread u)) : Sound k' pc now n idle q' := by
  obtain ⟨-, hmutex, -, hsched, hflag⟩ := others_eq hothers
  obtain ⟨hcur, hnest, htick⟩ := sched_eq hsched
  have hstat : ∀ u, (k'.thread u).stat = (k.thread u).stat := fun u =>
    congrArg Prod.fst (hthread u)
  refine ⟨?_, ?_, hnest ▸ h.nest, ?_, ⟨(hstat idle).trans h.idle.1, h.idle.2⟩, fun i => ?_⟩
  · rw [htick]
    refine h.waiting.move (t := idle) hq hflag (fun u _ => hthread u) (fun _ _ => rfl)
      (fun u _ o => by rw [hipc]) ?_ fun o ho => ?_
    · exact (h.waiting.placed idle).congr (hthread idle) fun o => by rw [hipc]
    · exact h.waiting.fifo_sublist (hipc o ▸ List.Sublist.refl _) (fun _ _ => rfl) ho
  · rw [hcur, hstat]
    exact h.running
  · rw [hcur, hnest, hstat]
    exact h.locked
  · rw [hmutex]
    exact h.mutex i

theorem waiters_same (hothers : k'.others = k.others)
    (hthread : ∀ u, seen (k'.thread u) = seen (k.thread u)) :
    { m with kernel := k' }.waiters = { m with kernel := k }.waiters := by
  obtain ⟨hsem, hmutex, hevent, -, -⟩ := others_eq hothers
  refine Waiters.ext rfl (funext fun u => status_congr (hthread u)) ?_ rfl rfl ?_ ?_ rfl ?_
  · exact funext fun i => congrArg (fun f => (f i).value) hsem
  · exact funext fun i => congrArg (fun f => (f i).owner) hmutex
  · exact funext fun i => congrArg (fun f => (f i).hold) hmutex
  · exact funext fun i => congrArg (fun f : ℕ → rt_event => bits (f i).set) hevent

theorem others_remaining {t : ℕ} {f : rt_thread → BitVec 32} :
    (k.update t fun thread => { thread with remaining_tick := f thread }).others = k.others := rfl

theorem remaining_eq {t : ℕ} {f : rt_thread → BitVec 32} (u : ℕ) :
    seen ((k.update t fun thread => { thread with remaining_tick := f thread }).thread u) =
        seen (k.thread u) ∧
      ((k.update t fun thread => { thread with remaining_tick := f thread }).thread u).stat =
        (k.thread u).stat ∧
      ((k.update t fun thread =>
        { thread with remaining_tick := f thread }).thread u).current_priority =
        (k.thread u).current_priority := by
  by_cases hu : u = t
  · rw [hu, thread_update_self]
    exact ⟨rfl, rfl, rfl⟩
  · rw [thread_update_of_ne hu]
    exact ⟨rfl, rfl, rfl⟩

/-- A time slice ends, or goes on. -/
theorem exists_slice (h : Sound m.kernel m.pc m.now n idle q) : ∃ k' q',
    slice m.kernel = some k' ∧ Sound k' m.pc m.now n idle q' ∧ k'.rt_tick = m.kernel.rt_tick ∧
      { m with kernel := k' }.waiters = m.waiters ∧
        (m.Settled → { m with kernel := k' }.Settled) := by
  let k1 := m.kernel.update m.kernel.rt_current_thread fun thread => { thread with
    remaining_tick := (m.kernel.thread m.kernel.rt_current_thread).remaining_tick - 1#32 }
  have h1 := remaining_eq (k := m.kernel) (t := m.kernel.rt_current_thread) (f := fun _ =>
    (m.kernel.thread m.kernel.rt_current_thread).remaining_tick - 1#32)
  have hs1 : Sound k1 m.pc m.now n idle q :=
    sound_same h (h.waiting.queued.update rfl) (fun _ => rfl) others_remaining fun u => (h1 u).1
  have hw1 : { m with kernel := k1 }.waiters = m.waiters :=
    waiters_same (k := m.kernel) others_remaining fun u => (h1 u).1
  have hset1 : m.Settled → { m with kernel := k1 }.Settled := fun hset =>
    hset.keep rfl rfl (fun u => (h1 u).2.1) fun u => (h1 u).2.2
  by_cases h0 : (m.kernel.thread m.kernel.rt_current_thread).remaining_tick - 1#32 = 0#32
  · let k2 := k1.update m.kernel.rt_current_thread fun thread =>
      { thread with remaining_tick := thread.init_tick }
    have h2 := remaining_eq (k := k1) (t := m.kernel.rt_current_thread)
      (f := fun thread => thread.init_tick)
    have hs2 : Sound k2 m.pc m.now n idle q := sound_same hs1 (hs1.waiting.queued.update rfl)
      (fun _ => rfl) others_remaining fun u => (h2 u).1
    have hw2 : { m with kernel := k2 }.waiters = m.waiters :=
      (waiters_same (k := k1) others_remaining fun u => (h2 u).1).trans hw1
    have hset2 : m.Settled → { m with kernel := k2 }.Settled := fun hset =>
      (hset1 hset).keep rfl rfl (fun u => (h2 u).2.1) fun u => (h2 u).2.2
    have hslice : slice m.kernel = match k2.rt_thread_yield with
        | (k, true) => k.rt_schedule
        | (k, false) => some k := if_pos h0
    by_cases hr : (k2.thread k2.rt_current_thread).stat = .ready
    · obtain ⟨k3, need, hk3, hthread, hothers, hfalse, htrue⟩ :=
        hs2.waiting.queued.rt_thread_yield hr
      cases need with
      | false =>
        refine ⟨k2, q, ?_, hs2, rfl, hw2, hset2⟩
        rw [hslice, hk3, ← (hfalse rfl).1]
      | true =>
        have hipc : ∀ o, moved q k2.rt_current_thread
            (k2.thread k2.rt_current_thread).current_priority (.ipc o) = q (.ipc o) := fun o => by
          rw [moved, Function.update_of_ne (ipc_ne_priority o _)]
          refine List.erase_of_not_mem (hs2.not_listed ?_ o)
          rw [hr]
          exact Stat.ready_ne_suspend
        have hseen : ∀ u, seen (k3.thread u) = seen (k2.thread u) := fun u => by rw [hthread]
        have hs3 := sound_same hs2 (htrue rfl) hipc hothers hseen
        have hw3 : { m with kernel := k3 }.waiters = m.waiters :=
          (waiters_same hothers hseen).trans hw2
        obtain ⟨c, t, hk, ht, hbest⟩ := hs3.rt_schedule
        refine ⟨{ k3 with rt_current_priority := c, rt_current_thread := t }, _, ?_, hs3.switch ht,
          ?_, hw3, fun _ h0 _ _ => hbest h0⟩
        · rw [hslice, hk3]
          exact hk
        · exact (sched_eq (others_eq hothers).2.2.2.1).2.2
    · have hk3 : k2.rt_thread_yield = (k2, false) := if_neg fun hand => hr hand.1
      refine ⟨k2, q, ?_, hs2, rfl, hw2, hset2⟩
      rw [hslice, hk3]
  · exact ⟨k1, q, if_neg h0, hs1, rfl, hw1, hset1⟩

end Slicing

/-- While `rt_timer_check` runs: some whose time is over have given up waiting. -/
structure Ticking (m : Machine) (n idle : ℕ) (k : State) (q : Head → List Node) : Prop where
  sound : Sound (setTick k m.kernel.rt_tick) m.pc m.now n idle q
  tick : k.rt_tick = m.kernel.rt_tick + 1#32
  objects : k.semaphore = m.kernel.semaphore ∧ k.mutex = m.kernel.mutex ∧
    k.event = m.kernel.event
  fired : ∀ u, status (m.pending u) (k.thread u) = m.waiters.status u ∨ ∃ w since d,
    m.waiters.status u = .waiting w since (some d) ∧ due since d ≤ m.now + 1 ∧
      status (m.pending u) (k.thread u) = .expired w since (some d)
  settled : m.Settled → { m with kernel := k }.Settled

section Firing

variable {m : Machine} {k : State} {n idle t fuel : ℕ} {q : Head → List Node}

theorem Ticking.queued (h : m.Ticking n idle k q) : Queued k n m.kernel.rt_tick q :=
  h.sound.waiting.queued.congr rfl (fun _ => rfl) fun _ => rfl

/-- The thread whose timer fires has waited as long as it said. -/
theorem Ticking.over (h : m.Ticking n idle k q) (hm : .timer t ∈ q .timers)
    (hle : k.left m.kernel.rt_tick (.timer t) ≤ 1) : ∃ w d, m.pending t = some w ∧
      w.time = some d ∧ due w.since d ≤ m.now + 1 ∧ (k.thread t).stat = .suspend := by
  have ha := h.queued.timer_mem.mp hm
  have hs := h.queued.timed t ha
  obtain ⟨w, hw, hsus⟩ := (h.sound.waiting.placed t).suspended hs
  cases hd : w.time with
  | none =>
    have hfalse : true = false := ha.symm.trans (hsus.forever hd)
    exact Bool.noConfusion hfalse
  | some d =>
    obtain ⟨-, hleft⟩ := hsus.timer d hd
    refine ⟨w, d, hw, hd, ?_, hs⟩
    have hsince := hsus.since
    have hle : ((k.thread t).thread_timer.timeout_tick - m.kernel.rt_tick).toNat ≤ 1 := hle
    have hleft : ((k.thread t).thread_timer.timeout_tick - m.kernel.rt_tick).toNat + m.now =
      w.since + d := hleft
    show w.since + max 1 d ≤ m.now + 1
    omega

theorem Ticking.expire (h : m.Ticking n idle k q) (hm : .timer t ∈ q .timers)
    (hle : k.left m.kernel.rt_tick (.timer t) ≤ 1) : ∃ k' q',
      (k.expire t).rt_schedule = some k' ∧ m.Ticking n idle k' q' ∧
        (q' .timers).length < (q .timers).length := by
  obtain ⟨w, d, hw, hd, hdue, hs⟩ := h.over hm hle
  have hthread := thread_expire (k := k) (t := t)
  have hself : (k.expire t).thread t = { k.thread t with
      error := -RT_ETIMEOUT
      stat := .ready
      thread_timer.activated := false } := by rw [hthread, thread_update_self]
  have hne : ∀ u, u ≠ t → (k.expire t).thread u = k.thread u := fun u hu => by
    rw [hthread, thread_update_of_ne hu]
  have herror : -RT_ETIMEOUT ≠ RT_EOK := by decide
  have hsound : Sound (setTick (k.expire t) m.kernel.rt_tick) m.pc m.now n idle
      (woken q t (k.thread t).current_priority) := by
    have hq := (h.sound.waiting.queued).expire (t := t) hs
    refine h.sound.wake (t := t) hq rfl (fun o => by cases o <;> rfl) h.sound.mutex
      (fun u hu => congrArg seen (hne u hu)) ?_ fun w' hw' e set option hc he => ?_
    · exact congrArg rt_thread.stat hself
    · exact absurd ((congrArg rt_thread.error hself).symm.trans he) herror
  obtain ⟨c, r, hk, hr, hbest⟩ := hsound.rt_schedule
  have hk' : (k.expire t).rt_schedule =
      some { k.expire t with rt_current_priority := c, rt_current_thread := r } := by
    have heq : k.expire t = setTick (setTick (k.expire t) m.kernel.rt_tick) k.rt_tick := rfl
    rw [heq, rt_schedule_setTick, hk]
    rfl
  refine ⟨_, _, hk', ⟨hsound.switch hr, h.tick, h.objects, fun u => ?_, fun _ h0 _ _ => hbest h0⟩,
    ?_⟩
  · show status (m.pending u) ((k.expire t).thread u) = _ ∨ _
    by_cases hu : u = t
    · subst hu
      have hstatus : m.waiters.status u = .waiting w.call.want w.since (some d) := by
        have hk : status (m.pending u) (k.thread u) =
            .waiting w.call.want w.since (some d) := by
          simp only [hw, status, if_pos hs, hd]
        rcases h.fired u with heq | ⟨w', since, d', -, -, heq⟩
        · exact heq.symm.trans hk
        · cases heq.symm.trans hk
      refine .inr ⟨_, _, d, hstatus, hdue, ?_⟩
      have hnot : ((k.expire u).thread u).stat ≠ .suspend := by
        rw [hself]
        exact Stat.ready_ne_suspend
      have hnot' : ((k.expire u).thread u).error ≠ RT_EOK := by
        rw [hself]
        exact herror
      simp only [hw, status, if_neg hnot, if_neg hnot', hd]
    · rw [hne u hu]
      exact h.fired u
  · have htimers : woken q t (k.thread t).current_priority .timers =
        ((q .timers).erase (.tlist t)).erase (.timer t) := by
      have hne : Head.timers ≠ .priority (k.thread t).current_priority := Head.noConfusion
      exact Function.update_of_ne hne _ _
    have hnot : Node.tlist t ∉ q .timers := fun hmem => by
      obtain ⟨u, hu, -⟩ := (h.queued.timers _).mp hmem
      exact absurd hu Node.noConfusion
    rw [htimers, List.erase_of_not_mem hnot, List.length_erase_of_mem hm]
    have hpos := List.length_pos_of_mem hm
    omega

/-- All whose time is over have given up waiting, and nobody else. -/
theorem Ticking.waiters_tick (h : m.Ticking n idle k q)
    (hleft : ∀ x ∈ q .timers, 2 ≤ k.left m.kernel.rt_tick x) :
    { m with kernel := k, now := m.now + 1 }.waiters = m.waiters.tick := by
  refine Waiters.ext rfl (funext fun u => ?_) ?_ rfl rfl ?_ ?_ rfl ?_
  · show status (m.pending u) (k.thread u) = (m.waiters.status u).elapse (m.now + 1)
    rcases h.fired u with heq | ⟨w, since, d, hstatus, hdue, heq⟩
    · rw [heq]
      cases hs : m.waiters.status u with
      | free => rfl
      | granted w => rfl
      | expired w since time => rfl
      | waiting w since time =>
        cases time with
        | none => rfl
        | some d =>
          -- The timer of a thread that still waits runs on.
          rw [hs] at heq
          have hk : (k.thread u).stat = .suspend ∧ ∃ w', m.pending u = some w' ∧
              w'.since = since ∧ w'.time = some d := by
            simp only [status] at heq
            split at heq
            case h_1 => cases heq
            case h_2 w' hw' =>
              split at heq
              case isTrue hst =>
                have hinj := Status.waiting.inj heq
                exact ⟨hst, w', hw', hinj.2.1, hinj.2.2⟩
              case isFalse =>
                split at heq
                · cases heq
                · cases heq
          obtain ⟨hst, w', hw', rfl, hd⟩ := hk
          obtain ⟨w'', hw'', hsus⟩ := (h.sound.waiting.placed u).suspended hst
          have heq' : w'' = w' := Option.some_inj.mp (hw''.symm.trans hw')
          subst heq'
          obtain ⟨ha, hsum⟩ := hsus.timer d hd
          have h2 := hleft _ (h.queued.timer_mem.mpr ha)
          have h2 : 2 ≤ ((k.thread u).thread_timer.timeout_tick - m.kernel.rt_tick).toNat := h2
          have hsum : ((k.thread u).thread_timer.timeout_tick - m.kernel.rt_tick).toNat + m.now =
            w''.since + d := hsum
          have hlt : ¬due w''.since d ≤ m.now + 1 := by
            show ¬w''.since + max 1 d ≤ m.now + 1
            omega
          exact (if_neg hlt).symm
    · rw [heq, hstatus]
      exact (if_pos hdue).symm
  · exact funext fun i => congrArg (fun f => (f i).value) h.objects.1
  · exact funext fun i => congrArg (fun f => (f i).owner) h.objects.2.1
  · exact funext fun i => congrArg (fun f => (f i).hold) h.objects.2.1
  · exact funext fun i => congrArg (fun f : ℕ → rt_event => bits (f i).set) h.objects.2.2

/-- The timers that run have a tick less to go. -/
theorem Ticking.sound_tick (h : m.Ticking n idle k q)
    (hleft : ∀ x ∈ q .timers, 2 ≤ k.left m.kernel.rt_tick x) :
    Sound k m.pc (m.now + 1) n idle q := by
  obtain ⟨hq, hless⟩ := h.queued.tick fun x hx => Nat.le_of_succ_le (hleft x hx)
  have hs := h.sound
  refine ⟨⟨h.tick ▸ hq, fun u => ?_, fun o ho => hs.waiting.fifo o ?_⟩, hs.running, hs.nest,
    hs.locked, hs.idle, hs.mutex⟩
  · have hp := hs.waiting.placed u
    refine ⟨fun hst => ?_, hp.listed, hp.fresh, hp.given⟩
    obtain ⟨w, hw, hsus⟩ := hp.suspended hst
    refine ⟨w, hw, hsus.clear, hsus.asked, Nat.le_succ_of_le hsus.since, hsus.forever,
      fun d hd => ?_⟩
    obtain ⟨ha, hsum⟩ := hsus.timer d hd
    refine ⟨ha, ?_⟩
    have hm := h.queued.timer_mem.mpr ha
    have h2 := hleft _ hm
    have h1 := hless _ hm
    rw [h.tick]
    have h2 : 2 ≤ ((k.thread u).thread_timer.timeout_tick - m.kernel.rt_tick).toNat := h2
    have h1 : ((k.thread u).thread_timer.timeout_tick - (m.kernel.rt_tick + 1#32)).toNat =
      ((k.thread u).thread_timer.timeout_tick - m.kernel.rt_tick).toNat - 1 := h1
    have hsum : ((k.thread u).thread_timer.timeout_tick - m.kernel.rt_tick).toNat + m.now =
      w.since + d := hsum
    omega
  · cases o <;> exact ho

theorem goes_tick (h : Sound m.kernel m.pc m.now n idle q) (hfuel : n < fuel) :
    m.Goes fuel n idle .tick := by
  obtain ⟨k1, q1, hk1, hs1, htick1, hw1, hset1⟩ := exists_slice h
  have hstart : ({ m with kernel := k1 } : Machine).Ticking n idle (setTick k1 (k1.rt_tick + 1#32))
      q1 := ⟨hs1, rfl, ⟨rfl, rfl, rfl⟩, fun u => .inl rfl, id⟩
  have hlen : (q1 .timers).length < fuel := Nat.lt_of_le_of_lt hs1.waiting.queued.length_le hfuel
  obtain ⟨k', q', hk', ht, hleft⟩ := rt_timer_check_spec
    (I := ({ m with kernel := k1 } : Machine).Ticking n idle)
    (fun k q hI => ⟨hI.queued, hI.tick⟩) (fun k q t hI hm hle => hI.expire hm hle) hstart hlen
  refine ⟨{ m with kernel := k', now := m.now + 1 }, q', ?_, ht.sound_tick hleft, ?_,
    fun hset _ => ?_⟩
  · have hk : m.kernel.rt_tick_increase fuel = some k' := by
      rw [rt_tick_increase_eq, hk1, ← htick1]
      exact hk'
    simp only [step, hk, Option.map_some]
  · have hw := ht.waiters_tick hleft
    have hw : { m with kernel := k', now := m.now + 1 }.waiters = m.waiters.tick := hw1 ▸ hw
    rw [hw]
    exact .single .tick
  · exact ht.settled (hset1 hset)

end Firing

end Machine

end Kernel
