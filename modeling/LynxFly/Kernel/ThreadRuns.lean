-- SUMMARY: What holds of threads, semaphores, mutexes, events and time in every run of the kernel.
import LynxFly.Kernel.ThreadLists
import LynxFly.Kernel.Threads

/-!
# Runs of the kernel

A suspended thread is in a call that waits, in the list of the object it waits for, and its timer
runs if it waits for a time only. From this every step of the kernel is a step of `Waiters`.
-/

namespace Kernel

open State

/-! ## Where threads are -/

theorem Stat.ready_ne_suspend : Stat.ready ≠ .suspend := nofun

theorem ipc_ne_priority (o : Ipc) (p : ℕ) : Head.ipc o ≠ .priority p := nofun

/-- A thread suspended in the call `w`. -/
structure Suspended (thread : rt_thread) (base : BitVec 32) (now : ℕ) (w : Pending) : Prop where
  clear : w.call ≠ .rt_thread_sleep → thread.error = RT_EOK
  asked : ∀ e set option, w.call = .rt_event_recv e set option →
    thread.event_set = set ∧ thread.event_info = option
  since : w.since ≤ now
  forever : w.time = none → thread.thread_timer.activated = false
  timer : ∀ time, w.time = some time → thread.thread_timer.activated = true ∧
    (thread.thread_timer.timeout_tick - base).toNat + now = w.since + time

/-- The events a thread has received are some it asked for, and enough. -/
def Given (thread : rt_thread) (w : Pending) : Prop :=
  ∀ e set option, w.call = .rt_event_recv e set option → thread.error = RT_EOK →
    received thread.event_set set option = true ∧ thread.event_set &&& set = thread.event_set

/-- A thread in the call `w`, and the lists it is in. -/
structure Placed (thread : rt_thread) (base : BitVec 32) (now : ℕ) (listed : Ipc → Prop)
    (w : Option Pending) : Prop where
  suspended : thread.stat = .suspend → ∃ w', w = some w' ∧ Suspended thread base now w'
  listed : ∀ o, listed o ↔
    thread.stat = .suspend ∧ ∃ w', w = some w' ∧ w'.call.object = some o
  fresh : thread.stat = .init → w = none
  given : thread.stat = .ready → ∀ w', w = some w' → Given thread w'

/-- What of a thread a call depends on. -/
def seen (thread : rt_thread) : Stat × ℤ × BitVec 32 × BitVec 8 × Bool × BitVec 32 :=
  (thread.stat, thread.error, thread.event_set, thread.event_info,
    thread.thread_timer.activated, thread.thread_timer.timeout_tick)

section Placing

variable {thread thread' : rt_thread} {base : BitVec 32} {now : ℕ} {listed listed' : Ipc → Prop}
  {w : Option Pending}

theorem Placed.congr (h : Placed thread base now listed w) (hs : seen thread' = seen thread)
    (hl : ∀ o, listed' o ↔ listed o) : Placed thread' base now listed' w := by
  obtain ⟨h1, h2, h3, h4, h5, h6⟩ : thread'.stat = thread.stat ∧ thread'.error = thread.error ∧
      thread'.event_set = thread.event_set ∧ thread'.event_info = thread.event_info ∧
      thread'.thread_timer.activated = thread.thread_timer.activated ∧
      thread'.thread_timer.timeout_tick = thread.thread_timer.timeout_tick := by
    simpa only [seen, Prod.mk.injEq] using hs
  refine ⟨fun hst => ?_, fun o => ?_, fun hst => h.fresh (h1 ▸ hst), fun hst w' hw => ?_⟩
  · obtain ⟨w', hw, hsus⟩ := h.suspended (h1 ▸ hst)
    refine ⟨w', hw, ?_, ?_, hsus.since, ?_, ?_⟩
    · rw [h2]
      exact hsus.clear
    · rw [h3, h4]
      exact hsus.asked
    · rw [h5]
      exact hsus.forever
    · rw [h5, h6]
      exact hsus.timer
  · rw [hl, h1]
    exact h.listed o
  · have hg := h.given (h1 ▸ hst) w' hw
    rw [Given] at hg ⊢
    rwa [h2, h3]

/-- A thread that is not suspended is in no list of an object. -/
theorem Placed.not_listed (h : Placed thread base now listed w) (hs : thread.stat ≠ .suspend)
    (o : Ipc) : ¬listed o := fun hl => hs ((h.listed o).mp hl).1

theorem Placed.free (hs : thread.stat ≠ .suspend) (hl : ∀ o, ¬listed o) :
    Placed thread base now listed none :=
  ⟨fun h => absurd h hs, fun o => ⟨fun h => absurd h (hl o), fun h => absurd h.1 hs⟩, fun _ => rfl,
    fun _ _ => nofun⟩

theorem Placed.ready (hs : thread.stat = .ready) (hl : ∀ o, ¬listed o)
    (hg : ∀ w', w = some w' → Given thread w') : Placed thread base now listed w := by
  have hsus : thread.stat ≠ .suspend := by rw [hs]; nofun
  refine ⟨fun h => absurd h hsus, fun o => ?_, fun h => (nomatch hs.symm.trans h), fun _ => hg⟩
  exact ⟨fun h => absurd h (hl o), fun h => absurd h.1 hsus⟩

end Placing

/-- Since when the thread linked by a node waits. -/
def since (pending : ℕ → Option Pending) : Node → ℕ
  | .tlist t => ((pending t).map Pending.since).getD 0
  | _ => 0

/-- Every thread is in the lists its call says, and in those that are first in, first out, the one
    that has waited longest comes first. -/
structure Waiting (k : State) (n : ℕ) (base : BitVec 32) (now : ℕ) (pending : ℕ → Option Pending)
    (q : Head → List Node) : Prop where
  queued : Queued k n base q
  placed : ∀ t, Placed (k.thread t) base now (fun o => .tlist t ∈ q (.ipc o)) (pending t)
  fifo : ∀ o, k.flag o = .fifo →
    (q (.ipc o)).Pairwise fun x y => since pending x ≤ since pending y

section Waiting

variable {k k' : State} {n t u now : ℕ} {base : BitVec 32} {pending pending' : ℕ → Option Pending}
  {q q' : Head → List Node} {o : Ipc}

/-- One thread moves, and the others stay. -/
theorem Waiting.move (h : Waiting k n base now pending q) (hq : Queued k' n base q')
    (hflag : ∀ o, k'.flag o = k.flag o)
    (hthread : ∀ u, u ≠ t → seen (k'.thread u) = seen (k.thread u))
    (hpending : ∀ u, u ≠ t → pending' u = pending u)
    (hlisted : ∀ u, u ≠ t → ∀ o, .tlist u ∈ q' (.ipc o) ↔ .tlist u ∈ q (.ipc o))
    (hself : Placed (k'.thread t) base now (fun o => .tlist t ∈ q' (.ipc o)) (pending' t))
    (hfifo : ∀ o, k.flag o = .fifo →
      (q' (.ipc o)).Pairwise fun x y => since pending' x ≤ since pending' y) :
    Waiting k' n base now pending' q' := by
  refine ⟨hq, fun u => ?_, fun o ho => hfifo o (hflag o ▸ ho)⟩
  by_cases hut : u = t
  · exact hut ▸ hself
  · rw [hpending u hut]
    exact (h.placed u).congr (hthread u hut) (hlisted u hut)

theorem Waiting.fifo_sublist (h : Waiting k n base now pending q) {xs : List Node}
    (hs : xs.Sublist (q (.ipc o))) (hpending : ∀ u, .tlist u ∈ xs → pending' u = pending u)
    (ho : k.flag o = .fifo) : xs.Pairwise fun x y => since pending' x ≤ since pending' y := by
  have hsame : ∀ x ∈ xs, since pending' x = since pending x := by
    intro x hx
    obtain ⟨u, rfl, -⟩ := h.queued.waiting o x (hs.subset hx)
    simp only [since, hpending u hx]
  refine ((h.fifo o ho).sublist hs).imp_of_mem fun {x y} hx hy hle => ?_
  rwa [hsame x hx, hsame y hy]

/-- Who comes to a list comes last, where all others have waited. -/
theorem Waiting.fifo_append (h : Waiting k n base now pending q)
    (hpending : ∀ u, .tlist u ∈ q (.ipc o) → pending' u = pending u)
    (hnow : since pending' (.tlist t) = now) (ho : k.flag o = .fifo) :
    (q (.ipc o) ++ [Node.tlist t]).Pairwise fun x y => since pending' x ≤ since pending' y := by
  refine List.pairwise_append.mpr
    ⟨h.fifo_sublist (List.Sublist.refl _) hpending ho, List.pairwise_singleton _ _, ?_⟩
  intro x hx y hy
  obtain ⟨u, rfl, hs⟩ := h.queued.waiting o x hx
  obtain ⟨w, hw, hsus⟩ := (h.placed u).suspended hs
  rw [List.mem_singleton.mp hy, hnow]
  simp only [since, hpending u hx, hw, Option.map_some, Option.getD_some]
  exact hsus.since

end Waiting

/-! ## Suspending the current thread -/

/-- What suspending does to a thread. -/
structure Parks (thread thread' : rt_thread) (tick : BitVec 32) (time : Option ℕ) : Prop where
  stat : thread'.stat = .suspend
  error : thread'.error = thread.error
  events : thread'.event_set = thread.event_set ∧ thread'.event_info = thread.event_info
  forever : time = none → thread'.thread_timer.activated = false
  timer : ∀ d, time = some d → d < 2 ^ 32 ∧ thread'.thread_timer.activated = true ∧
    thread'.thread_timer.timeout_tick = tick + BitVec.ofNat 32 d

theorem Parks.suspended {thread thread' : rt_thread} {tick : BitVec 32} {time : Option ℕ}
    (call : Call) (hp : Parks thread thread' tick time) (now : ℕ)
    (hclear : call ≠ .rt_thread_sleep → thread.error = RT_EOK)
    (hasked : ∀ e set option, call = .rt_event_recv e set option →
      thread.event_set = set ∧ thread.event_info = option) :
    Suspended thread' tick now ⟨call, now, time⟩ := by
  refine ⟨fun hc => hp.error.trans (hclear hc), fun e set option hc => ?_, Nat.le_refl now,
    hp.forever, fun d hd => ?_⟩
  · rw [hp.events.1, hp.events.2]
    exact hasked e set option hc
  · obtain ⟨hlt, ha, htick⟩ := hp.timer d hd
    refine ⟨ha, ?_⟩
    rw [htick, BitVec.add_comm, BitVec.add_sub_cancel, BitVec.toNat_ofNat, Nat.mod_eq_of_lt hlt]
    exact Nat.add_comm d now

section Parking

variable {k : State} {n t fuel : ℕ} {q : Head → List Node} {o : Ipc} {time : ℤ}

/-- A timer starts for a thread that has just been suspended. -/
theorem State.Queued.park_timer {tick : BitVec 32} (h : Queued k n k.rt_tick q)
    (hs : (k.thread t).stat = .suspend) (ha : (k.thread t).thread_timer.activated = false)
    (hi : tick.toNat < RT_TICK_MAX / 2) (hfuel : n < fuel) :
    ∃ k' q', (k.rt_timer_set_time t tick).rt_timer_start fuel t = some k' ∧
      Queued k' n k.rt_tick q' ∧ (∀ o, q' (.ipc o) = q (.ipc o)) ∧ k'.others = k.others ∧
      (∀ u, u ≠ t → k'.thread u = k.thread u) ∧
      Parks (k.thread t) (k'.thread t) k.rt_tick (some tick.toNat) := by
  have hset : Queued (k.rt_timer_set_time t tick) n (k.rt_timer_set_time t tick).rt_tick q :=
    h.update rfl
  have hself : (k.rt_timer_set_time t tick).thread t =
      { k.thread t with thread_timer.init_tick := tick } := thread_update_self
  obtain ⟨k', xs, ys, hk', -, hq', hothers, hthread⟩ := hset.rt_timer_start
    (by rw [hself]; exact hs) (by rw [hself]; exact ha) (by rw [hself]; exact hi) hfuel
  refine ⟨k', _, hk', hq', fun o => ?_, hothers, fun u hu => ?_, ?_⟩
  · have hne : Head.ipc o ≠ .timers := nofun
    exact Function.update_of_ne hne _ _
  · rw [hthread, thread_update_of_ne hu]
    exact thread_update_of_ne hu
  · rw [hthread, thread_update_self, hself]
    refine ⟨hs, rfl, ⟨rfl, rfl⟩, nofun, ?_⟩
    rintro d ⟨⟩
    refine ⟨tick.isLt, rfl, ?_⟩
    rw [BitVec.ofNat_toNat, BitVec.setWidth_eq]
    rfl

theorem toNat_ofInt (h0 : 0 < time) (h1 : time < RT_TICK_MAX / 2) :
    (BitVec.ofInt 32 time).toNat = time.toNat := by
  obtain ⟨d, rfl⟩ := Int.eq_ofNat_of_zero_le (Int.le_of_lt h0)
  rw [RT_TICK_MAX] at h1
  rw [BitVec.ofInt_natCast, BitVec.toNat_ofNat, Int.toNat_natCast]
  omega

/-- `wait` puts the current thread into the list of an object. -/
theorem State.Queued.wait (h : Queued k n k.rt_tick q) (ht : k.rt_current_thread = t)
    (hs : (k.thread t).stat = .ready) (hfuel : n < fuel) (htime : time < RT_TICK_MAX / 2)
    (o : Ipc) : ∃ k' q' xs ys, k.wait fuel o time = some k' ∧ Queued k' n k.rt_tick q' ∧
      q (.ipc o) = xs ++ ys ∧ q' (.ipc o) = xs ++ .tlist t :: ys ∧ (k.flag o = .fifo → ys = []) ∧
      (∀ o', o' ≠ o → q' (.ipc o') = q (.ipc o')) ∧ k'.others = k.others ∧
      (∀ u, u ≠ t → k'.thread u = k.thread u) ∧
      Parks (k.thread t) (k'.thread t) k.rt_tick (Machine.ticks time) := by
  have ha : (k.thread t).thread_timer.activated = false := by
    by_contra hact
    exact nomatch hs.symm.trans (h.timed t (by simpa using hact))
  obtain ⟨k1, xs, ys, hk1, hq, h1, hothers, hthread, hfifo, -⟩ := h.rt_ipc_list_suspend hs hfuel o
  have htick : k1.rt_tick = k.rt_tick := congrArg (·.2.2.2.2.2) hothers
  have hself : k1.thread t = { k.thread t with stat := .suspend } := by
    rw [hthread, thread_update_self]
  have hne : ∀ u, u ≠ t → k1.thread u = k.thread u := fun u hu => by
    rw [hthread, thread_update_of_ne hu]
  have hipc : ∀ o', o' ≠ o → (Function.update (fun i => (q i).erase (.tlist t)) (.ipc o)
      (xs ++ .tlist t :: ys)) (.ipc o') = q (.ipc o') := fun o' ho => by
    rw [Function.update_of_ne (by simpa using ho)]
    refine List.erase_of_not_mem fun hm => ?_
    exact nomatch hs.symm.trans (h.suspend_of_mem hm)
  have hwait : k.wait fuel o time = if 0 < time then
      (k1.rt_timer_set_time t (BitVec.ofInt 32 time)).rt_timer_start fuel t
    else some k1 := by
    rw [State.wait]
    simp only [ht, hk1]
    rfl
  by_cases hpos : 0 < time
  · have hnat := toNat_ofInt hpos htime
    have hlt : (BitVec.ofInt 32 time).toNat < RT_TICK_MAX / 2 := by
      rw [hnat]
      rw [RT_TICK_MAX] at htime ⊢
      omega
    obtain ⟨k2, q2, hk2, h2, hq2, hothers2, hne2, hparks⟩ :=
      Queued.park_timer (htick ▸ h1) (by rw [hself]) (by rw [hself]; exact ha) hlt hfuel
    refine ⟨k2, q2, xs, ys, ?_, htick ▸ h2, hq, ?_, hfifo, fun o' ho => (hq2 o').trans (hipc o' ho),
      hothers2.trans hothers, fun u hu => (hne2 u hu).trans (hne u hu), ?_⟩
    · rw [hwait, if_pos hpos, hk2]
    · rw [hq2, Function.update_self]
    · rw [Machine.ticks, if_pos hpos, ← hnat, ← htick]
      rw [hself] at hparks
      exact ⟨hparks.stat, hparks.error, hparks.events, hparks.forever, hparks.timer⟩
  · refine ⟨k1, _, xs, ys, ?_, h1, hq, Function.update_self _ _ _, hfifo, hipc, hothers, hne, ?_⟩
    · rw [hwait, if_neg hpos]
    · rw [Machine.ticks, if_neg hpos, hself]
      exact ⟨rfl, rfl, ⟨rfl, rfl⟩, fun _ => ha, fun d hd => absurd hd.symm (Option.some_ne_none d)⟩

end Parking

/-! ## What holds between two steps -/

/-- A mutex is free, or held by its owner. -/
def rt_mutex.Ok (m : rt_mutex) : Prop :=
  m.owner = none ∧ m.value = 1 ∧ m.hold = 0 ∨
    m.owner ≠ none ∧ m.value = 0 ∧ m.hold ≠ 0 ∧ m.hold < 2 ^ 8 ∧
      m.original_priority < RT_THREAD_PRIORITY_MAX

/-- The current thread is ready, or about to call `rt_schedule`; the idle thread always is. -/
structure Sound (k : State) (pc : ℕ → Pc) (now n idle : ℕ) (q : Head → List Node) : Prop where
  waiting : Waiting k n k.rt_tick now (fun t => (pc t).pending) q
  running : (k.thread k.rt_current_thread).stat = .ready ∨
    ∃ w, pc k.rt_current_thread = .schedule w
  nest : 0 ≤ k.rt_scheduler_lock_nest
  locked : k.rt_scheduler_lock_nest ≠ 0 → (k.thread k.rt_current_thread).stat = .ready
  idle : (k.thread idle).stat = .ready ∧ (pc idle).pending = none
  mutex : ∀ i, (k.mutex i).Ok

/-- The variables of the scheduler and the clock. -/
def sched (k : State) : ℕ × ℤ × BitVec 32 :=
  (k.rt_current_thread, k.rt_scheduler_lock_nest, k.rt_tick)

section Keeping

variable {k k' : State} {pc pc' : ℕ → Pc} {now n idle t u c : ℕ} {q q' : Head → List Node}
  {w : Pending} {o : Ipc}

theorem sched_eq (h : sched k' = sched k) : k'.rt_current_thread = k.rt_current_thread ∧
    k'.rt_scheduler_lock_nest = k.rt_scheduler_lock_nest ∧ k'.rt_tick = k.rt_tick := by
  simpa only [sched, Prod.mk.injEq] using h

/-- A thread in no call runs. -/
theorem Sound.ready_of_user (h : Sound k pc now n idle q) (hpc : pc k.rt_current_thread = .user) :
    (k.thread k.rt_current_thread).stat = .ready :=
  h.running.resolve_right fun ⟨_, hw⟩ => nomatch hpc.symm.trans hw

theorem Sound.not_listed (h : Sound k pc now n idle q) (hs : (k.thread t).stat ≠ .suspend)
    (o : Ipc) : Node.tlist t ∉ q (.ipc o) := (h.waiting.placed t).not_listed hs o

/-- The current thread goes on, in no call; its error may be another. -/
theorem Sound.keep (h : Sound k pc now n idle q) (hpc : (pc k.rt_current_thread).pending = none)
    (hs : (k.thread k.rt_current_thread).stat = .ready)
    (hq : Queued k' n k'.rt_tick q') (hipc : ∀ o, q' (.ipc o) = q (.ipc o))
    (hsched : sched k' = sched k) (hflag : ∀ o, k'.flag o = k.flag o)
    (hmutex : ∀ i, (k'.mutex i).Ok)
    (hthread : ∀ u, u ≠ k.rt_current_thread → seen (k'.thread u) = seen (k.thread u))
    (hstat : (k'.thread k.rt_current_thread).stat = .ready) : Sound k' pc now n idle q' := by
  obtain ⟨hcur, hnest, htick⟩ := sched_eq hsched
  have hstats : ∀ u, (k'.thread u).stat = (k.thread u).stat := fun u => by
    by_cases hu : u = k.rt_current_thread
    · rw [hu, hstat, hs]
    · exact congrArg Prod.fst (hthread u hu)
  refine ⟨?_, ?_, hnest ▸ h.nest, fun _ => ?_, ?_, hmutex⟩
  · rw [htick] at hq ⊢
    refine h.waiting.move hq hflag hthread (fun _ _ => rfl) (fun u _ o => by rw [hipc]) ?_
      fun o ho => h.waiting.fifo_sublist (hipc o ▸ List.Sublist.refl _) (fun _ _ => rfl) ho
    rw [hpc]
    refine Placed.free (by rw [hstat]; exact Stat.ready_ne_suspend) fun o => ?_
    rw [hipc]
    exact h.not_listed (by rw [hs]; exact Stat.ready_ne_suspend) o
  · rw [hcur]
    exact .inl hstat
  · rw [hcur]
    exact hstat
  · rw [hstats]
    exact h.idle

/-- The current thread is suspended in a call. -/
theorem Sound.park (h : Sound k pc now n idle q) (hpc : pc k.rt_current_thread = .user)
    (hidle : k.rt_current_thread ≠ idle) (hnest0 : k.rt_scheduler_lock_nest = 0)
    (hq : Queued k' n k.rt_tick q') (hsched : sched k' = sched k)
    (hflag : ∀ o, k'.flag o = k.flag o) (hmutex : ∀ i, (k'.mutex i).Ok)
    (hthread : ∀ u, u ≠ k.rt_current_thread → seen (k'.thread u) = seen (k.thread u))
    (hstat : (k'.thread k.rt_current_thread).stat = .suspend)
    (hsus : Suspended (k'.thread k.rt_current_thread) k.rt_tick now w) (hnow : w.since = now)
    (hipc : ∀ o, w.call.object ≠ some o → q' (.ipc o) = q (.ipc o))
    (hobj : ∀ o, w.call.object = some o → ∃ xs ys, q (.ipc o) = xs ++ ys ∧
      q' (.ipc o) = xs ++ .tlist k.rt_current_thread :: ys ∧ (k.flag o = .fifo → ys = [])) :
    Sound k' (Function.update pc k.rt_current_thread (.schedule w)) now n idle q' := by
  obtain ⟨hcur, hnest, htick⟩ := sched_eq hsched
  have hs := h.ready_of_user hpc
  have hnot := h.not_listed (t := k.rt_current_thread) (by rw [hs]; exact Stat.ready_ne_suspend)
  have hpending : ∀ u, u ≠ k.rt_current_thread →
      (Function.update pc k.rt_current_thread (.schedule w) u).pending = (pc u).pending :=
    fun u hu => by rw [Function.update_of_ne hu]
  have hsame : ∀ o u, .tlist u ∈ q (.ipc o) →
      (Function.update pc k.rt_current_thread (.schedule w) u).pending = (pc u).pending :=
    fun o u hm => hpending u fun hu => hnot o (hu ▸ hm)
  refine ⟨?_, .inr ⟨w, ?_⟩, hnest ▸ h.nest, fun hn => ?_, ?_, hmutex⟩
  · rw [htick]
    refine h.waiting.move hq hflag hthread hpending (fun u hu o => ?_) ?_ fun o ho => ?_
    · by_cases ho : w.call.object = some o
      · obtain ⟨xs, ys, h1, h2, -⟩ := hobj o ho
        rw [h1, h2]
        simp [hu]
      · rw [hipc o ho]
    · simp only [Function.update_self]
      refine ⟨fun _ => ⟨w, rfl, hsus⟩, fun o => ?_, fun hi => (nomatch hstat.symm.trans hi),
        fun hr => (nomatch hstat.symm.trans hr)⟩
      by_cases ho : w.call.object = some o
      · obtain ⟨xs, ys, -, h2, -⟩ := hobj o ho
        rw [h2]
        simp only [List.mem_append, List.mem_cons, true_or, or_true, true_iff]
        exact ⟨hstat, w, rfl, ho⟩
      · rw [hipc o ho]
        refine ⟨fun hm => absurd hm (hnot o), ?_⟩
        rintro ⟨-, w', ⟨⟩, hw'⟩
        exact absurd hw' ho
    · by_cases hob : w.call.object = some o
      · obtain ⟨xs, ys, h1, h2, hys⟩ := hobj o hob
        rw [h2, hys ho]
        have hq' : q (.ipc o) = xs := by rw [h1, hys ho, List.append_nil]
        rw [← hq']
        refine h.waiting.fifo_append (hsame o) ?_ ho
        simp only [since, Function.update_self]
        exact hnow
      · rw [hipc o hob]
        exact h.waiting.fifo_sublist (List.Sublist.refl _) (hsame o) ho
  · rw [hcur, Function.update_self]
  · exact absurd (hnest.trans hnest0) hn
  · rw [Function.update_of_ne (Ne.symm hidle)]
    exact ⟨(congrArg Prod.fst (hthread idle (Ne.symm hidle))).trans h.idle.1, h.idle.2⟩

theorem woken_ipc : woken q t c (.ipc o) = ((q (.ipc o)).erase (.tlist t)).erase (.timer t) := by
  exact Function.update_of_ne (ipc_ne_priority o c) _ _

theorem woken_sublist : (woken q t c (.ipc o)).Sublist (q (.ipc o)) := by
  rw [woken_ipc]
  exact List.erase_sublist.trans List.erase_sublist

theorem State.Queued.mem_woken {base : BitVec 32} (h : Queued k n base q) :
    .tlist u ∈ woken q t c (.ipc o) ↔ u ≠ t ∧ .tlist u ∈ q (.ipc o) := by
  have hne : Node.tlist u ≠ .timer t := nofun
  rw [woken_ipc, List.mem_erase_of_ne hne, (h.lists.nodup (.ipc o)).mem_erase_iff]
  simp

/-- A thread comes out of the lists it waited in, and is ready. -/
theorem Waiting.wake {base : BitVec 32} {pending : ℕ → Option Pending}
    (h : Waiting k n base now pending q) (hq : Queued k' n base (woken q t c))
    (hflag : ∀ o, k'.flag o = k.flag o)
    (hthread : ∀ u, u ≠ t → seen (k'.thread u) = seen (k.thread u))
    (hstat : (k'.thread t).stat = .ready)
    (hgiven : ∀ w, pending t = some w → Given (k'.thread t) w) :
    Waiting k' n base now pending (woken q t c) := by
  refine h.move (t := t) hq hflag hthread (fun _ _ => rfl) (fun u hu o => ?_) ?_ fun o ho =>
    h.fifo_sublist woken_sublist (fun _ _ => rfl) ho
  · rw [h.queued.mem_woken]
    exact and_iff_right hu
  · exact Placed.ready hstat (fun o hm => (h.queued.mem_woken.mp hm).1 rfl) hgiven

theorem Sound.wake (h : Sound k pc now n idle q) (hq : Queued k' n k.rt_tick (woken q t c))
    (hsched : sched k' = sched k) (hflag : ∀ o, k'.flag o = k.flag o)
    (hmutex : ∀ i, (k'.mutex i).Ok)
    (hthread : ∀ u, u ≠ t → seen (k'.thread u) = seen (k.thread u))
    (hstat : (k'.thread t).stat = .ready)
    (hgiven : ∀ w, (pc t).pending = some w → Given (k'.thread t) w) :
    Sound k' pc now n idle (woken q t c) := by
  obtain ⟨hcur, hnest, htick⟩ := sched_eq hsched
  have hready : ∀ u, (k.thread u).stat = .ready → (k'.thread u).stat = .ready := fun u hu => by
    by_cases hut : u = t
    · rw [hut, hstat]
    · exact (congrArg Prod.fst (hthread u hut)).trans hu
  refine ⟨?_, ?_, hnest ▸ h.nest, fun hn => ?_, ⟨hready idle h.idle.1, h.idle.2⟩, hmutex⟩
  · rw [htick]
    exact h.waiting.wake hq hflag hthread hstat hgiven
  · rw [hcur]
    exact h.running.imp (hready _) id
  · rw [hcur]
    exact hready _ (h.locked (hnest ▸ hn))

/-- `rt_schedule` finds a ready thread, and none that is ready has a higher priority. -/
theorem Sound.rt_schedule (h : Sound k pc now n idle q) : ∃ c t,
    k.rt_schedule = some { k with rt_current_priority := c, rt_current_thread := t } ∧
      (k.thread t).stat = .ready ∧
      (k.rt_scheduler_lock_nest = 0 → ∀ u, (k.thread u).stat = .ready →
        (k.thread t).current_priority ≤ (k.thread u).current_priority) := by
  by_cases hn : k.rt_scheduler_lock_nest = 0
  · obtain ⟨p, t, xs, c, hk, hp, hlow⟩ := h.waiting.queued.rt_schedule hn h.idle.1
    have hm : Node.tlist t ∈ q (.priority p) := hp ▸ List.mem_cons_self
    have ht := h.waiting.queued.ready_iff.mp hm
    refine ⟨c, t, hk, ht.1, fun _ u hu => ?_⟩
    rw [ht.2]
    by_contra hlt
    have hu := h.waiting.queued.ready_iff.mpr ⟨hu, rfl⟩
    rw [hlow _ (Nat.lt_of_not_le hlt)] at hu
    exact absurd hu List.not_mem_nil
  · exact ⟨k.rt_current_priority, k.rt_current_thread, rt_schedule_of_locked hn, h.locked hn,
      fun h0 => absurd h0 hn⟩

/-- Another thread becomes the current one. -/
theorem Sound.switch (h : Sound k pc now n idle q) (hs : (k.thread t).stat = .ready) :
    Sound { k with rt_current_priority := c, rt_current_thread := t } pc now n idle q := by
  have hq : Queued { k with rt_current_priority := c, rt_current_thread := t } n k.rt_tick q :=
    h.waiting.queued.congr rfl (fun _ => rfl) fun _ => rfl
  have hw := h.waiting.move (t := t) hq (fun o => by cases o <;> rfl) (fun _ _ => rfl)
    (fun _ _ => rfl) (fun _ _ _ => Iff.rfl) (h.waiting.placed t) h.waiting.fifo
  exact ⟨hw, .inl hs, h.nest, fun _ => hs, h.idle, h.mutex⟩

/-- A thread goes on in the call it is in. -/
theorem Sound.goto {p : Pc} (h : Sound k pc now n idle q)
    (hp : p.pending = (pc t).pending ∨ p.pending = none ∧ (k.thread t).stat = .ready)
    (hs : (k.thread k.rt_current_thread).stat = .ready) :
    Sound k (Function.update pc t p) now n idle q := by
  have hpending : ∀ u, u ≠ t → (Function.update pc t p u).pending = (pc u).pending := fun u hu => by
    rw [Function.update_of_ne hu]
  refine ⟨?_, .inl hs, h.nest, fun _ => hs, ⟨h.idle.1, ?_⟩, h.mutex⟩
  · refine h.waiting.move (t := t) h.waiting.queued (fun _ => rfl) (fun _ _ => rfl) hpending
      (fun _ _ _ => Iff.rfl) ?_ fun o ho =>
        h.waiting.fifo_sublist (List.Sublist.refl _) (fun u hu => ?_) ho
    · rw [Function.update_self]
      rcases hp with hp | ⟨hp, hr⟩
      · rw [hp]
        exact h.waiting.placed t
      · rw [hp]
        have hne : (k.thread t).stat ≠ .suspend := by rw [hr]; exact Stat.ready_ne_suspend
        exact Placed.free hne (h.not_listed hne)
    · by_cases hut : u = t
      · subst hut
        rw [Function.update_self]
        exact hp.resolve_right fun hr =>
          h.not_listed (by rw [hr.2]; exact Stat.ready_ne_suspend) o hu
      · exact hpending u hut
  · by_cases hit : idle = t
    · rw [hit, Function.update_self]
      rcases hp with hp | hp
      · rw [hp, ← hit]
        exact h.idle.2
      · exact hp.1
    · rw [hpending idle hit]
      exact h.idle.2

end Keeping

/-! ## Steps that threads see -/

section Seeing

variable {k k' l : State} {p r : ℕ → Pc} {t : ℕ} {s : Status (Want ℕ ℕ ℕ ℕ)}

theorem status_congr {w : Option Pending} {thread thread' : rt_thread}
    (hs : seen thread' = seen thread) : status w thread' = status w thread := by
  have h1 : thread'.stat = thread.stat := congrArg Prod.fst hs
  have h2 : thread'.error = thread.error := congrArg (·.2.1) hs
  simp only [status, h1, h2]

/-- One thread moves. -/
theorem status_update (hthread : ∀ u, u ≠ t → seen (l.thread u) = seen (k.thread u))
    (hp : ∀ u, u ≠ t → (r u).pending = (p u).pending)
    (hs : status (r t).pending (l.thread t) = s) :
    (fun u => status (r u).pending (l.thread u)) =
      Function.update (fun u => status (p u).pending (k.thread u)) t s := by
  funext u
  by_cases hut : u = t
  · rw [hut, Function.update_self, hs]
  · rw [Function.update_of_ne hut, hp u hut, status_congr (hthread u hut)]

/-- A thread in no call has moved. -/
theorem status_keep (hthread : ∀ u, u ≠ t → seen (l.thread u) = seen (k.thread u))
    (hp : ∀ u, (r u).pending = (p u).pending) (ht : (p t).pending = none) :
    (fun u => status (r u).pending (l.thread u)) =
      fun u => status (p u).pending (k.thread u) := by
  rw [status_update (s := .free) hthread (fun u _ => hp u) (by rw [hp, ht]; rfl)]
  refine Function.update_eq_self_iff.mpr ?_
  rw [ht]
  rfl

theorem others_eq (h : k'.others = k.others) : k'.semaphore = k.semaphore ∧ k'.mutex = k.mutex ∧
    k'.event = k.event ∧ sched k' = sched k ∧ ∀ o, k'.flag o = k.flag o := by
  obtain ⟨h1, h2, h3, h4, h5, h6⟩ : k'.semaphore = k.semaphore ∧ k'.mutex = k.mutex ∧
      k'.event = k.event ∧ k'.rt_current_thread = k.rt_current_thread ∧
      k'.rt_scheduler_lock_nest = k.rt_scheduler_lock_nest ∧ k'.rt_tick = k.rt_tick := by
    simpa only [others, Prod.mk.injEq] using h
  refine ⟨h1, h2, h3, by rw [sched, h4, h5, h6, sched], fun o => ?_⟩
  cases o with
  | semaphore i => rw [flag, flag, h1]
  | mutex i => rw [flag, flag, h2]
  | event e => rw [flag, flag, h3]

end Seeing

namespace Machine

/-- No ready thread has a higher priority than the current one. -/
def Best (k : State) : Prop := ∀ u, (k.thread u).stat = .ready →
  (k.thread k.rt_current_thread).current_priority ≤ (k.thread u).current_priority

/-- So it is unless the scheduler is locked or about to be called. -/
def Settled (m : Machine) : Prop :=
  m.kernel.rt_scheduler_lock_nest = 0 → m.pc m.current ≠ .pass →
    (∀ w, m.pc m.current ≠ .schedule w) → Best m.kernel

/-- `rt_mutex_release` gives a priority back, and does not call `rt_schedule`. -/
def Lowers (m : Machine) (a : Act) : Prop := ∃ i, a = .rt_mutex_release i ∧
  (m.kernel.mutex i).owner = some m.current ∧ (m.kernel.mutex i).hold = 1 ∧
    m.running.current_priority < (m.kernel.mutex i).original_priority ∧
      m.kernel.links.isEmpty (.suspend_thread (.mutex i)) = true

/-- A step the kernel takes, as its threads see it. -/
def Goes (fuel n idle : ℕ) (m : Machine) (a : Act) : Prop :=
  ∃ m' q', m.step fuel a = some m' ∧ Sound m'.kernel m'.pc m'.now n idle q' ∧
    Waiters.Steps (2 ^ 16) (Finset.range n) m.waiters m'.waiters ∧
      (m.Settled → ¬m.Lowers a → m'.Settled)

section Settling

variable {m m' : Machine}

theorem Best.keep {k k' : State} (h : Best k) (hcur : k'.rt_current_thread = k.rt_current_thread)
    (hstat : ∀ u, (k'.thread u).stat = (k.thread u).stat)
    (hprio : ∀ u, (k'.thread u).current_priority = (k.thread u).current_priority) : Best k' := by
  intro u hu
  rw [hstat] at hu
  rw [hcur, hprio, hprio]
  exact h u hu

theorem Settled.keep (h : m.Settled) (hsched : sched m'.kernel = sched m.kernel)
    (hpc : m'.pc = m.pc) (hstat : ∀ u, (m'.kernel.thread u).stat = (m.kernel.thread u).stat)
    (hprio : ∀ u, (m'.kernel.thread u).current_priority = (m.kernel.thread u).current_priority) :
    m'.Settled := by
  obtain ⟨hcur, hnest, -⟩ := sched_eq hsched
  intro h0 h1 h2
  rw [hpc, current, hcur] at h1 h2
  exact (h (hnest ▸ h0) h1 h2).keep hcur hstat hprio

theorem settled_of_schedule {w : Pending} (h : m.pc m.current = .schedule w) : m.Settled :=
  fun _ _ h2 => absurd h (h2 w)

theorem settled_of_pass (h : m.pc m.current = .pass) : m.Settled := fun _ h1 => absurd h h1

end Settling

section Blocking

variable {m : Machine} {fuel n idle : ℕ} {q q1 : Head → List Node} {call : Call} {o : Ipc}
  {time : ℤ} {k1 : State}

theorem status_of_user (hpc : m.pc m.current = .user) : m.waiters.status m.current = .free := by
  simp only [waiters, pending, hpc, Pc.pending, status]

theorem mem_range {k : State} {base : BitVec 32} {t : ℕ} (h : Queued k n base q)
    (hs : (k.thread t).stat = .ready) : t ∈ Finset.range n :=
  Finset.mem_range.mpr (h.started t (by rw [hs]; nofun))

/-- What the threads see of a call that waits. -/
theorem waiters_schedule {k' : State} {time : Option ℕ} (hothers : k'.others = m.kernel.others)
    (hthread : ∀ u, u ≠ m.current → seen (k'.thread u) = seen (m.kernel.thread u))
    (hstat : (k'.thread m.current).stat = .suspend) :
    (m.waits call time k' .schedule).waiters =
      m.waiters.put m.current (.waiting call.want m.now time) := by
  obtain ⟨hsem, hmutex, hevent, -, -⟩ := others_eq hothers
  have hstatus := status_update (l := k') (p := m.pc) (r := (m.waits call time k' .schedule).pc)
    (s := .waiting call.want m.now time) hthread
    (fun u hu => by simp only [waits, setPc, Function.update_of_ne hu])
    (by simp only [waits, setPc, Function.update_self, Pc.pending, status, if_pos hstat])
  refine Waiters.ext rfl hstatus ?_ rfl rfl ?_ ?_ rfl ?_
  · exact funext fun i => congrArg (fun f => (f i).value) hsem
  · exact funext fun i => congrArg (fun f => (f i).owner) hmutex
  · exact funext fun i => congrArg (fun f => (f i).hold) hmutex
  · exact funext fun i => congrArg (fun f : ℕ → rt_event => bits (f i).set) hevent

/-- A call finds what it wants missing, and waits. -/
theorem exists_wait (call : Call) (k1 : State) (h : Sound m.kernel m.pc m.now n idle q)
    (hfuel : n < fuel) (hpc : m.pc m.current = .user) (hmay : m.MayWait idle)
    (htime : time < RT_TICK_MAX / 2)
    (hobj : call.object = some o) (hq1 : Queued k1 n m.kernel.rt_tick q1)
    (hipc1 : ∀ o, q1 (.ipc o) = q (.ipc o)) (hothers1 : k1.others = m.kernel.others)
    (hthread1 : ∀ u, u ≠ m.current → seen (k1.thread u) = seen (m.kernel.thread u))
    (hstat1 : (k1.thread m.current).stat = .ready) (herror1 : (k1.thread m.current).error = RT_EOK)
    (hasked1 : ∀ e set option, call = .rt_event_recv e set option →
      (k1.thread m.current).event_set = set ∧ (k1.thread m.current).event_info = option)
    (hmissing : m.waiters.Missing m.current call.want) :
    ∃ k' q', k1.wait fuel o time = some k' ∧
      Sound k' (m.waits call (ticks time) k' .schedule).pc m.now n idle q' ∧
        Waiters.Steps (2 ^ 16) (Finset.range n) m.waiters
          (m.waits call (ticks time) k' .schedule).waiters ∧
            (m.waits call (ticks time) k' .schedule).Settled := by
  obtain ⟨-, hmutex1, -, hsched1, hflag1⟩ := others_eq hothers1
  have htick1 := (sched_eq hsched1).2.2
  have hcur1 := (sched_eq hsched1).1
  obtain ⟨k', q', xs, ys, hwait, hq', hxs, hys, hfifo, hipc, hothers, hne, hparks⟩ :=
    (htick1 ▸ hq1).wait hcur1 hstat1 hfuel htime o
  obtain ⟨-, hmutex, -, hsched, hflag⟩ := others_eq hothers
  have hthread : ∀ u, u ≠ m.current → seen (k'.thread u) = seen (m.kernel.thread u) :=
    fun u hu => (congrArg seen (hne u hu)).trans (hthread1 u hu)
  have hsus := hparks.suspended call m.now (fun _ => herror1) hasked1
  refine ⟨k', q', hwait, ?_, ?_, settled_of_schedule (w := ⟨call, m.now, ticks time⟩) ?_⟩
  · refine h.park hpc hmay.1 hmay.2 (htick1 ▸ hq') (hsched.trans hsched1)
      (fun o => (hflag o).trans (hflag1 o)) (fun i => ?_) hthread hparks.stat (htick1 ▸ hsus) rfl
      (fun o' ho' => ?_) fun o' ho' => ?_
    · rw [hmutex, hmutex1]
      exact h.mutex i
    · rw [hipc o' fun heq => ho' (heq ▸ hobj), hipc1]
    · have heq : o = o' := Option.some_inj.mp (hobj.symm.trans ho')
      subst heq
      exact ⟨xs, ys, (hipc1 o).symm.trans hxs, hys, fun hf => hfifo ((hflag1 o).trans hf)⟩
  · rw [waiters_schedule (hothers.trans hothers1) hthread hparks.stat]
    have hm : m.current ∈ Finset.range n := mem_range h.waiting.queued (h.ready_of_user hpc)
    exact .single (.wait m.current call.want _ hm (status_of_user hpc) hmissing)
  · have hcur : k'.rt_current_thread = m.current := (sched_eq hsched).1.trans hcur1
    show Function.update m.pc m.current _ k'.rt_current_thread = _
    rw [hcur, Function.update_self]

end Blocking

/-! ## Waking a thread -/

section Waking

variable {m : Machine} {k : State} {pc : ℕ → Pc} {now n idle u : ℕ} {q : Head → List Node}
  {w : Pending} {o : Ipc}

theorem isEmpty_ipc_iff {base : BitVec 32} (h : Queued k n base q) :
    k.links.isEmpty (.suspend_thread o) = true ↔ q (.ipc o) = [] := by
  have hiff := h.lists.isEmpty_iff (i := Head.ipc o)
  exact hiff

/-- The first of those that wait for an object. -/
theorem exists_head (h : Sound k pc now n idle q)
    (hne : ¬k.links.isEmpty (.suspend_thread o) = true) : ∃ u xs w,
      q (.ipc o) = .tlist u :: xs ∧ entry (k.links.next (.suspend_thread o)) = some u ∧
        (k.thread u).stat = .suspend ∧ (pc u).pending = some w ∧ w.call.object = some o ∧
          Suspended (k.thread u) k.rt_tick now w := by
  have hq := h.waiting.queued
  obtain ⟨x, xs, hx⟩ : ∃ x xs, q (.ipc o) = x :: xs :=
    List.exists_cons_of_ne_nil fun he => hne ((isEmpty_ipc_iff hq).mpr he)
  obtain ⟨u, rfl, -⟩ := hq.waiting o x (hx ▸ List.mem_cons_self)
  obtain ⟨hs, w, hw, hob⟩ := ((h.waiting.placed u).listed o).mp (hx ▸ List.mem_cons_self)
  obtain ⟨w', hw', hsus⟩ := (h.waiting.placed u).suspended hs
  have heq : w' = w := Option.some_inj.mp (hw'.symm.trans hw)
  refine ⟨u, xs, w, hx, ?_, hs, hw, hob, heq ▸ hsus⟩
  have hnext := hq.lists.next_head (i := .ipc o)
  rw [hx] at hnext
  show entry (k.links.next (Head.ipc o).node) = some u
  rw [hnext]
  rfl

/-- Nobody waits for an object whose list is empty. -/
theorem not_waits_of_isEmpty (h : Sound m.kernel m.pc m.now n idle q)
    (he : m.kernel.links.isEmpty (.suspend_thread o) = true) (want : Want ℕ ℕ ℕ ℕ)
    (hwant : ∀ call : Call, call.want = want → call.object = some o) (t : ℕ) :
    ¬m.waiters.Waits t want := by
  rintro ⟨since, time, hs⟩
  have hnil := (isEmpty_ipc_iff h.waiting.queued).mp he
  simp only [waiters, status] at hs
  split at hs
  case h_1 => exact nomatch hs
  case h_2 w hw =>
    split at hs
    case isTrue hst =>
      have hobj := hwant w.call (Status.waiting.inj hs).1
      have hm := ((h.waiting.placed t).listed o).mpr ⟨hst, w, hw, hobj⟩
      rw [hnil] at hm
      exact absurd hm List.not_mem_nil
    case isFalse => split at hs <;> exact nomatch hs

theorem sound_resume (h : Sound k pc now n idle q) (hs : (k.thread u).stat = .suspend)
    (hgiven : ∀ w, (pc u).pending = some w → Given (k.thread u) w) :
    Sound (k.rt_thread_resume u) pc now n idle (woken q u (k.thread u).current_priority) := by
  obtain ⟨-, hmutex, -, hsched, hflag⟩ := others_eq (others_rt_thread_resume (k := k) (t := u))
  have hthread := thread_rt_thread_resume hs
  refine h.wake (h.waiting.queued.rt_thread_resume hs) hsched hflag (fun i => ?_) (fun v hv => ?_)
    ?_ fun w hw => ?_
  · rw [hmutex]
    exact h.mutex i
  · rw [hthread, thread_update_of_ne hv]
  · rw [hthread, thread_update_self]
  · rw [hthread, thread_update_self]
    exact hgiven w hw

theorem waiters_resume {m : Machine} (hs : (m.kernel.thread u).stat = .suspend)
    (hw : m.pending u = some w) (herror : (m.kernel.thread u).error = RT_EOK) :
    { m with kernel := m.kernel.rt_thread_resume u }.waiters =
      m.waiters.put u (.granted w.call.want) := by
  obtain ⟨hsem, hmutex, hevent, -, -⟩ :=
    others_eq (others_rt_thread_resume (k := m.kernel) (t := u))
  have hthread := thread_rt_thread_resume hs
  have hself : ((m.kernel.rt_thread_resume u).thread u).stat = .ready ∧
      ((m.kernel.rt_thread_resume u).thread u).error = RT_EOK := by
    rw [hthread, thread_update_self]
    exact ⟨rfl, herror⟩
  have hstatus := status_update (k := m.kernel) (l := m.kernel.rt_thread_resume u) (p := m.pc)
    (r := m.pc) (t := u) (s := .granted w.call.want)
    (fun v hv => by rw [hthread, thread_update_of_ne hv])
    (fun _ _ => rfl) (by
      rw [pending] at hw
      simp only [hw, status, hself.1, hself.2]
      rfl)
  refine Waiters.ext rfl hstatus ?_ rfl rfl ?_ ?_ rfl ?_
  · exact funext fun i => congrArg (fun f => (f i).value) hsem
  · exact funext fun i => congrArg (fun f => (f i).owner) hmutex
  · exact funext fun i => congrArg (fun f => (f i).hold) hmutex
  · exact funext fun i => congrArg (fun f : ℕ → rt_event => bits (f i).set) hevent

/-- A thread in no call goes on to `rt_schedule`. -/
theorem waiters_pass {m : Machine} {k : State} (hpc : m.pc m.current = .user) :
    (m.passes k .schedule).waiters = { m with kernel := k }.waiters := by
  have hpending : ∀ u, (Function.update m.pc m.current .pass u).pending = (m.pc u).pending := by
    intro u
    by_cases hu : u = m.current
    · rw [hu, Function.update_self, hpc]
      rfl
    · rw [Function.update_of_ne hu]
  refine Waiters.ext rfl (funext fun u => ?_) rfl rfl rfl rfl rfl rfl rfl
  show status (Function.update m.pc m.current .pass u).pending _ = _
  rw [hpending]
  rfl

/-- A call that does not wait goes on to `rt_schedule`. -/
theorem sound_pass {k : State} (h : Sound k m.pc m.now n idle q) (hpc : m.pc m.current = .user)
    (hcur : k.rt_current_thread = m.current) :
    Sound (m.passes k .schedule).kernel (m.passes k .schedule).pc m.now n idle q := by
  refine h.goto (.inl ?_) (h.ready_of_user (hcur ▸ hpc))
  rw [hpc]
  rfl

theorem settled_passes {k : State} (hcur : k.rt_current_thread = m.current) :
    (m.passes k .schedule).Settled := by
  refine settled_of_pass ?_
  show Function.update m.pc m.current .pass k.rt_current_thread = .pass
  rw [hcur, Function.update_self]

end Waking

/-- A call that may wait clears the error. -/
def cleared (k : State) (t : ℕ) : State := k.update t fun thread => { thread with error := RT_EOK }

section Clearing

variable {k : State} {t u : ℕ}

theorem cleared_self : (cleared k t).thread t = { k.thread t with error := RT_EOK } :=
  thread_update_self

theorem cleared_of_ne (hu : u ≠ t) : (cleared k t).thread u = k.thread u := thread_update_of_ne hu

end Clearing

/-! ## Semaphores -/

section Semaphores

variable {m : Machine} {fuel n idle i : ℕ} {q : Head → List Node} {time : ℤ}

theorem waiters_setSemaphore {v : ℕ} : { m with kernel := m.kernel.setSemaphore i v }.waiters =
    m.waiters.setValue i v :=
  Waiters.ext rfl rfl (Function.comp_update rt_semaphore.value m.kernel.semaphore i _) rfl rfl rfl
    rfl rfl rfl

theorem waiters_credit {m : Machine} {t : ℕ} {call : Call} :
    (m.credit t call).waiters = m.waiters.credit t call.want := by
  cases call <;> rfl

theorem sound_setSemaphore {k : State} {pc : ℕ → Pc} {now v : ℕ} (h : Sound k pc now n idle q) :
    Sound (k.setSemaphore i v) pc now n idle q := by
  have hq : Queued (k.setSemaphore i v) n k.rt_tick q :=
    h.waiting.queued.congr rfl (fun _ => rfl) fun _ => rfl
  have hflag : ∀ o, (k.setSemaphore i v).flag o = k.flag o := fun o => by
    cases o with
    | semaphore j =>
      by_cases hji : j = i
      · subst hji
        simp only [flag, State.setSemaphore, Function.update_self]
      · simp only [flag, State.setSemaphore, Function.update_of_ne hji]
    | mutex j => rfl
    | event e => rfl
  have hw := h.waiting.move (t := idle) hq hflag (fun _ _ => rfl) (fun _ _ => rfl)
    (fun _ _ _ => Iff.rfl) (h.waiting.placed idle) h.waiting.fifo
  exact ⟨hw, h.running, h.nest, h.locked, h.idle, h.mutex⟩

theorem goes_rt_sem_take (h : Sound m.kernel m.pc m.now n idle q) (hfuel : n < fuel)
    (hl : m.Legal n idle (.rt_sem_take i time)) : m.Goes fuel n idle (.rt_sem_take i time) := by
  obtain ⟨hpc, htime, hmay⟩ := hl
  by_cases hv : 0 < (m.kernel.semaphore i).value
  · obtain ⟨v, hv'⟩ := Nat.exists_eq_succ_of_ne_zero (Nat.ne_of_gt hv)
    have hk : m.kernel.rt_sem_take fuel i time = some (m.kernel.setSemaphore i v, .ret RT_EOK) := by
      rw [State.rt_sem_take]
      simp only [hv', Nat.succ_pos, if_true, Nat.succ_sub_one]
    refine ⟨{ m with kernel := m.kernel.setSemaphore i v }.credit m.current (.rt_sem_take i), q,
      ?_, sound_setSemaphore h, .single ?_, fun hs _ => ?_⟩
    · simp only [step, hk]
      rfl
    · rw [waiters_credit, waiters_setSemaphore]
      exact .take m.current i v (status_of_user hpc) hv'
    · exact hs.keep rfl rfl (fun _ => rfl) fun _ => rfl
  · by_cases h0 : time = 0
    · have hk : m.kernel.rt_sem_take fuel i time = some (m.kernel, .ret (-RT_ETIMEOUT)) := by
        rw [State.rt_sem_take]
        exact (if_neg hv).trans (if_pos h0)
      refine ⟨m, q, ?_, h, .refl, fun hs _ => hs⟩
      simp only [step, hk]
      rfl
    · have hmissing : m.waiters.Missing m.current (Call.rt_sem_take i).want :=
        Nat.eq_zero_of_not_pos hv
      obtain ⟨k', q', hk', hs', hsteps, hsettled⟩ := exists_wait (.rt_sem_take i)
        (cleared m.kernel m.current) h hfuel hpc (hmay.resolve_left h0) htime rfl
        (h.waiting.queued.update rfl) (fun _ => rfl) rfl
        (fun u hu => congrArg seen (cleared_of_ne hu))
        (by rw [cleared_self]; exact h.ready_of_user hpc)
        (by rw [cleared_self]) nofun hmissing
      have hk : m.kernel.rt_sem_take fuel i time = some (k', .schedule) := by
        rw [State.rt_sem_take]
        refine (if_neg hv).trans ((if_neg h0).trans ?_)
        show ((cleared m.kernel m.current).wait fuel (.semaphore i) time).bind _ = _
        rw [hk']
        rfl
      refine ⟨_, q', ?_, hs', hsteps, fun _ _ => hsettled⟩
      simp only [step, hk]
      rfl

theorem want_eq_permit {call : Call} (h : call.want = .permit i) : call = .rt_sem_take i := by
  cases call with
  | rt_sem_take j => exact congrArg _ (Want.permit.inj h)
  | rt_mutex_take j => exact nomatch h
  | rt_event_recv e set option => exact nomatch h
  | rt_thread_sleep => exact nomatch h

theorem object_eq_semaphore {call : Call} (h : call.object = some (.semaphore i)) :
    call = .rt_sem_take i := by
  cases call with
  | rt_sem_take j => exact congrArg _ (Ipc.semaphore.inj (Option.some_inj.mp h))
  | rt_mutex_take j => exact nomatch h
  | rt_event_recv e set option => exact nomatch h
  | rt_thread_sleep => exact nomatch h

/-- What `rt_sem_release` does, in a thread or in an interrupt. -/
theorem exists_rt_sem_release (h : Sound m.kernel m.pc m.now n idle q) (i : ℕ) :
    ∃ k' next q', m.kernel.rt_sem_release i = some (k', next) ∧ Sound k' m.pc m.now n idle q' ∧
      sched k' = sched m.kernel ∧
        (next = .schedule ∨ next = .ret RT_EOK ∧ k'.thread = m.kernel.thread) ∧
        Waiters.Step (2 ^ 16) (Finset.range n) m.waiters
          ({ m with kernel := k' }.addReleased i).waiters := by
  by_cases he : m.kernel.links.isEmpty (.suspend_thread (.semaphore i)) = true
  · refine ⟨m.kernel.setSemaphore i (((m.kernel.semaphore i).value + 1) % 2 ^ 16), .ret RT_EOK, q,
      ?_, sound_setSemaphore h, rfl, .inr ⟨rfl, rfl⟩, ?_⟩
    · rw [State.rt_sem_release]
      exact if_neg (not_not.mpr he)
    · have hnone := not_waits_of_isEmpty h he (.permit i) fun call hc => by
        rw [want_eq_permit hc]
        rfl
      have hstep : Waiters.Step (2 ^ 16) (Finset.range n) _ _ := .release i hnone
      rwa [show m.waiters.value i = (m.kernel.semaphore i).value from rfl,
        ← waiters_setSemaphore] at hstep
  · obtain ⟨u, xs, w, hx, hentry, hs, hw, hob, hsus⟩ := exists_head h he
    have hcall := object_eq_semaphore hob
    have herror : (m.kernel.thread u).error = RT_EOK := hsus.clear (by rw [hcall]; nofun)
    refine ⟨m.kernel.rt_thread_resume u, .schedule, _, ?_, sound_resume h hs fun w' hw' => ?_, ?_,
      .inl rfl, ?_⟩
    · rw [State.rt_sem_release, if_pos he, State.rt_ipc_list_resume, hentry]
      rfl
    · have heq : w' = w := Option.some_inj.mp (hw'.symm.trans hw)
      subst heq
      intro e set option hc
      exact nomatch hcall.symm.trans hc
    · exact (others_eq others_rt_thread_resume).2.2.2.1
    · have hwaits : m.waiters.Waits u (.permit i) := by
        refine ⟨w.since, w.time, ?_⟩
        simp only [waiters, pending, hw, status, if_pos hs, hcall]
        rfl
      have hstep : Waiters.Step (2 ^ 16) (Finset.range n) _ _ := .grant u i hwaits
      have hput := waiters_resume (w := w) hs hw herror
      rw [hcall] at hput
      have hput : { m with kernel := m.kernel.rt_thread_resume u }.waiters =
        m.waiters.put u (.granted (.permit i)) := hput
      rwa [← hput] at hstep

theorem goes_rt_sem_release (h : Sound m.kernel m.pc m.now n idle q)
    (hl : m.Legal n idle (.rt_sem_release i)) : m.Goes fuel n idle (.rt_sem_release i) := by
  obtain ⟨k', next, q', hk', hs', hsched, hnext, hstep⟩ := exists_rt_sem_release h i
  have hcur : k'.rt_current_thread = m.current := (sched_eq hsched).1
  have hrun : m.step fuel (.rt_sem_release i) = some ((m.passes k' next).addReleased i) := by
    simp only [step, hk']
    rfl
  rcases hnext with rfl | ⟨rfl, hthread⟩
  · refine ⟨_, q', hrun, sound_pass hs' hl hcur, .single ?_, fun _ _ => settled_passes hcur⟩
    have hw := waiters_pass (k := k') hl
    show Waiters.Step _ _ _ ((m.passes k' .schedule).waiters.addReleased i)
    rw [hw]
    exact hstep
  · refine ⟨_, q', hrun, hs', .single hstep, fun hset _ => hset.keep hsched rfl ?_ ?_⟩
    · exact fun u => congrArg (fun f => (f u).stat) hthread
    · exact fun u => congrArg (fun f => (f u).current_priority) hthread

end Semaphores

/-! ## Scheduling -/

section Scheduling

variable {m : Machine} {k : State} {pc : ℕ → Pc} {fuel now n idle t : ℕ} {q : Head → List Node}

/-- The current thread is somewhere else in its call, and the threads see no difference. -/
theorem waiters_setPc {p : Pc} {k : State} (hthread : k.thread = m.kernel.thread)
    (hothers : k.semaphore = m.kernel.semaphore ∧ k.mutex = m.kernel.mutex ∧
      k.event = m.kernel.event)
    (hp : p.pending = m.pending t) : ({ m with kernel := k }.setPc t p).waiters = m.waiters := by
  have hpending : ∀ u, (Function.update m.pc t p u).pending = m.pending u := by
    intro u
    by_cases hu : u = t
    · rw [hu, Function.update_self, hp]
    · rw [Function.update_of_ne hu, pending]
  refine Waiters.ext rfl (funext fun u => ?_) ?_ rfl rfl ?_ ?_ rfl ?_
  · show status (Function.update m.pc t p u).pending (k.thread u) = _
    rw [hpending, hthread]
    rfl
  · exact funext fun i => congrArg (fun f => (f i).value) hothers.1
  · exact funext fun i => congrArg (fun f => (f i).owner) hothers.2.1
  · exact funext fun i => congrArg (fun f => (f i).hold) hothers.2.1
  · exact funext fun i => congrArg (fun f : ℕ → rt_event => bits (f i).set) hothers.2.2

theorem goes_schedule {p : Pc} (h : Sound m.kernel m.pc m.now n idle q)
    (hp : p.pending = (m.pc m.current).pending)
    (hstep : m.step fuel .rt_schedule =
      m.kernel.rt_schedule.map fun k => { m with kernel := k }.setPc m.current p) :
    m.Goes fuel n idle .rt_schedule := by
  obtain ⟨c, t, hk, ht, hbest⟩ := h.rt_schedule
  have hgoto := (h.switch (c := c) ht).goto (.inl hp) ht
  refine ⟨({ m with kernel := { m.kernel with rt_current_priority := c, rt_current_thread := t } } :
    Machine).setPc m.current p, q, ?_, hgoto, ?_, fun _ _ h0 _ _ => hbest h0⟩
  · rw [hstep, hk]
    rfl
  · have hw := waiters_setPc (m := m) (k := { m.kernel with
      rt_current_priority := c, rt_current_thread := t }) rfl ⟨rfl, rfl, rfl⟩ hp
    exact hw ▸ .refl

theorem goes_rt_schedule (h : Sound m.kernel m.pc m.now n idle q)
    (hl : m.Legal n idle .rt_schedule) : m.Goes fuel n idle .rt_schedule := by
  rcases hl with hpc | ⟨w, hpc⟩
  · exact goes_schedule (p := .user) h (by rw [hpc]; rfl) (by simp only [step, hpc])
  · exact goes_schedule (p := .back w) h (by rw [hpc]; rfl) (by simp only [step, hpc])

/-- Locking and unlocking the scheduler. -/
theorem sound_nest {v : ℤ} (h : Sound k pc now n idle q)
    (hs : (k.thread k.rt_current_thread).stat = .ready) (hv : 0 ≤ v) :
    Sound { k with rt_scheduler_lock_nest := v } pc now n idle q := by
  have hq : Queued { k with rt_scheduler_lock_nest := v } n k.rt_tick q :=
    h.waiting.queued.congr rfl (fun _ => rfl) fun _ => rfl
  have hw := h.waiting.move (t := idle) hq (fun o => by cases o <;> rfl) (fun _ _ => rfl)
    (fun _ _ => rfl) (fun _ _ _ => Iff.rfl) (h.waiting.placed idle) h.waiting.fifo
  exact ⟨hw, .inl hs, hv, fun _ => hs, h.idle, h.mutex⟩

theorem goes_rt_enter_critical (h : Sound m.kernel m.pc m.now n idle q)
    (hl : m.Legal n idle .rt_enter_critical) : m.Goes fuel n idle .rt_enter_critical := by
  have hnest := h.nest
  refine ⟨_, q, rfl, sound_nest h (h.ready_of_user hl.1) (Int.le_add_one hnest), .refl,
    fun _ _ h0 => ?_⟩
  exact absurd h0 (Int.ne_of_gt (Int.lt_add_one_of_le hnest))

theorem goes_rt_exit_critical (h : Sound m.kernel m.pc m.now n idle q)
    (hl : m.Legal n idle .rt_exit_critical) : m.Goes fuel n idle .rt_exit_critical := by
  have hs := h.ready_of_user hl
  by_cases hle : m.kernel.rt_scheduler_lock_nest - 1 ≤ 0
  · have hk : m.kernel.rt_exit_critical = ({ m.kernel with rt_scheduler_lock_nest := 0 }, true) :=
      if_pos hle
    refine ⟨_, q, ?_, sound_pass (sound_nest h hs (Int.le_refl 0)) hl rfl, ?_, fun _ _ =>
      settled_passes rfl⟩
    · simp only [step, hk]
      rfl
    · rw [waiters_pass hl]
      exact .refl
  · have hk : m.kernel.rt_exit_critical =
        ({ m.kernel with rt_scheduler_lock_nest := m.kernel.rt_scheduler_lock_nest - 1 }, false) :=
      if_neg hle
    refine ⟨{ m with kernel := { m.kernel with
        rt_scheduler_lock_nest := m.kernel.rt_scheduler_lock_nest - 1 } }, q, ?_,
      sound_nest h hs (Int.le_of_lt (Int.not_le.mp hle)), .refl, fun _ _ h0 => ?_⟩
    · simp only [step, hk]
      rfl
    · exact absurd (Int.le_of_eq h0) hle

theorem goes_rt_thread_yield (h : Sound m.kernel m.pc m.now n idle q)
    (hl : m.Legal n idle .rt_thread_yield) : m.Goes fuel n idle .rt_thread_yield := by
  have hs : (m.kernel.thread m.current).stat = .ready := h.ready_of_user hl
  have hpc : (m.pc m.current).pending = none := by rw [hl]; rfl
  obtain ⟨k', need, hk, hthread, hothers, hfalse, htrue⟩ := h.waiting.queued.rt_thread_yield hs
  obtain ⟨hsem, hmutex, hevent, hsched, hflag⟩ := others_eq hothers
  cases need with
  | false =>
    have hk' := (hfalse rfl).1
    refine ⟨m, q, ?_, h, .refl, fun hset _ => hset⟩
    simp only [step, hk, hk']
    rfl
  | true =>
    have hcur : k'.rt_current_thread = m.current := (sched_eq hsched).1
    have hipc : ∀ o, moved q m.current (m.kernel.thread m.current).current_priority (.ipc o) =
        q (.ipc o) := fun o => by
      rw [moved, Function.update_of_ne (ipc_ne_priority o _)]
      exact List.erase_of_not_mem (h.not_listed (by rw [hs]; exact Stat.ready_ne_suspend) o)
    have hq : Queued k' n k'.rt_tick _ := (sched_eq hsched).2.2 ▸ htrue rfl
    have hs' := h.keep hpc hs hq hipc hsched hflag
      (fun i => by rw [hmutex]; exact h.mutex i) (fun u _ => by rw [hthread])
      (by rw [hthread]; exact hs)
    refine ⟨_, _, ?_, sound_pass hs' hl hcur, ?_, fun _ _ => settled_passes hcur⟩
    · simp only [step, hk]
      rfl
    · have hw := waiters_setPc (p := .pass) hthread ⟨hsem, hmutex, hevent⟩ hpc.symm
      exact hw ▸ .refl

end Scheduling

end Machine

end Kernel
