-- SUMMARY: What every run of the threads keeps, from the start of the scheduler on.
import LynxFly.Kernel.ThreadIpc
import Mathlib.Algebra.BigOperators.Ring.Finset

/-!
# Runs of the threads

`rt_system_scheduler_start` takes the first of the threads started before it. From then on, whatever
threads call and whenever interrupts come, no call fails or goes round for ever, and the threads see
a run of `Waiters`. What the kernel promises follows from the invariants of those.
-/

namespace Kernel

open State

/-! ## The start -/

/-- The kernel before threads are started: all lists are empty, and all mutexes free. -/
structure State.Fresh (k : State) : Prop where
  alone : ∀ x, k.links.next x = x ∧ k.links.prev x = x
  init : ∀ t, (k.thread t).stat = .init
  timer : ∀ t, (k.thread t).thread_timer.activated = false
  priority : ∀ t, (k.thread t).current_priority < RT_THREAD_PRIORITY_MAX ∧
    (k.thread t).init_priority < RT_THREAD_PRIORITY_MAX
  group : k.rt_thread_ready_priority_group = 0
  nest : k.rt_scheduler_lock_nest = 0
  mutex : ∀ i, (k.mutex i).owner = none ∧ (k.mutex i).value = 1 ∧ (k.mutex i).hold = 0

/-- `rt_system_scheduler_start`. -/
def State.rt_system_scheduler_start (k : State) : Option State := do
  let highest_ready_priority := highest_ready_priority k.rt_thread_ready_priority_group
  let to_thread ← entry (k.links.next (.rt_thread_priority_table highest_ready_priority))
  some { k with rt_current_thread := to_thread }

/-- The threads are started in turn, and then the scheduler. -/
def Machine.boot (k : State) (threads : List ℕ) : Option Machine := do
  let k ← threads.foldlM State.rt_thread_startup k
  let k ← k.rt_system_scheduler_start
  some
    { kernel := k
      pc := fun _ => .user
      now := 0
      taken := fun _ => 0
      released := fun _ => 0
      holds := fun _ _ => 0 }

section Starting

variable {k : State} {n idle : ℕ} {base : BitVec 32} {q : Head → List Node}

theorem node_inj (i j : Head) (h : i.node = j.node) : i = j := by
  cases i <;> cases j <;> simp_all [Head.node]

/-- Every list is empty. -/
theorem State.Fresh.queued (h : k.Fresh) (n : ℕ) (base : BitVec 32) :
    Queued k n base fun _ => [] := by
  have hinit : ∀ t, (k.thread t).stat ≠ .ready := fun t hs => by
    rw [h.init t] at hs
    exact Stat.noConfusion hs
  have htimer : ∀ t, (k.thread t).thread_timer.activated ≠ true := fun t ha =>
    Bool.noConfusion ((h.timer t).symm.trans ha)
  refine
    { lists :=
        { path := fun i => h.alone i.node
          nodup := fun _ => List.nodup_nil
          unique := fun _ _ _ hm => absurd hm List.not_mem_nil
          head_not_mem := fun _ _ => List.not_mem_nil
          head_inj := node_inj
          alone := fun x _ _ => h.alone x }
      ready := fun p x => ⟨fun hm => absurd hm List.not_mem_nil, fun hx => ?_⟩
      waiting := fun _ _ hm => absurd hm List.not_mem_nil
      timers := fun x => ⟨fun hm => absurd hm List.not_mem_nil, fun hx => ?_⟩
      timed := fun t ha => absurd ha (htimer t)
      soon := fun t ha => absurd ha (htimer t)
      sorted := List.Pairwise.nil
      group := fun p => ⟨fun hb => ?_, fun hne => absurd rfl hne⟩
      mask := fun t hs => absurd (h.init t) hs
      priority := h.priority
      started := fun t hs => absurd (h.init t) hs }
  · obtain ⟨t, -, hs, -⟩ := hx
    exact absurd hs (hinit t)
  · obtain ⟨t, -, ha⟩ := hx
    exact absurd ha (htimer t)
  · rw [h.group] at hb
    exact absurd (hb.symm.trans BitVec.getLsbD_zero) Bool.noConfusion

/-- Starting threads, where none waits yet. -/
theorem exists_startups (threads : List ℕ) : ∀ (k : State) (q : Head → List Node),
    Queued k n base q → (∀ o, q (.ipc o) = []) → (∀ t, (k.thread t).stat ≠ .suspend) →
    (∀ t ∈ threads, (k.thread t).stat = .init ∧ t < n) → threads.Nodup →
    ∃ k' q', threads.foldlM State.rt_thread_startup k = some k' ∧ Queued k' n base q' ∧
      (∀ o, q' (.ipc o) = []) ∧ (∀ t, (k'.thread t).stat ≠ .suspend) ∧
      (∀ t, t ∈ threads ∨ (k.thread t).stat = .ready → (k'.thread t).stat = .ready) ∧
      k'.others = k.others := by
  induction threads with
  | nil =>
    intro k q hq hipc hstat _ _
    exact ⟨k, q, rfl, hq, hipc, hstat,
      fun t ht => ht.resolve_left List.not_mem_nil, rfl⟩
  | cons t threads ih =>
    intro k q hq hipc hstat hinit hnd
    obtain ⟨hs, ht⟩ := hinit t List.mem_cons_self
    obtain ⟨k1, hk1, hq1, hothers1, hthread1⟩ := hq.rt_thread_startup hs ht
    have hself : (k1.thread t).stat = .ready := by rw [hthread1, thread_update_self]
    have hne : ∀ u, u ≠ t → k1.thread u = k.thread u := fun u hu => by
      rw [hthread1, thread_update_of_ne hu]
    have hipc1 : ∀ o, woken q t (k.thread t).init_priority (.ipc o) = [] := fun o => by
      rw [woken_ipc, hipc]
      rfl
    have hstat1 : ∀ u, (k1.thread u).stat ≠ .suspend := fun u => by
      by_cases hu : u = t
      · rw [hu, hself]
        exact Stat.ready_ne_suspend
      · rw [hne u hu]
        exact hstat u
    obtain ⟨hnot, hnd'⟩ := List.nodup_cons.mp hnd
    obtain ⟨k', q', hk', hq', hipc', hstat', hready, hothers⟩ := ih k1 _ hq1 hipc1 hstat1
      (fun u hu => by
        have hut : u ≠ t := fun heq => hnot (heq ▸ hu)
        rw [hne u hut]
        exact hinit u (List.mem_cons_of_mem t hu)) hnd'
    refine ⟨k', q', ?_, hq', hipc', hstat', fun u hu => hready u ?_, hothers.trans hothers1⟩
    · rw [List.foldlM_cons, hk1]
      exact hk'
    · by_cases hut : u = t
      · exact .inr (hut ▸ hself)
      · refine hu.imp (fun hm => (List.mem_cons.mp hm).resolve_left hut) fun hr => ?_
        rw [hne u hut]
        exact hr

/-- The scheduler starts with the thread that `rt_schedule` would find. -/
theorem rt_system_scheduler_start_eq {k' : State} (h0 : k.rt_scheduler_lock_nest = 0)
    (hk : k.rt_schedule = some k') : k.rt_system_scheduler_start =
      some { k with rt_current_thread := k'.rt_current_thread } := by
  rw [rt_schedule_eq, if_pos h0] at hk
  obtain ⟨t, ht, hk⟩ := Option.bind_eq_some_iff.mp hk
  have hcur : k'.rt_current_thread = t := by
    by_cases hne : t ≠ k.rt_current_thread
    · rw [if_pos hne] at hk
      rw [← Option.some_inj.mp hk]
    · rw [if_neg hne] at hk
      rw [← Option.some_inj.mp hk]
      exact (not_not.mp hne).symm
  rw [hcur]
  show (entry _).bind _ = _
  rw [ht]
  rfl

end Starting

namespace Machine

section Booting

variable {k : State} {m : Machine} {threads : List ℕ} {n idle : ℕ}

/-- What holds once the scheduler has started. -/
structure Started (m : Machine) (n idle : ℕ) (init : ℕ → ℕ) : Prop where
  sound : ∃ q, Sound m.kernel m.pc m.now n idle q
  settled : m.Settled
  books : m.waiters.Books (2 ^ 16) (Finset.range n) init
  needy : m.waiters.Needy

theorem exists_boot (h : k.Fresh) (hnd : threads.Nodup) (hn : ∀ t ∈ threads, t < n)
    (hidle : idle ∈ threads) : ∃ m, boot k threads = some m ∧
      m.Started n idle fun i => (k.semaphore i).value := by
  obtain ⟨k1, q, hk1, hq, hipc, hstat, hready, hothers⟩ := exists_startups threads k _
    (h.queued n k.rt_tick) (fun _ => rfl) (fun t hs => Stat.noConfusion ((h.init t).symm.trans hs))
    (fun t ht => ⟨h.init t, hn t ht⟩) hnd
  obtain ⟨hsem, hmutex, -, hsched, -⟩ := others_eq hothers
  obtain ⟨-, hnest, htick⟩ := sched_eq hsched
  have h0 : k1.rt_scheduler_lock_nest = 0 := hnest.trans h.nest
  have hidle1 := hready idle (.inl hidle)
  have hnot : ∀ t o, Node.tlist t ∉ q (.ipc o) := fun t o => by
    rw [hipc]
    exact List.not_mem_nil
  have hplaced : ∀ t, Placed (k1.thread t) k1.rt_tick 0 (fun o => .tlist t ∈ q (.ipc o)) none :=
    fun t => Placed.free (hstat t) (hnot t)
  have hok : ∀ i, (k1.mutex i).Ok := fun i => by
    rw [hmutex]
    exact .inl ⟨(h.mutex i).1, (h.mutex i).2.1, (h.mutex i).2.2⟩
  -- With the idle thread as the current one all is well, so that `rt_schedule` finds a thread.
  have hs1 : Sound { k1 with rt_current_thread := idle } (fun _ => .user) 0 n idle q := by
    have hq1 : Queued { k1 with rt_current_thread := idle } n k1.rt_tick q :=
      (htick ▸ hq).congr rfl (fun _ => rfl) fun _ => rfl
    have hfifo1 : ∀ o, State.flag { k1 with rt_current_thread := idle } o = .fifo →
        (q (.ipc o)).Pairwise fun x y => since (fun _ => none) x ≤ since (fun _ => none) y :=
      fun o _ => by
        rw [hipc]
        exact List.Pairwise.nil
    exact ⟨⟨hq1, hplaced, hfifo1⟩, .inl hidle1, Int.le_of_eq h0.symm, fun hne => absurd h0 hne,
      ⟨hidle1, rfl⟩, hok⟩
  obtain ⟨c, t, hk2, ht, hbest⟩ := hs1.rt_schedule
  have hstart := rt_system_scheduler_start_eq (k := { k1 with rt_current_thread := idle }) h0 hk2
  have hs2 : Sound { k1 with rt_current_thread := t } (fun _ => .user) 0 n idle q :=
    hs1.switch (c := k1.rt_current_priority) ht
  have hboot : boot k threads = some
      { kernel := { k1 with rt_current_thread := t }
        pc := fun _ => .user
        now := 0
        taken := fun _ => 0
        released := fun _ => 0
        holds := fun _ _ => 0 } := by
    show (threads.foldlM State.rt_thread_startup k).bind _ = _
    rw [hk1]
    show (k1.rt_system_scheduler_start).bind _ = _
    have hstart : k1.rt_system_scheduler_start = some { k1 with rt_current_thread := t } := hstart
    rw [hstart]
    rfl
  refine ⟨_, hboot, ⟨q, hs2⟩, fun _ _ _ => hbest h0, ?_, ?_⟩
  · refine
      { permits := fun i => ?_
        locks := fun i t => ?_
        owned := fun i => ?_
        among := fun t hne => absurd rfl hne
        late := fun t w since time hw => ?_
        early := fun t w since time hw => ?_ }
    · have hzero : ∑ u ∈ Finset.range n, (Status.free : Status (Want ℕ ℕ ℕ ℕ)).owes (.permit i) =
          0 := Finset.sum_eq_zero fun _ _ => Status.owes_free _
      show (k1.semaphore i).value + 0 +
        ∑ u ∈ Finset.range n, (Status.free : Status (Want ℕ ℕ ℕ ℕ)).owes (.permit i) ≡
          (k.semaphore i).value + 0 [MOD 2 ^ 16]
      rw [hzero, hsem]
    · show 0 + (Status.free : Status (Want ℕ ℕ ℕ ℕ)).owes (.lock i) =
        if (k1.mutex i).owner = some t then (k1.mutex i).hold else 0
      rw [Status.owes_free, hmutex, (h.mutex i).1, if_neg (Option.some_ne_none t).symm]
    · show (k1.mutex i).hold = 0 ↔ (k1.mutex i).owner = none
      rw [hmutex]
      exact iff_of_true (h.mutex i).2.2 (h.mutex i).1
    · have hw : (Status.free : Status (Want ℕ ℕ ℕ ℕ)) = .waiting w since (some time) := hw
      cases hw
    · have hw : (Status.free : Status (Want ℕ ℕ ℕ ℕ)) = .expired w since time := hw
      cases hw
  · rintro t w ⟨since, time, hw⟩
    have hw : (Status.free : Status (Want ℕ ℕ ℕ ℕ)) = .waiting w since time := hw
    cases hw

end Booting

/-! ## Every step, and every run -/

section Running

variable {m m' : Machine} {n idle fuel : ℕ} {q : Head → List Node} {init : ℕ → ℕ} {a : Act}

/-- What callers keep to is enough for every step. -/
theorem goes (h : Sound m.kernel m.pc m.now n idle q) (hfuel : n < fuel)
    (hl : m.Legal n idle a) : m.Goes fuel n idle a := by
  cases a with
  | rt_sem_take i time => exact goes_rt_sem_take h hfuel hl
  | rt_sem_release i => exact goes_rt_sem_release h hl
  | rt_mutex_take i time => exact goes_rt_mutex_take h hfuel hl
  | rt_mutex_release i => exact goes_rt_mutex_release h hl
  | rt_event_send e set => exact goes_rt_event_send h hfuel hl
  | rt_event_recv e set option timeout => exact goes_rt_event_recv h hfuel hl
  | rt_thread_sleep tick => exact goes_rt_thread_sleep h hfuel hl
  | rt_thread_yield => exact goes_rt_thread_yield h hl
  | rt_thread_startup t => exact goes_rt_thread_startup h hl
  | rt_enter_critical => exact goes_rt_enter_critical h hl
  | rt_exit_critical => exact goes_rt_exit_critical h hl
  | rt_schedule => exact goes_rt_schedule h hl
  | ret => exact goes_ret h hl
  | tick => exact goes_tick h hfuel
  | irq_sem_release i => exact goes_irq_sem_release h
  | irq_event_send e set => exact goes_irq_event_send h hfuel

/-- A run goes on to its end. -/
theorem exists_run (hfuel : n < fuel) (acts : List Act) : ∀ m : Machine,
    (∃ q, Sound m.kernel m.pc m.now n idle q) → Along (Legal n idle) fuel m acts →
    ∃ m', run fuel m acts = some m' ∧ (∃ q, Sound m'.kernel m'.pc m'.now n idle q) ∧
      Waiters.Steps (2 ^ 16) (Finset.range n) m.waiters m'.waiters ∧
      (m.Settled → Along (fun m a => ¬m.Lowers a) fuel m acts → m'.Settled) := by
  induction acts with
  | nil => exact fun m hs _ => ⟨m, rfl, hs, .refl, fun hset _ => hset⟩
  | cons a acts ih =>
    rintro m ⟨q, hs⟩ ⟨hl, hrest⟩
    obtain ⟨m1, q1, hstep, hs1, hsteps1, hset1⟩ := goes hs hfuel hl
    obtain ⟨m', hrun, hs', hsteps, hset⟩ := ih m1 ⟨q1, hs1⟩ (hrest m1 hstep)
    refine ⟨m', ?_, hs', hsteps1.trans hsteps, fun h hlow => ?_⟩
    · rw [run, List.foldlM_cons, hstep]
      exact hrun
    · exact hset (hset1 h hlow.1) (hlow.2 m1 hstep)

/-- What holds at the end of a run. -/
theorem Started.run {acts : List Act} (h : m.Started n idle init) (hfuel : n < fuel)
    (hl : Along (Legal n idle) fuel m acts) (hrun : run fuel m acts = some m') :
    (∃ q, Sound m'.kernel m'.pc m'.now n idle q) ∧
      m'.waiters.Books (2 ^ 16) (Finset.range n) init ∧ m'.waiters.Needy ∧
      (Along (fun m a => ¬m.Lowers a) fuel m acts → m'.Settled) := by
  obtain ⟨m1, hrun1, hs, hsteps, hset⟩ := exists_run hfuel acts m h.sound hl
  have heq : m1 = m' := Option.some_inj.mp (hrun1.symm.trans hrun)
  subst heq
  obtain ⟨hb, hn⟩ := hsteps.inv h.books h.needy
  exact ⟨hs, hb, hn, hset h.settled⟩

end Running

/-! ## What the threads see -/

section Seeing

variable {m : Machine} {t i : ℕ} {w : Pending}

/-- Who is in a call that has been granted what it waited for. -/
def returning (m : Machine) (call : Call) (t : ℕ) : Bool :=
  (m.pending t).any fun w => w.call = call ∧ (m.kernel.thread t).stat ≠ .suspend ∧
    (m.kernel.thread t).error = RT_EOK

theorem status_of_pending (hw : m.pending t = some w) : m.waiters.status t =
    if (m.kernel.thread t).stat = .suspend then .waiting w.call.want w.since w.time
    else if (m.kernel.thread t).error = RT_EOK then .granted w.call.want
    else .expired w.call.want w.since w.time := by
  simp only [waiters, hw, status]

theorem waits_of_pending (hw : m.pending t = some w) (hs : (m.kernel.thread t).stat = .suspend) :
    m.waiters.status t = .waiting w.call.want w.since w.time := by
  rw [status_of_pending hw, if_pos hs]

/-- A thread is owed something only by a call that returns with it. -/
theorem owes_eq (call : Call) (hinj : ∀ c : Call, c.want = call.want → c = call) :
    (m.waiters.status t).owes call.want = if m.returning call t = true then 1 else 0 := by
  cases hw : m.pending t with
  | none => simp [waiters, hw, status, returning]
  | some w =>
    rw [status_of_pending hw]
    by_cases hs : (m.kernel.thread t).stat = .suspend
    · simp [returning, hw, hs]
    · by_cases he : (m.kernel.thread t).error = RT_EOK
      · by_cases hc : w.call = call
        · simp [returning, hw, hs, he, hc]
        · rw [if_neg hs, if_pos he, Status.owes_granted_of_ne fun hwant => hc (hinj _ hwant)]
          simp [returning, hw, hs, he, hc]
      · simp [returning, hw, hs, he]

end Seeing

/-! ## What the kernel promises -/

/-- A run from the start, in which callers keep to what the kernel relies on. -/
structure Runs (fuel n idle : ℕ) (k : State) (threads : List ℕ) (acts : List Act)
    (m' : Machine) : Prop where
  fresh : k.Fresh
  nodup : threads.Nodup
  few : ∀ t ∈ threads, t < n
  idles : idle ∈ threads
  bound : n < fuel
  ran : ∃ m, boot k threads = some m ∧ Along (Legal n idle) fuel m acts ∧
    run fuel m acts = some m'

/-- Two threads that have not been started, the idle thread one of them, and objects in order. -/
def pair : State where
  links := { next := fun x => x, prev := fun x => x }
  thread t :=
    { error := 0
      stat := .init
      current_priority := if t = 0 then 10 else 31
      init_priority := if t = 0 then 10 else 31
      number_mask := 0
      event_set := 0
      event_info := 0
      init_tick := 5
      remaining_tick := 5
      thread_timer := { activated := false, init_tick := 0, timeout_tick := 0 } }
  semaphore _ := { flag := .fifo, value := 0 }
  mutex _ := { flag := .fifo, value := 1, original_priority := 0xff, hold := 0, owner := none }
  event _ := { flag := .fifo, set := 0 }
  rt_thread_ready_priority_group := 0
  rt_current_thread := 0
  rt_current_priority := 0
  rt_scheduler_lock_nest := 0
  rt_tick := 0

section Pair

theorem pair_fresh : pair.Fresh where
  alone _ := ⟨rfl, rfl⟩
  init _ := rfl
  timer _ := rfl
  priority t := by
    by_cases ht : t = 0
    · subst ht
      decide
    · simp only [pair, if_neg ht]
      decide
  group := rfl
  nest := rfl
  mutex _ := ⟨rfl, rfl, rfl⟩

theorem pair_boot : (boot pair [0, 1]).isSome = true := by decide +kernel

/-- The two threads once they have been started. -/
def pairStarted : Machine := (boot pair [0, 1]).get pair_boot

theorem trio_boot : (boot pair [0, 2, 1]).isSome = true := by decide +kernel

/-- A third thread with them, of the idle thread's priority and before it in the list. -/
def trioStarted : Machine := (boot pair [0, 2, 1]).get trio_boot

variable {k : State} {m : Machine} {threads : List ℕ} {acts : List Act} {fuel n idle : ℕ}

/-- Every run that callers may make goes on to its end. -/
theorem exists_runs (hfresh : k.Fresh) (hnodup : threads.Nodup) (hfew : ∀ t ∈ threads, t < n)
    (hidle : idle ∈ threads) (hfuel : n < fuel) (hboot : boot k threads = some m)
    (h : Along (Legal n idle) fuel m acts) :
    ∃ m', run fuel m acts = some m' ∧ Runs fuel n idle k threads acts m' := by
  obtain ⟨m1, hm, hstarted⟩ := exists_boot hfresh hnodup hfew hidle
  have heq : m1 = m := Option.some_inj.mp (hm.symm.trans hboot)
  subst heq
  obtain ⟨m', hrun, -⟩ := exists_run hfuel _ _ hstarted.sound h
  exact ⟨m', hrun, hfresh, hnodup, hfew, hidle, hfuel, _, hboot, h, hrun⟩

theorem exists_pair_runs (acts : List Act) (h : Along (Legal 2 1) 3 pairStarted acts) :
    ∃ m', run 3 pairStarted acts = some m' ∧ Runs 3 2 1 pair [0, 1] acts m' :=
  exists_runs pair_fresh (by decide) (by decide) (by decide) (by decide)
    (Option.some_get pair_boot).symm h

theorem exists_trio_runs (acts : List Act) (h : Along (Legal 3 1) 4 trioStarted acts) :
    ∃ m', run 4 trioStarted acts = some m' ∧ Runs 4 3 1 pair [0, 2, 1] acts m' :=
  exists_runs pair_fresh (by decide) (by decide) (by decide) (by decide)
    (Option.some_get trio_boot).symm h

end Pair

section Promises

variable {k : State} {m m' : Machine} {threads : List ℕ} {acts : List Act} {fuel n idle : ℕ}

/-- The scheduler starts, and every run then goes on to its end, as a run of `Waiters`. -/
theorem boot_runs (hfresh : k.Fresh) (hnodup : threads.Nodup) (hfew : ∀ t ∈ threads, t < n)
    (hidle : idle ∈ threads) (hfuel : n < fuel) : ∃ m, boot k threads = some m ∧
      ∀ acts, Along (Legal n idle) fuel m acts → ∃ m', run fuel m acts = some m' ∧
        Waiters.Steps (2 ^ 16) (Finset.range n) m.waiters m'.waiters := by
  obtain ⟨m, hboot, hstarted⟩ := exists_boot hfresh hnodup hfew hidle
  refine ⟨m, hboot, fun acts hl => ?_⟩
  obtain ⟨m', hrun, -, hsteps, -⟩ := exists_run hfuel acts m hstarted.sound hl
  exact ⟨m', hrun, hsteps⟩

theorem boot_runs_pair : ∃ m, boot pair [0, 1] = some m ∧
    ∀ acts, Along (Legal 2 1) 3 m acts → ∃ m', run 3 m acts = some m' ∧
      Waiters.Steps (2 ^ 16) (Finset.range 2) m.waiters m'.waiters :=
  boot_runs pair_fresh (by decide) (by decide) (by decide) (by decide)

theorem Runs.inv (h : Runs fuel n idle k threads acts m') :
    (∃ q, Sound m'.kernel m'.pc m'.now n idle q) ∧
      m'.waiters.Books (2 ^ 16) (Finset.range n) (fun i => (k.semaphore i).value) ∧
        m'.waiters.Needy := by
  obtain ⟨m, hboot, hl, hrun⟩ := h.ran
  obtain ⟨m1, hboot1, hstarted⟩ := exists_boot h.fresh h.nodup h.few h.idles
  have heq : m1 = m := Option.some_inj.mp (hboot1.symm.trans hboot)
  subst heq
  obtain ⟨hs, hb, hn, -⟩ := hstarted.run h.bound hl hrun
  exact ⟨hs, hb, hn⟩

/-- No permit is lost or given twice, and no thread waits for one that is there. -/
theorem run_permits (h : Runs fuel n idle k threads acts m') (i : ℕ) :
    ((m'.kernel.semaphore i).value + m'.taken i +
        ((Finset.range n).filter fun t => m'.returning (.rt_sem_take i) t = true).card ≡
      (k.semaphore i).value + m'.released i [MOD 2 ^ 16]) ∧
    ∀ t w, m'.pending t = some w → w.call = .rt_sem_take i →
      (m'.kernel.thread t).stat = .suspend → (m'.kernel.semaphore i).value = 0 := by
  obtain ⟨-, hb, hn⟩ := h.inv
  refine ⟨?_, fun t w hw hcall hs => ?_⟩
  · have hp := hb.permits i
    have howes : ∀ t, (m'.waiters.status t).owes (.permit i) =
        if m'.returning (.rt_sem_take i) t = true then 1 else 0 :=
      fun t => owes_eq (.rt_sem_take i) fun c hc => want_eq_permit hc
    rw [Finset.sum_congr rfl fun t _ => howes t, Finset.sum_boole, Nat.cast_id] at hp
    exact hp
  · have hwaits := waits_of_pending hw hs
    rw [hcall] at hwaits
    exact hn t (.permit i) ⟨w.since, w.time, hwaits⟩

theorem run_permits_pair : ∃ m', Runs 3 2 1 pair [0, 1]
      [.rt_sem_take 0 5, .tick, .irq_sem_release 0, .irq_event_send 0 1] m' ∧
    ((m'.kernel.semaphore 0).value + m'.taken 0 +
        ((Finset.range 2).filter fun t => m'.returning (.rt_sem_take 0) t = true).card ≡
      0 + m'.released 0 [MOD 2 ^ 16]) := by
  obtain ⟨m', -, h⟩ := exists_pair_runs
    [.rt_sem_take 0 5, .tick, .irq_sem_release 0, .irq_event_send 0 1] (by decide +kernel)
  exact ⟨m', h, (run_permits h 0).1⟩

/-- The idle thread takes a mutex, and the first thread waits for it. -/
def contended : List Act :=
  [.rt_thread_sleep 2, .rt_schedule, .rt_mutex_take 0 0, .tick, .tick, .ret, .rt_mutex_take 0 1,
    .rt_schedule]

/-- A thread that has a mutex owns it, as often as it has taken it, and no thread waits for a
    mutex that it could have. -/
theorem run_locks (h : Runs fuel n idle k threads acts m') (i t : ℕ) :
    (m'.holds i t + (if m'.returning (.rt_mutex_take i) t = true then 1 else 0) =
      if (m'.kernel.mutex i).owner = some t then (m'.kernel.mutex i).hold else 0) ∧
    (∀ u, 0 < m'.holds i t → 0 < m'.holds i u → t = u) ∧
    ∀ w, m'.pending t = some w → w.call = .rt_mutex_take i →
      (m'.kernel.thread t).stat = .suspend →
        ∃ u, (m'.kernel.mutex i).owner = some u ∧ u ≠ t := by
  obtain ⟨-, hb, hn⟩ := h.inv
  have hlocks : ∀ t, m'.holds i t + (if m'.returning (.rt_mutex_take i) t = true then 1 else 0) =
      if (m'.kernel.mutex i).owner = some t then (m'.kernel.mutex i).hold else 0 := fun t => by
    rw [← owes_eq (.rt_mutex_take i) fun c hc => want_eq_lock hc]
    exact hb.locks i t
  have howner : ∀ t, 0 < m'.holds i t → (m'.kernel.mutex i).owner = some t := fun t hpos => by
    by_contra hne
    have hl := hlocks t
    rw [if_neg hne] at hl
    omega
  refine ⟨hlocks t, fun u ht hu => ?_, fun w hw hcall hs => ?_⟩
  · exact Option.some_inj.mp ((howner t ht).symm.trans (howner u hu))
  · have hwaits := waits_of_pending hw hs
    rw [hcall] at hwaits
    exact hn t (.lock i) ⟨w.since, w.time, hwaits⟩

theorem run_locks_pair : ∃ m', Runs 3 2 1 pair [0, 1] contended m' ∧ 0 < m'.holds 0 1 ∧
    (0 < m'.holds 0 0 → 0 = 1) ∧ ∃ u, (m'.kernel.mutex 0).owner = some u ∧ u ≠ 0 := by
  obtain ⟨m', hrun, h⟩ := exists_pair_runs contended (by decide +kernel)
  have hholds : (run 3 pairStarted contended).map (fun m => m.holds 0 1) = some 1 := by
    decide +kernel
  have hpending : (run 3 pairStarted contended).map (fun m => m.pending 0) =
      some (some ⟨.rt_mutex_take 0, 2, some 1⟩) := by decide +kernel
  have hstat : (run 3 pairStarted contended).map (fun m => (m.kernel.thread 0).stat) =
      some .suspend := by decide +kernel
  rw [hrun, Option.map_some, Option.some_inj] at hholds hpending hstat
  have hpos : 0 < m'.holds 0 1 := by
    rw [hholds]
    exact Nat.one_pos
  obtain ⟨-, halone, hwaits⟩ := run_locks h 0 0
  exact ⟨m', h, hpos, fun h0 => halone 1 h0 hpos, hwaits _ hpending rfl hstat⟩

/-- No thread waits for events that are there, and one that returns has received events it asked
    for, and enough of them. -/
theorem run_events (h : Runs fuel n idle k threads acts m') (t : ℕ) :
    ∀ w e set option, m'.pending t = some w → w.call = .rt_event_recv e set option →
      ((m'.kernel.thread t).stat = .suspend →
        received (m'.kernel.event e).set set option = false) ∧
      ((m'.kernel.thread t).stat ≠ .suspend → (m'.kernel.thread t).error = RT_EOK →
        received (m'.kernel.thread t).event_set set option = true ∧
          (m'.kernel.thread t).event_set &&& set = (m'.kernel.thread t).event_set) := by
  obtain ⟨⟨q, hs⟩, -, hn⟩ := h.inv
  intro w e set option hw hcall
  refine ⟨fun hsus => ?_, fun hsus herror => ?_⟩
  · have hwaits := waits_of_pending hw hsus
    rw [hcall] at hwaits
    have hmiss := hn t (.events e (asked set option)) ⟨w.since, w.time, hwaits⟩
    exact Bool.eq_false_iff.mpr fun hr => hmiss (received_iff.mp hr)
  · have hplaced := hs.waiting.placed t
    have hready : (m'.kernel.thread t).stat = .ready := by
      cases hst : (m'.kernel.thread t).stat with
      | init => exact absurd ((hplaced.fresh hst).symm.trans hw) (Option.some_ne_none w).symm
      | ready => rfl
      | suspend => exact absurd hst hsus
    exact hplaced.given hready w hw e set option hcall herror

/-- Of the events it waits for, one is sent. -/
theorem run_events_pair : ∃ m', Runs 3 2 1 pair [0, 1]
      [.rt_event_recv 0 3 2 5, .rt_schedule, .rt_event_send 0 1] m' ∧
    received (m'.kernel.thread 0).event_set 3 2 = true ∧
      (m'.kernel.thread 0).event_set &&& 3 = (m'.kernel.thread 0).event_set := by
  let acts : List Act := [.rt_event_recv 0 3 2 5, .rt_schedule, .rt_event_send 0 1]
  obtain ⟨m', hrun, h⟩ := exists_pair_runs acts (by decide +kernel)
  have hpending : (run 3 pairStarted acts).map (fun m => m.pending 0) =
      some (some ⟨.rt_event_recv 0 3 2, 0, some 5⟩) := by decide +kernel
  have hthread : (run 3 pairStarted acts).map
      (fun m => ((m.kernel.thread 0).stat, (m.kernel.thread 0).error)) =
        some (.ready, RT_EOK) := by decide +kernel
  rw [hrun, Option.map_some, Option.some_inj] at hpending hthread
  obtain ⟨hstat, herror⟩ := Prod.mk.inj hthread
  refine ⟨m', h, (run_events h 0 _ 0 3 2 hpending rfl).2 (fun hs => ?_) herror⟩
  rw [hstat] at hs
  exact Stat.ready_ne_suspend hs

/-- No thread waits for longer than the time it gave, and none gives up before. -/
theorem run_timeouts (h : Runs fuel n idle k threads acts m') (t : ℕ) :
    ∀ w, m'.pending t = some w →
      ((m'.kernel.thread t).stat = .suspend → ∀ d, w.time = some d →
        m'.now < w.since + max 1 d) ∧
      ((m'.kernel.thread t).stat ≠ .suspend → (m'.kernel.thread t).error ≠ RT_EOK →
        ∃ d, w.time = some d ∧ w.since + max 1 d ≤ m'.now) := by
  obtain ⟨-, hb, -⟩ := h.inv
  intro w hw
  refine ⟨fun hs d hd => ?_, fun hs he => ?_⟩
  · have hwaits := waits_of_pending hw hs
    rw [hd] at hwaits
    exact hb.late t _ _ d hwaits
  · have hexp := status_of_pending hw
    rw [if_neg hs, if_neg he] at hexp
    exact hb.early t _ _ _ hexp

theorem run_timeouts_pair : ∃ m', Runs 3 2 1 pair [0, 1] [.rt_thread_sleep 5, .tick] m' ∧
    m'.now < 0 + max 1 5 := by
  obtain ⟨m', hrun, h⟩ := exists_pair_runs [.rt_thread_sleep 5, .tick] (by decide +kernel)
  have hpending : (run 3 pairStarted [.rt_thread_sleep 5, .tick]).map (fun m => m.pending 0) =
      some (some ⟨.rt_thread_sleep, 0, some 5⟩) := rfl
  have hstat : (run 3 pairStarted [.rt_thread_sleep 5, .tick]).map
      (fun m => (m.kernel.thread 0).stat) = some .suspend := by decide +kernel
  rw [hrun, Option.map_some, Option.some_inj] at hpending hstat
  exact ⟨m', h, (run_timeouts h 0 _ hpending).1 hstat 5 rfl⟩

/-- Between calls of an unlocked scheduler, the thread that runs is ready, and no ready thread has a
    higher priority, unless an owner has given a priority back to nobody. -/
theorem run_highest (h : Runs fuel n idle k threads acts m')
    (hlow : ∀ m, boot k threads = some m → Along (fun m a => ¬m.Lowers a) fuel m acts)
    (hnest : m'.kernel.rt_scheduler_lock_nest = 0) (hpass : m'.pc m'.current ≠ .pass)
    (hschedule : ∀ w, m'.pc m'.current ≠ .schedule w) :
    m'.running.stat = .ready ∧ ∀ u, (m'.kernel.thread u).stat = .ready →
      m'.running.current_priority ≤ (m'.kernel.thread u).current_priority := by
  obtain ⟨⟨q, hs⟩, -, -⟩ := h.inv
  obtain ⟨m, hboot, hl, hrun⟩ := h.ran
  obtain ⟨m1, hboot1, hstarted⟩ := exists_boot h.fresh h.nodup h.few h.idles
  have heq : m1 = m := Option.some_inj.mp (hboot1.symm.trans hboot)
  subst heq
  obtain ⟨-, -, -, hset⟩ := hstarted.run h.bound hl hrun
  refine ⟨hs.running.resolve_right fun hw => hw.elim hschedule, ?_⟩
  exact hset (hlow m1 hboot) hnest hpass hschedule

theorem along_not_lowers (h : ∀ i, Act.rt_mutex_release i ∉ acts) :
    Along (fun m a => ¬m.Lowers a) fuel m acts := by
  induction acts generalizing m with
  | nil => exact trivial
  | cons a acts ih =>
    refine ⟨?_, fun m' _ => ih fun i hi => h i (List.mem_cons_of_mem a hi)⟩
    rintro ⟨i, rfl, -⟩
    exact h i List.mem_cons_self

/-- The idle thread runs with the priority of the thread that waits for it. -/
theorem run_highest_pair : ∃ m', Runs 3 2 1 pair [0, 1] contended m' ∧ m'.current = 1 ∧
    m'.running.stat = .ready ∧ ∀ u, (m'.kernel.thread u).stat = .ready →
      m'.running.current_priority ≤ (m'.kernel.thread u).current_priority := by
  obtain ⟨m', hrun, h⟩ := exists_pair_runs contended (by decide +kernel)
  have hnest : (run 3 pairStarted contended).map (fun m => m.kernel.rt_scheduler_lock_nest) =
      some 0 := by decide +kernel
  have hcur : (run 3 pairStarted contended).map (fun m => m.current) = some 1 := by
    decide +kernel
  have hpc : (run 3 pairStarted contended).map (fun m => m.pc m.current) = some .user := by
    decide +kernel
  rw [hrun, Option.map_some, Option.some_inj] at hnest hcur hpc
  refine ⟨m', h, hcur, run_highest h (fun m _ => along_not_lowers ?_) hnest ?_ ?_⟩
  · simp [contended]
  · rw [hpc]
    exact Pc.noConfusion
  · intro w
    rw [hpc]
    exact Pc.noConfusion

/-- An owner that gives its priority back to nobody runs on, whoever is ready. -/
theorem run_lowers (h : Runs fuel n idle k threads acts m) {i : ℕ}
    (hpc : m.pc m.current = .user) (hlow : m.Lowers (.rt_mutex_release i)) : ∃ m',
    m.step fuel (.rt_mutex_release i) = some m' ∧ m'.current = m.current ∧
      m'.pc m'.current = .user ∧
      m'.running.current_priority = (m.kernel.mutex i).original_priority ∧
      ∀ u, u ≠ m.current → m'.kernel.thread u = m.kernel.thread u := by
  obtain ⟨⟨q, hs⟩, -, -⟩ := h.inv
  obtain ⟨j, hj, howner, hold, -, hempty⟩ := hlow
  have hji : i = j := Act.rt_mutex_release.inj hj
  subst hji
  rcases hs.mutex i with ⟨hnone, -⟩ | ⟨-, -, -, -, hp⟩
  · exact absurd (howner.symm.trans hnone) (Option.some_ne_none _)
  obtain ⟨k1, q1, hk1, hs1, hipc, hothers, -, hne, hprio⟩ := exists_restored hs i hp
  have hcur : k1.rt_current_thread = m.current := (sched_eq (others_eq hothers).2.2.2.1).1
  have he : k1.links.isEmpty (.suspend_thread (.mutex i)) = true := by
    rw [isEmpty_ipc_iff hs1.waiting.queued, hipc]
    exact (isEmpty_ipc_iff hs.waiting.queued).mp hempty
  have hk := rt_mutex_release_freed howner hold hk1 he
  have hret : Next.ret RT_EOK ≠ .ret (-RT_ERROR) := by decide
  refine ⟨{ m with kernel := k1.setMutex i (freed (m.kernel.mutex i)) }.unhold i m.current,
    ?_, ?_, ?_, ?_, ?_⟩
  · simp only [step, hk, Option.map_some, if_neg hret]
    rfl
  · exact hcur
  · show m.pc k1.rt_current_thread = .user
    rw [hcur]
    exact hpc
  · show (k1.thread k1.rt_current_thread).current_priority = _
    rw [hcur, hprio]
  · exact hne

/-- The first thread waits in vain. -/
def inVain : List Act := contended ++ [.tick]

theorem run_lowers_pair : ∃ m m', Runs 3 2 1 pair [0, 1] inVain m ∧
    m.step 3 (.rt_mutex_release 0) = some m' ∧ m'.pc m'.current = .user ∧
      m'.running.current_priority = 31 ∧ (m'.kernel.thread 0).stat = .ready ∧
      (m'.kernel.thread 0).current_priority = 10 := by
  obtain ⟨m, hrun, h⟩ := exists_pair_runs inVain (by decide +kernel)
  have hpc : (run 3 pairStarted inVain).map (fun m => m.pc m.current) = some .user := by
    decide +kernel
  have hcur : (run 3 pairStarted inVain).map (fun m => m.current) = some 1 := by decide +kernel
  have hmutex : (run 3 pairStarted inVain).map (fun m => ((m.kernel.mutex 0).owner,
      (m.kernel.mutex 0).hold, (m.kernel.mutex 0).original_priority)) = some (some 1, 1, 31) := by
    decide +kernel
  have hprio : (run 3 pairStarted inVain).map (fun m => m.running.current_priority) = some 10 := by
    decide +kernel
  have hempty : (run 3 pairStarted inVain).map
      (fun m => m.kernel.links.isEmpty (.suspend_thread (.mutex 0))) = some true := by
    decide +kernel
  have hready : (run 3 pairStarted inVain).map (fun m => ((m.kernel.thread 0).stat,
      (m.kernel.thread 0).current_priority)) = some (.ready, 10) := by
    decide +kernel
  rw [hrun, Option.map_some, Option.some_inj] at hpc hcur hmutex hprio hempty hready
  simp only [Prod.mk.injEq] at hmutex hready
  obtain ⟨howner, hhold, horiginal⟩ := hmutex
  obtain ⟨m', hstep, -, hpc', hprio', hthread⟩ := run_lowers h hpc
    ⟨0, rfl, by rw [hcur]; exact howner, hhold, by rw [hprio, horiginal]; decide, hempty⟩
  have h0 := hthread 0 (by rw [hcur]; exact Nat.zero_ne_one)
  refine ⟨m, m', h, hstep, hpc', hprio'.trans horiginal, ?_, ?_⟩
  · rw [h0]
    exact hready.1
  · rw [h0]
    exact hready.2

/-- Of those in a list that is first in, first out, one that has waited longest is resumed. -/
theorem run_longest (h : Runs fuel n idle k threads acts m') {o : Ipc} {u : ℕ} {v : Pending}
    (hflag : m'.kernel.flag o = .fifo) (hv : m'.pending u = some v)
    (hob : v.call.object = some o) (hs : (m'.kernel.thread u).stat = .suspend) : ∃ t w k',
    m'.kernel.rt_ipc_list_resume o = some k' ∧ m'.pending t = some w ∧
      w.call.object = some o ∧ (k'.thread t).stat = .ready ∧
      (∀ r, r ≠ t → k'.thread r = m'.kernel.thread r) ∧ w.since ≤ v.since := by
  obtain ⟨⟨q, hsound⟩, -, -⟩ := h.inv
  have hm : Node.tlist u ∈ q (.ipc o) :=
    ((hsound.waiting.placed u).listed o).mpr ⟨hs, v, hv, hob⟩
  have hne : ¬m'.kernel.links.isEmpty (.suspend_thread o) = true := fun he => by
    rw [(isEmpty_ipc_iff hsound.waiting.queued).mp he] at hm
    exact absurd hm List.not_mem_nil
  obtain ⟨t, xs, w, hq, hentry, hst, hw, hobw, -⟩ := exists_head hsound hne
  have hresume : m'.kernel.rt_ipc_list_resume o = some (m'.kernel.rt_thread_resume t) := by
    rw [State.rt_ipc_list_resume, hentry]
    rfl
  have hthread := thread_rt_thread_resume hst
  refine ⟨t, w, _, hresume, hw, hobw, ?_, fun r hr => ?_, ?_⟩
  · rw [hthread, thread_update_self]
  · rw [hthread, thread_update_of_ne hr]
  · -- The list is in the order of when threads came, and its first thread is resumed.
    have hfifo := hsound.waiting.fifo o hflag
    rw [hq] at hm hfifo
    have hv' : (m'.pc u).pending = some v := hv
    rcases List.mem_cons.mp hm with heq | hmem
    · have hut : u = t := Node.tlist.inj heq
      subst hut
      rw [Option.some_inj.mp (hw.symm.trans hv)]
    · have hle := (List.pairwise_cons.mp hfifo).1 _ hmem
      simp only [since, hw, hv', Option.map_some, Option.getD_some] at hle
      exact hle

/-- The third thread waits for a semaphore, and after it the first, of a higher priority. -/
def inTurn : List Act :=
  [.rt_thread_sleep 2, .rt_schedule, .rt_sem_take 0 9, .rt_schedule, .tick, .tick, .ret,
    .rt_sem_take 0 9, .rt_schedule]

theorem run_longest_trio : ∃ m' t w k', Runs 4 3 1 pair [0, 2, 1] inTurn m' ∧
    (m'.kernel.thread 0).stat = .suspend ∧ (m'.kernel.thread 2).stat = .suspend ∧
      m'.kernel.rt_ipc_list_resume (.semaphore 0) = some k' ∧ m'.pending t = some w ∧
        w.call.object = some (.semaphore 0) ∧ (k'.thread t).stat = .ready ∧ w.since ≤ 0 ∧
          t ≠ 0 := by
  obtain ⟨m', hrun, h⟩ := exists_trio_runs inTurn (by decide +kernel)
  have hflag : (run 4 trioStarted inTurn).map (fun m => m.kernel.flag (.semaphore 0)) =
      some .fifo := by decide +kernel
  have hpending : (run 4 trioStarted inTurn).map (fun m => (m.pending 0, m.pending 2)) =
      some (some ⟨.rt_sem_take 0, 2, some 9⟩, some ⟨.rt_sem_take 0, 0, some 9⟩) := by
    decide +kernel
  have hstat : (run 4 trioStarted inTurn).map
      (fun m => ((m.kernel.thread 0).stat, (m.kernel.thread 2).stat)) =
        some (.suspend, .suspend) := by decide +kernel
  rw [hrun, Option.map_some, Option.some_inj] at hflag hpending hstat
  obtain ⟨hpending0, hpending2⟩ := Prod.mk.inj hpending
  obtain ⟨hstat0, hstat2⟩ := Prod.mk.inj hstat
  obtain ⟨t, w, k', hk, hw, hob, hready, -, hle⟩ := run_longest h hflag hpending2 rfl hstat2
  refine ⟨m', t, w, k', h, hstat0, hstat2, hk, hw, hob, hready, hle, fun ht => ?_⟩
  -- The first thread has not waited as long.
  rw [ht, hpending0] at hw
  rw [← Option.some_inj.mp hw] at hle
  exact absurd hle (by decide)

end Promises

end Machine

end Kernel
