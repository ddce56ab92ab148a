-- SUMMARY: The steps of mutexes and events.
import LynxFly.Kernel.ThreadSteps

/-!
# Steps of mutexes and events

A mutex raises its owner to the priority of who waits for it, which no list of waiting threads
shows. An event may be given to several threads at once.
-/

namespace Kernel

open State

namespace Machine

/-! ## Errors and priorities -/

section Errors

variable {m : Machine} {k k' : State} {pc : ℕ → Pc} {now n idle t c : ℕ} {q : Head → List Node}
  {e : ℤ}

/-- What a call leaves in its thread. -/
def setError (k : State) (t : ℕ) (e : ℤ) : State :=
  k.update t fun thread => { thread with error := e }

theorem setError_self : (setError k t e).thread t = { k.thread t with error := e } :=
  thread_update_self

theorem setError_of_ne {u : ℕ} (hu : u ≠ t) : (setError k t e).thread u = k.thread u :=
  thread_update_of_ne hu

theorem setError_eq (u : ℕ) : ((setError k t e).thread u).stat = (k.thread u).stat ∧
    ((setError k t e).thread u).current_priority = (k.thread u).current_priority := by
  by_cases hu : u = t
  · rw [hu, setError_self]
    exact ⟨rfl, rfl⟩
  · rw [setError_of_ne hu]
    exact ⟨rfl, rfl⟩

theorem sound_setError (h : Sound k pc now n idle q) (hpc : pc k.rt_current_thread = .user) :
    Sound (setError k k.rt_current_thread e) pc now n idle q := by
  have hs := h.ready_of_user hpc
  refine h.keep (by rw [hpc]; rfl) hs (h.waiting.queued.update rfl) (fun _ => rfl) rfl
    (fun o => by cases o <;> rfl) h.mutex (fun u hu => congrArg seen (setError_of_ne hu)) ?_
  rw [setError_self]
  exact hs

theorem waiters_setError (hpc : m.pc m.current = .user) :
    { m with kernel := setError m.kernel m.current e }.waiters = m.waiters := by
  have hstatus := status_keep (k := m.kernel) (l := setError m.kernel m.current e) (p := m.pc)
    (r := m.pc) (t := m.current) (fun u hu => congrArg seen (setError_of_ne hu)) (fun _ => rfl)
    (by rw [hpc]; rfl)
  exact Waiters.ext rfl hstatus rfl rfl rfl rfl rfl rfl rfl

theorem settled_setError (h : m.Settled) :
    { m with kernel := setError m.kernel m.current e }.Settled :=
  h.keep rfl rfl (fun u => (setError_eq u).1) fun u => (setError_eq u).2

/-- The priority of a thread changes, and the list it is ready in. -/
theorem exists_priority (h : Sound k pc now n idle q) (hc : c < RT_THREAD_PRIORITY_MAX) :
    ∃ q', Queued (k.rt_thread_change_priority t c) n k.rt_tick q' ∧
      (∀ o, q' (.ipc o) = q (.ipc o)) ∧
        Sound (k.rt_thread_change_priority t c) pc now n idle q' := by
  have hothers := others_rt_thread_change_priority (k := k) (t := t) (c := c)
  have hthread := thread_rt_thread_change_priority (k := k) (t := t) (c := c)
  have hq := h.waiting.queued.rt_thread_change_priority (t := t) hc
  have hipc : ∀ o, (if (k.thread t).stat = .ready then moved q t c else q) (.ipc o) =
      q (.ipc o) := fun o => by
    split
    case isTrue hs =>
      rw [moved, Function.update_of_ne (ipc_ne_priority o _)]
      refine List.erase_of_not_mem (h.not_listed ?_ o)
      rw [hs]
      exact Stat.ready_ne_suspend
    case isFalse => rfl
  refine ⟨_, hq, hipc, sound_same h hq hipc hothers fun u => ?_⟩
  rw [hthread]
  by_cases hu : u = t
  · rw [hu, thread_update_self]
    rfl
  · rw [thread_update_of_ne hu]

theorem priority_eq (u : ℕ) : seen ((k.rt_thread_change_priority t c).thread u) =
    seen (k.thread u) := by
  rw [thread_rt_thread_change_priority]
  by_cases hu : u = t
  · rw [hu, thread_update_self]
    rfl
  · rw [thread_update_of_ne hu]

end Errors

/-! ## Mutexes -/

section Mutexes

variable {m : Machine} {k : State} {pc : ℕ → Pc} {fuel now n idle i : ℕ} {q : Head → List Node}
  {time : ℤ} {x : rt_mutex}

theorem waiters_setMutex : { m with kernel := m.kernel.setMutex i x }.waiters =
    m.waiters.setLock i x.owner x.hold :=
  Waiters.ext rfl rfl rfl rfl rfl (Function.comp_update rt_mutex.owner m.kernel.mutex i x)
    (Function.comp_update rt_mutex.hold m.kernel.mutex i x) rfl rfl

theorem sound_setMutex (h : Sound k pc now n idle q) (hx : x.Ok)
    (hflag : x.flag = (k.mutex i).flag) : Sound (k.setMutex i x) pc now n idle q := by
  have hq : Queued (k.setMutex i x) n k.rt_tick q :=
    h.waiting.queued.congr rfl (fun _ => rfl) fun _ => rfl
  have hflags : ∀ o, (k.setMutex i x).flag o = k.flag o := fun o => by
    cases o with
    | mutex j =>
      by_cases hji : j = i
      · subst hji
        simp only [flag, State.setMutex, Function.update_self, hflag]
      · simp only [flag, State.setMutex, Function.update_of_ne hji]
    | semaphore j => rfl
    | event e => rfl
  have hw := h.waiting.move (t := idle) hq hflags (fun _ _ => rfl) (fun _ _ => rfl)
    (fun _ _ _ => Iff.rfl) (h.waiting.placed idle) h.waiting.fifo
  refine ⟨hw, h.running, h.nest, h.locked, h.idle, fun j => ?_⟩
  by_cases hji : j = i
  · rw [hji, State.setMutex]
    simp only [Function.update_self]
    exact hx
  · simp only [State.setMutex, Function.update_of_ne hji]
    exact h.mutex j

theorem object_eq_mutex {call : Call} (h : call.object = some (.mutex i)) :
    call = .rt_mutex_take i := by
  cases call with
  | rt_mutex_take j => exact congrArg _ (Ipc.mutex.inj (Option.some_inj.mp h))
  | rt_sem_take j => exact nomatch h
  | rt_event_recv e set option => exact nomatch h
  | rt_thread_sleep => exact nomatch h

theorem want_eq_lock {call : Call} (h : call.want = .lock i) : call = .rt_mutex_take i := by
  cases call with
  | rt_mutex_take j => exact congrArg _ (Want.lock.inj h)
  | rt_sem_take j => exact nomatch h
  | rt_event_recv e set option => exact nomatch h
  | rt_thread_sleep => exact nomatch h

/-- The mutex is the current thread's now, or once more. -/
theorem goes_locked {e : ℤ} (h : Sound m.kernel m.pc m.now n idle q)
    (hpc : m.pc m.current = .user)
    (hk : m.kernel.rt_mutex_take fuel i time =
      some ((setError m.kernel m.current e).setMutex i x, .ret RT_EOK))
    (hfree : ∀ u, (m.kernel.mutex i).owner = some u → u = m.current) (hx : x.Ok)
    (hflag : x.flag = (m.kernel.mutex i).flag) (howner : x.owner = some m.current)
    (hhold : x.hold = (m.kernel.mutex i).hold + 1) :
    m.Goes fuel n idle (.rt_mutex_take i time) := by
  have hs := sound_setMutex (i := i) (sound_setError (e := e) h hpc) hx hflag
  refine ⟨{ m with kernel := (setError m.kernel m.current e).setMutex i x }.credit m.current
    (.rt_mutex_take i), q, ?_, hs, .single ?_, fun hset _ => ?_⟩
  · simp only [step, hk, Option.map_some, waits, if_true]
  · have hw := waiters_setMutex (m := { m with kernel := setError m.kernel m.current e }) (i := i)
      (x := x)
    rw [waiters_setError hpc] at hw
    rw [waiters_credit]
    have hstep : Waiters.Step (2 ^ 16) (Finset.range n) _ _ :=
      .lock m.current i (status_of_user hpc) hfree
    rw [howner, hhold] at hw
    exact hw ▸ hstep
  · exact (settled_setError (e := e) hset).keep rfl rfl (fun _ => rfl) fun _ => rfl

theorem goes_rt_mutex_take (h : Sound m.kernel m.pc m.now n idle q) (hfuel : n < fuel)
    (hl : m.Legal n idle (.rt_mutex_take i time)) :
    m.Goes fuel n idle (.rt_mutex_take i time) := by
  obtain ⟨hpc, htime, hmay, hhold⟩ := hl
  have hs : (m.kernel.thread m.current).stat = .ready := h.ready_of_user hpc
  have hmod : ((m.kernel.mutex i).hold + 1) % 2 ^ 8 = (m.kernel.mutex i).hold + 1 :=
    Nat.mod_eq_of_lt (by omega)
  by_cases hown : (m.kernel.mutex i).owner = some m.current
  · have hk : m.kernel.rt_mutex_take fuel i time =
        some ((setError m.kernel m.current RT_EOK).setMutex i
          { m.kernel.mutex i with hold := ((m.kernel.mutex i).hold + 1) % 2 ^ 8 },
          .ret RT_EOK) := if_pos hown
    rw [hmod] at hk
    refine goes_locked h hpc hk (fun u hu => Option.some_inj.mp (hu.symm.trans hown)) ?_ rfl hown
      rfl
    rcases h.mutex i with ⟨hnone, -⟩ | ⟨hne, hv, -, -, hp⟩
    · exact absurd (hown.symm.trans hnone) (Option.some_ne_none _)
    · exact .inr ⟨hne, hv, Nat.succ_ne_zero _, Nat.lt_pred_iff.mp hhold, hp⟩
  by_cases hv : 0 < (m.kernel.mutex i).value
  · rcases h.mutex i with ⟨hnone, hv1, hh0⟩ | ⟨-, hv0, -⟩
    · have hself : ((setError m.kernel m.current RT_EOK).thread m.current).current_priority =
          (m.kernel.thread m.current).current_priority := (setError_eq m.current).2
      have hk : m.kernel.rt_mutex_take fuel i time =
          some ((setError m.kernel m.current RT_EOK).setMutex i
            { m.kernel.mutex i with
              value := (m.kernel.mutex i).value - 1
              owner := some m.current
              original_priority :=
                ((setError m.kernel m.current RT_EOK).thread m.current).current_priority
              hold := ((m.kernel.mutex i).hold + 1) % 2 ^ 8 }, .ret RT_EOK) :=
        (if_neg hown).trans (if_pos hv)
      rw [hmod, hself] at hk
      refine goes_locked h hpc hk (fun u hu => ?_)
        (.inr ⟨Option.some_ne_none _, ?_, ?_, ?_, ?_⟩) rfl rfl rfl
      · exact absurd (hu.symm.trans hnone) (Option.some_ne_none u)
      · show (m.kernel.mutex i).value - 1 = 0
        rw [hv1]
      · exact Nat.succ_ne_zero _
      · show (m.kernel.mutex i).hold + 1 < 2 ^ 8
        rw [hh0]
        decide
      · exact (h.waiting.queued.priority m.current).1
    · exact absurd hv0 (Nat.ne_of_gt hv)
  by_cases h0 : time = 0
  · have hk : m.kernel.rt_mutex_take fuel i time =
        some (setError (setError m.kernel m.current RT_EOK) m.current (-RT_ETIMEOUT),
          .ret (-RT_ETIMEOUT)) := (if_neg hown).trans ((if_neg hv).trans (if_pos h0))
    have hs1 := sound_setError (e := -RT_ETIMEOUT) (sound_setError (e := RT_EOK) h hpc) hpc
    refine ⟨{ m with
      kernel := setError (setError m.kernel m.current RT_EOK) m.current (-RT_ETIMEOUT) },
      q, ?_, hs1, ?_, fun hset _ => ?_⟩
    · have hne : -RT_ETIMEOUT ≠ RT_EOK := by decide
      simp only [step, hk, Option.map_some, waits, if_neg hne]
    · have hw := waiters_setError (e := -RT_ETIMEOUT)
        (m := { m with kernel := setError m.kernel m.current RT_EOK }) hpc
      rw [waiters_setError hpc] at hw
      exact hw ▸ .refl
    · exact settled_setError (m := { m with kernel := setError m.kernel m.current RT_EOK })
        (settled_setError hset)
  · -- The owner runs at the priority of the thread that waits, if that is higher.
    obtain ⟨o, ho⟩ : ∃ o, (m.kernel.mutex i).owner = some o := by
      rcases h.mutex i with ⟨-, hv1, -⟩ | ⟨hne, -⟩
      · exact absurd (hv1 ▸ Nat.one_pos) hv
      · exact Option.ne_none_iff_exists'.mp hne
    have hne : o ≠ m.current := fun heq => hown (heq ▸ ho)
    let k1 := if ((setError m.kernel m.current RT_EOK).thread m.current).current_priority <
        ((setError m.kernel m.current RT_EOK).thread o).current_priority then
      (setError m.kernel m.current RT_EOK).rt_thread_change_priority o
        ((setError m.kernel m.current RT_EOK).thread m.current).current_priority
      else setError m.kernel m.current RT_EOK
    have hs1 := sound_setError (e := RT_EOK) h hpc
    have hseen : ∀ u, seen (k1.thread u) = seen ((setError m.kernel m.current RT_EOK).thread u) :=
      fun u => by
        by_cases hlt : ((setError m.kernel m.current RT_EOK).thread m.current).current_priority <
            ((setError m.kernel m.current RT_EOK).thread o).current_priority
        · rw [show k1 = _ from if_pos hlt]
          exact priority_eq u
        · rw [show k1 = _ from if_neg hlt]
    have hothers : k1.others = m.kernel.others := by
      by_cases hlt : ((setError m.kernel m.current RT_EOK).thread m.current).current_priority <
          ((setError m.kernel m.current RT_EOK).thread o).current_priority
      · rw [show k1 = _ from if_pos hlt]
        exact others_rt_thread_change_priority
      · rw [show k1 = _ from if_neg hlt]
        rfl
    obtain ⟨q1, hq1, hipc1⟩ : ∃ q1, Queued k1 n m.kernel.rt_tick q1 ∧
        ∀ o, q1 (.ipc o) = q (.ipc o) := by
      by_cases hlt : ((setError m.kernel m.current RT_EOK).thread m.current).current_priority <
          ((setError m.kernel m.current RT_EOK).thread o).current_priority
      · rw [show k1 = _ from if_pos hlt]
        obtain ⟨q1, hq1, hipc1, -⟩ := exists_priority (t := o) hs1
          (hs1.waiting.queued.priority m.current).1
        exact ⟨q1, hq1, hipc1⟩
      · rw [show k1 = _ from if_neg hlt]
        exact ⟨q, hs1.waiting.queued, fun _ => rfl⟩
    have hself : seen (k1.thread m.current) =
        seen { m.kernel.thread m.current with error := RT_EOK } := by
      rw [hseen, setError_self]
    obtain ⟨k', q', hk', hs', hsteps, hsettled⟩ := exists_wait (.rt_mutex_take i) k1 h hfuel hpc
      (hmay.resolve_left h0) htime rfl hq1 hipc1 hothers
      (fun u hu => (hseen u).trans (congrArg seen (setError_of_ne hu)))
      ((congrArg Prod.fst hself).trans hs) (congrArg (·.2.1) hself)
      (fun e set option hc => absurd hc Call.noConfusion) ⟨o, ho, hne⟩
    have hk : m.kernel.rt_mutex_take fuel i time = some (k', .schedule) := by
      rw [State.rt_mutex_take]
      refine (if_neg hown).trans ((if_neg hv).trans ((if_neg h0).trans ?_))
      show (m.kernel.mutex i).owner.bind _ = _
      rw [ho]
      show (k1.wait fuel (.mutex i) time).bind _ = _
      rw [hk']
      rfl
    refine ⟨_, q', ?_, hs', hsteps, fun _ _ => hsettled⟩
    simp only [step, hk, Option.map_some]

/-- The owner's own priority comes back. -/
theorem exists_restored (h : Sound m.kernel m.pc m.now n idle q) (i : ℕ)
    (hp : (m.kernel.mutex i).original_priority < RT_THREAD_PRIORITY_MAX) : ∃ k1 q1,
    (if (m.kernel.mutex i).original_priority ≠ (m.kernel.thread m.current).current_priority then
        m.kernel.rt_thread_change_priority m.current (m.kernel.mutex i).original_priority
      else m.kernel) = k1 ∧
      Sound k1 m.pc m.now n idle q1 ∧ (∀ o, q1 (.ipc o) = q (.ipc o)) ∧
      k1.others = m.kernel.others ∧ (∀ u, seen (k1.thread u) = seen (m.kernel.thread u)) ∧
      (∀ u, u ≠ m.current → k1.thread u = m.kernel.thread u) ∧
      (k1.thread m.current).current_priority = (m.kernel.mutex i).original_priority := by
  by_cases hne : (m.kernel.mutex i).original_priority ≠ (m.kernel.thread m.current).current_priority
  · obtain ⟨q1, -, hipc, hs1⟩ := exists_priority (t := m.current) h hp
    refine ⟨_, q1, if_pos hne, hs1, hipc, others_rt_thread_change_priority, priority_eq,
      fun u hu => ?_, ?_⟩
    · rw [thread_rt_thread_change_priority, thread_update_of_ne hu]
    · rw [thread_rt_thread_change_priority, thread_update_self]
  · exact ⟨_, q, if_neg hne, h, fun _ => rfl, rfl, fun _ => rfl, fun _ _ => rfl,
      (not_not.mp hne).symm⟩

theorem waiters_restored {k1 : State} (hothers : k1.others = m.kernel.others)
    (hseen : ∀ u, seen (k1.thread u) = seen (m.kernel.thread u)) :
    { m with kernel := k1.setMutex i x }.waiters = m.waiters.setLock i x.owner x.hold := by
  have hw := waiters_setMutex (m := { m with kernel := k1 }) (i := i) (x := x)
  rw [waiters_same (k := m.kernel) hothers hseen] at hw
  exact hw

/-- The end of `rt_mutex_release` for a mutex that its owner has no more. -/
def pass_on (k : State) (i : ℕ) (m : rt_mutex) : Option (State × Next) :=
  if ¬k.links.isEmpty (.suspend_thread (.mutex i)) then do
    let t ← entry (k.links.next (.suspend_thread (.mutex i)))
    let k := k.setMutex i
      { m with
        owner := some t
        original_priority := (k.thread t).current_priority
        hold := m.hold + 1 }
    some (← k.rt_ipc_list_resume (.mutex i), .schedule)
  else
    some (k.setMutex i
      { m with value := (m.value + 1) % 2 ^ 16, owner := none, original_priority := 0xff },
      .ret RT_EOK)

theorem rt_mutex_release_eq {k1 : State} (hown : (m.kernel.mutex i).owner = some m.current)
    (hzero : ((m.kernel.mutex i).hold + 2 ^ 8 - 1) % 2 ^ 8 = 0)
    (hk1 : (if (m.kernel.mutex i).original_priority ≠ (m.kernel.thread m.current).current_priority
      then m.kernel.rt_thread_change_priority m.current (m.kernel.mutex i).original_priority
      else m.kernel) = k1) : m.kernel.rt_mutex_release i =
    pass_on k1 i { m.kernel.mutex i with
      hold := ((m.kernel.mutex i).hold + 2 ^ 8 - 1) % 2 ^ 8 } := by
  subst hk1
  exact (if_neg (not_not.mpr hown)).trans (if_pos hzero)

/-- A mutex that nobody waits for, as its owner leaves it. -/
def freed (x : rt_mutex) : rt_mutex :=
  { x with
    hold := (x.hold + 2 ^ 8 - 1) % 2 ^ 8
    value := (x.value + 1) % 2 ^ 16
    owner := none
    original_priority := 0xff }

theorem rt_mutex_release_freed {k1 : State} (hown : (m.kernel.mutex i).owner = some m.current)
    (h1 : (m.kernel.mutex i).hold = 1)
    (hk1 : (if (m.kernel.mutex i).original_priority ≠ (m.kernel.thread m.current).current_priority
      then m.kernel.rt_thread_change_priority m.current (m.kernel.mutex i).original_priority
      else m.kernel) = k1) (he : k1.links.isEmpty (.suspend_thread (.mutex i)) = true) :
    m.kernel.rt_mutex_release i =
      some (k1.setMutex i (freed (m.kernel.mutex i)), .ret RT_EOK) := by
  have hzero : ((m.kernel.mutex i).hold + 2 ^ 8 - 1) % 2 ^ 8 = 0 := by omega
  rw [rt_mutex_release_eq hown hzero hk1]
  exact if_neg (not_not.mpr he)

/-- Nobody has what it gives back. -/
theorem goes_not_owner (h : Sound m.kernel m.pc m.now n idle q) (hpc : m.pc m.current = .user)
    (hown : (m.kernel.mutex i).owner ≠ some m.current) :
    m.Goes fuel n idle (.rt_mutex_release i) := by
  have hk : m.kernel.rt_mutex_release i =
      some (setError m.kernel m.current (-RT_ERROR), .ret (-RT_ERROR)) := if_pos hown
  refine ⟨{ m with kernel := setError m.kernel m.current (-RT_ERROR) }, q, ?_,
    sound_setError h hpc, ?_, fun hset _ => settled_setError hset⟩
  · simp only [step, hk, Option.map_some, if_true]
    rfl
  · rw [waiters_setError hpc]
    exact .refl

theorem goes_rt_mutex_release (h : Sound m.kernel m.pc m.now n idle q)
    (hl : m.Legal n idle (.rt_mutex_release i)) : m.Goes fuel n idle (.rt_mutex_release i) := by
  have hpc : m.pc m.current = .user := hl
  by_cases hown : (m.kernel.mutex i).owner ≠ some m.current
  · exact goes_not_owner h hpc hown
  have howner := not_not.mp hown
  have hfree := status_of_user hpc
  rcases h.mutex i with ⟨hnone, -⟩ | ⟨hne, hv0, hh0, hlt, hp⟩
  · exact absurd (howner.symm.trans hnone) (Option.some_ne_none _)
  have hmod : ((m.kernel.mutex i).hold + 2 ^ 8 - 1) % 2 ^ 8 = (m.kernel.mutex i).hold - 1 := by
    omega
  have hret : Next.ret RT_EOK ≠ .ret (-RT_ERROR) := by decide
  by_cases h1 : (m.kernel.mutex i).hold = 1
  · have hzero : ((m.kernel.mutex i).hold + 2 ^ 8 - 1) % 2 ^ 8 = 0 := by omega
    obtain ⟨k1, q1, hk1, hs1, hipc, hothers, hseen, hne1, hprio⟩ := exists_restored h i hp
    obtain ⟨-, hmutex1, -, hsched1, -⟩ := others_eq hothers
    have hcur1 : k1.rt_current_thread = m.current := (sched_eq hsched1).1
    by_cases he : k1.links.isEmpty (.suspend_thread (.mutex i)) = true
    · -- Nobody waits, and the mutex is free.
      let x := freed (m.kernel.mutex i)
      have hk : m.kernel.rt_mutex_release i = some (k1.setMutex i x, .ret RT_EOK) :=
        rt_mutex_release_freed howner h1 hk1 he
      have hone : ((m.kernel.mutex i).value + 1) % 2 ^ 16 = 1 := by rw [hv0]; decide
      have hx : x.Ok := .inl ⟨rfl, hone, hzero⟩
      have hs := sound_setMutex hs1 hx (by rw [hmutex1]; rfl)
      refine ⟨{ m with kernel := k1.setMutex i x }.unhold i m.current, q1, ?_, hs, .single ?_,
        fun hset hlow => ?_⟩
      · simp only [step, hk, Option.map_some, if_neg hret]
        rfl
      · have hw := waiters_restored (x := x) (i := i) hothers hseen
        have hnone := not_waits_of_isEmpty hs1 (m := { m with kernel := k1 }) he (.lock i)
          fun call hc => by rw [want_eq_lock hc]; rfl
        have hwk : { m with kernel := k1 }.waiters = m.waiters :=
          waiters_same (k := m.kernel) hothers hseen
        rw [hwk] at hnone
        have hstep : Waiters.Step (2 ^ 16) (Finset.range n) _ _ :=
          .free m.current i hfree howner h1 hnone
        have hx0 : x.hold = 0 := hzero
        rw [hx0] at hw
        have heq : ({ m with kernel := k1.setMutex i x }.unhold i m.current).waiters =
            (m.waiters.setLock i none 0).unhold i m.current :=
          congrArg (fun a => a.unhold i m.current) hw
        rw [heq]
        exact hstep
      · -- The priority does not get lower, so that it is the highest still.
        intro h0 hp1 hp2
        have hpc1 : m.kernel.rt_scheduler_lock_nest = 0 := (sched_eq hsched1).2.1.symm.trans h0
        have hb := hset hpc1 (by rw [hpc]; exact Pc.noConfusion)
          (fun w => by rw [hpc]; exact Pc.noConfusion)
        have hempty : m.kernel.links.isEmpty (.suspend_thread (.mutex i)) = true := by
          rw [isEmpty_ipc_iff h.waiting.queued, ← hipc]
          exact (isEmpty_ipc_iff hs1.waiting.queued).mp he
        have hle : (m.kernel.mutex i).original_priority ≤
            (m.kernel.thread m.current).current_priority := by
          by_contra hgt
          exact hlow ⟨i, rfl, howner, h1, Nat.lt_of_not_le hgt, hempty⟩
        intro u hu
        show (k1.thread k1.rt_current_thread).current_priority ≤ (k1.thread u).current_priority
        rw [hcur1, hprio]
        by_cases hum : u = m.current
        · rw [hum, hprio]
        · rw [hne1 u hum]
          have hu' : (k1.thread u).stat = .ready := hu
          rw [hne1 u hum] at hu'
          exact hle.trans (hb u hu')
    · -- The first thread that waits has the mutex next.
      obtain ⟨u, xs, w, hxq, hentry, hsu, hwu, hob, hsus⟩ := exists_head hs1 he
      have hcall := object_eq_mutex hob
      have herror : (k1.thread u).error = RT_EOK :=
        hsus.clear (by rw [hcall]; exact Call.noConfusion)
      let x : rt_mutex := { m.kernel.mutex i with
        owner := some u
        original_priority := (k1.thread u).current_priority
        hold := ((m.kernel.mutex i).hold + 2 ^ 8 - 1) % 2 ^ 8 + 1 }
      have hresume : (k1.setMutex i x).rt_ipc_list_resume (.mutex i) =
          some ((k1.setMutex i x).rt_thread_resume u) := by
        rw [State.rt_ipc_list_resume]
        show (entry (k1.links.next (.suspend_thread (.mutex i)))).bind _ = _
        rw [hentry]
        rfl
      have hk : m.kernel.rt_mutex_release i =
          some ((k1.setMutex i x).rt_thread_resume u, .schedule) := by
        rw [rt_mutex_release_eq howner hzero hk1]
        refine (if_pos he).trans ?_
        show (entry (k1.links.next (.suspend_thread (.mutex i)))).bind _ = _
        rw [hentry]
        show ((k1.setMutex i x).rt_ipc_list_resume (.mutex i)).bind _ = _
        rw [hresume]
        rfl
      have hx : x.Ok := by
        refine .inr ⟨Option.some_ne_none u, hv0, Nat.succ_ne_zero _, ?_,
          (hs1.waiting.queued.priority u).1⟩
        show ((m.kernel.mutex i).hold + 2 ^ 8 - 1) % 2 ^ 8 + 1 < 2 ^ 8
        rw [hzero]
        decide
      have hs2 := sound_setMutex hs1 hx (by rw [hmutex1])
      have hs3 := sound_resume (u := u) hs2 hsu fun w' hw' => by
        have heq : w' = w := Option.some_inj.mp (hw'.symm.trans hwu)
        intro e set option hc
        rw [heq, hcall] at hc
        exact absurd hc Call.noConfusion
      have hcur3 : ((k1.setMutex i x).rt_thread_resume u).rt_current_thread = m.current :=
        (sched_eq (others_eq others_rt_thread_resume).2.2.2.1).1.trans hcur1
      refine ⟨(m.passes ((k1.setMutex i x).rt_thread_resume u) .schedule).unhold i m.current, _, ?_,
        sound_pass hs3 hpc hcur3, .single ?_, fun _ _ => settled_passes hcur3⟩
      · simp only [step, hk, Option.map_some]
        rfl
      · have hw1 :=
          waiters_resume (m := { m with kernel := k1.setMutex i x }) (u := u) hsu hwu herror
        have hw2 := waiters_restored (x := x) (i := i) hothers hseen
        rw [hw2, hcall] at hw1
        have hxh : x.hold = 1 := congrArg (· + 1) hzero
        rw [hxh] at hw1
        have hwaits : m.waiters.Waits u (.lock i) := by
          refine ⟨w.since, w.time, ?_⟩
          have hsu' : (m.kernel.thread u).stat = .suspend :=
            (congrArg Prod.fst (hseen u)).symm.trans hsu
          have hwu' : m.pending u = some w := hwu
          simp only [waiters, hwu', status, if_pos hsu', hcall]
          rfl
        have hstep : Waiters.Step (2 ^ 16) (Finset.range n) _ _ :=
          .hand_over m.current u i hfree howner h1 hwaits
        have heq : ((m.passes ((k1.setMutex i x).rt_thread_resume u) .schedule).unhold i
            m.current).waiters = ((m.waiters.setLock i (some u) 1).unhold i m.current).put u
              (.granted (.lock i)) := by
          have hpass := waiters_pass (k := (k1.setMutex i x).rt_thread_resume u) hpc
          have hun := congrArg (fun a => a.unhold i m.current) (hpass.trans hw1)
          exact hun
        rw [heq]
        exact hstep
  · have hnz : ((m.kernel.mutex i).hold + 2 ^ 8 - 1) % 2 ^ 8 ≠ 0 := by omega
    obtain ⟨v, hv⟩ : ∃ v, (m.kernel.mutex i).hold = v + 2 :=
      ⟨(m.kernel.mutex i).hold - 2, by omega⟩
    let x : rt_mutex := { m.kernel.mutex i with
      hold := ((m.kernel.mutex i).hold + 2 ^ 8 - 1) % 2 ^ 8 }
    have hk : m.kernel.rt_mutex_release i = some (m.kernel.setMutex i x, .ret RT_EOK) :=
      (if_neg hown).trans (if_neg hnz)
    have hxh : x.hold = v + 1 := by
      show ((m.kernel.mutex i).hold + 2 ^ 8 - 1) % 2 ^ 8 = v + 1
      omega
    have hx : x.Ok := .inr ⟨hne, hv0, by rw [hxh]; exact Nat.succ_ne_zero v, by rw [hxh]; omega, hp⟩
    refine ⟨{ m with kernel := m.kernel.setMutex i x }.unhold i m.current, q, ?_,
      sound_setMutex h hx rfl, .single ?_,
      fun hset _ => hset.keep rfl rfl (fun _ => rfl) fun _ => rfl⟩
    · simp only [step, hk, Option.map_some, if_neg hret]
      rfl
    · have hw := waiters_setMutex (m := m) (i := i) (x := x)
      have hxo : x.owner = some m.current := howner
      rw [hxh, hxo] at hw
      have hstep : Waiters.Step (2 ^ 16) (Finset.range n) _ _ :=
        .unlock m.current i v hfree howner hv
      have heq : ({ m with kernel := m.kernel.setMutex i x }.unhold i m.current).waiters =
          (m.waiters.setLock i (some m.current) (v + 1)).unhold i m.current :=
        congrArg (fun a => a.unhold i m.current) hw
      rw [heq]
      exact hstep

end Mutexes

/-! ## Events -/

section Bits

variable {s set : BitVec 32} {option : BitVec 8}

theorem bits_and_subset : bits (s &&& set) ⊆ bits s := by
  intro j hj
  have hj : (s &&& set).getLsbD j = true := hj
  rw [BitVec.getLsbD_and, Bool.and_eq_true] at hj
  exact hj.1

theorem bits_subset_or : bits s ⊆ bits (s ||| set) := by
  intro j hj
  have hj : s.getLsbD j = true := hj
  show (s ||| set).getLsbD j = true
  rw [BitVec.getLsbD_or, hj, Bool.true_or]

theorem and_eq_iff_subset : s &&& set = set ↔ bits set ⊆ bits s := by
  constructor
  · intro heq j hj
    have hj : set.getLsbD j = true := hj
    rw [← heq, BitVec.getLsbD_and, Bool.and_eq_true] at hj
    exact hj.1
  · intro hsub
    refine BitVec.eq_of_getLsbD_eq fun j _ => ?_
    rw [BitVec.getLsbD_and]
    cases hb : set.getLsbD j with
    | true =>
      have hs : s.getLsbD j = true := hsub hb
      rw [hs, Bool.and_true]
    | false => rw [Bool.and_false]

theorem and_ne_zero_iff : s &&& set ≠ 0 ↔ (bits set ∩ bits s).Nonempty := by
  constructor
  · intro hne
    by_contra hempty
    refine hne (BitVec.eq_of_getLsbD_eq fun j _ => ?_)
    rw [BitVec.getLsbD_and]
    by_contra hb
    have hb : (s.getLsbD j && set.getLsbD j) = true := by
      cases hx : (s.getLsbD j && set.getLsbD j) with
      | true => rfl
      | false =>
        rw [hx] at hb
        exact absurd BitVec.getLsbD_zero.symm hb
    rw [Bool.and_eq_true] at hb
    exact hempty ⟨j, hb.2, hb.1⟩
  · rintro ⟨j, hset, hs⟩ h0
    have hs : s.getLsbD j = true := hs
    have hset : set.getLsbD j = true := hset
    have hj : (s &&& set).getLsbD j = true := by rw [BitVec.getLsbD_and, hs, hset, Bool.and_true]
    rw [h0] at hj
    exact absurd (hj.symm.trans BitVec.getLsbD_zero) Bool.noConfusion

/-- What the code tests is that enough events have been sent. -/
theorem received_iff : received s set option = true ↔ bits s ∈ asked set option := by
  show received s set option = true ↔ (if option &&& RT_EVENT_FLAG_AND ≠ 0 then bits set ⊆ bits s
    else option &&& RT_EVENT_FLAG_OR ≠ 0 ∧ (bits set ∩ bits s).Nonempty)
  rw [received]
  by_cases hand : option &&& RT_EVENT_FLAG_AND ≠ 0
  · rw [if_pos hand, if_pos hand, decide_eq_true_iff, and_eq_iff_subset]
  · rw [if_neg hand, if_neg hand, decide_eq_true_iff, and_ne_zero_iff]

/-- What a thread is left with is some of what it asked for, and enough. -/
theorem received_kept (h : received s set option = true) :
    received (if option &&& RT_EVENT_FLAG_AND ≠ 0 then set else set &&& s) set option = true ∧
      (if option &&& RT_EVENT_FLAG_AND ≠ 0 then set else set &&& s) &&& set =
        if option &&& RT_EVENT_FLAG_AND ≠ 0 then set else set &&& s := by
  rw [received] at h
  by_cases hand : option &&& RT_EVENT_FLAG_AND ≠ 0
  · rw [if_pos hand, received, if_pos hand, BitVec.and_self]
    exact ⟨decide_eq_true rfl, rfl⟩
  · rw [if_neg hand, decide_eq_true_iff] at h
    have heq : set &&& s &&& set = set &&& s := by
      rw [BitVec.and_comm, ← BitVec.and_assoc, BitVec.and_self]
    rw [if_neg hand, received, if_neg hand, heq, decide_eq_true_iff]
    exact ⟨⟨h.1, by rw [BitVec.and_comm]; exact h.2⟩, rfl⟩

end Bits

section Events

variable {m : Machine} {k : State} {pc : ℕ → Pc} {fuel now n idle e : ℕ} {q : Head → List Node}
  {s set : BitVec 32} {option : BitVec 8} {timeout : ℤ}

theorem waiters_setEvent : { m with kernel := m.kernel.setEvent e s }.waiters =
    m.waiters.setSent e (bits s) :=
  Waiters.ext rfl rfl rfl rfl rfl rfl rfl rfl
    (Function.comp_update (fun x : rt_event => bits x.set) m.kernel.event e _)

theorem flag_setEvent (o : Ipc) : (k.setEvent e s).flag o = k.flag o := by
  cases o with
  | event j =>
    by_cases hje : j = e
    · subst hje
      simp only [flag, State.setEvent, Function.update_self]
    · simp only [flag, State.setEvent, Function.update_of_ne hje]
  | semaphore j => rfl
  | mutex j => rfl

theorem sound_setEvent (h : Sound k pc now n idle q) : Sound (k.setEvent e s) pc now n idle q := by
  have hq : Queued (k.setEvent e s) n k.rt_tick q :=
    h.waiting.queued.congr rfl (fun _ => rfl) fun _ => rfl
  have hw := h.waiting.move (t := idle) hq flag_setEvent (fun _ _ => rfl) (fun _ _ => rfl)
    (fun _ _ _ => Iff.rfl) (h.waiting.placed idle) h.waiting.fifo
  exact ⟨hw, h.running, h.nest, h.locked, h.idle, h.mutex⟩

theorem object_eq_event {call : Call} (h : call.object = some (.event e)) :
    ∃ set option, call = .rt_event_recv e set option := by
  cases call with
  | rt_event_recv j set option =>
    have hje : j = e := Ipc.event.inj (Option.some_inj.mp h)
    exact ⟨set, option, by rw [hje]⟩
  | rt_sem_take j => exact nomatch h
  | rt_mutex_take j => exact nomatch h
  | rt_thread_sleep => exact nomatch h

/-- A thread in the list of an event, and what it waits for. -/
theorem exists_asked (h : Sound k pc now n idle q) {u : ℕ}
    (hm : .tlist u ∈ q (.ipc (.event e))) : (k.thread u).stat = .suspend ∧ ∃ w,
      (pc u).pending = some w ∧
        w.call = .rt_event_recv e (k.thread u).event_set (k.thread u).event_info ∧
          (k.thread u).error = RT_EOK := by
  obtain ⟨hs, w, hw, hob⟩ := ((h.waiting.placed u).listed (.event e)).mp hm
  obtain ⟨set, option, hcall⟩ := object_eq_event hob
  obtain ⟨w', hw', hsus⟩ := (h.waiting.placed u).suspended hs
  have heq : w' = w := Option.some_inj.mp (hw'.symm.trans hw)
  subst heq
  obtain ⟨h1, h2⟩ := hsus.asked e set option hcall
  have hclear := hsus.clear (by rw [hcall]; exact Call.noConfusion)
  exact ⟨hs, w', hw, by rw [hcall, h1, h2], hclear⟩

/-- Nobody waits for events that are there, when no thread in the list does. -/
theorem not_met_of_list (h : Sound m.kernel m.pc m.now n idle q)
    (hxs : ∀ u, .tlist u ∈ q (.ipc (.event e)) →
      received (m.kernel.event e).set (m.kernel.thread u).event_set
        (m.kernel.thread u).event_info = false) (t : ℕ) (c : UpperSet (Set ℕ))
    (hw : m.waiters.Waits t (.events e c)) : m.waiters.sent e ∉ c := by
  obtain ⟨since, time, hs⟩ := hw
  simp only [waiters, status] at hs
  split at hs
  case h_1 => cases hs
  case h_2 w hw =>
    split at hs
    case isTrue hst =>
      have hwant := (Status.waiting.inj hs).1
      have hob : w.call.object = some (.event e) := by
        cases hcall : w.call with
        | rt_event_recv j set option =>
          rw [hcall] at hwant
          rw [(Want.events.inj hwant).1]
          rfl
        | rt_sem_take j =>
          rw [hcall] at hwant
          cases hwant
        | rt_mutex_take j =>
          rw [hcall] at hwant
          cases hwant
        | rt_thread_sleep =>
          rw [hcall] at hwant
          cases hwant
      have hm := ((h.waiting.placed t).listed (.event e)).mpr ⟨hst, w, hw, hob⟩
      obtain ⟨-, w', hw', hcall, -⟩ := exists_asked h hm
      have heq : w' = w := Option.some_inj.mp (hw'.symm.trans hw)
      subst heq
      rw [hcall] at hwant
      have hc : asked (m.kernel.thread t).event_set (m.kernel.thread t).event_info = c :=
        (Want.events.inj hwant).2
      intro hmem
      rw [← hc] at hmem
      have hr := received_iff.mpr hmem
      rw [hxs t hm] at hr
      exact Bool.noConfusion hr
    case isFalse =>
      split at hs
      · cases hs
      · cases hs

/-- What the loop of `rt_event_send` does to a thread that has received enough. -/
def give (k : State) (e u : ℕ) : State :=
  let thread := k.thread u
  let set := (k.event e).set
  let k :=
    if thread.event_info &&& RT_EVENT_FLAG_AND ≠ 0 then
      k
    else
      k.update u fun thread => { thread with event_set := thread.event_set &&& set }
  if thread.event_info &&& RT_EVENT_FLAG_CLEAR ≠ 0 then
    k.setEvent e (set &&& ~~~(k.thread u).event_set)
  else
    k

/-- A thread as `give` leaves it. -/
structure Gave (k k' : State) (e u : ℕ) : Prop where
  links : k'.links = k.links
  group : k'.rt_thread_ready_priority_group = k.rt_thread_ready_priority_group
  mutex : k'.mutex = k.mutex
  semaphore : k'.semaphore = k.semaphore
  sched : sched k' = sched k
  flag : ∀ o, k'.flag o = k.flag o
  others : ∀ v, v ≠ u → k'.thread v = k.thread v
  self : k'.thread u = { k.thread u with
    event_set := if (k.thread u).event_info &&& RT_EVENT_FLAG_AND ≠ 0 then (k.thread u).event_set
      else (k.thread u).event_set &&& (k.event e).set }
  event : ∃ s, k'.event = Function.update k.event e { k.event e with set := s } ∧
    bits s ⊆ bits (k.event e).set

theorem gave (e u : ℕ) : Gave k (give k e u) e u := by
  let k1 := if (k.thread u).event_info &&& RT_EVENT_FLAG_AND ≠ 0 then k
    else k.update u fun thread =>
      { thread with event_set := thread.event_set &&& (k.event e).set }
  have h1 : Gave k k1 e u := by
    have hsame : k.event = Function.update k.event e { k.event e with set := (k.event e).set } :=
      (Function.update_eq_self e k.event).symm
    by_cases hand : (k.thread u).event_info &&& RT_EVENT_FLAG_AND ≠ 0
    · rw [show k1 = k from if_pos hand]
      refine ⟨rfl, rfl, rfl, rfl, rfl, fun _ => rfl, fun _ _ => rfl, ?_, _, hsame, subset_rfl⟩
      rw [if_pos hand]
    · rw [show k1 = _ from if_neg hand]
      refine ⟨rfl, rfl, rfl, rfl, rfl, fun o => by cases o <;> rfl,
        fun v hv => thread_update_of_ne hv, ?_, _, hsame, subset_rfl⟩
      rw [thread_update_self, if_neg hand]
  by_cases hclear : (k.thread u).event_info &&& RT_EVENT_FLAG_CLEAR ≠ 0
  · rw [show give k e u = k1.setEvent e ((k.event e).set &&& ~~~(k1.thread u).event_set) from
      if_pos hclear]
    obtain ⟨s, hev, -⟩ := h1.event
    refine ⟨h1.links, h1.group, h1.mutex, h1.semaphore, h1.sched,
      fun o => (flag_setEvent o).trans (h1.flag o), h1.others, h1.self,
      (k.event e).set &&& ~~~(k1.thread u).event_set, ?_, bits_and_subset⟩
    rw [State.setEvent, hev, Function.update_idem, Function.update_self]
  · rw [show give k e u = k1 from if_neg hclear]
    exact h1

/-- A thread that has received enough is woken with the events it has. -/
theorem exists_give (h : Sound m.kernel m.pc m.now n idle q) {u : ℕ}
    (hm : .tlist u ∈ q (.ipc (.event e)))
    (hr : received (m.kernel.event e).set (m.kernel.thread u).event_set
      (m.kernel.thread u).event_info = true) : ∃ s,
    Sound ((give m.kernel e u).rt_thread_resume u) m.pc m.now n idle
      (woken q u (m.kernel.thread u).current_priority) ∧
    sched ((give m.kernel e u).rt_thread_resume u) = sched m.kernel ∧
    (∀ v, v ≠ u → ((give m.kernel e u).rt_thread_resume u).thread v = m.kernel.thread v) ∧
    (((give m.kernel e u).rt_thread_resume u).event e).set = s ∧
    bits s ⊆ bits (m.kernel.event e).set ∧
    { m with kernel := (give m.kernel e u).rt_thread_resume u }.waiters =
      (m.waiters.put u (.granted (.events e (asked (m.kernel.thread u).event_set
        (m.kernel.thread u).event_info)))).setSent e (bits s) := by
  obtain ⟨hs, w, hw, hcall, herror⟩ := exists_asked h hm
  have hg := gave (k := m.kernel) e u
  obtain ⟨s, hev, hsub⟩ := hg.event
  have hs1 : ((give m.kernel e u).thread u).stat = .suspend :=
    by rw [hg.self]; exact hs
  have hprio : ((give m.kernel e u).thread u).current_priority =
      (m.kernel.thread u).current_priority := by rw [hg.self]
  obtain ⟨hsem2, hmutex2, hevent2, hsched2, hflag2⟩ :=
    others_eq (others_rt_thread_resume (k := give m.kernel e u) (t := u))
  have hthread2 := thread_rt_thread_resume hs1
  have hq1 : Queued (give m.kernel e u) n m.kernel.rt_tick q := by
    refine h.waiting.queued.congr hg.links (fun p => by rw [hg.group]) fun v => ?_
    by_cases hv : v = u
    · rw [hv, hg.self]
      rfl
    · rw [hg.others v hv]
  have hne : ∀ v, v ≠ u →
      ((give m.kernel e u).rt_thread_resume u).thread v = m.kernel.thread v := fun v hv => by
    rw [hthread2, thread_update_of_ne hv, hg.others v hv]
  have hself : ((give m.kernel e u).rt_thread_resume u).thread u = { m.kernel.thread u with
      stat := .ready
      event_set := if (m.kernel.thread u).event_info &&& RT_EVENT_FLAG_AND ≠ 0 then
        (m.kernel.thread u).event_set
        else (m.kernel.thread u).event_set &&& (m.kernel.event e).set
      thread_timer.activated := false } := by
    rw [hthread2, thread_update_self, hg.self]
  have hq2 := hq1.rt_thread_resume hs1
  rw [hprio] at hq2
  have hset : (((give m.kernel e u).rt_thread_resume u).event e).set = s := by
    rw [hevent2, hev, Function.update_self]
  refine ⟨s, ?_, hsched2.trans hg.sched, hne, hset, hsub, ?_⟩
  · refine h.wake hq2 (hsched2.trans hg.sched) (fun o => (hflag2 o).trans (hg.flag o))
      (fun i => ?_) (fun v hv => congrArg seen (hne v hv)) (congrArg rt_thread.stat hself)
      fun w' hw' => ?_
    · rw [hmutex2, hg.mutex]
      exact h.mutex i
    · have heq : w' = w := Option.some_inj.mp (hw'.symm.trans hw)
      subst heq
      intro e' set' option' hc _
      have hinj := Call.rt_event_recv.inj (hcall.symm.trans hc)
      rw [← hinj.2.1, ← hinj.2.2, hself]
      exact received_kept hr
  · have hstatus := status_update (k := m.kernel) (l := (give m.kernel e u).rt_thread_resume u)
      (p := m.pc) (r := m.pc) (t := u) (s := .granted (.events e (asked
        (m.kernel.thread u).event_set (m.kernel.thread u).event_info)))
      (fun v hv => congrArg seen (hne v hv)) (fun _ _ => rfl) (by
        have hst : (((give m.kernel e u).rt_thread_resume u).thread u).stat ≠ .suspend := by
          rw [hself]
          exact Stat.ready_ne_suspend
        have her : (((give m.kernel e u).rt_thread_resume u).thread u).error = RT_EOK :=
          (congrArg rt_thread.error hself).trans herror
        simp only [hw, status, if_neg hst, if_pos her, hcall]
        rfl)
    refine Waiters.ext rfl hstatus ?_ rfl rfl ?_ ?_ rfl ?_
    · exact funext fun i => congrArg (fun f => (f i).value) (hsem2.trans hg.semaphore)
    · exact funext fun i => congrArg (fun f => (f i).owner) (hmutex2.trans hg.mutex)
    · exact funext fun i => congrArg (fun f => (f i).hold) (hmutex2.trans hg.mutex)
    · have hevent := hevent2.trans hev
      have hcomp := Function.comp_update (fun x : rt_event => bits x.set) m.kernel.event e
        { m.kernel.event e with set := s }
      exact (congrArg (fun f : ℕ → rt_event => (fun x : rt_event => bits x.set) ∘ f) hevent).trans
        hcomp

/-- The loop gives the events to the threads that wait for them, from some thread on where nobody
    before it has enough. -/
theorem exists_resume_received (ys : List Node) : ∀ (k : State) (q : Head → List Node)
    (xs : List Node) (need : Bool) (fuel : ℕ), Sound k m.pc m.now n idle q →
    q (.ipc (.event e)) = xs ++ ys → ys.length < fuel →
    (∀ u, .tlist u ∈ xs →
      received (k.event e).set (k.thread u).event_set (k.thread u).event_info = false) →
    ∃ k' need' q',
      k.resume_received e fuel (ys.head?.getD (.suspend_thread (.event e))) need =
        some (k', need') ∧
      Sound k' m.pc m.now n idle q' ∧ sched k' = sched k ∧
      Waiters.Delivers e { m with kernel := k }.waiters { m with kernel := k' }.waiters ∧
      (need' = true ∨ need' = need ∧ k' = k) := by
  induction ys with
  | nil =>
    intro k q xs need fuel h hq hfuel hxs
    obtain ⟨fuel, rfl⟩ := Nat.exists_eq_succ_of_ne_zero (Nat.ne_of_gt hfuel)
    refine ⟨k, need, q, if_pos rfl, h, rfl, .done fun t c hw => ?_, .inr ⟨rfl, rfl⟩⟩
    refine not_met_of_list (m := { m with kernel := k }) h (fun u hu => ?_) t c hw
    rw [hq, List.append_nil] at hu
    exact hxs u hu
  | cons x ys ih =>
    intro k q xs need fuel h hq hfuel hxs
    obtain ⟨fuel, rfl⟩ := Nat.exists_eq_succ_of_ne_zero (Nat.ne_of_gt (Nat.zero_lt_of_lt hfuel))
    have hm : x ∈ q (.ipc (.event e)) := by
      rw [hq]
      exact List.mem_append_right xs List.mem_cons_self
    obtain ⟨u, rfl, -⟩ := h.waiting.queued.waiting (.event e) x hm
    have hlen : ys.length < fuel := Nat.lt_of_succ_lt_succ hfuel
    have hhead : Node.tlist u ≠ .suspend_thread (.event e) := Node.noConfusion
    have hpath := h.waiting.queued.lists.path (.ipc (.event e))
    rw [hq] at hpath
    have hnext : k.links.next (.tlist u) = ys.head?.getD (.suspend_thread (.event e)) := by
      have hp := (NodeLinks.path_append.mp hpath).2
      cases ys with
      | nil => exact hp.1
      | cons y ys => exact hp.1
    cases hr : received (k.event e).set (k.thread u).event_set (k.thread u).event_info with
    | false =>
      have hstep : k.resume_received e (fuel + 1) (.tlist u) need =
          k.resume_received e fuel (k.links.next (.tlist u)) need :=
        (if_neg hhead).trans (if_neg (by rw [hr]; exact Bool.false_ne_true))
      obtain ⟨k', need', q', hk, hs, hsched, hd, hneed⟩ :=
        ih k q (xs ++ [.tlist u]) need fuel h (by rw [hq, List.append_assoc]; rfl) hlen
          fun v hv => by
            rcases List.mem_append.mp hv with hv | hv
            · exact hxs v hv
            · rw [Node.tlist.inj (List.mem_singleton.mp hv)]
              exact hr
      rw [← hnext] at hk
      exact ⟨k', need', q', hstep.trans hk, hs, hsched, hd, hneed⟩
    | true =>
      have hstep : k.resume_received e (fuel + 1) (.tlist u) need =
          ((give k e u).rt_thread_resume u).resume_received e fuel (k.links.next (.tlist u)) true :=
        (if_neg hhead).trans (if_pos hr)
      obtain ⟨s, hs1, hsched1, hne, hset, hsub, hw1⟩ :=
        exists_give (m := { m with kernel := k }) h hm hr
      have hnd := h.waiting.queued.lists.nodup (.ipc (.event e))
      rw [hq] at hnd
      have hux : Node.tlist u ∉ xs := fun hu =>
        (List.nodup_append.mp hnd).2.2 _ hu _ List.mem_cons_self rfl
      have hq1 : woken q u (k.thread u).current_priority (.ipc (.event e)) = xs ++ ys := by
        rw [woken_ipc, hq, List.erase_append_right _ hux, List.erase_cons_head]
        refine List.erase_of_not_mem fun htm => ?_
        have htm : Node.timer u ∈ q (.ipc (.event e)) := by
          rw [hq]
          exact List.mem_append.mpr
            ((List.mem_append.mp htm).imp id (List.mem_cons_of_mem (Node.tlist u)))
        obtain ⟨v, hv, -⟩ := h.waiting.queued.waiting (.event e) _ htm
        exact Node.noConfusion hv
      obtain ⟨k', need', q', hk, hs, hsched, hd, hneed⟩ :=
        ih ((give k e u).rt_thread_resume u) _ xs true fuel hs1 hq1 hlen fun v hv => by
          -- There are fewer events now, so that nobody has enough who had not before.
          have hvu : v ≠ u := fun heq => hux (heq ▸ hv)
          have hthread := hne v hvu
          rw [hthread]
          by_contra hrec
          have hmem := received_iff.mp (Bool.not_eq_false _ ▸ hrec)
          rw [hset] at hmem
          have hold := received_iff.mpr ((asked _ _).upper' hsub hmem)
          have hfalse := hxs v hv
          exact Bool.noConfusion (hold.symm.trans hfalse)
      rw [← hnext] at hk
      refine ⟨k', need', q', hstep.trans hk, hs, hsched.trans hsched1, ?_, ?_⟩
      · obtain ⟨hsu, w, hw, hcall, -⟩ := exists_asked h hm
        refine .give u (asked (k.thread u).event_set (k.thread u).event_info) (bits s)
          ⟨w.since, w.time, ?_⟩ (received_iff.mp hr) hsub ?_
        · have hpending : { m with kernel := k }.pending u = some w := hw
          simp only [waiters, hpending, status, if_pos hsu, hcall]
          rfl
        · rw [hw1] at hd
          exact hd
      · exact .inl (hneed.elim id fun hn => hn.1)

/-- What `rt_event_send` does, in a thread or in an interrupt. -/
theorem exists_rt_event_send (h : Sound m.kernel m.pc m.now n idle q) (hfuel : n < fuel)
    (e : ℕ) (set : BitVec 32) : ∃ k' next q',
    m.kernel.rt_event_send fuel e set = some (k', next) ∧ Sound k' m.pc m.now n idle q' ∧
      sched k' = sched m.kernel ∧
      (next = .schedule ∨ (∃ error, next = .ret error) ∧ k'.thread = m.kernel.thread) ∧
      Waiters.Steps (2 ^ 16) (Finset.range n) m.waiters { m with kernel := k' }.waiters := by
  by_cases h0 : set = 0
  · exact ⟨m.kernel, .ret (-RT_ERROR), q, if_pos h0, h, rfl, .inr ⟨⟨_, rfl⟩, rfl⟩, .refl⟩
  · have hs0 : Sound (m.kernel.setEvent e ((m.kernel.event e).set ||| set)) m.pc m.now n idle q :=
      sound_setEvent h
    have hnext : (m.kernel.setEvent e ((m.kernel.event e).set ||| set)).links.next
        (.suspend_thread (.event e)) =
          (q (.ipc (.event e))).head?.getD (.suspend_thread (.event e)) :=
      h.waiting.queued.lists.next_head (i := Head.ipc (.event e))
    obtain ⟨k', need', q', hk, hs, hsched, hd, hneed⟩ := exists_resume_received (m := m) (e := e)
      (q (.ipc (.event e))) _ q [] false fuel hs0 rfl
      (Nat.lt_of_le_of_lt h.waiting.queued.length_le hfuel) fun u hu => absurd hu List.not_mem_nil
    have hrun : m.kernel.rt_event_send fuel e set =
        some (k', if need' = true then .schedule else .ret RT_EOK) := by
      rw [← hnext] at hk
      refine (if_neg h0).trans ?_
      show (State.resume_received _ e fuel _ false).bind _ = _
      rw [hk]
      rfl
    refine ⟨k', _, q', hrun, hs, hsched, ?_, .single ?_⟩
    · rcases hneed with rfl | ⟨rfl, rfl⟩
      · exact .inl rfl
      · exact .inr ⟨⟨RT_EOK, rfl⟩, rfl⟩
    · rw [waiters_setEvent] at hd
      exact .send e (bits ((m.kernel.event e).set ||| set)) bits_subset_or hd

theorem goes_rt_event_send (h : Sound m.kernel m.pc m.now n idle q) (hfuel : n < fuel)
    (hl : m.Legal n idle (.rt_event_send e set)) : m.Goes fuel n idle (.rt_event_send e set) := by
  obtain ⟨k', next, q', hk, hs, hsched, hnext, hsteps⟩ := exists_rt_event_send h hfuel e set
  have hcur : k'.rt_current_thread = m.current := (sched_eq hsched).1
  have hrun : m.step fuel (.rt_event_send e set) = some (m.passes k' next) := by
    simp only [step, hk]
    rfl
  rcases hnext with rfl | ⟨⟨error, rfl⟩, hthread⟩
  · refine ⟨_, q', hrun, sound_pass hs hl hcur, ?_, fun _ _ => settled_passes hcur⟩
    rw [waiters_pass hl]
    exact hsteps
  · refine ⟨_, q', hrun, hs, hsteps, fun hset _ => hset.keep hsched rfl ?_ ?_⟩
    · exact fun u => congrArg (fun f => (f u).stat) hthread
    · exact fun u => congrArg (fun f => (f u).current_priority) hthread

theorem goes_irq_event_send (h : Sound m.kernel m.pc m.now n idle q) (hfuel : n < fuel) :
    m.Goes fuel n idle (.irq_event_send e set) := by
  obtain ⟨k1, next, q1, hk1, hs1, hsched, hnext, hsteps⟩ := exists_rt_event_send h hfuel e set
  rcases hnext with rfl | ⟨⟨error, rfl⟩, hthread⟩
  · obtain ⟨k', hk', hs', -, hw, hset⟩ := exists_rt_schedule hs1
    refine ⟨{ m with kernel := k' }, q1, ?_, hs', ?_, fun _ _ => hset⟩
    · simp only [step, hk1, Option.bind_some, interrupted, hk', Option.map_some]
    · rw [hw]
      exact hsteps
  · refine ⟨{ m with kernel := k1 }, q1, ?_, hs1, hsteps, fun hset _ => hset.keep hsched rfl ?_ ?_⟩
    · simp only [step, hk1, Option.bind_some, interrupted]
    · exact fun u => congrArg (fun f => (f u).stat) hthread
    · exact fun u => congrArg (fun f => (f u).current_priority) hthread

theorem goes_rt_event_recv (h : Sound m.kernel m.pc m.now n idle q) (hfuel : n < fuel)
    (hl : m.Legal n idle (.rt_event_recv e set option timeout)) :
    m.Goes fuel n idle (.rt_event_recv e set option timeout) := by
  obtain ⟨hpc, htime, hmay⟩ := hl
  have hs := h.ready_of_user hpc
  have hfree := status_of_user hpc
  have hret : ∀ error, error ≠ RT_EOK → ∀ k', m.waits (.rt_event_recv e set option)
      (ticks timeout) k' (.ret error) = { m with kernel := k' } := fun error he k' => if_neg he
  by_cases hzero : set = 0
  · have hk : m.kernel.rt_event_recv fuel e set option timeout =
        some (m.kernel, .ret (-RT_ERROR), 0) := if_pos hzero
    refine ⟨m, q, ?_, h, .refl, fun hset _ => hset⟩
    simp only [step, hk, Option.map_some]
    exact congrArg some (hret (-RT_ERROR) (by decide) m.kernel)
  by_cases hr : received (m.kernel.event e).set set option = true
  · let k1 := if option &&& RT_EVENT_FLAG_CLEAR ≠ 0 then
      (setError m.kernel m.current RT_EOK).setEvent e ((m.kernel.event e).set &&& ~~~set)
      else setError m.kernel m.current RT_EOK
    have hk : m.kernel.rt_event_recv fuel e set option timeout =
        some (k1, .ret RT_EOK, (m.kernel.event e).set &&& set) :=
      (if_neg hzero).trans (if_pos hr)
    have hrun : m.step fuel (.rt_event_recv e set option timeout) =
        some { m with kernel := k1 } := by
      simp only [step, hk, Option.map_some]
      rfl
    have hs1 : Sound (setError m.kernel m.current RT_EOK) m.pc m.now n idle q :=
      sound_setError h hpc
    have hw1 : { m with kernel := setError m.kernel m.current RT_EOK }.waiters = m.waiters :=
      waiters_setError hpc
    have hset1 : m.Settled → { m with kernel := setError m.kernel m.current RT_EOK }.Settled :=
      settled_setError
    by_cases hclear : option &&& RT_EVENT_FLAG_CLEAR ≠ 0
    · rw [show k1 = _ from if_pos hclear] at hrun
      refine ⟨_, q, hrun, sound_setEvent hs1, .single ?_, fun hset _ =>
        (hset1 hset).keep rfl rfl (fun _ => rfl) fun _ => rfl⟩
      have hw2 := waiters_setEvent (m := { m with kernel := setError m.kernel m.current RT_EOK })
        (e := e) (s := (m.kernel.event e).set &&& ~~~set)
      rw [hw1] at hw2
      have hstep : Waiters.Step (2 ^ 16) (Finset.range n) m.waiters
          (m.waiters.setSent e (bits ((m.kernel.event e).set &&& ~~~set))) :=
        .receive m.current e (asked set option) _ hfree (received_iff.mp hr) bits_and_subset
      rw [← hw2] at hstep
      exact hstep
    · rw [show k1 = _ from if_neg hclear] at hrun
      refine ⟨_, q, hrun, hs1, ?_, fun hset _ => hset1 hset⟩
      rw [hw1]
      exact .refl
  by_cases h0 : timeout = 0
  · let k1 := (setError m.kernel m.current RT_EOK).update m.current fun thread =>
      { thread with error := -RT_ETIMEOUT }
    have hk : m.kernel.rt_event_recv fuel e set option timeout =
        some (k1, .ret (-RT_ETIMEOUT), 0) :=
      (if_neg hzero).trans ((if_neg hr).trans (if_pos h0))
    have hk1 : k1 = setError m.kernel m.current (-RT_ETIMEOUT) := by
      simp only [k1, setError, State.update, Function.update_idem, Function.update_self]
    refine ⟨{ m with kernel := k1 }, q, ?_, ?_, ?_, fun hset _ => ?_⟩
    · simp only [step, hk, Option.map_some]
      exact congrArg some (hret (-RT_ETIMEOUT) (by decide) k1)
    · rw [hk1]
      exact sound_setError h hpc
    · rw [hk1, waiters_setError hpc]
      exact .refl
    · rw [hk1]
      exact settled_setError hset
  · let k1 := (setError m.kernel m.current RT_EOK).update m.current fun thread =>
      { thread with event_set := set, event_info := option }
    have hself : k1.thread m.current = { m.kernel.thread m.current with
        error := RT_EOK, event_set := set, event_info := option } := by
      rw [thread_update_self, setError_self]
    have hmissing : m.waiters.Missing m.current (Call.rt_event_recv e set option).want :=
      fun hmem => hr (received_iff.mpr hmem)
    have hasked : ∀ e' set' option', Call.rt_event_recv e set option =
        .rt_event_recv e' set' option' →
          (k1.thread m.current).event_set = set' ∧ (k1.thread m.current).event_info = option' :=
      fun e' set' option' hc => by
        obtain ⟨-, rfl, rfl⟩ := Call.rt_event_recv.inj hc
        rw [hself]
        exact ⟨rfl, rfl⟩
    obtain ⟨k', q', hk', hs', hsteps, hsettled⟩ := exists_wait (.rt_event_recv e set option) k1 h
      hfuel hpc (hmay.resolve_left h0) htime rfl
      ((h.waiting.queued.update rfl).update rfl) (fun _ => rfl) rfl
      (fun u hu => congrArg seen ((thread_update_of_ne hu).trans (setError_of_ne hu)))
      (by rw [hself]; exact hs) (by rw [hself]) hasked hmissing
    have hk : m.kernel.rt_event_recv fuel e set option timeout = some (k', .schedule, 0) := by
      refine (if_neg hzero).trans ((if_neg hr).trans ((if_neg h0).trans ?_))
      show (k1.wait fuel (.event e) timeout).bind _ = _
      rw [hk']
      rfl
    refine ⟨_, q', ?_, hs', hsteps, fun _ _ => hsettled⟩
    simp only [step, hk, Option.map_some]

end Events

end Machine

end Kernel
