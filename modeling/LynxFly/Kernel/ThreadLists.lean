-- SUMMARY: Which thread is in which list, and what the operations on threads and their timers do to it.
import LynxFly.Kernel.Ipc
import Mathlib.Tactic.IntervalCases

/-!
# The lists of the kernel

The ready lists hold the ready threads by priority, and the bitmap says which of them are not
empty. The lists of IPC objects hold suspended threads, the timer list the timers that run,
ordered by the ticks they have left. Every operation on a thread keeps this.
-/

namespace Kernel

open NodeLinks

/-- The heads of the lists. -/
inductive Head where
  | priority (p : ℕ)
  | ipc (o : Ipc)
  | timers
  deriving DecidableEq

def Head.node : Head → Node
  | priority p => .rt_thread_priority_table p
  | ipc o => .suspend_thread o
  | timers => .rt_timer_list

namespace State

/-! ## The bitmap -/

section Bitmap

/-- The table has the lowest bit that is set. -/
theorem rt_lowest_bitmap_spec : ∀ b < 256, b ≠ 0 → b.testBit (rt_lowest_bitmap.getD b 0) = true ∧
    ∀ j < rt_lowest_bitmap.getD b 0, b.testBit j = false := by
  decide +kernel

theorem rt_lowest_bitmap_lt : ∀ b < 256, rt_lowest_bitmap.getD b 0 < 8 := by
  decide +kernel

variable {group : BitVec 32} {i j : ℕ}

theorem testBit_byte : (group >>> i &&& 0xff#32).toNat.testBit j =
    (group.getLsbD (i + j) && decide (j < 8)) := by
  rw [← BitVec.getLsbD, BitVec.getLsbD_and, BitVec.getLsbD_ushiftRight]
  congr 1
  rcases Nat.lt_or_ge j 8 with hj | hj
  · rw [decide_eq_true hj]
    interval_cases j <;> rfl
  · rw [decide_eq_false (Nat.not_lt.mpr hj)]
    rcases Nat.lt_or_ge j 32 with hj' | hj'
    · interval_cases j <;> rfl
    · exact BitVec.getLsbD_of_ge _ _ hj'

/-- The lowest bit of a byte that is not zero. -/
theorem lowest_byte (hne : group >>> i &&& 0xff#32 ≠ 0#32) :
    group.getLsbD (i + rt_lowest_bitmap.getD (group >>> i &&& 0xff#32).toNat 0) = true ∧
      ∀ j < rt_lowest_bitmap.getD (group >>> i &&& 0xff#32).toNat 0,
        group.getLsbD (i + j) = false := by
  have hlt : (group >>> i &&& 0xff#32).toNat < 256 := by
    have hle : (group >>> i &&& 0xff#32).toNat ≤ (0xff#32).toNat := by
      rw [BitVec.toNat_and]
      exact Nat.and_le_right
    exact Nat.lt_succ_of_le hle
  have hne' : (group >>> i &&& 0xff#32).toNat ≠ 0 := fun h => hne (BitVec.eq_of_toNat_eq h)
  obtain ⟨h1, h2⟩ := rt_lowest_bitmap_spec _ hlt hne'
  have h8 := rt_lowest_bitmap_lt _ hlt
  refine ⟨?_, fun j hj => ?_⟩
  · rw [testBit_byte, Bool.and_eq_true] at h1
    exact h1.1
  · have h2 := h2 j hj
    rw [testBit_byte, decide_eq_true (by omega), Bool.and_true] at h2
    exact h2

theorem getLsbD_byte_eq_false (hz : group >>> i &&& 0xff#32 = 0#32) (hj : j < 8) :
    group.getLsbD (i + j) = false := by
  have h := @testBit_byte group i j
  rw [hz, decide_eq_true hj, Bool.and_true] at h
  rw [← h]
  exact Nat.zero_testBit j

theorem and_mask_eq_zero_iff {m : BitVec 32}
    (hm : ∀ j < 32, m.getLsbD j = decide (i ≤ j ∧ j < i + 8)) (hi : i + 8 ≤ 32) :
    group &&& m = 0#32 ↔ group >>> i &&& 0xff#32 = 0#32 := by
  constructor
  · intro h
    refine BitVec.eq_of_getLsbD_eq fun j hj => ?_
    have hb : (group &&& m).getLsbD (i + j) = false := by rw [h]; exact BitVec.getLsbD_zero
    rw [BitVec.getLsbD_and] at hb
    rw [BitVec.getLsbD, testBit_byte, BitVec.getLsbD_zero]
    rcases Nat.lt_or_ge j 8 with hj8 | hj8
    · rw [hm (i + j) (by omega), decide_eq_true (by omega), Bool.and_true] at hb
      rw [hb, Bool.false_and]
    · rw [decide_eq_false (by omega), Bool.and_false]
  · intro h
    refine BitVec.eq_of_getLsbD_eq fun j hj => ?_
    rw [BitVec.getLsbD_and, BitVec.getLsbD_zero, hm j hj]
    by_cases hin : i ≤ j ∧ j < i + 8
    · obtain ⟨d, rfl⟩ := Nat.exists_eq_add_of_le hin.1
      rw [getLsbD_byte_eq_false h (by omega), Bool.false_and]
    · rw [decide_eq_false hin, Bool.and_false]

/-- `rt_schedule` finds the lowest bit that is set. -/
theorem highest_ready_priority_spec (hne : group ≠ 0#32) :
    group.getLsbD (highest_ready_priority group) = true ∧
      ∀ j < highest_ready_priority group, group.getLsbD j = false := by
  have hbyte : ∀ i, group >>> i &&& 0xff#32 ≠ 0#32 →
      (∀ j < i, group.getLsbD j = false) →
      group.getLsbD (rt_lowest_bitmap.getD (group >>> i &&& 0xff#32).toNat 0 + i) = true ∧
        ∀ j < rt_lowest_bitmap.getD (group >>> i &&& 0xff#32).toNat 0 + i,
          group.getLsbD j = false := by
    intro i hi hlow
    obtain ⟨h1, h2⟩ := lowest_byte hi
    refine ⟨by rwa [Nat.add_comm], fun j hj => ?_⟩
    rcases Nat.lt_or_ge j i with hji | hji
    · exact hlow j hji
    · obtain ⟨d, rfl⟩ := Nat.exists_eq_add_of_le hji
      exact h2 d (by omega)
  have hskip : ∀ i, group >>> i &&& 0xff#32 = 0#32 → (∀ j < i, group.getLsbD j = false) →
      ∀ j < i + 8, group.getLsbD j = false := by
    intro i hi hlow j hj
    rcases Nat.lt_or_ge j i with hji | hji
    · exact hlow j hji
    · obtain ⟨d, rfl⟩ := Nat.exists_eq_add_of_le hji
      exact getLsbD_byte_eq_false hi (by omega)
  have h0 : group &&& 0xff#32 = 0#32 ↔ group >>> 0 &&& 0xff#32 = 0#32 := by
    rw [BitVec.ushiftRight_zero]
  have h8 : group &&& 0xff00#32 = 0#32 ↔ group >>> 8 &&& 0xff#32 = 0#32 :=
    and_mask_eq_zero_iff (by decide) (by decide)
  have h16 : group &&& 0xff0000#32 = 0#32 ↔ group >>> 16 &&& 0xff#32 = 0#32 :=
    and_mask_eq_zero_iff (by decide) (by decide)
  rw [highest_ready_priority]
  split
  case isTrue h =>
    have hb := hbyte 0 (fun hz => h (h0.mpr hz)) (fun j hj => absurd hj (Nat.not_lt_zero j))
    rwa [BitVec.ushiftRight_zero] at hb
  case isFalse h =>
    have hlow := hskip 0 (h0.mp (not_not.mp h)) (fun j hj => absurd hj (Nat.not_lt_zero j))
    split
    case isTrue h => exact hbyte 8 (fun hz => h (h8.mpr hz)) hlow
    case isFalse h =>
      have hlow := hskip 8 (h8.mp (not_not.mp h)) hlow
      split
      case isTrue h => exact hbyte 16 (fun hz => h (h16.mpr hz)) hlow
      case isFalse h =>
        have hlow := hskip 16 (h16.mp (not_not.mp h)) hlow
        refine hbyte 24 (fun hz => hne ?_) hlow
        have hlow := hskip 24 hz hlow
        exact BitVec.eq_of_getLsbD_eq fun j hj => by rw [hlow j hj, BitVec.getLsbD_zero]

end Bitmap

/-! ## The lists -/

/-- The ticks a timer has left, from the tick `base` on. -/
def left (k : State) (base : BitVec 32) : Node → ℕ
  | .timer t => ((k.thread t).thread_timer.timeout_tick - base).toNat
  | _ => 0

/-- What the lists hold, for the threads below `n`. The timers are in the order of the ticks they
    have left from `base` on, which is the current tick, except while `rt_timer_check` runs. -/
structure Queued (k : State) (n : ℕ) (base : BitVec 32) (q : Head → List Node) : Prop where
  lists : Lists k.links Head.node q
  ready : ∀ p x, x ∈ q (.priority p) ↔
    ∃ t, x = .tlist t ∧ (k.thread t).stat = .ready ∧ (k.thread t).current_priority = p
  waiting : ∀ o x, x ∈ q (.ipc o) → ∃ t, x = .tlist t ∧ (k.thread t).stat = .suspend
  timers : ∀ x, x ∈ q .timers ↔ ∃ t, x = .timer t ∧ (k.thread t).thread_timer.activated = true
  timed : ∀ t, (k.thread t).thread_timer.activated = true → (k.thread t).stat = .suspend
  soon : ∀ t, (k.thread t).thread_timer.activated = true →
    within (k.thread t).thread_timer.timeout_tick base
  sorted : (q .timers).Pairwise fun x y => k.left base x ≤ k.left base y
  group : ∀ p, k.rt_thread_ready_priority_group.getLsbD p = true ↔ q (.priority p) ≠ []
  mask : ∀ t, (k.thread t).stat ≠ .init →
    (k.thread t).number_mask = 1#32 <<< (k.thread t).current_priority
  priority : ∀ t, (k.thread t).current_priority < RT_THREAD_PRIORITY_MAX ∧
    (k.thread t).init_priority < RT_THREAD_PRIORITY_MAX
  started : ∀ t, (k.thread t).stat ≠ .init → t < n

/-- What of a thread the lists depend on. -/
def linked (thread : rt_thread) : Stat × ℕ × ℕ × BitVec 32 × Bool × BitVec 32 :=
  (thread.stat, thread.current_priority, thread.init_priority, thread.number_mask,
    thread.thread_timer.activated, thread.thread_timer.timeout_tick)

section Update

variable {k : State} {t u : ℕ} {f : rt_thread → rt_thread}

@[simp] theorem thread_update_self : (k.update t f).thread t = f (k.thread t) :=
  Function.update_self _ _ _

theorem thread_update_of_ne (h : u ≠ t) : (k.update t f).thread u = k.thread u :=
  Function.update_of_ne h _ _

@[simp] theorem links_update : (k.update t f).links = k.links := rfl
@[simp] theorem group_update :
    (k.update t f).rt_thread_ready_priority_group = k.rt_thread_ready_priority_group := rfl

end Update

section Queues

variable {k k' : State} {n t u p : ℕ} {base : BitVec 32} {q : Head → List Node}
  {f : rt_thread → rt_thread} {x : Node} {o : Ipc}

theorem Queued.congr (h : Queued k n base q) (hlinks : k'.links = k.links)
    (hgroup : ∀ p, k'.rt_thread_ready_priority_group.getLsbD p =
      k.rt_thread_ready_priority_group.getLsbD p)
    (hlinked : ∀ t, linked (k'.thread t) = linked (k.thread t)) : Queued k' n base q := by
  have hfields : ∀ t, (k'.thread t).stat = (k.thread t).stat ∧
      (k'.thread t).current_priority = (k.thread t).current_priority ∧
      (k'.thread t).init_priority = (k.thread t).init_priority ∧
      (k'.thread t).number_mask = (k.thread t).number_mask ∧
      (k'.thread t).thread_timer.activated = (k.thread t).thread_timer.activated ∧
      (k'.thread t).thread_timer.timeout_tick = (k.thread t).thread_timer.timeout_tick := by
    intro t
    have ht := hlinked t
    simp only [linked, Prod.mk.injEq] at ht
    exact ht
  have hleft : ∀ x, k'.left base x = k.left base x := by
    intro x
    cases x with
    | timer t => rw [left, left, (hfields t).2.2.2.2.2]
    | _ => rfl
  refine ⟨hlinks ▸ h.lists, fun p x => ?_, fun o x hx => ?_, fun x => ?_, fun t ht => ?_,
    fun t ht => ?_, ?_, fun p => ?_, fun t ht => ?_, fun t => ?_, fun t ht => ?_⟩
  · rw [h.ready]
    exact exists_congr fun t => by rw [(hfields t).1, (hfields t).2.1]
  · obtain ⟨t, hxt, hs⟩ := h.waiting o x hx
    exact ⟨t, hxt, (hfields t).1.trans hs⟩
  · rw [h.timers]
    exact exists_congr fun t => by rw [(hfields t).2.2.2.2.1]
  · rw [(hfields t).2.2.2.2.1] at ht
    exact (hfields t).1.trans (h.timed t ht)
  · rw [(hfields t).2.2.2.2.1] at ht
    rw [(hfields t).2.2.2.2.2]
    exact h.soon t ht
  · exact h.sorted.imp fun {x y} hxy => by rwa [hleft, hleft]
  · rw [hgroup]
    exact h.group p
  · rw [(hfields t).1] at ht
    rw [(hfields t).2.2.2.1, (hfields t).2.1]
    exact h.mask t ht
  · rw [(hfields t).2.1, (hfields t).2.2.1]
    exact h.priority t
  · rw [(hfields t).1] at ht
    exact h.started t ht

/-- Changing what the lists do not depend on. -/
theorem Queued.update (h : Queued k n base q) (hf : linked (f (k.thread t)) = linked (k.thread t)) :
    Queued (k.update t f) n base q := by
  refine h.congr rfl (fun _ => rfl) fun u => ?_
  by_cases hut : u = t
  · rw [hut, thread_update_self, hf]
  · rw [thread_update_of_ne hut]

theorem Queued.ready_iff (h : Queued k n base q) :
    Node.tlist t ∈ q (.priority p) ↔
      (k.thread t).stat = .ready ∧ (k.thread t).current_priority = p := by
  rw [h.ready]
  constructor
  · rintro ⟨u, hu, hs⟩
    cases hu
    exact hs
  · exact fun hs => ⟨t, rfl, hs⟩

theorem Queued.suspend_of_mem (h : Queued k n base q) (hm : Node.tlist t ∈ q (.ipc o)) :
    (k.thread t).stat = .suspend := by
  obtain ⟨u, hu, hs⟩ := h.waiting o _ hm
  cases hu
  exact hs

theorem Queued.timer_mem (h : Queued k n base q) :
    Node.timer t ∈ q .timers ↔ (k.thread t).thread_timer.activated = true := by
  rw [h.timers]
  constructor
  · rintro ⟨u, hu, ha⟩
    cases hu
    exact ha
  · exact fun ha => ⟨t, rfl, ha⟩

/-- A thread that is neither ready nor suspended, or that is suspended but waits for nothing, is
    in no list. -/
theorem Queued.tlist_not_mem (h : Queued k n base q) (hr : (k.thread t).stat ≠ .ready)
    (hw : ∀ o, Node.tlist t ∉ q (.ipc o)) (i : Head) : Node.tlist t ∉ q i := by
  cases i with
  | priority p => exact fun hm => hr (h.ready_iff.mp hm).1
  | ipc o => exact hw o
  | timers =>
    intro hm
    obtain ⟨u, hu, -⟩ := (h.timers _).mp hm
    cases hu

theorem Queued.timer_not_mem (h : Queued k n base q)
    (ha : (k.thread t).thread_timer.activated = false) (i : Head) : Node.timer t ∉ q i := by
  cases i with
  | priority p =>
    intro hm
    obtain ⟨u, hu, -⟩ := (h.ready p _).mp hm
    cases hu
  | ipc o =>
    intro hm
    obtain ⟨u, hu, -⟩ := h.waiting o _ hm
    cases hu
  | timers =>
    intro hm
    rw [h.timer_mem.mp hm] at ha
    cases ha

theorem Head.tlist_ne (i : Head) : Node.tlist t ≠ i.node := by cases i <;> rintro ⟨⟩

theorem Head.timer_ne (i : Head) : Node.timer t ≠ i.node := by cases i <;> rintro ⟨⟩

end Queues

/-! ## Taking threads out and putting them in -/

/-- The variables that operations on threads leave alone. -/
def others (k : State) : (ℕ → rt_semaphore) × (ℕ → rt_mutex) × (ℕ → rt_event) × ℕ × ℤ × BitVec 32 :=
  (k.semaphore, k.mutex, k.event, k.rt_current_thread, k.rt_scheduler_lock_nest, k.rt_tick)

section Moves

variable {k : State} {n t u p fuel : ℕ} {base : BitVec 32} {q : Head → List Node} {o : Ipc}
  {xs ys : List Node} {l : Node} {f : rt_thread → rt_thread}

theorem rt_schedule_remove_thread_eq : k.rt_schedule_remove_thread t =
    { k with
      links := k.links.remove (.tlist t)
      rt_thread_ready_priority_group :=
        if (k.links.remove (.tlist t)).isEmpty
            (.rt_thread_priority_table (k.thread t).current_priority) then
          k.rt_thread_ready_priority_group &&& ~~~(k.thread t).number_mask
        else
          k.rt_thread_ready_priority_group } := by
  rw [rt_schedule_remove_thread]
  dsimp only
  split <;> rfl

@[simp] theorem thread_remove_thread : (k.rt_schedule_remove_thread t).thread = k.thread := by
  rw [rt_schedule_remove_thread_eq]

@[simp] theorem others_remove_thread : (k.rt_schedule_remove_thread t).others = k.others := by
  rw [rt_schedule_remove_thread_eq]
  rfl

@[simp] theorem links_remove_thread :
    (k.rt_schedule_remove_thread t).links = k.links.remove (.tlist t) := by
  rw [rt_schedule_remove_thread_eq]

theorem getLsbD_shift {c : ℕ} (hc : c < RT_THREAD_PRIORITY_MAX) :
    (1#32 <<< c).getLsbD p = decide (p = c) := by
  simp only [RT_THREAD_PRIORITY_MAX] at hc
  rw [← BitVec.twoPow_eq, BitVec.getLsbD_twoPow]
  by_cases hp : p = c
  · simp [hp, hc]
  · simp [hp, Ne.symm hp]

/-- The bitmap after a thread has left its list. -/
theorem group_remove_thread (hl : Lists (k.links.remove (.tlist t)) Head.node q)
    (hm : (k.thread t).number_mask = 1#32 <<< (k.thread t).current_priority)
    (hc : (k.thread t).current_priority < RT_THREAD_PRIORITY_MAX) :
    (k.rt_schedule_remove_thread t).rt_thread_ready_priority_group.getLsbD p =
      (k.rt_thread_ready_priority_group.getLsbD p &&
        !decide (p = (k.thread t).current_priority ∧ q (.priority p) = [])) := by
  have hempty : (k.links.remove (.tlist t)).isEmpty
      (.rt_thread_priority_table (k.thread t).current_priority) = true ↔
        q (.priority (k.thread t).current_priority) = [] :=
    hl.isEmpty_iff (i := Head.priority (k.thread t).current_priority)
  rw [rt_schedule_remove_thread_eq]
  dsimp only
  split
  case isTrue he =>
    rw [BitVec.getLsbD_and, BitVec.getLsbD_not, hm, getLsbD_shift hc]
    have he := hempty.mp he
    by_cases hp : p = (k.thread t).current_priority
    · simp [hp, he]
    · simp only [hp, decide_false, false_and, Bool.not_false, Bool.and_true]
      by_cases hlt : p < 32
      · simp [hlt]
      · rw [BitVec.getLsbD_of_ge _ _ (by omega)]
        rfl
  case isFalse he =>
    have hne : ¬(p = (k.thread t).current_priority ∧ q (.priority p) = []) := by
      rintro ⟨rfl, h⟩
      exact he (hempty.mpr h)
    rw [decide_eq_false hne, Bool.not_false, Bool.and_true]

@[simp] theorem thread_rt_thread_suspend (hs : (k.thread t).stat = .ready) :
    (k.rt_thread_suspend t).thread =
      (k.update t fun thread => { thread with stat := .suspend }).thread := by
  rw [rt_thread_suspend, if_neg (by simp [hs]), thread_remove_thread]

@[simp] theorem others_rt_thread_suspend : (k.rt_thread_suspend t).others = k.others := by
  unfold rt_thread_suspend
  split
  · rfl
  · rw [others_remove_thread]
    rfl

/-- A ready thread is taken out of its list. -/
theorem Queued.rt_thread_suspend (h : Queued k n base q) (hs : (k.thread t).stat = .ready) :
    Queued (k.rt_thread_suspend t) n base fun i => (q i).erase (.tlist t) := by
  have hthread := thread_rt_thread_suspend hs
  have hself : (k.rt_thread_suspend t).thread t = { k.thread t with stat := .suspend } := by
    rw [hthread, thread_update_self]
  have hne : ∀ u, u ≠ t → (k.rt_thread_suspend t).thread u = k.thread u := fun u hu => by
    rw [hthread, thread_update_of_ne hu]
  have hlinks : (k.rt_thread_suspend t).links = k.links.remove (.tlist t) := by
    rw [State.rt_thread_suspend, if_neg (by simp [hs]), links_remove_thread]
    rfl
  have hlists := h.lists.remove (Head.tlist_ne (t := t))
  have htimers : (q .timers).erase (.tlist t) = q .timers :=
    List.erase_of_not_mem fun hm => by
      obtain ⟨u, hu, -⟩ := (h.timers _).mp hm
      cases hu
  have hipc : ∀ o, (q (.ipc o)).erase (.tlist t) = q (.ipc o) := fun o =>
    List.erase_of_not_mem fun hm => by
      rw [h.suspend_of_mem hm] at hs
      cases hs
  have hinactive : (k.thread t).thread_timer.activated = false := by
    by_contra ha
    rw [h.timed t (by simpa using ha)] at hs
    cases hs
  have hactive : ∀ u,
      ((k.rt_thread_suspend t).thread u).thread_timer = (k.thread u).thread_timer := by
    intro u
    by_cases hu : u = t
    · rw [hu, hself]
    · rw [hne u hu]
  have hleft : ∀ x, (k.rt_thread_suspend t).left base x = k.left base x := by
    intro x
    cases x with
    | timer u => rw [left, left, hactive]
    | _ => rfl
  refine ⟨hlinks ▸ hlists, fun p x => ?_, fun o x hx => ?_, fun x => ?_, fun u hu => ?_,
    fun u hu => ?_, ?_, fun p => ?_, fun u hu => ?_, fun u => ?_, fun u hu => ?_⟩
  · rw [(h.lists.nodup _).mem_erase_iff, h.ready]
    constructor
    · rintro ⟨hx, u, rfl, hu⟩
      have hut : u ≠ t := fun e => hx (by rw [e])
      exact ⟨u, rfl, by rwa [hne u hut]⟩
    · rintro ⟨u, rfl, hu⟩
      have hut : u ≠ t := by
        rintro rfl
        rw [hself] at hu
        cases hu.1
      rw [hne u hut] at hu
      exact ⟨fun e => hut (by injection e), u, rfl, hu⟩
  · obtain ⟨u, rfl, hu⟩ := h.waiting o x (List.mem_of_mem_erase hx)
    refine ⟨u, rfl, ?_⟩
    by_cases hut : u = t
    · rw [hut, hself]
    · rw [hne u hut, hu]
  · show x ∈ (q .timers).erase (.tlist t) ↔ _
    rw [htimers, h.timers]
    exact exists_congr fun u => by rw [hactive]
  · rw [hactive] at hu
    by_cases hut : u = t
    · rw [hut, hself]
    · rw [hne u hut]
      exact h.timed u hu
  · rw [hactive] at hu ⊢
    exact h.soon u hu
  · show ((q .timers).erase (.tlist t)).Pairwise _
    rw [htimers]
    exact h.sorted.imp fun {x y} hxy => by rwa [hleft, hleft]
  · have hmask := h.mask t (by rw [hs]; rintro ⟨⟩)
    have hgroup := group_remove_thread (p := p)
      (k := k.update t fun thread => { thread with stat := .suspend }) hlists
      (by simpa using hmask) (by simpa using (h.priority t).1)
    rw [State.rt_thread_suspend, if_neg (by simp [hs]), hgroup]
    simp only [thread_update_self, group_update, Bool.and_eq_true, h.group, Bool.not_eq_true',
      decide_eq_false_iff_not]
    constructor
    · rintro ⟨hp, hnot⟩ hnil
      by_cases hpc : p = (k.thread t).current_priority
      · exact hnot ⟨hpc, hnil⟩
      · rw [List.erase_of_not_mem fun hm => hpc (h.ready_iff.mp hm).2.symm] at hnil
        exact hp hnil
    · intro hp
      refine ⟨fun hnil => hp ?_, fun hnot => hp hnot.2⟩
      rw [hnil]
      rfl
  · by_cases hut : u = t
    · rw [hut, hself]
      exact h.mask t (by rw [hs]; rintro ⟨⟩)
    · rw [hne u hut] at hu ⊢
      exact h.mask u hu
  · by_cases hut : u = t
    · rw [hut, hself]
      exact h.priority t
    · rw [hne u hut]
      exact h.priority u
  · by_cases hut : u = t
    · rw [hut]
      exact h.started t (by rw [hs]; rintro ⟨⟩)
    · rw [hne u hut] at hu
      exact h.started u hu

theorem thread_insert_thread : (k.rt_schedule_insert_thread t).thread =
    (k.update t fun thread => { thread with stat := .ready }).thread := rfl

@[simp] theorem others_insert_thread : (k.rt_schedule_insert_thread t).others = k.others := rfl

/-- A thread that is in no list, and whose timer does not run, is put at the end of the list of
    its priority. -/
theorem Queued.rt_schedule_insert_thread (h : Queued k n base q)
    (hs : (k.thread t).stat = .suspend) (ha : (k.thread t).thread_timer.activated = false)
    (hw : ∀ o, Node.tlist t ∉ q (.ipc o)) :
    Queued (k.rt_schedule_insert_thread t) n base
      (Function.update q (.priority (k.thread t).current_priority)
        (q (.priority (k.thread t).current_priority) ++ [.tlist t])) := by
  have hself : (k.rt_schedule_insert_thread t).thread t = { k.thread t with stat := .ready } :=
    thread_insert_thread ▸ thread_update_self
  have hne : ∀ u, u ≠ t → (k.rt_schedule_insert_thread t).thread u = k.thread u :=
    fun u hu => thread_insert_thread ▸ thread_update_of_ne hu
  have hnot : ∀ i, Node.tlist t ∉ q i := h.tlist_not_mem (by rw [hs]; rintro ⟨⟩) hw
  have hlists := h.lists.insertBefore (i := .priority (k.thread t).current_priority)
    (Head.tlist_ne (t := t)) hnot (List.append_nil _).symm rfl
  have hlinks : (k.rt_schedule_insert_thread t).links =
      k.links.insertBefore (.rt_thread_priority_table (k.thread t).current_priority)
        (.tlist t) := by
    show NodeLinks.insertBefore _ (Node.rt_thread_priority_table
      ((k.update t fun thread => { thread with stat := .ready }).thread t).current_priority) _ = _
    rw [thread_update_self]
    rfl
  have hactive : ∀ u, ((k.rt_schedule_insert_thread t).thread u).thread_timer =
      (k.thread u).thread_timer := by
    intro u
    by_cases hu : u = t
    · rw [hu, hself]
    · rw [hne u hu]
  have hleft : ∀ x, (k.rt_schedule_insert_thread t).left base x = k.left base x := by
    intro x
    cases x with
    | timer u => rw [left, left, hactive]
    | _ => rfl
  have hprio : ∀ u, ((k.rt_schedule_insert_thread t).thread u).current_priority =
      (k.thread u).current_priority := by
    intro u
    by_cases hu : u = t
    · rw [hu, hself]
    · rw [hne u hu]
  refine ⟨hlinks ▸ hlists, fun p x => ?_, fun o x hx => ?_, fun x => ?_, fun u hu => ?_,
    fun u hu => ?_, ?_, fun p => ?_, fun u hu => ?_, fun u => ?_, fun u hu => ?_⟩
  · by_cases hp : p = (k.thread t).current_priority
    · subst hp
      rw [Function.update_self, List.mem_append, List.mem_singleton, h.ready]
      constructor
      · rintro (⟨u, rfl, hu⟩ | rfl)
        · have hut : u ≠ t := by
            rintro rfl
            rw [hs] at hu
            cases hu.1
          exact ⟨u, rfl, by rwa [hne u hut]⟩
        · exact ⟨t, rfl, by rw [hself], by rw [hself]⟩
      · rintro ⟨u, rfl, hu⟩
        by_cases hut : u = t
        · exact .inr (by rw [hut])
        · rw [hne u hut] at hu
          exact .inl ⟨u, rfl, hu⟩
    · rw [Function.update_of_ne (by simpa using hp), h.ready]
      refine exists_congr fun u => ?_
      by_cases hut : u = t
      · rw [hut, hself]
        constructor
        · rintro ⟨-, hr, -⟩
          rw [hs] at hr
          cases hr
        · rintro ⟨-, -, hpc⟩
          exact absurd hpc.symm hp
      · rw [hne u hut]
  · rw [Function.update_of_ne (by rintro ⟨⟩)] at hx
    obtain ⟨u, rfl, hu⟩ := h.waiting o x hx
    have hut : u ≠ t := by
      rintro rfl
      exact hw o hx
    exact ⟨u, rfl, by rw [hne u hut, hu]⟩
  · rw [Function.update_of_ne (by rintro ⟨⟩), h.timers]
    exact exists_congr fun u => by rw [hactive]
  · rw [hactive] at hu
    have hut : u ≠ t := by
      rintro rfl
      rw [ha] at hu
      cases hu
    rw [hne u hut]
    exact h.timed u hu
  · rw [hactive] at hu ⊢
    exact h.soon u hu
  · rw [Function.update_of_ne (by rintro ⟨⟩)]
    exact h.sorted.imp fun {x y} hxy => by rwa [hleft, hleft]
  · have hbit : (k.rt_schedule_insert_thread t).rt_thread_ready_priority_group.getLsbD p =
        (k.rt_thread_ready_priority_group.getLsbD p ||
          decide (p = (k.thread t).current_priority)) := by
      show (k.rt_thread_ready_priority_group ||| ((k.update t
        fun thread => { thread with stat := .ready }).thread t).number_mask).getLsbD p = _
      rw [thread_update_self, BitVec.getLsbD_or, h.mask t (by rw [hs]; rintro ⟨⟩),
        getLsbD_shift (h.priority t).1]
    rw [hbit, Bool.or_eq_true, decide_eq_true_iff, h.group]
    by_cases hp : p = (k.thread t).current_priority
    · subst hp
      rw [Function.update_self]
      simp
    · rw [Function.update_of_ne (by simpa using hp)]
      simp [hp]
  · by_cases hut : u = t
    · rw [hut, hself]
      exact h.mask t (by rw [hs]; rintro ⟨⟩)
    · rw [hne u hut] at hu ⊢
      exact h.mask u hu
  · by_cases hut : u = t
    · rw [hut, hself]
      exact h.priority t
    · rw [hne u hut]
      exact h.priority u
  · by_cases hut : u = t
    · rw [hut]
      exact h.started t (by rw [hs]; rintro ⟨⟩)
    · rw [hne u hut] at hu
      exact h.started u hu

end Moves

/-! ## Waking threads -/

/-- The lists after a thread of priority `c` has been woken. -/
def woken (q : Head → List Node) (t c : ℕ) : Head → List Node :=
  Function.update (fun i => ((q i).erase (.tlist t)).erase (.timer t)) (.priority c)
    (q (.priority c) ++ [.tlist t])

section Waking

variable {k k' : State} {n t u p fuel : ℕ} {base : BitVec 32} {q : Head → List Node} {o : Ipc}

theorem Queued.erase_priority (h : Queued k n base q) (hs : (k.thread t).stat = .suspend) :
    ((q (.priority p)).erase (.tlist t)).erase (.timer t) = q (.priority p) := by
  have htl : Node.tlist t ∉ q (.priority p) := by
    rw [h.ready_iff, hs]
    rintro ⟨⟨⟩, -⟩
  have htm : Node.timer t ∉ q (.priority p) := by
    intro hm
    obtain ⟨u, hu, -⟩ := (h.ready p _).mp hm
    cases hu
  rw [List.erase_of_not_mem htl, List.erase_of_not_mem htm]

/-- A suspended thread leaves all lists, and its timer is stopped. -/
theorem Queued.detach (h : Queued k n base q) (hs : (k.thread t).stat = .suspend)
    (hl : Lists k'.links Head.node fun i => ((q i).erase (.tlist t)).erase (.timer t))
    (hgroup : k'.rt_thread_ready_priority_group = k.rt_thread_ready_priority_group)
    (hself : linked (k'.thread t) =
      linked { k.thread t with thread_timer.activated := false })
    (hne : ∀ u, u ≠ t → linked (k'.thread u) = linked (k.thread u)) :
    Queued k' n base fun i => ((q i).erase (.tlist t)).erase (.timer t) := by
  have hfields : ∀ u, (k'.thread u).stat = (k.thread u).stat ∧
      (k'.thread u).current_priority = (k.thread u).current_priority ∧
      (k'.thread u).init_priority = (k.thread u).init_priority ∧
      (k'.thread u).number_mask = (k.thread u).number_mask ∧
      ((k'.thread u).thread_timer.activated = true ↔
        (k.thread u).thread_timer.activated = true ∧ u ≠ t) ∧
      (k'.thread u).thread_timer.timeout_tick = (k.thread u).thread_timer.timeout_tick := by
    intro u
    by_cases hut : u = t
    · subst hut
      simp only [linked, Prod.mk.injEq] at hself
      obtain ⟨h1, h2, h3, h4, h5, h6⟩ := hself
      exact ⟨h1, h2, h3, h4, by rw [h5]; simp, h6⟩
    · have hu := hne u hut
      simp only [linked, Prod.mk.injEq] at hu
      obtain ⟨h1, h2, h3, h4, h5, h6⟩ := hu
      exact ⟨h1, h2, h3, h4, by rw [h5]; simp [hut], h6⟩
  have hleft : ∀ x, k'.left base x = k.left base x := by
    intro x
    cases x with
    | timer t => rw [left, left, (hfields t).2.2.2.2.2]
    | _ => rfl
  refine ⟨hl, fun p x => ?_, fun o x hx => ?_, fun x => ?_, fun t ht => ?_,
    fun t ht => ?_, ?_, fun p => ?_, fun t ht => ?_, fun t => ?_, fun t ht => ?_⟩
  · rw [h.erase_priority hs, h.ready]
    exact exists_congr fun u => by rw [(hfields u).1, (hfields u).2.1]
  · obtain ⟨u, rfl, hu⟩ := h.waiting o x (List.mem_of_mem_erase (List.mem_of_mem_erase hx))
    exact ⟨u, rfl, (hfields u).1.trans hu⟩
  · have htl : Node.tlist t ∉ q .timers := fun hm => by
      obtain ⟨u, hu, -⟩ := (h.timers _).mp hm
      cases hu
    rw [List.erase_of_not_mem htl, (h.lists.nodup _).mem_erase_iff, h.timers]
    constructor
    · rintro ⟨hx, u, rfl, hu⟩
      exact ⟨u, rfl, (hfields u).2.2.2.2.1.mpr ⟨hu, fun e => hx (by rw [e])⟩⟩
    · rintro ⟨u, rfl, hu⟩
      obtain ⟨hu, hut⟩ := (hfields u).2.2.2.2.1.mp hu
      exact ⟨fun e => hut (by injection e), u, rfl, hu⟩
  · rw [(hfields t).1]
    exact h.timed t ((hfields t).2.2.2.2.1.mp ht).1
  · rw [(hfields t).2.2.2.2.2]
    exact h.soon t ((hfields t).2.2.2.2.1.mp ht).1
  · refine List.Pairwise.imp (fun {x y} hxy => ?_)
      ((h.sorted.sublist (List.erase_sublist ..)).sublist (List.erase_sublist ..))
    rwa [hleft, hleft]
  · rw [hgroup, h.erase_priority hs]
    exact h.group p
  · rw [(hfields t).1] at ht
    rw [(hfields t).2.2.2.1, (hfields t).2.1]
    exact h.mask t ht
  · rw [(hfields t).2.1, (hfields t).2.2.1]
    exact h.priority t
  · rw [(hfields t).1] at ht
    exact h.started t ht

/-- From there it becomes ready. -/
theorem Queued.wake (h : Queued k n base q) (hs : (k.thread t).stat = .suspend)
    (hl : Lists k'.links Head.node fun i => ((q i).erase (.tlist t)).erase (.timer t))
    (hgroup : k'.rt_thread_ready_priority_group = k.rt_thread_ready_priority_group)
    (hself : linked (k'.thread t) =
      linked { k.thread t with thread_timer.activated := false })
    (hne : ∀ u, u ≠ t → linked (k'.thread u) = linked (k.thread u)) :
    Queued (k'.rt_schedule_insert_thread t) n base
      (woken q t (k.thread t).current_priority) := by
  have hd := h.detach hs hl hgroup hself hne
  simp only [linked, Prod.mk.injEq] at hself
  have hi := hd.rt_schedule_insert_thread (hself.1.trans hs) hself.2.2.2.2.1 fun o hm => by
    have hm := List.mem_of_mem_erase hm
    rw [(h.lists.nodup _).mem_erase_iff] at hm
    exact hm.1 rfl
  have hc : (k'.thread t).current_priority = (k.thread t).current_priority := hself.2.1
  rw [hc, h.erase_priority hs] at hi
  exact hi

theorem rt_thread_resume_eq (hs : (k.thread t).stat = .suspend) : k.rt_thread_resume t =
    (({ k with links := (k.links.remove (.tlist t)).remove (.timer t) } : State).update t
      fun thread => { thread with thread_timer.activated := false }).rt_schedule_insert_thread t := by
  rw [rt_thread_resume, if_neg (by simp [hs])]

/-- `rt_thread_resume`. -/
theorem Queued.rt_thread_resume (h : Queued k n base q) (hs : (k.thread t).stat = .suspend) :
    Queued (k.rt_thread_resume t) n base (woken q t (k.thread t).current_priority) := by
  rw [rt_thread_resume_eq hs]
  refine h.wake hs ((h.lists.remove (Head.tlist_ne (t := t))).remove (Head.timer_ne (t := t))) rfl
    ?_ fun u hu => ?_
  · rw [thread_update_self]
  · rw [thread_update_of_ne hu]

theorem thread_rt_thread_resume (hs : (k.thread t).stat = .suspend) :
    (k.rt_thread_resume t).thread = (k.update t fun thread =>
      { thread with stat := .ready, thread_timer.activated := false }).thread := by
  rw [rt_thread_resume_eq hs, thread_insert_thread]
  funext u
  by_cases hut : u = t
  · subst hut
    simp
  · rw [thread_update_of_ne hut, thread_update_of_ne hut, thread_update_of_ne hut]

theorem others_rt_thread_resume : (k.rt_thread_resume t).others = k.others := by
  unfold State.rt_thread_resume
  split <;> rfl

end Waking

/-! ## The scheduler -/

section Scheduling

variable {k k' : State} {n t u p fuel : ℕ} {base : BitVec 32} {q : Head → List Node} {o : Ipc}
  {f : rt_thread → rt_thread}

theorem rt_schedule_of_locked (hn : k.rt_scheduler_lock_nest ≠ 0) : k.rt_schedule = some k :=
  if_neg hn

/-- The scheduler takes the first thread of the first list that is not empty. -/
theorem Queued.rt_schedule (h : Queued k n base q) (hn : k.rt_scheduler_lock_nest = 0)
    (hr : (k.thread u).stat = .ready) : ∃ p t xs c,
      k.rt_schedule = some { k with rt_current_priority := c, rt_current_thread := t } ∧
        q (.priority p) = .tlist t :: xs ∧ ∀ p' < p, q (.priority p') = [] := by
  have hne : k.rt_thread_ready_priority_group ≠ 0#32 := by
    intro hz
    have hu : Node.tlist u ∈ q (.priority (k.thread u).current_priority) :=
      h.ready_iff.mpr ⟨hr, rfl⟩
    have hbit := (h.group (k.thread u).current_priority).mpr (List.ne_nil_of_mem hu)
    rw [hz, BitVec.getLsbD_zero] at hbit
    cases hbit
  obtain ⟨hp, hlow⟩ := highest_ready_priority_spec hne
  generalize hprio : highest_ready_priority k.rt_thread_ready_priority_group = p at hp hlow
  have hq := (h.group p).mp hp
  obtain ⟨x, xs, hq⟩ := List.exists_cons_of_ne_nil hq
  obtain ⟨t, rfl, -⟩ := (h.ready p x).mp (by rw [hq]; exact List.mem_cons_self)
  have hnext : k.links.next (.rt_thread_priority_table p) = .tlist t := by
    have hnext := h.lists.next_head (i := Head.priority p)
    rw [hq] at hnext
    exact hnext
  have hempty : ∀ p' < p, q (.priority p') = [] := fun p' hp' => by
    have hbit := hlow p' hp'
    by_contra hne
    rw [(h.group p').mpr hne] at hbit
    cases hbit
  have hrun : k.rt_schedule = if t ≠ k.rt_current_thread then
      some { k with rt_current_priority := p, rt_current_thread := t } else some k := by
    rw [State.rt_schedule, if_pos hn]
    dsimp only
    rw [hprio, hnext]
    rfl
  by_cases ht : t = k.rt_current_thread
  · refine ⟨p, t, xs, k.rt_current_priority, ?_, hq, hempty⟩
    rw [hrun, if_neg (not_not.mpr ht), ht]
  · exact ⟨p, t, xs, p, by rw [hrun, if_pos ht], hq, hempty⟩

theorem rt_schedule_eq : k.rt_schedule = if k.rt_scheduler_lock_nest = 0 then
      (entry (k.links.next (.rt_thread_priority_table
        (highest_ready_priority k.rt_thread_ready_priority_group)))).bind fun t =>
          if t ≠ k.rt_current_thread then
            some { k with
              rt_current_priority := highest_ready_priority k.rt_thread_ready_priority_group
              rt_current_thread := t }
          else
            some k
    else
      some k := rfl

theorem rt_schedule_update :
    (k.update t f).rt_schedule = k.rt_schedule.map fun k => k.update t f := by
  rw [rt_schedule_eq, rt_schedule_eq]
  show (if k.rt_scheduler_lock_nest = 0 then _ else _) = _
  split
  · rw [links_update, group_update]
    cases entry (k.links.next _) with
    | none => rfl
    | some t' =>
      rw [Option.bind_some, Option.bind_some]
      show (if t' ≠ k.rt_current_thread then _ else _) = _
      split <;> rfl
  · rfl

end Scheduling

/-! ## Walks along the lists -/

section Walks

variable {k k' : State} {n t u p fuel : ℕ} {base a b : BitVec 32} {q : Head → List Node} {o : Ipc}
  {f : rt_thread → rt_thread} {i : Head} {xs ys : List Node} {l : Node}

/-- No list has more nodes than there are threads. -/
theorem Queued.length_le (h : Queued k n base q) : (q i).length ≤ n := by
  have hsub : ∀ f : ℕ → Node, (∀ x ∈ q i, ∃ t < n, x = f t) → (q i).length ≤ n := by
    intro f hf
    have hle := (List.subperm_of_subset (h.lists.nodup i) fun x hx => by
      obtain ⟨t, ht, rfl⟩ := hf x hx
      exact List.mem_map_of_mem (List.mem_range.mpr ht) : (q i).Subperm ((List.range n).map f))
    simpa using hle.length_le
  cases i with
  | priority p =>
    refine hsub .tlist fun x hx => ?_
    obtain ⟨t, rfl, hs, -⟩ := (h.ready p x).mp hx
    exact ⟨t, h.started t (by rw [hs]; rintro ⟨⟩), rfl⟩
  | ipc o =>
    refine hsub .tlist fun x hx => ?_
    obtain ⟨t, rfl, hs⟩ := h.waiting o x hx
    exact ⟨t, h.started t (by rw [hs]; rintro ⟨⟩), rfl⟩
  | timers =>
    refine hsub .timer fun x hx => ?_
    obtain ⟨t, rfl, ha⟩ := (h.timers x).mp hx
    exact ⟨t, h.started t (by rw [h.timed t ha]; rintro ⟨⟩), rfl⟩

/-- What a walk finds, as a split of the list. -/
theorem Queued.seek (h : Queued k n base q) (hfuel : n < fuel) (p : Node → Bool) :
    ∃ xs ys l, k.links.seek i.node p fuel (k.links.next i.node) = some l ∧
      q i = xs ++ ys ∧ l = ys.head?.getD i.node ∧ (∀ x ∈ xs, p x = false) ∧
        ∀ x, ys.head? = some x → p x = true := by
  have hrun := Lists.seek_path (p := p) (h.lists.path i) (h.lists.head_not_mem i i)
    (Nat.lt_of_le_of_lt h.length_le hfuel)
  refine ⟨(q i).takeWhile fun x => !p x, (q i).dropWhile fun x => !p x, _, hrun,
    List.takeWhile_append_dropWhile.symm, ?_, fun x hx => ?_, fun x hx => ?_⟩
  · congr 1
    generalize q i = zs
    induction zs with
    | nil => rfl
    | cons z zs ih =>
      rw [List.find?_cons, List.dropWhile_cons]
      cases hz : p z with
      | true => rfl
      | false => exact ih
  · have hx := List.all_eq_true.mp List.all_takeWhile x hx
    simpa using hx
  · have hne : (q i).dropWhile (fun x => !p x) ≠ [] := by
      intro hnil
      rw [hnil] at hx
      cases hx
    have hhead := List.head_dropWhile_not (fun x => !p x) hne
    rw [List.head?_eq_some_head hne] at hx
    cases hx
    simpa using hhead

theorem within_iff (ha : within a base) (hb : within b base) :
    within a b ↔ (b - base).toNat ≤ (a - base).toNat := by
  simp only [within, RT_TICK_MAX, BitVec.toNat_sub] at *
  omega

/-- A suspended thread starts its timer: it comes before those that have as long to go, or
    longer. -/
theorem Queued.rt_timer_start (h : Queued k n k.rt_tick q) (hs : (k.thread t).stat = .suspend)
    (ha : (k.thread t).thread_timer.activated = false)
    (hi : (k.thread t).thread_timer.init_tick.toNat < RT_TICK_MAX / 2) (hfuel : n < fuel) :
    ∃ k' xs ys, k.rt_timer_start fuel t = some k' ∧ q .timers = xs ++ ys ∧
      Queued k' n k.rt_tick (Function.update q .timers (xs ++ .timer t :: ys)) ∧
        k'.others = k.others ∧ k'.thread = (k.update t fun thread =>
          { thread with
            thread_timer :=
              { thread.thread_timer with
                timeout_tick := k.rt_tick + thread.thread_timer.init_tick
                activated := true } }).thread := by
  obtain ⟨xs, ys, l, hseek, hq, hl, hxs, hys⟩ := h.seek (i := .timers) hfuel
    (k.later (k.rt_tick + (k.thread t).thread_timer.init_tick))
  refine ⟨({ k with links := k.links.insertBefore l (.timer t) } : State).update t fun thread =>
    { thread with
      thread_timer :=
        { (k.thread t).thread_timer with
          timeout_tick := k.rt_tick + (k.thread t).thread_timer.init_tick
          activated := true } }, xs, ys, ?_, hq, ?_, rfl, ?_⟩
  · rw [State.rt_timer_start, if_neg (by simp [ha])]
    show (RT_ASSERT _).bind _ = _
    rw [RT_ASSERT, if_pos hi]
    show (k.links.seek Head.timers.node _ fuel (k.links.next Head.timers.node)).bind _ = _
    rw [hseek]
    rfl
  · have hlists := h.lists.insertBefore (Head.timer_ne (t := t)) (h.timer_not_mem ha) hq hl
    generalize hk' : State.update _ t _ = k'
    have hself : k'.thread t = { k.thread t with
        thread_timer := { (k.thread t).thread_timer with
          timeout_tick := k.rt_tick + (k.thread t).thread_timer.init_tick
          activated := true } } := by
      rw [← hk', thread_update_self]
    have hne : ∀ u, u ≠ t → k'.thread u = k.thread u := fun u hu => by
      rw [← hk', thread_update_of_ne hu]
    have hlinks : k'.links = k.links.insertBefore l (.timer t) := by rw [← hk', links_update]
    have hgroup : k'.rt_thread_ready_priority_group = k.rt_thread_ready_priority_group := by
      rw [← hk', group_update]
    have hfields : ∀ u, (k'.thread u).stat = (k.thread u).stat ∧
        (k'.thread u).current_priority = (k.thread u).current_priority ∧
        (k'.thread u).init_priority = (k.thread u).init_priority ∧
        (k'.thread u).number_mask = (k.thread u).number_mask := by
      intro u
      by_cases hut : u = t
      · rw [hut, hself]
        exact ⟨rfl, rfl, rfl, rfl⟩
      · rw [hne u hut]
        exact ⟨rfl, rfl, rfl, rfl⟩
    have hnew : k.rt_tick + (k.thread t).thread_timer.init_tick - k.rt_tick =
        (k.thread t).thread_timer.init_tick := by
      rw [BitVec.add_comm, BitVec.add_sub_cancel]
    have hwithin : within (k.rt_tick + (k.thread t).thread_timer.init_tick) k.rt_tick := by
      rw [within, hnew]
      exact hi
    have hleft : ∀ x ∈ q .timers, k'.left k.rt_tick x = k.left k.rt_tick x := by
      intro x hx
      obtain ⟨u, rfl, hu⟩ := (h.timers x).mp hx
      rw [left, left, hne u]
      rintro rfl
      rw [ha] at hu
      cases hu
    have hleftt : k'.left k.rt_tick (.timer t) = (k.thread t).thread_timer.init_tick.toNat := by
      rw [left, hself]
      show (k.rt_tick + (k.thread t).thread_timer.init_tick - k.rt_tick).toNat = _
      rw [hnew]
    -- What the walk stopped at has as long to go, or longer.
    have hlater : ∀ x ∈ q .timers, k.later (k.rt_tick + (k.thread t).thread_timer.init_tick) x =
        decide (k'.left k.rt_tick (.timer t) ≤ k'.left k.rt_tick x) := by
      intro x hx
      obtain ⟨u, rfl, hu⟩ := (h.timers x).mp hx
      rw [hleft _ hx, hleftt, later, left]
      refine decide_eq_decide.mpr ?_
      rw [within_iff (h.soon u hu) hwithin, hnew]
    refine ⟨hlinks ▸ hlists, fun p x => ?_, fun o x hx => ?_, fun x => ?_, fun u hu => ?_,
      fun u hu => ?_, ?_, fun p => ?_, fun u hu => ?_, fun u => ?_, fun u hu => ?_⟩
    · rw [Function.update_of_ne (by rintro ⟨⟩), h.ready]
      exact exists_congr fun u => by rw [(hfields u).1, (hfields u).2.1]
    · rw [Function.update_of_ne (by rintro ⟨⟩)] at hx
      obtain ⟨u, rfl, hu⟩ := h.waiting o x hx
      exact ⟨u, rfl, (hfields u).1.trans hu⟩
    · rw [Function.update_self, List.mem_append, List.mem_cons, or_left_comm, ← List.mem_append,
        ← hq, h.timers]
      constructor
      · rintro (rfl | ⟨u, rfl, hu⟩)
        · exact ⟨t, rfl, by rw [hself]⟩
        · refine ⟨u, rfl, ?_⟩
          by_cases hut : u = t
          · rw [hut, hself]
          · rw [hne u hut, hu]
      · rintro ⟨u, rfl, hu⟩
        by_cases hut : u = t
        · exact .inl (by rw [hut])
        · rw [hne u hut] at hu
          exact .inr ⟨u, rfl, hu⟩
    · by_cases hut : u = t
      · rw [hut, (hfields t).1, hs]
      · rw [hne u hut] at hu ⊢
        exact h.timed u hu
    · by_cases hut : u = t
      · rw [hut, hself]
        exact hwithin
      · rw [hne u hut] at hu ⊢
        exact h.soon u hu
    · rw [Function.update_self]
      have hsorted := h.sorted
      have hmem : ∀ x, x ∈ xs ∨ x ∈ ys → x ∈ q .timers := fun x hx => by
        rw [hq]
        exact List.mem_append.mpr hx
      rw [hq] at hsorted
      have hsorted : (xs ++ ys).Pairwise fun x y => k'.left k.rt_tick x ≤ k'.left k.rt_tick y :=
        hsorted.imp_of_mem fun {x y} hx hy hxy => by
          rwa [hleft x (hmem x (List.mem_append.mp hx)), hleft y (hmem y (List.mem_append.mp hy))]
      obtain ⟨h1, h2, h3⟩ := List.pairwise_append.mp hsorted
      have hahead : ∀ y ∈ ys, k'.left k.rt_tick (.timer t) ≤ k'.left k.rt_tick y := by
        cases ys with
        | nil =>
          intro y hy
          cases hy
        | cons z zs =>
          have hz := hys z rfl
          rw [hlater z (hmem z (.inr List.mem_cons_self)), decide_eq_true_iff] at hz
          intro y hy
          rcases List.mem_cons.mp hy with rfl | hy
          · exact hz
          · exact hz.trans ((List.pairwise_cons.mp h2).1 y hy)
      refine List.pairwise_append.mpr ⟨h1, List.pairwise_cons.mpr ⟨hahead, h2⟩, fun x hx y hy => ?_⟩
      rcases List.mem_cons.mp hy with rfl | hy
      · have hx' := hxs x hx
        rw [hlater x (hmem x (.inl hx)), decide_eq_false_iff_not] at hx'
        omega
      · exact h3 x hx y hy
    · rw [hgroup, Function.update_of_ne (by rintro ⟨⟩)]
      exact h.group p
    · rw [(hfields u).1] at hu
      rw [(hfields u).2.2.2, (hfields u).2.1]
      exact h.mask u hu
    · rw [(hfields u).2.1, (hfields u).2.2.1]
      exact h.priority u
    · rw [(hfields u).1] at hu
      exact h.started u hu
  · funext u
    by_cases hut : u = t
    · subst hut
      rw [thread_update_self, thread_update_self]
    · rw [thread_update_of_ne hut, thread_update_of_ne hut]

end Walks

/-! ## The operations on one thread -/

/-- The lists after a ready thread has been put at the end of the list of the priority `c`. -/
def moved (q : Head → List Node) (t c : ℕ) : Head → List Node :=
  Function.update (fun i => (q i).erase (.tlist t)) (.priority c)
    ((q (.priority c)).erase (.tlist t) ++ [.tlist t])

section Operations

variable {k k' : State} {n t u p c fuel : ℕ} {base : BitVec 32} {q : Head → List Node} {o : Ipc}
  {f : rt_thread → rt_thread} {i : Head} {xs ys : List Node} {l : Node}

/-- A suspended thread that waits for nothing is put into the list of an object. -/
theorem Queued.insert_ipc (h : Queued k n base q) (hs : (k.thread t).stat = .suspend)
    (hw : ∀ o, Node.tlist t ∉ q (.ipc o)) (hq : q (.ipc o) = xs ++ ys)
    (hl : l = ys.head?.getD (.suspend_thread o)) :
    Queued { k with links := k.links.insertBefore l (.tlist t) } n base
      (Function.update q (.ipc o) (xs ++ .tlist t :: ys)) := by
  have hlists := h.lists.insertBefore (Head.tlist_ne (t := t))
    (h.tlist_not_mem (by rw [hs]; rintro ⟨⟩) hw) hq hl
  refine ⟨hlists, fun p x => ?_, fun o' x hx => ?_, fun x => ?_, h.timed, h.soon, ?_, fun p => ?_,
    h.mask, h.priority, h.started⟩
  · rw [Function.update_of_ne (by rintro ⟨⟩)]
    exact h.ready p x
  · by_cases ho : o' = o
    · subst ho
      rw [Function.update_self, List.mem_append, List.mem_cons, or_left_comm, ← List.mem_append,
        ← hq] at hx
      rcases hx with rfl | hx
      · exact ⟨t, rfl, hs⟩
      · exact h.waiting o' x hx
    · rw [Function.update_of_ne (by simpa using ho)] at hx
      exact h.waiting o' x hx
  · rw [Function.update_of_ne (by rintro ⟨⟩)]
    exact h.timers x
  · rw [Function.update_of_ne (by rintro ⟨⟩)]
    exact h.sorted
  · rw [Function.update_of_ne (by rintro ⟨⟩)]
    exact h.group p

/-- `rt_ipc_list_suspend`: the last of all, or before the first thread of a lower priority. -/
theorem Queued.rt_ipc_list_suspend (h : Queued k n base q) (hs : (k.thread t).stat = .ready)
    (hfuel : n < fuel) (o : Ipc) : ∃ k' xs ys, k.rt_ipc_list_suspend fuel o t = some k' ∧
      q (.ipc o) = xs ++ ys ∧
      Queued k' n base
        (Function.update (fun i => (q i).erase (.tlist t)) (.ipc o) (xs ++ .tlist t :: ys)) ∧
      k'.others = k.others ∧
      k'.thread = (k.update t fun thread => { thread with stat := .suspend }).thread ∧
      (k.flag o = .fifo → ys = []) ∧
      (k.flag o = .prio → (∀ u, .tlist u ∈ xs →
          (k.thread u).current_priority ≤ (k.thread t).current_priority) ∧
        ∀ u, ys.head? = some (.tlist u) →
          (k.thread t).current_priority < (k.thread u).current_priority) := by
  have hsus := h.rt_thread_suspend hs
  have hthread := thread_rt_thread_suspend hs
  have hothers := others_rt_thread_suspend (k := k) (t := t)
  have hflag : (k.rt_thread_suspend t).flag o = k.flag o := by
    simp only [State.others, Prod.mk.injEq] at hothers
    obtain ⟨h1, h2, h3, -⟩ := hothers
    cases o <;> simp only [flag, h1, h2, h3]
  have hself : ((k.rt_thread_suspend t).thread t).stat = .suspend := by
    rw [hthread, thread_update_self]
  have hprio : ∀ u, ((k.rt_thread_suspend t).thread u).current_priority =
      (k.thread u).current_priority := by
    intro u
    rw [hthread]
    by_cases hut : u = t
    · rw [hut, thread_update_self]
    · rw [thread_update_of_ne hut]
  have hw : ∀ o, Node.tlist t ∉ (q (.ipc o)).erase (.tlist t) := fun o hm => by
    rw [(h.lists.nodup _).mem_erase_iff] at hm
    exact hm.1 rfl
  have herase : (q (.ipc o)).erase (.tlist t) = q (.ipc o) :=
    List.erase_of_not_mem fun hm => by
      rw [h.suspend_of_mem hm] at hs
      cases hs
  cases hf : k.flag o with
  | fifo =>
    refine ⟨_, q (.ipc o), [], ?_, (List.append_nil _).symm,
      hsus.insert_ipc hself hw (by rw [herase, List.append_nil]) rfl, hothers, hthread,
      fun _ => rfl, by rintro ⟨⟩⟩
    rw [State.rt_ipc_list_suspend, hflag, hf]
    rfl
  | prio =>
    obtain ⟨xs, ys, l, hseek, hq, hl, hxs, hys⟩ := hsus.seek (i := .ipc o) hfuel
      ((k.rt_thread_suspend t).lower ((k.rt_thread_suspend t).thread t).current_priority)
    refine ⟨_, xs, ys, ?_, herase ▸ hq, hsus.insert_ipc hself hw hq hl, hothers, hthread,
      (by rintro ⟨⟩), fun _ => ⟨fun u hu => ?_, fun u hu => ?_⟩⟩
    · rw [State.rt_ipc_list_suspend, hflag, hf]
      show (NodeLinks.seek _ (Head.ipc o).node _ fuel
        (NodeLinks.next _ (Head.ipc o).node)).bind _ = _
      rw [hseek]
      rfl
    · have hu := hxs _ hu
      simp only [lower, hprio, decide_eq_false_iff_not] at hu
      omega
    · have hu := hys _ hu
      simpa only [lower, hprio, decide_eq_true_eq] using hu

/-- Changing the priority of a thread that is not ready. -/
theorem Queued.change (h : Queued k n base q) (hs : (k.thread t).stat ≠ .ready)
    (hc : c < RT_THREAD_PRIORITY_MAX) :
    Queued (k.update t fun thread =>
      { thread with current_priority := c, number_mask := 1#32 <<< c }) n base q := by
  generalize hk' : State.update k t _ = k'
  have hself : k'.thread t = { k.thread t with current_priority := c, number_mask := 1#32 <<< c } :=
    by rw [← hk', thread_update_self]
  have hne : ∀ u, u ≠ t → k'.thread u = k.thread u := fun u hu => by
    rw [← hk', thread_update_of_ne hu]
  have hfields : ∀ u, (k'.thread u).stat = (k.thread u).stat ∧
      (k'.thread u).thread_timer = (k.thread u).thread_timer := by
    intro u
    by_cases hut : u = t
    · rw [hut, hself]
      exact ⟨rfl, rfl⟩
    · rw [hne u hut]
      exact ⟨rfl, rfl⟩
  have hleft : ∀ x, k'.left base x = k.left base x := by
    intro x
    cases x with
    | timer u => rw [left, left, (hfields u).2]
    | _ => rfl
  refine ⟨by rw [← hk']; exact h.lists, fun p x => ?_, fun o x hx => ?_, fun x => ?_,
    fun u hu => ?_, fun u hu => ?_, ?_, fun p => ?_, fun u hu => ?_, fun u => ?_, fun u hu => ?_⟩
  · rw [h.ready]
    refine exists_congr fun u => ?_
    by_cases hut : u = t
    · rw [hut, hself]
      exact ⟨fun hx => absurd hx.2.1 hs, fun hx => absurd hx.2.1 hs⟩
    · rw [hne u hut]
  · obtain ⟨u, rfl, hu⟩ := h.waiting o x hx
    exact ⟨u, rfl, (hfields u).1.trans hu⟩
  · rw [h.timers]
    exact exists_congr fun u => by rw [(hfields u).2]
  · rw [(hfields u).2] at hu
    rw [(hfields u).1]
    exact h.timed u hu
  · rw [(hfields u).2] at hu ⊢
    exact h.soon u hu
  · exact h.sorted.imp fun {x y} hxy => by rwa [hleft, hleft]
  · rw [← hk']
    exact h.group p
  · by_cases hut : u = t
    · rw [hut, hself]
    · rw [hne u hut] at hu ⊢
      exact h.mask u hu
  · by_cases hut : u = t
    · rw [hut, hself]
      exact ⟨hc, (h.priority t).2⟩
    · rw [hne u hut]
      exact h.priority u
  · rw [(hfields u).1] at hu
    exact h.started u hu

/-- A thread that is suspended and at once made ready, at the priority `c`. -/
theorem Queued.move (h : Queued k n base q) (hs : (k.thread t).stat = .ready)
    (hc : c < RT_THREAD_PRIORITY_MAX) :
    Queued (((k.rt_thread_suspend t).update t fun thread =>
      { thread with current_priority := c, number_mask := 1#32 <<< c }).rt_schedule_insert_thread t)
      n base (moved q t c) := by
  have hthread := thread_rt_thread_suspend hs
  have hself : (k.rt_thread_suspend t).thread t = { k.thread t with stat := .suspend } := by
    rw [hthread, thread_update_self]
  have hinactive : (k.thread t).thread_timer.activated = false := by
    by_contra ha
    rw [h.timed t (by simpa using ha)] at hs
    cases hs
  have hchange := (h.rt_thread_suspend hs).change (t := t) (by rw [hself]; rintro ⟨⟩) hc
  have hmove := hchange.rt_schedule_insert_thread (t := t) (by rw [thread_update_self, hself])
    (by rw [thread_update_self, hself]; exact hinactive) fun o hm => by
      rw [(h.lists.nodup _).mem_erase_iff] at hm
      exact hm.1 rfl
  rw [thread_update_self] at hmove
  exact hmove

theorem rt_thread_change_priority_eq (hs : (k.thread t).stat = .ready) :
    k.rt_thread_change_priority t c = ((k.rt_thread_suspend t).update t fun thread =>
      { thread with current_priority := c, number_mask := 1#32 <<< c }).rt_schedule_insert_thread t := by
  rw [State.rt_thread_change_priority, if_pos hs, State.rt_thread_suspend,
    if_neg (by simp [hs]), rt_schedule_remove_thread_eq, rt_schedule_remove_thread_eq]
  simp [State.rt_schedule_insert_thread, State.update]

/-- `rt_thread_control`, changing a priority. -/
theorem Queued.rt_thread_change_priority (h : Queued k n base q) (hc : c < RT_THREAD_PRIORITY_MAX) :
    Queued (k.rt_thread_change_priority t c) n base
      (if (k.thread t).stat = .ready then moved q t c else q) := by
  split
  case isTrue hs =>
    rw [rt_thread_change_priority_eq hs]
    exact h.move hs hc
  case isFalse hs =>
    rw [State.rt_thread_change_priority, if_neg hs]
    exact h.change hs hc

theorem thread_rt_thread_change_priority : (k.rt_thread_change_priority t c).thread =
    (k.update t fun thread =>
      { thread with current_priority := c, number_mask := 1#32 <<< c }).thread := by
  by_cases hs : (k.thread t).stat = .ready
  · rw [rt_thread_change_priority_eq hs, thread_insert_thread]
    funext u
    by_cases hut : u = t
    · subst hut
      rw [thread_update_self, thread_update_self, thread_update_self,
        thread_rt_thread_suspend hs, thread_update_self]
      simp only [hs.symm]
    · rw [thread_update_of_ne hut, thread_update_of_ne hut, thread_update_of_ne hut,
        thread_rt_thread_suspend hs, thread_update_of_ne hut]
  · rw [State.rt_thread_change_priority, if_neg hs]

theorem others_rt_thread_change_priority : (k.rt_thread_change_priority t c).others = k.others := by
  by_cases hs : (k.thread t).stat = .ready
  · rw [rt_thread_change_priority_eq hs, others_insert_thread]
    exact others_rt_thread_suspend
  · rw [State.rt_thread_change_priority, if_neg hs]
    rfl

/-- `rt_thread_yield`, of a ready thread that shares its priority. -/
theorem Queued.rt_thread_yield (h : Queued k n base q)
    (hs : (k.thread k.rt_current_thread).stat = .ready) :
    ∃ k' need, k.rt_thread_yield = (k', need) ∧ k'.thread = k.thread ∧ k'.others = k.others ∧
      (need = false → k' = k ∧ q (.priority (k.thread k.rt_current_thread).current_priority) =
        [.tlist k.rt_current_thread]) ∧
      (need = true → Queued k' n base (moved q k.rt_current_thread
        (k.thread k.rt_current_thread).current_priority)) := by
  generalize ht : k.rt_current_thread = t at *
  have hm : Node.tlist t ∈ q (.priority (k.thread t).current_priority) :=
    h.ready_iff.mpr ⟨hs, rfl⟩
  have halone := h.lists.next_eq_prev_iff hm
  by_cases hone : k.links.next (.tlist t) = k.links.prev (.tlist t)
  · refine ⟨k, false, ?_, rfl, rfl, fun _ => ⟨rfl, halone.mp hone⟩, by rintro ⟨⟩⟩
    rw [State.rt_thread_yield, ht, if_neg]
    exact fun hboth => hboth.2 hone
  · have hrun : k.rt_thread_yield = ({ k with
        links := (k.links.remove (.tlist t)).insertBefore
          (.rt_thread_priority_table (k.thread t).current_priority) (.tlist t) }, true) := by
      rw [State.rt_thread_yield, ht, if_pos ⟨hs, hone⟩]
    refine ⟨_, true, hrun, rfl, rfl, by rintro ⟨⟩, fun _ => ?_⟩
    have hmove := h.move hs (h.priority t).1
    have hthread : ∀ u, linked ((((k.rt_thread_suspend t).update t fun thread =>
        { thread with
          current_priority := (k.thread t).current_priority
          number_mask := 1#32 <<< (k.thread t).current_priority }).rt_schedule_insert_thread t).thread u) =
        linked (k.thread u) := by
      intro u
      rw [thread_insert_thread]
      by_cases hut : u = t
      · subst hut
        rw [thread_update_self, thread_update_self, thread_rt_thread_suspend hs, thread_update_self]
        simp only [linked, hs, h.mask u (by rw [hs]; rintro ⟨⟩)]
      · rw [thread_update_of_ne hut, thread_update_of_ne hut, thread_rt_thread_suspend hs,
          thread_update_of_ne hut]
    refine hmove.congr ?_ (fun p => ?_) fun u => (hthread u).symm
    · rw [State.rt_thread_suspend, if_neg (by simp [hs])]
      simp [State.rt_schedule_insert_thread, rt_schedule_remove_thread_eq]
    · -- The list is not empty in between, and neither is it afterwards.
      rw [Bool.eq_iff_iff, hmove.group, h.group, moved]
      by_cases hp : p = (k.thread t).current_priority
      · subst hp
        rw [Function.update_self]
        simp [List.ne_nil_of_mem hm]
      · rw [Function.update_of_ne (by simpa using hp),
          List.erase_of_not_mem fun hx => hp (h.ready_iff.mp hx).2.symm]

/-- `rt_thread_startup`. -/
theorem Queued.rt_thread_startup (h : Queued k n base q) (hs : (k.thread t).stat = .init)
    (ht : t < n) : ∃ k', k.rt_thread_startup t = some k' ∧
      Queued k' n base (woken q t (k.thread t).init_priority) ∧ k'.others = k.others ∧
      k'.thread = (k.update t fun thread =>
        { thread with
          current_priority := thread.init_priority
          number_mask := 1#32 <<< thread.init_priority
          stat := .ready
          thread_timer.activated := false }).thread := by
  generalize hk1 : (k.update t fun thread =>
    { thread with
      current_priority := thread.init_priority
      number_mask := 1#32 <<< thread.init_priority
      stat := .suspend }) = k1
  have hself : k1.thread t = { k.thread t with
      current_priority := (k.thread t).init_priority
      number_mask := 1#32 <<< (k.thread t).init_priority
      stat := .suspend } := by rw [← hk1, thread_update_self]
  have hne : ∀ u, u ≠ t → k1.thread u = k.thread u := fun u hu => by
    rw [← hk1, thread_update_of_ne hu]
  have htimer : ∀ u, (k1.thread u).thread_timer = (k.thread u).thread_timer := by
    intro u
    by_cases hut : u = t
    · rw [hut, hself]
    · rw [hne u hut]
  have hleft : ∀ x, k1.left base x = k.left base x := by
    intro x
    cases x with
    | timer u => rw [left, left, htimer]
    | _ => rfl
  have hinactive : (k.thread t).thread_timer.activated ≠ true := by
    intro ha
    rw [h.timed t ha] at hs
    cases hs
  have hq1 : Queued k1 n base q := by
    refine ⟨by rw [← hk1]; exact h.lists, fun p x => ?_, fun o x hx => ?_, fun x => ?_,
      fun u hu => ?_, fun u hu => ?_, ?_, fun p => ?_, fun u hu => ?_, fun u => ?_, fun u hu => ?_⟩
    · rw [h.ready]
      refine exists_congr fun u => ?_
      by_cases hut : u = t
      · rw [hut, hself, hs]
        exact ⟨fun hx => (by cases hx.2.1), fun hx => (by cases hx.2.1)⟩
      · rw [hne u hut]
    · obtain ⟨u, rfl, hu⟩ := h.waiting o x hx
      refine ⟨u, rfl, ?_⟩
      by_cases hut : u = t
      · rw [hut, hself]
      · rw [hne u hut, hu]
    · rw [h.timers]
      exact exists_congr fun u => by rw [htimer]
    · rw [htimer] at hu
      have hut : u ≠ t := by
        rintro rfl
        exact hinactive hu
      rw [hne u hut]
      exact h.timed u hu
    · rw [htimer] at hu ⊢
      exact h.soon u hu
    · exact h.sorted.imp fun {x y} hxy => by rwa [hleft, hleft]
    · rw [← hk1]
      exact h.group p
    · by_cases hut : u = t
      · rw [hut, hself]
      · rw [hne u hut] at hu ⊢
        exact h.mask u hu
    · by_cases hut : u = t
      · rw [hut, hself]
        exact ⟨(h.priority t).2, (h.priority t).2⟩
      · rw [hne u hut]
        exact h.priority u
    · by_cases hut : u = t
      · rwa [hut]
      · rw [hne u hut] at hu
        exact h.started u hu
  have hs1 : (k1.thread t).stat = .suspend := by rw [hself]
  refine ⟨k1.rt_thread_resume t, ?_, ?_, ?_, ?_⟩
  · rw [State.rt_thread_startup, RT_ASSERT, if_pos hs, ← hk1]
    rfl
  · have hresume := hq1.rt_thread_resume hs1
    rw [hself] at hresume
    exact hresume
  · rw [others_rt_thread_resume, ← hk1]
    rfl
  · rw [thread_rt_thread_resume hs1]
    funext u
    by_cases hut : u = t
    · subst hut
      rw [thread_update_self, thread_update_self, hself]
    · rw [thread_update_of_ne hut, thread_update_of_ne hut, hne u hut]

end Operations

/-! ## The tick -/

section Tick

variable {k k' : State} {n t u p c fuel : ℕ} {base : BitVec 32} {q : Head → List Node}

/-- What a timer that fires does, before the scheduler runs. -/
def expire (k : State) (t : ℕ) : State :=
  (({ k with links := (k.links.remove (.timer t)).remove (.tlist t) } : State).update t
    fun thread => { thread with error := -RT_ETIMEOUT, thread_timer.activated := false })
      |>.rt_schedule_insert_thread t

theorem thread_expire : (k.expire t).thread = (k.update t fun thread =>
    { thread with
      error := -RT_ETIMEOUT
      stat := .ready
      thread_timer.activated := false }).thread := by
  rw [expire, thread_insert_thread]
  funext u
  by_cases hut : u = t
  · subst hut
    simp
  · rw [thread_update_of_ne hut, thread_update_of_ne hut, thread_update_of_ne hut]

theorem Queued.expire (h : Queued k n base q) (hs : (k.thread t).stat = .suspend) :
    Queued (k.expire t) n base (woken q t (k.thread t).current_priority) := by
  have hlists := (h.lists.remove (Head.timer_ne (t := t))).remove (Head.tlist_ne (t := t))
  refine h.wake hs ?_ rfl ?_ fun u hu => ?_
  · simp only [List.erase_comm (Node.tlist t) (Node.timer t)]
    exact hlists
  · rw [thread_update_self]
    rfl
  · rw [thread_update_of_ne hu]

/-- A round of `rt_timer_check`. -/
theorem rt_timer_check_succ (hs : (k.thread t).stat = .suspend)
    (hhead : k.links.next .rt_timer_list = .timer t)
    (hw : within k.rt_tick (k.thread t).thread_timer.timeout_tick) :
    k.rt_timer_check (fuel + 1) =
      (k.expire t).rt_schedule.bind fun k => k.rt_timer_check fuel := by
  have hne : ¬k.links.isEmpty .rt_timer_list = true := by
    simp [NodeLinks.isEmpty, hhead]
  have htimeout : ({ k with links := k.links.remove (.timer t) } : State).rt_thread_timeout t =
      ((({ k with links := (k.links.remove (.timer t)).remove (.tlist t) } : State).update t
        fun thread => { thread with error := -RT_ETIMEOUT }).rt_schedule_insert_thread t).rt_schedule := by
    rw [rt_thread_timeout, RT_ASSERT, if_pos hs]
    rfl
  have hsame : ((({ k with links := (k.links.remove (.timer t)).remove (.tlist t) } : State).update t
      fun thread => { thread with error := -RT_ETIMEOUT }).rt_schedule_insert_thread t).update t
        (fun thread => { thread with thread_timer.activated := false }) = k.expire t := by
    simp [State.expire, State.rt_schedule_insert_thread, State.update]
  rw [State.rt_timer_check, if_neg hne, hhead, ← hsame, rt_schedule_update]
  show (if within k.rt_tick (k.thread t).thread_timer.timeout_tick then _ else _) = _
  rw [if_pos hw]
  show (rt_thread_timeout _ t).bind _ = _
  rw [htimeout, Option.bind_map]
  rfl

/-- A timer has fired when one tick is left, or none. -/
theorem within_succ_iff {a : BitVec 32} (ha : within a base) :
    within (base + 1#32) a ↔ (a - base).toNat ≤ 1 := by
  simp only [within, RT_TICK_MAX, BitVec.toNat_sub, BitVec.toNat_add] at *
  have h1 : (1#32).toNat = 1 := rfl
  rw [h1]
  omega

/-- `rt_timer_check` after a tick: what every timer that fires keeps is kept, and those that are
    left have more than that tick to go. -/
theorem rt_timer_check_spec {I : State → (Head → List Node) → Prop}
    (hI : ∀ k q, I k q → Queued k n base q ∧ k.rt_tick = base + 1#32)
    (hstep : ∀ k q t, I k q → .timer t ∈ q .timers → k.left base (.timer t) ≤ 1 →
      ∃ k' q', (k.expire t).rt_schedule = some k' ∧ I k' q' ∧
        (q' .timers).length < (q .timers).length)
    (h : I k q) (hfuel : (q .timers).length < fuel) :
    ∃ k' q', k.rt_timer_check fuel = some k' ∧ I k' q' ∧
      ∀ x ∈ q' .timers, 2 ≤ k'.left base x := by
  induction fuel generalizing k q with
  | zero => exact absurd hfuel (Nat.not_lt_zero _)
  | succ fuel ih =>
    obtain ⟨hq, htick⟩ := hI k q h
    have hempty : k.links.isEmpty .rt_timer_list = true ↔ q .timers = [] :=
      hq.lists.isEmpty_iff (i := Head.timers)
    have hnext := hq.lists.next_head (i := Head.timers)
    cases hts : q .timers with
    | nil =>
      refine ⟨k, q, ?_, h, fun x hx => ?_⟩
      · rw [rt_timer_check, if_pos (hempty.mpr hts)]
      · rw [hts] at hx
        cases hx
    | cons x xs =>
      obtain ⟨t, rfl, ha⟩ := (hq.timers x).mp (by rw [hts]; exact List.mem_cons_self)
      have hhead : k.links.next .rt_timer_list = .timer t := by
        rw [hts] at hnext
        exact hnext
      have hfired := within_succ_iff (hq.soon t ha)
      rw [← htick] at hfired
      by_cases hw : within k.rt_tick (k.thread t).thread_timer.timeout_tick
      · obtain ⟨k1, q1, hrun1, h1, hlen⟩ := hstep k q t h (by rw [hts]; exact List.mem_cons_self)
          (hfired.mp hw)
        obtain ⟨k2, q2, hrun2, h2, hleft⟩ := ih h1 (by omega)
        refine ⟨k2, q2, ?_, h2, hleft⟩
        rw [rt_timer_check_succ (hq.timed t ha) hhead hw, hrun1]
        exact hrun2
      · refine ⟨k, q, ?_, h, fun x hx => ?_⟩
        · have hne : ¬k.links.isEmpty .rt_timer_list = true := fun he => by
            rw [hempty.mp he] at hts
            cases hts
          rw [rt_timer_check, if_neg hne, hhead]
          show (if within k.rt_tick (k.thread t).thread_timer.timeout_tick then _ else _) = _
          rw [if_neg hw]
        · have hfirst : 2 ≤ k.left base (.timer t) := by
            have hnot := mt hfired.mpr hw
            rw [left]
            omega
          have hsorted := hq.sorted
          rw [hts] at hsorted hx
          rcases List.mem_cons.mp hx with rfl | hx
          · exact hfirst
          · exact hfirst.trans ((List.pairwise_cons.mp hsorted).1 x hx)

/-- The ticks left after a tick that fires no timer. -/
theorem Queued.tick (h : Queued k n base q) (hleft : ∀ x ∈ q .timers, 1 ≤ k.left base x) :
    Queued k n (base + 1#32) q ∧
      ∀ x ∈ q .timers, k.left (base + 1#32) x = k.left base x - 1 := by
  have hless : ∀ x ∈ q .timers, k.left (base + 1#32) x = k.left base x - 1 := by
    intro x hx
    have hx1 := hleft x hx
    obtain ⟨t, rfl, -⟩ := (h.timers x).mp hx
    simp only [left, BitVec.toNat_sub, BitVec.toNat_add] at *
    have h1 : (1#32).toNat = 1 := rfl
    rw [h1]
    omega
  refine ⟨⟨h.lists, h.ready, h.waiting, h.timers, h.timed, fun t ht => ?_, ?_, h.group, h.mask,
    h.priority, h.started⟩, hless⟩
  · have hm := h.timer_mem.mpr ht
    have hsoon := h.soon t ht
    have hl := hless _ hm
    rw [left, left] at hl
    rw [within] at hsoon ⊢
    omega
  · refine h.sorted.imp_of_mem fun {x y} hx hy hxy => ?_
    rw [hless x hx, hless y hy]
    omega

end Tick

end State

end Kernel
