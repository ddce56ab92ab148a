-- SUMMARY: Threads that wait for permits, locks and events with a limit of time: what holds in every run.
import Mathlib.Algebra.BigOperators.Group.Finset.Basic
import Mathlib.Data.Nat.ModEq
import Mathlib.Logic.Relation
import Mathlib.Order.UpperLower.CompleteLattice

/-!
# Waiters

What semaphores, mutexes and events are for, apart from the lists and priorities of a kernel: who
waits for what and since when, and who has been granted it and has still to return from the call.
Which of the waiting threads is served first is left open.
-/

/-- What a thread waits for. A condition on events holds of more events if it holds of fewer. -/
inductive Want (P L E β : Type) where
  | permit (i : P)
  | lock (i : L)
  | events (e : E) (c : UpperSet (Set β))
  | nothing

/-- Where a thread stands. One that waits for a time only does not wait for longer. -/
inductive Status (W : Type) where
  | free
  | waiting (w : W) (since : ℕ) (time : Option ℕ)
  | granted (w : W)
  | expired (w : W) (since : ℕ) (time : Option ℕ)

/-- When a wait of that time is over: it takes a tick at least. -/
def due (since time : ℕ) : ℕ := since + max 1 time

namespace Status

variable {W : Type}

/-- At the tick `now`. -/
def elapse (now : ℕ) : Status W → Status W
  | waiting w since (some time) =>
    if due since time ≤ now then expired w since (some time) else waiting w since (some time)
  | s => s

open Classical in
/-- What has been granted and not been returned yet. -/
noncomputable def owes (w : W) (s : Status W) : ℕ := if s = granted w then 1 else 0

@[simp] theorem owes_free (w : W) : (free : Status W).owes w = 0 := if_neg nofun
@[simp] theorem owes_waiting (w v : W) (since : ℕ) (time : Option ℕ) :
    (waiting v since time).owes w = 0 := if_neg nofun
@[simp] theorem owes_expired (w v : W) (since : ℕ) (time : Option ℕ) :
    (expired v since time).owes w = 0 := if_neg nofun
@[simp] theorem owes_granted_self (w : W) : (granted w).owes w = 1 := if_pos rfl

theorem owes_granted_of_ne {w v : W} (h : v ≠ w) : (granted v).owes w = 0 :=
  if_neg fun heq => h (by cases heq; rfl)

theorem elapse_eq_waiting {now since : ℕ} {w : W} {time : Option ℕ} {s : Status W}
    (h : s.elapse now = waiting w since time) :
    s = waiting w since time ∧ ∀ d, time = some d → now < due since d := by
  cases s with
  | waiting v since' time' =>
    cases time' with
    | none =>
      cases h
      exact ⟨rfl, nofun⟩
    | some d =>
      rw [elapse] at h
      split at h
      case isTrue => exact nomatch h
      case isFalse hlt =>
        cases h
        refine ⟨rfl, fun d' hd => ?_⟩
        cases hd
        exact Nat.lt_of_not_le hlt
  | free => exact nomatch h
  | granted v => exact nomatch h
  | expired v since' time' => exact nomatch h

theorem elapse_eq_expired {now since : ℕ} {w : W} {time : Option ℕ} {s : Status W}
    (h : s.elapse now = expired w since time) : s = expired w since time ∨
      ∃ d, time = some d ∧ s = waiting w since time ∧ due since d ≤ now := by
  cases s with
  | waiting v since' time' =>
    cases time' with
    | none => exact nomatch h
    | some d =>
      rw [elapse] at h
      split at h
      case isTrue hle =>
        cases h
        exact .inr ⟨d, rfl, rfl, hle⟩
      case isFalse => exact nomatch h
  | free => exact nomatch h
  | granted v => exact nomatch h
  | expired v since' time' => exact .inl h

@[simp] theorem owes_elapse (w : W) (now : ℕ) (s : Status W) :
    (s.elapse now).owes w = s.owes w := by
  rcases s with - | ⟨v, since, - | time⟩ | v | ⟨v, since, time⟩
  · rfl
  · rfl
  · rw [elapse]
    split <;> simp
  · rfl
  · rfl

end Status

/-- `taken` and `released` count the permits, `holds` how often a thread has the lock. -/
@[ext] structure Waiters (T P L E β : Type) where
  now : ℕ
  status : T → Status (Want P L E β)
  value : P → ℕ
  taken : P → ℕ
  released : P → ℕ
  owner : L → Option T
  hold : L → ℕ
  holds : L → T → ℕ
  sent : E → Set β

namespace Waiters

variable {T P L E β : Type}

def Waits (a : Waiters T P L E β) (t : T) (w : Want P L E β) : Prop :=
  ∃ since time, a.status t = .waiting w since time

/-- What a thread wants is not there. -/
def Missing (a : Waiters T P L E β) (t : T) : Want P L E β → Prop
  | .permit i => a.value i = 0
  | .lock i => ∃ u, a.owner i = some u ∧ u ≠ t
  | .events e c => a.sent e ∉ c
  | .nothing => True

/-! ## Steps -/

section Steps

variable [DecidableEq T] [DecidableEq P] [DecidableEq L] [DecidableEq E]

/-- A thread is now at `s`. -/
def put (a : Waiters T P L E β) (t : T) (s : Status (Want P L E β)) : Waiters T P L E β :=
  { a with status := Function.update a.status t s }

/-- A thread returns with what it wanted. -/
def credit (a : Waiters T P L E β) (t : T) : Want P L E β → Waiters T P L E β
  | .permit i => { a with taken := Function.update a.taken i (a.taken i + 1) }
  | .lock i =>
    { a with
      holds := Function.update a.holds i (Function.update (a.holds i) t (a.holds i t + 1)) }
  | .events _ _ => a
  | .nothing => a

def setValue (a : Waiters T P L E β) (i : P) (v : ℕ) : Waiters T P L E β :=
  { a with value := Function.update a.value i v }

def addReleased (a : Waiters T P L E β) (i : P) : Waiters T P L E β :=
  { a with released := Function.update a.released i (a.released i + 1) }

/-- A lock passes on; who had it has it once less. -/
def setLock (a : Waiters T P L E β) (i : L) (owner : Option T) (hold : ℕ) : Waiters T P L E β :=
  { a with owner := Function.update a.owner i owner, hold := Function.update a.hold i hold }

def unhold (a : Waiters T P L E β) (i : L) (t : T) : Waiters T P L E β :=
  { a with holds := Function.update a.holds i (Function.update (a.holds i) t (a.holds i t - 1)) }

def setSent (a : Waiters T P L E β) (e : E) (s : Set β) : Waiters T P L E β :=
  { a with sent := Function.update a.sent e s }

/-- Time goes on; those whose time is over give up waiting. -/
def tick (a : Waiters T P L E β) : Waiters T P L E β :=
  { a with now := a.now + 1, status := fun t => (a.status t).elapse (a.now + 1) }

/-- Events are given to threads that wait for them, until none does. -/
inductive Delivers (e : E) : Waiters T P L E β → Waiters T P L E β → Prop
  | done {a} (h : ∀ t c, a.Waits t (.events e c) → a.sent e ∉ c) : Delivers e a a
  | give {a b} (t : T) (c : UpperSet (Set β)) (s : Set β) (hw : a.Waits t (.events e c))
      (hc : a.sent e ∈ c) (hs : s ⊆ a.sent e)
      (h : Delivers e ((a.put t (.granted (.events e c))).setSent e s) b) : Delivers e a b

/-- What may happen, among those threads and with permits counted modulo `M`. -/
inductive Step (M : ℕ) (threads : Finset T) : Waiters T P L E β → Waiters T P L E β → Prop
  | take {a} (t : T) (i : P) (v : ℕ) (ht : a.status t = .free) (hv : a.value i = v + 1) :
      Step M threads a ((a.setValue i v).credit t (.permit i))
  | release {a} (i : P) (h : ∀ t, ¬a.Waits t (.permit i)) :
      Step M threads a ((a.setValue i ((a.value i + 1) % M)).addReleased i)
  | grant {a} (t : T) (i : P) (h : a.Waits t (.permit i)) :
      Step M threads a ((a.put t (.granted (.permit i))).addReleased i)
  | lock {a} (t : T) (i : L) (ht : a.status t = .free) (h : ∀ u, a.owner i = some u → u = t) :
      Step M threads a ((a.setLock i (some t) (a.hold i + 1)).credit t (.lock i))
  | unlock {a} (t : T) (i : L) (v : ℕ) (ht : a.status t = .free) (ho : a.owner i = some t)
      (hv : a.hold i = v + 2) : Step M threads a ((a.setLock i (some t) (v + 1)).unhold i t)
  | free {a} (t : T) (i : L) (ht : a.status t = .free) (ho : a.owner i = some t)
      (hv : a.hold i = 1) (h : ∀ u, ¬a.Waits u (.lock i)) :
      Step M threads a ((a.setLock i none 0).unhold i t)
  | hand_over {a} (t u : T) (i : L) (ht : a.status t = .free) (ho : a.owner i = some t)
      (hv : a.hold i = 1) (h : a.Waits u (.lock i)) :
      Step M threads a (((a.setLock i (some u) 1).unhold i t).put u (.granted (.lock i)))
  | send {a b} (e : E) (s : Set β) (hs : a.sent e ⊆ s) (h : Delivers e (a.setSent e s) b) :
      Step M threads a b
  | receive {a} (t : T) (e : E) (c : UpperSet (Set β)) (s : Set β) (ht : a.status t = .free)
      (hc : a.sent e ∈ c) (hs : s ⊆ a.sent e) : Step M threads a (a.setSent e s)
  | wait {a} (t : T) (w : Want P L E β) (time : Option ℕ) (hm : t ∈ threads)
      (ht : a.status t = .free) (hw : a.Missing t w) :
      Step M threads a (a.put t (.waiting w a.now time))
  | back {a} (t : T) (w : Want P L E β) (ht : a.status t = .granted w) :
      Step M threads a ((a.put t .free).credit t w)
  | give_up {a} (t : T) (w : Want P L E β) (since : ℕ) (time : Option ℕ)
      (ht : a.status t = .expired w since time) : Step M threads a (a.put t .free)
  | tick {a} : Step M threads a a.tick

/-- Any number of steps. -/
def Steps (M : ℕ) (threads : Finset T) : Waiters T P L E β → Waiters T P L E β → Prop :=
  Relation.ReflTransGen (Step M threads)

end Steps

/-! ## What is kept -/

/-- The books that are kept, in a run that starts with the permits `init`. -/
structure Books [DecidableEq T] (M : ℕ) (threads : Finset T) (init : P → ℕ)
    (a : Waiters T P L E β) : Prop where
  /-- Every permit is there, or taken, or on its way to the thread it was granted to. -/
  permits : ∀ i, a.value i + a.taken i + ∑ t ∈ threads, (a.status t).owes (.permit i) ≡
    init i + a.released i [MOD M]
  /-- Only the owner has a lock, or will have it once it returns. -/
  locks : ∀ i t, a.holds i t + (a.status t).owes (.lock i) =
    if a.owner i = some t then a.hold i else 0
  owned : ∀ i, a.hold i = 0 ↔ a.owner i = none
  among : ∀ t, a.status t ≠ .free → t ∈ threads
  /-- Nobody waits for longer than the time it said. -/
  late : ∀ t w since time, a.status t = .waiting w since (some time) → a.now < due since time
  /-- Nobody gives up waiting before that time. -/
  early : ∀ t w since time, a.status t = .expired w since time →
    ∃ d, time = some d ∧ due since d ≤ a.now

/-- Nobody waits for what is there. -/
def Needy (a : Waiters T P L E β) : Prop := ∀ t w, a.Waits t w → a.Missing t w

section Keeping

variable {a b : Waiters T P L E β} {M : ℕ} {threads : Finset T} {init : P → ℕ} {t u : T}
  {s : Status (Want P L E β)} {w : Want P L E β} {e : E}

theorem not_waits_of_free (h : a.status t = .free) : ¬a.Waits t w := by
  rintro ⟨since, time, heq⟩
  exact nomatch h.symm.trans heq

theorem Waits.owes {v : Want P L E β} (h : a.Waits t w) : (a.status t).owes v = 0 := by
  obtain ⟨since, time, heq⟩ := h
  rw [heq, Status.owes_waiting]

variable [DecidableEq T]

@[simp] theorem status_put_self : (a.put t s).status t = s := Function.update_self _ _ _

theorem status_put_of_ne (h : u ≠ t) : (a.put t s).status u = a.status u :=
  Function.update_of_ne h _ _

/-- Who waits after a thread has moved. -/
theorem waits_put : (a.put t s).Waits u w ↔
    u = t ∧ (∃ since time, s = .waiting w since time) ∨ u ≠ t ∧ a.Waits u w := by
  rw [Waits]
  by_cases hut : u = t
  · simp [hut]
  · simp [hut, status_put_of_ne hut, Waits]

theorem sum_put (ht : t ∈ threads) :
    ∑ u ∈ threads, ((a.put t s).status u).owes w + (a.status t).owes w =
      ∑ u ∈ threads, (a.status u).owes w + s.owes w := by
  rw [← Finset.add_sum_erase _ _ ht,
    ← Finset.add_sum_erase threads (fun u => (a.status u).owes w) ht]
  have hrest : ∑ u ∈ threads.erase t, ((a.put t s).status u).owes w =
      ∑ u ∈ threads.erase t, (a.status u).owes w :=
    Finset.sum_congr rfl fun u hu => by rw [status_put_of_ne (Finset.ne_of_mem_erase hu)]
  rw [hrest, status_put_self]
  omega

/-- A thread that has nothing to return, before and after. -/
theorem sum_put_of_not_owes (threads : Finset T) (ha : (a.status t).owes w = 0)
    (hs : s.owes w = 0) :
    ∑ u ∈ threads, ((a.put t s).status u).owes w = ∑ u ∈ threads, (a.status u).owes w := by
  refine Finset.sum_congr rfl fun u _ => ?_
  by_cases hut : u = t
  · rw [hut, status_put_self, ha, hs]
  · rw [status_put_of_ne hut]

theorem Books.mem_of_waits (h : a.Books M threads init) (hw : a.Waits t w) : t ∈ threads := by
  obtain ⟨since, time, heq⟩ := hw
  exact h.among t (by rw [heq]; nofun)

theorem owes_put_lock {i : L} (ha : (a.status t).owes (.lock i) = 0) (hs : s.owes (.lock i) = 0) :
    ((a.put t s).status u).owes (.lock i) = (a.status u).owes (.lock i) := by
  by_cases hut : u = t
  · rw [hut, status_put_self, ha, hs]
  · rw [status_put_of_ne hut]

theorem Books.among_put (h : a.Books M threads init) (hm : s ≠ .free → t ∈ threads) (u : T)
    (hu : (a.put t s).status u ≠ .free) : u ∈ threads := by
  by_cases hut : u = t
  · rw [hut, status_put_self] at hu
    exact hut ▸ hm hu
  · rw [status_put_of_ne hut] at hu
    exact h.among u hu

theorem Books.late_put (h : a.Books M threads init)
    (hs : ∀ w since time, s = .waiting w since (some time) → a.now < due since time)
    (u : T) (w : Want P L E β) (since time : ℕ)
    (hu : (a.put t s).status u = .waiting w since (some time)) : a.now < due since time := by
  by_cases hut : u = t
  · rw [hut, status_put_self] at hu
    exact hs w since time hu
  · rw [status_put_of_ne hut] at hu
    exact h.late u w since time hu

theorem Books.early_put (h : a.Books M threads init)
    (hs : ∀ w since time, s ≠ .expired w since time)
    (u : T) (w : Want P L E β) (since : ℕ) (time : Option ℕ)
    (hu : (a.put t s).status u = .expired w since time) :
    ∃ d, time = some d ∧ due since d ≤ a.now := by
  by_cases hut : u = t
  · rw [hut, status_put_self] at hu
    exact absurd hu (hs w since time)
  · rw [status_put_of_ne hut] at hu
    exact h.early u w since time hu

end Keeping

/-! ## Every step keeps it -/

section Needy

variable {a : Waiters T P L E β} {t u : T} {i : P} {l : L} {w : Want P L E β} {e : E} {v : ℕ}

/-- The events of others are not delivered. -/
theorem Missing.setSent [DecidableEq E] {s : Set β} (hw : ∀ c, w ≠ .events e c) :
    (a.setSent e s).Missing t w ↔ a.Missing t w := by
  cases w with
  | events e' c =>
    have hne : e' ≠ e := by
      rintro rfl
      exact hw c rfl
    simp only [Missing, Waiters.setSent, Function.update_of_ne hne]
  | permit i => rfl
  | lock l => rfl
  | nothing => rfl

/-- Someone moves on, and what the others wait for stays missing. -/
theorem Needy.put [DecidableEq T] {s : Status (Want P L E β)} (h : a.Needy)
    (hs : ∀ w since time, s = .waiting w since time → a.Missing t w) : (a.put t s).Needy := by
  intro u w hw
  rcases waits_put.mp hw with ⟨rfl, since, time, heq⟩ | ⟨-, hw⟩
  · exact hs w since time heq
  · exact h u w hw

theorem Needy.setValue [DecidableEq P] (h : a.Needy) (hi : ∀ u, ¬a.Waits u (.permit i)) :
    (a.setValue i v).Needy := by
  intro u w hw
  have hm := h u w hw
  cases w with
  | permit j =>
    have hji : j ≠ i := by
      rintro rfl
      exact hi u hw
    exact (Function.update_of_ne hji _ _).trans hm
  | lock l => exact hm
  | events e c => exact hm
  | nothing => trivial

theorem Needy.setLock [DecidableEq L] {o : Option T} (h : a.Needy)
    (ho : ∀ u, a.Waits u (.lock l) → ∃ r, o = some r ∧ r ≠ u) : (a.setLock l o v).Needy := by
  intro u w hw
  have hm := h u w hw
  cases w with
  | lock j =>
    by_cases hjl : j = l
    · subst hjl
      obtain ⟨r, hr, hru⟩ := ho u hw
      exact ⟨r, (Function.update_self _ _ _).trans hr, hru⟩
    · obtain ⟨r, hr, hru⟩ := hm
      exact ⟨r, (Function.update_of_ne hjl _ _).trans hr, hru⟩
  | permit j => exact hm
  | events e c => exact hm
  | nothing => trivial

/-- Who waits for a lock does not wait for itself. -/
theorem Needy.owner_ne (h : a.Needy) (ho : ∀ r, a.owner l = some r → r = t)
    (hw : a.Waits u (.lock l)) : ∃ r, some t = some r ∧ r ≠ u := by
  obtain ⟨r, hr, hru⟩ := h u _ hw
  exact ⟨t, rfl, ho r hr ▸ hru⟩

theorem Needy.credit [DecidableEq T] [DecidableEq P] [DecidableEq L] (h : a.Needy) :
    (a.credit t w).Needy := by
  cases w <;> exact h

/-- Taking events away gives nobody what it waits for. -/
theorem Needy.receive [DecidableEq E] {s : Set β} (h : a.Needy) (hs : s ⊆ a.sent e) :
    (a.setSent e s).Needy := by
  intro t w hw
  by_cases hev : ∃ c, w = .events e c
  · obtain ⟨c, rfl⟩ := hev
    show (a.setSent e s).sent e ∉ c
    rw [Waiters.setSent]
    simp only [Function.update_self]
    exact fun hc => h t _ hw (c.upper hs hc)
  · exact (Missing.setSent fun c hc => hev ⟨c, hc⟩).mpr (h t w hw)

end Needy

section Steps

variable [DecidableEq T] {a b : Waiters T P L E β} {M : ℕ} {threads : Finset T} {init : P → ℕ}
  {t u : T} {i : P} {l : L} {w : Want P L E β} {e : E} {v : ℕ} {time : Option ℕ}

section Permits

variable [DecidableEq P]

theorem Books.take [DecidableEq L] (h : a.Books M threads init) (hv : a.value i = v + 1) :
    ((a.setValue i v).credit t (.permit i)).Books M threads init := by
  refine { h with permits := fun j => ?_ }
  have hj := h.permits j
  by_cases hji : j = i
  · subst hji
    simp only [credit, setValue, Function.update_self]
    rwa [hv, Nat.add_right_comm v 1, Nat.add_assoc v] at hj
  · simp only [credit, setValue, Function.update_of_ne hji]
    exact hj

theorem Books.release (h : a.Books M threads init) :
    ((a.setValue i ((a.value i + 1) % M)).addReleased i).Books M threads init := by
  refine { h with permits := fun j => ?_ }
  have hj := h.permits j
  by_cases hji : j = i
  · subst hji
    simp only [addReleased, setValue, Function.update_self]
    refine ((((Nat.mod_modEq _ M).add_right _).add_right _).trans ?_)
    have h1 := hj.add_right 1
    rwa [Nat.add_right_comm _ _ 1, Nat.add_right_comm _ _ 1, Nat.add_assoc (init j)] at h1
  · simp only [addReleased, setValue, Function.update_of_ne hji]
    exact hj

theorem Books.grant (h : a.Books M threads init) (hw : a.Waits t (.permit i)) :
    ((a.put t (.granted (.permit i))).addReleased i).Books M threads init := by
  have hm := h.mem_of_waits hw
  refine ⟨fun j => ?_, fun l u => ?_, h.owned, h.among_put fun _ => hm, h.late_put nofun,
    h.early_put nofun⟩
  · have hj := h.permits j
    have hsum := sum_put (a := a) (s := .granted (.permit i)) (w := .permit j) hm
    rw [hw.owes, Nat.add_zero] at hsum
    by_cases hji : j = i
    · subst hji
      simp only [addReleased, Function.update_self]
      rw [Status.owes_granted_self] at hsum
      rw [hsum]
      exact hj.add_right 1
    · simp only [addReleased, Function.update_of_ne hji]
      rw [Status.owes_granted_of_ne (by simpa using Ne.symm hji), Nat.add_zero] at hsum
      rw [hsum]
      exact hj
  · have hput := owes_put_lock (u := u) (i := l) (s := .granted (.permit i)) hw.owes
      (Status.owes_granted_of_ne nofun)
    exact hput ▸ h.locks l u

end Permits

section Locks

variable [DecidableEq L]

theorem Books.lock [DecidableEq P] (h : a.Books M threads init)
    (ho : ∀ u, a.owner l = some u → u = t) :
    ((a.setLock l (some t) (a.hold l + 1)).credit t (.lock l)).Books M threads init := by
  refine { h with locks := fun j u => ?_, owned := fun j => ?_ }
  · have hj := h.locks j u
    by_cases hjl : j = l
    · subst hjl
      simp only [credit, setLock, Function.update_self, Option.some_inj]
      by_cases hut : u = t
      · subst hut
        rw [if_pos rfl, Function.update_self, Nat.add_right_comm, hj]
        split
        · rfl
        · next hne =>
          have hnone : a.owner j = none := by
            cases hc : a.owner j with
            | none => rfl
            | some v => exact absurd (ho v hc ▸ hc) hne
          rw [(h.owned j).mpr hnone]
      · rw [if_neg (Ne.symm hut), Function.update_of_ne hut, hj]
        exact if_neg fun heq => hut (ho u heq)
    · simp only [credit, setLock, Function.update_of_ne hjl]
      exact hj
  · by_cases hjl : j = l
    · subst hjl
      simp [credit, setLock]
    · simp only [credit, setLock, Function.update_of_ne hjl]
      exact h.owned j

/-- The owner has the lock once less; it may have it no more. -/
theorem Books.unhold {o : Option T} (h : a.Books M threads init) (ht : a.status t = .free)
    (ho : a.owner l = some t) (hv : a.hold l = v + 1)
    (hnew : o = some t ∧ v ≠ 0 ∨ o = none ∧ v = 0) :
    ((a.setLock l o v).unhold l t).Books M threads init := by
  refine { h with locks := fun j u => ?_, owned := fun j => ?_ }
  · have hj := h.locks j u
    by_cases hjl : j = l
    · subst hjl
      simp only [Waiters.unhold, setLock, Function.update_self]
      by_cases hut : u = t
      · subst hut
        rw [if_pos ho, ht, Status.owes_free, hv] at hj
        rw [Function.update_self, ht, Status.owes_free]
        rcases hnew with ⟨rfl, -⟩ | ⟨rfl, rfl⟩
        · rw [if_pos rfl]
          omega
        · rw [if_neg nofun]
          omega
      · rw [if_neg fun heq => hut (Option.some_inj.mp (heq.symm.trans ho))] at hj
        rw [Function.update_of_ne hut, hj, if_neg]
        rcases hnew with ⟨rfl, -⟩ | ⟨rfl, rfl⟩
        · exact fun heq => hut (Option.some_inj.mp heq).symm
        · exact nofun
    · simp only [Waiters.unhold, setLock, Function.update_of_ne hjl]
      exact hj
  · by_cases hjl : j = l
    · subst hjl
      simp only [Waiters.unhold, setLock, Function.update_self]
      rcases hnew with ⟨rfl, hne⟩ | ⟨rfl, rfl⟩
      · simp [hne]
      · simp
    · simp only [Waiters.unhold, setLock, Function.update_of_ne hjl]
      exact h.owned j

theorem Books.hand_over (h : a.Books M threads init) (ht : a.status t = .free)
    (ho : a.owner l = some t) (hv : a.hold l = 1) (hw : a.Waits u (.lock l)) :
    (((a.setLock l (some u) 1).unhold l t).put u (.granted (.lock l))).Books M threads init := by
  have hm := h.mem_of_waits hw
  have hut : u ≠ t := by
    rintro rfl
    exact not_waits_of_free ht hw
  refine ⟨fun j => ?_, fun j r => ?_, fun j => ?_, h.among_put fun _ => hm, h.late_put nofun,
    h.early_put nofun⟩
  · have hsum := sum_put_of_not_owes threads (w := .permit j)
      (s := .granted (.lock l)) hw.owes (Status.owes_granted_of_ne nofun)
    exact hsum ▸ h.permits j
  · have hj := h.locks j r
    by_cases hjl : j = l
    · subst hjl
      simp only [put, Waiters.unhold, setLock, Function.update_self, Option.some_inj]
      by_cases hru : r = u
      · subst hru
        rw [hw.owes, if_neg fun heq => hut (Option.some_inj.mp (heq.symm.trans ho))] at hj
        rw [if_pos rfl, Function.update_self, Function.update_of_ne hut, Status.owes_granted_self,
          show a.holds j r = 0 from by omega]
      · rw [if_neg (Ne.symm hru), Function.update_of_ne hru]
        by_cases hrt : r = t
        · subst hrt
          rw [ht, Status.owes_free, if_pos ho, hv] at hj
          rw [Function.update_self, ht, Status.owes_free]
          omega
        · rw [if_neg fun heq => hrt (Option.some_inj.mp (heq.symm.trans ho))] at hj
          rwa [Function.update_of_ne hrt]
    · have hput := owes_put_lock (u := r) (i := j) (s := .granted (.lock l)) hw.owes
        (Status.owes_granted_of_ne (by simpa using Ne.symm hjl))
      simp only [put, Waiters.unhold, setLock, Function.update_of_ne hjl]
      exact hput ▸ hj
  · by_cases hjl : j = l
    · subst hjl
      simp [put, Waiters.unhold, setLock]
    · simp only [put, Waiters.unhold, setLock, Function.update_of_ne hjl]
      exact h.owned j

end Locks

/-! The moves of one thread. -/

theorem Books.wait (h : a.Books M threads init) (hm : t ∈ threads) (ht : a.status t = .free) :
    (a.put t (.waiting w a.now time)).Books M threads init := by
  refine ⟨fun i => ?_, fun l u => ?_, h.owned, h.among_put fun _ => hm, h.late_put ?_,
    h.early_put nofun⟩
  · have hsum := sum_put_of_not_owes threads (w := .permit i)
      (s := .waiting w a.now time) (by rw [ht, Status.owes_free]) (Status.owes_waiting _ _ _ _)
    exact hsum ▸ h.permits i
  · have hput := owes_put_lock (u := u) (i := l) (s := .waiting w a.now time)
      (by rw [ht, Status.owes_free]) (Status.owes_waiting _ _ _ _)
    exact hput ▸ h.locks l u
  · rintro v since d heq
    cases heq
    exact Nat.lt_add_of_pos_right (Nat.le_max_left 1 d)

theorem Books.give_up {since : ℕ} (h : a.Books M threads init)
    (ht : a.status t = .expired w since time) : (a.put t .free).Books M threads init := by
  refine ⟨fun i => ?_, fun l u => ?_, h.owned, h.among_put (absurd rfl), h.late_put nofun,
    h.early_put nofun⟩
  · have hsum := sum_put_of_not_owes threads (w := .permit i) (s := .free)
      (by rw [ht, Status.owes_expired]) (Status.owes_free _)
    exact hsum ▸ h.permits i
  · have hput := owes_put_lock (u := u) (i := l) (s := .free)
      (by rw [ht, Status.owes_expired]) (Status.owes_free _)
    exact hput ▸ h.locks l u

theorem Books.back [DecidableEq P] [DecidableEq L] (h : a.Books M threads init)
    (ht : a.status t = .granted w) : ((a.put t .free).credit t w).Books M threads init := by
  have hm : t ∈ threads := h.among t (by rw [ht]; nofun)
  have hamong := h.among_put (s := .free) (t := t) (absurd rfl)
  have hlate := h.late_put (s := .free) (t := t) nofun
  have hearly := h.early_put (s := .free) (t := t) nofun
  have hsum := fun i : P => sum_put (a := a) (s := .free) (w := .permit i) hm
  have hlocks : ∀ l u, w ≠ .lock l →
      a.holds l u + ((a.put t .free).status u).owes (.lock l) =
        if a.owner l = some u then a.hold l else 0 := fun l u hw => by
    have hput := owes_put_lock (u := u) (i := l) (s := .free)
      (by rw [ht, Status.owes_granted_of_ne hw]) (Status.owes_free _)
    exact hput ▸ h.locks l u
  have hpermits : ∀ i, w ≠ .permit i →
      a.value i + a.taken i + ∑ u ∈ threads, ((a.put t .free).status u).owes (.permit i) ≡
        init i + a.released i [MOD M] := fun i hw => by
    have hs := hsum i
    rw [ht, Status.owes_granted_of_ne hw, Status.owes_free, Nat.add_zero, Nat.add_zero] at hs
    exact hs ▸ h.permits i
  cases w with
  | permit i =>
    refine ⟨fun j => ?_, fun l u => hlocks l u nofun, h.owned, hamong, hlate, hearly⟩
    by_cases hji : j = i
    · subst hji
      have hs := hsum j
      rw [ht, Status.owes_granted_self, Status.owes_free] at hs
      have hj := h.permits j
      rw [← hs.trans (Nat.add_zero _)] at hj
      simp only [credit, Function.update_self]
      rwa [← Nat.add_assoc, Nat.add_right_comm _ _ 1] at hj
    · simp only [credit, Function.update_of_ne hji]
      exact hpermits j fun heq => hji (Want.permit.inj heq).symm
  | lock l =>
    refine ⟨fun i => hpermits i nofun, fun j u => ?_, h.owned, hamong, hlate, hearly⟩
    by_cases hjl : j = l
    · subst hjl
      have hj := h.locks j u
      simp only [credit, Function.update_self]
      by_cases hut : u = t
      · subst hut
        rw [ht, Status.owes_granted_self] at hj
        rwa [Function.update_self, status_put_self, Status.owes_free]
      · rwa [Function.update_of_ne hut, status_put_of_ne hut]
    · simp only [credit, Function.update_of_ne hjl]
      exact hlocks j u fun heq => hjl (Want.lock.inj heq).symm
  | events e c =>
    exact ⟨fun i => hpermits i nofun, fun l u => hlocks l u nofun, h.owned, hamong, hlate, hearly⟩
  | nothing =>
    exact ⟨fun i => hpermits i nofun, fun l u => hlocks l u nofun, h.owned, hamong, hlate, hearly⟩

theorem Books.tick (h : a.Books M threads init) : a.tick.Books M threads init := by
  refine ⟨fun i => ?_, fun l u => ?_, h.owned, fun u hu => h.among u fun hf => hu ?_, ?_, ?_⟩
  · simp only [Waiters.tick, Status.owes_elapse]
    exact h.permits i
  · simp only [Waiters.tick, Status.owes_elapse]
    exact h.locks l u
  · simp only [Waiters.tick, hf, Status.elapse]
  · intro u v since d hu
    exact (Status.elapse_eq_waiting hu).2 d rfl
  · intro u v since d hu
    rcases Status.elapse_eq_expired hu with hs | ⟨k, hk, -, hle⟩
    · obtain ⟨k, hk, hle⟩ := h.early u v since d hs
      exact ⟨k, hk, Nat.le_succ_of_le hle⟩
    · exact ⟨k, hk, hle⟩

section Events

variable [DecidableEq E]

theorem Delivers.books (hd : Delivers e a b) (h : a.Books M threads init) :
    b.Books M threads init := by
  induction hd with
  | done => exact h
  | give t c s hw hc hs _ ih =>
    have hm := h.mem_of_waits hw
    refine ih ⟨fun i => ?_, fun l u => ?_, h.owned, h.among_put fun _ => hm, h.late_put nofun,
      h.early_put nofun⟩
    · have hsum := sum_put_of_not_owes threads (w := .permit i)
        (s := .granted (.events e c)) hw.owes (Status.owes_granted_of_ne nofun)
      exact hsum ▸ h.permits i
    · have hput := owes_put_lock (u := u) (i := l) (s := .granted (.events e c)) hw.owes
        (Status.owes_granted_of_ne nofun)
      exact hput ▸ h.locks l u

theorem Delivers.needy (hd : Delivers e a b)
    (h : ∀ t w, (∀ c, w ≠ .events e c) → a.Waits t w → a.Missing t w) : b.Needy := by
  induction hd with
  | done hdone =>
    intro t w hw
    by_cases hev : ∃ c, w = .events e c
    · obtain ⟨c, rfl⟩ := hev
      exact hdone t c hw
    · exact h t w (fun c hc => hev ⟨c, hc⟩) hw
  | give t c s _ _ _ _ ih =>
    refine ih fun u w hw hwaits => (Missing.setSent hw).mpr ?_
    rcases waits_put.mp hwaits with ⟨-, since, time, heq⟩ | ⟨-, hwaits⟩
    · exact nomatch heq
    · exact h u w hw hwaits

end Events

section All

variable [DecidableEq P] [DecidableEq L] [DecidableEq E]

theorem Step.books (hs : Step M threads a b) (h : a.Books M threads init) :
    b.Books M threads init := by
  cases hs with
  | take t i v _ hv => exact h.take hv
  | release i _ => exact h.release
  | grant t i hw => exact h.grant hw
  | lock t l _ ho => exact h.lock ho
  | unlock t l v ht ho hv => exact h.unhold ht ho hv (.inl ⟨rfl, Nat.succ_ne_zero v⟩)
  | free t l ht ho hv => exact h.unhold ht ho hv (.inr ⟨rfl, rfl⟩)
  | hand_over t u l ht ho hv hw => exact h.hand_over ht ho hv hw
  | send e s hs hd => exact hd.books { h with }
  | receive t e c s ht hc hs => exact { h with }
  | wait t w time hm ht _ => exact h.wait hm ht
  | back t w ht => exact h.back ht
  | give_up t w since time ht => exact h.give_up ht
  | tick => exact h.tick

theorem Step.needy (hs : Step M threads a b) (h : a.Needy) : b.Needy := by
  cases hs with
  | take t i v _ hv =>
    refine (h.setValue fun u hw => ?_).credit
    exact absurd (hv.symm.trans (h u _ hw)) (Nat.succ_ne_zero v)
  | release i hnone => exact h.setValue hnone
  | grant t i hw => exact h.put nofun
  | lock t l ht ho => exact (h.setLock fun u => h.owner_ne ho).credit
  | unlock t l v ht ho hv =>
    refine Needy.setLock (v := v + 1) h fun u => h.owner_ne fun r hr => ?_
    exact Option.some_inj.mp (hr.symm.trans ho)
  | free t l ht ho hv hnone =>
    exact Needy.setLock (v := 0) h fun u hw => absurd hw (hnone u)
  | hand_over t u l ht ho hv hw =>
    -- The new owner waits no more.
    have hput : (a.put u (.granted (.lock l))).Needy := h.put nofun
    refine Needy.setLock (v := 1) hput fun r hr => ⟨u, rfl, ?_⟩
    rintro rfl
    rcases waits_put.mp hr with ⟨-, since, time, heq⟩ | ⟨hne, -⟩
    · exact nomatch heq
    · exact hne rfl
  | send e s hs hd => exact hd.needy fun t w hw hwaits => (Missing.setSent hw).mpr (h t w hwaits)
  | receive t e c s ht hc hs => exact h.receive hs
  | wait t w time hm ht hmiss =>
    refine h.put fun v since time heq => ?_
    cases heq
    exact hmiss
  | back t w ht => exact (h.put (s := .free) nofun).credit
  | give_up t w since time ht => exact h.put nofun
  | tick =>
    rintro u w ⟨since, time, hw⟩
    have hm := h u w ⟨since, time, (Status.elapse_eq_waiting hw).1⟩
    cases w <;> exact hm

/-- What holds in every run. -/
theorem Steps.inv (hs : Steps M threads a b) (h : a.Books M threads init) (hn : a.Needy) :
    b.Books M threads init ∧ b.Needy := by
  induction hs with
  | refl => exact ⟨h, hn⟩
  | tail _ hstep ih => exact ⟨hstep.books ih.1, hstep.needy ih.2⟩

end All

end Steps

end Waiters
