-- SUMMARY: Programs that poll for events and count failures down: when they return under interrupts.
import LynxFly.Base.Run
import Mathlib.Algebra.Order.BigOperators.Group.List
import Mathlib.Algebra.Order.Ring.Nat
import Mathlib.Data.UInt

/-!
# Waiting with a down-counter

A program waits for an event by polling for it, and counts its failures down in a counter that
lies in memory. What a poll sees, and which interrupts come before a step, is up to the
environment; a handler may change the memory, the counter in it, or never come back.

`prompt_iff` is about programs that do not go on when a wait runs out: they return, within a
bounded number of polls, exactly when no wait runs out. Where the interrupts leave the counter
alone, that is when no wait fails too many polls (`prompt_iff_of_undisturbed`).
-/

namespace Waiting

open Runs

/-- A program on a memory `μ`. `ι` is what the environment has for one step. -/
inductive Code (μ ι V α : Type) where
  | ret (a : α)
  | hang
  | exec (f : ι → μ → μ) (next : Code μ ι V α)
  | load (f : μ → V) (next : V → Code μ ι V α)
  /-- `while (!event) if ((cnt--) == 0) expired` -/
  | wait (event : ι → μ → Bool) (expired next : Code μ ι V α)
  /-- `while (!event) if ((cnt--) == 0) ;` -/
  | spin (event : ι → μ → Bool) (next : Code μ ι V α)

namespace Code

variable {μ ι V α β : Type}

/-- Another program called, and its result used. -/
def bind : Code μ ι V α → (α → Code μ ι V β) → Code μ ι V β
  | ret a, f => f a
  | hang, _ => hang
  | exec g next, f => exec g (next.bind f)
  | load g next, f => load g fun v => (next v).bind f
  | wait event expired next, f => wait event (expired.bind f) (next.bind f)
  | spin event next, f => spin event (next.bind f)

/-- No more than `n` waits, one after the other, and none that runs out is ever left. -/
def Stranding : Code μ ι V α → ℕ → Prop
  | ret _, _ => True
  | hang, _ => False
  | exec _ next, n => next.Stranding n
  | load _ next, n => ∀ v, (next v).Stranding n
  | wait _ expired next, n => expired = hang ∧ ∃ m, n = m + 1 ∧ next.Stranding m
  | spin _ next, n => ∃ m, n = m + 1 ∧ next.Stranding m

section Stranding

variable {event : ι → μ → Bool} {expired next : Code μ ι V α} {n : ℕ}

@[simp] theorem stranding_ret {a : α} : (ret a : Code μ ι V α).Stranding n := trivial

@[simp] theorem stranding_exec {f : ι → μ → μ} :
    (exec f next).Stranding n ↔ next.Stranding n := .rfl

@[simp] theorem stranding_load {f : μ → V} {next : V → Code μ ι V α} :
    (load f next).Stranding n ↔ ∀ v, (next v).Stranding n := .rfl

@[simp] theorem stranding_wait : (wait event hang next).Stranding (n + 1) ↔ next.Stranding n := by
  constructor
  · rintro ⟨-, m, hm, h⟩
    rwa [Nat.succ.inj hm]
  · exact fun h => ⟨rfl, n, rfl, h⟩

@[simp] theorem stranding_spin : (spin event next).Stranding (n + 1) ↔ next.Stranding n := by
  constructor
  · rintro ⟨m, hm, h⟩
    rwa [Nat.succ.inj hm]
  · exact fun h => ⟨n, rfl, h⟩

end Stranding

theorem Stranding.mono {p : Code μ ι V α} {n m : ℕ} (hp : p.Stranding n) (h : n ≤ m) :
    p.Stranding m := by
  induction p generalizing n m with
  | ret a => trivial
  | hang => cases hp
  | exec g next ih => exact ih hp h
  | load g next ih => exact fun v => ih v (hp v) h
  | wait event expired next _ ih =>
    obtain ⟨hexpired, k, rfl, hnext⟩ := hp
    exact ⟨hexpired, m - 1, by omega, ih hnext (by omega)⟩
  | spin event next ih =>
    obtain ⟨k, rfl, hnext⟩ := hp
    exact ⟨m - 1, by omega, ih hnext (by omega)⟩

theorem Stranding.bind {p : Code μ ι V α} {f : α → Code μ ι V β} {n m : ℕ} (hp : p.Stranding n)
    (hf : ∀ a, (f a).Stranding m) : (p.bind f).Stranding (n + m) := by
  induction p generalizing n with
  | ret a => exact (hf a).mono (Nat.le_add_left _ _)
  | hang => cases hp
  | exec g next ih => exact ih hp
  | load g next ih => exact fun v => ih v (hp v)
  | wait event expired next _ ih =>
    obtain ⟨rfl, k, rfl, hnext⟩ := hp
    exact ⟨rfl, k + m, by omega, ih hnext⟩
  | spin event next ih =>
    obtain ⟨k, rfl, hnext⟩ := hp
    exact ⟨k + m, by omega, ih hnext⟩

end Code

/-- A wait, once its first poll has failed. -/
structure Loop (μ ι V α : Type) where
  event : ι → μ → Bool
  expired : Option (Code μ ι V α)
  next : Code μ ι V α

/-- Where a program stands; `n` polls of the present wait have failed. -/
inductive Pc (μ ι V α : Type) where
  | run (p : Code μ ι V α)
  /-- Before another poll. -/
  | poll (n : ℕ) (l : Loop μ ι V α)
  /-- Before the counter is read. -/
  | count (n : ℕ) (l : Loop μ ι V α)
  /-- The counter was `v`; before `v - 1` is written. -/
  | down (v : UInt32) (n : ℕ) (l : Loop μ ι V α)
  /-- In a handler that does not come back. -/
  | lost

/-- A wait that has ended. -/
structure Waited where
  polls : ℕ
  seen : Bool

structure State (μ ι V α : Type) where
  mem : μ
  pc : Pc μ ι V α
  waits : List Waited

/-- The counter, and what the interrupts before a step do to the memory. -/
structure Machine (μ ι : Type) where
  cnt : μ → UInt32
  setCnt : UInt32 → μ → μ
  interrupts : ι → μ → Option μ

variable {μ ι V α : Type}

namespace Pc

def ended : Pc μ ι V α → Bool
  | run (.ret _) => true
  | lost => true
  | _ => false

/-- The failed polls of the present wait. -/
def polls : Pc μ ι V α → ℕ
  | poll n _ | count n _ | down _ n _ => n
  | _ => 0

end Pc

/-- A poll, after `n` that failed. -/
def Loop.poll (l : Loop μ ι V α) (n : ℕ) (i : ι) (s : State μ ι V α) : State μ ι V α :=
  if l.event i s.mem then { s with pc := .run l.next, waits := s.waits ++ [⟨n + 1, true⟩] }
  else { s with pc := .count (n + 1) l }

namespace Machine

variable (M : Machine μ ι)

/-- The counter is written, and looked at. -/
def down (v : UInt32) (n : ℕ) (l : Loop μ ι V α) (s : State μ ι V α) : State μ ι V α :=
  let s := { s with mem := M.setCnt (v - 1) s.mem }
  if v = 0 then
    match l.expired with
    | some p => { s with pc := .run p, waits := s.waits ++ [⟨n, false⟩] }
    | none => { s with pc := .poll n l }
  else { s with pc := .poll n l }

/-- The wait is left, or goes on. -/
theorem down_cases (v : UInt32) (n : ℕ) (l : Loop μ ι V α) (s : State μ ι V α) :
    (∃ p, v = 0 ∧ l.expired = some p ∧
      M.down v n l s = ⟨M.setCnt (v - 1) s.mem, .run p, s.waits ++ [⟨n, false⟩]⟩) ∨
    (v = 0 → l.expired = none) ∧
      M.down v n l s = ⟨M.setCnt (v - 1) s.mem, .poll n l, s.waits⟩ := by
  unfold down
  dsimp only
  by_cases hv : v = 0
  · rw [if_pos hv]
    cases hexpired : l.expired with
    | some p => exact .inl ⟨p, hv, rfl, rfl⟩
    | none => exact .inr ⟨fun _ => rfl, rfl⟩
  · rw [if_neg hv]
    exact .inr ⟨fun h => absurd h hv, rfl⟩

/-- A step of the program itself. -/
def thread (i : ι) (s : State μ ι V α) : State μ ι V α :=
  match s.pc with
  | .run (.ret _) | .run .hang | .lost => s
  | .run (.exec f next) => { s with mem := f i s.mem, pc := .run next }
  | .run (.load f next) => { s with pc := .run (next (f s.mem)) }
  | .run (.wait event expired next) => Loop.poll ⟨event, some expired, next⟩ 0 i s
  | .run (.spin event next) => Loop.poll ⟨event, none, next⟩ 0 i s
  | .poll n l => l.poll n i s
  | .count n l => { s with pc := .down (M.cnt s.mem) n l }
  | .down v n l => M.down v n l s

def step (s : State μ ι V α) (i : ι) : State μ ι V α :=
  if s.pc.ended then s
  else
    match M.interrupts i s.mem with
    | some m => M.thread i { s with mem := m }
    | none => { s with pc := .lost }

/-- A call of the program in this environment, after `k` steps. -/
def call (p : Code μ ι V α) (m : μ) (env : ℕ → ι) (k : ℕ) : State μ ι V α :=
  run M.step ⟨m, .run p, []⟩ env k

end Machine

/-! ## Running out -/

section InTime

variable (M : Machine μ ι) (limit : ℕ)

/-- With this memory, a poll is not the last to fail, and the counter has not run out when it
    is read by a wait that would be left. -/
def Pc.InTime (i : ι) (m : μ) : Pc μ ι V α → Prop
  | .run (.wait event _ _) | .run (.spin event _) => event i m = true ∨ 0 < limit
  | .poll n l => l.event i m = true ∨ n < limit
  | .count _ l => l.expired ≠ none → M.cnt m ≠ 0
  | _ => True

/-- The handlers come back, and no wait runs out in this step. -/
def InTime (s : State μ ι V α) (i : ι) : Prop :=
  s.pc.ended = false → ∃ m, M.interrupts i s.mem = some m ∧ s.pc.InTime M limit i m

/-- The call returns after a bounded number of polls, no more than `limit + 1` in a wait, and
    successfully only if each wait ended with its event. -/
structure Prompt (n : ℕ) (success : α) (p : Code μ ι V α) (m : μ) (env : ℕ → ι) : Prop where
  returns : ∃ k a, (M.call p m env k).pc = .run (.ret a) ∧
    ((M.call p m env k).waits.map Waited.polls).sum ≤ n * (limit + 1)
  polls_le : ∀ k, (M.call p m env k).pc.polls ≤ limit + 1 ∧
    ∀ w ∈ (M.call p m env k).waits, w.polls ≤ limit + 1
  success : ∀ k, (M.call p m env k).pc = .run (.ret success) →
    ∀ w ∈ (M.call p m env k).waits, w.seen = true

end InTime

/-! ## While no wait runs out -/

section OnTime

variable {M : Machine μ ι} {limit n : ℕ} {s : State μ ι V α} {i : ι}

/-- What a wait that runs out goes on with. -/
def Loop.Strands (l : Loop μ ι V α) : Prop := ∀ p, l.expired = some p → p = .hang

def Pc.OnTime (limit n : ℕ) : Pc μ ι V α → Prop
  | .run p => p.Stranding n
  | .poll k l | .count k l => k ≤ limit ∧ l.Strands ∧ ∃ m, n = m + 1 ∧ l.next.Stranding m
  | .down v k l => (k ≤ limit ∧ l.Strands ∧ ∃ m, n = m + 1 ∧ l.next.Stranding m) ∧
    (l.expired ≠ none → v ≠ 0)
  | .lost => False

/-- No wait has run out, and there will be no more than `n`. -/
structure OnTime (limit n : ℕ) (s : State μ ι V α) : Prop where
  pc : ∃ k, s.waits.length + k ≤ n ∧ s.pc.OnTime limit k
  waits : ∀ w ∈ s.waits, w.polls ≤ limit + 1 ∧ w.seen = true

theorem OnTime.polls_le (h : OnTime limit n s) : s.pc.polls ≤ limit := by
  obtain ⟨⟨k, -, hpc⟩, -⟩ := h
  obtain ⟨mem, pc, waits⟩ := s
  cases pc with
  | run p => exact Nat.zero_le _
  | poll j l | count j l => exact hpc.1
  | down v j l => exact hpc.1.1
  | lost => exact Nat.zero_le _

/-- All polls of the waits that have ended, together. -/
theorem OnTime.sum_polls_le (h : OnTime limit n s) :
    (s.waits.map Waited.polls).sum ≤ n * (limit + 1) := by
  obtain ⟨k, hn, -⟩ := h.pc
  have hle : ∀ x ∈ s.waits.map Waited.polls, x ≤ limit + 1 := by
    intro x hx
    obtain ⟨w, hw, rfl⟩ := List.mem_map.mp hx
    exact (h.waits w hw).1
  calc (s.waits.map Waited.polls).sum ≤ (s.waits.map Waited.polls).length • (limit + 1) :=
        List.sum_le_card_nsmul _ _ hle
    _ = s.waits.length * (limit + 1) := by rw [List.length_map, Nat.nsmul_eq_mul]
    _ ≤ n * (limit + 1) := Nat.mul_le_mul_right _ (by omega)

theorem OnTime.poll {l : Loop μ ι V α} {k m : ℕ} (hk : k ≤ limit) (hl : l.Strands)
    (hnext : l.next.Stranding m) (hn : s.waits.length + (m + 1) ≤ n)
    (hwaits : ∀ w ∈ s.waits, w.polls ≤ limit + 1 ∧ w.seen = true)
    (hin : l.event i s.mem = true ∨ k < limit) : OnTime limit n (l.poll k i s) := by
  unfold Loop.poll
  split
  case isTrue hseen =>
    refine ⟨⟨m, ?_, hnext⟩, fun w hw => ?_⟩
    · rw [List.length_append, List.length_singleton]
      omega
    · rcases List.mem_append.mp hw with hw | hw
      · exact hwaits w hw
      · rw [List.mem_singleton.mp hw]
        exact ⟨Nat.succ_le_succ hk, rfl⟩
  case isFalse hfail =>
    have hlt : k < limit := hin.resolve_left hfail
    exact ⟨⟨m + 1, hn, hlt, hl, m, rfl, hnext⟩, hwaits⟩

theorem OnTime.down {l : Loop μ ι V α} {v : UInt32} {k m : ℕ} (hv : l.expired ≠ none → v ≠ 0)
    (hpc : (Pc.poll k l).OnTime limit m) (hn : s.waits.length + m ≤ n)
    (hwaits : ∀ w ∈ s.waits, w.polls ≤ limit + 1 ∧ w.seen = true) :
    OnTime limit n (M.down v k l s) := by
  rcases M.down_cases v k l s with ⟨p, hzero, hexpired, -⟩ | ⟨-, hdown⟩
  · exact absurd hzero (hv (by rw [hexpired]; nofun))
  · rw [hdown]
    exact ⟨⟨m, hn, hpc⟩, hwaits⟩

/-- A step of the program in which no wait runs out. -/
theorem OnTime.thread (h : OnTime limit n s) (hin : s.pc.InTime M limit i s.mem) :
    OnTime limit n (M.thread i s) := by
  obtain ⟨⟨k, hn, hpc⟩, hwaits⟩ := h
  obtain ⟨mem, pc, waits⟩ := s
  cases pc with
  | run p =>
    cases p with
    | ret a => exact ⟨⟨k, hn, hpc⟩, hwaits⟩
    | hang => cases hpc
    | exec f next => exact ⟨⟨k, hn, hpc⟩, hwaits⟩
    | load f next => exact ⟨⟨k, hn, hpc _⟩, hwaits⟩
    | wait event expired next =>
      obtain ⟨rfl, m, rfl, hnext⟩ := hpc
      refine OnTime.poll (Nat.zero_le _) (fun p hp => ?_) hnext hn hwaits hin
      exact (Option.some.inj hp).symm
    | spin event next =>
      obtain ⟨m, rfl, hnext⟩ := hpc
      exact OnTime.poll (Nat.zero_le _) nofun hnext hn hwaits hin
  | poll j l =>
    obtain ⟨hj, hl, m, rfl, hnext⟩ := hpc
    exact OnTime.poll hj hl hnext hn hwaits hin
  | count j l => exact ⟨⟨k, hn, hpc, hin⟩, hwaits⟩
  | down v j l => exact OnTime.down hpc.2 hpc.1 hn hwaits
  | lost => cases hpc

theorem OnTime.step (h : OnTime limit n s) (hin : InTime M limit s i) :
    OnTime limit n (M.step s i) := by
  unfold Machine.step
  cases hended : s.pc.ended with
  | true => exact h
  | false =>
    obtain ⟨m, hm, hpc⟩ := hin hended
    rw [if_neg Bool.false_ne_true, hm]
    exact OnTime.thread (s := { s with mem := m }) ⟨h.pc, h.waits⟩ hpc

end OnTime

/-! ## Once one has -/

section Doomed

variable {M : Machine μ ι} {limit n : ℕ} {s : State μ ι V α} {i : ι}

/-- From here a program does not return, or only after too many polls. -/
def Pc.Dead (limit : ℕ) : Pc μ ι V α → Prop
  | .run p => p = .hang
  | .poll k l | .count k l => limit < k ∧ l.Strands
  | .down v k l => (limit < k ∨ v = 0 ∧ l.expired ≠ none) ∧ l.Strands
  | .lost => True

def Doomed (limit : ℕ) (s : State μ ι V α) : Prop :=
  s.pc.Dead limit ∨ ∃ w ∈ s.waits, limit + 1 < w.polls

theorem Doomed.poll {l : Loop μ ι V α} {k : ℕ} (hk : limit < k) (hl : l.Strands) :
    Doomed limit (l.poll k i s) := by
  unfold Loop.poll
  split
  case isTrue =>
    refine .inr ⟨⟨k + 1, true⟩, List.mem_append_right _ (List.mem_singleton_self _), ?_⟩
    exact Nat.succ_lt_succ hk
  case isFalse => exact .inl ⟨Nat.lt_succ_of_lt hk, hl⟩

theorem Doomed.down {l : Loop μ ι V α} {v : UInt32} {k : ℕ}
    (hk : limit < k ∨ v = 0 ∧ l.expired ≠ none) (hl : l.Strands) :
    Doomed limit (M.down v k l s) := by
  rcases M.down_cases v k l s with ⟨p, -, hexpired, hdown⟩ | ⟨hstays, hdown⟩
  · rw [hdown]
    exact .inl (hl p hexpired)
  · rw [hdown]
    exact .inl ⟨hk.resolve_right fun h => h.2 (hstays h.1), hl⟩

/-- The waits that have ended stay. -/
theorem thread_waits : ∃ ws, (M.thread i s).waits = s.waits ++ ws := by
  have hsame : ∃ ws, s.waits = s.waits ++ ws := ⟨[], (List.append_nil _).symm⟩
  have hpoll (l : Loop μ ι V α) (k : ℕ) : ∃ ws, (l.poll k i s).waits = s.waits ++ ws := by
    unfold Loop.poll
    split
    · exact ⟨_, rfl⟩
    · exact hsame
  obtain ⟨mem, pc, waits⟩ := s
  cases pc with
  | run p =>
    cases p with
    | ret a => exact hsame
    | hang => exact hsame
    | exec f next => exact hsame
    | load f next => exact hsame
    | wait event expired next => exact hpoll _ 0
    | spin event next => exact hpoll _ 0
  | poll n l => exact hpoll l n
  | count n l => exact hsame
  | down v n l =>
    change ∃ ws, (M.down v n l _).waits = _
    rcases M.down_cases v n l ⟨mem, .down v n l, waits⟩ with ⟨p, -, -, hdown⟩ | ⟨-, hdown⟩
    · rw [hdown]
      exact ⟨_, rfl⟩
    · rw [hdown]
      exact hsame
  | lost => exact hsame

theorem Doomed.thread (h : Doomed limit s) : Doomed limit (M.thread i s) := by
  rcases h with hpc | ⟨w, hw, hpolls⟩
  · obtain ⟨mem, pc, waits⟩ := s
    cases pc with
    | run p =>
      cases hpc
      exact .inl rfl
    | poll k l => exact Doomed.poll hpc.1 hpc.2
    | count k l => exact .inl ⟨.inl hpc.1, hpc.2⟩
    | down v k l => exact Doomed.down hpc.1 hpc.2
    | lost => exact .inl trivial
  · obtain ⟨ws, hws⟩ := thread_waits (M := M) (s := s) (i := i)
    exact .inr ⟨w, hws ▸ List.mem_append_left _ hw, hpolls⟩

theorem Doomed.step (h : Doomed limit s) : Doomed limit (M.step s i) := by
  unfold Machine.step
  split
  case isTrue => exact h
  case isFalse =>
    cases M.interrupts i s.mem with
    | some m => exact Doomed.thread (s := { s with mem := m }) h
    | none => exact .inl trivial

/-- The last poll that may fail does. -/
theorem Doomed.poll_late {l : Loop μ ι V α} {k : ℕ} (hl : l.Strands)
    (hlate : ¬ (l.event i s.mem = true ∨ k < limit)) : Doomed limit (l.poll k i s) := by
  rw [not_or, Nat.not_lt] at hlate
  rw [Loop.poll, if_neg hlate.1]
  exact .inl ⟨Nat.lt_succ_of_le hlate.2, hl⟩

/-- A wait runs out, or a handler does not come back. -/
theorem OnTime.doomed (h : OnTime limit n s) (hlate : ¬ InTime M limit s i) :
    Doomed limit (M.step s i) := by
  unfold InTime at hlate
  push Not at hlate
  obtain ⟨hended, hlate⟩ := hlate
  unfold Machine.step
  rw [hended, if_neg Bool.false_ne_true]
  cases hm : M.interrupts i s.mem with
  | none => exact .inl trivial
  | some m =>
    have hlate := hlate m hm
    obtain ⟨⟨k, hn, hpc⟩, hwaits⟩ := h
    obtain ⟨mem, pc, waits⟩ := s
    cases pc with
    | run p =>
      cases p with
      | ret a => exact absurd trivial hlate
      | hang => exact absurd trivial hlate
      | exec f next => exact absurd trivial hlate
      | load f next => exact absurd trivial hlate
      | wait event expired next =>
        refine Doomed.poll_late (fun p hp => ?_) hlate
        exact (Option.some.inj hp).symm.trans hpc.1
      | spin event next => exact Doomed.poll_late nofun hlate
    | poll k l => exact Doomed.poll_late hpc.2.1 hlate
    | count k l =>
      obtain ⟨hexpired, hzero⟩ := Classical.not_imp.mp hlate
      exact .inl ⟨.inr ⟨not_not.mp hzero, hexpired⟩, hpc.2.1⟩
    | down v k l => exact absurd trivial hlate
    | lost => cases hpc

end Doomed

/-! ## Whole calls -/

section Calls

variable {M : Machine μ ι} {limit n : ℕ} {success : α} {p : Code μ ι V α} {m : μ} {env : ℕ → ι}

/-- What has returned, or does not come back, stays as it is. -/
theorem step_of_ended {s : State μ ι V α} {i : ι} (h : s.pc.ended = true) : M.step s i = s := by
  rw [Machine.step, if_pos h]

theorem run_of_ended {s : State μ ι V α} {k : ℕ} (h : (run M.step s env k).pc.ended = true)
    (j : ℕ) : run M.step s env (k + j) = run M.step s env k := by
  induction j with
  | zero => rfl
  | succ j ih => rw [← Nat.add_assoc, run_succ, ih, step_of_ended h]

/-- Everything is in time, or it is too late already. -/
theorem call_cases (hp : p.Stranding n) (k : ℕ) :
    OnTime limit n (M.call p m env k) ∨ Doomed limit (M.call p m env k) := by
  refine run_invariant (I := fun s => OnTime limit n s ∨ Doomed limit s) (.inl ?_) ?_ k
  · exact ⟨⟨n, by simp, hp⟩, nofun⟩
  · intro s i h
    rcases h with h | h
    · by_cases hin : InTime M limit s i
      · exact .inl (h.step hin)
      · exact .inr (h.doomed hin)
    · exact .inr h.step

/-- Too late is too late. -/
theorem Prompt.not_doomed (h : Prompt M limit n success p m env) (k : ℕ) :
    ¬ Doomed limit (M.call p m env k) := by
  intro hdoomed
  obtain ⟨j, a, hret, -⟩ := h.returns
  have hended : (M.call p m env j).pc.ended = true := by
    rw [hret]
    rfl
  have hlater : Doomed limit (M.call p m env (k + j)) := by
    unfold Machine.call
    rw [run_add]
    exact run_invariant (I := Doomed limit) hdoomed (fun _ _ hs => hs.step) j
  rw [Nat.add_comm] at hlater
  have hstays : M.call p m env (j + k) = M.call p m env j := run_of_ended hended k
  rw [hstays] at hlater
  rcases hlater with hdead | ⟨w, hw, hpolls⟩
  · rw [hret] at hdead
    cases hdead
  · exact absurd ((h.polls_le j).2 w hw) (Nat.not_le_of_lt hpolls)

end Calls

/-! ## Returning -/

section Returns

variable {M : Machine μ ι} {limit n : ℕ} {s : State μ ι V α} {env : ℕ → ι}

/-- No wait runs out from `s` on. -/
def Punctual (M : Machine μ ι) (limit : ℕ) (s : State μ ι V α) (env : ℕ → ι) : Prop :=
  ∀ k, InTime M limit (run M.step s env k) (env k)

def Returns (M : Machine μ ι) (s : State μ ι V α) (env : ℕ → ι) : Prop :=
  ∃ k a, (run M.step s env k).pc = .run (.ret a)

theorem Returns.of_step (h : Returns M (M.step s (env 0)) fun k => env (1 + k)) :
    Returns M s env := by
  obtain ⟨k, a, hret⟩ := h
  exact ⟨1 + k, a, by rw [run_add, run_succ, run_zero, hret]⟩

theorem Punctual.step (h : Punctual M limit s env) :
    Punctual M limit (M.step s (env 0)) fun k => env (1 + k) := by
  intro k
  have hk := h (1 + k)
  rwa [run_add, run_succ, run_zero] at hk

/-- The step is one of the program, on the memory the handlers leave. -/
theorem Punctual.thread (h : Punctual M limit s env) (hended : s.pc.ended = false) :
    ∃ m, M.step s (env 0) = M.thread (env 0) { s with mem := m } ∧
      s.pc.InTime M limit (env 0) m := by
  obtain ⟨m, hm, hpc⟩ : ∃ m, M.interrupts (env 0) s.mem = some m ∧
    s.pc.InTime M limit (env 0) m := h 0 hended
  refine ⟨m, ?_, hpc⟩
  rw [Machine.step, hended, if_neg Bool.false_ne_true, hm]

/-- A poll that is in time sees its event, or another one may follow. -/
theorem Punctual.poll {l : Loop μ ι V α} {k : ℕ} (h : Punctual M limit s env)
    (hended : s.pc.ended = false)
    (hthread : ∀ m, M.thread (env 0) { s with mem := m } = l.poll k (env 0) { s with mem := m })
    (hin : ∀ m, s.pc.InTime M limit (env 0) m → l.event (env 0) m = true ∨ k < limit) :
    (M.step s (env 0)).pc = .run l.next ∨
      k < limit ∧ (M.step s (env 0)).pc = .count (k + 1) l := by
  obtain ⟨m, hstep, hpc⟩ := h.thread hended
  rw [hstep, hthread]
  unfold Loop.poll
  split
  case isTrue => exact .inl rfl
  case isFalse hfail => exact .inr ⟨(hin m hpc).resolve_left hfail, rfl⟩

/-- After a failed poll the counter is counted down, and the event polled for again. -/
theorem returns_of_count {l : Loop μ ι V α} {k : ℕ}
    (hpoll : ∀ s env, s.pc = .poll k l → Punctual M limit s env → Returns M s env)
    (hpc : s.pc = .count k l) (h : Punctual M limit s env) : Returns M s env := by
  obtain ⟨mem, pc, waits⟩ := s
  cases hpc
  obtain ⟨m, hcount, hzero⟩ := h.thread rfl
  refine Returns.of_step ?_
  have h := h.step
  rw [hcount] at h ⊢
  obtain ⟨m', hdown, -⟩ := h.thread rfl
  refine Returns.of_step (hpoll _ _ ?_ h.step)
  rw [hdown]
  change (M.down (M.cnt m) k l ⟨m', .down (M.cnt m) k l, waits⟩).pc = _
  rcases M.down_cases (M.cnt m) k l ⟨m', .down (M.cnt m) k l, waits⟩ with
    ⟨p, hv, hexpired, -⟩ | ⟨-, hdown⟩
  · exact absurd hv (hzero (by rw [hexpired]; nofun))
  · rw [hdown]

/-- A wait of which `k` polls have failed, and `d` more may. -/
theorem returns_of_poll {l : Loop μ ι V α}
    (hnext : ∀ s env, s.pc = .run l.next → Punctual M limit s env → Returns M s env) (d : ℕ) :
    ∀ s env k, s.pc = .poll k l → limit ≤ k + d → Punctual M limit s env → Returns M s env := by
  induction d with
  | zero =>
    rintro ⟨mem, pc, waits⟩ env k hpc hd h
    cases hpc
    rcases h.poll rfl (fun _ => rfl) fun _ hin => hin with hseen | ⟨hlt, -⟩
    · exact Returns.of_step (hnext _ _ hseen h.step)
    · exact absurd hlt (Nat.not_lt_of_le hd)
  | succ d ih =>
    rintro ⟨mem, pc, waits⟩ env k hpc hd h
    cases hpc
    rcases h.poll rfl (fun _ => rfl) fun _ hin => hin with hseen | ⟨-, hfail⟩
    · exact Returns.of_step (hnext _ _ hseen h.step)
    · have hpoll := fun s env hpc h => ih s env (k + 1) hpc (by omega) h
      exact Returns.of_step (returns_of_count hpoll hfail h.step)

/-- The first poll of a wait is like the others. -/
theorem returns_of_wait {l : Loop μ ι V α} (h : Punctual M limit s env)
    (hnext : ∀ s env, s.pc = .run l.next → Punctual M limit s env → Returns M s env)
    (hfirst : (M.step s (env 0)).pc = .run l.next ∨
      0 < limit ∧ (M.step s (env 0)).pc = .count 1 l) : Returns M s env := by
  rcases hfirst with hseen | ⟨-, hfail⟩
  · exact Returns.of_step (hnext _ _ hseen h.step)
  · have hpoll := fun s env hpc h => returns_of_poll hnext limit s env 1 hpc (by omega) h
    exact Returns.of_step (returns_of_count hpoll hfail h.step)

theorem returns_of_punctual (p : Code μ ι V α) : ∀ n s env, p.Stranding n → s.pc = .run p →
    Punctual M limit s env → Returns M s env := by
  induction p with
  | ret a => exact fun _ s env _ hpc _ => ⟨0, a, hpc⟩
  | hang => exact fun _ _ _ hp => hp.elim
  | exec f next ih =>
    rintro n ⟨mem, pc, waits⟩ env hp hpc h
    cases hpc
    obtain ⟨m, hexec, -⟩ := h.thread rfl
    refine Returns.of_step (ih n _ _ hp ?_ h.step)
    rw [hexec]
    rfl
  | load f next ih =>
    rintro n ⟨mem, pc, waits⟩ env hp hpc h
    cases hpc
    obtain ⟨m, hload, -⟩ := h.thread rfl
    refine Returns.of_step (ih (f m) n _ _ (hp _) ?_ h.step)
    rw [hload]
    rfl
  | wait event expired next _ ih =>
    rintro n ⟨mem, pc, waits⟩ env ⟨-, m, -, hnext⟩ hpc h
    cases hpc
    refine returns_of_wait (l := ⟨event, some expired, next⟩) h (fun s env => ih m s env hnext) ?_
    exact h.poll rfl (fun _ => rfl) fun _ hin => hin
  | spin event next ih =>
    rintro n ⟨mem, pc, waits⟩ env ⟨m, -, hnext⟩ hpc h
    cases hpc
    refine returns_of_wait (l := ⟨event, none, next⟩) h (fun s env => ih m s env hnext) ?_
    exact h.poll rfl (fun _ => rfl) fun _ hin => hin

/-- A call is prompt exactly when no wait runs out and no handler fails to come back. -/
theorem prompt_iff {success : α} {p : Code μ ι V α} {m : μ} (hp : p.Stranding n) :
    Prompt M limit n success p m env ↔ ∀ k, InTime M limit (M.call p m env k) (env k) := by
  constructor
  · intro h k
    by_contra hlate
    have hcases : OnTime limit n (M.call p m env k) ∨ Doomed limit (M.call p m env k) :=
      call_cases hp k
    rcases hcases with hk | hk
    · exact h.not_doomed (k + 1) (hk.doomed hlate)
    · exact h.not_doomed k hk
  · intro h
    have hall : ∀ k, OnTime limit n (M.call p m env k) := by
      intro k
      induction k with
      | zero => exact ⟨⟨n, by simp [Machine.call], hp⟩, nofun⟩
      | succ k ih => exact ih.step (h k)
    obtain ⟨k, a, hret⟩ := returns_of_punctual p n ⟨m, .run p, []⟩ env hp rfl h
    exact {
      returns := ⟨k, a, hret, (hall k).sum_polls_le⟩
      polls_le := fun k =>
        ⟨Nat.le_succ_of_le (hall k).polls_le, fun w hw => ((hall k).waits w hw).1⟩
      success := fun k _ w hw => ((hall k).waits w hw).2 }

end Returns

/-! ## The counter -/

section Counter

variable {M : Machine μ ι} {limit v : UInt32} {n : ℕ} {s : State μ ι V α} {i : ι} {env : ℕ → ι}

/-- The counter is at `limit` where a wait begins; `b` says that it is at the start. -/
def Code.Rewound (M : Machine μ ι) (limit : UInt32) : Code μ ι V α → Bool → Prop
  | .ret _, _ => True
  | .hang, _ => True
  | .exec f next, _ =>
    next.Rewound M limit false ∨ (∀ i m, M.cnt (f i m) = limit) ∧ next.Rewound M limit true
  | .load _ next, b => ∀ v, (next v).Rewound M limit b
  | .wait _ expired next, b =>
    b = true ∧ expired.Rewound M limit false ∧ next.Rewound M limit false
  | .spin _ next, b => b = true ∧ next.Rewound M limit false

theorem Code.Rewound.exec {f : ι → μ → μ} {next : Code μ ι V α} (b : Bool)
    (h : next.Rewound M limit false) : (Code.exec f next).Rewound M limit b := .inl h

theorem Code.Rewound.mono {p : Code μ ι V α} (h : p.Rewound M limit false) (b : Bool) :
    p.Rewound M limit b := by
  induction p with
  | ret a => trivial
  | hang => trivial
  | exec f next => exact h
  | load f next ih => exact fun v => ih v (h v)
  | wait event expired next => exact absurd h.1 Bool.false_ne_true
  | spin event next => exact absurd h.1 Bool.false_ne_true

theorem Code.Rewound.bind {β : Type} {p : Code μ ι V α} {f : α → Code μ ι V β} {b : Bool}
    (hp : p.Rewound M limit b) (hf : ∀ a, (f a).Rewound M limit false) :
    (p.bind f).Rewound M limit b := by
  induction p generalizing b with
  | ret a => exact (hf a).mono b
  | hang => trivial
  | exec g next ih =>
    rcases hp with hnext | ⟨hcnt, hnext⟩
    · exact .inl (ih hnext)
    · exact .inr ⟨hcnt, ih hnext⟩
  | load g next ih => exact fun v => ih v (hp v)
  | wait event expired next ihexpired ih => exact ⟨hp.1, ihexpired hp.2.1, ih hp.2.2⟩
  | spin event next ih => exact ⟨hp.1, ih hp.2⟩

def Loop.Rewound (M : Machine μ ι) (limit : UInt32) (l : Loop μ ι V α) : Prop :=
  (∀ p, l.expired = some p → p.Rewound M limit false) ∧ l.next.Rewound M limit false

/-- The counter has been counted down once for each poll that failed. -/
def Pc.Counted (M : Machine μ ι) (limit : UInt32) (m : μ) : Pc μ ι V α → Prop
  | .run p => p.Rewound M limit false ∨ M.cnt m = limit ∧ p.Rewound M limit true
  | .poll n l => M.cnt m = limit - UInt32.ofNat n ∧ l.Rewound M limit
  | .count n l => (∃ k, n = k + 1 ∧ M.cnt m = limit - UInt32.ofNat k) ∧ l.Rewound M limit
  | .down v n l => (∃ k, n = k + 1 ∧ v = limit - UInt32.ofNat k) ∧ l.Rewound M limit
  | .lost => True

theorem counted_poll {l : Loop μ ι V α} (hcnt : M.cnt s.mem = limit - UInt32.ofNat n)
    (hl : l.Rewound M limit) : (l.poll n i s).pc.Counted M limit (l.poll n i s).mem := by
  unfold Loop.poll
  split
  case isTrue => exact .inl hl.2
  case isFalse => exact ⟨⟨n, rfl, hcnt⟩, hl⟩

theorem Pc.Counted.thread (hset : ∀ v m, M.cnt (M.setCnt v m) = v)
    (h : s.pc.Counted M limit s.mem) :
    (M.thread i s).pc.Counted M limit (M.thread i s).mem := by
  obtain ⟨mem, pc, waits⟩ := s
  cases pc with
  | run p =>
    cases p with
    | ret a => exact h
    | hang => exact h
    | exec f next =>
      have hexec : (Code.exec f next).Rewound M limit false := h.elim id fun h => h.2
      exact hexec.imp_right fun h => ⟨h.1 i mem, h.2⟩
    | load f next => exact h.imp (fun h => h _) fun h => ⟨h.1, h.2 _⟩
    | wait event expired next =>
      rcases h with h | ⟨hcnt, -, hexpired, hnext⟩
      · exact absurd h.1 Bool.false_ne_true
      · refine counted_poll (l := ⟨event, some expired, next⟩) ?_ ⟨fun p hp => ?_, hnext⟩
        · exact hcnt.trans (UInt32.sub_zero limit).symm
        · exact Option.some.inj hp ▸ hexpired
    | spin event next =>
      rcases h with h | ⟨hcnt, -, hnext⟩
      · exact absurd h.1 Bool.false_ne_true
      · refine counted_poll (l := ⟨event, none, next⟩) ?_ ⟨nofun, hnext⟩
        exact hcnt.trans (UInt32.sub_zero limit).symm
  | poll n l => exact counted_poll h.1 h.2
  | count n l => exact h
  | down v n l =>
    obtain ⟨⟨k, rfl, rfl⟩, hl⟩ := h
    have hdown := M.down_cases (limit - UInt32.ofNat k) (k + 1) l
      ⟨mem, .down (limit - UInt32.ofNat k) (k + 1) l, waits⟩
    change (M.down _ _ l ⟨mem, .down _ _ l, waits⟩).pc.Counted M limit
      (M.down _ _ l ⟨mem, .down _ _ l, waits⟩).mem
    rcases hdown with ⟨p, -, hp, hdown⟩ | ⟨-, hdown⟩
    · rw [hdown]
      exact .inl (hl.1 p hp)
    · rw [hdown]
      refine ⟨(hset _ _).trans ?_, hl⟩
      rw [UInt32.ofNat_add]
      grind
  | lost => trivial

theorem Pc.Counted.of_cnt {m m' : μ} {pc : Pc μ ι V α} (h : pc.Counted M limit m)
    (hm : M.cnt m' = M.cnt m) : pc.Counted M limit m' := by
  cases pc with
  | run p => exact h.imp_right fun h => ⟨hm.trans h.1, h.2⟩
  | poll n l => exact ⟨hm.trans h.1, h.2⟩
  | count n l =>
    obtain ⟨⟨k, hk, hcnt⟩, hl⟩ := h
    exact ⟨⟨k, hk, hm.trans hcnt⟩, hl⟩
  | down v n l => exact h
  | lost => trivial

/-- It has not run out before the last poll that may fail has. -/
theorem Pc.Counted.cnt_ne_zero {m : μ} {l : Loop μ ι V α}
    (h : (Pc.count n l).Counted M limit m) (hn : n ≤ limit.toNat) : M.cnt m ≠ 0 := by
  obtain ⟨⟨k, rfl, hcnt⟩, -⟩ := h
  intro hzero
  have hlimit : limit = UInt32.ofNat k := by
    rw [hzero] at hcnt
    grind
  rw [hlimit, UInt32.toNat_ofNat'] at hn
  exact absurd (hn.trans (Nat.mod_le _ _)) (Nat.not_succ_le_self k)

/-- The handlers come back in this step, and leave the counter alone. -/
def Machine.Undisturbed (M : Machine μ ι) (i : ι) : Prop :=
  ∀ m, ∃ m', M.interrupts i m = some m' ∧ M.cnt m' = M.cnt m

theorem Pc.Counted.step (hset : ∀ v m, M.cnt (M.setCnt v m) = v) (hi : M.Undisturbed i)
    (h : s.pc.Counted M limit s.mem) : (M.step s i).pc.Counted M limit (M.step s i).mem := by
  unfold Machine.step
  split
  case isTrue => exact h
  case isFalse =>
    obtain ⟨m', hm', hcnt⟩ := hi s.mem
    rw [hm']
    exact Pc.Counted.thread (s := { s with mem := m' }) hset (h.of_cnt hcnt)

/-- If one more poll may have failed after this step, no wait runs out in it. -/
theorem Pc.Counted.inTime (hi : M.Undisturbed i) (h : s.pc.Counted M limit s.mem)
    (hpolls : s.pc.polls ≤ limit.toNat) (hnext : (M.step s i).pc.polls ≤ limit.toNat) :
    Waiting.InTime M limit.toNat s i := by
  intro hended
  obtain ⟨m', hm', hcnt⟩ := hi s.mem
  rw [Machine.step, hended, if_neg Bool.false_ne_true, hm'] at hnext
  have hpoll (l : Loop μ ι V α) (n : ℕ)
      (hle : (l.poll n i { s with mem := m' }).pc.polls ≤ limit.toNat) :
      l.event i m' = true ∨ n < limit.toNat := by
    unfold Loop.poll at hle
    split at hle
    case isTrue hseen => exact .inl hseen
    case isFalse => exact .inr hle
  refine ⟨m', hm', ?_⟩
  obtain ⟨mem, pc, waits⟩ := s
  cases pc with
  | run p =>
    cases p with
    | ret a => trivial
    | hang => trivial
    | exec f next => trivial
    | load f next => trivial
    | wait event expired next => exact hpoll ⟨event, some expired, next⟩ 0 hnext
    | spin event next => exact hpoll ⟨event, none, next⟩ 0 hnext
  | poll n l => exact hpoll l n hnext
  | count n l => exact fun _ => (h.of_cnt hcnt).cnt_ne_zero hpolls
  | down v n l => trivial
  | lost => trivial

/-- While nothing disturbs the counter, a call is prompt exactly when no wait fails more polls
    than may fail. -/
theorem prompt_iff_of_undisturbed {success : α} {p : Code μ ι V α} {m : μ} (hp : p.Stranding n)
    (hr : p.Rewound M limit false) (hset : ∀ v m, M.cnt (M.setCnt v m) = v)
    (hi : ∀ k, M.Undisturbed (env k)) : Prompt M limit.toNat n success p m env ↔
      ∀ k, (M.call p m env k).pc.polls ≤ limit.toNat := by
  constructor
  · intro h k
    have hcases : OnTime limit.toNat n (M.call p m env k) ∨
        Doomed limit.toNat (M.call p m env k) := call_cases hp k
    exact (hcases.resolve_right (h.not_doomed k)).polls_le
  · intro h
    have hcounted (k : ℕ) : (M.call p m env k).pc.Counted M limit (M.call p m env k).mem := by
      induction k with
      | zero => exact .inl hr
      | succ k ih => exact Pc.Counted.step hset (hi k) ih
    rw [prompt_iff hp]
    exact fun k => Pc.Counted.inTime (hi k) (hcounted k) (h k) (h (k + 1))

end Counter

/-! ## A wait that is not left -/

section Spinning

variable {M : Machine μ ι} {s : State μ ι V α} {i : ι} {env : ℕ → ι}
  {event : ι → μ → Bool} {next : Code μ ι V α}

theorem Returns.later (h : Returns M s env) (j : ℕ) :
    Returns M (run M.step s env j) fun k => env (j + k) := by
  obtain ⟨k, a, hret⟩ := h
  have hended : (run M.step s env k).pc.ended = true := by
    rw [hret]
    rfl
  exact ⟨k, a, by rw [← run_add, Nat.add_comm, run_of_ended hended, hret]⟩

/-- In this wait, or in a handler that does not come back. -/
def Pc.Spins (event : ι → μ → Bool) (next : Code μ ι V α) : Pc μ ι V α → Prop
  | .run p => p = .spin event next
  | .poll _ l | .count _ l | .down _ _ l => l = ⟨event, none, next⟩
  | .lost => True

theorem Pc.Spins.thread (h : s.pc.Spins event next) (hno : event i s.mem = false) :
    (M.thread i s).pc.Spins event next := by
  have hpoll (n : ℕ) : (Loop.poll ⟨event, none, next⟩ n i s).pc.Spins event next := by
    have hfail : ¬ event i s.mem = true := by
      rw [hno]
      exact Bool.false_ne_true
    rw [Loop.poll, if_neg hfail]
    rfl
  obtain ⟨mem, pc, waits⟩ := s
  cases pc with
  | run p =>
    cases h
    exact hpoll 0
  | poll n l =>
    cases h
    exact hpoll n
  | count n l => exact h
  | down v n l =>
    cases h
    change (M.down v n ⟨event, none, next⟩ _).pc.Spins event next
    rcases M.down_cases v n ⟨event, none, next⟩ ⟨mem, .down v n _, waits⟩ with
      ⟨p, -, hexpired, -⟩ | ⟨-, hdown⟩
    · cases hexpired
    · rw [hdown]
      rfl
  | lost => trivial

theorem Pc.Spins.step (h : s.pc.Spins event next) (hno : ∀ m, event i m = false) :
    (M.step s i).pc.Spins event next := by
  unfold Machine.step
  split
  case isTrue => exact h
  case isFalse =>
    cases M.interrupts i s.mem with
    | some m => exact Pc.Spins.thread (s := { s with mem := m }) h (hno m)
    | none => trivial

/-- The counter wraps, and the polls go on for good. -/
theorem not_returns_of_spins (h : s.pc.Spins event next) (hno : ∀ k m, event (env k) m = false) :
    ¬ Returns M s env := by
  rintro ⟨k, a, hret⟩
  have hspins : (run M.step s env k).pc.Spins event next := by
    clear hret
    induction k with
    | zero => exact h
    | succ k ih => exact ih.step (hno k)
  rw [hret] at hspins
  cases hspins

end Spinning

end Waiting
