-- SUMMARY: The PID controllers of PIDNormal.c: their three shared integrators along any sequence of calls.
import LynxFly.Base.AntiWindup
import Mathlib.Data.List.DropRight
import Mathlib.Data.Rat.Defs
import Mathlib.Tactic.NormNum

/-!
# PIDNormal.c

The integrals of the three axes are file-level variables that `PIDNormal` and
`PINormal` share and `PIDNormalClear` resets.
-/

open AntiWindup

namespace PIDNormal

/-! ## Constants -/

def I_PID_CHANNEL_ROLL : ℤ := 2
def I_PID_CHANNEL_PITCH : ℤ := 1
def I_PID_CHANNEL_YAW : ℤ := 3

def F_PID_PHI_KP : ℚ := 24.2393
def F_PID_PHI_TII : ℚ := 1 / 2
def F_PID_PHI_TD : ℚ := 0.17004

def F_PID_THETA_KP : ℚ := 24.2393
def F_PID_THETA_TII : ℚ := 1 / 2
def F_PID_THETA_TD : ℚ := 0.17004

def F_PID_PSI_KP : ℚ := 20.3175
def F_PID_PSI_TII : ℚ := 1 / 0.19651
def F_PID_PSI_TD : ℚ := 0

def F_PID_BOUNDARY_I_PHI : ℚ := 50 / (F_PID_PHI_KP * F_PID_PHI_TII)
def F_PID_BOUNDARY_I_THETA : ℚ := 50 / (F_PID_THETA_KP * F_PID_THETA_TII)
def F_PID_BOUNDARY_I_PSI : ℚ := 50 / (F_PID_PSI_KP * F_PID_PSI_TII)

/-! ## The functions -/

/-- The file-level variables. -/
structure Integrators where
  EIPhi : ℚ := 0
  EITheta : ℚ := 0
  EIPsi : ℚ := 0

/-- `PIDNormalClear`. -/
def pidNormalClear (s : Integrators) : Integrators :=
  { s with EIPhi := 0, EITheta := 0, EIPsi := 0 }

/-- `PIDNormal`: the integrators it leaves, and its output. -/
def pidNormal (s : Integrators) (CDataYr CDataYE CDataYG : ℤ → ℚ) (Channel : ℤ)
    (SampleTime : ℚ) : Integrators × ℚ :=
  let EP := CDataYr 0 - CDataYE 0
  let ED := -CDataYG 0
  let TempIClc := EP * SampleTime
  if Channel = I_PID_CHANNEL_ROLL then
    let (s, EI) :=
      if (TempIClc ≥ 0 ∧ s.EIPhi < F_PID_BOUNDARY_I_PHI) ∨
          (TempIClc < 0 ∧ s.EIPhi > -F_PID_BOUNDARY_I_PHI) then
        ({ s with EIPhi := s.EIPhi + TempIClc }, s.EIPhi + TempIClc)
      else (s, 0)
    (s, F_PID_PHI_KP * (EP + F_PID_PHI_TII * EI + F_PID_PHI_TD * ED))
  else if Channel = I_PID_CHANNEL_PITCH then
    let (s, EI) :=
      if (TempIClc ≥ 0 ∧ s.EITheta < F_PID_BOUNDARY_I_THETA) ∨
          (TempIClc < 0 ∧ s.EITheta > -F_PID_BOUNDARY_I_THETA) then
        ({ s with EITheta := s.EITheta + TempIClc }, s.EITheta + TempIClc)
      else (s, 0)
    (s, F_PID_THETA_KP * (EP + F_PID_THETA_TII * EI + F_PID_THETA_TD * ED))
  else if Channel = I_PID_CHANNEL_YAW then
    let (s, EI) :=
      if (TempIClc ≥ 0 ∧ s.EIPsi < F_PID_BOUNDARY_I_PSI) ∨
          (TempIClc < 0 ∧ s.EIPsi > -F_PID_BOUNDARY_I_PSI) then
        ({ s with EIPsi := s.EIPsi + TempIClc }, s.EIPsi + TempIClc)
      else (s, 0)
    (s, F_PID_PSI_KP * (EP + F_PID_PSI_TII * EI + F_PID_PSI_TD * ED))
  else
    (s, 0)

/-- `PDNormal`, which has no integral. -/
def pdNormal (CDataYr CDataYE CDataYG : ℤ → ℚ) (Channel : ℤ) (_SampleTime : ℚ) : ℚ :=
  let EP := CDataYr 0 - CDataYE 0
  let ED := -CDataYG 0
  if Channel = I_PID_CHANNEL_ROLL then
    F_PID_PHI_KP * (EP + F_PID_PHI_TD * ED)
  else if Channel = I_PID_CHANNEL_PITCH then
    F_PID_THETA_KP * (EP + F_PID_THETA_TD * ED)
  else if Channel = I_PID_CHANNEL_YAW then
    F_PID_PSI_KP * (EP + F_PID_PSI_TD * ED)
  else
    0

/-- `PINormal`: the integrators it leaves, and its output. -/
def piNormal (s : Integrators) (CDataYr CDataY : ℤ → ℚ) (Channel : ℤ) (SampleTime : ℚ) :
    Integrators × ℚ :=
  let EP := CDataYr 0 - CDataY 0
  let TempIClc := EP * SampleTime
  if Channel = I_PID_CHANNEL_ROLL then
    let (s, EI) :=
      if (TempIClc ≥ 0 ∧ s.EIPhi < F_PID_BOUNDARY_I_PHI) ∨
          (TempIClc < 0 ∧ s.EIPhi > -F_PID_BOUNDARY_I_PHI) then
        ({ s with EIPhi := s.EIPhi + TempIClc }, s.EIPhi + TempIClc)
      else (s, 0)
    (s, F_PID_PHI_KP * (EP + F_PID_PHI_TII * EI))
  else if Channel = I_PID_CHANNEL_PITCH then
    let (s, EI) :=
      if (TempIClc ≥ 0 ∧ s.EITheta < F_PID_BOUNDARY_I_THETA) ∨
          (TempIClc < 0 ∧ s.EITheta > -F_PID_BOUNDARY_I_THETA) then
        ({ s with EITheta := s.EITheta + TempIClc }, s.EITheta + TempIClc)
      else (s, 0)
    (s, F_PID_THETA_KP * (EP + F_PID_THETA_TII * EI))
  else if Channel = I_PID_CHANNEL_YAW then
    let (s, EI) :=
      if (TempIClc ≥ 0 ∧ s.EIPsi < F_PID_BOUNDARY_I_PSI) ∨
          (TempIClc < 0 ∧ s.EIPsi > -F_PID_BOUNDARY_I_PSI) then
        ({ s with EIPsi := s.EIPsi + TempIClc }, s.EIPsi + TempIClc)
      else (s, 0)
    (s, F_PID_PSI_KP * (EP + F_PID_PSI_TII * EI))
  else
    (s, 0)

/-! ## Axes -/

/-- The axis an integrator belongs to. -/
inductive Axis where
  | phi | theta | psi
  deriving DecidableEq

namespace Axis

def channel : Axis → ℤ
  | phi => I_PID_CHANNEL_ROLL
  | theta => I_PID_CHANNEL_PITCH
  | psi => I_PID_CHANNEL_YAW

def bound : Axis → ℚ
  | phi => F_PID_BOUNDARY_I_PHI
  | theta => F_PID_BOUNDARY_I_THETA
  | psi => F_PID_BOUNDARY_I_PSI

def integrator (s : Integrators) : Axis → ℚ
  | phi => s.EIPhi
  | theta => s.EITheta
  | psi => s.EIPsi

def KP : Axis → ℚ
  | phi => F_PID_PHI_KP
  | theta => F_PID_THETA_KP
  | psi => F_PID_PSI_KP

def TII : Axis → ℚ
  | phi => F_PID_PHI_TII
  | theta => F_PID_THETA_TII
  | psi => F_PID_PSI_TII

def TD : Axis → ℚ
  | phi => F_PID_PHI_TD
  | theta => F_PID_THETA_TD
  | psi => F_PID_PSI_TD

theorem KP_ne_zero (axis : Axis) : axis.KP ≠ 0 := by
  cases axis with
  | phi => norm_num [KP, F_PID_PHI_KP]
  | theta => norm_num [KP, F_PID_THETA_KP]
  | psi => norm_num [KP, F_PID_PSI_KP]

theorem TII_ne_zero (axis : Axis) : axis.TII ≠ 0 := by
  cases axis with
  | phi => norm_num [TII, F_PID_PHI_TII]
  | theta => norm_num [TII, F_PID_THETA_TII]
  | psi => norm_num [TII, F_PID_PSI_TII]

theorem bound_pos (axis : Axis) : 0 < axis.bound := by
  cases axis
  · norm_num [bound, F_PID_BOUNDARY_I_PHI, F_PID_PHI_KP, F_PID_PHI_TII]
  · norm_num [bound, F_PID_BOUNDARY_I_THETA, F_PID_THETA_KP, F_PID_THETA_TII]
  · norm_num [bound, F_PID_BOUNDARY_I_PSI, F_PID_PSI_KP, F_PID_PSI_TII]

end Axis

/-! ## One call -/

section Call

variable {s : Integrators} {CDataYr CDataYE CDataYG CDataY : ℤ → ℚ} {Channel : ℤ} {SampleTime : ℚ}
variable {axis : Axis}

/-- The six copies of the anti-windup branch do the same to their axis. -/
theorem integrator_pidNormal :
    axis.integrator (pidNormal s CDataYr CDataYE CDataYG Channel SampleTime).1 =
      if Channel = axis.channel then
        accumulate axis.bound (axis.integrator s) ((CDataYr 0 - CDataYE 0) * SampleTime)
      else axis.integrator s := by
  simp only [pidNormal, accumulate, Takes]
  cases axis <;> simp only [Axis.integrator, Axis.channel, Axis.bound] <;>
    split_ifs <;> simp_all [I_PID_CHANNEL_ROLL, I_PID_CHANNEL_PITCH, I_PID_CHANNEL_YAW]

theorem integrator_piNormal :
    axis.integrator (piNormal s CDataYr CDataY Channel SampleTime).1 =
      if Channel = axis.channel then
        accumulate axis.bound (axis.integrator s) ((CDataYr 0 - CDataY 0) * SampleTime)
      else axis.integrator s := by
  simp only [piNormal, accumulate, Takes]
  cases axis <;> simp only [Axis.integrator, Axis.channel, Axis.bound] <;>
    split_ifs <;> simp_all [I_PID_CHANNEL_ROLL, I_PID_CHANNEL_PITCH, I_PID_CHANNEL_YAW]

/-- The output of `PIDNormal`: the integral enters it in the branch that takes the
    increment only. -/
theorem output_pidNormal :
    (pidNormal s CDataYr CDataYE CDataYG axis.channel SampleTime).2 =
      axis.KP * ((CDataYr 0 - CDataYE 0) + axis.TII *
        (if Takes axis.bound (axis.integrator s) ((CDataYr 0 - CDataYE 0) * SampleTime) then
          axis.integrator (pidNormal s CDataYr CDataYE CDataYG axis.channel SampleTime).1
        else 0) + axis.TD * -CDataYG 0) := by
  rw [integrator_pidNormal, if_pos rfl]
  by_cases h : Takes axis.bound (axis.integrator s) ((CDataYr 0 - CDataYE 0) * SampleTime)
  · rw [if_pos h, accumulate_of_takes h]
    unfold Takes at h
    cases axis <;> simp only [Axis.bound, Axis.integrator] at h <;>
      simp [pidNormal, Axis.channel, I_PID_CHANNEL_ROLL, I_PID_CHANNEL_PITCH,
        I_PID_CHANNEL_YAW, Axis.KP, Axis.TII, Axis.TD, Axis.integrator, h]
  · rw [if_neg h]
    unfold Takes at h
    cases axis <;> simp only [Axis.bound, Axis.integrator] at h <;>
      simp [pidNormal, Axis.channel, I_PID_CHANNEL_ROLL, I_PID_CHANNEL_PITCH,
        I_PID_CHANNEL_YAW, Axis.KP, Axis.TII, Axis.TD, h]

theorem output_piNormal :
    (piNormal s CDataYr CDataY axis.channel SampleTime).2 =
      axis.KP * ((CDataYr 0 - CDataY 0) + axis.TII *
        if Takes axis.bound (axis.integrator s) ((CDataYr 0 - CDataY 0) * SampleTime) then
          axis.integrator (piNormal s CDataYr CDataY axis.channel SampleTime).1
        else 0) := by
  rw [integrator_piNormal, if_pos rfl]
  by_cases h : Takes axis.bound (axis.integrator s) ((CDataYr 0 - CDataY 0) * SampleTime)
  · rw [if_pos h, accumulate_of_takes h]
    unfold Takes at h
    cases axis <;> simp only [Axis.bound, Axis.integrator] at h <;>
      simp [piNormal, Axis.channel, I_PID_CHANNEL_ROLL, I_PID_CHANNEL_PITCH,
        I_PID_CHANNEL_YAW, Axis.KP, Axis.TII, Axis.integrator, h]
  · rw [if_neg h]
    unfold Takes at h
    cases axis <;> simp only [Axis.bound, Axis.integrator] at h <;>
      simp [piNormal, Axis.channel, I_PID_CHANNEL_ROLL, I_PID_CHANNEL_PITCH,
        I_PID_CHANNEL_YAW, Axis.KP, Axis.TII, h]

/-- A refused increment leaves an integrator at its bound, off zero. -/
theorem integrator_ne_zero_of_not_takes {x : ℚ} (h : ¬ Takes axis.bound (axis.integrator s) x) :
    axis.integrator s ≠ 0 := by
  intro h0
  rw [h0] at h
  rcases le_or_gt 0 x with hx | hx
  · exact h (.inl ⟨hx, axis.bound_pos⟩)
  · exact h (.inr ⟨hx, neg_lt_zero.mpr axis.bound_pos⟩)

theorem ite_zero_eq_iff {P : Prop} [Decidable P] {v : ℚ} (hv : ¬ P → v ≠ 0) :
    (if P then v else 0) = v ↔ P := by
  constructor
  · intro heq
    by_contra h
    rw [if_neg h] at heq
    exact hv h heq.symm
  · intro h
    rw [if_pos h]

/-- The output is the control law on the stored integrals exactly when the
    anti-windup test takes the increment: a refused one drops the integral. -/
theorem output_eq_law_iff :
    ((pidNormal s CDataYr CDataYE CDataYG axis.channel SampleTime).2 =
        axis.KP * ((CDataYr 0 - CDataYE 0) + axis.TII *
          axis.integrator (pidNormal s CDataYr CDataYE CDataYG axis.channel SampleTime).1 +
            axis.TD * -CDataYG 0) ↔
      Takes axis.bound (axis.integrator s) ((CDataYr 0 - CDataYE 0) * SampleTime)) ∧
    ((piNormal s CDataYr CDataY axis.channel SampleTime).2 =
        axis.KP * ((CDataYr 0 - CDataY 0) + axis.TII *
          axis.integrator (piNormal s CDataYr CDataY axis.channel SampleTime).1) ↔
      Takes axis.bound (axis.integrator s) ((CDataYr 0 - CDataY 0) * SampleTime)) := by
  constructor
  · rw [output_pidNormal, mul_right_inj' axis.KP_ne_zero, add_left_inj, add_right_inj,
      mul_right_inj' axis.TII_ne_zero]
    refine ite_zero_eq_iff fun h => ?_
    rw [integrator_pidNormal, if_pos rfl, accumulate_of_not_takes h]
    exact integrator_ne_zero_of_not_takes h
  · rw [output_piNormal, mul_right_inj' axis.KP_ne_zero, add_right_inj,
      mul_right_inj' axis.TII_ne_zero]
    refine ite_zero_eq_iff fun h => ?_
    rw [integrator_piNormal, if_pos rfl, accumulate_of_not_takes h]
    exact integrator_ne_zero_of_not_takes h

/-- A roll integrator past its bound, and a positive error: the output misses the
    integral. -/
theorem output_ne_law :
    (pidNormal { EIPhi := 5 } (fun _ => 1) (fun _ => 0) (fun _ => 0)
        I_PID_CHANNEL_ROLL (1 / 50)).2 ≠
      F_PID_PHI_KP * (1 + F_PID_PHI_TII * (pidNormal { EIPhi := 5 } (fun _ => 1) (fun _ => 0)
        (fun _ => 0) I_PID_CHANNEL_ROLL (1 / 50)).1.EIPhi + F_PID_PHI_TD * 0) ∧
    (piNormal { EIPhi := 5 } (fun _ => 1) (fun _ => 0) I_PID_CHANNEL_ROLL (1 / 50)).2 ≠
      F_PID_PHI_KP * (1 + F_PID_PHI_TII *
        (piNormal { EIPhi := 5 } (fun _ => 1) (fun _ => 0) I_PID_CHANNEL_ROLL (1 / 50)).1.EIPhi) := by
  constructor
  · norm_num [pidNormal, I_PID_CHANNEL_ROLL, F_PID_PHI_KP, F_PID_PHI_TII, F_PID_PHI_TD,
      F_PID_BOUNDARY_I_PHI]
  · norm_num [piNormal, I_PID_CHANNEL_ROLL, F_PID_PHI_KP, F_PID_PHI_TII, F_PID_BOUNDARY_I_PHI]

end Call

/-! ## Sequences of calls -/

/-- A call of one of the four functions. -/
inductive Call where
  | pidNormalClear
  | pidNormal (CDataYr CDataYE CDataYG : ℤ → ℚ) (Channel : ℤ) (SampleTime : ℚ)
  | pdNormal (CDataYr CDataYE CDataYG : ℤ → ℚ) (Channel : ℤ) (SampleTime : ℚ)
  | piNormal (CDataYr CDataY : ℤ → ℚ) (Channel : ℤ) (SampleTime : ℚ)

namespace Call

/-- The integrators after a call. -/
def apply (s : Integrators) : Call → Integrators
  | pidNormalClear => PIDNormal.pidNormalClear s
  | pidNormal CDataYr CDataYE CDataYG Channel SampleTime =>
    (PIDNormal.pidNormal s CDataYr CDataYE CDataYG Channel SampleTime).1
  | pdNormal _ _ _ _ _ => s
  | piNormal CDataYr CDataY Channel SampleTime =>
    (PIDNormal.piNormal s CDataYr CDataY Channel SampleTime).1

def isClear : Call → Bool
  | pidNormalClear => true
  | _ => false

/-- The increment a call offers to the integrator of an axis. -/
def increment (axis : Axis) : Call → Option ℚ
  | pidNormal CDataYr CDataYE _ Channel SampleTime =>
    if Channel = axis.channel then some ((CDataYr 0 - CDataYE 0) * SampleTime) else none
  | piNormal CDataYr CDataY Channel SampleTime =>
    if Channel = axis.channel then some ((CDataYr 0 - CDataY 0) * SampleTime) else none
  | _ => none

variable {s : Integrators} {c : Call} {axis : Axis}

theorem integrator_apply_clear (h : c.isClear = true) : axis.integrator (apply s c) = 0 := by
  cases c with
  | pidNormalClear => cases axis <;> rfl
  | _ => cases h

/-- What a call that is no clear does to an integrator: it takes the increment, if
    there is one. -/
theorem integrator_apply (h : c.isClear = false) : axis.integrator (apply s c) =
    (c.increment axis).toList.foldl (accumulate axis.bound) (axis.integrator s) := by
  cases c with
  | pidNormalClear => cases h
  | pidNormal CDataYr CDataYE CDataYG Channel SampleTime =>
    rw [apply, integrator_pidNormal, increment]
    split_ifs <;> rfl
  | pdNormal CDataYr CDataYE CDataYG Channel SampleTime => rfl
  | piNormal CDataYr CDataY Channel SampleTime =>
    rw [apply, integrator_piNormal, increment]
    split_ifs <;> rfl

end Call

/-- The integrators after the calls of a list. -/
def after (calls : List Call) : Integrators := calls.foldl Call.apply {}

/-- The increments offered to an axis since the last clear. -/
def increments (axis : Axis) (calls : List Call) : List ℚ :=
  (calls.rtakeWhile fun c => !c.isClear).filterMap (Call.increment axis)

section After

variable {calls : List Call} {c : Call} {axis : Axis}

theorem increments_append_clear (h : c.isClear = true) : increments axis (calls ++ [c]) = [] := by
  simp [increments, h]

theorem increments_append (h : c.isClear = false) : increments axis (calls ++ [c]) =
    increments axis calls ++ (c.increment axis).toList := by
  rw [increments, List.rtakeWhile_concat, if_pos (by simp [h]), List.filterMap_append, increments]
  cases hc : c.increment axis <;> simp [hc]

theorem integrator_after (axis : Axis) (calls : List Call) : axis.integrator (after calls) =
    (increments axis calls).foldl (accumulate axis.bound) 0 := by
  induction calls using List.reverseRecOn with
  | nil => cases axis <;> rfl
  | append_singleton calls c ih =>
    rw [after, List.foldl_append]
    cases h : c.isClear with
    | true =>
      rw [increments_append_clear h]
      exact Call.integrator_apply_clear h
    | false =>
      rw [increments_append h, List.foldl_append, ← ih]
      exact Call.integrator_apply h

end After

/-- After any sequence of calls an integrator is the fold of the increments of its
    own channel since the last clear. It stays within one increment of its bound,
    and calls on other channels and of `PDNormal` leave it alone. -/
theorem integrators_own_increments (calls : List Call) (axis : Axis) :
    axis.integrator (after calls) = (increments axis calls).foldl (accumulate axis.bound) 0 ∧
      (∀ δ, 0 ≤ δ → (∀ x ∈ increments axis calls, |x| ≤ δ) →
        |axis.integrator (after calls)| ≤ axis.bound + δ) ∧
      (∀ CDataYr CDataYE CDataYG Channel SampleTime, Channel ≠ axis.channel →
        axis.integrator (after (calls ++ [.pidNormal CDataYr CDataYE CDataYG Channel SampleTime])) =
          axis.integrator (after calls)) ∧
      (∀ CDataYr CDataY Channel SampleTime, Channel ≠ axis.channel →
        axis.integrator (after (calls ++ [.piNormal CDataYr CDataY Channel SampleTime])) =
          axis.integrator (after calls)) ∧
      ∀ CDataYr CDataYE CDataYG Channel SampleTime,
        after (calls ++ [.pdNormal CDataYr CDataYE CDataYG Channel SampleTime]) = after calls := by
  have hother : ∀ c : Call, c.isClear = false → c.increment axis = none →
      axis.integrator (after (calls ++ [c])) = axis.integrator (after calls) := fun c hc hnone => by
    rw [after, List.foldl_append]
    exact (Call.integrator_apply hc).trans (by rw [hnone]; rfl)
  refine ⟨integrator_after axis calls, fun δ hδ hxs => ?_, fun _ _ _ _ _ hch => ?_,
    fun _ _ _ _ hch => ?_, fun _ _ _ _ _ => ?_⟩
  · rw [integrator_after]
    exact abs_foldl_accumulate_le (add_nonneg axis.bound_pos.le hδ) hxs
  · exact hother _ rfl (if_neg hch)
  · exact hother _ rfl (if_neg hch)
  · rw [after, List.foldl_append]
    rfl

end PIDNormal
