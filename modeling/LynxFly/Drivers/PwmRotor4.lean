-- SUMMARY: The four-motor PWM driver of pwmRotor4.c: period and compare values along any sequence of calls.
import LynxFly.Base.CInt
import LynxFly.Base.Run

/-!
# pwmRotor4.c

Four motors share timer TIM2. The period is kept twice, in `PWM_Motor_Max` and in
the auto-reload register; the duty of a motor is its compare register.
-/

open CInt Runs

namespace PwmRotor4

/-! ## The driver -/

/-- The compare registers of TIM2. -/
inductive Compare where
  | CCR1 | CCR2 | CCR3 | CCR4
  deriving DecidableEq

def PWM1 : Compare := .CCR1
def PWM2 : Compare := .CCR2
-- motors 3 and 4 are exchanged
def PWM3 : Compare := .CCR4
def PWM4 : Compare := .CCR3

def PWM_Motor_Min : ℤ := 0

/-- The file-level variable, and the registers of TIM2. -/
structure Driver where
  PWM_Motor_Max : ℤ
  ARR : ℤ
  CCR : Compare → ℤ

namespace Driver

def store (s : Driver) (r : Compare) (v : ℤ) : Driver := { s with CCR := Function.update s.CCR r v }

/-- `TIM_TimeBaseInit` with the period `(u16)(PWM_Motor_Max)`. -/
def timeBaseInit (s : Driver) : Driver := { s with ARR := u16 s.PWM_Motor_Max }

/-- The motors stand still. -/
def motorsOff (s : Driver) : Driver :=
  let s := s.store PWM1 (u32 PWM_Motor_Min)
  let s := s.store PWM2 (u32 PWM_Motor_Min)
  let s := s.store PWM3 (u32 PWM_Motor_Min)
  s.store PWM4 (u32 PWM_Motor_Min)

/-- `initialize`. -/
def init (s : Driver) : Driver × ℤ :=
  let s := s.timeBaseInit
  -- TIM_OC1Init to TIM_OC4Init, with the pulse PWM_Motor_Min
  let s := { s with CCR := fun _ => u32 PWM_Motor_Min }
  (s.motorsOff, 0)

/-- `PWM_Motor_Max = (21000000/freq-1)`, and the time base set to it. -/
def reload (s : Driver) (freq : ℤ) : Except Undefined Driver := do
  let PWM_Motor_Max ← sub (← div 21000000 freq) 1
  return { s with PWM_Motor_Max := PWM_Motor_Max }.timeBaseInit

def frequency (s : Driver) (freq : ℤ) (percentage : ℚ) : Except Undefined (Driver × ℤ) := do
  if freq = 0 ∨ percentage ≤ 0 then
    return (s.motorsOff, 0)
  else
    let percentage := if percentage > 100 then 100 else percentage
    let Fpercentage := percentage / 100
    let s ← s.reload freq
    let Fpercentage := Fpercentage * s.PWM_Motor_Max
    let s := s.store PWM1 (← floatToU32 Fpercentage)
    let s := s.store PWM2 (← floatToU32 Fpercentage)
    let s := s.store PWM3 (← floatToU32 Fpercentage)
    let s := s.store PWM4 (← floatToU32 Fpercentage)
    return (s, 1)

def setFreq (s : Driver) (freq : ℤ) : Except Undefined (Driver × ℤ) := do
  if freq < 1 then
    return (s.motorsOff, 0)
  else
    let s ← s.reload freq
    return (s, 1)

/-- `setMotor1F` to `setMotor4F`, for the compare register `PWM` of the motor. -/
def setMotorF (PWM : Compare) (s : Driver) (percentage : ℚ) : Except Undefined (Driver × ℤ) := do
  let percentage := if percentage < 0 then 0 else if percentage > 100 then 100 else percentage
  let Fpercentage := percentage / 100
  let Fpercentage := Fpercentage * s.PWM_Motor_Max
  return (s.store PWM (← floatToU32 Fpercentage), 1)

def setMotor1F := setMotorF PWM1
def setMotor2F := setMotorF PWM2
def setMotor3F := setMotorF PWM3
def setMotor4F := setMotorF PWM4

/-- `setMotor1I` to `setMotor4I`, for the compare register `PWM` of the motor. -/
def setMotorI (PWM : Compare) (s : Driver) (percentage : ℤ) : Except Undefined (Driver × ℤ) := do
  let percentage := if percentage < 0 then 0 else if percentage > 100 then 100 else percentage
  let ITemp ← div (← mul s.PWM_Motor_Max percentage) 100
  return (s.store PWM (u32 ITemp), 1)

def setMotor1I := setMotorI PWM1
def setMotor2I := setMotorI PWM2
def setMotor3I := setMotorI PWM3
def setMotor4I := setMotorI PWM4

end Driver

/-! ## Calls -/

/-- A call after initialization. -/
inductive Call where
  | frequency (freq : ℤ) (percentage : ℚ)
  | setFreq (freq : ℤ)
  | setMotor1F (percentage : ℚ)
  | setMotor2F (percentage : ℚ)
  | setMotor3F (percentage : ℚ)
  | setMotor4F (percentage : ℚ)
  | setMotor1I (percentage : ℤ)
  | setMotor2I (percentage : ℤ)
  | setMotor3I (percentage : ℤ)
  | setMotor4I (percentage : ℤ)

/-- The driver a call leaves, and the value it returns. -/
def Driver.apply (s : Driver) : Call → Except Undefined (Driver × ℤ)
  | .frequency freq percentage => s.frequency freq percentage
  | .setFreq freq => s.setFreq freq
  | .setMotor1F percentage => s.setMotor1F percentage
  | .setMotor2F percentage => s.setMotor2F percentage
  | .setMotor3F percentage => s.setMotor3F percentage
  | .setMotor4F percentage => s.setMotor4F percentage
  | .setMotor1I percentage => s.setMotor1I percentage
  | .setMotor2I percentage => s.setMotor2I percentage
  | .setMotor3I percentage => s.setMotor3I percentage
  | .setMotor4I percentage => s.setMotor4I percentage

/-- A step of a run, which stops at the first undefined operation. -/
def step (r : Except Undefined Driver) (c : Call) : Except Undefined Driver := do
  let s ← r
  return (← s.apply c).1

theorem step_ok {s : Driver} {c : Call} : step (.ok s) c = s.apply c >>= fun p => .ok p.1 := rfl

/-- The state after `initialize`, for any contents of the registers before. -/
def start (ARR : ℤ) (CCR : Compare → ℤ) : Except Undefined Driver :=
  .ok (Driver.init ⟨1050 - 1, ARR, CCR⟩).1

/-! ## What the functions do -/

section Functions

variable {s s' : Driver} {freq : ℤ} {percentage : ℚ} {r : Compare}

theorem motorsOff_eq : s.motorsOff = { s with CCR := fun _ => 0 } := by
  have hzero : u32 PWM_Motor_Min = 0 := rfl
  rw [Driver.motorsOff, hzero]
  simp only [Driver.store, Driver.mk.injEq, true_and]
  funext r
  cases r <;> rfl

theorem tdiv_mem : -21000000 ≤ Int.tdiv 21000000 freq ∧ Int.tdiv 21000000 freq ≤ 21000000 := by
  have h := Int.natAbs_tdiv_le_natAbs 21000000 freq
  omega

theorem reload_eq (hfreq : freq ≠ 0) : s.reload freq = .ok
    ⟨Int.tdiv 21000000 freq - 1, u16 (Int.tdiv 21000000 freq - 1), s.CCR⟩ := by
  obtain ⟨hlo, hhi⟩ := @tdiv_mem freq
  rw [Driver.reload, div_of_ne_zero hfreq, int32_of_mem (by omega) (by omega), ok_bind, sub,
    int32_of_mem (by omega) (by omega)]
  rfl

theorem frequency_of_off (h : freq = 0 ∨ percentage ≤ 0) :
    s.frequency freq percentage = .ok (s.motorsOff, 0) := by
  rw [Driver.frequency, if_pos h]
  rfl

/-- All four motors get the same duty. -/
theorem frequency_of_on (h : ¬(freq = 0 ∨ percentage ≤ 0)) : s.frequency freq percentage =
    floatToU32 ((if percentage > 100 then 100 else percentage) / 100 *
      (Int.tdiv 21000000 freq - 1 : ℤ)) >>= fun v =>
        .ok (⟨Int.tdiv 21000000 freq - 1, u16 (Int.tdiv 21000000 freq - 1), fun _ => v⟩, 1) := by
  rw [Driver.frequency, if_neg h]
  simp only [reload_eq fun hzero => h (.inl hzero), ok_bind]
  cases floatToU32 ((if percentage > 100 then 100 else percentage) / 100 *
      (Int.tdiv 21000000 freq - 1 : ℤ)) with
  | error e => rfl
  | ok v =>
    simp only [ok_bind, Driver.store]
    refine congrArg (fun CCR => Except.ok (Driver.mk _ _ CCR, 1)) (funext fun r => ?_)
    cases r <;> rfl

theorem setFreq_of_off (h : freq < 1) : s.setFreq freq = .ok (s.motorsOff, 0) := by
  rw [Driver.setFreq, if_pos h]
  rfl

theorem setFreq_of_on (h : ¬ freq < 1) : s.setFreq freq = .ok
    (⟨Int.tdiv 21000000 freq - 1, u16 (Int.tdiv 21000000 freq - 1), s.CCR⟩, 1) := by
  rw [Driver.setFreq, if_neg h, reload_eq (by omega)]
  rfl

/-- A duty between nothing and a full period. -/
theorem exists_duty {q : ℚ} {PWM_Motor_Max : ℤ} (hq0 : 0 ≤ q) (hq : q ≤ 100)
    (hmax : 0 ≤ PWM_Motor_Max) (hlt : PWM_Motor_Max < 2 ^ 32) :
    ∃ v, floatToU32 (q / 100 * PWM_Motor_Max) = .ok v ∧ 0 ≤ v ∧ v ≤ PWM_Motor_Max := by
  have hmax' : (0 : ℚ) ≤ PWM_Motor_Max := by exact_mod_cast hmax
  have hlt' : (PWM_Motor_Max : ℚ) < 2 ^ 32 := by exact_mod_cast hlt
  have hlo : 0 ≤ q / 100 * PWM_Motor_Max := by positivity
  have hhi : q / 100 * PWM_Motor_Max ≤ PWM_Motor_Max :=
    mul_le_of_le_one_left hmax' (by linarith)
  refine ⟨_, floatToU32_of_mem hlo (hhi.trans_lt hlt'), Int.floor_nonneg.mpr hlo, ?_⟩
  exact_mod_cast (Int.floor_le _).trans hhi

end Functions

/-! ## No overflow -/

section Bounded

variable {s : Driver} {freq : ℤ} {r : Compare}

/-- The quotients of the clock, less one. -/
def Bounded (s : Driver) : Prop := -21000001 ≤ s.PWM_Motor_Max ∧ s.PWM_Motor_Max ≤ 20999999

theorem bounded_reload {ARR : ℤ} {CCR : Compare → ℤ} :
    Bounded ⟨Int.tdiv 21000000 freq - 1, ARR, CCR⟩ := by
  obtain ⟨hlo, hhi⟩ := @tdiv_mem freq
  constructor <;> dsimp only <;> omega

theorem noOverflow_frequency (h : Bounded s) (percentage : ℚ) :
    NoOverflow (fun p => Bounded p.1) (s.frequency freq percentage) := by
  by_cases hoff : freq = 0 ∨ percentage ≤ 0
  · rw [frequency_of_off hoff, motorsOff_eq]
    exact h
  · rw [frequency_of_on hoff]
    exact noOverflow_floatToU32.bind fun _ _ => bounded_reload

theorem noOverflow_setFreq (h : Bounded s) :
    NoOverflow (fun p => Bounded p.1) (s.setFreq freq) := by
  by_cases hoff : freq < 1
  · rw [setFreq_of_off hoff, motorsOff_eq]
    exact h
  · rw [setFreq_of_on hoff]
    exact bounded_reload

theorem noOverflow_setMotorF (h : Bounded s) (percentage : ℚ) :
    NoOverflow (fun p => Bounded p.1) (s.setMotorF r percentage) :=
  noOverflow_floatToU32.bind fun _ _ => h

/-- The product with a percentage just fits. -/
theorem noOverflow_setMotorI (h : Bounded s) (percentage : ℤ) :
    NoOverflow (fun p => Bounded p.1) (s.setMotorI r percentage) := by
  obtain ⟨hlo, hhi⟩ := h
  have hclamp : ∀ p : ℤ, 0 ≤ p → p ≤ 100 → -2100000100 ≤ s.PWM_Motor_Max * p ∧
      s.PWM_Motor_Max * p ≤ 2099999900 := fun p h0 h100 => by
    constructor <;> nlinarith
  obtain ⟨hplo, hphi⟩ := hclamp
    (if percentage < 0 then 0 else if percentage > 100 then 100 else percentage)
    (by split_ifs <;> omega) (by split_ifs <;> omega)
  refine (noOverflow_int32 (by omega) (by omega)).bind fun v hv => ?_
  have hdiv := Int.natAbs_tdiv_le_natAbs v 100
  rw [div_of_ne_zero (by norm_num)]
  exact (noOverflow_int32 (by omega) (by omega)).bind fun _ _ => ⟨hlo, hhi⟩

theorem noOverflow_apply (h : Bounded s) (c : Call) :
    NoOverflow (fun p => Bounded p.1) (s.apply c) := by
  cases c with
  | frequency freq percentage => exact noOverflow_frequency h percentage
  | setFreq freq => exact noOverflow_setFreq h
  | setMotor1F percentage => exact noOverflow_setMotorF h percentage
  | setMotor2F percentage => exact noOverflow_setMotorF h percentage
  | setMotor3F percentage => exact noOverflow_setMotorF h percentage
  | setMotor4F percentage => exact noOverflow_setMotorF h percentage
  | setMotor1I percentage => exact noOverflow_setMotorI h percentage
  | setMotor2I percentage => exact noOverflow_setMotorI h percentage
  | setMotor3I percentage => exact noOverflow_setMotorI h percentage
  | setMotor4I percentage => exact noOverflow_setMotorI h percentage

theorem noOverflow_step {e : Except Undefined Driver} (h : NoOverflow Bounded e) (c : Call) :
    NoOverflow Bounded (step e c) := by
  cases e with
  | ok s =>
    rw [step_ok]
    exact (noOverflow_apply h c).bind fun _ hs => hs
  | error u => exact h

theorem noOverflow_run {ARR : ℤ} {CCR : Compare → ℤ} (calls : ℕ → Call) (k : ℕ) :
    NoOverflow Bounded (run step (start ARR CCR) calls k) :=
  run_invariant (I := NoOverflow Bounded)
    (by rw [start, Driver.init, motorsOff_eq]; constructor <;> norm_num [Driver.timeBaseInit])
    (fun _ c h => noOverflow_step h c) k

end Bounded

/-! ## Good states -/

/-- Period and variable agree, and no motor is asked for more than a period. -/
structure Good (s : Driver) : Prop where
  max : 0 ≤ s.PWM_Motor_Max
  period : s.ARR = s.PWM_Motor_Max
  compare : ∀ r, 0 ≤ s.CCR r ∧ s.CCR r ≤ s.ARR

/-- The call keeps a good state good: the period it sets fits the register, and the
    compare values fit the period unless they are set with it. -/
def Safe (s : Driver) : Call → Prop
  | .setFreq freq =>
    freq < 1 ∨ 321 ≤ freq ∧ freq ≤ 21000000 ∧ ∀ r, s.CCR r ≤ 21000000 / freq - 1
  | .frequency freq percentage =>
    freq = 0 ∨ percentage ≤ 0 ∨ 321 ≤ freq ∧ freq ≤ 21000000
  | _ => True

/-- A run has reached a state, and a good one. -/
def GoodAt (r : Except Undefined Driver) : Prop := ∃ s, r = .ok s ∧ Good s

/-- The call is safe in the state reached. -/
def SafeAt (r : Except Undefined Driver) (c : Call) : Prop := ∀ s, r = .ok s → Safe s c

section Good

variable {s : Driver} {freq : ℤ} {percentage : ℚ} {r : Compare}

theorem good_motorsOff (h : Good s) : Good s.motorsOff := by
  rw [motorsOff_eq]
  exact ⟨h.max, h.period, fun _ => ⟨le_rfl, h.period ▸ h.max⟩⟩

theorem good_store (h : Good s) {v : ℤ} (hlo : 0 ≤ v) (hhi : v ≤ s.PWM_Motor_Max) :
    Good (s.store r v) := by
  refine ⟨h.max, h.period, fun r' => ?_⟩
  by_cases hr : r' = r
  · subst hr
    simp only [Driver.store, Function.update_self]
    exact ⟨hlo, h.period ▸ hhi⟩
  · simp only [Driver.store, Function.update_of_ne hr]
    exact h.compare r'

theorem goodAt_ok {v : ℤ} :
    GoodAt ((.ok (s, v) : Except Undefined (Driver × ℤ)) >>= fun p => .ok p.1) ↔ Good s := by
  constructor
  · rintro ⟨_, heq, h⟩
    cases heq
    exact h
  · exact fun h => ⟨s, rfl, h⟩

/-- The frequencies whose period fits the register. -/
theorem period_fits_iff : (0 ≤ Int.tdiv 21000000 freq - 1 ∧
    u16 (Int.tdiv 21000000 freq - 1) = Int.tdiv 21000000 freq - 1) ↔
      321 ≤ freq ∧ freq ≤ 21000000 := by
  rw [u16_eq_self_iff]
  rcases lt_or_ge freq 1 with hneg | hpos
  · have hquot : Int.tdiv 21000000 freq ≤ 0 :=
      Int.tdiv_nonpos_of_nonneg_of_nonpos (by norm_num) (by omega)
    omega
  · rw [Int.tdiv_eq_ediv_of_nonneg (by norm_num)]
    constructor
    · rintro ⟨h0, -, h16⟩
      constructor
      · by_contra hlow
        have hquot : 65625 ≤ 21000000 / freq := (Int.le_ediv_iff_mul_le hpos).mpr (by omega)
        omega
      · by_contra hhigh
        have hquot : 21000000 / freq = 0 := Int.ediv_eq_zero_of_lt (by norm_num) (by omega)
        omega
    · rintro ⟨hlow, hhigh⟩
      have hone : 1 ≤ 21000000 / freq := (Int.le_ediv_iff_mul_le hpos).mpr (by omega)
      have hquot : 21000000 / freq < 65421 := (Int.ediv_lt_iff_lt_mul hpos).mpr (by omega)
      omega

theorem goodAt_setMotorF (h : Good s) (hb : Bounded s) :
    GoodAt (s.setMotorF r percentage >>= fun p => .ok p.1) := by
  obtain ⟨v, hv, hlo, hhi⟩ := exists_duty
    (q := if percentage < 0 then 0 else if percentage > 100 then 100 else percentage)
    (by split_ifs <;> linarith) (by split_ifs <;> linarith) h.max (by have := hb.2; omega)
  rw [Driver.setMotorF, hv]
  exact goodAt_ok.mpr (good_store h hlo hhi)

theorem goodAt_setMotorI (h : Good s) (hb : Bounded s) {percentage : ℤ} :
    GoodAt (s.setMotorI r percentage >>= fun p => .ok p.1) := by
  have hmax := h.max
  have hbound := hb.2
  have hclamp : ∀ p : ℤ, 0 ≤ p → p ≤ 100 → 0 ≤ s.PWM_Motor_Max * p ∧
      s.PWM_Motor_Max * p ≤ s.PWM_Motor_Max * 100 := fun p h0 h100 =>
    ⟨mul_nonneg hmax h0, mul_le_mul_of_nonneg_left h100 hmax⟩
  obtain ⟨hlo, hhi⟩ := hclamp
    (if percentage < 0 then 0 else if percentage > 100 then 100 else percentage)
    (by split_ifs <;> omega) (by split_ifs <;> omega)
  simp only [Driver.setMotorI, mul]
  rw [int32_of_mem (by omega) (by omega), ok_bind, div_of_ne_zero (by norm_num),
    Int.tdiv_eq_ediv_of_nonneg hlo, int32_of_mem (by omega) (by omega), ok_bind,
    u32_of_mem (by omega) (by omega)]
  exact goodAt_ok.mpr (good_store h (by omega) (by omega))

theorem goodAt_setFreq_iff (h : Good s) :
    GoodAt (s.setFreq freq >>= fun p => .ok p.1) ↔ Safe s (.setFreq freq) := by
  by_cases hoff : freq < 1
  · rw [setFreq_of_off hoff]
    exact iff_of_true (goodAt_ok.mpr (good_motorsOff h)) (.inl hoff)
  · rw [setFreq_of_on hoff, goodAt_ok, Safe, or_iff_right hoff, ← and_assoc, ← period_fits_iff,
      Int.tdiv_eq_ediv_of_nonneg (by norm_num)]
    constructor
    · rintro ⟨hmax, hperiod, hcompare⟩
      exact ⟨⟨hmax, hperiod⟩, fun r => (hcompare r).2.trans_eq hperiod⟩
    · rintro ⟨⟨hmax, hperiod⟩, hcompare⟩
      exact ⟨hmax, hperiod, fun r => ⟨(h.compare r).1, (hcompare r).trans_eq hperiod.symm⟩⟩

theorem goodAt_frequency_iff (h : Good s) :
    GoodAt (s.frequency freq percentage >>= fun p => .ok p.1) ↔
      Safe s (.frequency freq percentage) := by
  by_cases hoff : freq = 0 ∨ percentage ≤ 0
  · rw [frequency_of_off hoff]
    exact iff_of_true (goodAt_ok.mpr (good_motorsOff h)) (or_assoc.mp (.inl hoff))
  · have hpos := not_le.mp fun hle => hoff (.inr hle)
    rw [frequency_of_on hoff, Safe, ← or_assoc, or_iff_right hoff, ← period_fits_iff]
    constructor
    · intro hgood
      cases hv : floatToU32 ((if percentage > 100 then 100 else percentage) / 100 *
          (Int.tdiv 21000000 freq - 1 : ℤ)) with
      | error e =>
        rw [hv] at hgood
        obtain ⟨_, heq, _⟩ := hgood
        cases heq
      | ok v =>
        rw [hv] at hgood
        obtain ⟨hmax, hperiod, -⟩ := goodAt_ok.mp hgood
        exact ⟨hmax, hperiod⟩
    · rintro ⟨hmax, hperiod⟩
      obtain ⟨v, hv, hlo, hhi⟩ := exists_duty
        (q := if percentage > 100 then 100 else percentage)
        (by split_ifs <;> linarith) (by split_ifs <;> linarith) hmax
        (by have := (@tdiv_mem freq).2; omega)
      rw [hv]
      exact goodAt_ok.mpr ⟨hmax, hperiod, fun _ => ⟨hlo, hperiod.symm ▸ hhi⟩⟩

/-- A call keeps a good state good exactly when it is safe there. -/
theorem goodAt_step_iff (h : Good s) (hb : Bounded s) (c : Call) :
    GoodAt (step (.ok s) c) ↔ Safe s c := by
  rw [step_ok]
  cases c with
  | frequency freq percentage => exact goodAt_frequency_iff h
  | setFreq freq => exact goodAt_setFreq_iff h
  | setMotor1F percentage => exact iff_of_true (goodAt_setMotorF h hb) trivial
  | setMotor2F percentage => exact iff_of_true (goodAt_setMotorF h hb) trivial
  | setMotor3F percentage => exact iff_of_true (goodAt_setMotorF h hb) trivial
  | setMotor4F percentage => exact iff_of_true (goodAt_setMotorF h hb) trivial
  | setMotor1I percentage => exact iff_of_true (goodAt_setMotorI h hb) trivial
  | setMotor2I percentage => exact iff_of_true (goodAt_setMotorI h hb) trivial
  | setMotor3I percentage => exact iff_of_true (goodAt_setMotorI h hb) trivial
  | setMotor4I percentage => exact iff_of_true (goodAt_setMotorI h hb) trivial

theorem goodAt_start {ARR : ℤ} {CCR : Compare → ℤ} : GoodAt (start ARR CCR) := by
  refine ⟨_, rfl, ?_⟩
  rw [Driver.init, motorsOff_eq]
  exact ⟨by norm_num [Driver.timeBaseInit], by norm_num [Driver.timeBaseInit, u16],
    fun _ => ⟨le_rfl, by norm_num [Driver.timeBaseInit, u16]⟩⟩

end Good

/-! ## Runs -/

/-- All states of a run are good exactly when all its calls are safe where they are
    made, and no `int` operation of any run overflows. -/
theorem good_run_iff (ARR : ℤ) (CCR : Compare → ℤ) (calls : ℕ → Call) (n : ℕ) :
    ((∀ k ≤ n, GoodAt (run step (start ARR CCR) calls k)) ↔
        ∀ k < n, SafeAt (run step (start ARR CCR) calls k) (calls k)) ∧
      ∀ k, run step (start ARR CCR) calls k ≠ .error .intOverflow := by
  refine ⟨⟨fun hgood k hk s hs => ?_, fun hsafe k => ?_⟩, fun k heq => ?_⟩
  · obtain ⟨s', hs', hgs⟩ := hgood k hk.le
    obtain rfl : s' = s := Except.ok.inj (hs'.symm.trans hs)
    have hb : NoOverflow Bounded (.ok s') := hs ▸ noOverflow_run calls k
    have hnext := hgood (k + 1) hk
    rw [run_succ, hs] at hnext
    exact (goodAt_step_iff hgs hb _).mp hnext
  · induction k with
    | zero => exact fun _ => goodAt_start
    | succ k ih =>
      intro hk
      obtain ⟨s, hs, hgs⟩ := ih (by omega)
      have hb : NoOverflow Bounded (.ok s) := hs ▸ noOverflow_run calls k
      rw [run_succ, hs]
      exact (goodAt_step_iff hgs hb _).mpr (hsafe k hk s hs)
  · have hno : NoOverflow Bounded (run step (start ARR CCR) calls k) := noOverflow_run calls k
    rw [heq] at hno
    cases hno

/-- Unsafe calls. Full duty, and then a shorter period: the motor is asked for more
    than a period. A period that is cut to 16 bits. A negative frequency. -/
theorem good_run_fails :
    (∃ s, run step (start 0 fun _ => 0)
        (fun k => if k = 0 then .setMotor1I 100 else .setFreq 42000) 2 = .ok s ∧
      s.CCR PWM1 = 1049 ∧ s.ARR = 499) ∧
    (∃ s, run step (start 0 fun _ => 0) (fun _ => .setFreq 100) 1 = .ok s ∧
      s.PWM_Motor_Max = 209999 ∧ s.ARR = 13391) ∧
    ∃ s, run step (start 0 fun _ => 0) (fun _ => .frequency (-30000000) 50) 1 = .ok s ∧
      s.PWM_Motor_Max = -1 ∧ s.ARR = 65535 := by
  refine ⟨⟨_, rfl, rfl, rfl⟩, ⟨_, rfl, rfl, rfl⟩, ?_⟩
  have hduty : floatToU32 (50 / 100 * (-1 : ℤ)) = .ok 0 := by
    have htrunc : truncate (50 / 100 * (-1 : ℤ)) = 0 := by norm_num [truncate]
    rw [floatToU32, htrunc]
    rfl
  rw [run_succ, run_zero, start, step_ok, Driver.apply, frequency_of_on (by norm_num),
    if_neg (by norm_num), show Int.tdiv 21000000 (-30000000) - 1 = -1 from rfl, hduty]
  exact ⟨_, rfl, rfl, rfl⟩

end PwmRotor4
