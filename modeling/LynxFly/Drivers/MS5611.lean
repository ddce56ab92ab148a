-- SUMMARY: The MS5611 barometer driver of module_ms5611.c: reading the sensor and compensating the pressure.
import LynxFly.Base.CInt

/-!
# module_ms5611.c

The sensor has six calibration words of 16 bits and two results of 24 bits. It sends
each with the most significant byte first. `MS5611_ReadADC` puts the bytes together,
`MS5611_Calculate` evaluates the compensation formulas in the types of C.
-/

open CInt

namespace MS5611

/-! ## The driver -/

def POW_2_7 : ℤ := 128
def POW_2_8 : ℤ := 256
def POW_2_15 : ℤ := 32768
def POW_2_16 : ℤ := 65536
def POW_2_21 : ℤ := 2097152
def POW_2_23 : ℤ := 8388608

/-- `MS5611_ST`. The arrays are used from index 1 on. -/
structure ST where
  C : ℕ → ℤ
  D : ℕ → ℤ
  dT : ℤ
  rTemp : ℤ
  OFF : ℤ
  SENS : ℤ
  rPress : ℤ
  Temp : ℚ
  Press : ℚ
  High : ℚ

/-- What the sensor holds: the words `C 1` to `C 6`, and the results `D 1` and `D 2`. -/
structure Sensor where
  C : ℕ → BitVec 16
  D : ℕ → BitVec 24

namespace Sensor

/-- Byte `i` of a calibration word, in the order sent. -/
def readC (sensor : Sensor) (k i : ℕ) : ℕ := (sensor.C k).toNat / 2 ^ (8 * (1 - i)) % 2 ^ 8

/-- Byte `i` of a result. -/
def readD (sensor : Sensor) (k i : ℕ) : ℕ := (sensor.D k).toNat / 2 ^ (8 * (2 - i)) % 2 ^ 8

end Sensor

/-- `(u16)((ReadC[k][0] << 7) | ReadC[k][1])`. -/
def wordC (ReadC : ℕ → ℕ) : ℤ := u16 (ReadC 0 <<< 7 ||| ReadC 1 : ℕ)

/-- `(u32)((ReadD[k][0] << 15) | (ReadD[k][1] << 7) | ReadD[k][2])`. -/
def wordD (ReadD : ℕ → ℕ) : ℤ := u32 (ReadD 0 <<< 15 ||| ReadD 1 <<< 7 ||| ReadD 2 : ℕ)

/-- `MS5611_ReadADC`. -/
def readADC (sensor : Sensor) (COEFF : ST) : ST :=
  { COEFF with
    C := fun k => if 1 ≤ k ∧ k ≤ 6 then wordC (sensor.readC k) else COEFF.C k
    D := fun k => if 1 ≤ k ∧ k ≤ 2 then wordD (sensor.readD k) else COEFF.D k }

/-- `MS5611_Calculate`. -/
def calculate (COEFF : ST) : Except Undefined ST := do
  let dT := s32 (u32 (COEFF.D 2 - u32 (← mul (COEFF.C 5) POW_2_8)))
  let rTemp ← add 2000 (← div (← mul dT (COEFF.C 5)) POW_2_23)
  let OFF := u64 (← add (← mul (COEFF.C 2) POW_2_16) (← div (← mul (COEFF.C 4) dT) POW_2_7))
  let SENS := u64 (← add (← mul (COEFF.C 1) POW_2_15) (← div (← mul (COEFF.C 3) dT) POW_2_8))
  -- unsigned up to the conversion, which stands before the division
  let rPress ← div (s32 (u64 (u64 (COEFF.D 1 * SENS) / POW_2_21 - OFF))) POW_2_15
  return { COEFF with
    dT := dT
    rTemp := rTemp
    OFF := OFF
    SENS := SENS
    rPress := rPress
    Temp := rTemp / 100
    Press := rPress / 100
    High := (rPress - 101333) * 9.5238 }

/-! ## The formulas of the comments -/

section Formulas

variable (C D : ℕ → ℤ)

def dT : ℤ := D 2 - C 5 * 2 ^ 8
def rTemp : ℤ := 2000 + (dT C D * C 5).tdiv (2 ^ 23)
def OFF : ℤ := C 2 * 2 ^ 16 + (C 4 * dT C D).tdiv (2 ^ 7)
def SENS : ℤ := C 1 * 2 ^ 15 + (C 3 * dT C D).tdiv (2 ^ 8)
def rPress : ℤ := ((D 1 * SENS C D).tdiv (2 ^ 21) - OFF C D).tdiv (2 ^ 15)

/-- The results are the values of the formulas. -/
structure Compensated (s : ST) : Prop where
  dT : s.dT = dT C D
  rTemp : s.rTemp = rTemp C D
  OFF : s.OFF = OFF C D
  SENS : s.SENS = SENS C D
  rPress : s.rPress = rPress C D

/-- Every intermediate value of `MS5611_Calculate` fits the type C evaluates it in. -/
structure Representable : Prop where
  temp : -2 ^ 31 ≤ dT C D * C 5 ∧ dT C D * C 5 < 2 ^ 31
  offBase : C 2 < 2 ^ 15
  offSlope : -2 ^ 31 ≤ C 4 * dT C D ∧ C 4 * dT C D < 2 ^ 31
  off : 0 ≤ OFF C D ∧ OFF C D < 2 ^ 31
  sensSlope : -2 ^ 31 ≤ C 3 * dT C D ∧ C 3 * dT C D < 2 ^ 31
  sens : 0 ≤ SENS C D ∧ SENS C D < 2 ^ 31
  press : -2 ^ 31 ≤ (D 1 * SENS C D).tdiv (2 ^ 21) - OFF C D ∧
    (D 1 * SENS C D).tdiv (2 ^ 21) - OFF C D < 2 ^ 31

/-- The words and results are in the ranges of the sensor. -/
structure InRange : Prop where
  C_nonneg : ∀ k, 1 ≤ k → k ≤ 6 → 0 ≤ C k
  C_lt : ∀ k, 1 ≤ k → k ≤ 6 → C k < 2 ^ 16
  D_nonneg : ∀ k, 1 ≤ k → k ≤ 2 → 0 ≤ D k
  D_lt : ∀ k, 1 ≤ k → k ≤ 2 → D k < 2 ^ 24

end Formulas

/-! ## Compensating -/

section Calculate

variable {COEFF s : ST}

theorem dT_eq (h : InRange COEFF.C COEFF.D) :
    s32 (u32 (COEFF.D 2 - u32 (COEFF.C 5 * 256))) = dT COEFF.C COEFF.D := by
  have h1 := h.C_nonneg 5 (by decide) (by decide)
  have h2 := h.C_lt 5 (by decide) (by decide)
  have h3 := h.D_nonneg 2 (by decide) (by decide)
  have h4 := h.D_lt 2 (by decide) (by decide)
  rw [dT, s32, u32, u32]
  omega

/-- The values of `MS5611_Calculate` once none of its `int` operations overflows. -/
def results (COEFF : ST) : ST :=
  let rTemp := rTemp COEFF.C COEFF.D
  let rPress := (s32 (u64 (u64 (COEFF.D 1 * u64 (SENS COEFF.C COEFF.D)) / 2 ^ 21 -
    u64 (OFF COEFF.C COEFF.D)))).tdiv (2 ^ 15)
  { COEFF with
    dT := dT COEFF.C COEFF.D
    rTemp := rTemp
    OFF := u64 (OFF COEFF.C COEFF.D)
    SENS := u64 (SENS COEFF.C COEFF.D)
    rPress := rPress
    Temp := rTemp / 100
    Press := rPress / 100
    High := (rPress - 101333) * 9.5238 }

/-- No `int` operation of `MS5611_Calculate` overflows. -/
structure IntOk (C D : ℕ → ℤ) : Prop where
  temp : -2 ^ 31 ≤ dT C D * C 5 ∧ dT C D * C 5 < 2 ^ 31
  offBase : C 2 < 2 ^ 15
  offSlope : -2 ^ 31 ≤ C 4 * dT C D ∧ C 4 * dT C D < 2 ^ 31
  off : -2 ^ 31 ≤ OFF C D ∧ OFF C D < 2 ^ 31
  sensSlope : -2 ^ 31 ≤ C 3 * dT C D ∧ C 3 * dT C D < 2 ^ 31
  sens : -2 ^ 31 ≤ SENS C D ∧ SENS C D < 2 ^ 31

theorem calculate_eq_ok_iff (h : InRange COEFF.C COEFF.D) :
    calculate COEFF = .ok s ↔ IntOk COEFF.C COEFF.D ∧ s = results COEFF := by
  have hC1 := h.C_lt 1 (by decide) (by decide)
  have hC1' := h.C_nonneg 1 (by decide) (by decide)
  have hC2' := h.C_nonneg 2 (by decide) (by decide)
  have hC5 : mul (COEFF.C 5) POW_2_8 = .ok (COEFF.C 5 * 256) := by
    have := h.C_lt 5 (by decide) (by decide)
    have := h.C_nonneg 5 (by decide) (by decide)
    exact int32_of_mem (by rw [POW_2_8]; omega) (by rw [POW_2_8]; omega)
  rw [calculate, hC5, ok_bind, dT_eq h]
  constructor
  · intro hs
    simp only [mul, add, bind_eq_ok_iff, int32_eq_ok_iff] at hs
    obtain ⟨_, ⟨htemp, rfl⟩, _, hdiv, _, ⟨_, rfl⟩, _, ⟨hbase, rfl⟩, _, ⟨hslope, rfl⟩, _, hdivO, _,
      ⟨hoff, rfl⟩, _, ⟨_, rfl⟩, _, ⟨hslopeS, rfl⟩, _, hdivS, _, ⟨hsens, rfl⟩, _, hdivP, hs⟩ := hs
    rw [div_eq_ok_iff (by decide) htemp.1 htemp.2] at hdiv
    rw [div_eq_ok_iff (by decide) hslope.1 hslope.2] at hdivO
    rw [div_eq_ok_iff (by decide) hslopeS.1 hslopeS.2] at hdivS
    rw [div_eq_ok_iff (by decide) (by rw [s32]; omega) (by rw [s32]; omega)] at hdivP
    subst hdiv hdivO hdivS hdivP
    cases hs
    refine ⟨⟨htemp, ?_, hslope, hoff, hslopeS, hsens⟩, ?_⟩
    · rw [POW_2_16] at hbase
      omega
    · rfl
  · rintro ⟨hok, rfl⟩
    have htemp : -2 ^ 31 ≤ 2000 + (dT COEFF.C COEFF.D * COEFF.C 5).tdiv POW_2_23 ∧
        2000 + (dT COEFF.C COEFF.D * COEFF.C 5).tdiv POW_2_23 < 2 ^ 31 := by
      have hrange := hok.temp
      generalize dT COEFF.C COEFF.D * COEFF.C 5 = x at hrange
      have htdiv : x.tdiv 8388608 = if 0 ≤ x then x / 8388608 else -(-x / 8388608) :=
        tdiv_eq 8388608
      rw [POW_2_23]
      omega
    have hbase := hok.offBase
    simp only [mul, add, bind_eq_ok_iff, int32_eq_ok_iff]
    refine ⟨_, ⟨hok.temp, rfl⟩, _, (div_eq_ok_iff (by decide) hok.temp.1 hok.temp.2).mpr rfl,
      _, ⟨htemp, rfl⟩, _, ⟨?_, rfl⟩, _, ⟨hok.offSlope, rfl⟩,
      _, (div_eq_ok_iff (by decide) hok.offSlope.1 hok.offSlope.2).mpr rfl,
      _, ⟨hok.off, rfl⟩, _, ⟨?_, rfl⟩, _, ⟨hok.sensSlope, rfl⟩,
      _, (div_eq_ok_iff (by decide) hok.sensSlope.1 hok.sensSlope.2).mpr rfl,
      _, ⟨hok.sens, rfl⟩, _, (div_eq_ok_iff (by decide) ?_ ?_).mpr rfl, rfl⟩
    · rw [POW_2_16]
      omega
    · rw [POW_2_15]
      omega
    · rw [s32]
      omega
    · rw [s32]
      omega

/-- With the readings of the sensor, the unsigned part of the pressure is a
    difference of natural numbers, if the two sums are. -/
theorem s32_press (h : InRange COEFF.C COEFF.D) {x y : ℤ} (hx : 0 ≤ x) (hx' : x < 2 ^ 31)
    (hy : 0 ≤ y) (hy' : y < 2 ^ 31) :
    s32 (u64 (u64 (COEFF.D 1 * u64 x) / 2 ^ 21 - u64 y)) =
      s32 ((COEFF.D 1 * x).tdiv (2 ^ 21) - y) := by
  have hD := h.D_nonneg 1 (by decide) (by decide)
  have hD' := h.D_lt 1 (by decide) (by decide)
  have hprod : 0 ≤ COEFF.D 1 * x := Int.mul_nonneg hD hx
  have hprod' : COEFF.D 1 * x < 2 ^ 64 := by
    calc COEFF.D 1 * x ≤ 2 ^ 24 * 2 ^ 31 := Int.mul_le_mul hD'.le hx'.le hx (by norm_num)
      _ < 2 ^ 64 := by norm_num
  rw [u64_of_mem hx (by omega), u64_of_mem hy (by omega), u64_of_mem hprod hprod', s32_u64,
    Int.tdiv_eq_ediv_of_nonneg hprod]

/-- The formulas are evaluated as they stand exactly when every intermediate value fits
    its type. -/
theorem calculate_compensated_iff (h : InRange COEFF.C COEFF.D) :
    (∃ s, calculate COEFF = .ok s ∧ Compensated COEFF.C COEFF.D s) ↔
      Representable COEFF.C COEFF.D := by
  simp only [calculate_eq_ok_iff h]
  constructor
  · rintro ⟨s, ⟨hok, rfl⟩, hcomp⟩
    have hoff : u64 (OFF COEFF.C COEFF.D) = OFF COEFF.C COEFF.D := hcomp.OFF
    have hsens : u64 (SENS COEFF.C COEFF.D) = SENS COEFF.C COEFF.D := hcomp.SENS
    have hoff0 : 0 ≤ OFF COEFF.C COEFF.D := hoff ▸ Int.emod_nonneg _ (by norm_num)
    have hsens0 : 0 ≤ SENS COEFF.C COEFF.D := hsens ▸ Int.emod_nonneg _ (by norm_num)
    refine ⟨hok.temp, hok.offBase, hok.offSlope, ⟨hoff0, hok.off.2⟩, hok.sensSlope,
      ⟨hsens0, hok.sens.2⟩, ?_⟩
    have hpress : (s32 (u64 (u64 (COEFF.D 1 * u64 (SENS COEFF.C COEFF.D)) / 2 ^ 21 -
        u64 (OFF COEFF.C COEFF.D)))).tdiv (2 ^ 15) = rPress COEFF.C COEFF.D := hcomp.rPress
    rw [s32_press h hsens0 hok.sens.2 hoff0 hok.off.2, rPress] at hpress
    generalize (COEFF.D 1 * SENS COEFF.C COEFF.D).tdiv (2 ^ 21) - OFF COEFF.C COEFF.D = x
      at hpress ⊢
    -- a wrap moves the quotient by a multiple of 2^17
    rw [show (2 : ℤ) ^ 15 = (32768 : ℕ) by norm_num, tdiv_eq, tdiv_eq, s32] at hpress
    omega
  · intro hr
    obtain ⟨hoff0, hoff1⟩ := hr.off
    obtain ⟨hsens0, hsens1⟩ := hr.sens
    refine ⟨results COEFF, ⟨⟨hr.temp, hr.offBase, hr.offSlope, ⟨by omega, hoff1⟩,
      hr.sensSlope, ⟨by omega, hsens1⟩⟩, rfl⟩, rfl, rfl, ?_, ?_, ?_⟩
    · exact u64_of_mem hoff0 (by omega)
    · exact u64_of_mem hsens0 (by omega)
    · change (s32 (u64 (u64 (COEFF.D 1 * u64 (SENS COEFF.C COEFF.D)) / 2 ^ 21 -
        u64 (OFF COEFF.C COEFF.D)))).tdiv (2 ^ 15) = _
      rw [s32_press h hsens0 hsens1 hoff0 hoff1, s32_of_mem hr.press.1 hr.press.2]
      rfl

end Calculate

/-! ## Reading the sensor -/

section Read

variable {sensor : Sensor} {COEFF : ST}

theorem or_le_add (a b : ℕ) : a ||| b ≤ a + b := by
  induction a using Nat.strong_induction_on generalizing b with
  | h a ih =>
    rcases Nat.eq_zero_or_pos a with rfl | ha
    · rw [Nat.zero_or, Nat.zero_add]
    · have hdiv : (a ||| b) / 2 = a / 2 ||| b / 2 := Nat.or_div_two
      have hhalf := ih (a / 2) (by omega) (b / 2)
      have hmod : (a ||| b) % 2 = 1 ↔ a % 2 = 1 ∨ b % 2 = 1 := Nat.or_mod_two_eq_one
      omega

/-- The words and results, as numbers. -/
def Sensor.c (sensor : Sensor) (k : ℕ) : ℤ := (sensor.C k).toNat
def Sensor.d (sensor : Sensor) (k : ℕ) : ℤ := (sensor.D k).toNat

theorem c_nonneg (k : ℕ) : 0 ≤ sensor.c k := Int.natCast_nonneg _

/-- Shifted by seven bits, a high byte is lost unless it is zero. -/
theorem wordC_eq_iff (k : ℕ) : wordC (sensor.readC k) = sensor.c k ↔ sensor.c k < 2 ^ 8 := by
  have hlt := (sensor.C k).isLt
  have hc : sensor.c k = (sensor.C k).toNat := rfl
  have hread : wordC (sensor.readC k) = u16 (((sensor.C k).toNat / 2 ^ 8 % 2 ^ 8) <<< 7 |||
    (sensor.C k).toNat % 2 ^ 8 : ℕ) := by simp [wordC, Sensor.readC]
  rw [hread, hc]
  generalize (sensor.C k).toNat = w at hlt ⊢
  have hor := or_le_add ((w / 2 ^ 8 % 2 ^ 8) <<< 7) (w % 2 ^ 8)
  rw [Nat.shiftLeft_eq] at hor
  constructor
  · intro heq
    rw [u16, Nat.shiftLeft_eq] at heq
    omega
  · intro hw
    have hhigh : w / 2 ^ 8 % 2 ^ 8 = 0 := by omega
    rw [hhigh, Nat.zero_shiftLeft, Nat.zero_or, u16]
    omega

theorem wordD_eq_iff (k : ℕ) : wordD (sensor.readD k) = sensor.d k ↔ sensor.d k < 2 ^ 8 := by
  have hlt := (sensor.D k).isLt
  have hd : sensor.d k = (sensor.D k).toNat := rfl
  have hread : wordD (sensor.readD k) = u32 (((sensor.D k).toNat / 2 ^ 16 % 2 ^ 8) <<< 15 |||
    ((sensor.D k).toNat / 2 ^ 8 % 2 ^ 8) <<< 7 ||| (sensor.D k).toNat % 2 ^ 8 : ℕ) := by
    simp [wordD, Sensor.readD]
  rw [hread, hd]
  generalize (sensor.D k).toNat = w at hlt ⊢
  have hor := or_le_add ((w / 2 ^ 16 % 2 ^ 8) <<< 15 ||| (w / 2 ^ 8 % 2 ^ 8) <<< 7) (w % 2 ^ 8)
  have hor' := or_le_add ((w / 2 ^ 16 % 2 ^ 8) <<< 15) ((w / 2 ^ 8 % 2 ^ 8) <<< 7)
  rw [Nat.shiftLeft_eq, Nat.shiftLeft_eq] at hor hor'
  constructor
  · intro heq
    rw [u32, Nat.shiftLeft_eq, Nat.shiftLeft_eq] at heq
    omega
  · intro hw
    have hhigh : w / 2 ^ 16 % 2 ^ 8 = 0 := by omega
    have hmid : w / 2 ^ 8 % 2 ^ 8 = 0 := by omega
    rw [hhigh, hmid, Nat.zero_shiftLeft, Nat.zero_shiftLeft, Nat.or_self, Nat.zero_or, u32]
    omega

theorem wordD_lt (k : ℕ) : wordD (sensor.readD k) < 2 ^ 24 := by
  have hor := or_le_add ((sensor.readD k 0) <<< 15 ||| (sensor.readD k 1) <<< 7) (sensor.readD k 2)
  have hor' := or_le_add ((sensor.readD k 0) <<< 15) ((sensor.readD k 1) <<< 7)
  have h0 : sensor.readD k 0 < 2 ^ 8 := Nat.mod_lt _ (by norm_num)
  have h1 : sensor.readD k 1 < 2 ^ 8 := Nat.mod_lt _ (by norm_num)
  have h2 : sensor.readD k 2 < 2 ^ 8 := Nat.mod_lt _ (by norm_num)
  rw [Nat.shiftLeft_eq, Nat.shiftLeft_eq] at hor hor'
  rw [wordD, u32, Nat.shiftLeft_eq, Nat.shiftLeft_eq]
  omega

theorem readADC_C {k : ℕ} (h1 : 1 ≤ k) (h6 : k ≤ 6) :
    (readADC sensor COEFF).C k = wordC (sensor.readC k) := if_pos ⟨h1, h6⟩

theorem readADC_D {k : ℕ} (h1 : 1 ≤ k) (h2 : k ≤ 2) :
    (readADC sensor COEFF).D k = wordD (sensor.readD k) := if_pos ⟨h1, h2⟩

theorem readADC_inRange : InRange (readADC sensor COEFF).C (readADC sensor COEFF).D := by
  constructor
  · intro k h1 h6
    rw [readADC_C h1 h6]
    exact Int.emod_nonneg _ (by norm_num)
  · intro k h1 h6
    rw [readADC_C h1 h6]
    exact Int.emod_lt_of_pos _ (by norm_num)
  · intro k h1 h2
    rw [readADC_D h1 h2]
    exact Int.emod_nonneg _ (by norm_num)
  · intro k h1 h2
    rw [readADC_D h1 h2]
    exact wordD_lt k

/-- The arrays hold the words and results of the sensor. -/
structure Exact (sensor : Sensor) (s : ST) : Prop where
  C : ∀ k, 1 ≤ k → k ≤ 6 → s.C k = sensor.c k
  D : ∀ k, 1 ≤ k → k ≤ 2 → s.D k = sensor.d k

/-- The formulas read the words and results only. -/
theorem Exact.formulas {s : ST} (h : Exact sensor s) : dT s.C s.D = dT sensor.c sensor.d ∧
    rTemp s.C s.D = rTemp sensor.c sensor.d ∧ OFF s.C s.D = OFF sensor.c sensor.d ∧
    SENS s.C s.D = SENS sensor.c sensor.d ∧ rPress s.C s.D = rPress sensor.c sensor.d := by
  have h1 := h.C 1 (by decide) (by decide)
  have h2 := h.C 2 (by decide) (by decide)
  have h3 := h.C 3 (by decide) (by decide)
  have h4 := h.C 4 (by decide) (by decide)
  have h5 := h.C 5 (by decide) (by decide)
  have hD1 := h.D 1 (by decide) (by decide)
  have hD2 := h.D 2 (by decide) (by decide)
  simp only [dT, rTemp, OFF, SENS, rPress, h1, h2, h3, h4, h5, hD1, hD2, and_self]

/-- Every high byte is zero, and the slopes are not larger than the bases they are
    subtracted from. -/
structure Small (C D : ℕ → ℤ) : Prop where
  C_lt : ∀ k, 1 ≤ k → k ≤ 6 → C k < 2 ^ 8
  D_lt : ∀ k, 1 ≤ k → k ≤ 2 → D k < 2 ^ 8
  off : C 4 * (C 5 * 2 ^ 8 - D 2) < C 2 * 2 ^ 23 + 2 ^ 7
  sens : C 3 * (C 5 * 2 ^ 8 - D 2) < C 1 * 2 ^ 23 + 2 ^ 8

/-- Without the high bytes a slope is far from the ends of an `int`. -/
theorem slope_mem {a x : ℤ} (ha : 0 ≤ a) (ha' : a < 2 ^ 8) (hx : -2 ^ 16 ≤ x) (hx' : x < 2 ^ 8) :
    -2 ^ 24 ≤ a * x ∧ a * x < 2 ^ 16 := by
  constructor
  · nlinarith
  · nlinarith

theorem tdiv_128 (x : ℤ) : x.tdiv (2 ^ 7) = if 0 ≤ x then x / 128 else -(-x / 128) := tdiv_eq 128

theorem tdiv_256 (x : ℤ) : x.tdiv (2 ^ 8) = if 0 ≤ x then x / 256 else -(-x / 256) := tdiv_eq 256

theorem OFF_nonneg_iff {C D : ℕ → ℤ} (hC : 0 ≤ C 2) :
    0 ≤ OFF C D ↔ C 4 * (C 5 * 2 ^ 8 - D 2) < C 2 * 2 ^ 23 + 2 ^ 7 := by
  have hneg : C 4 * (C 5 * 2 ^ 8 - D 2) = -(C 4 * dT C D) := by
    rw [dT]
    ring
  rw [OFF, hneg, tdiv_128]
  omega

theorem SENS_nonneg_iff {C D : ℕ → ℤ} (hC : 0 ≤ C 1) :
    0 ≤ SENS C D ↔ C 3 * (C 5 * 2 ^ 8 - D 2) < C 1 * 2 ^ 23 + 2 ^ 8 := by
  have hneg : C 3 * (C 5 * 2 ^ 8 - D 2) = -(C 3 * dT C D) := by
    rw [dT]
    ring
  rw [SENS, hneg, tdiv_256]
  omega

theorem Small.representable {C D : ℕ → ℤ} (h : Small C D) (hr : InRange C D) :
    Representable C D := by
  have hC1 := h.C_lt 1 (by decide) (by decide)
  have hC2 := h.C_lt 2 (by decide) (by decide)
  have hC5 := h.C_lt 5 (by decide) (by decide)
  have hC1' := hr.C_nonneg 1 (by decide) (by decide)
  have hC2' := hr.C_nonneg 2 (by decide) (by decide)
  have hC5' := hr.C_nonneg 5 (by decide) (by decide)
  have hD1 := h.D_lt 1 (by decide) (by decide)
  have hD1' := hr.D_nonneg 1 (by decide) (by decide)
  have hD2 := h.D_lt 2 (by decide) (by decide)
  have hD2' := hr.D_nonneg 2 (by decide) (by decide)
  have hT : -2 ^ 16 ≤ dT C D := by
    rw [dT]
    omega
  have hT' : dT C D < 2 ^ 8 := by
    rw [dT]
    omega
  have htemp := slope_mem hC5' hC5 hT hT'
  have hoff := slope_mem (hr.C_nonneg 4 (by decide) (by decide)) (h.C_lt 4 (by decide) (by decide))
    hT hT'
  have hsens := slope_mem (hr.C_nonneg 3 (by decide) (by decide)) (h.C_lt 3 (by decide) (by decide))
    hT hT'
  have hO : 0 ≤ OFF C D := (OFF_nonneg_iff hC2').mpr h.off
  have hS : 0 ≤ SENS C D := (SENS_nonneg_iff hC1').mpr h.sens
  have hO' : OFF C D < 2 ^ 25 := by
    rw [OFF, tdiv_128]
    omega
  have hS' : SENS C D < 2 ^ 24 := by
    rw [SENS, tdiv_256]
    omega
  have hprod : 0 ≤ D 1 * SENS C D := Int.mul_nonneg hD1' hS
  have hprod' : D 1 * SENS C D ≤ 2 ^ 8 * 2 ^ 24 := Int.mul_le_mul hD1.le hS'.le hS (by norm_num)
  constructor
  · rw [Int.mul_comm]
    omega
  · omega
  · omega
  · omega
  · omega
  · omega
  · rw [Int.tdiv_eq_ediv_of_nonneg hprod]
    omega

/-- So does what is said of their results. -/
theorem Exact.compensated_iff {s s' : ST} (h : Exact sensor s) :
    Compensated s.C s.D s' ↔ Compensated sensor.c sensor.d s' := by
  obtain ⟨hT, hrT, hO, hS, hP⟩ := h.formulas
  constructor
  · intro hcomp
    exact ⟨hcomp.dT.trans hT, hcomp.rTemp.trans hrT, hcomp.OFF.trans hO, hcomp.SENS.trans hS,
      hcomp.rPress.trans hP⟩
  · intro hcomp
    exact ⟨hcomp.dT.trans hT.symm, hcomp.rTemp.trans hrT.symm, hcomp.OFF.trans hO.symm,
      hcomp.SENS.trans hS.symm, hcomp.rPress.trans hP.symm⟩

theorem Exact.small {s : ST} (h : Exact sensor s) (hsmall : Small sensor.c sensor.d) :
    Small s.C s.D := by
  have h1 := h.C 1 (by decide) (by decide)
  have h2 := h.C 2 (by decide) (by decide)
  have h3 := h.C 3 (by decide) (by decide)
  have h4 := h.C 4 (by decide) (by decide)
  have h5 := h.C 5 (by decide) (by decide)
  have hD2 := h.D 2 (by decide) (by decide)
  constructor
  · intro k hk hk'
    rw [h.C k hk hk']
    exact hsmall.C_lt k hk hk'
  · intro k hk hk'
    rw [h.D k hk hk']
    exact hsmall.D_lt k hk hk'
  · rw [h2, h4, h5, hD2]
    exact hsmall.off
  · rw [h1, h3, h5, hD2]
    exact hsmall.sens

/-- The arrays hold the words and results exactly when these fit one byte. -/
theorem exact_readADC_iff : Exact sensor (readADC sensor COEFF) ↔
    (∀ k, 1 ≤ k → k ≤ 6 → sensor.c k < 2 ^ 8) ∧ ∀ k, 1 ≤ k → k ≤ 2 → sensor.d k < 2 ^ 8 := by
  constructor
  · intro h
    constructor
    · intro k h1 h6
      rw [← wordC_eq_iff, ← readADC_C h1 h6]
      exact h.C k h1 h6
    · intro k h1 h2
      rw [← wordD_eq_iff, ← readADC_D h1 h2]
      exact h.D k h1 h2
  · rintro ⟨hC, hD⟩
    constructor
    · intro k h1 h6
      rw [readADC_C h1 h6]
      exact (wordC_eq_iff k).mpr (hC k h1 h6)
    · intro k h1 h2
      rw [readADC_D h1 h2]
      exact (wordD_eq_iff k).mpr (hD k h1 h2)

/-- Reading and compensating gives the value of the formulas exactly for the sensors all
    of whose words and results fit one byte, and whose two sums are not negative. -/
theorem readADC_calculate_iff (sensor : Sensor) (COEFF : ST) :
    (∃ s, calculate (readADC sensor COEFF) = .ok s ∧ Exact sensor s ∧
      Compensated sensor.c sensor.d s) ↔ Small sensor.c sensor.d := by
  have hr : InRange (readADC sensor COEFF).C (readADC sensor COEFF).D := readADC_inRange
  constructor
  · rintro ⟨s, hs, hE, hcomp⟩
    obtain ⟨-, rfl⟩ := (calculate_eq_ok_iff hr).mp hs
    have hE' : Exact sensor (readADC sensor COEFF) := ⟨hE.C, hE.D⟩
    obtain ⟨hC, hD⟩ := exact_readADC_iff.mp hE'
    have hrep := (calculate_compensated_iff hr).mp ⟨_, hs, hE'.compensated_iff.mpr hcomp⟩
    obtain ⟨-, -, hO, hS, -⟩ := hE'.formulas
    refine ⟨hC, hD, ?_, ?_⟩
    · rw [← OFF_nonneg_iff (c_nonneg 2), ← hO]
      exact hrep.off.1
    · rw [← SENS_nonneg_iff (c_nonneg 1), ← hS]
      exact hrep.sens.1
  · intro hsmall
    have hE : Exact sensor (readADC sensor COEFF) :=
      exact_readADC_iff.mpr ⟨hsmall.C_lt, hsmall.D_lt⟩
    have hrep := (hE.small hsmall).representable hr
    obtain ⟨s, hs, hcomp⟩ := (calculate_compensated_iff hr).mpr hrep
    obtain ⟨-, rfl⟩ := (calculate_eq_ok_iff hr).mp hs
    exact ⟨_, hs, ⟨hE.C, hE.D⟩, hE.compensated_iff.mp hcomp⟩

/-- A sensor as it leaves the factory: no word or result fits one byte. -/
def typicalSensor : Sensor where
  C k := [0, 40127, 36924, 23317, 23282, 33464, 28312].getD k 0
  D k := [0, 9085466, 8569150].getD k 0

/-- `Baro` before the first reading. -/
def clearedST : ST := ⟨fun _ => 0, fun _ => 0, 0, 0, 0, 0, 0, 0, 0, 0⟩

theorem typicalSensor_not_exact : ¬ ∃ s,
    calculate (readADC typicalSensor clearedST) = .ok s ∧ Exact typicalSensor s ∧
      Compensated typicalSensor.c typicalSensor.d s := by
  rintro ⟨s, hs, hE, -⟩
  obtain ⟨-, rfl⟩ := (calculate_eq_ok_iff readADC_inRange).mp hs
  have hword : wordC (typicalSensor.readC 1) = typicalSensor.c 1 := hE.C 1 (by decide) (by decide)
  exact absurd hword (by decide)

end Read

end MS5611
