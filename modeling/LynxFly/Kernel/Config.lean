-- SUMMARY: The limits, status codes and the assertion of the kernel.
import Mathlib.Data.Int.Notation
import Mathlib.Data.Nat.Notation

/-!
# The kernel's configuration

What `rtconfig.h`, `rtdef.h` and `rtdebug.h` give all its parts, and a constant of `mem.c`.
-/

namespace Kernel

def RT_ALIGN_SIZE : ℕ := 4

/-- The smallest piece of memory handed out. -/
def MIN_SIZE : ℕ := 12

def RT_THREAD_PRIORITY_MAX : ℕ := 32
def RT_TICK_MAX : ℕ := 0xffffffff
def RT_EOK : ℤ := 0
def RT_ERROR : ℤ := 1
def RT_ETIMEOUT : ℤ := 2

/-- A failed assertion never returns. -/
def RT_ASSERT (c : Prop) [Decidable c] : Option Unit := if c then some () else none

end Kernel
