import Mathlib.Data.Int.Order.Basic
import Mathlib.Tactic.Common

set_option autoImplicit false

/-! # Error numbers and clock values

The return values of the pthread functions are integers: `0` for success, an error number
otherwise. The numbers are those of Linux; only that they are positive and distinct matters.

`Timeval` is a reading of `gettimeofday`: its microsecond part is always below one second, and
the structure carries that. `Timespec` is what `pthread_cond_timedwait` takes; nothing keeps
its nanosecond part in range, so `Timespec.valid` is a property and not a field.
-/

namespace Posix

/-! ## Error numbers -/

def EPERM : Int := 1
def ESRCH : Int := 3
def EINVAL : Int := 22
def EDEADLK : Int := 35
def ETIMEDOUT : Int := 110

/-! ## Clock values -/

/-- A reading of the clock. -/
structure Timeval where
  tvSec : Int
  tvUsec : Int
  usec_nonneg : 0 ≤ tvUsec
  usec_lt : tvUsec < 1000000
  deriving DecidableEq

/-- A point in time with nanoseconds. -/
structure Timespec where
  tvSec : Int
  tvNsec : Int
  deriving DecidableEq

/-- The reading in nanoseconds. -/
def Timeval.nanos (t : Timeval) : Int := t.tvSec * 1000000000 + t.tvUsec * 1000

/-- The point in time in nanoseconds. -/
def Timespec.nanos (t : Timespec) : Int := t.tvSec * 1000000000 + t.tvNsec

/-- The nanoseconds are in the range that `pthread_cond_timedwait` accepts. -/
def Timespec.valid (t : Timespec) : Prop := 0 ≤ t.tvNsec ∧ t.tvNsec < 1000000000

instance (t : Timespec) : Decidable t.valid := inferInstanceAs (Decidable (_ ∧ _))

/-- The clock at its origin. -/
def Timeval.zero : Timeval := ⟨0, 0, by decide, by decide⟩

end Posix
