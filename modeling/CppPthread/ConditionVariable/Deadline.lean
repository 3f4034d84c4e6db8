import CppPthread.Exceptions

set_option autoImplicit false

/-! # Deadlines and the status of a timed wait

`condition_variable` turns a delay in milliseconds into an absolute time (`deadline`, the
arithmetic of the private method `milliseconds`) and the return code of
`pthread_cond_timedwait` into a `cv_status` (`timedwaitStatus`, the `switch` that both
overloads of `wait_for` contain).

The arithmetic uses the truncating division and remainder of C++. The total it computes is the
clock plus the delay for delays of either sign (`deadline_nanos`); that the nanosecond part
is in range needs a delay that is not negative (`deadline_valid`).
-/

namespace CppPthread

open Posix

/-- `cv_status`. -/
inductive CvStatus where
  | noTimeout
  | timedout
  deriving DecidableEq

/-- The absolute time that `milliseconds` stores, for a clock reading `now`. -/
def deadline (now : Timeval) (millis : Int) : Timespec :=
  let seconds := millis.tdiv 1000
  let nanos := now.tvUsec * 1000 + millis.tmod 1000 * 1000000
  ⟨now.tvSec + (seconds + nanos.tdiv 1000000000), nanos.tmod 1000000000⟩

/-- `condition_variable::milliseconds`, where `now` is what `gettimeofday` delivers. -/
def milliseconds (now : Option Timeval) (millis : Int) : Except PthreadException Timespec :=
  match now with
  | some now => .ok (deadline now millis)
  | none => .error (conditionVariableException "failed to get current time." 0)

/-- The status that both overloads of `wait_for` make of the return code of
`pthread_cond_timedwait`. -/
def timedwaitStatus (rc : Int) : Except PthreadException CvStatus :=
  if rc = ETIMEDOUT then .ok .timedout
  else if rc = EINVAL then
    .error (conditionVariableException "The value specified by abstime is invalid." rc)
  else if rc = EPERM then
    .error (conditionVariableException
      "The mutex was not owned by the current thread at the time of the call." rc)
  else .ok .noTimeout

@[simp] theorem timedwaitStatus_etimedout : timedwaitStatus ETIMEDOUT = .ok .timedout := rfl

@[simp] theorem timedwaitStatus_zero : timedwaitStatus 0 = .ok .noTimeout := rfl

theorem timedwaitStatus_eq_timedout {rc : Int} :
    timedwaitStatus rc = .ok .timedout ↔ rc = ETIMEDOUT := by
  constructor
  · intro h
    unfold timedwaitStatus at h
    split_ifs at h with h1
    · exact h1
    · cases h
  · rintro rfl
    rfl

/-- The deadline is the clock plus the delay. -/
theorem deadline_nanos (now : Timeval) (millis : Int) :
    (deadline now millis).nanos = now.nanos + millis * 1000000 := by
  simp only [deadline, Timespec.nanos, Timeval.nanos]
  have h1 := Int.mul_tdiv_add_tmod millis 1000
  have h2 := Int.mul_tdiv_add_tmod (now.tvUsec * 1000 + millis.tmod 1000 * 1000000) 1000000000
  omega

theorem deadline_valid (now : Timeval) {millis : Int} (h : 0 ≤ millis) :
    (deadline now millis).valid := by
  have hr : 0 ≤ millis.tmod 1000 := Int.tmod_nonneg 1000 h
  have hu := now.usec_nonneg
  constructor
  · exact Int.tmod_nonneg _ (by omega)
  · exact Int.tmod_lt_of_pos _ (by decide)

end CppPthread
