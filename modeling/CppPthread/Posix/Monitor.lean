import CppPthread.Posix.Time
import Mathlib.Data.Fintype.Basic
import Mathlib.Data.Finset.Basic

set_option autoImplicit false

/-! # A mutex with condition variables

The threads of a program that share one mutex and the condition variables used with it. A
thread is outside, queued for the mutex, running with the mutex, blocked on a condition
variable, or woken and queued for the mutex again (`Frame`). What the thread does next is the
program's own data, `k : K`; this file does not look at it.

The operations are the pthread calls as POSIX describes them. A wait releases the mutex and
blocks in one step. A signal unblocks at least one of the threads blocked on the variable, if
there are any, a broadcast all of them. A blocked thread may also wake up spuriously, and with
`ETIMEDOUT` once the clock has reached the absolute time it was given. Nothing orders the
threads that are queued for the mutex.

One thing is assumed beyond POSIX: the wait of a thread that a signal has unblocked returns `0`.
POSIX lets a timed wait that returns `ETIMEDOUT` use up a signal that comes at the same time.

`Excl` is mutual exclusion: the threads with a running frame are exactly the owner of the
mutex. Every operation keeps it.
-/

namespace Posix

/-- Where a thread stands with respect to the mutex. -/
inductive Frame (Cv K : Type) where
  /-- It neither holds the mutex nor waits for it. -/
  | outside
  /-- In `pthread_mutex_lock`. -/
  | locking (k : K)
  /-- It holds the mutex. -/
  | running (k : K)
  /-- In a condition wait, with no wakeup delivered. -/
  | blocked (cv : Cv) (abstime : Option Timespec) (k : K)
  /-- In a condition wait that will return `rc` when the mutex is free. -/
  | woken (cv : Cv) (rc : Int) (k : K)
  deriving DecidableEq

section Frame

variable {Cv K : Type}

def Frame.isRunning : Frame Cv K → Bool
  | .running _ => true
  | _ => false

def Frame.isBlockedOn [DecidableEq Cv] (cv : Cv) : Frame Cv K → Bool
  | .blocked cv' _ _ => cv' = cv
  | _ => false

/-- It is outside, or blocked with no wakeup delivered. -/
def Frame.atRest : Frame Cv K → Bool
  | .outside => true
  | .blocked _ _ _ => true
  | _ => false

/-- The program data of a thread that is not outside. -/
def Frame.data : Frame Cv K → Option K
  | .outside => none
  | .locking k => some k
  | .running k => some k
  | .blocked _ _ k => some k
  | .woken _ _ k => some k

/-- A blocked thread gets its wakeup. -/
def Frame.unblock (rc : Int) : Frame Cv K → Frame Cv K
  | .blocked cv _ k => .woken cv rc k
  | f => f

theorem Frame.isBlockedOn_iff [DecidableEq Cv] {cv : Cv} {f : Frame Cv K} :
    f.isBlockedOn cv = true ↔ ∃ a k, f = .blocked cv a k := by
  cases f <;> simp [isBlockedOn]

@[simp] theorem Frame.unblock_data (rc : Int) (f : Frame Cv K) : (f.unblock rc).data = f.data := by
  cases f <;> rfl

end Frame

/-- The mutex, the clock and the threads. -/
structure Monitor (Tid Cv K : Type) where
  clock : Timeval
  mutex : Option Tid
  frame : Tid → Frame Cv K

namespace Monitor

variable {Tid Cv K : Type} [DecidableEq Tid]

/-- Nobody is inside. -/
def free (now : Timeval) : Monitor Tid Cv K := ⟨now, none, fun _ => .outside⟩

/-- Nobody holds the mutex or is queued for it, and no wakeup is undelivered. -/
def Quiescent (m : Monitor Tid Cv K) : Prop := ∀ t, (m.frame t).atRest = true

instance [Fintype Tid] (m : Monitor Tid Cv K) : Decidable m.Quiescent :=
  inferInstanceAs (Decidable (∀ _, _))

def put (m : Monitor Tid Cv K) (t : Tid) (f : Frame Cv K) : Monitor Tid Cv K :=
  { m with frame := Function.update m.frame t f }

/-! ## The operations -/

/-- The thread calls `pthread_mutex_lock`. -/
def lock (m : Monitor Tid Cv K) (t : Tid) (k : K) : Option (Monitor Tid Cv K) :=
  match m.frame t with
  | .outside => some (m.put t (.locking k))
  | _ => none

/-- `pthread_mutex_lock` returns. -/
def acquire (m : Monitor Tid Cv K) (t : Tid) : Option (Monitor Tid Cv K) :=
  match m.frame t, m.mutex with
  | .locking k, none => some { m.put t (.running k) with mutex := some t }
  | _, _ => none

/-- `pthread_mutex_unlock`. -/
def unlock (m : Monitor Tid Cv K) (t : Tid) : Option (Monitor Tid Cv K) :=
  match m.frame t with
  | .running _ => some { m.put t .outside with mutex := none }
  | _ => none

/-- `pthread_cond_wait`, or `pthread_cond_timedwait` with an absolute time: the mutex is
released and the thread is blocked, at once. -/
def condWait (m : Monitor Tid Cv K) (t : Tid) (cv : Cv) (abstime : Option Timespec) :
    Option (Monitor Tid Cv K) :=
  match m.frame t with
  | .running k => some { m.put t (.blocked cv abstime k) with mutex := none }
  | _ => none

/-- A blocked thread wakes up although nobody signalled. -/
def spurious (m : Monitor Tid Cv K) (t : Tid) : Option (Monitor Tid Cv K) :=
  match m.frame t with
  | .blocked cv _ k => some (m.put t (.woken cv 0 k))
  | _ => none

/-- The absolute time of a blocked thread has been reached. -/
def expire (m : Monitor Tid Cv K) (t : Tid) : Option (Monitor Tid Cv K) :=
  match m.frame t with
  | .blocked cv (some a) k =>
      if a.nanos ≤ m.clock.nanos then some (m.put t (.woken cv ETIMEDOUT k)) else none
  | _ => none

/-- A woken thread has the mutex again; its wait returns. -/
def relock (m : Monitor Tid Cv K) (t : Tid) (resume : Int → K → K) :
    Option (Monitor Tid Cv K) :=
  match m.frame t, m.mutex with
  | .woken _ rc k, none => some { m.put t (.running (resume rc k)) with mutex := some t }
  | _, _ => none

/-- Time passes; the clock never goes back. -/
def tick (m : Monitor Tid Cv K) (now : Timeval) : Option (Monitor Tid Cv K) :=
  if m.clock.nanos ≤ now.nanos then some { m with clock := now } else none

section Signals

variable [Fintype Tid] [DecidableEq Cv]

/-- The threads blocked on `cv`. -/
def waiters (m : Monitor Tid Cv K) (cv : Cv) : Finset Tid :=
  Finset.univ.filter fun t => (m.frame t).isBlockedOn cv = true

/-- The threads of `W` get their wakeup. -/
def wake (m : Monitor Tid Cv K) (W : Finset Tid) : Monitor Tid Cv K :=
  { m with frame := fun t => if t ∈ W then (m.frame t).unblock 0 else m.frame t }

/-- `pthread_cond_signal`, which unblocks the threads of `W`. -/
def condSignal (m : Monitor Tid Cv K) (cv : Cv) (W : Finset Tid) : Option (Monitor Tid Cv K) :=
  if W ⊆ m.waiters cv ∧ ((m.waiters cv).Nonempty → W.Nonempty) then some (m.wake W) else none

/-- `pthread_cond_broadcast`. -/
def condBroadcast (m : Monitor Tid Cv K) (cv : Cv) : Monitor Tid Cv K := m.wake (m.waiters cv)

omit [DecidableEq Tid] in
theorem mem_waiters {m : Monitor Tid Cv K} {cv : Cv} {t : Tid} :
    t ∈ m.waiters cv ↔ ∃ a k, m.frame t = .blocked cv a k := by
  simp [waiters, Frame.isBlockedOn_iff]

end Signals

/-! ## Frames after an operation -/

@[simp] theorem put_self (m : Monitor Tid Cv K) (t : Tid) (f : Frame Cv K) :
    (m.put t f).frame t = f := Function.update_self ..

theorem put_ne (m : Monitor Tid Cv K) {t u : Tid} (f : Frame Cv K) (h : u ≠ t) :
    (m.put t f).frame u = m.frame u := Function.update_of_ne h ..

@[simp] theorem put_clock (m : Monitor Tid Cv K) (t : Tid) (f : Frame Cv K) :
    (m.put t f).clock = m.clock := rfl

@[simp] theorem put_mutex (m : Monitor Tid Cv K) (t : Tid) (f : Frame Cv K) :
    (m.put t f).mutex = m.mutex := rfl

theorem wake_frame_of_mem {m : Monitor Tid Cv K} {W : Finset Tid} {t : Tid} (h : t ∈ W) :
    (m.wake W).frame t = (m.frame t).unblock 0 := if_pos h

theorem wake_frame_of_notMem {m : Monitor Tid Cv K} {W : Finset Tid} {t : Tid} (h : t ∉ W) :
    (m.wake W).frame t = m.frame t := if_neg h

/-- What a wakeup keeps of a frame, `wake` keeps. -/
theorem wake_keeps {m : Monitor Tid Cv K} {P : Frame Cv K → Prop}
    (hkeeps : ∀ f, P f → P (f.unblock 0)) {t : Tid} (h : P (m.frame t)) (W : Finset Tid) :
    P ((m.wake W).frame t) := by
  by_cases hW : t ∈ W
  · rw [wake_frame_of_mem hW]
    exact hkeeps _ h
  · rw [wake_frame_of_notMem hW]
    exact h

/-! ## Mutual exclusion -/

/-- The owner of the mutex is the one thread that runs. -/
def Excl (m : Monitor Tid Cv K) : Prop := ∀ t, (m.frame t).isRunning = true ↔ m.mutex = some t

omit [DecidableEq Tid] in
theorem Excl.eq_of_running {m : Monitor Tid Cv K} (h : m.Excl) {t u : Tid} {k k' : K}
    (ht : m.frame t = .running k) (hu : m.frame u = .running k') : t = u := by
  have h1 := (h t).mp (by rw [ht]; rfl)
  have h2 := (h u).mp (by rw [hu]; rfl)
  exact Option.some.inj (h1.symm.trans h2)

omit [DecidableEq Tid] in
theorem excl_free (now : Timeval) : (free now : Monitor Tid Cv K).Excl :=
  fun _ => by simp [free, Frame.isRunning]

/-- A thread moves and neither takes nor releases the mutex. -/
theorem Excl.put {m : Monitor Tid Cv K} (h : m.Excl) {t : Tid} {f : Frame Cv K}
    (hf : f.isRunning = (m.frame t).isRunning) : (m.put t f).Excl := by
  intro u
  by_cases hu : u = t
  · subst hu
    rw [put_self, hf]
    exact h u
  · rw [put_ne m f hu]
    exact h u

/-- A thread takes the free mutex. -/
theorem Excl.take {m : Monitor Tid Cv K} (h : m.Excl) (hm : m.mutex = none) {t : Tid} {k : K} :
    Excl { m.put t (.running k) with mutex := some t } := by
  intro u
  show ((m.put t (.running k)).frame u).isRunning = true ↔ some t = some u
  by_cases hu : u = t
  · subst hu
    simp [Frame.isRunning]
  · rw [put_ne m _ hu]
    have hidle : (m.frame u).isRunning ≠ true := fun hr => by simp [(h u).mp hr] at hm
    simp [hidle, Ne.symm hu]

/-- The running thread releases the mutex. -/
theorem Excl.release {m : Monitor Tid Cv K} (h : m.Excl) {t : Tid} {k : K} {f : Frame Cv K}
    (ht : m.frame t = .running k) (hf : f.isRunning = false) :
    Excl { m.put t f with mutex := none } := by
  intro u
  show ((m.put t f).frame u).isRunning = true ↔ none = some u
  by_cases hu : u = t
  · subst hu
    simp [hf]
  · rw [put_ne m _ hu]
    have hidle : (m.frame u).isRunning ≠ true := fun hr =>
      hu (Option.some.inj (((h u).mp hr).symm.trans ((h t).mp (by rw [ht]; rfl))))
    simp [hidle]

theorem Excl.wake {m : Monitor Tid Cv K} (h : m.Excl) (W : Finset Tid) : (m.wake W).Excl :=
  fun u => wake_keeps (P := fun f => f.isRunning = true ↔ m.mutex = some u)
    (fun f hf => by cases f <;> exact hf) (h u) W

end Monitor

end Posix
