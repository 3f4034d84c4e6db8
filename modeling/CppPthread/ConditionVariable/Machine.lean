import CppPthread.Basic.Run
import CppPthread.ConditionVariable.Deadline
import CppPthread.Posix.Monitor
import Mathlib.Data.Finset.Basic

set_option autoImplicit false

/-! # The condition variables of one mutex

Any number of threads that share a `pthread::mutex` (taken by a `lock_guard`) and wait on
`pthread::condition_variable`s under it. The waits are the ones the library offers: `wait` and
`wait_for` with a predicate, and the loop around `wait_for(mutex &, int)` that its
documentation gives to callers without lambdas.

A wait is a small program of its own (`Wait`): it computes the deadline (`Point.arm`),
evaluates the predicate (`Point.test`) and calls `pthread_cond_wait` or
`pthread_cond_timedwait` (`Point.block`). The functions `Wait.armed`, `Wait.tested` and
`Wait.resumed` are its transitions. The deadline is kept where the class keeps it, in the
member `timeout` of the condition variable, which all its waiters share.

What the callers do outside their waits is left open: `K` is their own data, the predicate
may have any value at each evaluation (`Event.test`), and notifications may come at any time.
So the runs of this machine contain the runs of every program that uses the variables.
-/

namespace CppPthread

open Posix Run

/-! ## Waits -/

/-- The waits of `condition_variable`. -/
inductive Call (Cv : Type) where
  /-- `wait(mutex &, Lambda)` -/
  | wait (cv : Cv)
  /-- `wait_for(mutex &, int, Lambda)` -/
  | waitFor (cv : Cv) (millis : Int)
  /-- `delay = millis;`
  `while (!(ok = predicate) && wait_for(mutex, delay) == no_timeout) delay = -1;` -/
  | retryLoop (cv : Cv) (millis : Int)
  deriving DecidableEq

section Wait

variable {Cv K : Type}

def Call.cv : Call Cv → Cv
  | .wait cv => cv
  | .waitFor cv _ => cv
  | .retryLoop cv _ => cv

/-- The delay in milliseconds that the caller asked for. -/
def Call.millis : Call Cv → Int
  | .wait _ => 0
  | .waitFor _ millis => millis
  | .retryLoop _ millis => millis

/-- The call waits with `pthread_cond_timedwait`. -/
def Call.timed : Call Cv → Bool
  | .wait _ => false
  | _ => true

/-- The statement a wait executes next. -/
inductive Point where
  /-- `milliseconds(millis)`; in the retry loop, the first lines of `wait_for(mutex &, int)`. -/
  | arm
  /-- The evaluation of the predicate; `status` is that of the last wait. -/
  | test (status : CvStatus)
  /-- `pthread_cond_wait` or `pthread_cond_timedwait`. -/
  | block
  deriving DecidableEq

/-- A wait in progress. -/
structure Wait (Cv : Type) where
  call : Call Cv
  delay : Int
  point : Point
  deriving DecidableEq

/-- What a thread executes while it is in the critical section: the caller's own code, a wait,
or the caller's statement that uses the result of a wait. -/
inductive Code (Cv K : Type) where
  | client (k : K)
  | waiting (w : Wait Cv) (k : K)
  | returned (r : Except PthreadException Bool) (k : K)
  deriving DecidableEq

/-- The caller's data. -/
@[simp] def Code.data : Code Cv K → K
  | .client k => k
  | .waiting _ k => k
  | .returned _ k => k

def Wait.start : Call Cv → Wait Cv
  | .wait cv => ⟨.wait cv, 0, .test .noTimeout⟩
  | .waitFor cv millis => ⟨.waitFor cv millis, millis, .arm⟩
  | .retryLoop cv millis => ⟨.retryLoop cv millis, millis, .test .noTimeout⟩

/-- `wait_for` with a predicate calls `milliseconds` whatever the delay is, `wait_for` without
one only if the delay is not negative. -/
def Wait.computesDeadline (w : Wait Cv) : Bool :=
  match w.call with
  | .wait _ => false
  | .waitFor _ _ => true
  | .retryLoop _ _ => decide (0 ≤ w.delay)

/-- After `Point.arm`: the predicate overload evaluates its predicate first. -/
def Wait.armed (w : Wait Cv) : Wait Cv :=
  match w.call with
  | .retryLoop _ _ => { w with point := .block }
  | _ => { w with point := .test .noTimeout }

/-- After the evaluation of the predicate. Only `wait_for` with a predicate looks at the status
here; the retry loop has ended on `timedout` before it evaluates its condition again. -/
def Wait.tested (w : Wait Cv) (status : CvStatus) (stopWaiting : Bool) (k : K) : Code Cv K :=
  if stopWaiting then .returned (.ok true) k
  else
    match w.call, status with
    | .waitFor _ _, .timedout => .returned (.ok false) k
    | .retryLoop _ _, _ => .waiting { w with point := .arm } k
    | _, _ => .waiting { w with point := .block } k

/-- After `pthread_cond_wait` or `pthread_cond_timedwait` returned `rc`. `wait` ignores it. -/
def Wait.resumed (w : Wait Cv) (rc : Int) (k : K) : Code Cv K :=
  match w.call with
  | .wait _ => .waiting { w with point := .test .noTimeout } k
  | .waitFor _ _ =>
      match timedwaitStatus rc with
      | .ok status => .waiting { w with point := .test status } k
      | .error e => .returned (.error e) k
  | .retryLoop _ _ =>
      match timedwaitStatus rc with
      | .ok .noTimeout => .waiting { w with delay := -1, point := .test .noTimeout } k
      | .ok .timedout => .returned (.ok false) k
      | .error e => .returned (.error e) k

def Code.resume (rc : Int) : Code Cv K → Code Cv K
  | .waiting w k => w.resumed rc k
  | c => c

def Code.isWaiting : Code Cv K → Bool
  | .waiting _ _ => true
  | _ => false

end Wait

/-! ## The machine -/

/-- The mutex with its threads, and the member `timeout` of each condition variable. -/
structure CondVars (Tid Cv K : Type) where
  mon : Monitor Tid Cv (Code Cv K)
  timeout : Cv → Timespec

namespace CondVars

variable {Tid Cv K : Type}

/-- One step of a thread or of its environment. -/
inductive Event (Tid Cv K : Type) where
  /-- A thread begins to take the mutex (`lock_guard`). -/
  | call (t : Tid) (k : K)
  | lock (t : Tid)
  | start (t : Tid) (c : Call Cv)
  /-- `clockOk`: `gettimeofday` succeeds. -/
  | arm (t : Tid) (clockOk : Bool)
  | test (t : Tid) (stopWaiting : Bool)
  | block (t : Tid)
  | spurious (t : Tid)
  | expire (t : Tid)
  | relock (t : Tid)
  /-- The caller's own code. -/
  | work (t : Tid) (k : K)
  | notifyOne (cv : Cv) (W : Finset Tid)
  | notifyAll (cv : Cv)
  /-- `~lock_guard`. -/
  | leave (t : Tid)
  | tick (now : Timeval)

/-- Nobody is inside, and the members `timeout` hold anything. -/
def free (now : Timeval) (timeout : Cv → Timespec) : CondVars Tid Cv K :=
  ⟨Monitor.free now, timeout⟩

variable [DecidableEq Tid]

def put (s : CondVars Tid Cv K) (t : Tid) (f : Frame Cv (Code Cv K)) : CondVars Tid Cv K :=
  { s with mon := s.mon.put t f }

/-- Thread `t` has the mutex and goes on at `c`. -/
def take (s : CondVars Tid Cv K) (t : Tid) (c : Code Cv K) : CondVars Tid Cv K :=
  { s with mon := { s.mon.put t (.running c) with mutex := some t } }

/-- Thread `t` releases the mutex. -/
def release (s : CondVars Tid Cv K) (t : Tid) (f : Frame Cv (Code Cv K)) : CondVars Tid Cv K :=
  { s with mon := { s.mon.put t f with mutex := none } }

def wake (s : CondVars Tid Cv K) (W : Finset Tid) : CondVars Tid Cv K :=
  { s with mon := s.mon.wake W }

variable [Fintype Tid] [DecidableEq Cv]

def step (s : CondVars Tid Cv K) : Event Tid Cv K → Option (CondVars Tid Cv K)
  | .call t k => (s.mon.lock t (.client k)).map fun m => { s with mon := m }
  | .lock t => (s.mon.acquire t).map fun m => { s with mon := m }
  | .start t c =>
      match s.mon.frame t with
      | .running (.client k) => some (s.put t (.running (.waiting (Wait.start c) k)))
      | _ => none
  | .arm t clockOk =>
      match s.mon.frame t with
      | .running (.waiting w k) =>
          if w.point = .arm then
            if w.computesDeadline then
              match milliseconds (if clockOk then some s.mon.clock else none) w.delay with
              | .ok d =>
                  some { s.put t (.running (.waiting w.armed k)) with
                    timeout := Function.update s.timeout w.call.cv d }
              | .error e => some (s.put t (.running (.returned (.error e) k)))
            else some (s.put t (.running (.waiting w.armed k)))
          else none
      | _ => none
  | .test t stopWaiting =>
      match s.mon.frame t with
      | .running (.waiting w k) =>
          match w.point with
          | .test status => some (s.put t (.running (w.tested status stopWaiting k)))
          | _ => none
      | _ => none
  | .block t =>
      match s.mon.frame t with
      | .running (.waiting w k) =>
          if w.point = .block then
            if w.call.timed then
              -- an absolute time with bad nanoseconds is refused before the thread blocks
              if (s.timeout w.call.cv).valid then
                (s.mon.condWait t w.call.cv (some (s.timeout w.call.cv))).map
                  fun m => { s with mon := m }
              else some (s.put t (.running (w.resumed EINVAL k)))
            else (s.mon.condWait t w.call.cv none).map fun m => { s with mon := m }
          else none
      | _ => none
  | .spurious t => (s.mon.spurious t).map fun m => { s with mon := m }
  | .expire t => (s.mon.expire t).map fun m => { s with mon := m }
  | .relock t => (s.mon.relock t Code.resume).map fun m => { s with mon := m }
  | .work t k =>
      match s.mon.frame t with
      | .running c => if c.isWaiting then none else some (s.put t (.running (.client k)))
      | _ => none
  | .notifyOne cv W => (s.mon.condSignal cv W).map fun m => { s with mon := m }
  | .notifyAll cv => some { s with mon := s.mon.condBroadcast cv }
  | .leave t =>
      match s.mon.frame t with
      | .running c =>
          if c.isWaiting then none else (s.mon.unlock t).map fun m => { s with mon := m }
      | _ => none
  | .tick now => (s.mon.tick now).map fun m => { s with mon := m }

/-! ## What a step can do -/

/-- The absolute time that the next `pthread_cond_timedwait` of a wait is passed; `none` for
`pthread_cond_wait`. -/
def abstime (s : CondVars Tid Cv K) (w : Wait Cv) : Option Timespec :=
  if w.call.timed then some (s.timeout w.call.cv) else none

/-- The steps of the machine, one constructor for each thing that can happen. -/
inductive Trans (s : CondVars Tid Cv K) : Event Tid Cv K → CondVars Tid Cv K → Prop where
  | call {t : Tid} {k : K} (ht : s.mon.frame t = .outside) :
      Trans s (.call t k) (s.put t (.locking (.client k)))
  | lock {t : Tid} {c : Code Cv K} (ht : s.mon.frame t = .locking c) (hm : s.mon.mutex = none) :
      Trans s (.lock t) (s.take t c)
  | start {t : Tid} {c : Call Cv} {k : K} (ht : s.mon.frame t = .running (.client k)) :
      Trans s (.start t c) (s.put t (.running (.waiting (Wait.start c) k)))
  | arm {t : Tid} {w : Wait Cv} {k : K} (ht : s.mon.frame t = .running (.waiting w k))
      (hp : w.point = .arm) (hw : w.computesDeadline = true) :
      Trans s (.arm t true) { s.put t (.running (.waiting w.armed k)) with
        timeout := Function.update s.timeout w.call.cv (deadline s.mon.clock w.delay) }
  | armFail {t : Tid} {w : Wait Cv} {k : K} (ht : s.mon.frame t = .running (.waiting w k))
      (hp : w.point = .arm) (hw : w.computesDeadline = true) :
      Trans s (.arm t false) (s.put t (.running (.returned (.error
        (conditionVariableException "failed to get current time." 0)) k)))
  | armSkip {t : Tid} {clockOk : Bool} {w : Wait Cv} {k : K}
      (ht : s.mon.frame t = .running (.waiting w k)) (hp : w.point = .arm)
      (hw : w.computesDeadline = false) :
      Trans s (.arm t clockOk) (s.put t (.running (.waiting w.armed k)))
  | test {t : Tid} {b : Bool} {w : Wait Cv} {k : K} {status : CvStatus}
      (ht : s.mon.frame t = .running (.waiting w k)) (hp : w.point = .test status) :
      Trans s (.test t b) (s.put t (.running (w.tested status b k)))
  | block {t : Tid} {w : Wait Cv} {k : K} (ht : s.mon.frame t = .running (.waiting w k))
      (hp : w.point = .block) (hv : w.call.timed = true → (s.timeout w.call.cv).valid) :
      Trans s (.block t) (s.release t (.blocked w.call.cv (s.abstime w) (.waiting w k)))
  | refuse {t : Tid} {w : Wait Cv} {k : K} (ht : s.mon.frame t = .running (.waiting w k))
      (hp : w.point = .block) (hc : w.call.timed = true) (hv : ¬ (s.timeout w.call.cv).valid) :
      Trans s (.block t) (s.put t (.running (w.resumed EINVAL k)))
  | spurious {t : Tid} {cv : Cv} {a : Option Timespec} {c : Code Cv K}
      (ht : s.mon.frame t = .blocked cv a c) :
      Trans s (.spurious t) (s.put t (.woken cv 0 c))
  | expire {t : Tid} {cv : Cv} {a : Timespec} {c : Code Cv K}
      (ht : s.mon.frame t = .blocked cv (some a) c) (ha : a.nanos ≤ s.mon.clock.nanos) :
      Trans s (.expire t) (s.put t (.woken cv ETIMEDOUT c))
  | relock {t : Tid} {cv : Cv} {rc : Int} {c : Code Cv K} (ht : s.mon.frame t = .woken cv rc c)
      (hm : s.mon.mutex = none) :
      Trans s (.relock t) (s.take t (c.resume rc))
  | work {t : Tid} {c : Code Cv K} {k : K} (ht : s.mon.frame t = .running c)
      (hc : c.isWaiting = false) :
      Trans s (.work t k) (s.put t (.running (.client k)))
  | notifyOne {cv : Cv} {W : Finset Tid} (hW : W ⊆ s.mon.waiters cv)
      (hne : (s.mon.waiters cv).Nonempty → W.Nonempty) :
      Trans s (.notifyOne cv W) (s.wake W)
  | notifyAll {cv : Cv} : Trans s (.notifyAll cv) (s.wake (s.mon.waiters cv))
  | leave {t : Tid} {c : Code Cv K} (ht : s.mon.frame t = .running c)
      (hc : c.isWaiting = false) :
      Trans s (.leave t) (s.release t .outside)
  | tick {now : Timeval} (hn : s.mon.clock.nanos ≤ now.nanos) :
      Trans s (.tick now) { s with mon := { s.mon with clock := now } }

theorem step_trans {s s' : CondVars Tid Cv K} {e : Event Tid Cv K} (h : step s e = some s') :
    Trans s e s' := by
  cases e with
  | call t k =>
      simp only [step, Monitor.lock] at h
      split at h
      · obtain rfl := Option.some.inj h
        exact .call ‹_›
      · simp at h
  | lock t =>
      simp only [step, Monitor.acquire] at h
      split at h
      · rename_i c ht hm
        obtain rfl := Option.some.inj h
        exact .lock ht hm
      · simp at h
  | start t c =>
      simp only [step] at h
      split at h
      · obtain rfl := Option.some.inj h
        exact .start ‹_›
      · simp at h
  | arm t clockOk =>
      simp only [step] at h
      split at h
      · rename_i w k ht
        by_cases hp : w.point = .arm
        · rw [if_pos hp] at h
          by_cases hw : w.computesDeadline = true
          · rw [if_pos hw] at h
            cases clockOk with
            | true =>
                obtain rfl := Option.some.inj h
                exact .arm ht hp hw
            | false =>
                obtain rfl := Option.some.inj h
                exact .armFail ht hp hw
          · rw [if_neg hw] at h
            obtain rfl := Option.some.inj h
            exact .armSkip ht hp (by simpa using hw)
        · rw [if_neg hp] at h
          cases h
      · simp at h
  | test t b =>
      simp only [step] at h
      split at h
      · rename_i w k ht
        split at h
        · rename_i status hp
          obtain rfl := Option.some.inj h
          exact .test ht hp
        · simp at h
      · simp at h
  | block t =>
      simp only [step] at h
      split at h
      · rename_i w k ht
        split_ifs at h with hp hc hv
        · simp only [Monitor.condWait, ht] at h
          obtain rfl := Option.some.inj h
          have hb := Trans.block ht hp fun _ => hv
          rw [abstime, if_pos hc] at hb
          exact hb
        · obtain rfl := Option.some.inj h
          exact .refuse ht hp hc hv
        · simp only [Monitor.condWait, ht] at h
          obtain rfl := Option.some.inj h
          have hb := Trans.block ht hp fun hc' => absurd hc' hc
          rw [abstime, if_neg hc] at hb
          exact hb
      · simp at h
  | spurious t =>
      simp only [step, Monitor.spurious] at h
      split at h
      · rename_i cv a c ht
        obtain rfl := Option.some.inj h
        exact .spurious ht
      · simp at h
  | expire t =>
      simp only [step, Monitor.expire] at h
      split at h
      · rename_i cv a c ht
        split_ifs at h with ha
        · obtain rfl := Option.some.inj h
          exact .expire ht ha
        · simp at h
      · simp at h
  | relock t =>
      simp only [step, Monitor.relock] at h
      split at h
      · rename_i cv rc c ht hm
        obtain rfl := Option.some.inj h
        exact .relock ht hm
      · simp at h
  | work t k =>
      simp only [step] at h
      split at h
      · rename_i c ht
        split_ifs at h with hc
        obtain rfl := Option.some.inj h
        exact .work ht (by simpa using hc)
      · simp at h
  | notifyOne cv W =>
      simp only [step, Monitor.condSignal] at h
      split_ifs at h with hW
      · obtain rfl := Option.some.inj h
        exact .notifyOne hW.1 hW.2
      · simp at h
  | notifyAll cv =>
      obtain rfl := Option.some.inj h
      exact .notifyAll
  | leave t =>
      simp only [step] at h
      split at h
      · rename_i c ht
        split_ifs at h with hc
        simp only [Monitor.unlock, ht] at h
        obtain rfl := Option.some.inj h
        exact .leave ht (by simpa using hc)
      · simp at h
  | tick now =>
      simp only [step, Monitor.tick] at h
      split_ifs at h with hn
      · obtain rfl := Option.some.inj h
        exact .tick hn
      · simp at h

/-! ## Mutual exclusion and the shape of the frames -/

theorem step_excl {s s' : CondVars Tid Cv K} {e : Event Tid Cv K} (hs : s.mon.Excl)
    (h : step s e = some s') : s'.mon.Excl := by
  cases step_trans h with
  | call ht => exact hs.put (by rw [ht]; rfl)
  | lock ht hm => exact hs.take hm
  | start ht => exact hs.put (by rw [ht]; rfl)
  | arm ht => exact hs.put (by rw [ht]; rfl)
  | armFail ht => exact hs.put (by rw [ht]; rfl)
  | armSkip ht => exact hs.put (by rw [ht]; rfl)
  | test ht => exact hs.put (by rw [ht]; rfl)
  | block ht => exact hs.release ht rfl
  | refuse ht => exact hs.put (by rw [ht]; rfl)
  | spurious ht => exact hs.put (by rw [ht]; rfl)
  | expire ht => exact hs.put (by rw [ht]; rfl)
  | relock ht hm => exact hs.take hm
  | work ht => exact hs.put (by rw [ht]; rfl)
  | notifyOne => exact hs.wake _
  | notifyAll => exact hs.wake _
  | leave ht => exact hs.release ht rfl
  | tick => exact hs

/-- What is queued for the mutex begins with the caller's code; what is inside a condition wait
is a wait at `Point.block` on that variable, with an absolute time iff it is a timed one. -/
def FrameOk : Frame Cv (Code Cv K) → Prop
  | .locking c => ∃ k, c = .client k
  | .blocked cv a c =>
      ∃ w k, c = .waiting w k ∧ w.call.cv = cv ∧ w.point = .block ∧ a.isSome = w.call.timed
  | .woken cv rc c =>
      ∃ w k, c = .waiting w k ∧ w.call.cv = cv ∧ w.point = .block ∧
        (rc = 0 ∨ rc = ETIMEDOUT ∧ w.call.timed = true)
  | _ => True

omit [DecidableEq Tid] [Fintype Tid] [DecidableEq Cv] in
theorem frameOk_free (now : Timeval) (timeout : Cv → Timespec) (t : Tid) :
    FrameOk ((free now timeout : CondVars Tid Cv K).mon.frame t) := trivial

omit [DecidableEq Tid] [Fintype Tid] [DecidableEq Cv] in
theorem FrameOk.unblock {f : Frame Cv (Code Cv K)} (h : FrameOk f) : FrameOk (f.unblock 0) := by
  cases f with
  | blocked cv a c =>
      obtain ⟨w, k, hc, hcv, hp, _⟩ := h
      exact ⟨w, k, hc, hcv, hp, .inl rfl⟩
  | _ => exact h

/-- Every step gives the threads it moves well-shaped frames. -/
theorem step_frameOk {s s' : CondVars Tid Cv K} {e : Event Tid Cv K}
    (hs : ∀ t, FrameOk (s.mon.frame t)) (h : step s e = some s') :
    ∀ t, FrameOk (s'.mon.frame t) := by
  have put : ∀ (t : Tid) (f : Frame Cv (Code Cv K)), FrameOk f →
      ∀ u, FrameOk (Function.update s.mon.frame t f u) := by
    intro t f hf u
    by_cases hu : u = t
    · subst hu
      simpa using hf
    · simpa [hu] using hs u
  have wake : ∀ (W : Finset Tid) (u : Tid), FrameOk ((s.mon.wake W).frame u) := fun W u =>
    Monitor.wake_keeps (P := FrameOk) (fun _ => FrameOk.unblock) (hs u) W
  cases step_trans h with
  | call => exact put _ _ ⟨_, rfl⟩
  | block ht hp _ =>
      refine put _ _ ⟨_, _, rfl, rfl, hp, ?_⟩
      unfold abstime
      split_ifs with hc
      · exact hc.symm
      · simpa using hc
  | @spurious t cv a c ht =>
      have hblocked := hs t
      rw [ht] at hblocked
      exact put _ _ hblocked.unblock
  | @expire t cv a c ht ha =>
      have hblocked := hs t
      rw [ht] at hblocked
      obtain ⟨w, k, hc, hcv, hp, hsome⟩ := hblocked
      exact put _ _ ⟨w, k, hc, hcv, hp, .inr ⟨rfl, by simpa using hsome.symm⟩⟩
  | notifyOne => exact wake _
  | notifyAll => exact wake _
  | tick => exact hs
  | _ => exact put _ _ trivial

end CondVars

end CppPthread
