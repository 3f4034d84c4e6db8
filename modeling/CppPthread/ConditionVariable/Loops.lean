import CppPthread.ConditionVariable.Machine

set_option autoImplicit false

/-! # The wait loops with and without a lambda

A caller that waits for a predicate within a given time writes one of two loops. The one inside
`wait_for(mutex &, int, Lambda)` (`waitFor`) evaluates the predicate after every wait, also
after one that timed out. The one around `wait_for(mutex &, int)` (`retryLoop`) ends as soon as
a wait has timed out. `sync_queue` writes the second one with `delay = -1` after the first wait,
the documentation of `wait_for` recommends it with the same delay each time; `again` is what
becomes of the delay.

The environment of a loop is a list of turns: the return code of each wait, and what the
predicate looks at when the mutex is held again. The loops end in the same way on every list of
turns but those on which the wait that ends the waiting times out and finds the predicate true
(`Overtaken`). There the first loop reports success and the second one a timeout
(`loop_outcomes`).
-/

namespace CppPthread

open Posix

section Loops

variable {α : Type}

/-- One call of `pthread_cond_timedwait`. -/
structure Turn (α : Type) where
  /-- What `gettimeofday` delivers before the call, if it is asked. -/
  now : Timeval
  rc : Int
  /-- What the predicate looks at when the mutex is held again. -/
  seen : α

/-- How a loop ends. -/
structure Waited (α : Type) where
  /-- The absolute times passed to `pthread_cond_timedwait`. -/
  abstimes : List Timespec
  /-- What the predicate has looked at last. -/
  seen : α
  result : Except PthreadException Bool

def Waited.after (w : Waited α) (abstime : Timespec) : Waited α :=
  { w with abstimes := abstime :: w.abstimes }

def Waited.outcome (w : Waited α) : Except PthreadException Bool × α := (w.result, w.seen)

theorem Waited.map_after_outcome (o : Option (Waited α)) (abstime : Timespec) :
    (o.map fun w => w.after abstime).map Waited.outcome = o.map Waited.outcome := by
  cases o <;> rfl

/-! ## The loop inside `wait_for(mutex &, int, Lambda)` -/

/-- The `while` loop; `none` if the turns come to their end while it waits. -/
def waitForLoop (lambda : α → Bool) (timeout : Timespec) :
    Bool → CvStatus → α → List (Turn α) → Option (Waited α)
  | stopWaiting, status, seen, [] =>
      if stopWaiting = false ∧ status = .noTimeout then none
      else some ⟨[], seen, .ok stopWaiting⟩
  | stopWaiting, status, seen, turn :: turns =>
      if stopWaiting = false ∧ status = .noTimeout then
        match timedwaitStatus turn.rc with
        | .ok status =>
            (waitForLoop lambda timeout (lambda turn.seen) status turn.seen turns).map
              fun w => w.after timeout
        | .error e => some ⟨[timeout], turn.seen, .error e⟩
      else some ⟨[], seen, .ok stopWaiting⟩

/-- `wait_for(mutex &, int, Lambda)`, called when the clock is `now`. -/
def waitFor (lambda : α → Bool) (millis : Int) (now : Timeval) (seen : α)
    (turns : List (Turn α)) : Option (Waited α) :=
  match milliseconds (some now) millis with
  | .ok timeout => waitForLoop lambda timeout (lambda seen) .noTimeout seen turns
  | .error e => some ⟨[], seen, .error e⟩

/-! ## The loop around `wait_for(mutex &, int)` -/

/-- `wait_for(mutex &, int)`: the member `timeout` afterwards, and the status. -/
def waitForPlain (timeout : Timespec) (millis : Int) (turn : Turn α) :
    Timespec × Except PthreadException CvStatus :=
  match if 0 ≤ millis then milliseconds (some turn.now) millis else .ok timeout with
  | .ok timeout => (timeout, timedwaitStatus turn.rc)
  | .error e => (timeout, .error e)

/-- `while (!(ok = predicate) && wait_for(mutex, delay) == no_timeout) delay = again(delay);` -/
def retryLoop (lambda : α → Bool) (again : Int → Int) :
    Timespec → Int → α → List (Turn α) → Option (Waited α)
  | _, _, seen, [] => if lambda seen then some ⟨[], seen, .ok true⟩ else none
  | timeout, delay, seen, turn :: turns =>
      if lambda seen then some ⟨[], seen, .ok true⟩
      else
        match waitForPlain timeout delay turn with
        | (timeout, .ok .noTimeout) =>
            (retryLoop lambda again timeout (again delay) turn.seen turns).map
              fun w => w.after timeout
        | (timeout, .ok .timedout) => some ⟨[timeout], turn.seen, .ok false⟩
        | (timeout, .error e) => some ⟨[timeout], turn.seen, .error e⟩

theorem waitForPlain_status (timeout : Timespec) (millis : Int) (turn : Turn α) :
    (waitForPlain timeout millis turn).2 = timedwaitStatus turn.rc := by
  unfold waitForPlain
  split_ifs <;> rfl

/-! ## When the two loops part -/

/-- The predicate is false until a wait times out, and true when the mutex is held again after
that wait. -/
def Overtaken (lambda : α → Bool) (seen : α) (turns : List (Turn α)) : Prop :=
  lambda seen = false ∧ ∃ pre turn post, turns = pre ++ turn :: post ∧
    (∀ u ∈ pre, timedwaitStatus u.rc = .ok .noTimeout ∧ lambda u.seen = false) ∧
    turn.rc = ETIMEDOUT ∧ lambda turn.seen = true

theorem not_overtaken_nil (lambda : α → Bool) (seen : α) : ¬ Overtaken lambda seen [] := by
  rintro ⟨-, pre, turn, post, h, -⟩
  simp at h

theorem overtaken_cons {lambda : α → Bool} {seen : α} {turn : Turn α} {turns : List (Turn α)} :
    Overtaken lambda seen (turn :: turns) ↔ lambda seen = false ∧
      (turn.rc = ETIMEDOUT ∧ lambda turn.seen = true ∨
        timedwaitStatus turn.rc = .ok .noTimeout ∧ Overtaken lambda turn.seen turns) := by
  constructor
  · rintro ⟨hs, pre, u, post, h, hpre, hrc, hu⟩
    refine ⟨hs, ?_⟩
    cases pre with
    | nil =>
        obtain ⟨rfl, rfl⟩ := List.cons.inj h
        exact .inl ⟨hrc, hu⟩
    | cons v pre =>
        obtain ⟨rfl, rfl⟩ := List.cons.inj h
        obtain ⟨hv, hvs⟩ := hpre turn (by simp)
        exact .inr ⟨hv, hvs, pre, u, post, rfl, fun w hw => hpre w (by simp [hw]), hrc, hu⟩
  · rintro ⟨hs, ⟨hrc, hu⟩ | ⟨hst, hvs, pre, u, post, rfl, hpre, hrc, hu⟩⟩
    · exact ⟨hs, [], turn, turns, rfl, by simp, hrc, hu⟩
    · refine ⟨hs, turn :: pre, u, post, rfl, ?_, hrc, hu⟩
      intro w hw
      rcases List.mem_cons.mp hw with rfl | hw'
      · exact ⟨hst, hvs⟩
      · exact hpre w hw'

theorem waitForLoop_timedout (lambda : α → Bool) (timeout : Timespec) (stopWaiting : Bool)
    (seen : α) (turns : List (Turn α)) :
    waitForLoop lambda timeout stopWaiting .timedout seen turns
      = some ⟨[], seen, .ok stopWaiting⟩ := by
  cases turns <;> simp [waitForLoop]

/-- **How the loops end.** -/
theorem loop_outcomes (lambda : α → Bool) (again : Int → Int) (turns : List (Turn α)) (seen : α)
    (timeout timeout' : Timespec) (delay : Int) :
    (¬ Overtaken lambda seen turns →
      (waitForLoop lambda timeout (lambda seen) .noTimeout seen turns).map Waited.outcome
        = (retryLoop lambda again timeout' delay seen turns).map Waited.outcome) ∧
    (Overtaken lambda seen turns → ∃ last,
      (waitForLoop lambda timeout (lambda seen) .noTimeout seen turns).map Waited.outcome
        = some (.ok true, last) ∧
      (retryLoop lambda again timeout' delay seen turns).map Waited.outcome
        = some (.ok false, last)) := by
  induction turns generalizing seen timeout' delay with
  | nil =>
      refine ⟨fun _ => ?_, fun h => absurd h (not_overtaken_nil lambda seen)⟩
      cases hs : lambda seen <;> simp [waitForLoop, retryLoop, hs, Waited.outcome]
  | cons turn turns ih =>
      rw [overtaken_cons]
      cases hs : lambda seen with
      | true => simp [waitForLoop, retryLoop, hs, Waited.outcome]
      | false =>
          -- both loops wait once and get the same status
          have hplain := waitForPlain_status timeout' delay turn
          rcases hw : waitForPlain timeout' delay turn with ⟨stored, status⟩
          rw [hw] at hplain
          obtain rfl : status = timedwaitStatus turn.rc := hplain
          simp only [waitForLoop, retryLoop, hs, hw, and_self, if_true, true_and,
            Bool.false_eq_true, if_false]
          cases hst : timedwaitStatus turn.rc with
          | error e =>
              have hrc : turn.rc ≠ ETIMEDOUT := fun h => by
                rw [timedwaitStatus_eq_timedout.mpr h] at hst
                cases hst
              simp [hrc, Waited.outcome]
          | ok status =>
              cases status with
              | noTimeout =>
                  have hrc : turn.rc ≠ ETIMEDOUT := fun h => by
                    rw [timedwaitStatus_eq_timedout.mpr h] at hst
                    cases hst
                  simp only [hrc, false_and, true_and, false_or, Waited.map_after_outcome]
                  exact ih turn.seen stored (again delay)
              | timedout =>
                  -- only the first loop looks at the predicate again
                  have hrc := timedwaitStatus_eq_timedout.mp hst
                  simp only [waitForLoop_timedout]
                  cases hlast : lambda turn.seen <;> simp [hrc, Waited.outcome, Waited.after]

/-- The loop that the documentation of `wait_for` recommends:
`while (!check_condition() && wait_for(lck, millis) == no_timeout);` -/
def documentedLoop (lambda : α → Bool) (timeout : Timespec) (millis : Int) (seen : α)
    (turns : List (Turn α)) : Option (Waited α) :=
  retryLoop lambda id timeout millis seen turns

/-- The outcomes are equal unless the second loop is overtaken by a timeout. -/
theorem outcome_eq_iff (lambda : α → Bool) (again : Int → Int) (millis : Int) (now : Timeval)
    (timeout : Timespec) (seen : α) (turns : List (Turn α)) :
    (waitFor lambda millis now seen turns).map Waited.outcome
      = (retryLoop lambda again timeout millis seen turns).map Waited.outcome ↔
    ¬ Overtaken lambda seen turns := by
  obtain ⟨hagree, hpart⟩ :=
    loop_outcomes lambda again turns seen (deadline now millis) timeout millis
  constructor
  · intro heq hover
    obtain ⟨last, hwith, hwithout⟩ := hpart hover
    rw [show waitFor lambda millis now seen turns = waitForLoop lambda (deadline now millis)
      (lambda seen) .noTimeout seen turns from rfl, hwith, hwithout] at heq
    simp at heq
  · exact hagree

/-! ## The loops are the waits of the machine

`Wait.armed`, `Wait.tested` and `Wait.resumed`, by which the machine of
`ConditionVariable/Machine.lean` moves a wait, are these loops cut into steps. -/

section Machine

variable {Cv K : Type}

/-- The steps up to the next blocking call or the end of the wait. -/
def Code.settle (lambda : α → Bool) (seen : α) : Code Cv K → Code Cv K
  | .waiting w k =>
      match w.point with
      | .block => .waiting w k
      | .arm =>
          match w.armed.point with
          | .test status => w.armed.tested status (lambda seen) k
          | _ => .waiting w.armed k
      | .test status =>
          match w.tested status (lambda seen) k with
          | .waiting w' k' => .waiting (if w'.point = .arm then w'.armed else w') k'
          | c => c
  | c => c

/-- A wait of the machine that is played the turns. -/
def Code.play (lambda : α → Bool) :
    Code Cv K → α → List (Turn α) → Option (Except PthreadException Bool × α)
  | .returned r _, seen, _ => some (r, seen)
  | .waiting w k, _, turn :: turns =>
      play lambda ((w.resumed turn.rc k).settle lambda turn.seen) turn.seen turns
  | _, _, _ => none

theorem Code.play_returned (lambda : α → Bool) (r : Except PthreadException Bool) (k : K)
    (seen : α) (turns : List (Turn α)) :
    (returned r k : Code Cv K).play lambda seen turns = some (r, seen) := by
  cases turns <;> rfl

/-- `wait_for` with a lambda, from any evaluation of the predicate on. -/
theorem play_waitForLoop (lambda : α → Bool) (cv : Cv) (millis : Int) (timeout : Timespec) (k : K)
    (turns : List (Turn α)) (status : CvStatus) (seen : α) :
    ((Code.waiting ⟨.waitFor cv millis, millis, .test status⟩ k).settle lambda seen).play
        lambda seen turns
      = (waitForLoop lambda timeout (lambda seen) status seen turns).map Waited.outcome := by
  induction turns generalizing status seen with
  | nil =>
      cases hs : lambda seen <;> cases status <;>
        simp [Code.settle, Wait.tested, hs, Code.play, waitForLoop, Waited.outcome]
  | cons turn turns ih =>
      cases hs : lambda seen with
      | true => simp [Code.settle, Wait.tested, hs, Code.play, waitForLoop, Waited.outcome]
      | false =>
          cases status with
          | timedout => simp [Code.settle, Wait.tested, hs, Code.play, waitForLoop, Waited.outcome]
          | noTimeout =>
              simp only [Code.settle, Wait.tested, hs, Code.play, waitForLoop, Wait.resumed,
                Bool.false_eq_true, if_false, if_true, and_self]
              cases hst : timedwaitStatus turn.rc with
              | error e => simp [Code.play_returned, Waited.outcome]
              | ok status =>
                  simp only [Waited.map_after_outcome]
                  exact ih status turn.seen

theorem play_waitFor (lambda : α → Bool) (cv : Cv) (millis : Int) (now : Timeval) (k : K)
    (turns : List (Turn α)) (seen : α) :
    ((Code.waiting (Wait.start (.waitFor cv millis)) k).settle lambda seen).play lambda seen turns
      = (waitFor lambda millis now seen turns).map Waited.outcome := by
  have hloop := play_waitForLoop lambda cv millis (deadline now millis) k turns .noTimeout seen
  cases hs : lambda seen <;>
    simpa [Code.settle, Wait.start, Wait.armed, Wait.tested, hs, waitFor, milliseconds] using hloop

/-- The loop around `wait_for` without a lambda, with `delay = -1` after the first wait. -/
theorem play_retryLoop (lambda : α → Bool) (cv : Cv) (millis : Int) (k : K)
    (turns : List (Turn α)) (timeout : Timespec) (delay : Int) (seen : α) :
    ((Code.waiting ⟨.retryLoop cv millis, delay, .test .noTimeout⟩ k).settle lambda seen).play
        lambda seen turns
      = (retryLoop lambda (fun _ => -1) timeout delay seen turns).map Waited.outcome := by
  induction turns generalizing timeout delay seen with
  | nil =>
      cases hs : lambda seen <;>
        simp [Code.settle, Wait.tested, hs, Code.play, retryLoop, Waited.outcome]
  | cons turn turns ih =>
      cases hs : lambda seen with
      | true => simp [Code.settle, Wait.tested, hs, Code.play, retryLoop, Waited.outcome]
      | false =>
          have hplain := waitForPlain_status timeout delay turn
          rcases hw : waitForPlain timeout delay turn with ⟨stored, status⟩
          rw [hw] at hplain
          obtain rfl : status = timedwaitStatus turn.rc := hplain
          simp only [Code.settle, Wait.tested, Wait.armed, hs, Code.play, retryLoop, Wait.resumed,
            hw, Bool.false_eq_true, if_false, if_true]
          cases hst : timedwaitStatus turn.rc with
          | error e => simp [Code.play_returned, Waited.outcome]
          | ok status =>
              cases status with
              | timedout => simp [Code.play_returned, Waited.outcome]
              | noTimeout =>
                  simp only [Waited.map_after_outcome]
                  exact ih stored (-1) turn.seen

end Machine

end Loops

end CppPthread
