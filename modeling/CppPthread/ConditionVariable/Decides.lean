import CppPthread.ConditionVariable.Loops
import Mathlib.Order.Bounds.Basic

set_option autoImplicit false

/-! # What `wait_for` decides

A call of `wait_for(mutex &, int, Lambda)` meets a value of its predicate on entry and after every
return of `pthread_cond_timedwait`, the return codes, and the mutex, which it has at that time or
not (`WaitTrace`). Here the loop of `ConditionVariable/Loops.lean` is run on such a trace and what
it does is written down, act by act (`waitForActs`), so that one can see when the predicate is
evaluated. Every trace falls into turns that neither stop the loop nor fail (`Turns`), and the
turn after them tells how the call ends (`actsLoop_cases`).
-/

namespace CppPthread

open Posix

/-- What a call meets. The index `0` is the entry, `i` the `i`-th return. -/
structure WaitTrace where
  /-- The value of the predicate. -/
  value : Nat → Bool
  rc : Nat → Int
  /-- The thread has the mutex. -/
  held : Nat → Bool

/-- What a call does. -/
inductive WaitAct where
  /-- The evaluation of the predicate after the `i`-th return. -/
  | evaluate (i : Nat)
  /-- The `i`-th call of `pthread_cond_timedwait`. -/
  | timedwait (i : Nat)
  deriving DecidableEq

namespace WaitTrace

variable (tr : WaitTrace)

/-- The `while` loop after the `i`-th return, with its acts, when `pthread_cond_timedwait` returns
`n` more times; the result is `none` if the loop waits for a further return then. -/
def actsLoop : Nat → Nat → Bool → CvStatus → List WaitAct × Option (Except PthreadException Bool)
  | 0, _, stopWaiting, status =>
      if stopWaiting = false ∧ status = .noTimeout then ([], none)
      else ([], some (.ok stopWaiting))
  | n + 1, i, stopWaiting, status =>
      if stopWaiting = false ∧ status = .noTimeout then
        match timedwaitStatus (tr.rc (i + 1)) with
        | .ok status =>
            let r := actsLoop n (i + 1) (tr.value (i + 1)) status
            (.timedwait (i + 1) :: .evaluate (i + 1) :: r.1, r.2)
        | .error e => ([.timedwait (i + 1)], some (.error e))
      else ([], some (.ok stopWaiting))

/-- `wait_for(mutex &, int, Lambda)`, called when `gettimeofday` delivers `now`. -/
def waitForActs (now : Option Timeval) (millis : Int) (n : Nat) :
    List WaitAct × Option (Except PthreadException Bool) :=
  match milliseconds now millis with
  | .ok _ =>
      let r := tr.actsLoop n 0 (tr.value 0) .noTimeout
      (.evaluate 0 :: r.1, r.2)
  | .error e => ([], some (.error e))

/-- The turns that the trace plays after the `i`-th return. -/
def turns (now : Timeval) (i n : Nat) : List (Turn Nat) :=
  (List.range' (i + 1) n).map fun j => ⟨now, tr.rc j, j⟩

theorem actsLoop_result (timeout : Timespec) (now : Timeval) (n i : Nat) (stopWaiting : Bool)
    (status : CvStatus) :
    (tr.actsLoop n i stopWaiting status).2
      = (waitForLoop tr.value timeout stopWaiting status i (tr.turns now i n)).map
        Waited.result := by
  induction n generalizing i stopWaiting status with
  | zero =>
      simp only [actsLoop, turns, List.range'_zero, List.map_nil, waitForLoop]
      split_ifs <;> rfl
  | succ n ih =>
      simp only [turns, List.range'_succ, List.map_cons, actsLoop, waitForLoop]
      split_ifs
      · cases timedwaitStatus (tr.rc (i + 1)) with
        | ok status =>
            simp only [Option.map_map]
            exact ih (i + 1) (tr.value (i + 1)) status
        | error e => rfl
      · rfl

/-- **The acts belong to the loop**: the call ends as `waitFor` does on the turns of the trace. -/
theorem waitForActs_result (now : Timeval) (millis : Int) (n : Nat) :
    (tr.waitForActs (some now) millis n).2
      = (waitFor tr.value millis now 0 (tr.turns now 0 n)).map Waited.result :=
  tr.actsLoop_result (deadline now millis) now n 0 (tr.value 0) .noTimeout

/-! ## The turns of a trace -/

/-- After the `k`-th return there is nothing left to wait for. -/
def Stops (k : Nat) : Prop := tr.value k = true ∨ 0 < k ∧ tr.rc k = ETIMEDOUT

/-- The `i`-th return code is one that throws. -/
def Fails (i : Nat) : Prop := 0 < i ∧ (tr.rc i = EINVAL ∨ tr.rc i = EPERM)

/-- From the `i`-th return on, `k` turns neither stop nor fail. -/
def Turns (i k : Nat) : Prop := ∀ j < k, ¬ tr.Stops (i + j) ∧ ¬ tr.Fails (i + j + 1)

end WaitTrace

/-- The acts of the `k` turns after the `i`-th return. -/
def turnActs (i k : Nat) : List WaitAct :=
  (List.range' (i + 1) k).flatMap fun j => [.timedwait j, .evaluate j]

theorem turnActs_succ (i k : Nat) :
    turnActs i (k + 1) = .timedwait (i + 1) :: .evaluate (i + 1) :: turnActs (i + 1) k := by
  simp [turnActs, List.range'_succ]

theorem evaluate_mem_turnActs {i k j : Nat} :
    .evaluate j ∈ turnActs i k ↔ i < j ∧ j ≤ i + k := by
  simp only [turnActs, List.mem_flatMap, List.mem_range'_1, List.mem_cons, reduceCtorEq,
    WaitAct.evaluate.injEq, List.not_mem_nil, or_false, false_or]
  constructor
  · rintro ⟨l, hl, rfl⟩
    omega
  · exact fun h => ⟨j, by omega, rfl⟩

/-- What `wait_for` makes of a return code. -/
theorem timedwaitStatus_cases (rc : Int) :
    ((rc = EINVAL ∨ rc = EPERM) ∧
      ∃ message, timedwaitStatus rc = .error (conditionVariableException message rc)) ∨
    (¬ (rc = EINVAL ∨ rc = EPERM) ∧
      ∃ status, timedwaitStatus rc = .ok status ∧ (status = .timedout ↔ rc = ETIMEDOUT)) := by
  by_cases htime : rc = ETIMEDOUT
  · subst htime
    exact .inr ⟨by decide, .timedout, rfl, by simp⟩
  · by_cases hinval : rc = EINVAL
    · exact .inl ⟨.inl hinval, _, by rw [timedwaitStatus, if_neg htime, if_pos hinval]⟩
    · by_cases hperm : rc = EPERM
      · exact .inl ⟨.inr hperm, _,
          by rw [timedwaitStatus, if_neg htime, if_neg hinval, if_pos hperm]⟩
      · exact .inr ⟨not_or.mpr ⟨hinval, hperm⟩, .noTimeout,
          by rw [timedwaitStatus, if_neg htime, if_neg hinval, if_neg hperm], by simp [htime]⟩

namespace WaitTrace

variable {tr : WaitTrace}

theorem turns_zero (i : Nat) : tr.Turns i 0 := fun _ hj => absurd hj (Nat.not_lt_zero _)

theorem turns_succ {i k : Nat} (hs : ¬ tr.Stops i) (hf : ¬ tr.Fails (i + 1))
    (h : tr.Turns (i + 1) k) : tr.Turns i (k + 1) := by
  intro j hj
  cases j with
  | zero => exact ⟨hs, hf⟩
  | succ j =>
      rw [show i + (j + 1) = i + 1 + j by omega]
      exact h j (by omega)

/-- The loop goes on iff the trace does not stop. -/
theorem continues_iff {i : Nat} {status : CvStatus}
    (hstatus : status = .timedout ↔ 0 < i ∧ tr.rc i = ETIMEDOUT) :
    (tr.value i = false ∧ status = .noTimeout) ↔ ¬ tr.Stops i := by
  rw [Stops, ← hstatus, not_or, Bool.not_eq_true]
  cases status <;> simp

/-- **How the loop ends**, with `n` returns to come: after `k` turns it stops; or the return after
them fails; or it waits still. -/
theorem actsLoop_cases (n i : Nat) {status : CvStatus}
    (hstatus : status = .timedout ↔ 0 < i ∧ tr.rc i = ETIMEDOUT) :
    (∃ k ≤ n, tr.Turns i k ∧ tr.Stops (i + k) ∧
      tr.actsLoop n i (tr.value i) status
        = (turnActs i k, some (.ok (tr.value (i + k))))) ∨
    (∃ k < n, tr.Turns i k ∧ ¬ tr.Stops (i + k) ∧ tr.Fails (i + k + 1) ∧ ∃ message,
      tr.actsLoop n i (tr.value i) status
        = (turnActs i k ++ [.timedwait (i + k + 1)],
          some (.error (conditionVariableException message (tr.rc (i + k + 1)))))) ∨
    (tr.Turns i n ∧ ¬ tr.Stops (i + n) ∧
      tr.actsLoop n i (tr.value i) status = (turnActs i n, none)) := by
  induction n generalizing i status with
  | zero =>
      rw [actsLoop]
      by_cases hs : tr.Stops i
      · rw [if_neg (mt (continues_iff hstatus).mp (not_not.mpr hs))]
        exact .inl ⟨0, le_rfl, turns_zero i, hs, rfl⟩
      · rw [if_pos ((continues_iff hstatus).mpr hs)]
        exact .inr (.inr ⟨turns_zero i, hs, rfl⟩)
  | succ n ih =>
      rw [actsLoop]
      by_cases hs : tr.Stops i
      · rw [if_neg (mt (continues_iff hstatus).mp (not_not.mpr hs))]
        exact .inl ⟨0, Nat.zero_le _, turns_zero i, hs, rfl⟩
      · rw [if_pos ((continues_iff hstatus).mpr hs)]
        rcases timedwaitStatus_cases (tr.rc (i + 1)) with
          ⟨hf, message, hrc⟩ | ⟨hf, status', hrc, htime⟩
        · simp only [hrc]
          exact .inr (.inl ⟨0, Nat.zero_lt_succ _, turns_zero i, hs, ⟨Nat.succ_pos _, hf⟩,
            message, rfl⟩)
        · -- one turn, and then the rest of the trace
          have hf' : ¬ tr.Fails (i + 1) := fun h => hf h.2
          have hshift : ∀ k, i + (k + 1) = i + 1 + k := fun k => by omega
          simp only [hrc]
          rcases ih (i + 1) (show status' = .timedout ↔ _ by simp [htime]) with
            ⟨k, hk, hturns, hstop, hr⟩ | ⟨k, hk, hturns, hstop, hfail, message, hr⟩ |
            ⟨hturns, hstop, hr⟩
          · refine .inl ⟨k + 1, by omega, turns_succ hs hf' hturns, hshift k ▸ hstop, ?_⟩
            rw [hr, turnActs_succ, hshift k]
          · refine .inr (.inl ⟨k + 1, by omega, turns_succ hs hf' hturns, hshift k ▸ hstop,
              hshift k ▸ hfail, message, ?_⟩)
            rw [hr, turnActs_succ, hshift k]
            rfl
          · refine .inr (.inr ⟨turns_succ hs hf' hturns, hshift n ▸ hstop, ?_⟩)
            rw [hr, turnActs_succ]

/-! ## What a call decides -/

/-- The predicate is only evaluated by a thread that has the mutex, if every return of
`pthread_cond_timedwait` but `EPERM` leaves it to the thread. -/
theorem held_of_turns {k : Nat} (h : tr.Turns 0 k) (h0 : tr.held 0 = true)
    (hkeeps : ∀ i, tr.rc (i + 1) ≠ EPERM → tr.held i = true → tr.held (i + 1) = true) :
    ∀ i ≤ k, tr.held i = true := by
  intro i hi
  induction i with
  | zero => exact h0
  | succ i ih =>
      have hfail := (h i (by omega)).2
      rw [Nat.zero_add] at hfail
      exact hkeeps i (fun hperm => hfail ⟨Nat.succ_pos i, .inr hperm⟩) (ih (by omega))

/-- What a call of `wait_for` decides on a trace. -/
structure DecidesOn (tr : WaitTrace) (now : Timeval) (millis : Int) : Prop where
  /-- It returns at the first turn that stops, after as many waits, with the last value of the
  predicate; `false` only if the last wait has timed out. -/
  returned : ∀ n b, (tr.waitForActs (some now) millis n).2 = some (.ok b) →
    ∃ k, IsLeast {j | tr.Stops j} k ∧ b = tr.value k ∧
      (b = false → 0 < k ∧ tr.rc k = ETIMEDOUT) ∧
      (tr.waitForActs (some now) millis n).1 = .evaluate 0 :: turnActs 0 k
  returns_iff : (∃ n b, (tr.waitForActs (some now) millis n).2 = some (.ok b)) ↔
    ∃ k, IsLeast {j | tr.Stops j} k ∧ ∀ i ≤ k, ¬ tr.Fails i
  /-- It throws at the first return code that says so, which the exception carries, and does not
  evaluate the predicate again. -/
  threw : ∀ n e, (tr.waitForActs (some now) millis n).2 = some (.error e) →
    ∃ i, IsLeast {j | tr.Fails j} i ∧ (∀ j < i, ¬ tr.Stops j) ∧
      e.cls = .conditionVariableException ∧ e.errorNumber = tr.rc i ∧
      (tr.waitForActs (some now) millis n).1
        = .evaluate 0 :: turnActs 0 (i - 1) ++ [.timedwait i]
  throws_iff : (∃ n e, (tr.waitForActs (some now) millis n).2 = some (.error e)) ↔
    ∃ i, tr.Fails i ∧ ∀ j < i, ¬ tr.Stops j
  /-- It evaluates the predicate only with the mutex. -/
  evaluated : tr.held 0 = true →
    (∀ i, tr.rc (i + 1) ≠ EPERM → tr.held i = true → tr.held (i + 1) = true) →
    ∀ n i, .evaluate i ∈ (tr.waitForActs (some now) millis n).1 → tr.held i = true

variable (tr) in
/-- The ends of a call, from its entry on. -/
theorem waitForActs_cases (now : Timeval) (millis : Int) (n : Nat) :
    (∃ k ≤ n, tr.Turns 0 k ∧ tr.Stops k ∧ tr.waitForActs (some now) millis n
      = (.evaluate 0 :: turnActs 0 k, some (.ok (tr.value k)))) ∨
    (∃ k < n, tr.Turns 0 k ∧ ¬ tr.Stops k ∧ tr.Fails (k + 1) ∧ ∃ message,
      tr.waitForActs (some now) millis n
        = (.evaluate 0 :: turnActs 0 k ++ [.timedwait (k + 1)],
          some (.error (conditionVariableException message (tr.rc (k + 1)))))) ∨
    (tr.Turns 0 n ∧ ¬ tr.Stops n ∧ tr.waitForActs (some now) millis n
      = (.evaluate 0 :: turnActs 0 n, none)) := by
  have hentry : CvStatus.noTimeout = .timedout ↔ 0 < 0 ∧ tr.rc 0 = ETIMEDOUT := by simp
  have hcases := actsLoop_cases n 0 hentry
  simp only [Nat.zero_add] at hcases
  simp only [waitForActs, milliseconds]
  rcases hcases with ⟨k, hk, hturns, hstop, hr⟩ |
    ⟨k, hk, hturns, hstop, hfail, message, hr⟩ | ⟨hturns, hstop, hr⟩
  · exact .inl ⟨k, hk, hturns, hstop, by rw [hr]⟩
  · exact .inr (.inl ⟨k, hk, hturns, hstop, hfail, message, by rw [hr]; rfl⟩)
  · exact .inr (.inr ⟨hturns, hstop, by rw [hr]⟩)

theorem Turns.not_stops {k j : Nat} (h : tr.Turns 0 k) (hj : j < k) : ¬ tr.Stops j := by
  simpa using (h j hj).1

theorem Turns.not_fails {k i : Nat} (h : tr.Turns 0 k) (hi : i ≤ k) : ¬ tr.Fails i := by
  cases i with
  | zero => exact fun hf => absurd hf.1 (by omega)
  | succ i => simpa using (h i hi).2

theorem Turns.isLeast_stops {k : Nat} (h : tr.Turns 0 k) (hstop : tr.Stops k) :
    IsLeast {j | tr.Stops j} k :=
  ⟨hstop, fun _ hj => le_of_not_gt fun hlt => h.not_stops hlt hj⟩

theorem Turns.isLeast_fails {k : Nat} (h : tr.Turns 0 k) (hfail : tr.Fails (k + 1)) :
    IsLeast {i | tr.Fails i} (k + 1) :=
  ⟨hfail, fun _ hi => le_of_not_gt fun hlt => h.not_fails (Nat.lt_succ_iff.mp hlt) hi⟩

theorem Turns.not_stops_le {k j : Nat} (h : tr.Turns 0 k) (hstop : ¬ tr.Stops k)
    (hj : j < k + 1) : ¬ tr.Stops j := by
  rcases Nat.lt_succ_iff_lt_or_eq.mp hj with hlt | rfl
  · exact h.not_stops hlt
  · exact hstop

theorem returned_turns {now : Timeval} {millis : Int} {n : Nat} {b : Bool}
    (hb : (tr.waitForActs (some now) millis n).2 = some (.ok b)) :
    ∃ k, tr.Turns 0 k ∧ tr.Stops k ∧ b = tr.value k ∧
      (tr.waitForActs (some now) millis n).1 = .evaluate 0 :: turnActs 0 k := by
  rcases tr.waitForActs_cases now millis n with ⟨k, -, hturns, hstop, hr⟩ |
    ⟨k, -, -, -, -, message, hr⟩ | ⟨-, -, hr⟩ <;> rw [hr] at hb ⊢
  · exact ⟨k, hturns, hstop, (Except.ok.inj (Option.some.inj hb)).symm, rfl⟩
  · cases hb
  · cases hb

theorem threw_turns {now : Timeval} {millis : Int} {n : Nat} {e : PthreadException}
    (he : (tr.waitForActs (some now) millis n).2 = some (.error e)) :
    ∃ k, tr.Turns 0 k ∧ ¬ tr.Stops k ∧ tr.Fails (k + 1) ∧
      (∃ message, e = conditionVariableException message (tr.rc (k + 1))) ∧
      (tr.waitForActs (some now) millis n).1
        = .evaluate 0 :: turnActs 0 k ++ [.timedwait (k + 1)] := by
  rcases tr.waitForActs_cases now millis n with ⟨k, -, -, -, hr⟩ |
    ⟨k, -, hturns, hstop, hfail, message, hr⟩ | ⟨-, -, hr⟩ <;> rw [hr] at he ⊢
  · cases he
  · exact ⟨k, hturns, hstop, hfail, ⟨message, (Except.error.inj (Option.some.inj he)).symm⟩, rfl⟩
  · cases he

/-- **`wait_for` decides correctly on every trace.** -/
theorem wait_for_decides (tr : WaitTrace) (now : Timeval) (millis : Int) :
    tr.DecidesOn now millis where
  returned n b hb := by
    obtain ⟨k, hturns, hstop, rfl, hacts⟩ := returned_turns hb
    refine ⟨k, hturns.isLeast_stops hstop, rfl, fun hfalse => ?_, hacts⟩
    exact hstop.resolve_left (by simp [hfalse])
  returns_iff := by
    constructor
    · rintro ⟨n, b, hb⟩
      obtain ⟨k, hturns, hstop, -, -⟩ := returned_turns hb
      exact ⟨k, hturns.isLeast_stops hstop, fun i hi => hturns.not_fails hi⟩
    · rintro ⟨k, ⟨hstop, -⟩, hfails⟩
      -- `k` returns are enough
      rcases tr.waitForActs_cases now millis k with ⟨l, -, -, -, hr⟩ |
        ⟨l, hl, -, -, hfail, -⟩ | ⟨-, hnot, -⟩
      · exact ⟨k, tr.value l, by rw [hr]⟩
      · exact absurd hfail (hfails (l + 1) hl)
      · exact absurd hstop hnot
  threw n e he := by
    obtain ⟨k, hturns, hstop, hfail, ⟨message, rfl⟩, hacts⟩ := threw_turns he
    exact ⟨k + 1, hturns.isLeast_fails hfail, fun j hj => hturns.not_stops_le hstop hj, rfl, rfl,
      hacts⟩
  throws_iff := by
    constructor
    · rintro ⟨n, e, he⟩
      obtain ⟨k, hturns, hstop, hfail, -⟩ := threw_turns he
      exact ⟨k + 1, hfail, fun j hj => hturns.not_stops_le hstop hj⟩
    · rintro ⟨i, hfail, hstops⟩
      rcases tr.waitForActs_cases now millis i with ⟨k, hk, hturns, hstop, -⟩ |
        ⟨k, -, -, -, -, message, hr⟩ | ⟨hturns, -, -⟩
      · -- it does not stop before `i`, and at `i` only after a return that does not fail
        rcases Nat.lt_or_eq_of_le hk with hlt | rfl
        · exact absurd hstop (hstops k hlt)
        · exact absurd hfail (hturns.not_fails le_rfl)
      · exact ⟨i, _, by rw [hr]⟩
      · exact absurd hfail (hturns.not_fails le_rfl)
  evaluated h0 hkeeps n i hi := by
    have hheld : ∀ {k}, tr.Turns 0 k → .evaluate i ∈ .evaluate 0 :: turnActs 0 k →
        tr.held i = true := by
      intro k hturns hmem
      refine held_of_turns hturns h0 hkeeps i ?_
      rcases List.mem_cons.mp hmem with heq | hmem
      · obtain rfl := WaitAct.evaluate.inj heq
        exact Nat.zero_le k
      · have hle := (evaluate_mem_turnActs.mp hmem).2
        omega
    rcases tr.waitForActs_cases now millis n with ⟨k, -, hturns, -, hr⟩ |
      ⟨k, -, hturns, -, -, message, hr⟩ | ⟨hturns, -, hr⟩ <;> rw [hr] at hi
    · exact hheld hturns hi
    · exact hheld hturns ((List.mem_append.mp hi).resolve_right (by simp))
    · exact hheld hturns hi

end WaitTrace

end CppPthread
