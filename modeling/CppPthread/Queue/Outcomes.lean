import CppPthread.ConditionVariable.Milliseconds
import CppPthread.Queue.Deadlines
import CppPthread.Queue.WithoutLambda

set_option autoImplicit false

/-! # How a timed operation ends

A timed `get` is to deliver an item or to throw `queue_timeout`, and a timed `put` to store its
item or to throw `queue_full`. The third way to end is an exception that comes out of the wait:
the predicate overload of `wait_for` computes a deadline from a negative delay as well, and the
remainder of a negative delay may outweigh the microseconds of the clock. Then the nanoseconds
are negative and `pthread_cond_timedwait` refuses them. This happens exactly when the operation
has to wait and is given such a delay (`Op.onlyDocumented_iff`).

The deadline is a member of the condition variable, so one such delay is enough for the others:
in a run, all delays have to be good (`run_safe`).
-/

namespace CppPthread

open Posix Run

/-! ## One operation -/

section Bodies

variable {T : Type}

/-- `pthread_cond_timedwait` returns `EINVAL` for nanoseconds that are out of range, and otherwise
`0` or `ETIMEDOUT`. -/
def TimedwaitAnswers (abstime : Timespec) (rc : Int) : Prop :=
  (¬ abstime.valid ∧ rc = EINVAL) ∨ (abstime.valid ∧ (rc = 0 ∨ rc = ETIMEDOUT))

/-- The ends that the documentation of the operation names. -/
def Op.Documented (op : Op T) : Ended T → Prop
  | .received _ _ => op.item? = none
  | .stored items => ∃ x before, op.item? = some x ∧ items = before ++ [x]
  | .threw e => e = op.timedOut
  | .failed _ => False
  | .undefined => False

/-- With any answers of `pthread_cond_timedwait` the operation ends in a documented way, if it
ends; and it does end once a wait has timed out. -/
def Op.OnlyDocumented (op : Op T) (waitTime : Int) (now : Timeval) (seen : Seen T) : Prop :=
  ∀ turns, (∀ turn ∈ turns, TimedwaitAnswers (deadline now waitTime) turn.rc) →
    (∀ ended, op.body waitTime now seen turns = some ended → op.Documented ended) ∧
      ((∃ turn ∈ turns, turn.rc = ETIMEDOUT) →
        ∃ ended, op.body waitTime now seen turns = some ended)

/-- A loop whose waits do not fail returns the value of its predicate. -/
theorem waitForLoop_value {α : Type} {lambda : α → Bool} {timeout : Timespec}
    {turns : List (Turn α)} (hturns : ∀ turn ∈ turns, turn.rc = 0 ∨ turn.rc = ETIMEDOUT)
    {status : CvStatus} {seen : α} {w : Waited α}
    (h : waitForLoop lambda timeout (lambda seen) status seen turns = some w) :
    w.result = .ok (lambda w.seen) := by
  induction turns generalizing status seen w with
  | nil =>
      rw [waitForLoop] at h
      split_ifs at h
      obtain rfl := Option.some.inj h
      rfl
  | cons turn turns ih =>
      rw [waitForLoop] at h
      split_ifs at h
      · obtain ⟨status', hstatus⟩ : ∃ status', timedwaitStatus turn.rc = .ok status' := by
          rcases hturns turn (by simp) with hrc | hrc
          · exact ⟨.noTimeout, by rw [hrc]; rfl⟩
          · exact ⟨.timedout, by rw [hrc]; rfl⟩
        rw [hstatus] at h
        obtain ⟨w', hw', rfl⟩ := Option.map_eq_some_iff.mp h
        have hvalue := ih (fun u hu => hturns u (List.mem_cons_of_mem _ hu)) hw'
        exact hvalue
      · obtain rfl := Option.some.inj h
        rfl

/-- A loop with a wait that times out comes to its end. -/
theorem waitForLoop_ends {α : Type} {lambda : α → Bool} {timeout : Timespec}
    {turns : List (Turn α)} (htime : ∃ turn ∈ turns, turn.rc = ETIMEDOUT) (stopWaiting : Bool)
    (status : CvStatus) (seen : α) :
    ∃ w, waitForLoop lambda timeout stopWaiting status seen turns = some w := by
  induction turns generalizing stopWaiting status seen with
  | nil => simp at htime
  | cons turn turns ih =>
      rw [waitForLoop]
      split_ifs
      · cases hstatus : timedwaitStatus turn.rc with
        | error e => exact ⟨_, rfl⟩
        | ok status' =>
            by_cases hrc : turn.rc = ETIMEDOUT
            · obtain rfl : CvStatus.timedout = status' := by simpa [hrc] using hstatus
              simp only [waitForLoop_timedout]
              exact ⟨_, rfl⟩
            · have htail : ∃ u ∈ turns, u.rc = ETIMEDOUT := by
                obtain ⟨u, hu, hu'⟩ := htime
                rcases List.mem_cons.mp hu with rfl | hmem
                · exact absurd hu' hrc
                · exact ⟨u, hmem, hu'⟩
              obtain ⟨w, hw⟩ := ih htail (lambda turn.seen) status' turn.seen
              simp only [hw]
              exact ⟨_, rfl⟩
      · exact ⟨_, rfl⟩

/-- After a wait that has returned the value of its predicate. -/
theorem Op.documented_finish (op : Op T) (last : Seen T) :
    op.Documented (op.finish (.ok (op.predicate last), last)) := by
  cases hp : op.predicate last with
  | false => exact rfl
  | true =>
      cases hop : op.item? with
      | some x =>
          simp only [finish, hop]
          exact ⟨x, last.items, hop, rfl⟩
      | none =>
          -- the predicate of a `get` says that there is an item
          cases hitems : last.items with
          | nil => cases op <;> simp [predicate, item?, hitems] at hp hop
          | cons item items =>
              simp only [finish, hop, hitems]
              exact hop

theorem Op.body_eq (op : Op T) (waitTime : Int) (now : Timeval) (seen : Seen T)
    (turns : List (Turn (Seen T))) :
    op.body waitTime now seen turns
      = (waitForLoop op.predicate (deadline now waitTime) (op.predicate seen) .noTimeout seen
          turns).map fun w => op.finish w.outcome := by
  simp only [body, waitFor, milliseconds, Option.map_map]
  rfl

/-- **One operation.** It ends in a documented way, whatever the wakeups are, iff its predicate
holds on entry or the microseconds of the clock make up for a negative delay. -/
theorem Op.onlyDocumented_iff (op : Op T) (waitTime : Int) (now : Timeval) (seen : Seen T) :
    op.OnlyDocumented waitTime now seen ↔
      op.predicate seen = true ∨ 0 ≤ now.tvUsec + waitTime.tmod 1000 * 1000 := by
  rw [← deadline_valid_iff]
  constructor
  · intro honly
    by_contra hnot
    obtain ⟨hp, hvalid⟩ := not_or.mp hnot
    -- the first wait is refused
    have hfail := (honly [⟨now, EINVAL, seen⟩] (List.forall_mem_singleton.mpr
      (.inl ⟨hvalid, rfl⟩))).1 (.failed (conditionVariableException
        "The value specified by abstime is invalid." EINVAL)) ?_
    · exact hfail
    · rw [Op.body_eq, Bool.not_eq_true _ |>.mp hp]
      rfl
  · intro hgood turns hturns
    by_cases hp : op.predicate seen = true
    · -- it does not wait
      have hbody : op.body waitTime now seen turns
          = some (op.finish (.ok (op.predicate seen), seen)) := by
        rw [Op.body_eq, hp]
        cases turns <;> rfl
      refine ⟨fun ended h => ?_, fun _ => ⟨_, hbody⟩⟩
      obtain rfl := Option.some.inj (hbody.symm.trans h)
      exact op.documented_finish seen
    · have hvalid := hgood.resolve_left hp
      have hrcs : ∀ turn ∈ turns, turn.rc = 0 ∨ turn.rc = ETIMEDOUT := fun turn hturn =>
        ((hturns turn hturn).resolve_left fun h => h.1 hvalid).2
      refine ⟨fun ended h => ?_, fun htime => ?_⟩
      · rw [Op.body_eq] at h
        obtain ⟨w, hw, rfl⟩ := Option.map_eq_some_iff.mp h
        rw [Waited.outcome, waitForLoop_value hrcs hw]
        exact op.documented_finish w.seen
      · obtain ⟨w, hw⟩ := waitForLoop_ends htime (op.predicate seen) .noTimeout seen
        exact ⟨_, by rw [Op.body_eq, hw]; rfl⟩

end Bodies

/-! ## Any number of operations -/

namespace SyncQueue

section Safe

variable {Tid T : Type}

/-- The waiting time of a thread that is in a timed wait with the mutex. -/
def waiting : Frame QueueCv (Code QueueCv (Local T)) → Option Int
  | .running (.waiting _ k) => k.op.waitTime
  | _ => none

/-- The step computes no deadline, or it computes one whose nanoseconds are in range:
`gettimeofday` succeeds and the microseconds make up for a negative delay. -/
def DelayGood (q : SyncQueue Tid T) : Event Tid T → Prop
  | .arm t clockOk => clockOk = true ∧ ∀ waitTime ∈ waiting (q.frame t),
      0 ≤ q.cvs.mon.clock.tvUsec + waitTime.tmod 1000 * 1000
  | _ => True

instance (q : SyncQueue Tid T) : DecidablePred (DelayGood q)
  | .arm t clockOk => inferInstanceAs (Decidable (clockOk = true ∧
      ∀ waitTime ∈ waiting (q.frame t), 0 ≤ q.cvs.mon.clock.tvUsec + waitTime.tmod 1000 * 1000))
  | .call _ _ | .lock _ | .start _ | .test _ | .block _ | .spurious _ | .expire _ | .relock _
  | .copy _ _ | .pop _ | .push _ _ | .notify _ _ | .leave _ | .setMaxSize _ | .tick _ =>
      isTrue trivial

/-- The wait of a thread has not failed, and will not: before it has computed its deadline it has
the delay of its operation, and afterwards the member `timeout` is in range. -/
def CodeSafe (timeout : QueueCv → Timespec) : Code QueueCv (Local T) → Prop
  | .waiting w k =>
      (w.point = .arm → k.op.waitTime = some w.delay) ∧
        (w.point ≠ .arm → w.call.timed = true → (timeout w.call.cv).valid)
  | .returned (.error _) _ => False
  | _ => True

def Safe (q : SyncQueue Tid T) : Prop :=
  ∀ t c, (q.frame t).data = some c → CodeSafe q.cvs.timeout c

theorem safe_construct (m : BitVec 32) (now : Timeval) (timeout : QueueCv → Timespec) :
    (construct m now timeout : SyncQueue Tid T).Safe :=
  fun _ _ h => by cases h

/-- It does no harm to store a deadline that is in range. -/
theorem CodeSafe.update {timeout : QueueCv → Timespec} {c : Code QueueCv (Local T)}
    (h : CodeSafe timeout c) {cv : QueueCv} {d : Timespec} (hd : d.valid) :
    CodeSafe (Function.update timeout cv d) c := by
  cases c with
  | client k => trivial
  | waiting w k =>
      refine ⟨h.1, fun hp htimed => ?_⟩
      rw [Function.update_apply]
      split_ifs
      · exact hd
      · exact h.2 hp htimed
  | returned r k => cases r <;> exact h

variable [DecidableEq Tid] [Fintype Tid]

/-- What a step does to the members `timeout`. -/
theorem step_timeout {q q' : SyncQueue Tid T} {e : Event Tid T} (hq : q.Ok)
    (h : step q e = some q') :
    q'.cvs.timeout = q.cvs.timeout ∨ ∃ t w k, e = .arm t true ∧
      q.frame t = .running (.waiting w k) ∧ w.point = .arm ∧
      q'.cvs.timeout
        = Function.update q.cvs.timeout w.call.cv (deadline q.cvs.mon.clock w.delay) := by
  cases step_trans hq h with
  | @arm t w k ht hp => exact .inr ⟨t, w, k, rfl, ht, hp, rfl⟩
  | _ => exact .inl rfl

/-- The wait of a safe thread is not refused. -/
theorem Safe.blocks {q q' : SyncQueue Tid T} (hs : q.Safe) {t : Tid} {w : Wait QueueCv}
    {k : Local T} (ht : q.frame t = .running (.waiting w k)) (h : step q (.block t) = some q') :
    ∃ cv a, q'.frame t = .blocked cv a (.waiting w k) := by
  obtain ⟨cvs, htr, rfl⟩ := step_call (by simp) rfl h
  cases htr with
  | block ht' =>
      obtain ⟨rfl, rfl⟩ : _ = w ∧ _ = k := by simpa [frame, ht'] using ht
      exact ⟨_, _, Function.update_self ..⟩
  | refuse ht' hp hc hv =>
      obtain ⟨rfl, rfl⟩ : _ = w ∧ _ = k := by simpa [frame, ht'] using ht
      have hsafe : CodeSafe q.cvs.timeout (.waiting _ _) := hs t _ (by rw [ht]; rfl)
      exact absurd (hsafe.2 (by rw [hp]; simp) hc) hv

/-- **The step lemma.** -/
theorem step_safe {q q' : SyncQueue Tid T} {e : Event Tid T} (hq : q.Ok) (hs : q.Safe)
    (hgood : q.DelayGood e) (h : step q e = some q') : q'.Safe := by
  -- what was safe stays so: if a deadline is stored, it is in range
  have hkeep : ∀ {c : Code QueueCv (Local T)},
      CodeSafe q.cvs.timeout c → CodeSafe q'.cvs.timeout c := by
    intro c hc
    rcases step_timeout hq h with htimeout | ⟨t, w, k, rfl, ht, hp, htimeout⟩
    · rwa [htimeout]
    · have hsafe : CodeSafe q.cvs.timeout (.waiting w k) := hs t _ (by rw [ht]; rfl)
      have hdelay := hgood.2 w.delay (by rw [ht]; exact hsafe.1 hp)
      rw [htimeout]
      exact hc.update ((deadline_valid_iff _ _).mpr hdelay)
  intro u c hc
  by_cases hu : e.thread = some u
  · have hput : ∀ {f : Frame QueueCv (Code QueueCv (Local T))} {g : Tid → _},
        (Function.update g u f u).data = some c → f.data = some c := fun hf => by
      rwa [Function.update_self] at hf
    have hsame : ∀ {c'}, (q.frame u).data = some c' → CodeSafe q'.cvs.timeout c' := fun hc' =>
      hkeep (hs u _ hc')
    cases step_trans hq h with
    | @start t op ht =>
        obtain rfl := Option.some.inj hu
        obtain rfl := Option.some.inj (hput hc)
        cases op <;> simp [CodeSafe, Wait.start, Op.call, Op.waitTime, Call.timed]
    | @arm t w k ht hp =>
        obtain rfl := Option.some.inj hu
        obtain rfl := Option.some.inj (hput hc)
        have hsafe : CodeSafe q.cvs.timeout (.waiting w k) := hs t _ (by rw [ht]; rfl)
        refine ⟨fun hp' => by simp at hp', fun _ _ => ?_⟩
        show (Function.update q.cvs.timeout w.call.cv _ w.call.cv).valid
        rw [Function.update_self]
        exact (deadline_valid_iff _ _).mpr (hgood.2 w.delay (by rw [ht]; exact hsafe.1 hp))
    | armFail => exact absurd hgood.1 (by simp)
    | @testBlock t w k status ht hp =>
        obtain rfl := Option.some.inj hu
        obtain rfl := Option.some.inj (hput hc)
        have hsafe : CodeSafe q.cvs.timeout (.waiting w k) := hs t _ (by rw [ht]; rfl)
        exact ⟨fun hp' => by simp at hp', fun _ => hsafe.2 (by rw [hp]; simp)⟩
    | @block t w k ht =>
        obtain rfl := Option.some.inj hu
        obtain rfl := Option.some.inj (hput hc)
        exact hsame (by rw [ht]; rfl)
    | @refuse t w k ht hp hv =>
        obtain rfl := Option.some.inj hu
        obtain ⟨cv, a, hblocked⟩ := hs.blocks ht h
        cases (put_frame_self q t _).symm.trans hblocked
    | spurious ht =>
        obtain rfl := Option.some.inj hu
        obtain rfl := Option.some.inj (hput hc)
        exact hsame (by rw [ht]; rfl)
    | expire ht =>
        obtain rfl := Option.some.inj hu
        obtain rfl := Option.some.inj (hput hc)
        exact hsame (by rw [ht]; rfl)
    | @relock t rc w k status ht =>
        obtain rfl := Option.some.inj hu
        obtain rfl := Option.some.inj (hput hc)
        have hsafe : CodeSafe q.cvs.timeout (.waiting w k) := hs t _ (by rw [ht]; rfl)
        have hframe := hq.frames t
        rw [ht] at hframe
        obtain ⟨w', k', hw, -, hp, -⟩ := hframe
        obtain ⟨rfl, rfl⟩ : w = w' ∧ k = k' := by simpa using hw
        exact ⟨fun hp' => by simp at hp', fun _ => hsafe.2 (by rw [hp]; simp)⟩
    | setMaxSize => cases hu
    | tick => cases hu
    | _ =>
        -- the thread is not in a wait, and none has failed
        obtain rfl := Option.some.inj hu
        cases hput hc <;> trivial
  · have hc' : (q.frame u).data = some c := by
      rcases step_frame_ne hq h hu with hf | hf
      · rwa [hf] at hc
      · rwa [hf, Frame.unblock_data] at hc
    exact hkeep (hs u c hc')

/-- **The run lemma.** -/
theorem run_safe {q q' : SyncQueue Tid T} {es : List (Event Tid T)} (hq : q.Ok) (hs : q.Safe)
    (hgood : Along step DelayGood q es) (h : run step q es = some q') : q'.Safe :=
  (run_invariant (I := fun q => q.Ok ∧ q.Safe)
    (fun _ _ _ hi hg hstep => ⟨step_ok hi.1 hstep, step_safe hi.1 hi.2 hg hstep⟩)
    ⟨hq, hs⟩ hgood h).2

variable (Tid T) in
/-- **When only the documented outcomes occur.** For one operation, iff it need not wait or the
microseconds of the clock make up for a negative waiting time. For any number of operations, along
every run whose delays are all good. -/
theorem timed_operations_only_documented :
    (∀ (waitTime : Int) (now : Timeval) (seen : Seen T),
      (Op.getFor waitTime).OnlyDocumented waitTime now seen ↔
        seen.items ≠ [] ∨ 0 ≤ now.tvUsec + waitTime.tmod 1000 * 1000) ∧
    (∀ (x : T) (waitTime : Int) (now : Timeval) (seen : Seen T),
      (Op.putFor x waitTime).OnlyDocumented waitTime now seen ↔
        seen.items.length < seen.capacity ∨ 0 ≤ now.tvUsec + waitTime.tmod 1000 * 1000) ∧
    ∀ (m : BitVec 32) (now : Timeval) (timeout : QueueCv → Timespec) (es : List (Event Tid T))
      (q : SyncQueue Tid T), Along step DelayGood (construct m now timeout) es →
      run step (construct m now timeout) es = some q →
      ∀ t e k, q.frame t ≠ .running (.returned (.error e) k) := by
  refine ⟨fun waitTime now seen => ?_, fun x waitTime now seen => ?_,
    fun m now timeout es q hgood h t e k ht => ?_⟩
  · rw [Op.onlyDocumented_iff]
    simp [Op.predicate]
  · rw [Op.onlyDocumented_iff]
    simp [Op.predicate]
  · have hsafe := run_safe (ok_construct m now timeout) (safe_construct m now timeout) hgood h
    exact hsafe t (.returned (.error e) k) (by rw [ht]; rfl)

end Safe

/-- Worker a waits for `-1` ms, five milliseconds into a second. -/
def lateGet : List (Event Worker Nat) :=
  [.call .a (.getFor (-1)), .lock .a, .start .a, .arm .a true, .test .a, .block .a, .expire .a,
   .relock .a, .test .a, .notify .a ∅]

/-- Five milliseconds into a second. -/
def fiveMillis : Timeval := ⟨0, 5000, by decide, by decide⟩

theorem lateGet_runs :
    (run step (construct 1 fiveMillis fun _ => ⟨0, 0⟩) lateGet).isSome = true := by decide

theorem timed_operations_only_documented_lateGet :
    (∃ q, run step (construct 1 fiveMillis fun _ => ⟨0, 0⟩) lateGet = some q ∧
      ∀ t e k, q.frame t ≠ .running (.returned (.error e) k)) ∧
    (Op.getFor (-1) : Op Nat).OnlyDocumented (-1) fiveMillis ⟨[], 4⟩ :=
  ⟨⟨_, (Option.some_get lateGet_runs).symm,
    (timed_operations_only_documented Worker Nat).2.2 1 fiveMillis _ lateGet _ (by decide)
      (Option.some_get lateGet_runs).symm⟩,
    ((timed_operations_only_documented Worker Nat).1 (-1) fiveMillis ⟨[], 4⟩).mpr (by decide)⟩

/-- At the beginning of a second the same `get` ends with an exception of the condition variable,
and so does a `put` into a full queue. -/
theorem negative_wait_time_fails :
    ¬ (∀ waitTime now, (Op.getFor waitTime : Op Nat).OnlyDocumented waitTime now ⟨[], 4⟩) ∧
    TimedwaitAnswers (deadline Timeval.zero (-1)) EINVAL ∧
    getFor (-1) Timeval.zero (⟨[], 4⟩ : Seen Nat) [⟨Timeval.zero, EINVAL, ⟨[], 4⟩⟩]
      = some (.failed (conditionVariableException
        "The value specified by abstime is invalid." EINVAL)) ∧
    putFor 8 (-1) Timeval.zero (⟨[7], 1⟩ : Seen Nat) [⟨Timeval.zero, EINVAL, ⟨[7], 1⟩⟩]
      = some (.failed (conditionVariableException
        "The value specified by abstime is invalid." EINVAL)) := by
  have hanswer : TimedwaitAnswers (deadline Timeval.zero (-1)) EINVAL := .inl ⟨by decide, rfl⟩
  refine ⟨fun hall => ?_, hanswer, by decide, by decide⟩
  exact (hall (-1) Timeval.zero [⟨Timeval.zero, EINVAL, ⟨[], 4⟩⟩]
    (List.forall_mem_singleton.mpr hanswer)).1 (.failed (conditionVariableException
      "The value specified by abstime is invalid." EINVAL)) (by decide)

end SyncQueue

end CppPthread
