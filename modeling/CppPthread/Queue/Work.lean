import CppPthread.Basic.Work
import CppPthread.Queue.Wakeup

set_option autoImplicit false

/-! # The work of a queue is bounded

The operations wait by blocking: no loop of theirs goes round unless somebody has woken its thread
up. So there is a bound on the steps that the threads can take. The `rank` of a thread is a bound
on the steps that it has left if nobody wakes it up; for a thread that will notify, it also pays for
the threads that a notification wakes up, whose waits may go round once more. Each step lowers the
sum of the ranks, except a new call and a spurious wakeup, which add to it (`step_left`).

That a wait which has timed out does not go round again is an invariant of its own (`StatusOk`):
the status `timedout` comes from timed waits only, and these give up on it.
-/

namespace CppPthread

open Posix Run Work

/-! ## Waits that have timed out -/

section Waits

variable {T : Type} {w : Wait QueueCv} {op : Op T} {k : Local T}

theorem Wait.tested_timedout (hw : w.call = op.call) (htimed : w.call.timed = true) :
    w.tested .timedout false k = .returned (.ok false) k := by
  cases op with
  | get => simp [hw, Op.call, Call.timed] at htimed
  | put item => simp [hw, Op.call, Call.timed] at htimed
  | getFor waitTime => simp [Wait.tested, hw, Op.call]
  | putFor item waitTime => simp [Wait.tested, hw, Op.call]

/-- A timed wait that has timed out comes to its predicate with that status. -/
theorem Wait.resumed_etimedout (hw : w.call = op.call) (htimed : w.call.timed = true) :
    w.resumed ETIMEDOUT k = .waiting { w with point := .test .timedout } k := by
  cases op with
  | get => simp [hw, Op.call, Call.timed] at htimed
  | put item => simp [hw, Op.call, Call.timed] at htimed
  | getFor waitTime => simp [Wait.resumed, hw, Op.call, timedwaitStatus_etimedout]
  | putFor item waitTime => simp [Wait.resumed, hw, Op.call, timedwaitStatus_etimedout]

/-- A wait that has been woken up comes to its predicate with `no_timeout`. -/
theorem Wait.resumed_zero (hw : w.call = op.call) :
    w.resumed 0 k = .waiting { w with point := .test .noTimeout } k := by
  cases op <;> simp [Wait.resumed, hw, Op.call, timedwaitStatus_zero]

end Waits

namespace SyncQueue

section Status

variable {Tid T : Type}

/-- Only a timed wait comes to its predicate with the status `timedout`. -/
def StatusOk : Frame QueueCv (Code QueueCv (Local T)) → Prop
  | .running (.waiting w _) => w.point = .test .timedout → w.call.timed = true
  | _ => True

variable [DecidableEq Tid] [Fintype Tid]

/-- The wait that goes on knows why it has been woken up. -/
theorem step_relock {q q' : SyncQueue Tid T} {t : Tid} (hq : q.Ok)
    (h : step q (.relock t) = some q') :
    ∃ rc w k status, q.frame t = .woken k.op.waitsOn rc (.waiting w k) ∧
      q' = q.take t (.waiting { w with point := .test status } k) ∧
      (rc ≠ ETIMEDOUT ∧ status = .noTimeout ∨
        rc = ETIMEDOUT ∧ status = .timedout ∧ w.call.timed = true) := by
  obtain ⟨cvs, htr, rfl⟩ := step_call (by simp) rfl h
  cases htr with
  | @relock t cv rc c ht hm =>
      obtain ⟨w, k, rfl, hcall, rfl, -⟩ := hq.woken ht
      have hframe := hq.frames t
      rw [frame, ht] at hframe
      obtain ⟨w', k', hwk, -, -, hrc⟩ := hframe
      obtain ⟨rfl, rfl⟩ : w = w' ∧ k = k' := by simpa using hwk
      rcases hrc with rfl | ⟨rfl, htimed⟩
      · refine ⟨0, w, k, .noTimeout, ht, ?_, .inl ⟨by decide, rfl⟩⟩
        show q.take t (w.resumed 0 k) = _
        rw [Wait.resumed_zero hcall]
      · refine ⟨ETIMEDOUT, w, k, .timedout, ht, ?_, .inr ⟨rfl, rfl, htimed⟩⟩
        show q.take t (w.resumed ETIMEDOUT k) = _
        rw [Wait.resumed_etimedout hcall htimed]

/-- A wait that blocks has not timed out. -/
theorem step_test_block {q : SyncQueue Tid T} {t : Tid} {w : Wait QueueCv} {k : Local T}
    (hq : q.Ok) (hst : StatusOk (q.frame t)) (ht : q.frame t = .running (.waiting w k))
    (hp : w.point = .test .timedout) (hr : q.ready k.op = false) :
    step q (.test t) ≠ some (q.put t (.running (.waiting { w with point := .block } k))) := by
  intro h
  have hcall := (hq.waiting (t := t) (by rw [ht]; rfl)).1
  rw [ht] at hst
  obtain ⟨calls, items, cvs, hc, hr', heq⟩ := (step_eq_some (by simp)).mp h
  simp only [code, ht] at hc
  obtain ⟨rfl, rfl⟩ : [_] = calls ∧ q.items = items := by simpa using hc
  have hf : q.cvs.mon.frame t = .running (.waiting w k) := ht
  rw [run_singleton, hr] at hr'
  simp only [CondVars.step, hf, hp, Option.some.injEq] at hr'
  subst hr'
  have hframe : (q.put t (.running (.waiting { w with point := .block } k))).frame t
      = .running (w.tested .timedout false k) := by
    rw [heq]
    exact Function.update_self ..
  rw [put_frame_self, Wait.tested_timedout hcall (hst hp)] at hframe
  cases hframe

theorem step_statusOk {q q' : SyncQueue Tid T} {e : Event Tid T} (hq : q.Ok)
    (hst : ∀ t, StatusOk (q.frame t)) (h : step q e = some q') : ∀ t, StatusOk (q'.frame t) := by
  have update : ∀ {g : Tid → Frame QueueCv (Code QueueCv (Local T))} {t : Tid}
      {f : Frame QueueCv (Code QueueCv (Local T))}, (∀ u, StatusOk (g u)) → StatusOk f →
      ∀ u, StatusOk (Function.update g t f u) :=
    fun hg hf => (Function.forall_update_iff _ fun _ => StatusOk).mpr ⟨hf, fun u _ => hg u⟩
  have wake : ∀ W, ∀ u, StatusOk ((q.wake W).frame u) := fun W u =>
    Monitor.wake_keeps (P := StatusOk) (fun f hf => by cases f <;> exact hf) (hst u) W
  cases step_trans hq h with
  | call => exact update hst trivial
  | lock => exact update hst trivial
  | @start t op => exact update hst (by cases op <;> simp [StatusOk, Wait.start, Op.call])
  | arm => exact update hst (by simp [StatusOk])
  | testBlock => exact update hst (by simp [StatusOk])
  | @relock t =>
      obtain ⟨rc, w, k, status, -, hq', hrc⟩ := step_relock hq h
      rw [hq']
      refine update hst fun hp => ?_
      rcases hrc with ⟨-, rfl, -⟩ | ⟨-, -, htimed⟩
      · cases hp
      · exact htimed
  | notifyOne => exact update (wake _) trivial
  | notifyAll => exact update (wake _) trivial
  | setMaxSize => exact hst
  | tick => exact hst
  | _ => exact update hst trivial

end Status

/-! ## Ranks -/

section Rank

variable {Tid T : Type}

/-- A thread in a wait, in a queue with `n` threads. -/
def pointRank (n : Nat) : Point → Nat
  | .arm => 3 * n + 10
  | .test .noTimeout => 3 * n + 9
  | .test .timedout => 3 * n + 5
  | .block => 3 * n + 8

def codeRank (n : Nat) : Code QueueCv (Local T) → Nat
  | .client ⟨_, .enter⟩ => 3 * n + 11
  | .client ⟨_, .pop⟩ => 3 * n + 3
  -- each of the threads that it wakes up may go round its loop once more
  | .client ⟨_, .notify⟩ => 3 * n + 2
  | .client ⟨_, .leave _⟩ => 1
  | .waiting w _ => pointRank n w.point
  | .returned (.ok true) _ => 3 * n + 4
  | .returned (.ok false) _ => 3 * n + 2
  | .returned (.error _) _ => 1

def rank (n : Nat) : Frame QueueCv (Code QueueCv (Local T)) → Nat
  | .outside => 0
  | .locking _ => 3 * n + 12
  | .running c => codeRank n c
  | .blocked _ _ _ => 3 * n + 7
  | .woken _ rc _ => if rc = ETIMEDOUT then 3 * n + 6 else 3 * n + 10

theorem rank_le (n : Nat) (f : Frame QueueCv (Code QueueCv (Local T))) : rank n f ≤ 3 * n + 12 := by
  cases f with
  | running c =>
      cases c with
      | client k =>
          obtain ⟨op, pc⟩ := k
          cases pc <;> simp [rank, codeRank]
      | waiting w k =>
          show pointRank n w.point ≤ _
          cases w.point with
          | test status => cases status <;> simp [pointRank]
          | _ => simp [pointRank]
      | returned r k =>
          cases r with
          | error e => simp [rank, codeRank]
          | ok b => cases b <;> simp [rank, codeRank]
  | woken cv rc c =>
      simp only [rank]
      split_ifs <;> omega
  | _ => simp [rank]

theorem rank_unblock (n : Nat) (f : Frame QueueCv (Code QueueCv (Local T))) :
    rank n (f.unblock 0) ≤ rank n f + 3 := by
  cases f with
  | blocked cv a c => simp [Frame.unblock, rank, show (0 : Int) ≠ ETIMEDOUT by decide]
  | _ => exact Nat.le_add_right _ 3

/-- The thread takes the step itself, and its environment has not caused it: everything but a new
call and a spurious wakeup. -/
def Event.works : Event Tid T → Bool
  | .call _ _ | .spurious _ | .setMaxSize _ | .tick _ => false
  | _ => true

def Event.isCall : Event Tid T → Bool
  | .call _ _ => true
  | _ => false

def Event.isSpurious : Event Tid T → Bool
  | .spurious _ => true
  | _ => false

/-- What an event adds to the work of `n` threads. -/
def Event.credit (n : Nat) (e : Event Tid T) : Nat :=
  (3 * n + 12) * e.isCall.toNat + 3 * e.isSpurious.toNat

/-- What the events of a run bring in. -/
theorem sum_credit (n : Nat) (es : List (Event Tid T)) :
    (es.map (Event.credit n)).sum
      = (3 * n + 12) * es.countP Event.isCall + 3 * es.countP Event.isSpurious := by
  induction es with
  | nil => rfl
  | cons e es ih =>
      simp only [List.map_cons, List.sum_cons, List.countP_cons, ih, Event.credit]
      cases e.isCall <;> cases e.isSpurious <;> simp [Nat.mul_add] <;> omega

variable [DecidableEq Tid] [Fintype Tid]

/-- The steps that the threads have left. -/
def left (q : SyncQueue Tid T) : Nat := total (rank (Fintype.card Tid)) q.frame

/-- A thread goes to `f`, which leaves at most `d` more to do. -/
theorem left_raise {q q' : SyncQueue Tid T} {t : Tid}
    {f : Frame QueueCv (Code QueueCv (Local T))} {d : Nat}
    (hframe : q'.frame = Function.update q.frame t f)
    (hrank : rank (Fintype.card Tid) f ≤ rank (Fintype.card Tid) (q.frame t) + d) :
    q'.left ≤ q.left + d := by
  have htotal := total_update (rank (Fintype.card Tid)) q.frame t f
  unfold left
  rw [hframe]
  omega

/-- A thread goes to `f`, which leaves less to do. -/
theorem left_lower {q q' : SyncQueue Tid T} {t : Tid}
    {f : Frame QueueCv (Code QueueCv (Local T))} {d : Nat}
    (hframe : q'.frame = Function.update q.frame t f)
    (hrank : rank (Fintype.card Tid) f < rank (Fintype.card Tid) (q.frame t)) :
    q'.left + 1 ≤ q.left + d := by
  have htotal := total_update (rank (Fintype.card Tid)) q.frame t f
  unfold left
  rw [hframe]
  omega

/-- A thread that notifies pays for the threads of `W`. -/
theorem left_wake {q q' : SyncQueue Tid T} {t : Tid} {W : Finset Tid}
    {c c' : Code QueueCv (Local T)} {d : Nat} (ht : q.frame t = .running c)
    (hframe : q'.frame = Function.update (q.wake W).frame t (.running c'))
    (hc : codeRank (Fintype.card Tid) c = 3 * Fintype.card Tid + 2)
    (hc' : codeRank (Fintype.card Tid) c' = 1) : q'.left + 1 ≤ q.left + d := by
  have htotal := total_update (rank (Fintype.card Tid)) (q.wake W).frame t (.running c')
  have hwake : total (rank (Fintype.card Tid)) (q.wake W).frame
      ≤ q.left + Fintype.card Tid * 3 := by
    refine total_le fun u => ?_
    by_cases hu : u ∈ W
    · have hin : (q.wake W).frame u = (q.frame u).unblock 0 := Monitor.wake_frame_of_mem hu
      rw [hin]
      exact rank_unblock _ _
    · have hout : (q.wake W).frame u = q.frame u := Monitor.wake_frame_of_notMem hu
      rw [hout]
      exact Nat.le_add_right _ 3
  rw [wake_frame_running ht, rank, rank, hc, hc'] at htotal
  unfold left at hwake ⊢
  rw [hframe]
  omega

/-- **The step lemma.** -/
theorem step_left {q q' : SyncQueue Tid T} {e : Event Tid T} (hq : q.Ok)
    (hst : ∀ t, StatusOk (q.frame t)) (h : step q e = some q') :
    q'.left + e.works.toNat ≤ q.left + e.credit (Fintype.card Tid) := by
  cases step_trans hq h with
  | @call t op ht =>
      have hcredit : (Event.call t op).credit (Fintype.card Tid) = 3 * Fintype.card Tid + 12 := by
        simp [Event.credit, Event.isCall, Event.isSpurious]
      rw [hcredit]
      exact left_raise rfl (by simp [rank])
  | lock ht => exact left_lower rfl (by simp [rank, codeRank, ht])
  | @start t op ht =>
      refine left_lower rfl ?_
      cases op <;> simp [rank, codeRank, pointRank, Wait.start, Op.call, ht]
  | arm ht hp => exact left_lower rfl (by simp [rank, codeRank, pointRank, ht, hp])
  | armFail ht hp => exact left_lower rfl (by simp [rank, codeRank, pointRank, ht, hp])
  | @testTrue t w k status ht hp hr =>
      refine left_lower rfl ?_
      cases status <;> simp [rank, codeRank, pointRank, ht, hp]
  | @testBlock t w k status ht hp hr =>
      cases status with
      | noTimeout => exact left_lower rfl (by simp [rank, codeRank, pointRank, ht, hp])
      | timedout => exact absurd h (step_test_block hq (hst t) ht hp hr)
  | testFalse ht hp hr => exact left_lower rfl (by simp [rank, codeRank, pointRank, ht, hp])
  | block ht hp => exact left_lower rfl (by simp [rank, codeRank, pointRank, ht, hp])
  | refuse ht hp hv => exact left_lower rfl (by simp [rank, codeRank, pointRank, ht, hp])
  | @spurious t a w k ht =>
      have hunblock := rank_unblock (Fintype.card Tid) (q.frame t)
      rw [ht, Frame.unblock, ← ht] at hunblock
      exact left_raise rfl hunblock
  | expire ht ha => exact left_lower rfl (by simp [rank, ht])
  | relock =>
      obtain ⟨rc, w, k, status, ht, hq', hrc⟩ := step_relock hq h
      rw [hq']
      refine left_lower rfl ?_
      rcases hrc with ⟨hrc, rfl, -⟩ | ⟨rfl, rfl, -⟩
      · simp [rank, codeRank, pointRank, ht, hrc]
      · simp [rank, codeRank, pointRank, ht]
  | copy ht => exact left_lower rfl (by simp [rank, codeRank, ht])
  | copyThrow ht => exact left_lower rfl (by simp [rank, codeRank, ht])
  | pop ht => exact left_lower rfl (by simp [rank, codeRank, ht])
  | push ht => exact left_lower rfl (by simp [rank, codeRank, ht])
  | pushThrow ht => exact left_lower rfl (by simp [rank, codeRank, ht])
  | notifyOne ht => exact left_wake ht rfl rfl rfl
  | notifyAll ht => exact left_wake ht rfl rfl rfl
  | leave ht => exact left_lower rfl (by simp [rank, codeRank, ht])
  | unwind ht => exact left_lower rfl (by simp [rank, codeRank, ht])
  | setMaxSize => exact Nat.le_refl _
  | tick => exact Nat.le_refl _

/-! ## Runs -/

/-- What holds in every reachable state, for the ranks. -/
structure Ranked (q : SyncQueue Tid T) : Prop where
  ok : q.Ok
  status : ∀ t, StatusOk (q.frame t)

omit [DecidableEq Tid] [Fintype Tid] in
theorem ranked_construct (m : BitVec 32) (now : Timeval) (timeout : QueueCv → Timespec) :
    (construct m now timeout : SyncQueue Tid T).Ranked :=
  ⟨ok_construct m now timeout, fun _ => trivial⟩

theorem step_ranked {q q' : SyncQueue Tid T} {e : Event Tid T} (hq : q.Ranked)
    (h : step q e = some q') : q'.Ranked :=
  ⟨step_ok hq.ok h, step_statusOk hq.ok hq.status h⟩

/-- **The run lemma**: the threads do no more than what was left, what is called and what spurious
wakeups make them do again. -/
theorem run_works {q q' : SyncQueue Tid T} {es : List (Event Tid T)} (hq : q.Ranked)
    (h : run step q es = some q') :
    q'.left + es.countP Event.works ≤ q.left
      + ((3 * Fintype.card Tid + 12) * es.countP Event.isCall
        + 3 * es.countP Event.isSpurious) := by
  have hbudget := run_budget (fun _ _ _ hi hs => step_ranked hi hs) (fun e => e.works.toNat)
    (Event.credit (Fintype.card Tid)) (fun _ _ _ hi hs => step_left hi.ok hi.status hs) hq h
  rwa [sum_map_toNat, sum_credit] at hbudget

/-- **Bounded work.** In every run the threads together take at most `3n + 12` steps for each call
of an operation, and three more for each spurious wakeup, where `n` is the number of threads. -/
theorem bounded_work {m : BitVec 32} {now : Timeval} {timeout : QueueCv → Timespec}
    {es : List (Event Tid T)} {q : SyncQueue Tid T}
    (h : run step (construct m now timeout) es = some q) :
    es.countP Event.works ≤ (3 * Fintype.card Tid + 12) * es.countP Event.isCall
      + 3 * es.countP Event.isSpurious := by
  have hrun := run_works (ranked_construct m now timeout) h
  have hzero : (construct m now timeout : SyncQueue Tid T).left = 0 := total_eq_zero fun _ => rfl
  omega

end Rank

theorem bounded_work_handover :
    handover.countP Event.works ≤ (3 * 3 + 12) * 3 + 3 * 0 :=
  bounded_work (Option.some_get handover_runs).symm

end SyncQueue

end CppPthread
