import CppPthread.Queue.SyncQueue

set_option autoImplicit false

/-! # What a step of the queue can do

`Trans` lists the steps of the queue together with the calls they make resolved: which frame
the thread leaves, which frame it gets, and what happens to the items. `step_trans` shows that
the list is complete for the states in which the threads are where the code of the queue can
have brought them (`Ok`). Every invariant of the queue is proved from it, case by case.
-/

namespace CppPthread

open Posix Run

/-! ## The waits of the queue

The operations wait with `wait` and with `wait_for` with a predicate, so the transitions of
their waits are those of `Wait` without the ones of the retry loop. -/

section Waits

variable {T : Type} {w : Wait QueueCv} {op : Op T} {k : Local T}

theorem Wait.start_ne_block (c : Call QueueCv) : (Wait.start c).point ≠ .block := by
  cases c <;> simp [Wait.start]

/-- A wait whose predicate fails blocks, unless it is a timed one that has timed out. -/
theorem Wait.tested_false (hw : w.call = op.call) (status : CvStatus) :
    w.tested status false k = .waiting { w with point := .block } k ∨
      status = .timedout ∧ w.tested status false k = .returned (.ok false) k := by
  cases op <;> cases status <;> simp [Wait.tested, hw, Op.call]

theorem Wait.resumed_einval (hw : w.call = op.call) (htimed : w.call.timed = true) :
    w.resumed EINVAL k = .returned (.error (conditionVariableException
      "The value specified by abstime is invalid." EINVAL)) k := by
  cases op with
  | get => simp [hw, Op.call, Call.timed] at htimed
  | put item => simp [hw, Op.call, Call.timed] at htimed
  | getFor waitTime =>
      simp only [Wait.resumed, hw, Op.call]
      rfl
  | putFor item waitTime =>
      simp only [Wait.resumed, hw, Op.call]
      rfl

/-- After a wakeup or a timeout the predicate is evaluated. -/
theorem Wait.resumed_test (hw : w.call = op.call) {rc : Int} (hrc : rc = 0 ∨ rc = ETIMEDOUT) :
    ∃ status, w.resumed rc k = .waiting { w with point := .test status } k := by
  cases op with
  | get => exact ⟨.noTimeout, by simp only [Wait.resumed, hw, Op.call]⟩
  | put => exact ⟨.noTimeout, by simp only [Wait.resumed, hw, Op.call]⟩
  | getFor waitTime =>
      rcases hrc with rfl | rfl
      · exact ⟨.noTimeout, by simp only [Wait.resumed, hw, Op.call, timedwaitStatus_zero]⟩
      · exact ⟨.timedout, by simp only [Wait.resumed, hw, Op.call, timedwaitStatus_etimedout]⟩
  | putFor item waitTime =>
      rcases hrc with rfl | rfl
      · exact ⟨.noTimeout, by simp only [Wait.resumed, hw, Op.call, timedwaitStatus_zero]⟩
      · exact ⟨.timedout, by simp only [Wait.resumed, hw, Op.call, timedwaitStatus_etimedout]⟩

end Waits

namespace SyncQueue

variable {Tid T : Type}

/-- A wait belongs to the operation that called it, and computes a deadline only if it is
timed; `pop_front` belongs to a `get`. -/
def CodeOk : Code QueueCv (Local T) → Prop
  | .client k => k.pc = .pop → k.op.item? = none
  | .waiting w k => w.call = k.op.call ∧ (w.point = .arm → w.call.timed = true)
  | .returned _ _ => True

/-- A thread that is queued for the mutex at the begin of an operation has not started it. -/
def FrameCode : Frame QueueCv (Code QueueCv (Local T)) → Prop
  | .outside => True
  | .locking c => ∃ op, c = .client ⟨op, .enter⟩
  | .running c => CodeOk c
  | .blocked _ _ c => CodeOk c
  | .woken _ _ c => CodeOk c

/-- The threads are where the code can have brought them. -/
structure Ok (q : SyncQueue Tid T) : Prop where
  excl : q.cvs.mon.Excl
  frames : ∀ t, CondVars.FrameOk (q.frame t)
  codes : ∀ t, FrameCode (q.frame t)

theorem ok_construct (m : BitVec 32) (now : Timeval) (timeout : QueueCv → Timespec) :
    (construct m now timeout : SyncQueue Tid T).Ok :=
  ⟨Monitor.excl_free now, fun _ => trivial, fun _ => trivial⟩

variable [DecidableEq Tid]

def put (q : SyncQueue Tid T) (t : Tid) (f : Frame QueueCv (Code QueueCv (Local T))) :
    SyncQueue Tid T := { q with cvs := q.cvs.put t f }

def take (q : SyncQueue Tid T) (t : Tid) (c : Code QueueCv (Local T)) : SyncQueue Tid T :=
  { q with cvs := q.cvs.take t c }

def release (q : SyncQueue Tid T) (t : Tid) (f : Frame QueueCv (Code QueueCv (Local T))) :
    SyncQueue Tid T := { q with cvs := q.cvs.release t f }

def wake (q : SyncQueue Tid T) (W : Finset Tid) : SyncQueue Tid T :=
  { q with cvs := q.cvs.wake W }

def setItems (q : SyncQueue Tid T) (items : List T) : SyncQueue Tid T := { q with items := items }

def setTimeout (q : SyncQueue Tid T) (cv : QueueCv) (d : Timespec) : SyncQueue Tid T :=
  { q with cvs := { q.cvs with timeout := Function.update q.cvs.timeout cv d } }

omit [DecidableEq Tid] in
@[simp] theorem setTimeout_frame (q : SyncQueue Tid T) (cv : QueueCv) (d : Timespec) :
    (q.setTimeout cv d).frame = q.frame := rfl

omit [DecidableEq Tid] in
@[simp] theorem setItems_items (q : SyncQueue Tid T) (items : List T) :
    (q.setItems items).items = items := rfl

omit [DecidableEq Tid] in
@[simp] theorem setTimeout_items (q : SyncQueue Tid T) (cv : QueueCv) (d : Timespec) :
    (q.setTimeout cv d).items = q.items := rfl

@[simp] theorem put_frame_self (q : SyncQueue Tid T) (t : Tid)
    (f : Frame QueueCv (Code QueueCv (Local T))) : (q.put t f).frame t = f :=
  Function.update_self ..

@[simp] theorem take_frame_self (q : SyncQueue Tid T) (t : Tid) (c : Code QueueCv (Local T)) :
    (q.take t c).frame t = .running c := Function.update_self ..

@[simp] theorem release_frame_self (q : SyncQueue Tid T) (t : Tid)
    (f : Frame QueueCv (Code QueueCv (Local T))) : (q.release t f).frame t = f :=
  Function.update_self ..

@[simp] theorem put_items (q : SyncQueue Tid T) (t : Tid)
    (f : Frame QueueCv (Code QueueCv (Local T))) : (q.put t f).items = q.items := rfl

@[simp] theorem take_items (q : SyncQueue Tid T) (t : Tid) (c : Code QueueCv (Local T)) :
    (q.take t c).items = q.items := rfl

@[simp] theorem release_items (q : SyncQueue Tid T) (t : Tid)
    (f : Frame QueueCv (Code QueueCv (Local T))) : (q.release t f).items = q.items := rfl

@[simp] theorem wake_items (q : SyncQueue Tid T) (W : Finset Tid) :
    (q.wake W).items = q.items := rfl

/-- The steps of the queue. -/
inductive Trans [Fintype Tid] (q : SyncQueue Tid T) : Event Tid T → SyncQueue Tid T → Prop where
  | call {t : Tid} {op : Op T} (ht : q.frame t = .outside) :
      Trans q (.call t op) (q.put t (.locking (.client ⟨op, .enter⟩)))
  | lock {t : Tid} {op : Op T} (ht : q.frame t = .locking (.client ⟨op, .enter⟩))
      (hm : q.cvs.mon.mutex = none) :
      Trans q (.lock t) (q.take t (.client ⟨op, .enter⟩))
  | start {t : Tid} {op : Op T} (ht : q.frame t = .running (.client ⟨op, .enter⟩)) :
      Trans q (.start t) (q.put t (.running (.waiting (Wait.start op.call) ⟨op, .enter⟩)))
  | arm {t : Tid} {w : Wait QueueCv} {k : Local T} (ht : q.frame t = .running (.waiting w k))
      (hp : w.point = .arm) :
      Trans q (.arm t true)
        ((q.put t (.running (.waiting { w with point := .test .noTimeout } k))).setTimeout
          w.call.cv (deadline q.cvs.mon.clock w.delay))
  | armFail {t : Tid} {w : Wait QueueCv} {k : Local T}
      (ht : q.frame t = .running (.waiting w k)) (hp : w.point = .arm) :
      Trans q (.arm t false) (q.put t (.running (.returned (.error
        (conditionVariableException "failed to get current time." 0)) k)))
  | testTrue {t : Tid} {w : Wait QueueCv} {k : Local T} {status : CvStatus}
      (ht : q.frame t = .running (.waiting w k)) (hp : w.point = .test status)
      (hr : q.ready k.op = true) :
      Trans q (.test t) (q.put t (.running (.returned (.ok true) k)))
  | testBlock {t : Tid} {w : Wait QueueCv} {k : Local T} {status : CvStatus}
      (ht : q.frame t = .running (.waiting w k)) (hp : w.point = .test status)
      (hr : q.ready k.op = false) :
      Trans q (.test t) (q.put t (.running (.waiting { w with point := .block } k)))
  | testFalse {t : Tid} {w : Wait QueueCv} {k : Local T}
      (ht : q.frame t = .running (.waiting w k)) (hp : w.point = .test .timedout)
      (hr : q.ready k.op = false) :
      Trans q (.test t) (q.put t (.running (.returned (.ok false) k)))
  | block {t : Tid} {w : Wait QueueCv} {k : Local T} (ht : q.frame t = .running (.waiting w k))
      (hp : w.point = .block) :
      Trans q (.block t) (q.release t (.blocked k.op.waitsOn (q.cvs.abstime w) (.waiting w k)))
  | refuse {t : Tid} {w : Wait QueueCv} {k : Local T}
      (ht : q.frame t = .running (.waiting w k)) (hp : w.point = .block)
      (hv : ¬ (q.cvs.timeout w.call.cv).valid) :
      Trans q (.block t) (q.put t (.running (.returned (.error (conditionVariableException
        "The value specified by abstime is invalid." EINVAL)) k)))
  | spurious {t : Tid} {a : Option Timespec} {w : Wait QueueCv} {k : Local T}
      (ht : q.frame t = .blocked k.op.waitsOn a (.waiting w k)) :
      Trans q (.spurious t) (q.put t (.woken k.op.waitsOn 0 (.waiting w k)))
  | expire {t : Tid} {a : Timespec} {w : Wait QueueCv} {k : Local T}
      (ht : q.frame t = .blocked k.op.waitsOn (some a) (.waiting w k))
      (ha : a.nanos ≤ q.cvs.mon.clock.nanos) :
      Trans q (.expire t) (q.put t (.woken k.op.waitsOn ETIMEDOUT (.waiting w k)))
  | relock {t : Tid} {rc : Int} {w : Wait QueueCv} {k : Local T} {status : CvStatus}
      (ht : q.frame t = .woken k.op.waitsOn rc (.waiting w k)) (hm : q.cvs.mon.mutex = none) :
      Trans q (.relock t) (q.take t (.waiting { w with point := .test status } k))
  | copy {t : Tid} {op : Op T} {pc : Pc} {x : T} {xs : List T}
      (ht : q.frame t = .running (.returned (.ok true) ⟨op, pc⟩)) (hop : op.item? = none)
      (hx : q.items = x :: xs) :
      Trans q (.copy t true) (q.put t (.running (.client ⟨op, .pop⟩)))
  | copyThrow {t : Tid} {op : Op T} {pc : Pc}
      (ht : q.frame t = .running (.returned (.ok true) ⟨op, pc⟩)) (hop : op.item? = none) :
      Trans q (.copy t false) (q.put t (.running (.client ⟨op, .leave .copyThrew⟩)))
  | pop {t : Tid} {op : Op T} {x : T} {xs : List T}
      (ht : q.frame t = .running (.client ⟨op, .pop⟩)) (hx : q.items = x :: xs) :
      Trans q (.pop t) ((q.setItems xs).put t (.running (.client ⟨op, .notify⟩)))
  | push {t : Tid} {op : Op T} {pc : Pc} {x : T}
      (ht : q.frame t = .running (.returned (.ok true) ⟨op, pc⟩)) (hop : op.item? = some x) :
      Trans q (.push t true)
        ((q.setItems (q.items ++ [x])).put t (.running (.client ⟨op, .notify⟩)))
  | pushThrow {t : Tid} {op : Op T} {pc : Pc} {x : T}
      (ht : q.frame t = .running (.returned (.ok true) ⟨op, pc⟩)) (hop : op.item? = some x) :
      Trans q (.push t false) (q.put t (.running (.client ⟨op, .leave .copyThrew⟩)))
  | notifyOne {t : Tid} {op : Op T} {W : Finset Tid}
      (ht : q.frame t = .running (.client ⟨op, .notify⟩))
      (hW : W ⊆ q.cvs.mon.waiters op.signals)
      (hne : (q.cvs.mon.waiters op.signals).Nonempty → W.Nonempty) :
      Trans q (.notify t W) ((q.wake W).put t (.running (.client ⟨op, .leave .returned⟩)))
  | notifyAll {t : Tid} {op : Op T} {pc : Pc} {W : Finset Tid}
      (ht : q.frame t = .running (.returned (.ok false) ⟨op, pc⟩)) :
      Trans q (.notify t W) ((q.wake (q.cvs.mon.waiters op.signals)).put t
        (.running (.client ⟨op, .leave (.threw op.timedOut)⟩)))
  | leave {t : Tid} {op : Op T} {o : Outcome}
      (ht : q.frame t = .running (.client ⟨op, .leave o⟩)) :
      Trans q (.leave t) (q.release t .outside)
  | unwind {t : Tid} {e : PthreadException} {k : Local T}
      (ht : q.frame t = .running (.returned (.error e) k)) :
      Trans q (.leave t) (q.release t .outside)
  | setMaxSize {n : BitVec 64} :
      Trans q (.setMaxSize n) { q with maxSizeInt := n.truncate 32 }
  | tick {now : Timeval} (hn : q.cvs.mon.clock.nanos ≤ now.nanos) :
      Trans q (.tick now)
        { q with cvs := { q.cvs with mon := { q.cvs.mon with clock := now } } }

/-! ## The list is complete -/

section Complete

variable [Fintype Tid]

theorem step_eq_some {q q' : SyncQueue Tid T} {e : Event Tid T} (he : ∀ n, e ≠ .setMaxSize n) :
    step q e = some q' ↔ ∃ calls items cvs, q.code e = some (calls, items) ∧
      run CondVars.step q.cvs calls = some cvs ∧ q' = { q with cvs := cvs, items := items } := by
  cases e with
  | setMaxSize n => exact absurd rfl (he n)
  | _ =>
      simp only [step, Option.bind_eq_bind, Option.bind_eq_some_iff, Prod.exists]
      constructor
      · rintro ⟨calls, items, hc, cvs, hr, hq⟩
        exact ⟨calls, items, cvs, hc, hr, (Option.some.inj hq).symm⟩
      · rintro ⟨calls, items, cvs, hc, hr, rfl⟩
        exact ⟨calls, items, hc, cvs, hr, rfl⟩

/-- An event that makes one call and leaves the items alone. -/
theorem step_call {q q' : SyncQueue Tid T} {e : Event Tid T}
    {ev : CondVars.Event Tid QueueCv (Local T)} (he : ∀ n, e ≠ .setMaxSize n)
    (hc : q.code e = some ([ev], q.items)) (h : step q e = some q') :
    ∃ cvs, CondVars.Trans q.cvs ev cvs ∧ q' = { q with cvs := cvs } := by
  obtain ⟨calls, items, cvs, hc', hr, rfl⟩ := (step_eq_some he).mp h
  obtain ⟨rfl, rfl⟩ : [ev] = calls ∧ q.items = items := by simpa [hc] using hc'
  rw [run_singleton] at hr
  exact ⟨cvs, CondVars.step_trans hr, rfl⟩

omit [DecidableEq Tid] [Fintype Tid] in
theorem Ok.code {q : SyncQueue Tid T} (hq : q.Ok) {t : Tid} {c : Code QueueCv (Local T)}
    (ht : (q.frame t).data = some c) : CodeOk c := by
  have hcode := hq.codes t
  cases hf : q.frame t <;> rw [hf] at ht hcode <;> cases ht
  · obtain ⟨op, rfl⟩ := hcode
    simp [CodeOk]
  all_goals exact hcode

omit [DecidableEq Tid] [Fintype Tid] in
theorem Ok.waiting {q : SyncQueue Tid T} (hq : q.Ok) {t : Tid} {w : Wait QueueCv} {k : Local T}
    (ht : (q.frame t).data = some (.waiting w k)) :
    w.call = k.op.call ∧ (w.point = .arm → w.call.timed = true) := hq.code ht

omit [DecidableEq Tid] [Fintype Tid] in
/-- The wait of an operation that is at `Point.arm` is a `wait_for`. -/
theorem Ok.armed {q : SyncQueue Tid T} (hq : q.Ok) {t : Tid} {w : Wait QueueCv} {k : Local T}
    (ht : (q.frame t).data = some (.waiting w k)) (hp : w.point = .arm) :
    w.computesDeadline = true ∧ w.armed = { w with point := .test .noTimeout } := by
  obtain ⟨hcall, htimed⟩ := hq.waiting ht
  have htimed := htimed hp
  cases hop : k.op <;> simp [hop, Op.call] at hcall <;>
    simp_all [Wait.computesDeadline, Wait.armed, Call.timed]

omit [DecidableEq Tid] [Fintype Tid] in
/-- A thread that is blocked is in the wait of its operation. -/
theorem Ok.blocked {q : SyncQueue Tid T} (hq : q.Ok) {t : Tid} {cv : QueueCv}
    {a : Option Timespec} {c : Code QueueCv (Local T)}
    (ht : q.cvs.mon.frame t = .blocked cv a c) :
    ∃ w k, c = .waiting w k ∧ w.call = k.op.call ∧ cv = k.op.waitsOn := by
  have hframe := hq.frames t
  rw [frame, ht] at hframe
  obtain ⟨w, k, rfl, hcv, -⟩ := hframe
  have hcall := (hq.waiting (t := t) (by rw [frame, ht]; rfl)).1
  exact ⟨w, k, rfl, hcall, by rw [← hcv, hcall, Op.call_cv]⟩

omit [DecidableEq Tid] [Fintype Tid] in
/-- So is one that has been woken up, by a wakeup or at its deadline. -/
theorem Ok.woken {q : SyncQueue Tid T} (hq : q.Ok) {t : Tid} {cv : QueueCv} {rc : Int}
    {c : Code QueueCv (Local T)} (ht : q.cvs.mon.frame t = .woken cv rc c) :
    ∃ w k, c = .waiting w k ∧ w.call = k.op.call ∧ cv = k.op.waitsOn ∧
      (rc = 0 ∨ rc = ETIMEDOUT) := by
  have hframe := hq.frames t
  rw [frame, ht] at hframe
  obtain ⟨w, k, rfl, hcv, -, hrc⟩ := hframe
  have hcall := (hq.waiting (t := t) (by rw [frame, ht]; rfl)).1
  exact ⟨w, k, rfl, hcall, by rw [← hcv, hcall, Op.call_cv], hrc.imp_right And.left⟩

/-- **The step lemma**: `Trans` lists everything that the queue can do. -/
theorem step_trans {q q' : SyncQueue Tid T} {e : Event Tid T} (hq : q.Ok)
    (h : step q e = some q') : Trans q e q' := by
  cases e with
  | call t op =>
      obtain ⟨cvs, htr, rfl⟩ := step_call (by simp) rfl h
      cases htr with
      | call ht => exact .call ht
  | lock t =>
      obtain ⟨cvs, htr, rfl⟩ := step_call (by simp) rfl h
      cases htr with
      | @lock t c ht hm =>
          obtain ⟨op, rfl⟩ : ∃ op, c = .client ⟨op, .enter⟩ := by
            have hcode := hq.codes t
            rwa [frame, ht] at hcode
          exact .lock ht hm
  | start t =>
      obtain ⟨calls, items, cvs, hc, hr, rfl⟩ := (step_eq_some (by simp)).mp h
      simp only [code] at hc
      split at hc
      · rename_i op ht
        obtain ⟨rfl, rfl⟩ : [_] = calls ∧ q.items = items := by simpa using hc
        rw [run_singleton] at hr
        cases CondVars.step_trans hr with
        | start ht' =>
            rw [frame, ht'] at ht
            cases ht
            exact .start ht'
      · cases hc
  | arm t clockOk =>
      obtain ⟨cvs, htr, rfl⟩ := step_call (by simp) rfl h
      cases htr with
      | @arm t w k ht hp hw =>
          rw [(hq.armed (by rw [frame, ht]; rfl) hp).2]
          exact .arm ht hp
      | armFail ht hp hw => exact .armFail ht hp
      | armSkip ht hp hw =>
          -- Only the retry loop keeps the stored deadline.
          have hcomputes := (hq.armed (by rw [frame, ht]; rfl) hp).1
          rw [hw] at hcomputes
          cases hcomputes
  | test t =>
      obtain ⟨calls, items, cvs, hc, hr, rfl⟩ := (step_eq_some (by simp)).mp h
      simp only [code] at hc
      split at hc
      · rename_i w k ht
        obtain ⟨rfl, rfl⟩ : [_] = calls ∧ q.items = items := by simpa using hc
        rw [run_singleton] at hr
        cases CondVars.step_trans hr with
        | @test _ _ w' k' status ht' hp =>
            obtain ⟨rfl, rfl⟩ : w = w' ∧ k = k' := by simpa [frame, ht'] using ht.symm
            have hcall := (hq.waiting (t := t) (by rw [ht]; rfl)).1
            show Trans q _ (q.put t (.running (w.tested status (q.ready k.op) k)))
            -- The predicate that the wait has been given is that of the operation.
            cases hready : q.ready k.op with
            | true => exact .testTrue ht hp hready
            | false =>
                rcases Wait.tested_false (k := k) hcall status with hres | ⟨hst, hres⟩
                · rw [hres]
                  exact .testBlock ht hp hready
                · subst hst
                  rw [hres]
                  exact .testFalse ht hp hready
      · cases hc
  | block t =>
      obtain ⟨cvs, htr, rfl⟩ := step_call (by simp) rfl h
      cases htr with
      | @block t w k ht hp hv =>
          have hcall := (hq.waiting (t := t) (by rw [frame, ht]; rfl)).1
          have hblock := Trans.block (q := q) ht hp
          rwa [← Op.call_cv, ← hcall] at hblock
      | @refuse t w k ht hp hc hv =>
          have hcall := (hq.waiting (t := t) (by rw [frame, ht]; rfl)).1
          show Trans q _ (q.put t (.running (w.resumed EINVAL k)))
          rw [Wait.resumed_einval hcall hc]
          exact .refuse ht hp hv
  | spurious t =>
      obtain ⟨cvs, htr, rfl⟩ := step_call (by simp) rfl h
      cases htr with
      | spurious ht =>
          obtain ⟨w, k, rfl, -, rfl⟩ := hq.blocked ht
          exact .spurious ht
  | expire t =>
      obtain ⟨cvs, htr, rfl⟩ := step_call (by simp) rfl h
      cases htr with
      | expire ht ha =>
          obtain ⟨w, k, rfl, -, rfl⟩ := hq.blocked ht
          exact .expire ht ha
  | relock t =>
      obtain ⟨cvs, htr, rfl⟩ := step_call (by simp) rfl h
      cases htr with
      | @relock t cv rc c ht hm =>
          obtain ⟨w, k, rfl, hcall, rfl, hrc⟩ := hq.woken ht
          -- The wait goes on with the evaluation of its predicate, whatever woke it up.
          obtain ⟨status, hres⟩ := Wait.resumed_test (k := k) hcall hrc
          show Trans q _ (q.take t (w.resumed rc k))
          rw [hres]
          exact .relock ht hm
  | copy t ok =>
      obtain ⟨calls, items, cvs, hc, hr, rfl⟩ := (step_eq_some (by simp)).mp h
      simp only [code] at hc
      split at hc
      · rename_i op pc ht
        split at hc
        · rename_i x xs hop hx
          obtain ⟨rfl, rfl⟩ : [_] = calls ∧ q.items = items := by simpa using hc
          rw [run_singleton] at hr
          cases CondVars.step_trans hr
          cases ok with
          | true => exact .copy ht hop hx
          | false => exact .copyThrow ht hop
        · cases hc
      · cases hc
  | pop t =>
      obtain ⟨calls, items, cvs, hc, hr, rfl⟩ := (step_eq_some (by simp)).mp h
      simp only [code] at hc
      split at hc
      · rename_i op x xs ht hx
        obtain ⟨rfl, rfl⟩ : [_] = calls ∧ xs = items := by simpa using hc
        rw [run_singleton] at hr
        cases CondVars.step_trans hr
        exact .pop ht hx
      · cases hc
  | push t ok =>
      obtain ⟨calls, items, cvs, hc, hr, rfl⟩ := (step_eq_some (by simp)).mp h
      simp only [code] at hc
      split at hc
      · rename_i op pc ht
        split at hc
        · rename_i x hop
          cases ok with
          | true =>
              obtain ⟨rfl, rfl⟩ : [_] = calls ∧ q.items ++ [x] = items := by simpa using hc
              rw [run_singleton] at hr
              cases CondVars.step_trans hr
              exact .push ht hop
          | false =>
              obtain ⟨rfl, rfl⟩ : [_] = calls ∧ q.items = items := by simpa using hc
              rw [run_singleton] at hr
              cases CondVars.step_trans hr
              exact .pushThrow ht hop
        · cases hc
      · cases hc
  | notify t W =>
      obtain ⟨calls, items, cvs, hc, hr, rfl⟩ := (step_eq_some (by simp)).mp h
      simp only [code] at hc
      split at hc
      · rename_i op ht
        obtain ⟨rfl, rfl⟩ : [_, _] = calls ∧ q.items = items := by simpa using hc
        obtain ⟨m, hm, hr⟩ := run_pair.mp hr
        cases CondVars.step_trans hm with
        | notifyOne hW hne =>
            cases CondVars.step_trans hr
            exact .notifyOne ht hW hne
      · rename_i op pc ht
        obtain ⟨rfl, rfl⟩ : [_, _] = calls ∧ q.items = items := by simpa using hc
        obtain ⟨m, hm, hr⟩ := run_pair.mp hr
        cases CondVars.step_trans hm
        cases CondVars.step_trans hr
        exact .notifyAll ht
      · cases hc
  | leave t =>
      obtain ⟨calls, items, cvs, hc, hr, rfl⟩ := (step_eq_some (by simp)).mp h
      simp only [code] at hc
      split at hc
      · rename_i op o ht
        obtain ⟨rfl, rfl⟩ : [_] = calls ∧ q.items = items := by simpa using hc
        rw [run_singleton] at hr
        cases CondVars.step_trans hr
        exact .leave ht
      · rename_i e k ht
        obtain ⟨rfl, rfl⟩ : [_] = calls ∧ q.items = items := by simpa using hc
        rw [run_singleton] at hr
        cases CondVars.step_trans hr
        exact .unwind ht
      · cases hc
  | setMaxSize n =>
      simp only [step, setMaxSize_eq, Except.toOption, Option.some.injEq] at h
      subst h
      exact .setMaxSize
  | tick now =>
      obtain ⟨cvs, htr, rfl⟩ := step_call (by simp) rfl h
      cases htr with
      | tick hn => exact .tick hn

/-! ## The threads stay where the code can bring them -/

omit [DecidableEq Tid] [Fintype Tid] in
theorem FrameCode.unblock {f : Frame QueueCv (Code QueueCv (Local T))} (h : FrameCode f) :
    FrameCode (f.unblock 0) := by
  cases f <;> exact h

theorem step_codes {q q' : SyncQueue Tid T} {e : Event Tid T} (hq : q.Ok)
    (h : step q e = some q') : ∀ t, FrameCode (q'.frame t) := by
  have update : ∀ {g : Tid → Frame QueueCv (Code QueueCv (Local T))} {t : Tid}
      {f : Frame QueueCv (Code QueueCv (Local T))}, (∀ u, FrameCode (g u)) → FrameCode f →
      ∀ u, FrameCode (Function.update g t f u) :=
    fun hg hf => (Function.forall_update_iff _ fun _ => FrameCode).mpr ⟨hf, fun u _ => hg u⟩
  have wake : ∀ W, ∀ u, FrameCode ((q.wake W).frame u) := fun W u =>
    Monitor.wake_keeps (P := FrameCode) (fun _ => FrameCode.unblock) (hq.codes u) W
  cases step_trans hq h with
  | @call t op => exact update hq.codes ⟨op, rfl⟩
  | lock => exact update hq.codes (by simp [FrameCode, CodeOk])
  | @start t op ht =>
      refine update hq.codes ?_
      cases op <;> simp [FrameCode, CodeOk, Wait.start, Op.call, Call.timed]
  | @arm t w k ht =>
      have hcall : w.call = k.op.call := (hq.waiting (t := t) (by rw [ht]; rfl)).1
      exact update hq.codes ⟨hcall, by simp⟩
  | armFail => exact update hq.codes trivial
  | testTrue => exact update hq.codes trivial
  | @testBlock t w k status ht =>
      have hcall : w.call = k.op.call := (hq.waiting (t := t) (by rw [ht]; rfl)).1
      exact update hq.codes ⟨hcall, by simp⟩
  | testFalse => exact update hq.codes trivial
  | @block t w k ht =>
      exact update hq.codes (hq.code (t := t) (c := .waiting w k) (by rw [ht]; rfl))
  | refuse => exact update hq.codes trivial
  | @spurious t a w k ht =>
      exact update hq.codes (hq.code (t := t) (c := .waiting w k) (by rw [ht]; rfl))
  | @expire t a w k ht =>
      exact update hq.codes (hq.code (t := t) (c := .waiting w k) (by rw [ht]; rfl))
  | @relock t rc w k status ht =>
      have hcall : w.call = k.op.call := (hq.waiting (t := t) (by rw [ht]; rfl)).1
      exact update hq.codes ⟨hcall, by simp⟩
  | copy ht hop => exact update hq.codes fun _ => hop
  | copyThrow => exact update hq.codes (by simp [FrameCode, CodeOk])
  | pop => exact update hq.codes (by simp [FrameCode, CodeOk])
  | push => exact update hq.codes (by simp [FrameCode, CodeOk])
  | pushThrow => exact update hq.codes (by simp [FrameCode, CodeOk])
  | notifyOne => exact update (wake _) (by simp [FrameCode, CodeOk])
  | notifyAll => exact update (wake _) (by simp [FrameCode, CodeOk])
  | leave => exact update hq.codes trivial
  | unwind => exact update hq.codes trivial
  | setMaxSize => exact hq.codes
  | tick => exact hq.codes

theorem step_ok {q q' : SyncQueue Tid T} {e : Event Tid T} (hq : q.Ok)
    (h : step q e = some q') : q'.Ok where
  excl := run_invariant_of_step (fun _ _ _ hi hs => CondVars.step_excl hi hs) hq.excl
    (step_simulates h)
  frames := run_invariant_of_step (I := fun s => ∀ t, CondVars.FrameOk (s.mon.frame t))
    (fun _ _ _ hi hs => CondVars.step_frameOk hi hs) hq.frames (step_simulates h)
  codes := step_codes hq h

theorem run_ok {q q' : SyncQueue Tid T} {es : List (Event Tid T)} (hq : q.Ok)
    (h : run step q es = some q') : q'.Ok :=
  run_invariant_of_step (fun _ _ _ hi hs => step_ok hi hs) hq h

/-! ## What a step does to the other threads -/

/-- A step of another thread at most wakes a thread up. -/
theorem step_frame_ne {q q' : SyncQueue Tid T} {e : Event Tid T} (hq : q.Ok)
    (h : step q e = some q') {u : Tid} (hu : e.thread ≠ some u) :
    q'.frame u = q.frame u ∨ q'.frame u = (q.frame u).unblock 0 := by
  have put : ∀ {t : Tid} {f : Frame QueueCv (Code QueueCv (Local T))}, some t ≠ some u →
      Function.update q.frame t f u = q.frame u :=
    fun ht => Function.update_of_ne (fun h => ht (congrArg some h.symm)) ..
  have wake : ∀ {t : Tid} {f : Frame QueueCv (Code QueueCv (Local T))} {W : Finset Tid},
      some t ≠ some u → Function.update (q.wake W).frame t f u = q.frame u ∨
        Function.update (q.wake W).frame t f u = (q.frame u).unblock 0 := by
    intro t f W ht
    rw [Function.update_of_ne fun h => ht (congrArg some h.symm)]
    by_cases hW : u ∈ W
    · exact .inr (Monitor.wake_frame_of_mem hW)
    · exact .inl (Monitor.wake_frame_of_notMem hW)
  cases step_trans hq h with
  | notifyOne => exact wake hu
  | notifyAll => exact wake hu
  | setMaxSize => exact .inl rfl
  | tick => exact .inl rfl
  | _ => exact .inl (put hu)

/-- A step of another thread neither starts nor stops a thread. -/
theorem step_running_ne {q q' : SyncQueue Tid T} {e : Event Tid T} (hq : q.Ok)
    (h : step q e = some q') {u : Tid} (hu : e.thread ≠ some u)
    {c : Code QueueCv (Local T)} : q'.frame u = .running c ↔ q.frame u = .running c := by
  rcases step_frame_ne hq h hu with hf | hf
  · rw [hf]
  · rw [hf]
    cases q.frame u <;> simp [Frame.unblock]

/-- **The frame rule.** Only the thread that holds the mutex changes the items. -/
theorem step_items_ne {q q' : SyncQueue Tid T} {e : Event Tid T} (hq : q.Ok)
    (h : step q e = some q') {u : Tid} (hu : e.thread ≠ some u)
    {c : Code QueueCv (Local T)} (hrun : q.frame u = .running c) : q'.items = q.items := by
  cases step_trans hq h with
  | pop ht => exact absurd (congrArg some (hq.excl.eq_of_running ht hrun)) hu
  | push ht => exact absurd (congrArg some (hq.excl.eq_of_running ht hrun)) hu
  | _ => rfl

/-- The two together: a thread that runs after a step of another one was where it is, and the
items were as they are. -/
theorem step_running_same {q q' : SyncQueue Tid T} {e : Event Tid T} (hq : q.Ok)
    (h : step q e = some q') {u : Tid} (hu : e.thread ≠ some u)
    (hrun : (q'.frame u).isRunning = true) : q'.frame u = q.frame u ∧ q'.items = q.items := by
  cases hf : q'.frame u with
  | running c =>
      have hf' := (step_running_ne hq h hu).mp hf
      exact ⟨hf'.symm, step_items_ne hq h hu hf'⟩
  | _ =>
      rw [hf] at hrun
      cases hrun

end Complete

end SyncQueue

end CppPthread
