import CppPthread.Queue.LostWakeups
import CppPthread.Queue.Work

set_option autoImplicit false

/-! # The queue comes to rest

As long as some thread is neither outside nor blocked, some thread can take a step (`progress`):
whoever has the mutex can go on with its operation, and when nobody has it the threads that are
queued for it can take it. Together with the bound on the work this says that the threads come to
rest in whatever order they run. When time passes as well, no thread stays in a timed operation: the
queue can be brought from every reachable state to one in which the only threads inside are blocked
in `get(T &)` and `put(const T &)` (`queue_settles`).
-/

namespace CppPthread

open Posix Run Work

namespace SyncQueue

section Progress

variable {Tid T : Type} [DecidableEq Tid] [Fintype Tid]

/-! ## What a thread can do -/

/-- An event whose calls the machine allows. -/
theorem can_step {q : SyncQueue Tid T} {e : Event Tid T}
    {calls : List (CondVars.Event Tid QueueCv (Local T))} {items : List T}
    (he : ∀ n, e ≠ .setMaxSize n) (hcode : q.code e = some (calls, items))
    (hcalls : (run CondVars.step q.cvs calls).isSome = true) : ∃ q', step q e = some q' := by
  obtain ⟨cvs, hcvs⟩ := Option.isSome_iff_exists.mp hcalls
  exact ⟨_, (step_eq_some he).mpr ⟨calls, items, cvs, hcode, hcvs, rfl⟩⟩

/-- The step is one that the thread `t` can take whatever the clock shows. -/
def Event.advances (t : Tid) (e : Event Tid T) : Prop :=
  e.thread = some t ∧ e.works = true ∧ e ≠ .expire t

/-- The owner of the mutex can go on in a wait. -/
theorem waiting_can_step {q : SyncQueue Tid T} {t : Tid} {w : Wait QueueCv} {k : Local T}
    (hq : q.Ok) (ht : q.frame t = .running (.waiting w k)) :
    ∃ e q', e.advances t ∧ step q e = some q' := by
  have hf : q.cvs.mon.frame t = .running (.waiting w k) := ht
  cases hp : w.point with
  | arm =>
      have hw := (hq.armed (t := t) (by rw [ht]; rfl) hp).1
      obtain ⟨q', hq'⟩ := can_step (q := q) (e := .arm t true) (by simp) rfl
        (by simp [CondVars.step, hf, hp, hw, milliseconds])
      exact ⟨.arm t true, q', ⟨rfl, rfl, by simp⟩, hq'⟩
  | test status =>
      obtain ⟨q', hq'⟩ := can_step (q := q) (e := .test t) (by simp) (by simp only [code, ht]; rfl)
        (by simp [CondVars.step, hf, hp])
      exact ⟨.test t, q', ⟨rfl, rfl, by simp⟩, hq'⟩
  | block =>
      obtain ⟨q', hq'⟩ := can_step (q := q) (e := .block t) (by simp) rfl (by
        simp only [run_singleton, CondVars.step, hf, hp, if_true, Monitor.condWait]
        split_ifs <;> rfl)
      exact ⟨.block t, q', ⟨rfl, rfl, by simp⟩, hq'⟩

/-- The owner of the mutex can go on. -/
theorem running_can_step {q : SyncQueue Tid T} {t : Tid} {c : Code QueueCv (Local T)} (hq : q.Ok)
    (hfront : q.FrontOk) (ht : q.frame t = .running c) :
    ∃ e q', e.advances t ∧ step q e = some q' := by
  have hf : q.cvs.mon.frame t = .running c := ht
  cases c with
  | waiting w k => exact waiting_can_step hq ht
  | client k =>
      obtain ⟨op, pc⟩ := k
      cases pc with
      | enter =>
          obtain ⟨q', hq'⟩ := can_step (q := q) (e := .start t) (by simp)
            (by simp only [code, ht]; rfl) (by simp [CondVars.step, hf])
          exact ⟨.start t, q', ⟨rfl, rfl, by simp⟩, hq'⟩
      | pop =>
          -- there is an item to remove
          obtain ⟨x, xs, hx⟩ := List.exists_cons_of_ne_nil (hfront t (by rw [ht]; rfl))
          obtain ⟨q', hq'⟩ := can_step (q := q) (e := .pop t) (by simp)
            (by simp only [code, ht, hx]; rfl) (by simp [CondVars.step, hf, Code.isWaiting])
          exact ⟨.pop t, q', ⟨rfl, rfl, by simp⟩, hq'⟩
      | notify =>
          -- the notification unblocks all the waiters that there are
          obtain ⟨q', hq'⟩ := can_step (q := q) (e := .notify t (q.cvs.mon.waiters op.signals))
            (by simp) (by simp only [code, ht]; rfl) (by
              have hwake := wake_frame_running ht (q.cvs.mon.waiters op.signals)
              have hf' : (q.cvs.mon.wake (q.cvs.mon.waiters op.signals)).frame t
                = .running (.client ⟨op, .notify⟩) := hwake
              simp [run, CondVars.step, Monitor.condSignal, hf', Code.isWaiting])
          exact ⟨.notify t _, q', ⟨rfl, rfl, by simp⟩, hq'⟩
      | leave o => exact ⟨.leave t, _, ⟨rfl, rfl, by simp⟩, step_leave ht⟩
  | returned r k =>
      obtain ⟨op, pc⟩ := k
      cases r with
      | error e =>
          obtain ⟨q', hq'⟩ := can_step (q := q) (e := .leave t) (by simp)
            (by simp only [code, ht]; rfl)
            (by simp [CondVars.step, hf, Code.isWaiting, Monitor.unlock])
          exact ⟨.leave t, q', ⟨rfl, rfl, by simp⟩, hq'⟩
      | ok b =>
          cases b with
          | false =>
              obtain ⟨q', hq'⟩ := can_step (q := q) (e := .notify t ∅) (by simp)
                (by simp only [code, ht]; rfl) (by
                  have hwake := wake_frame_running ht (q.cvs.mon.waiters op.signals)
                  have hf' : (q.cvs.mon.wake (q.cvs.mon.waiters op.signals)).frame t
                    = .running (.returned (.ok false) ⟨op, pc⟩) := hwake
                  simp [run, CondVars.step, Monitor.condBroadcast, hf', Code.isWaiting])
              exact ⟨.notify t ∅, q', ⟨rfl, rfl, by simp⟩, hq'⟩
          | true =>
              cases hop : op.item? with
              | none =>
                  obtain ⟨x, xs, hx⟩ := List.exists_cons_of_ne_nil
                    (hfront t (by rw [ht]; simp [needsFront, hop]))
                  obtain ⟨q', hq'⟩ := can_step (q := q) (e := .copy t true) (by simp)
                    (by simp only [code, ht, hop, hx]; rfl)
                    (by simp [CondVars.step, hf, Code.isWaiting])
                  exact ⟨.copy t true, q', ⟨rfl, rfl, by simp⟩, hq'⟩
              | some x =>
                  obtain ⟨q', hq'⟩ := can_step (q := q) (e := .push t true) (by simp)
                    (by simp only [code, ht, hop]; rfl)
                    (by simp [CondVars.step, hf, Code.isWaiting])
                  exact ⟨.push t true, q', ⟨rfl, rfl, by simp⟩, hq'⟩

/-- **Progress.** While the queue is not at rest, some thread can take a step. -/
theorem progress {q : SyncQueue Tid T} (hq : q.Ok) (hfront : q.FrontOk)
    (hrest : ¬ q.cvs.mon.Quiescent) : ∃ t e q', e.advances t ∧ step q e = some q' := by
  cases hm : q.cvs.mon.mutex with
  | some u =>
      have hrun := (hq.excl u).mpr hm
      cases hu : q.cvs.mon.frame u with
      | running c => exact ⟨u, running_can_step hq hfront hu⟩
      | _ => simp [hu, Frame.isRunning] at hrun
  | none =>
      unfold Monitor.Quiescent at hrest
      push Not at hrest
      obtain ⟨t, ht⟩ := hrest
      cases hf : q.cvs.mon.frame t with
      | outside => simp [hf, Frame.atRest] at ht
      | blocked cv a c => simp [hf, Frame.atRest] at ht
      | running c =>
          have hrun := (hq.excl t).mp (by rw [hf]; rfl)
          rw [hm] at hrun
          cases hrun
      | locking c =>
          obtain ⟨q', hq'⟩ := can_step (q := q) (e := .lock t) (by simp) rfl
            (by simp [CondVars.step, Monitor.acquire, hf, hm])
          exact ⟨t, .lock t, q', ⟨rfl, rfl, by simp⟩, hq'⟩
      | woken cv rc c =>
          obtain ⟨q', hq'⟩ := can_step (q := q) (e := .relock t) (by simp) rfl
            (by simp [CondVars.step, Monitor.relock, hf, hm])
          exact ⟨t, .relock t, q', ⟨rfl, rfl, by simp⟩, hq'⟩

/-! ## Time -/

theorem exists_later (c : Timeval) (a : Timespec) :
    ∃ now : Timeval, c.nanos ≤ now.nanos ∧ a.nanos ≤ now.nanos := by
  refine ⟨{ Timeval.zero with tvSec := max (c.tvSec + 1) (max a.nanos 0) }, ?_, ?_⟩
  · have husec := c.usec_lt
    simp only [Timeval.nanos, Timeval.zero]
    omega
  · simp only [Timeval.nanos, Timeval.zero]
    omega

/-- A thread that is blocked with a deadline wakes up when time passes. -/
theorem timed_can_expire {q : SyncQueue Tid T} {t : Tid} {cv : QueueCv} {a : Timespec}
    {c : Code QueueCv (Local T)} (hq : q.Ok) (ht : q.frame t = .blocked cv (some a) c) :
    ∃ now q₁ q', step q (.tick now) = some q₁ ∧ step q₁ (.expire t) = some q' := by
  obtain ⟨now, hnow, ha⟩ := exists_later q.cvs.mon.clock a
  obtain ⟨q₁, h₁⟩ := can_step (q := q) (e := .tick now) (by simp) rfl
    (by simp [CondVars.step, Monitor.tick, hnow])
  have hq₁ : q₁.cvs.mon.frame t = .blocked cv (some a) c ∧ q₁.cvs.mon.clock = now := by
    cases step_trans hq h₁
    exact ⟨ht, rfl⟩
  obtain ⟨q', h'⟩ := can_step (q := q₁) (e := .expire t) (by simp) rfl
    (by simp [CondVars.step, Monitor.expire, hq₁.1, hq₁.2, ha])
  exact ⟨now, q₁, q', h₁, h'⟩

/-! ## Coming to rest -/

/-- The thread is outside, or in a wait that has no deadline. -/
def Settled : Frame QueueCv (Code QueueCv (Local T)) → Prop
  | .outside => True
  | .blocked _ none _ => True
  | _ => False

omit [DecidableEq Tid] [Fintype Tid] in
/-- Only `get(T &)` and `put(const T &)` wait without a deadline. -/
theorem settled_cases {q : SyncQueue Tid T} (hq : q.Ok) {t : Tid} (h : Settled (q.frame t)) :
    q.frame t = .outside ∨ ∃ w k, q.frame t = .blocked k.op.waitsOn none (.waiting w k) ∧
      k.op.call.timed = false := by
  cases hf : q.frame t with
  | outside => exact .inl rfl
  | blocked cv a c =>
      cases a with
      | none =>
          obtain ⟨w, k, rfl, hcall, rfl⟩ := hq.blocked hf
          have hframe := hq.frames t
          rw [hf] at hframe
          obtain ⟨w', k', hwk, -, -, htimed⟩ := hframe
          obtain ⟨rfl, rfl⟩ : w = w' ∧ k = k' := by simpa using hwk
          exact .inr ⟨w, k, rfl, by rw [← hcall]; exact htimed.symm⟩
      | some a => simp [hf, Settled] at h
  | _ => simp [hf, Settled] at h

/-- What holds in every reachable state, for the progress. -/
structure Live (q : SyncQueue Tid T) : Prop where
  ranked : q.Ranked
  front : q.FrontOk

theorem step_live {q q' : SyncQueue Tid T} {e : Event Tid T} (hq : q.Live)
    (h : step q e = some q') : q'.Live :=
  ⟨step_ranked hq.ranked h, step_frontOk hq.ranked.ok hq.front h⟩

theorem run_live {m : BitVec 32} {now : Timeval} {timeout : QueueCv → Timespec}
    {es : List (Event Tid T)} {q : SyncQueue Tid T}
    (h : run step (construct m now timeout) es = some q) : q.Live :=
  run_invariant_of_step (fun _ _ _ hi hs => step_live hi hs)
    ⟨ranked_construct m now timeout, fun t ht => by cases ht⟩ h

/-- While a thread is not settled, some of the work can be done. -/
theorem works_unless_settled {q : SyncQueue Tid T} (hq : q.Live)
    (h : ¬ ∀ t, Settled (q.frame t)) :
    ∃ es q', (∀ e ∈ es, e.works = true ∨ ∃ now, e = .tick now) ∧ run step q es = some q' ∧
      q'.left < q.left := by
  by_cases hrest : q.cvs.mon.Quiescent
  · -- the thread is blocked with a deadline
    push Not at h
    obtain ⟨t, ht⟩ := h
    obtain ⟨cv, a, c, hf⟩ : ∃ cv a c, q.frame t = .blocked cv (some a) c := by
      have hrest' : (q.frame t).atRest = true := hrest t
      cases hf : q.frame t with
      | outside => simp [hf, Settled] at ht
      | blocked cv a c =>
          cases a with
          | none => simp [hf, Settled] at ht
          | some a => exact ⟨cv, a, c, rfl⟩
      | _ => simp [hf, Frame.atRest] at hrest'
    obtain ⟨now, q₁, q', h₁, h'⟩ := timed_can_expire hq.ranked.ok hf
    have hq₁ := step_ranked hq.ranked h₁
    have hleft₁ : q₁.left + 0 ≤ q.left + 0 := step_left hq.ranked.ok hq.ranked.status h₁
    have hleft : q'.left + 1 ≤ q₁.left + 0 := step_left hq₁.ok hq₁.status h'
    refine ⟨[.tick now, .expire t], q', ?_, run_pair.mpr ⟨q₁, h₁, h'⟩, by omega⟩
    intro e he
    rcases List.mem_pair.mp he with rfl | rfl
    · exact .inr ⟨now, rfl⟩
    · exact .inl rfl
  · obtain ⟨t, e, q', ⟨-, hworks, -⟩, he⟩ := progress hq.ranked.ok hq.front hrest
    have hleft := step_left hq.ranked.ok hq.ranked.status he
    have hcredit : e.credit (Fintype.card Tid) = 0 := by
      cases e <;> simp [Event.works] at hworks <;> rfl
    rw [hworks, hcredit, Bool.toNat_true] at hleft
    refine ⟨[e], q', ?_, by simpa using he, by omega⟩
    intro e' he'
    rw [List.mem_singleton.mp he']
    exact .inl hworks

/-- **The queue settles.** In every reachable state: unless every thread is outside or blocked, some
thread can take a step; without new calls and spurious wakeups the threads take no more than
`n (3n + 12)` steps, in whatever order; and by steps of the threads and the passing of time the
queue comes to a state in which the only threads inside are blocked in operations without a waiting
time. -/
theorem queue_settles {m : BitVec 32} {now : Timeval} {timeout : QueueCv → Timespec}
    {es : List (Event Tid T)} {q : SyncQueue Tid T}
    (h : run step (construct m now timeout) es = some q) :
    (¬ q.cvs.mon.Quiescent → ∃ t e q', e.advances t ∧ step q e = some q') ∧
    (∀ es' q', run step q es' = some q' →
      (∀ e ∈ es', e.isCall = false ∧ e.isSpurious = false) →
      es'.countP Event.works ≤ Fintype.card Tid * (3 * Fintype.card Tid + 12)) ∧
    (∃ es' q', (∀ e ∈ es', e.works = true ∨ ∃ now, e = .tick now) ∧ run step q es' = some q' ∧
      ∀ t, q'.frame t = .outside ∨ ∃ w k,
        q'.frame t = .blocked k.op.waitsOn none (.waiting w k) ∧ k.op.call.timed = false) := by
  have hq := run_live h
  refine ⟨progress hq.ranked.ok hq.front, ?_, ?_⟩
  · intro es' q' h' hquiet
    have hworks := run_works hq.ranked h'
    have hcalls : es'.countP Event.isCall = 0 :=
      List.countP_eq_zero.mpr fun e he => by simp [(hquiet e he).1]
    have hspurious : es'.countP Event.isSpurious = 0 :=
      List.countP_eq_zero.mpr fun e he => by simp [(hquiet e he).2]
    have hleft : q.left ≤ Fintype.card Tid * (3 * Fintype.card Tid + 12) :=
      total_le_card fun t => rank_le _ _
    rw [hcalls, hspurious] at hworks
    omega
  · obtain ⟨es', q', hown, hrun, hset⟩ := exists_settled (fun _ _ _ hi hs => step_live hi hs) left
      (fun _ hi hns => works_unless_settled hi hns) hq
    have hq' := run_invariant_of_step (fun _ _ _ hi hs => step_live hi hs) hq hrun
    exact ⟨es', q', hown, hrun, fun t => settled_cases hq'.ranked.ok (hset t)⟩

end Progress

/-- Worker b has stored an item and has not woken worker a up. -/
theorem handover_begins :
    (run step (construct 1 Timeval.zero fun _ => ⟨0, 0⟩) (handover.take 10)).isSome = true := by
  decide

theorem queue_settles_handover :
    ∃ q, run step (construct 1 Timeval.zero fun _ => ⟨0, 0⟩) (handover.take 10) = some q ∧
      (∃ t e q', e.advances t ∧ step q e = some q') ∧
      ∃ es' q', (∀ e ∈ es', e.works = true ∨ ∃ now, e = .tick now) ∧ run step q es' = some q' ∧
        ∀ t, q'.frame t = .outside ∨ ∃ w k,
          q'.frame t = .blocked k.op.waitsOn none (.waiting w k) ∧ k.op.call.timed = false := by
  have hrun := (Option.some_get handover_begins).symm
  obtain ⟨hprogress, -, hsettles⟩ := queue_settles hrun
  exact ⟨_, hrun, hprogress (by decide), hsettles⟩

end SyncQueue

end CppPthread
