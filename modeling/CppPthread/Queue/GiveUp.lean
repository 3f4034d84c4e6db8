import CppPthread.ConditionVariable.Decides
import CppPthread.Queue.Wakeup

set_option autoImplicit false

/-! # When a timed operation gives up

`get(T &, int)` and `put(const T &, int)` throw after their wait has returned `false`. The wait
returns `false` right after it has found the predicate false, with the mutex, and the mutex is not
released before the exception is thrown. So the queue is as the predicate has seen it: empty, or
full (`GaveUp`). Only `set_max_size`, which takes no mutex, could change that in between.
-/

namespace CppPthread

open Posix Run

namespace SyncQueue

section Frames

variable {Tid T : Type}

/-- The operation that gives up at this point of its code. -/
def givesUp : Code QueueCv (Local T) → Option (Op T)
  | .returned (.ok false) k => some k.op
  | .client ⟨op, .leave (.threw _)⟩ => some op
  | _ => none

/-- The exception that has been thrown, if one has. -/
def thrown : Code QueueCv (Local T) → Option QueueException
  | .client ⟨_, .leave (.threw e)⟩ => some e
  | _ => none

/-- A thread that gives up has not got what its operation waits for, and throws the exception of
the operation. -/
def GaveUp (q : SyncQueue Tid T) : Prop :=
  ∀ t c op, q.frame t = .running c → givesUp c = some op →
    q.ready op = false ∧ ∀ e, thrown c = some e → e = op.timedOut

theorem ready_congr {q q' : SyncQueue Tid T} (hitems : q'.items = q.items)
    (hmax : q'.maxSizeInt = q.maxSizeInt) (op : Op T) : q'.ready op = q.ready op := by
  cases op <;> simp only [ready, hitems, capacity_congr hmax]

theorem gaveUp_construct (m : BitVec 32) (now : Timeval) (timeout : QueueCv → Timespec) :
    (construct m now timeout : SyncQueue Tid T).GaveUp :=
  fun _ _ _ h => by cases h

end Frames

section Steps

variable {Tid T : Type} [DecidableEq Tid] [Fintype Tid]

/-- The step of a thread that gives up afterwards: its wait returns `false`, or it throws. -/
theorem step_givesUp {q q' : SyncQueue Tid T} {e : Event Tid T} (hq : q.Ok)
    (h : step q e = some q') {t : Tid} (he : e.thread = some t) {c : Code QueueCv (Local T)}
    {op : Op T} (hc : q'.frame t = .running c) (hop : givesUp c = some op) :
    q'.items = q.items ∧
      ((q.ready op = false ∧ thrown c = none) ∨
        (thrown c = some op.timedOut ∧
          ∃ c', q.frame t = .running c' ∧ givesUp c' = some op)) := by
  have hput : ∀ {f : Frame QueueCv (Code QueueCv (Local T))} {g : Tid → _},
      Function.update g t f t = .running c → f = .running c := fun hf => by
    rwa [Function.update_self] at hf
  cases step_trans hq h with
  | testFalse ht hp hr =>
      cases Option.some.inj he
      cases hput hc
      cases hop
      exact ⟨rfl, .inl ⟨hr, rfl⟩⟩
  | notifyAll ht =>
      cases Option.some.inj he
      cases hput hc
      cases hop
      exact ⟨rfl, .inr ⟨rfl, _, ht, rfl⟩⟩
  | setMaxSize => cases he
  | tick => cases he
  | _ =>
      -- the code after the other steps does not give up
      cases Option.some.inj he
      cases hput hc <;> cases hop

/-- **The step lemma.** -/
theorem step_gaveUp {q q' : SyncQueue Tid T} {e : Event Tid T} (hq : q.Ok) (hg : q.GaveUp)
    (hset : ∀ n, e ≠ .setMaxSize n) (h : step q e = some q') : q'.GaveUp := by
  intro t c op hc hop
  have hmax := step_maxSizeInt hset h
  by_cases he : e.thread = some t
  · obtain ⟨hitems, ⟨hr, hnone⟩ | ⟨hthrown, c', ht, hop'⟩⟩ := step_givesUp hq h he hc hop
    · refine ⟨(ready_congr hitems hmax op).trans hr, fun e' he' => ?_⟩
      rw [hnone] at he'
      cases he'
    · refine ⟨(ready_congr hitems hmax op).trans (hg t c' op ht hop').1, fun e' he' => ?_⟩
      exact (Option.some.inj (hthrown.symm.trans he')).symm
  · -- another thread moves, which does not have the mutex
    obtain ⟨hframe, hitems⟩ := step_running_same hq h he (by rw [hc]; rfl)
    obtain ⟨hr, hthrown⟩ := hg t c op (hframe ▸ hc) hop
    exact ⟨(ready_congr hitems hmax op).trans hr, hthrown⟩

theorem run_gaveUp {m : BitVec 32} {now : Timeval} {timeout : QueueCv → Timespec}
    {es : List (Event Tid T)} {q : SyncQueue Tid T} (hset : ∀ n, .setMaxSize n ∉ es)
    (h : run step (construct m now timeout) es = some q) : q.Ok ∧ q.GaveUp :=
  run_invariant (I := fun q => q.Ok ∧ q.GaveUp) (C := fun _ e => ∀ n, e ≠ .setMaxSize n)
    (fun _ _ _ hi hne hs => ⟨step_ok hi.1 hs, step_gaveUp hi.1 hi.2 hne hs⟩)
    ⟨ok_construct m now timeout, gaveUp_construct m now timeout⟩
    (along_not_setMaxSize hset (construct m now timeout)) h

/-- **Timed waits decide correctly.** `wait_for` does so on every trace of predicate values and
return codes. In a queue of fixed capacity, whatever its threads do, `get` throws only with the
mutex and while the queue is empty, and `put` only with the mutex and while it is full. -/
theorem timed_waits_decide :
    (∀ (tr : WaitTrace) (now : Timeval) (millis : Int), tr.DecidesOn now millis) ∧
    ∀ (m : BitVec 32) (now : Timeval) (timeout : QueueCv → Timespec) (es : List (Event Tid T))
      (q : SyncQueue Tid T), (∀ n, .setMaxSize n ∉ es) →
      run step (construct m now timeout) es = some q →
      (∀ t waitTime e, q.frame t = .running (.client ⟨.getFor waitTime, .leave (.threw e)⟩) →
        e = .queueTimeout "synchronized_queue::get() timed out." ∧
          q.cvs.mon.mutex = some t ∧ q.items = []) ∧
      ∀ t x waitTime e, q.frame t = .running (.client ⟨.putFor x waitTime, .leave (.threw e)⟩) →
        e = .queueFull "synchronized_queue::put() timeout, queue is full." ∧
          q.cvs.mon.mutex = some t ∧ q.capacity ≤ q.items.length := by
  refine ⟨WaitTrace.wait_for_decides, fun m now timeout es q hset h => ?_⟩
  obtain ⟨hok, hgave⟩ := run_gaveUp hset h
  have hmutex : ∀ {t c}, q.frame t = .running c → q.cvs.mon.mutex = some t := fun {t c} ht =>
    (hok.excl t).mp (by rw [← frame, ht]; rfl)
  constructor
  · intro t waitTime e ht
    obtain ⟨hr, hthrown⟩ := hgave t _ (.getFor waitTime) ht rfl
    exact ⟨hthrown e rfl, hmutex ht, by simpa [ready] using hr⟩
  · intro t x waitTime e ht
    obtain ⟨hr, hthrown⟩ := hgave t _ (.putFor x waitTime) ht rfl
    exact ⟨hthrown e rfl, hmutex ht, by simpa [ready] using hr⟩

end Steps

/-- Worker a waits for an item until its deadline has passed. -/
def gettingNothing : List (Event Worker Nat) :=
  [.call .a (.getFor 5), .lock .a, .start .a, .arm .a true, .test .a, .block .a, .spurious .a,
   .relock .a, .test .a, .block .a, .tick { Timeval.zero with tvSec := 1 }, .expire .a, .relock .a,
   .test .a, .notify .a ∅]

theorem gettingNothing_runs :
    (run step (construct 1 Timeval.zero fun _ => ⟨0, 0⟩) gettingNothing).isSome = true := by
  decide

/-- A trace on which the predicate becomes true while the wait times out. -/
def lateItem : WaitTrace := ⟨fun i => decide (2 ≤ i), fun i => if i = 2 then ETIMEDOUT else 0,
  fun _ => true⟩

theorem timed_waits_decide_gettingNothing :
    (∃ q e, run step (construct 1 Timeval.zero fun _ => ⟨0, 0⟩) gettingNothing = some q ∧
      q.frame .a = .running (.client ⟨.getFor 5, .leave (.threw e)⟩) ∧
      e = .queueTimeout "synchronized_queue::get() timed out." ∧
      q.cvs.mon.mutex = some .a ∧ q.items = []) ∧
    lateItem.waitForActs (some Timeval.zero) 5 7 = (.evaluate 0 :: turnActs 0 2, some (.ok true)) ∧
    ∀ n i, .evaluate i ∈ (lateItem.waitForActs (some Timeval.zero) 5 n).1 →
      lateItem.held i = true := by
  refine ⟨⟨_, .queueTimeout "synchronized_queue::get() timed out.",
    (Option.some_get gettingNothing_runs).symm, by decide, ?_⟩, by decide, ?_⟩
  · exact (timed_waits_decide.2 _ _ _ gettingNothing _ (by simp [gettingNothing])
      (Option.some_get gettingNothing_runs).symm).1 .a 5 _ (by decide)
  · exact ((@timed_waits_decide Worker Nat _ _).1 lateItem Timeval.zero 5).evaluated rfl
      fun _ _ _ => rfl

end SyncQueue

end CppPthread
