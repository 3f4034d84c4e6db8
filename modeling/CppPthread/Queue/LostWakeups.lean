import CppPthread.Queue.Fifo
import CppPthread.Queue.Wakeup

set_option autoImplicit false

/-! # Where wakeups can get lost

Two things disturb the ledgers of `Queue/Wakeup.lean`. A `get` or `put` that a notification has
woken up may end because copying a `T` throws; it then neither takes the unit it was woken up
for nor passes the notification on. And `set_max_size` makes free places without telling the
producers that wait for them.

For both, this file gives the condition on the states before these steps under which nobody is
left behind, and a schedule in which somebody is.
-/

namespace CppPthread

open Posix Run Ledger

namespace SyncQueue

section Conditions

variable {Tid T : Type} [DecidableEq Tid] [Fintype Tid]

/-! ## A copy that throws -/

/-- An operation that has thrown only leaves: until then it keeps the mutex, and with it the
items as they are. -/
theorem step_leaving {q q' : SyncQueue Tid T} {e : Event Tid T} {t : Tid} {op : Op T}
    {o : Outcome} (hq : q.Ok) (h : step q e = some q') (he : e ≠ .leave t)
    (ht : q.frame t = .running (.client ⟨op, .leave o⟩)) :
    q'.frame t = .running (.client ⟨op, .leave o⟩) ∧ q'.items = q.items := by
  by_cases hthread : e.thread = some t
  · cases step_trans hq h with
    | leave => exact absurd (congrArg Event.leave (Option.some.inj hthread)) he
    | unwind => exact absurd (congrArg Event.leave (Option.some.inj hthread)) he
    | setMaxSize => exact ⟨ht, rfl⟩
    | tick => exact ⟨ht, rfl⟩
    | _ =>
        cases hthread
        simp_all
  · exact ⟨(step_running_ne hq h hthread).mpr ht, step_items_ne hq h hthread ht⟩

theorem run_leaving {q q' : SyncQueue Tid T} {es : List (Event Tid T)} {t : Tid} {op : Op T}
    {o : Outcome} (hq : q.Ok) (h : run step q es = some q') (he : .leave t ∉ es)
    (ht : q.frame t = .running (.client ⟨op, .leave o⟩)) :
    q'.frame t = .running (.client ⟨op, .leave o⟩) ∧ q'.items = q.items := by
  refine (run_invariant (C := fun _ e => e ≠ .leave t) (I := fun m => m.Ok ∧
    m.frame t = .running (.client ⟨op, .leave o⟩) ∧ m.items = q.items) ?_ ⟨hq, ht, rfl⟩
    (along_ne he) h).2
  intro m e m' ⟨hok, hf, hitems⟩ hne hs
  obtain ⟨hf', hitems'⟩ := step_leaving hok hs hne hf
  exact ⟨step_ok hok hs, hf', hitems'.trans hitems⟩

/-- `~lock_guard` is always possible, and releases the mutex. -/
theorem step_leave {q : SyncQueue Tid T} {t : Tid} {op : Op T} {o : Outcome}
    (ht : q.frame t = .running (.client ⟨op, .leave o⟩)) :
    step q (.leave t) = some (q.release t .outside) := by
  have hf : q.cvs.mon.frame t = .running (.client ⟨op, .leave o⟩) := ht
  have hcode : q.code (.leave t) = some ([.leave t], q.items) := by simp only [code, ht]
  refine (step_eq_some (by simp)).mpr ⟨_, _, q.cvs.release t .outside, hcode, ?_, rfl⟩
  rw [run_singleton]
  simp [CondVars.step, hf, Code.isWaiting, Monitor.unlock, CondVars.release]

/-- The step in which a copy throws. -/
theorem step_copyThrows {q q' : SyncQueue Tid T} {e : Event Tid T} {t : Tid} (hq : q.Ok)
    (h : step q e = some q') (he : e.copyThrows ≠ none) (ht : e.thread = some t) :
    q'.items = q.items ∧ ∃ op, q'.frame t = .running (.client ⟨op, .leave .copyThrew⟩) := by
  cases step_trans hq h with
  | @copyThrow u op =>
      cases ht
      exact ⟨rfl, op, by simp⟩
  | @pushThrow u op =>
      cases ht
      exact ⟨rfl, op, by simp⟩
  | _ => exact absurd rfl he

/-- Consumers are blocked only in front of an empty queue, and producers only in front of a full
one, when nobody is on the way. -/
def NobodyStuck (q : SyncQueue Tid T) : Prop :=
  q.cvs.mon.Quiescent →
    (∀ t, (q.frame t).isBlockedOn .notEmpty = true → q.items = []) ∧
    (∀ t, (q.frame t).isBlockedOn .notFull = true → q.capacity ≤ q.items.length)

/-- What a call that ends because a copy throws has to guarantee. It has stored and removed
nothing, from the throw until it leaves the items stay as they are, and it leaves with the mutex
released. -/
def CopyThrowsCleanly (q₀ : SyncQueue Tid T) (es : List (Event Tid T)) (q : SyncQueue Tid T) :
    Prop :=
  ∀ es₁ t op es₂ e es₃ q₁ q₂, es = es₁ ++ (.call t op :: es₂ ++ (e :: es₃)) →
    run step q₀ es₁ = some q₁ → run step q₁ (.call t op :: es₂) = some q₂ →
    e.copyThrows ≠ none → e.thread = some t → .leave t ∉ es₂ → .leave t ∉ es₃ →
    Obs.own t (q₁.log (.call t op :: es₂ ++ (e :: es₃))) = [] ∧ q.items = q₂.items ∧
    ∃ q', step q (.leave t) = some q' ∧ q'.items = q₂.items ∧ q'.cvs.mon.mutex = none ∧
      q'.frame t = .outside

theorem copyThrowsCleanly {q₀ q : SyncQueue Tid T} {es : List (Event Tid T)} (hq : q₀.Ok)
    (h : run step q₀ es = some q) : CopyThrowsCleanly q₀ es q := by
  intro es₁ t op es₂ e es₃ q₁ q₂ hes h₁ h₂ hthrow ht hl₂ hl₃
  subst hes
  obtain ⟨m, hm, hrest⟩ := run_append.mp h
  obtain rfl : q₁ = m := Option.some.inj (h₁.symm.trans hm)
  obtain ⟨m, hm, htail⟩ := run_append.mp hrest
  obtain rfl : q₂ = m := Option.some.inj (h₂.symm.trans hm)
  obtain ⟨q₃, he, h₃⟩ := run_cons.mp htail
  have hq₁ := run_ok hq h₁
  have hq₂ := run_ok hq₁ h₂
  have hq₃ := step_ok hq₂ he
  obtain ⟨hitems, op', hleave⟩ := step_copyThrows hq₂ he hthrow ht
  obtain ⟨hleave', hitems'⟩ := run_leaving hq₃ h₃ hl₃ hleave
  refine ⟨?_, hitems'.trans hitems, _, step_leave hleave', hitems'.trans hitems, rfl, by simp⟩
  -- the log of the call is that of its place in the operation, which is after the throw
  have hnot : Event.leave t ∉ es₂ ++ (e :: es₃) := by
    rw [List.mem_append, List.mem_cons]
    rintro (hmem | rfl | hmem)
    · exact hl₂ hmem
    · exact hthrow rfl
    · exact hl₃ hmem
  obtain ⟨-, hw⟩ := call_wrote hq₁ hnot hrest
  rw [hleave'] at hw
  exact hw.2

omit [DecidableEq Tid] in
theorem Covers.nobodyStuck {q : SyncQueue Tid T} (h : ∀ c, Covers c q) : NobodyStuck q :=
  fun hrest => ⟨fun _ ht => (h _).items_eq_nil hrest ht, fun _ ht => (h _).capacity_le hrest ht⟩

/-- **A call that fails while copying swallows no wakeup**, if at each copy that throws the
threads that stay pending are enough for what there is to take. -/
theorem copy_throw_swallows_nothing {m : BitVec 32} {now : Timeval}
    {timeout : QueueCv → Timespec} {es : List (Event Tid T)} {q : SyncQueue Tid T}
    (hset : ∀ n, .setMaxSize n ∉ es)
    (hthrow : Along step (fun q e => ThrowOk .notEmpty q e ∧ ThrowOk .notFull q e)
      (construct m now timeout) es)
    (h : run step (construct m now timeout) es = some q) :
    CopyThrowsCleanly (construct m now timeout) es q ∧ NobodyStuck q := by
  have hok : (construct m now timeout : SyncQueue Tid T).Ok := ok_construct m now timeout
  refine ⟨copyThrowsCleanly hok h, Covers.nobodyStuck fun c => ?_⟩
  refine run_covers hok (fun _ => hset) ?_ (covers_construct c m now timeout) h
  cases c with
  | notEmpty => exact hthrow.mono fun _ _ hc => hc.1
  | notFull => exact hthrow.mono fun _ _ hc => hc.2

end Conditions

/-- Worker a stores an item in a queue for one, the copy of worker b throws, and worker a waits
for a free place. -/
def failedCopy : List (Event Worker Nat) :=
  [.call .a (.put 7), .lock .a, .start .a, .test .a, .push .a true, .notify .a ∅, .leave .a,
   .call .b .get, .lock .b, .start .b, .test .b, .copy .b false, .leave .b,
   .call .a (.put 8), .lock .a, .start .a, .test .a, .block .a]

theorem failedCopy_runs :
    (run step (construct 1 Timeval.zero fun _ => ⟨0, 0⟩) failedCopy).isSome = true := by decide

theorem copy_throw_swallows_nothing_failedCopy :
    ∃ q, run step (construct 1 Timeval.zero fun _ => ⟨0, 0⟩) failedCopy = some q ∧
      (q.frame .a).isBlockedOn .notFull = true ∧ q.capacity ≤ q.items.length := by
  refine ⟨_, (Option.some_get failedCopy_runs).symm, by decide, ?_⟩
  exact ((copy_throw_swallows_nothing (by simp [failedCopy]) (by decide)
    (Option.some_get failedCopy_runs).symm).2 (by decide)).2 .a (by decide)

/-- Workers a and b wait for an item. Worker c stores one and wakes worker a up, whose copy
throws; the item stays, and worker b goes on waiting. -/
def swallowed : List (Event Worker Nat) :=
  [.call .a .get, .lock .a, .start .a, .test .a, .block .a,
   .call .b .get, .lock .b, .start .b, .test .b, .block .b,
   .call .c (.put 7), .lock .c, .start .c, .test .c, .push .c true, .notify .c {.a}, .leave .c,
   .relock .a, .test .a, .copy .a false, .leave .a]

theorem swallowed_runs :
    (run step (construct 4 Timeval.zero fun _ => ⟨0, 0⟩) swallowed).isSome = true := by decide

theorem copy_throw_swallows_wakeup :
    (∀ n, .setMaxSize n ∉ swallowed) ∧
    ∃ q, run step (construct 4 Timeval.zero fun _ => ⟨0, 0⟩) swallowed = some q ∧
      (q.frame .b).isBlockedOn .notEmpty = true ∧ q.items = [7] ∧ ¬ NobodyStuck q := by
  refine ⟨by simp [swallowed], _, (Option.some_get swallowed_runs).symm, by decide, by decide, ?_⟩
  intro h
  exact absurd ((h (by decide)).1 .b (by decide)) (by decide)

/-! ## Raising the capacity -/

section Raise

variable {Tid T : Type} [DecidableEq Tid] [Fintype Tid]

/-- If a producer is parked, the threads that are pending on the free places are enough for those
that a capacity of `n` gives. -/
def RaiseOk (q : SyncQueue Tid T) (n : BitVec 64) : Prop :=
  0 < count (parked .notFull) q.frame →
    n.toNat ≤ q.items.length + count (pending .notFull) q.frame

instance (q : SyncQueue Tid T) (n : BitVec 64) : Decidable (RaiseOk q n) :=
  inferInstanceAs (Decidable (_ → _))

/-- No producer is blocked in front of a free place when nobody is on the way. -/
def ProducersReleased (n : BitVec 64) (q : SyncQueue Tid T) : Prop :=
  q.cvs.mon.Quiescent → ∀ t, (q.frame t).isBlockedOn .notFull = true → n.toNat ≤ q.items.length

omit [DecidableEq Tid] in
/-- After `set_max_size` the ledger of the free places is covered when the condition was met. -/
theorem covers_setMaxSize {q : SyncQueue Tid T} {n : BitVec 64} (hn : n.toNat < 2 ^ 31)
    (h : RaiseOk q n) : Covers .notFull { q with maxSizeInt := n.truncate 32 } := by
  intro hpos
  have hfree := h hpos
  show capacity { q with maxSizeInt := n.truncate 32 } - q.items.length
    ≤ count (pending .notFull) q.frame
  rw [capacity_of_truncate hn rfl]
  omega

/-- **Raising the capacity releases the producers**, if no producer is parked at that moment or
enough threads are pending already. From then until the next `set_max_size` a copy that throws
in a `put` must not take away one of them. -/
theorem set_max_size_releases {m : BitVec 32} {now : Timeval} {timeout : QueueCv → Timespec}
    {es₀ es : List (Event Tid T)} {q₀ q : SyncQueue Tid T} {n : BitVec 64}
    (hn : n.toNat < 2 ^ 31) (h₀ : run step (construct m now timeout) es₀ = some q₀)
    (hraise : RaiseOk q₀ n) (hset : ∀ n', .setMaxSize n' ∉ es)
    (hthrow : Along step (ThrowOk .notFull) q₀ (.setMaxSize n :: es))
    (h : run step q₀ (.setMaxSize n :: es) = some q) : ProducersReleased n q := by
  have hq₀ : q₀.Ok := run_ok (ok_construct m now timeout) h₀
  obtain ⟨q₁, h₁, hes⟩ := run_cons.mp h
  obtain ⟨-, hthrow₁⟩ := along_cons hthrow h₁
  have hmax : q.maxSizeInt = q₁.maxSizeInt := run_maxSizeInt hset hes
  have hq₁ := step_ok hq₀ h₁
  cases step_trans hq₀ h₁
  have hcovers := run_covers hq₁ (fun _ => hset) hthrow₁ (covers_setMaxSize hn hraise) hes
  intro hrest t ht
  rw [← capacity_of_truncate hn hmax]
  exact hcovers.capacity_le hrest ht

end Raise

/-- The queue for one item is full and worker b waits for a free place. Worker c has taken the
item and is about to notify worker b. -/
def takenItem : List (Event Worker Nat) :=
  [.call .a (.put 7), .lock .a, .start .a, .test .a, .push .a true, .notify .a ∅, .leave .a,
   .call .b (.put 8), .lock .b, .start .b, .test .b, .block .b,
   .call .c .get, .lock .c, .start .c, .test .c, .copy .c true, .pop .c]

/-- After that the two producers go on. -/
def thenNotified : List (Event Worker Nat) :=
  [.notify .c {.b}, .leave .c, .relock .b, .test .b, .push .b true, .notify .b ∅, .leave .b,
   .call .a (.put 9), .lock .a, .start .a, .test .a, .block .a]

theorem takenItem_runs :
    (run step (construct 1 Timeval.zero fun _ => ⟨0, 0⟩) takenItem).isSome = true := by decide

theorem thenNotified_runs : (run step
    ((run step (construct 1 Timeval.zero fun _ => ⟨0, 0⟩) takenItem).get takenItem_runs)
    (.setMaxSize 1 :: thenNotified)).isSome = true := by decide

theorem set_max_size_releases_takenItem :
    ∃ q₀ q, run step (construct 1 Timeval.zero fun _ => ⟨0, 0⟩) takenItem = some q₀ ∧
      run step q₀ (.setMaxSize 1 :: thenNotified) = some q ∧
      (q.frame .a).isBlockedOn .notFull = true ∧ 1 ≤ q.items.length := by
  refine ⟨_, _, (Option.some_get takenItem_runs).symm, (Option.some_get thenNotified_runs).symm,
    by decide, ?_⟩
  exact set_max_size_releases (n := 1) (by decide) (Option.some_get takenItem_runs).symm
    (by decide) (by simp [thenNotified]) (by decide) (Option.some_get thenNotified_runs).symm
    (by decide) .a (by decide)

/-- A `put` waits in front of a queue without places. -/
def blockedPut : List (Event Worker Nat) :=
  [.call .a (.put 7), .lock .a, .start .a, .test .a, .block .a]

theorem blockedPut_runs :
    (run step (construct 0 Timeval.zero fun _ => ⟨0, 0⟩) blockedPut).isSome = true := by decide

/-- Nobody tells it when the capacity is raised. -/
theorem set_max_size_leaves_put_blocked :
    ∃ q₀ q, run step (construct 0 Timeval.zero fun _ => ⟨0, 0⟩) blockedPut = some q₀ ∧
      run step q₀ [.setMaxSize 5] = some q ∧ q.items = [] ∧ ¬ ProducersReleased 5 q := by
  refine ⟨_, _, (Option.some_get blockedPut_runs).symm, rfl, by decide, ?_⟩
  intro h
  exact absurd (h (by decide) .a (by decide)) (by decide)

end SyncQueue

end CppPthread
