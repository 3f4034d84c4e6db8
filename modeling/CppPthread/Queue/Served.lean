import CppPthread.Queue.Capacity
import CppPthread.Queue.LostWakeups

set_option autoImplicit false

/-! # What a queue at rest has done

However the threads are interleaved, a queue that has come to rest has served the same number of
calls. A call that waits on `c` is accounted for from its begin to its end: it has moved its item,
or it has ended without, or it is still on its way to its item (`Accounted`). At rest those on
their way are blocked, and a blocked thread means that there is nothing to take; so of the calls
that did not give up or fail, as many gets have returned as there were puts for them, and as many
puts as there were gets and free places (`settled_serves`).
-/

namespace CppPthread

open Posix Run Ledger

/-- The operation waits on `c`. -/
def Op.waits {T : Type} (c : QueueCv) (op : Op T) : Bool := decide (op.waitsOn = c)

namespace SyncQueue

section Accounts

variable {Tid T : Type}

/-! ## The accounts of an operation -/

/-- The event is a call of an operation that waits on `c`. -/
def Event.calls (c : QueueCv) : Event Tid T → Bool
  | .call _ op => op.waits c
  | _ => false

/-- The operation that ends, and how. -/
def ends (q : SyncQueue Tid T) : Event Tid T → List (Op T × Outcome)
  | .leave t =>
      match q.frame t with
      | .running (.client ⟨op, .leave o⟩) => [(op, o)]
      | .running (.returned (.error e) k) => [(k.op, .failed e)]
      | _ => []
  | _ => []

/-- The operations that wait on `c` and have returned. -/
def returns (c : QueueCv) (l : List (Op T × Outcome)) : Nat :=
  l.countP fun x => x.1.waits c && decide (x.2 = .returned)

/-- The operations that wait on `c` and have ended with an exception. -/
def failures (c : QueueCv) (l : List (Op T × Outcome)) : Nat :=
  l.countP fun x => x.1.waits c && decide (x.2 ≠ .returned)

/-- The items that the operations that wait on `c` have moved: removed, or stored. -/
def moved : QueueCv → List (Tid × Obs T) → Nat
  | .notEmpty, l => (Obs.removedItems l).length
  | .notFull, l => (Obs.storedItems l).length

/-- The thread has moved its item and has not left. -/
def serving (c : QueueCv) : Frame QueueCv (Code QueueCv (Local T)) → Bool
  | .running (.client ⟨op, .notify⟩) => op.waits c
  | .running (.client ⟨op, .leave .returned⟩) => op.waits c
  | _ => false

/-- The thread is in an operation that has not moved its item. -/
def unserved (c : QueueCv) : Frame QueueCv (Code QueueCv (Local T)) → Bool
  | .outside => false
  | .locking k => k.data.op.waits c
  | .running (.client ⟨_, .notify⟩) => false
  | .running (.client ⟨_, .leave .returned⟩) => false
  | .running k => k.data.op.waits c
  | .blocked _ _ k => k.data.op.waits c
  | .woken _ _ k => k.data.op.waits c

theorem serving_unblock (c : QueueCv) (f : Frame QueueCv (Code QueueCv (Local T))) :
    serving c (f.unblock 0) = serving c f := by
  cases f <;> rfl

theorem unserved_unblock (c : QueueCv) (f : Frame QueueCv (Code QueueCv (Local T))) :
    unserved c (f.unblock 0) = unserved c f := by
  cases f <;> rfl

@[simp] theorem moved_nil (c : QueueCv) : moved c ([] : List (Tid × Obs T)) = 0 := by
  cases c <;> rfl

@[simp] theorem returns_nil (c : QueueCv) : returns c ([] : List (Op T × Outcome)) = 0 := rfl

@[simp] theorem failures_nil (c : QueueCv) : failures c ([] : List (Op T × Outcome)) = 0 := rfl

theorem moved_wrote (c : QueueCv) (t : Tid) (x : T) : moved c [(t, .wrote x)] = 0 := by
  cases c <;> rfl

theorem moved_removed (c : QueueCv) (t : Tid) (x : T) :
    moved c [(t, .removed x)] = (decide (QueueCv.notEmpty = c)).toNat := by
  cases c <;> rfl

theorem moved_stored (c : QueueCv) (t : Tid) (x : T) :
    moved c [(t, .stored x)] = (decide (QueueCv.notFull = c)).toNat := by
  cases c <;> rfl

theorem returns_singleton (c : QueueCv) (op : Op T) (o : Outcome) :
    returns c [(op, o)] = (op.waits c && decide (o = .returned)).toNat := by
  rw [returns, List.countP_singleton]
  cases op.waits c && decide (o = .returned) <;> rfl

theorem failures_singleton (c : QueueCv) (op : Op T) (o : Outcome) :
    failures c [(op, o)] = (op.waits c && decide (o ≠ .returned)).toNat := by
  rw [failures, List.countP_singleton]
  cases op.waits c && decide (o ≠ .returned) <;> rfl

theorem returns_append (c : QueueCv) (l l' : List (Op T × Outcome)) :
    returns c (l ++ l') = returns c l + returns c l' := List.countP_append ..

theorem failures_append (c : QueueCv) (l l' : List (Op T × Outcome)) :
    failures c (l ++ l') = failures c l + failures c l' := List.countP_append ..

theorem moved_append (c : QueueCv) (l l' : List (Tid × Obs T)) :
    moved c (l ++ l') = moved c l + moved c l' := by
  cases c <;> simp [moved, Obs.removedItems, Obs.storedItems]

variable [DecidableEq Tid] [Fintype Tid]

/-- The ends of the operations in a run. -/
def endings (q : SyncQueue Tid T) (es : List (Event Tid T)) : List (Op T × Outcome) :=
  trace step ends q es

/-! ## The balance of a step -/

/-- A step moves the thread `t` to `f`, and nothing else in the accounts changes but what `t`
has done: it has moved `n` items, ended with `x` and begun `y` operations. -/
structure Balance (c : QueueCv) (q q' : SyncQueue Tid T) (e : Event Tid T) : Prop where
  served : moved c (q.observe e) + count (serving c) q.frame
    = returns c (q.ends e) + count (serving c) q'.frame
  asked : (e.calls c).toNat + count (unserved c) q.frame
    = moved c (q.observe e) + failures c (q.ends e) + count (unserved c) q'.frame

/-- The thread goes to `f`. -/
theorem balance_update {c : QueueCv} {q q' : SyncQueue Tid T} {e : Event Tid T} {t : Tid}
    {f : Frame QueueCv (Code QueueCv (Local T))} (hframe : q'.frame = Function.update q.frame t f)
    (hserved : moved c (q.observe e) + (serving c (q.frame t)).toNat
      = returns c (q.ends e) + (serving c f).toNat)
    (hasked : (e.calls c).toNat + (unserved c (q.frame t)).toNat
      = moved c (q.observe e) + failures c (q.ends e) + (unserved c f).toNat) :
    Balance c q q' e := by
  have hs := count_update (serving c) q.frame t f
  have hu := count_update (unserved c) q.frame t f
  constructor <;> rw [hframe] <;> omega

/-- The thread goes to `f` after a notification. -/
theorem balance_wake {c : QueueCv} {q q' : SyncQueue Tid T} {e : Event Tid T} {t : Tid}
    {f : Frame QueueCv (Code QueueCv (Local T))} {k : Code QueueCv (Local T)} {W : Finset Tid}
    (ht : q.frame t = .running k) (hframe : q'.frame = Function.update (q.wake W).frame t f)
    (hserved : moved c (q.observe e) + (serving c (.running k)).toNat
      = returns c (q.ends e) + (serving c f).toNat)
    (hasked : (e.calls c).toNat + (unserved c (.running k)).toNat
      = moved c (q.observe e) + failures c (q.ends e) + (unserved c f).toNat) :
    Balance c q q' e := by
  have hwake : ∀ {p : Frame QueueCv (Code QueueCv (Local T)) → Bool},
      (∀ f, p (f.unblock 0) = p f) → count p (q.wake W).frame = count p q.frame := by
    intro p hp
    refine count_congr fun u => ?_
    exact Monitor.wake_keeps (m := q.cvs.mon) (P := fun f => p f = p (q.frame u))
      (fun f hf => (hp f).trans hf) rfl W
  have hs := count_update (serving c) (q.wake W).frame t f
  have hu := count_update (unserved c) (q.wake W).frame t f
  rw [hwake (serving_unblock c), wake_frame_running ht] at hs
  rw [hwake (unserved_unblock c), wake_frame_running ht] at hu
  constructor <;> rw [hframe] <;> omega

/-- **The step lemma.** -/
theorem step_balance {c : QueueCv} {q q' : SyncQueue Tid T} {e : Event Tid T} (hq : q.Ok)
    (h : step q e = some q') : Balance c q q' e := by
  -- most steps neither begin nor end an operation, and move no item
  have quiet : ∀ {t : Tid} {f : Frame QueueCv (Code QueueCv (Local T))},
      q'.frame = Function.update q.frame t f → moved c (q.observe e) = 0 → q.ends e = [] →
      (e.calls c = false) → serving c f = serving c (q.frame t) →
      unserved c f = unserved c (q.frame t) → Balance c q q' e := by
    intro t f hframe hobs hends hcalls hs hu
    refine balance_update hframe ?_ ?_
    · rw [hobs, hends, returns_nil, hs]
    · rw [hobs, hends, hcalls, failures_nil, hu]
      rfl
  cases step_trans hq h with
  | @call t op ht =>
      refine balance_update rfl ?_ ?_ <;>
        simp [ht, serving, unserved, observe, ends, Event.calls]
  | lock ht => exact quiet rfl (moved_nil c) rfl rfl (by rw [ht]; rfl) (by rw [ht]; rfl)
  | start ht => exact quiet rfl (moved_nil c) rfl rfl (by rw [ht]; rfl) (by rw [ht]; rfl)
  | arm ht => exact quiet rfl (moved_nil c) rfl rfl (by rw [ht]; rfl) (by rw [ht]; rfl)
  | armFail ht => exact quiet rfl (moved_nil c) rfl rfl (by rw [ht]; rfl) (by rw [ht]; rfl)
  | testTrue ht => exact quiet rfl (moved_nil c) rfl rfl (by rw [ht]; rfl) (by rw [ht]; rfl)
  | testBlock ht => exact quiet rfl (moved_nil c) rfl rfl (by rw [ht]; rfl) (by rw [ht]; rfl)
  | testFalse ht => exact quiet rfl (moved_nil c) rfl rfl (by rw [ht]; rfl) (by rw [ht]; rfl)
  | block ht => exact quiet rfl (moved_nil c) rfl rfl (by rw [ht]; rfl) (by rw [ht]; rfl)
  | refuse ht => exact quiet rfl (moved_nil c) rfl rfl (by rw [ht]; rfl) (by rw [ht]; rfl)
  | spurious ht => exact quiet rfl (moved_nil c) rfl rfl (by rw [ht]; rfl) (by rw [ht]; rfl)
  | expire ht => exact quiet rfl (moved_nil c) rfl rfl (by rw [ht]; rfl) (by rw [ht]; rfl)
  | relock ht => exact quiet rfl (moved_nil c) rfl rfl (by rw [ht]; rfl) (by rw [ht]; rfl)
  | @copy t op pc x xs ht hop hx =>
      refine quiet rfl ?_ rfl rfl (by rw [ht]; rfl) (by rw [ht]; rfl)
      simp [observe, hx, moved_wrote]
  | copyThrow ht => exact quiet rfl (moved_nil c) rfl rfl (by rw [ht]; rfl) (by rw [ht]; rfl)
  | @pop t op x xs ht hx =>
      have hget := Op.waitsOn_eq_notEmpty.mpr
        (hq.code (c := .client ⟨op, .pop⟩) (by rw [ht]; rfl) rfl)
      refine balance_update rfl ?_ ?_ <;>
        simp [ht, serving, unserved, observe, ends, hx, moved_removed, hget, Op.waits,
          Event.calls]
  | @push t op pc x ht hop =>
      have hput : op.waitsOn = .notFull := Op.waitsOn_eq_notFull.mpr ⟨x, hop⟩
      refine balance_update rfl ?_ ?_ <;>
        simp [ht, serving, unserved, observe, ends, hop, moved_stored, hput, Op.waits,
          Event.calls]
  | pushThrow ht => exact quiet rfl (moved_nil c) rfl rfl (by rw [ht]; rfl) (by rw [ht]; rfl)
  | notifyOne ht =>
      refine balance_wake ht rfl ?_ ?_ <;> simp [serving, unserved, observe, ends, Event.calls]
  | notifyAll ht =>
      refine balance_wake ht rfl ?_ ?_ <;> simp [serving, unserved, observe, ends, Event.calls]
  | @leave t op o ht =>
      have hobs : moved c (q.observe (.leave t)) = 0 := by
        simp only [observe, ht]
        cases c <;> rfl
      refine balance_update rfl ?_ ?_
      · rw [hobs, ht]
        simp only [ends, ht, returns_singleton]
        cases o <;> simp [serving]
      · rw [hobs, ht]
        simp only [ends, ht, failures_singleton]
        cases o <;> simp [unserved, Event.calls]
  | @unwind t ex k ht =>
      have hobs : moved c (q.observe (.leave t)) = 0 := by
        simp only [observe, ht]
        cases c <;> rfl
      refine balance_update rfl ?_ ?_
      · rw [hobs, ht]
        simp [ends, ht, returns_singleton, serving]
      · rw [hobs, ht]
        simp [ends, ht, failures_singleton, unserved, Event.calls]
  | setMaxSize => exact ⟨by simp [observe, ends]; rfl, by simp [observe, ends, Event.calls]; rfl⟩
  | tick => exact ⟨by simp [observe, ends]; rfl, by simp [observe, ends, Event.calls]; rfl⟩

/-! ## The balance of a run -/

/-- The accounts of the operations that wait on `c`, after a run of the queue `q₀` to `q`. -/
structure Accounted (c : QueueCv) (q₀ : SyncQueue Tid T) (es : List (Event Tid T))
    (q : SyncQueue Tid T) : Prop where
  served : moved c (q₀.log es) = returns c (q₀.endings es) + count (serving c) q.frame
  asked : es.countP (Event.calls c)
    = moved c (q₀.log es) + failures c (q₀.endings es) + count (unserved c) q.frame

/-- **The run lemma.** -/
theorem run_accounted {c : QueueCv} {q₀ q : SyncQueue Tid T} {es : List (Event Tid T)}
    (hq : q₀.Ok) (hout : ∀ t, q₀.frame t = .outside) (h : run step q₀ es = some q) :
    Accounted c q₀ es q := by
  refine run_history (P := Accounted c q₀) ?_ ?_ h
  · have hserving : count (serving c) q₀.frame = 0 :=
      count_eq_zero.mpr fun t => by rw [hout]; rfl
    have hunserved : count (unserved c) q₀.frame = 0 :=
      count_eq_zero.mpr fun t => by rw [hout]; rfl
    exact ⟨by simp [log, endings, trace, hserving], by simp [log, endings, trace, hunserved]⟩
  · intro es q e q' hrun ih hs
    have hbalance := step_balance (c := c) (run_ok hq hrun) hs
    have hlog : q₀.log (es ++ [e]) = q₀.log es ++ q.observe e := trace_snoc e hrun
    have hends : q₀.endings (es ++ [e]) = q₀.endings es ++ q.ends e := trace_snoc e hrun
    have hcalls : (es ++ [e]).countP (Event.calls c)
        = es.countP (Event.calls c) + (e.calls c).toNat := by
      rw [List.countP_append, List.countP_singleton]
      cases e.calls c <;> rfl
    have hserved := ih.served
    have hasked := ih.asked
    have hbserved := hbalance.served
    have hbasked := hbalance.asked
    constructor
    · rw [hlog, hends, moved_append, returns_append]
      omega
    · rw [hlog, hends, hcalls, moved_append, failures_append]
      omega

omit [DecidableEq Tid] in
/-- At rest nobody is between its item and the end of its operation, and who has not got its item
is blocked. -/
theorem Ok.at_rest {q : SyncQueue Tid T} (hq : q.Ok) (hrest : q.cvs.mon.Quiescent) (c : QueueCv) :
    count (serving c) q.frame = 0 ∧
      count (unserved c) q.frame = count (Frame.isBlockedOn c) q.frame := by
  constructor
  · refine count_eq_zero.mpr fun t => ?_
    have ht : (q.frame t).atRest = true := hrest t
    cases hf : q.frame t <;> simp [hf, Frame.atRest] at ht <;> rfl
  · refine count_congr fun t => ?_
    have ht : (q.frame t).atRest = true := hrest t
    cases hf : q.frame t with
    | outside => rfl
    | blocked cv a k =>
        obtain ⟨w, l, rfl, -, rfl⟩ := hq.blocked hf
        rfl
    | _ => simp [hf, Frame.atRest] at ht

/-! ## What has been served at rest -/

omit [DecidableEq Tid] [Fintype Tid] in
theorem largest_of_not_setMaxSize {b : Nat} {es : List (Event Tid T)}
    (hset : ∀ n, .setMaxSize n ∉ es) : largest b es = b := by
  induction es with
  | nil => rfl
  | cons e es ih =>
      have hrest := ih fun n hn => hset n (List.mem_cons_of_mem _ hn)
      cases e with
      | setMaxSize n => exact absurd (List.mem_cons_self ..) (hset n)
      | _ => exact hrest

/-- Nobody is left behind in a run in which the copies that throw leave enough pending threads. -/
theorem run_nobodyStuck {m : BitVec 32} {now : Timeval} {timeout : QueueCv → Timespec}
    {es : List (Event Tid T)} {q : SyncQueue Tid T} (hset : ∀ n, .setMaxSize n ∉ es)
    (hthrow : ∀ c, Along step (ThrowOk c) (construct m now timeout) es)
    (h : run step (construct m now timeout) es = some q) : NobodyStuck q :=
  Covers.nobodyStuck fun c => run_covers (ok_construct m now timeout) (fun _ => hset) (hthrow c)
    (covers_construct c m now timeout) h

/-- The calls that wait on `c` and have not ended with an exception. -/
def asked (c : QueueCv) (q₀ : SyncQueue Tid T) (es : List (Event Tid T)) : Nat :=
  es.countP (Event.calls c) - failures c (q₀.endings es)

/-- **A queue at rest has served everybody it could.** Of the gets that have not ended with an
exception as many have returned as there are such puts, and of the puts as many as there are such
gets and places; in whatever order the threads have run. The capacity stays the same, and a copy
throws only while nobody is parked on the variable that its operation has waited on or while the
other threads pending on it are enough for its supply. -/
theorem settled_serves {m : BitVec 32} (hm : 0 < m.toInt) {now : Timeval}
    {timeout : QueueCv → Timespec} {es : List (Event Tid T)} {q : SyncQueue Tid T}
    (hset : ∀ n, .setMaxSize n ∉ es)
    (hthrow : ∀ c, Along step (ThrowOk c) (construct m now timeout) es)
    (h : run step (construct m now timeout) es = some q) (hrest : q.cvs.mon.Quiescent) :
    returns .notEmpty ((construct m now timeout).endings es)
      = min (asked .notEmpty (construct m now timeout) es)
          (asked .notFull (construct m now timeout) es) ∧
    returns .notFull ((construct m now timeout).endings es)
      = min (asked .notFull (construct m now timeout) es)
          (asked .notEmpty (construct m now timeout) es + m.toInt.toNat) := by
  have hok : (construct m now timeout : SyncQueue Tid T).Ok := ok_construct m now timeout
  have hq : q.Ok := run_ok hok h
  obtain ⟨hempty, hfull⟩ := run_nobodyStuck hset hthrow h hrest
  have hcapacity := run_capacity (Int.le_of_lt hm) hset h
  -- what has been stored is what has been removed and what is left
  have hitems := congrArg List.length (run_conservation hok h)
  have hlength := (run_bounded (Int.le_of_lt hm)
    (fun n hn => absurd hn (hset n)) h).length_le
  rw [largest_of_not_setMaxSize hset] at hlength
  have account : ∀ c, moved c ((construct m now timeout).log es)
      = returns c ((construct m now timeout).endings es) ∧
      asked c (construct m now timeout) es
        = moved c ((construct m now timeout).log es) + count (Frame.isBlockedOn c) q.frame := by
    intro c
    have hacc := run_accounted (c := c) hok (fun _ => rfl) h
    obtain ⟨hserving, hunserved⟩ := hq.at_rest hrest c
    have hserved := hacc.served
    have hasked := hacc.asked
    unfold asked
    omega
  obtain ⟨hgets, hgot⟩ := account .notEmpty
  obtain ⟨hputs, hput⟩ := account .notFull
  -- somebody who is blocked means that there is nothing to take
  have hnone : 0 < count (Frame.isBlockedOn .notEmpty) q.frame → q.items.length = 0 := by
    intro hpos
    obtain ⟨t, ht⟩ := count_pos.mp hpos
    rw [hempty t ht]
    rfl
  have hplaces : 0 < count (Frame.isBlockedOn .notFull) q.frame → q.capacity ≤ q.items.length := by
    intro hpos
    obtain ⟨t, ht⟩ := count_pos.mp hpos
    exact hfull t ht
  simp only [List.length_append] at hitems
  have hinit : (construct m now timeout : SyncQueue Tid T).items.length = 0 := rfl
  simp only [moved] at hgets hgot hputs hput
  omega

end Accounts

/-- Workers a and b wait for an item. Worker c stores one, wakes worker b up, comes to take the item
itself, and its copy throws; worker b is still on its way and gets it. -/
def spared : List (Event Worker Nat) :=
  [.call .a .get, .lock .a, .start .a, .test .a, .block .a,
   .call .b .get, .lock .b, .start .b, .test .b, .block .b,
   .call .c (.put 7), .lock .c, .start .c, .test .c, .push .c true, .notify .c {.b}, .leave .c,
   .call .c .get, .lock .c, .start .c, .test .c, .copy .c false, .leave .c,
   .relock .b, .test .b, .copy .b true, .pop .b, .notify .b ∅, .leave .b]

theorem spared_runs :
    (run step (construct 1 Timeval.zero fun _ => ⟨0, 0⟩) spared).isSome = true := by decide

theorem settled_serves_spared :
    ∃ q, run step (construct 1 Timeval.zero fun _ => ⟨0, 0⟩) spared = some q ∧
      (q.frame .a).isBlockedOn .notEmpty = true ∧
      failures .notEmpty ((construct 1 Timeval.zero fun _ => ⟨0, 0⟩).endings spared) = 1 ∧
      asked .notEmpty (construct 1 Timeval.zero fun _ => ⟨0, 0⟩) spared = 2 ∧
      returns .notEmpty ((construct 1 Timeval.zero fun _ => ⟨0, 0⟩).endings spared)
        = min (asked .notEmpty (construct 1 Timeval.zero fun _ => ⟨0, 0⟩) spared)
            (asked .notFull (construct 1 Timeval.zero fun _ => ⟨0, 0⟩) spared) :=
  ⟨_, (Option.some_get spared_runs).symm, by decide, by decide, by decide,
    (settled_serves (by decide) (by simp [spared]) (fun c => by cases c <;> decide)
      (Option.some_get spared_runs).symm (by decide)).1⟩

end SyncQueue

end CppPthread
