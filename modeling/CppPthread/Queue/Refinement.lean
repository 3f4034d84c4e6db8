import CppPthread.Basic.Atomic
import CppPthread.Queue.Capacity
import CppPthread.Queue.GiveUp
import CppPthread.Queue.Work

set_option autoImplicit false

/-! # The queue is an atomic bounded queue

`BoundedQueue` is what the class is for: a list of items with a capacity, and for each operation
what it does to them when it ends in a certain way. The queue of `Queue/SyncQueue.lean`, with its
mutex, its condition variables and its waits, refines the atomic object made of it
(`Basic/Atomic.lean`): every run of the one is followed by a run of the other in which the threads
call the same operations, are handed the same values and see the same ends (`refines_atomic`).

An operation takes effect in its critical section: a `get` when it copies the first item, a `put`
when it appends its item, and one that gives up when its wait returns `false`. What the condition is
for: `set_max_size` takes no mutex, so it may come between the test of a `put` and its `push_back`;
then the item is stored although the queue is full.
-/

namespace CppPthread

open Posix Run

/-! ## The bounded queue -/

structure BoundedQueue (T : Type) where
  items : List T
  capacity : Nat

/-- The operations of the queue. -/
inductive QueueOp (T : Type) where
  | op (op : Op T)
  | setMaxSize (n : BitVec 64)

namespace BoundedQueue

variable {T : Type}

/-- An item to take for a `get`, or a free place for a `put`. -/
def ready (b : BoundedQueue T) (op : Op T) : Bool :=
  match op.item? with
  | none => !b.items.isEmpty
  | some _ => decide (b.items.length < b.capacity)

/-- The queue after an operation that has ended with `o`. An operation may give up only if it has a
waiting time and there is nothing for it; with a waiting time it may also fail in any state, when
its wait does. `set_max_size(n)` gives the capacity that the queue gets from `n` by way of its
`int`. -/
def seq (b : BoundedQueue T) : QueueOp T → Outcome → Option (BoundedQueue T)
  | .op op, .returned =>
      if b.ready op then
        match op.item? with
        | none => some { b with items := b.items.tail }
        | some x => some { b with items := b.items ++ [x] }
      else none
  | .op op, .threw e =>
      if op.call.timed ∧ b.ready op = false ∧ e = op.timedOut then some b else none
  | .op op, .failed _ => if op.call.timed then some b else none
  | .op op, .copyThrew => if b.ready op then some b else none
  | .setMaxSize n, .returned =>
      some { b with capacity := ((n.truncate 32).signExtend 64).toNat }
  | .setMaxSize _, _ => none

/-- A `get` that returns hands the first item to its caller. -/
def deliver (b : BoundedQueue T) : QueueOp T → Outcome → List T
  | .op op, .returned =>
      match op.item? with
      | none => b.items.head?.toList
      | some _ => []
  | _, _ => []

end BoundedQueue

namespace SyncQueue

/-! ## What the queue shows of it -/

section View

variable {Tid T : Type}

/-- The code is between the copy of the first item and its removal. -/
def isPop : Code QueueCv (Local T) → Bool
  | .client ⟨_, .pop⟩ => true
  | _ => false

/-- The items without one that has been copied out already. -/
def viewItems (q : SyncQueue Tid T) : List T :=
  match q.cvs.mon.mutex with
  | none => q.items
  | some t =>
      match q.frame t with
      | .running c => if isPop c then q.items.tail else q.items
      | _ => q.items

def object (q : SyncQueue Tid T) : BoundedQueue T := ⟨q.viewItems, q.capacity⟩

/-- Where a thread stands in its operation. -/
def status : Frame QueueCv (Code QueueCv (Local T)) → Atomic.Status (QueueOp T) Outcome
  | .outside => .idle
  | .locking c => .pending (.op c.data.op)
  | .running (.client ⟨op, .enter⟩) => .pending (.op op)
  | .running (.client ⟨op, .pop⟩) => .done (.op op) .returned
  | .running (.client ⟨op, .notify⟩) => .done (.op op) .returned
  | .running (.client ⟨op, .leave o⟩) => .done (.op op) o
  | .running (.waiting _ k) => .pending (.op k.op)
  | .running (.returned (.ok true) k) => .pending (.op k.op)
  | .running (.returned (.ok false) k) => .done (.op k.op) (.threw k.op.timedOut)
  | .running (.returned (.error e) k) => .done (.op k.op) (.failed e)
  | .blocked _ _ c => .pending (.op c.data.op)
  | .woken _ _ c => .pending (.op c.data.op)

theorem status_unblock (f : Frame QueueCv (Code QueueCv (Local T))) :
    status (f.unblock 0) = status f := by
  cases f <;> rfl

/-- The atomic object that the queue stands for. -/
def view (q : SyncQueue Tid T) : Atomic.State Tid (BoundedQueue T) (QueueOp T) Outcome :=
  ⟨q.object, fun t => status (q.frame t)⟩

/-- What is seen of the queue: the calls, the values that the callers get and the ends. -/
def shows (q : SyncQueue Tid T) :
    Event Tid T → List (Option Tid × Atomic.Shown (QueueOp T) Outcome T)
  | .call t op => [(some t, .called (.op op))]
  | .copy t true => q.items.head?.toList.map fun x => (some t, .delivered x)
  | .leave t =>
      match q.frame t with
      | .running (.client ⟨_, .leave o⟩) => [(some t, .ended o)]
      | .running (.returned (.error e) _) => [(some t, .ended (.failed e))]
      | _ => []
  | .setMaxSize n => [(none, .called (.setMaxSize n)), (none, .ended .returned)]
  | _ => []

theorem viewItems_of_free {q : SyncQueue Tid T} (hm : q.cvs.mon.mutex = none) :
    q.viewItems = q.items := by
  rw [viewItems, hm]

theorem viewItems_of_running {q : SyncQueue Tid T} (hq : q.Ok) {t : Tid}
    {c : Code QueueCv (Local T)} (ht : q.frame t = .running c) :
    q.viewItems = if isPop c then q.items.tail else q.items := by
  have hm : q.cvs.mon.mutex = some t := (hq.excl t).mp (by rw [← frame, ht]; rfl)
  rw [viewItems, hm]
  simp only [ht]

variable [DecidableEq Tid]

/-- A thread that does not hold the mutex does not change what is seen of the items. -/
theorem viewItems_put {q : SyncQueue Tid T} (hq : q.Ok) {t : Tid}
    {f : Frame QueueCv (Code QueueCv (Local T))} (ht : (q.frame t).isRunning = false) :
    (q.put t f).viewItems = q.viewItems := by
  cases hm : q.cvs.mon.mutex with
  | none => rw [viewItems_of_free hm, viewItems_of_free (q := q.put t f) hm, put_items]
  | some u =>
      have hu : (q.frame u).isRunning = true := (hq.excl u).mpr hm
      have hne : u ≠ t := by
        rintro rfl
        rw [ht] at hu
        cases hu
      have hframe : (q.put t f).frame u = q.frame u := Function.update_of_ne hne ..
      have hm' : (q.put t f).cvs.mon.mutex = some u := hm
      rw [viewItems, viewItems, hm', hm]
      simp only [hframe, put_items]

/-- The thread that holds the mutex goes on, and copies nothing. -/
theorem viewItems_put_running {q : SyncQueue Tid T} (hq : q.Ok) {t : Tid}
    {c c' : Code QueueCv (Local T)} (ht : q.frame t = .running c) (hq' : (q.put t (.running c')).Ok)
    (hc : isPop c = false) (hc' : isPop c' = false) :
    (q.put t (.running c')).viewItems = q.viewItems := by
  rw [viewItems_of_running hq ht, viewItems_of_running hq' (put_frame_self ..), hc, hc', put_items]

omit [DecidableEq Tid] in
/-- The predicate of a wait is what the operation needs of the bounded queue. -/
theorem object_ready {q : SyncQueue Tid T} (hq : q.Ok) {t : Tid} {c : Code QueueCv (Local T)}
    (ht : q.frame t = .running c) (hc : isPop c = false) (op : Op T) :
    q.object.ready op = q.ready op := by
  have hitems : q.viewItems = q.items := by
    rw [viewItems_of_running hq ht, hc]
    rfl
  cases op <;> simp [BoundedQueue.ready, object, hitems, Op.item?, ready]

end View

section Refinement

variable {Tid T : Type} [DecidableEq Tid] [Fintype Tid]

/-! ## What an operation finds when it goes on -/

/-- What the wait has found is still there. -/
def Admits (q : SyncQueue Tid T) : Prop :=
  ∀ t k, q.frame t = .running (.returned (.ok true) k) → q.ready k.op = true

/-- The event is `set_max_size`. -/
def Event.setsSize : Event Tid T → Bool
  | .setMaxSize _ => true
  | _ => false

/-- `set_max_size` does not come between the test of a `put` and its `push_back`. -/
def SizeOk (q : SyncQueue Tid T) (e : Event Tid T) : Prop :=
  e.setsSize = true → ∀ t, admitted (q.frame t) = false

instance (q : SyncQueue Tid T) (e : Event Tid T) : Decidable (SizeOk q e) :=
  inferInstanceAs (Decidable (_ → _))

theorem step_admits {q q' : SyncQueue Tid T} {e : Event Tid T} (hq : q.Ok) (hsize : SizeOk q e)
    (ha : q.Admits) (h : step q e = some q') : q'.Admits := by
  intro t k ht
  by_cases he : e.thread = some t
  · cases step_trans hq h with
    | @testTrue u w k' status hf hp hr =>
        cases he
        obtain rfl : k' = k := by simpa using ht
        exact (ready_congr rfl rfl _).trans hr
    | setMaxSize => cases he
    | tick => cases he
    | _ =>
        cases he
        simp at ht
  · have hf := (step_running_ne hq h he).mp ht
    have hitems := step_items_ne hq h he hf
    by_cases hset : ∀ n, e ≠ .setMaxSize n
    · rw [ready_congr hitems (step_maxSizeInt hset h)]
      exact ha t k hf
    · push Not at hset
      obtain ⟨n, rfl⟩ := hset
      -- the thread is in a `get`, which does not look at the capacity
      have hget := hsize rfl t
      rw [hf] at hget
      have hready := ha t k hf
      cases hop : k.op <;> simp [admitted, hop, Op.item?] at hget <;>
        simpa [ready, hop, hitems] using hready

/-- Only a timed wait is refused its deadline. -/
theorem step_refused_timed {q : SyncQueue Tid T} {t : Tid} {w : Wait QueueCv} {k : Local T}
    {e : PthreadException} (ht : q.frame t = .running (.waiting w k))
    (h : step q (.block t) = some (q.put t (.running (.returned (.error e) k)))) :
    w.call.timed = true := by
  obtain ⟨cvs, htr, hq'⟩ := step_call (by simp) rfl h
  have hframe : cvs.mon.frame t = .running (.returned (.error e) k) := by
    have hput := put_frame_self q t (.running (.returned (.error e) k))
    rw [hq'] at hput
    exact hput
  have hf : q.cvs.mon.frame t = .running (.waiting w k) := ht
  cases htr with
  | @block _ w' k' hf' =>
      have hself : (q.cvs.release t
            (.blocked w'.call.cv (q.cvs.abstime w') (.waiting w' k'))).mon.frame t
          = .blocked w'.call.cv (q.cvs.abstime w') (.waiting w' k') := Function.update_self ..
      rw [hself] at hframe
      cases hframe
  | @refuse _ w' k' hf' hp hc hv =>
      rw [hf] at hf'
      cases hf'
      exact hc

/-! ## The simulation -/

/-- The event of the atomic object: the one by which the thread gets to its new status. -/
def lower (q : SyncQueue Tid T) (e : Event Tid T) :
    List (Atomic.Event Tid (QueueOp T) Outcome) :=
  match e with
  | .setMaxSize n => [.instant (.setMaxSize n) .returned]
  | e =>
      match e.thread, step q e with
      | some t, some q' => Atomic.moves t (status (q.frame t)) (status (q'.frame t))
      | _, _ => []

theorem lower_of_thread {q q' : SyncQueue Tid T} {e : Event Tid T} {t : Tid}
    (h : step q e = some q') (he : e.thread = some t) :
    q.lower e = Atomic.moves t (status (q.frame t)) (status (q'.frame t)) := by
  cases e with
  | setMaxSize n => cases he
  | _ => simp only [lower, he, h]

/-- The threads that do not take the step keep their status. -/
theorem view_eq {q q' : SyncQueue Tid T} {e : Event Tid T} {t : Tid} (hq : q.Ok)
    (h : step q e = some q') (he : e.thread = some t) :
    q'.view = q.view.set q'.object t (status (q'.frame t)) := by
  simp only [view, Atomic.State.set, Atomic.State.mk.injEq, true_and]
  funext u
  by_cases hu : u = t
  · subst hu
    rw [Function.update_self]
  · rw [Function.update_of_ne hu]
    have hne : e.thread ≠ some u := fun heq => hu (Option.some.inj (heq.symm.trans he))
    rcases step_frame_ne hq h hne with hf | hf <;> rw [hf]
    exact status_unblock _

/-- A step after which thread and object are where they were. -/
theorem refines_stay {q q' : SyncQueue Tid T} {e : Event Tid T} {t : Tid} (hq : q.Ok)
    (h : step q e = some q') (he : e.thread = some t)
    (hst : status (q'.frame t) = status (q.frame t)) (hobj : q'.object = q.object) :
    run (Atomic.step BoundedQueue.seq) q.view (q.lower e) = some q'.view := by
  rw [lower_of_thread h he, view_eq hq h he, hst, hobj]
  exact Atomic.run_stay rfl

/-- A step in which the operation of the thread takes effect. -/
theorem refines_effect {q q' : SyncQueue Tid T} {e : Event Tid T} {t : Tid} (hq : q.Ok)
    (h : step q e = some q') (he : e.thread = some t) {op : Op T} {o : Outcome}
    (hst : status (q.frame t) = .pending (.op op)) (hst' : status (q'.frame t) = .done (.op op) o)
    (hseq : q.object.seq (.op op) o = some q'.object) :
    run (Atomic.step BoundedQueue.seq) q.view (q.lower e) = some q'.view := by
  rw [lower_of_thread h he, view_eq hq h he, hst, hst']
  exact Atomic.run_effect hst hseq

/-- A step in which the operation of the thread returns. -/
theorem refines_ret {q q' : SyncQueue Tid T} {e : Event Tid T} {t : Tid} (hq : q.Ok)
    (h : step q e = some q') (he : e.thread = some t) {op : Op T} {o : Outcome}
    (hst : status (q.frame t) = .done (.op op) o) (hst' : status (q'.frame t) = .idle)
    (hobj : q'.object = q.object) :
    run (Atomic.step BoundedQueue.seq) q.view (q.lower e) = some q'.view := by
  rw [lower_of_thread h he, view_eq hq h he, hst, hst', hobj]
  exact Atomic.run_ret hst

omit [DecidableEq Tid] [Fintype Tid] in
theorem object_congr {q q' : SyncQueue Tid T} (hitems : q'.viewItems = q.viewItems)
    (hmax : q'.maxSizeInt = q.maxSizeInt) : q'.object = q.object := by
  rw [object, object, hitems, capacity_congr hmax]

/-- **The step lemma.** -/
theorem step_refines {q q' : SyncQueue Tid T} {e : Event Tid T} (hq : q.Ok)
    (hstatus : ∀ t, StatusOk (q.frame t)) (ha : q.Admits) (h : step q e = some q') :
    run (Atomic.step BoundedQueue.seq) q.view (q.lower e) = some q'.view := by
  have hq' : q'.Ok := step_ok hq h
  cases step_trans hq h with
  | @call t op ht =>
      have hst : q.view.status t = .idle := by
        show status (q.frame t) = _
        rw [ht]
        rfl
      rw [lower_of_thread h rfl, view_eq hq h rfl, put_frame_self, ht,
        object_congr (viewItems_put hq (by rw [ht]; rfl)) rfl]
      exact Atomic.run_call hst
  | @lock t op ht hm =>
      refine refines_stay hq h rfl (by rw [take_frame_self, ht]; rfl) (object_congr ?_ rfl)
      rw [viewItems_of_running hq' (take_frame_self ..), viewItems_of_free hm]
      rfl
  | @start t op ht =>
      exact refines_stay hq h rfl (by rw [put_frame_self, ht]; rfl)
        (object_congr (viewItems_put_running hq ht hq' rfl rfl) rfl)
  | @arm t w k ht hp =>
      refine refines_stay hq h rfl (by rw [setTimeout_frame, put_frame_self, ht]; rfl)
        (object_congr ?_ rfl)
      rw [viewItems_of_running hq' (put_frame_self ..), viewItems_of_running hq ht]
      rfl
  | @armFail t w k ht hp =>
      refine refines_effect hq h rfl (by rw [ht]; rfl) (by rw [put_frame_self]; rfl) ?_
      have htimed : k.op.call.timed = true := by
        rw [← (hq.waiting (t := t) (by rw [ht]; rfl)).1]
        exact (hq.waiting (t := t) (by rw [ht]; rfl)).2 hp
      rw [object_congr (viewItems_put_running hq ht hq' rfl rfl) rfl]
      simp [BoundedQueue.seq, htimed]
  | @testTrue t w k status ht hp hr =>
      exact refines_stay hq h rfl (by rw [put_frame_self, ht]; rfl)
        (object_congr (viewItems_put_running hq ht hq' rfl rfl) rfl)
  | @testBlock t w k status ht hp hr =>
      exact refines_stay hq h rfl (by rw [put_frame_self, ht]; rfl)
        (object_congr (viewItems_put_running hq ht hq' rfl rfl) rfl)
  | @testFalse t w k ht hp hr =>
      refine refines_effect hq h rfl (by rw [ht]; rfl) (by rw [put_frame_self]; rfl) ?_
      have htimed : k.op.call.timed = true := by
        have hst := hstatus t
        rw [ht] at hst
        rw [← (hq.waiting (t := t) (by rw [ht]; rfl)).1]
        exact hst hp
      rw [object_congr (viewItems_put_running hq ht hq' rfl rfl) rfl]
      simp [BoundedQueue.seq, htimed, object_ready hq ht rfl, hr]
  | @block t w k ht hp =>
      refine refines_stay hq h rfl (by rw [release_frame_self, ht]; rfl) (object_congr ?_ rfl)
      rw [viewItems_of_free (q := q.release t _) rfl, viewItems_of_running hq ht]
      rfl
  | @refuse t w k ht hp hv =>
      refine refines_effect hq h rfl (by rw [ht]; rfl) (by rw [put_frame_self]; rfl) ?_
      have htimed : k.op.call.timed = true := by
        rw [← (hq.waiting (t := t) (by rw [ht]; rfl)).1]
        exact step_refused_timed ht h
      rw [object_congr (viewItems_put_running hq ht hq' rfl rfl) rfl]
      simp [BoundedQueue.seq, htimed]
  | @spurious t a w k ht =>
      exact refines_stay hq h rfl (by rw [put_frame_self, ht]; rfl)
        (object_congr (viewItems_put hq (by rw [ht]; rfl)) rfl)
  | @expire t a w k ht hat =>
      exact refines_stay hq h rfl (by rw [put_frame_self, ht]; rfl)
        (object_congr (viewItems_put hq (by rw [ht]; rfl)) rfl)
  | @relock t rc w k status ht hm =>
      refine refines_stay hq h rfl (by rw [take_frame_self, ht]; rfl) (object_congr ?_ rfl)
      rw [viewItems_of_running hq' (take_frame_self ..), viewItems_of_free hm]
      rfl
  | @copy t op pc x xs ht hop hx =>
      -- the item is handed over: from here on it is not seen any more
      refine refines_effect hq h rfl (by rw [ht]; rfl) (by rw [put_frame_self]; rfl) ?_
      have hready := object_ready hq ht rfl op
      rw [ha t _ ht] at hready
      have hitems : q.viewItems = q.items := viewItems_of_running hq ht
      have hitems' : (q.put t (.running (.client ⟨op, .pop⟩))).viewItems = q.items.tail :=
        viewItems_of_running hq' (put_frame_self ..)
      simp only [BoundedQueue.seq, hready, if_true, hop]
      rw [object, object, hitems, hitems']
      rfl
  | @copyThrow t op pc ht hop =>
      refine refines_effect hq h rfl (by rw [ht]; rfl) (by rw [put_frame_self]; rfl) ?_
      have hready := object_ready hq ht rfl op
      rw [ha t _ ht] at hready
      rw [object_congr (viewItems_put_running hq ht hq' rfl rfl) rfl]
      simp [BoundedQueue.seq, hready]
  | @pop t op x xs ht hx =>
      refine refines_stay hq h rfl (by rw [put_frame_self, ht]; rfl) (object_congr ?_ rfl)
      rw [viewItems_of_running hq' (put_frame_self ..), viewItems_of_running hq ht, hx]
      rfl
  | @push t op pc x ht hop =>
      refine refines_effect hq h rfl (by rw [ht]; rfl) (by rw [put_frame_self]; rfl) ?_
      have hready := object_ready hq ht rfl op
      rw [ha t _ ht] at hready
      have hitems : q.viewItems = q.items := viewItems_of_running hq ht
      have hitems' : ((q.setItems (q.items ++ [x])).put t
          (.running (.client ⟨op, .notify⟩))).viewItems = q.items ++ [x] :=
        viewItems_of_running hq' (put_frame_self ..)
      simp only [BoundedQueue.seq, hready, if_true, hop]
      rw [object, object, hitems, hitems']
      rfl
  | @pushThrow t op pc x ht hop =>
      refine refines_effect hq h rfl (by rw [ht]; rfl) (by rw [put_frame_self]; rfl) ?_
      have hready := object_ready hq ht rfl op
      rw [ha t _ ht] at hready
      rw [object_congr (viewItems_put_running hq ht hq' rfl rfl) rfl]
      simp [BoundedQueue.seq, hready]
  | @notifyOne t op W ht hW hne =>
      refine refines_stay hq h rfl (by rw [put_frame_self, ht]; rfl) (object_congr ?_ rfl)
      rw [viewItems_of_running hq' (put_frame_self ..), viewItems_of_running hq ht]
      rfl
  | @notifyAll t op pc W ht =>
      refine refines_stay hq h rfl (by rw [put_frame_self, ht]; rfl) (object_congr ?_ rfl)
      rw [viewItems_of_running hq' (put_frame_self ..), viewItems_of_running hq ht]
      rfl
  | @leave t op o ht =>
      refine refines_ret hq h rfl (by rw [ht]; rfl) (by rw [release_frame_self]; rfl)
        (object_congr ?_ rfl)
      rw [viewItems_of_free (q := q.release t _) rfl, viewItems_of_running hq ht]
      rfl
  | @unwind t ex k ht =>
      refine refines_ret hq h rfl (by rw [ht]; rfl) (by rw [release_frame_self]; rfl)
        (object_congr ?_ rfl)
      rw [viewItems_of_free (q := q.release t _) rfl, viewItems_of_running hq ht]
      rfl
  | setMaxSize => rfl
  | tick => rfl

/-! ## What is seen -/

/-- A step in which no operation begins, ends or takes effect. -/
theorem shows_stay {q q' : SyncQueue Tid T} {e : Event Tid T} {t : Tid} (h : step q e = some q')
    (he : e.thread = some t) (hst : status (q'.frame t) = status (q.frame t)) :
    trace (Atomic.step BoundedQueue.seq) (Atomic.shows BoundedQueue.deliver) q.view (q.lower e)
      = [] := by
  rw [lower_of_thread h he, hst, Atomic.moves_self]
  rfl

theorem shows_effect {q q' : SyncQueue Tid T} {e : Event Tid T} {t : Tid} (h : step q e = some q')
    (he : e.thread = some t) {op : Op T} {o : Outcome}
    (hst : status (q.frame t) = .pending (.op op)) (hst' : status (q'.frame t) = .done (.op op) o) :
    trace (Atomic.step BoundedQueue.seq) (Atomic.shows BoundedQueue.deliver) q.view (q.lower e)
      = (q.object.deliver (.op op) o).map fun x => (some t, .delivered x) := by
  rw [lower_of_thread h he, hst, hst']
  exact Atomic.shows_effect hst

/-- The threads see the same of a step as of the atomic object. -/
theorem step_shows {q q' : SyncQueue Tid T} {e : Event Tid T} (hq : q.Ok)
    (h : step q e = some q') : q.shows e
      = trace (Atomic.step BoundedQueue.seq) (Atomic.shows BoundedQueue.deliver) q.view
          (q.lower e) := by
  cases step_trans hq h with
  | @call t op ht =>
      rw [lower_of_thread h rfl, put_frame_self, ht]
      exact (Atomic.shows_call _ t _).symm
  | lock ht => exact (shows_stay h rfl (by rw [take_frame_self, ht]; rfl)).symm
  | start ht => exact (shows_stay h rfl (by rw [put_frame_self, ht]; rfl)).symm
  | arm ht => exact (shows_stay h rfl (by rw [setTimeout_frame, put_frame_self, ht]; rfl)).symm
  | armFail ht => exact (shows_effect h rfl (by rw [ht]; rfl) (by rw [put_frame_self]; rfl)).symm
  | testTrue ht => exact (shows_stay h rfl (by rw [put_frame_self, ht]; rfl)).symm
  | testBlock ht => exact (shows_stay h rfl (by rw [put_frame_self, ht]; rfl)).symm
  | testFalse ht =>
      exact (shows_effect h rfl (by rw [ht]; rfl) (by rw [put_frame_self]; rfl)).symm
  | block ht => exact (shows_stay h rfl (by rw [release_frame_self, ht]; rfl)).symm
  | refuse ht => exact (shows_effect h rfl (by rw [ht]; rfl) (by rw [put_frame_self]; rfl)).symm
  | spurious ht => exact (shows_stay h rfl (by rw [put_frame_self, ht]; rfl)).symm
  | expire ht => exact (shows_stay h rfl (by rw [put_frame_self, ht]; rfl)).symm
  | relock ht => exact (shows_stay h rfl (by rw [take_frame_self, ht]; rfl)).symm
  | @copy t op pc x xs ht hop hx =>
      rw [shows_effect h rfl (by rw [ht]; rfl) (by rw [put_frame_self]; rfl)]
      have hitems : q.viewItems = q.items := viewItems_of_running hq ht
      simp only [BoundedQueue.deliver, hop, object, hitems]
      rfl
  | copyThrow ht => exact (shows_effect h rfl (by rw [ht]; rfl) (by rw [put_frame_self]; rfl)).symm
  | pop ht => exact (shows_stay h rfl (by rw [put_frame_self, ht]; rfl)).symm
  | @push t op pc x ht hop =>
      rw [shows_effect h rfl (by rw [ht]; rfl) (by rw [put_frame_self]; rfl)]
      simp only [BoundedQueue.deliver, hop]
      rfl
  | pushThrow ht => exact (shows_effect h rfl (by rw [ht]; rfl) (by rw [put_frame_self]; rfl)).symm
  | notifyOne ht => exact (shows_stay h rfl (by rw [put_frame_self, ht]; rfl)).symm
  | notifyAll ht => exact (shows_stay h rfl (by rw [put_frame_self, ht]; rfl)).symm
  | @leave t op o ht =>
      rw [lower_of_thread h rfl, release_frame_self, ht, shows, ht]
      exact (Atomic.shows_ret _ t _ o).symm
  | @unwind t ex k ht =>
      rw [lower_of_thread h rfl, release_frame_self, ht, shows, ht]
      exact (Atomic.shows_ret _ t _ (Outcome.failed ex)).symm
  | setMaxSize => rfl
  | tick => rfl

/-! ## Runs -/

/-- What holds in every state of a run that meets the condition. -/
structure Refines (q : SyncQueue Tid T) : Prop where
  ranked : q.Ranked
  admits : q.Admits

theorem step_refinesOk {q q' : SyncQueue Tid T} {e : Event Tid T} (hq : q.Refines)
    (hsize : SizeOk q e) (h : step q e = some q') : q'.Refines :=
  ⟨step_ranked hq.ranked h, step_admits hq.ranked.ok hsize hq.admits h⟩

/-- **`sync_queue` is an atomic bounded queue.** In every run in which `set_max_size` does not come
between the test of a `put` and its `push_back`, the threads see the calls, the values and the ends
of a run of the atomic bounded queue; between a call and its end there is one effect of its thread,
that of the operation called with the outcome that it ends with; and the effects, one after the
other, are a run of the sequential queue. -/
theorem refines_atomic {m : BitVec 32} {now : Timeval} {timeout : QueueCv → Timespec}
    {es : List (Event Tid T)} {q : SyncQueue Tid T}
    (hsize : Along step SizeOk (construct m now timeout) es)
    (h : run step (construct m now timeout) es = some q) :
    ∃ hs : List (Atomic.Event Tid (QueueOp T) Outcome),
      run (Atomic.step BoundedQueue.seq) (construct m now timeout).view hs = some q.view ∧
      trace step shows (construct m now timeout) es
        = trace (Atomic.step BoundedQueue.seq) (Atomic.shows BoundedQueue.deliver)
            (construct m now timeout).view hs ∧
      (∀ before during after t op o,
        hs = before ++ (.call t op :: during ++ [.ret t o]) ++ after →
        (∀ o', .ret t o' ∉ during) →
        ∃ s, run (Atomic.step BoundedQueue.seq) (construct m now timeout).view before = some s ∧
          Atomic.own t (trace (Atomic.step BoundedQueue.seq) Atomic.effects s
            (.call t op :: during)) = [(op, o)]) ∧
      run (Atomic.apply BoundedQueue.seq) ⟨[], (m.signExtend 64).toNat⟩
        (trace (Atomic.step BoundedQueue.seq) Atomic.effects (construct m now timeout).view hs)
        = some q.object := by
  have hinit : (construct m now timeout : SyncQueue Tid T).Refines :=
    ⟨ranked_construct m now timeout, fun t k ht => by cases ht⟩
  have hrun : run (Atomic.step BoundedQueue.seq) (construct m now timeout).view
      (trace step lower (construct m now timeout) es) = some q.view :=
    run_simulation_along (fun _ _ _ hi hc hs => step_refinesOk hi hc hs)
      (fun _ _ _ hi _ hs => step_refines hi.ranked.ok hi.ranked.status hi.admits hs) hinit hsize h
  refine ⟨_, hrun, ?_, fun before during after t op o hsplit hret => ?_, Atomic.run_effects hrun⟩
  · exact trace_simulation_along (fun _ _ _ hi hc hs => step_refinesOk hi hc hs)
      (fun _ _ _ hi _ hs => step_refines hi.ranked.ok hi.ranked.status hi.admits hs)
      (fun _ _ _ hi _ hs => step_shows hi.ranked.ok hs) hinit hsize h
  · rw [hsplit] at hrun
    obtain ⟨s', hbegin, -⟩ := run_append.mp hrun
    obtain ⟨s, hbefore, hcall⟩ := run_append.mp hbegin
    exact ⟨s, hbefore, Atomic.call_effect hret hcall⟩

end Refinement

/-- Worker b fills a queue for one and, after the capacity has been raised, stores another item.
Worker a takes the first. -/
def resized : List (Event Worker Nat) :=
  [.call .b (.put 7), .lock .b, .start .b, .test .b, .push .b true, .setMaxSize 2, .notify .b ∅,
   .leave .b, .call .a .get, .call .b (.put 8), .lock .b, .start .b, .test .b, .push .b true,
   .notify .b ∅, .leave .b, .lock .a, .start .a, .test .a, .copy .a true, .pop .a]

theorem resized_runs :
    (run step (construct 1 Timeval.zero fun _ => ⟨0, 0⟩) resized).isSome = true := by decide

theorem refines_atomic_resized :
    ∃ q, run step (construct 1 Timeval.zero fun _ => ⟨0, 0⟩) resized = some q ∧
      ∃ hs : List (Atomic.Event Worker (QueueOp Nat) Outcome),
        run (Atomic.step BoundedQueue.seq)
          (construct 1 Timeval.zero fun _ => ⟨0, 0⟩ : SyncQueue Worker Nat).view hs = some q.view ∧
        trace step shows (construct 1 Timeval.zero fun _ => ⟨0, 0⟩) resized
          = trace (Atomic.step BoundedQueue.seq) (Atomic.shows BoundedQueue.deliver)
              (construct 1 Timeval.zero fun _ => ⟨0, 0⟩ : SyncQueue Worker Nat).view hs ∧
        run (Atomic.apply BoundedQueue.seq) ⟨[], 1⟩
          (trace (Atomic.step BoundedQueue.seq) Atomic.effects
            (construct 1 Timeval.zero fun _ => ⟨0, 0⟩ : SyncQueue Worker Nat).view hs)
          = some q.object := by
  have hrun := (Option.some_get resized_runs).symm
  obtain ⟨hs, hview, hshown, -, heffects⟩ := refines_atomic (by decide) hrun
  exact ⟨_, hrun, hs, hview, hshown, heffects⟩

end SyncQueue

end CppPthread
