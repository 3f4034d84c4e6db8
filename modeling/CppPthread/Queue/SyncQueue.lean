import CppPthread.ConditionVariable.Machine
import Mathlib.Data.BitVec

set_option autoImplicit false

/-! # `sync_queue`

The queue is a list of items, a capacity and two condition variables under one mutex. The four
operations `get` and `put`, each with and without a waiting time, are run by any number of
threads. Every statement of an operation that touches shared data is one step, so that
anything can come between two of them that the mutex does not exclude; `set_max_size` takes no
mutex and may come anywhere.

The queue does not move its threads itself. At each event its code (`SyncQueue.code`) makes
calls to the machine of `ConditionVariable/Machine.lean`, which decides whether they are
possible, and changes the list. This is the C++11 build of the class, the one in which the
waits are given their predicates as lambdas; `_max_size` is an `atomic<int>` of 32 bits.
-/

namespace CppPthread

open Posix Run

/-- The condition variables of a queue, `_not_empty_cv` and `_not_full_cv`. -/
inductive QueueCv where
  | notEmpty
  | notFull
  deriving DecidableEq

/-- A call of one of the four operations with its arguments. -/
inductive Op (T : Type) where
  /-- `get(T &)` -/
  | get
  /-- `get(T &, int)` -/
  | getFor (waitTime : Int)
  /-- `put(const T &)` -/
  | put (item : T)
  /-- `put(const T &, int)` -/
  | putFor (item : T) (waitTime : Int)
  deriving DecidableEq

/-- How an operation leaves its body. -/
inductive Outcome where
  | returned
  | threw (e : QueueException)
  /-- An exception that comes out of a wait. -/
  | failed (e : PthreadException)
  /-- A copy of `T` has thrown. -/
  | copyThrew
  deriving DecidableEq

/-- The statement an operation executes next, outside its wait. -/
inductive Pc where
  /-- The wait. -/
  | enter
  /-- `_items.pop_front()`. -/
  | pop
  /-- `notify_one()`. -/
  | notify
  /-- `~lock_guard`. -/
  | leave (o : Outcome)
  deriving DecidableEq

/-- The local state of a thread inside an operation. -/
structure Local (T : Type) where
  op : Op T
  pc : Pc
  deriving DecidableEq

namespace Op

variable {T : Type}

/-- The condition variable whose predicate the operation waits for. -/
def waitsOn : Op T → QueueCv
  | get | getFor _ => .notEmpty
  | put _ | putFor _ _ => .notFull

/-- The condition variable that the operation notifies. -/
def signals : Op T → QueueCv
  | get | getFor _ => .notFull
  | put _ | putFor _ _ => .notEmpty

/-- The wait at the beginning of the operation. -/
def call : Op T → Call QueueCv
  | get => .wait .notEmpty
  | getFor waitTime => .waitFor .notEmpty waitTime
  | put _ => .wait .notFull
  | putFor _ waitTime => .waitFor .notFull waitTime

/-- The item that the operation stores. -/
def item? : Op T → Option T
  | get | getFor _ => none
  | put item | putFor item _ => some item

/-- The exception thrown when the wait gives up. -/
def timedOut : Op T → QueueException
  | get | getFor _ => .queueTimeout "synchronized_queue::get() timed out."
  | put _ | putFor _ _ => .queueFull "synchronized_queue::put() timeout, queue is full."

@[simp] theorem call_cv (op : Op T) : op.call.cv = op.waitsOn := by cases op <;> rfl

theorem waitsOn_eq_notEmpty {op : Op T} : op.waitsOn = .notEmpty ↔ op.item? = none := by
  cases op <;> simp [waitsOn, item?]

theorem waitsOn_eq_notFull {op : Op T} : op.waitsOn = .notFull ↔ ∃ x, op.item? = some x := by
  cases op <;> simp [waitsOn, item?]

theorem signals_eq_notFull {op : Op T} : op.signals = .notFull ↔ op.waitsOn = .notEmpty := by
  cases op <;> simp [signals, waitsOn]

theorem signals_eq_notEmpty {op : Op T} : op.signals = .notEmpty ↔ op.waitsOn = .notFull := by
  cases op <;> simp [signals, waitsOn]

end Op

/-- A queue, with the threads that use it. -/
structure SyncQueue (Tid T : Type) where
  cvs : CondVars Tid QueueCv (Local T)
  items : List T
  /-- The member `_max_size`. -/
  maxSizeInt : BitVec 32

namespace SyncQueue

variable {Tid T : Type}

/-- `sync_queue(int max_size)`. The `timeout` members are not initialised. -/
def construct (maxSizeInt : BitVec 32) (now : Timeval) (timeout : QueueCv → Timespec) :
    SyncQueue Tid T :=
  ⟨CondVars.free now timeout, [], maxSizeInt⟩

/-- `size_t max_size() const`: the `int` is converted to `size_t`. -/
def maxSize (q : SyncQueue Tid T) : BitVec 64 := q.maxSizeInt.signExtend 64

/-- The capacity that `put` compares with. -/
def capacity (q : SyncQueue Tid T) : Nat := q.maxSize.toNat

/-- `set_max_size(size_t)`. The argument is unsigned, so the test never fails. -/
def setMaxSize (q : SyncQueue Tid T) (n : BitVec 64) : Except QueueException (SyncQueue Tid T) :=
  if n ≥ 0 then .ok { q with maxSizeInt := n.truncate 32 }
  else .error (.queueException
    ("synchronized_queue's max size must be greater then 0, max_size " ++ toString n.toNat ++
      " is not."))

theorem capacity_congr {q q' : SyncQueue Tid T} (h : q'.maxSizeInt = q.maxSizeInt) :
    q'.capacity = q.capacity := by
  rw [capacity, maxSize, h, capacity, maxSize]

/-- The conversion to `size_t` keeps a capacity that is not negative. -/
theorem capacity_of_nonneg {q : SyncQueue Tid T} (h : 0 ≤ q.maxSizeInt.toInt) :
    (q.capacity : Int) = q.maxSizeInt.toInt := by
  have hmsb : q.maxSizeInt.msb = false := by
    rw [BitVec.msb_eq_toInt, decide_eq_false_iff_not]
    omega
  rw [capacity, maxSize, BitVec.toNat_signExtend, hmsb, BitVec.toInt_eq_msb_cond, hmsb]
  simp
  omega

theorem toInt_truncate {n : BitVec 64} (h : n.toNat < 2 ^ 31) :
    (n.truncate 32).toInt = n.toNat := by
  rw [BitVec.toInt_eq_toNat_of_lt]
  · simp
    omega
  · simp
    omega

/-- The capacity after `set_max_size`, for arguments that an `int` can hold. -/
theorem capacity_of_truncate {q : SyncQueue Tid T} {n : BitVec 64} (hn : n.toNat < 2 ^ 31)
    (h : q.maxSizeInt = n.truncate 32) : q.capacity = n.toNat := by
  have hint : q.maxSizeInt.toInt = n.toNat := by rw [h, toInt_truncate hn]
  have hcap := capacity_of_nonneg (q := q) (by rw [hint]; exact Int.natCast_nonneg _)
  omega

/-- The lambda that an operation hands to its wait. -/
def ready (q : SyncQueue Tid T) : Op T → Bool
  | .get | .getFor _ => !q.items.isEmpty
  | .put _ | .putFor _ _ => decide (q.items.length < q.capacity)

def frame (q : SyncQueue Tid T) (t : Tid) : Frame QueueCv (Code QueueCv (Local T)) :=
  q.cvs.mon.frame t

/-! ## The steps -/

/-- One step of a thread, of its environment, or of a caller of `set_max_size`. -/
inductive Event (Tid T : Type) where
  | call (t : Tid) (op : Op T)
  | lock (t : Tid)
  | start (t : Tid)
  | arm (t : Tid) (clockOk : Bool)
  | test (t : Tid)
  | block (t : Tid)
  | spurious (t : Tid)
  | expire (t : Tid)
  | relock (t : Tid)
  /-- `item = _items.front()`; `ok`: the assignment does not throw. -/
  | copy (t : Tid) (ok : Bool)
  | pop (t : Tid)
  /-- `_items.push_back(item)`; `ok`: it does not throw. -/
  | push (t : Tid) (ok : Bool)
  /-- The notification; `W` are the threads that a `notify_one` unblocks. -/
  | notify (t : Tid) (W : Finset Tid)
  | leave (t : Tid)
  | setMaxSize (n : BitVec 64)
  | tick (now : Timeval)

/-- The thread that takes the step. -/
def Event.thread : Event Tid T → Option Tid
  | .call t _ | .lock t | .start t | .arm t _ | .test t | .block t | .spurious t | .expire t
  | .relock t | .copy t _ | .pop t | .push t _ | .notify t _ | .leave t => some t
  | .setMaxSize _ | .tick _ => none

/-- What the code of the queue does at an event: the calls it makes, and the items afterwards.
`front()` and `pop_front()` are undefined on an empty list, and so is the step. -/
def code (q : SyncQueue Tid T) :
    Event Tid T → Option (List (CondVars.Event Tid QueueCv (Local T)) × List T)
  | .call t op => some ([.call t ⟨op, .enter⟩], q.items)
  | .lock t => some ([.lock t], q.items)
  | .start t =>
      match q.frame t with
      | .running (.client ⟨op, .enter⟩) => some ([.start t op.call], q.items)
      | _ => none
  | .arm t clockOk => some ([.arm t clockOk], q.items)
  | .test t =>
      match q.frame t with
      | .running (.waiting _ k) => some ([.test t (q.ready k.op)], q.items)
      | _ => none
  | .block t => some ([.block t], q.items)
  | .spurious t => some ([.spurious t], q.items)
  | .expire t => some ([.expire t], q.items)
  | .relock t => some ([.relock t], q.items)
  | .copy t ok =>
      match q.frame t with
      | .running (.returned (.ok true) ⟨op, _⟩) =>
          match op.item?, q.items with
          | none, _ :: _ =>
              some ([.work t ⟨op, if ok then .pop else .leave .copyThrew⟩], q.items)
          | _, _ => none
      | _ => none
  | .pop t =>
      match q.frame t, q.items with
      | .running (.client ⟨op, .pop⟩), _ :: items => some ([.work t ⟨op, .notify⟩], items)
      | _, _ => none
  | .push t ok =>
      match q.frame t with
      | .running (.returned (.ok true) ⟨op, _⟩) =>
          match op.item? with
          | some x =>
              if ok then some ([.work t ⟨op, .notify⟩], q.items ++ [x])
              else some ([.work t ⟨op, .leave .copyThrew⟩], q.items)
          | none => none
      | _ => none
  | .notify t W =>
      match q.frame t with
      | .running (.client ⟨op, .notify⟩) =>
          some ([.notifyOne op.signals W, .work t ⟨op, .leave .returned⟩], q.items)
      | .running (.returned (.ok false) ⟨op, _⟩) =>
          some ([.notifyAll op.signals, .work t ⟨op, .leave (.threw op.timedOut)⟩], q.items)
      | _ => none
  | .leave t =>
      match q.frame t with
      | .running (.client ⟨_, .leave _⟩) => some ([.leave t], q.items)
      -- an exception of the wait unwinds to the end of the operation
      | .running (.returned (.error _) _) => some ([.leave t], q.items)
      | _ => none
  | .setMaxSize _ => some ([], q.items)
  | .tick now => some ([.tick now], q.items)

variable [DecidableEq Tid] [Fintype Tid]

def step (q : SyncQueue Tid T) : Event Tid T → Option (SyncQueue Tid T)
  | .setMaxSize n => (q.setMaxSize n).toOption
  | e => do
      let (calls, items) ← q.code e
      let cvs ← run CondVars.step q.cvs calls
      return { q with cvs := cvs, items := items }

/-- The calls that an event makes to the machine of the condition variables. -/
def calls (q : SyncQueue Tid T) (e : Event Tid T) :
    List (CondVars.Event Tid QueueCv (Local T)) :=
  (q.code e).elim [] Prod.fst

omit [DecidableEq Tid] [Fintype Tid] in
theorem setMaxSize_eq (q : SyncQueue Tid T) (n : BitVec 64) :
    q.setMaxSize n = .ok { q with maxSizeInt := n.truncate 32 } := by
  simp [setMaxSize]

/-- **The queue drives its condition variables only through their own steps.** -/
theorem step_simulates {q q' : SyncQueue Tid T} {e : Event Tid T} (h : step q e = some q') :
    run CondVars.step q.cvs (q.calls e) = some q'.cvs := by
  cases e with
  | setMaxSize n =>
      simp only [step, setMaxSize_eq, Except.toOption, Option.some.injEq] at h
      subst h
      rfl
  | _ =>
      simp only [step, Option.bind_eq_bind, Option.bind_eq_some_iff] at h
      obtain ⟨⟨calls, items⟩, hcode, cvs, hrun, hq⟩ := h
      obtain rfl := Option.some.inj hq
      simpa [SyncQueue.calls, hcode] using hrun

/-! ## A handover between two threads -/

/-- The threads of the runs that are written out. -/
inductive Worker where
  | a
  | b
  | c
  deriving DecidableEq

instance : Fintype Worker := ⟨{.a, .b, .c}, fun t => by cases t <;> decide⟩

/-- Worker a waits for an item, worker b stores one and wakes worker a up, and then worker a
comes back and waits again. -/
def handover : List (Event Worker Nat) :=
  [.call .a .get, .lock .a, .start .a, .test .a, .block .a,
   .call .b (.put 7), .lock .b, .start .b, .test .b, .push .b true, .notify .b {.a}, .leave .b,
   .relock .a, .test .a, .copy .a true, .pop .a, .notify .a ∅, .leave .a,
   .call .a .get, .lock .a, .start .a, .test .a, .block .a]

theorem handover_runs :
    (run step (construct 1 Timeval.zero fun _ => ⟨0, 0⟩) handover).isSome = true := by decide

end SyncQueue

end CppPthread
