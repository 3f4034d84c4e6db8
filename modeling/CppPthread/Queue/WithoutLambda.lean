import CppPthread.ConditionVariable.Loops
import CppPthread.Queue.SyncQueue

set_option autoImplicit false

/-! # The timed operations with and without a lambda

Before C++11 the bodies of `get(T &, int)` and `put(const T &, int)` contain the loop around
`wait_for(mutex &, int)`, since C++11 they hand a lambda to `wait_for`. After the wait the two
builds are the same (`Op.finish`). A thread sees the queue each time it holds the mutex again
(`Seen`), and the two builds end in the same way on the same observations and return codes, with
one exception (`Overtaken`).
-/

namespace CppPthread

open Posix

/-- What a thread that holds the mutex sees of the queue. -/
structure Seen (T : Type) where
  items : List T
  capacity : Nat
  deriving DecidableEq

/-- How a timed operation ends. -/
inductive Ended (T : Type) where
  /-- `get` returns with the item, and these items are left. -/
  | received (item : T) (items : List T)
  /-- `put` returns, and these are the items. -/
  | stored (items : List T)
  | threw (e : QueueException)
  /-- An exception that comes out of the wait. -/
  | failed (e : PthreadException)
  /-- `front()` of an empty list. -/
  | undefined
  deriving DecidableEq

section Bodies

variable {T : Type}

/-- The predicate of the wait. -/
def Op.predicate (op : Op T) (s : Seen T) : Bool :=
  match op with
  | .get | .getFor _ => !s.items.isEmpty
  | .put _ | .putFor _ _ => decide (s.items.length < s.capacity)

/-- It is the one of the queue's model. -/
theorem ready_eq_predicate {Tid : Type} (q : SyncQueue Tid T) (op : Op T) :
    q.ready op = op.predicate ⟨q.items, q.capacity⟩ := by
  cases op <;> rfl

/-- The rest of the body, after the wait. -/
def Op.finish (op : Op T) (w : Except PthreadException Bool × Seen T) : Ended T :=
  match w.1 with
  | .error e => .failed e
  | .ok false => .threw op.timedOut
  | .ok true =>
      match op.item?, w.2.items with
      | some item, items => .stored (items ++ [item])
      | none, item :: items => .received item items
      | none, [] => .undefined

/-- The body with a lambda. -/
def Op.body (op : Op T) (waitTime : Int) (now : Timeval) (seen : Seen T)
    (turns : List (Turn (Seen T))) : Option (Ended T) :=
  ((waitFor op.predicate waitTime now seen turns).map Waited.outcome).map op.finish

/-- The body without a lambda. -/
def Op.bodyWithoutLambda (op : Op T) (timeout : Timespec) (waitTime : Int) (seen : Seen T)
    (turns : List (Turn (Seen T))) : Option (Ended T) :=
  ((retryLoop op.predicate (fun _ => -1) timeout waitTime seen turns).map Waited.outcome).map
    op.finish

/-- `get(T &, int)` -/
def getFor (waitTime : Int) : Timeval → Seen T → List (Turn (Seen T)) → Option (Ended T) :=
  (Op.getFor waitTime).body waitTime

def getForWithoutLambda (timeout : Timespec) (waitTime : Int) :
    Seen T → List (Turn (Seen T)) → Option (Ended T) :=
  (Op.getFor waitTime).bodyWithoutLambda timeout waitTime

/-- `put(const T &, int)` -/
def putFor (item : T) (waitTime : Int) :
    Timeval → Seen T → List (Turn (Seen T)) → Option (Ended T) :=
  (Op.putFor item waitTime).body waitTime

def putForWithoutLambda (timeout : Timespec) (item : T) (waitTime : Int) :
    Seen T → List (Turn (Seen T)) → Option (Ended T) :=
  (Op.putFor item waitTime).bodyWithoutLambda timeout waitTime

/-- An operation that gives up does not end like one that succeeds. -/
theorem Op.finish_ne (op : Op T) (last : Seen T) :
    op.finish (.ok true, last) ≠ op.finish (.ok false, last) := by
  simp only [finish]
  split <;> simp

theorem Op.body_eq_iff (op : Op T) (waitTime : Int) (now : Timeval) (timeout : Timespec)
    (seen : Seen T) (turns : List (Turn (Seen T))) :
    op.body waitTime now seen turns = op.bodyWithoutLambda timeout waitTime seen turns ↔
      ¬ Overtaken op.predicate seen turns := by
  obtain ⟨hagree, hpart⟩ := loop_outcomes op.predicate (fun _ => -1) turns seen
    (deadline now waitTime) timeout waitTime
  constructor
  · intro heq hover
    obtain ⟨last, hwith, hwithout⟩ := hpart hover
    rw [body, bodyWithoutLambda, hwithout,
      show waitFor op.predicate waitTime now seen turns = waitForLoop op.predicate
        (deadline now waitTime) (op.predicate seen) .noTimeout seen turns from rfl, hwith] at heq
    exact op.finish_ne last (Option.some.inj heq)
  · intro hover
    exact congrArg (Option.map op.finish) (hagree hover)

/-- **The loops without a lambda** end like the ones with a lambda exactly when no wait that
times out finds the predicate true. -/
theorem without_lambda_agrees_iff {α : Type} :
    (∀ (waitTime : Int) (now : Timeval) (timeout : Timespec) (seen : Seen T)
      (turns : List (Turn (Seen T))),
      getFor waitTime now seen turns = getForWithoutLambda timeout waitTime seen turns ↔
        ¬ Overtaken (fun s => !s.items.isEmpty) seen turns) ∧
    (∀ (item : T) (waitTime : Int) (now : Timeval) (timeout : Timespec) (seen : Seen T)
      (turns : List (Turn (Seen T))),
      putFor item waitTime now seen turns = putForWithoutLambda timeout item waitTime seen turns ↔
        ¬ Overtaken (fun s => decide (s.items.length < s.capacity)) seen turns) ∧
    (∀ (lambda : α → Bool) (millis : Int) (now : Timeval) (timeout : Timespec) (seen : α)
      (turns : List (Turn α)),
      (waitFor lambda millis now seen turns).map Waited.outcome
        = (documentedLoop lambda timeout millis seen turns).map Waited.outcome ↔
        ¬ Overtaken lambda seen turns) :=
  ⟨fun waitTime => (Op.getFor waitTime).body_eq_iff waitTime,
    fun item waitTime => (Op.putFor item waitTime).body_eq_iff waitTime,
    fun lambda millis => outcome_eq_iff lambda id millis⟩

/-- The item comes while the deadline passes. -/
theorem getFor_overtaken :
    getFor 100 Timeval.zero (⟨[], 4⟩ : Seen Nat) [⟨Timeval.zero, ETIMEDOUT, ⟨[7], 4⟩⟩]
      = some (.received 7 []) ∧
    getForWithoutLambda ⟨0, 0⟩ 100 (⟨[], 4⟩ : Seen Nat) [⟨Timeval.zero, ETIMEDOUT, ⟨[7], 4⟩⟩]
      = some (.threw (.queueTimeout "synchronized_queue::get() timed out.")) ∧
    putFor 8 100 Timeval.zero (⟨[7], 1⟩ : Seen Nat) [⟨Timeval.zero, ETIMEDOUT, ⟨[], 1⟩⟩]
      = some (.stored [8]) ∧
    putForWithoutLambda ⟨0, 0⟩ 8 100 (⟨[7], 1⟩ : Seen Nat) [⟨Timeval.zero, ETIMEDOUT, ⟨[], 1⟩⟩]
      = some (.threw (.queueFull "synchronized_queue::put() timeout, queue is full.")) ∧
    ((waitFor id 200 Timeval.zero false [⟨Timeval.zero, ETIMEDOUT, true⟩]).map Waited.outcome,
      (documentedLoop id ⟨0, 0⟩ 200 false [⟨Timeval.zero, ETIMEDOUT, true⟩]).map Waited.outcome)
      = (some (.ok true, true), some (.ok false, true)) := by
  decide

end Bodies

end CppPthread
