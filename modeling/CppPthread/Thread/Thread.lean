import CppPthread.Exceptions
import Mathlib.Logic.Function.Basic

set_option autoImplicit false

/-! # `thread`

A `thread` object is its four members: the id (`0` for none), the attribute block, the pointer to
the block and the status. Objects live at the addresses `Obj`; the attribute block of an object
has the object's address, so `attrPtr = some a` says that the pointer is the `&_attr` of the
object at `a`.

What the functions do outside the object goes to the record `Os`: the attributes initialised and
destroyed, the threads created and joined. The return codes of the pthread calls are given from
outside (`Answers`), and so is the id of a new thread. The member functions return the object
afterwards together with the exception they end with, if they throw.
-/

namespace CppPthread

open Posix

/-- `thread_status`. -/
inductive ThreadStatus where
  | notAThread
  | aThread
  deriving DecidableEq

/-- A `pthread_attr_t` that has been initialised. `serial` tells apart what different calls of
`pthread_attr_init` have initialised; the stack size `0` is the default of the system. -/
structure Attr where
  serial : Nat
  stackSize : Nat
  deriving DecidableEq

structure Thread (Obj : Type) where
  thread : Nat
  attr : Option Attr
  attrPtr : Option Obj
  status : ThreadStatus
  deriving DecidableEq

/-- What has happened outside the objects. -/
structure Os where
  /-- How many attributes have been initialised. Their serial numbers are those below. -/
  attrs : Nat
  /-- The attributes passed to `pthread_attr_destroy`. -/
  destroyed : List Nat
  /-- The ids of the threads created. -/
  created : List Nat
  /-- The ids of the threads whose `pthread_join` returned `0`. -/
  joined : List Nat
  deriving DecidableEq

/-- The return codes of the calls that start a thread, and the id that `pthread_create` stores. -/
structure Answers where
  attrInit : Int
  setDetachState : Int
  setStackSize : Int
  create : Int
  id : Nat
  deriving DecidableEq

/-- With these answers the constructor that starts a thread returns. -/
def Answers.succeed (ans : Answers) (stackMin stackSize : Nat) : Bool :=
  decide (ans.attrInit = 0) && decide (ans.setDetachState = 0) &&
    (decide (stackSize = 0) || decide (stackMin < stackSize) && decide (ans.setStackSize = 0)) &&
    decide (ans.create = 0)

def Os.empty : Os := ⟨0, [], [], []⟩

namespace Thread

variable {Obj : Type}

/-- `joinable()` -/
def joinable (t : Thread Obj) : Bool := decide (t.thread ≠ 0)

/-- `thread()`, for an object at `self`. -/
def construct (self : Obj) (attrInit : Int) (os : Os) :
    Os × Except PthreadException (Thread Obj) :=
  if attrInit ≠ 0 then
    (os, .error (threadException "pthread_attr_init call in pthread::pthread() failed." attrInit))
  else
    ({ os with attrs := os.attrs + 1 }, .ok ⟨0, some ⟨os.attrs, 0⟩, some self, .notAThread⟩)

/-- The first part of `init`, which sets the attributes. `stackMin` is `PTHREAD_STACK_MIN`. -/
def prepare (stackMin stackSize : Nat) (ans : Answers) (t : Thread Obj) :
    Thread Obj × Option PthreadException :=
  if ans.setDetachState ≠ 0 then
    (t, some (threadException "pthread_attr_setdetachstate failed." ans.setDetachState))
  else if 0 < stackSize then
    if stackMin < stackSize then
      if 0 < stackSize ∧ ans.setStackSize ≠ 0 then
        (t, some (threadException
          "bad stacksize, check size passed to thread::thread, thread not started."
          ans.setStackSize))
      else ({ t with attr := t.attr.map fun a => { a with stackSize := stackSize } }, none)
    else
      (t, some (threadException ("minimum stack size is " ++ toString stackMin ++
        " bytes, you passed a size of " ++ toString stackSize) (-1)))
  else (t, none)

/-- `init`. A `pthread_create` that fails leaves the id alone here; POSIX leaves it open, and
nothing reads it afterwards. -/
def init (stackMin stackSize : Nat) (ans : Answers) (t : Thread Obj) (os : Os) :
    Os × Thread Obj × Option PthreadException :=
  match prepare stackMin stackSize ans t with
  | (t, some e) => (os, t, some e)
  | (t, none) =>
      if ans.create ≠ 0 then (os, t, some (threadException "pthread_create failed." ans.create))
      else
        ({ os with created := os.created ++ [ans.id] },
          { t with thread := ans.id, status := .aThread }, none)

/-- `~thread`. A code of `pthread_attr_destroy` other than `0` is only printed. -/
def destroy (t : Thread Obj) (os : Os) : Os :=
  match t.attrPtr with
  | some _ => { os with destroyed := os.destroyed ++ (t.attr.map Attr.serial).toList }
  | none => os

/-- `thread(const runnable *, std::size_t)`. When `init` throws, the object is complete already,
as the constructor delegates to `thread()`, and so its destructor runs. -/
def constructStarted (self : Obj) (stackMin stackSize : Nat) (ans : Answers) (os : Os) :
    Os × Except PthreadException (Thread Obj) :=
  match construct self ans.attrInit os with
  | (os, .error e) => (os, .error e)
  | (os, .ok t) =>
      match init stackMin stackSize ans t os with
      | (os, t, none) => (os, .ok t)
      | (os, t, some e) => (t.destroy os, .error e)

/-- What `join()` throws in the thread itself. -/
def joinYourself : PthreadException :=
  threadException "join failed, joining yourself would endup in deadlock." (-1)

/-- What `join()` throws when the status is `not_a_thread`. -/
def joinNotAThread : PthreadException :=
  threadException "join failed, this is not a thread." (-1)

/-- How `join()` ends when `pthread_join` returns `rc ≠ 0`: it ignores a thread that has ended
already. -/
def joinFailed (rc : Int) : Option PthreadException :=
  if rc = EDEADLK then
    some (threadException "pthread::thread::join failed because of deadlock conditions." rc)
  else if rc = EINVAL then
    some (threadException "pthread::thread::join failed not a joinable thread." rc)
  else if rc = ESRCH then none
  else some (threadException "pthread::thread::join detected an unexpected return code." rc)

/-- `join()`, called by the thread `caller`; `rc` is what `pthread_join` returns. -/
def join (caller : Nat) (rc : Int) (t : Thread Obj) (os : Os) :
    Os × Thread Obj × Option PthreadException :=
  if t.thread ≠ 0 then
    if t.thread = caller then (os, t, some joinYourself)
    else if t.status = .notAThread then (os, t, some joinNotAThread)
    else if rc = 0 then
      ({ os with joined := os.joined ++ [t.thread] },
        { t with status := .notAThread, thread := 0 }, none)
    else (os, t, joinFailed rc)
  else (os, t, none)

/-- The ids that `join()`, called by the thread `caller`, passes to `pthread_join`. -/
def joinCalls (caller : Nat) (t : Thread Obj) : List Nat :=
  if t.thread ≠ 0 then
    if t.thread = caller then []
    else if t.status = .notAThread then []
    else [t.thread]
  else []

/-! ## How the functions end -/

theorem construct_cases (self : Obj) (attrInit : Int) (os : Os) :
    (attrInit = 0 ∧ construct self attrInit os
      = ({ os with attrs := os.attrs + 1 }, .ok ⟨0, some ⟨os.attrs, 0⟩, some self, .notAThread⟩)) ∨
    (attrInit ≠ 0 ∧ ∃ e, construct self attrInit os = (os, .error e)) := by
  unfold construct
  split_ifs with h
  · exact .inr ⟨h, _, rfl⟩
  · exact .inl ⟨not_not.mp h, rfl⟩

/-- `prepare` only sets the stack size, and changes nothing when it throws. -/
theorem prepare_cases (stackMin stackSize : Nat) (ans : Answers) (t : Thread Obj) :
    (ans.succeed stackMin stackSize = false ∧ ∃ e, prepare stackMin stackSize ans t = (t, some e)) ∨
    (ans.succeed stackMin stackSize = (decide (ans.attrInit = 0) && decide (ans.create = 0)) ∧
      ∃ attr, attr.map Attr.serial = t.attr.map Attr.serial ∧
        prepare stackMin stackSize ans t = ({ t with attr := attr }, none)) := by
  unfold prepare
  split_ifs with hdetach hpos hmin hset
  · exact .inl ⟨by simp [Answers.succeed, hdetach], _, rfl⟩
  · exact .inl ⟨by simp [Answers.succeed, hset, Nat.ne_of_gt hpos], _, rfl⟩
  · have hzero : ans.setStackSize = 0 := not_not.mp fun h => hset ⟨hpos, h⟩
    refine .inr ⟨by simp [Answers.succeed, not_not.mp hdetach, hmin, hzero], _, ?_, rfl⟩
    cases t.attr <;> rfl
  · exact .inl ⟨by simp [Answers.succeed, hmin, Nat.ne_of_gt hpos], _, rfl⟩
  · have hzero : stackSize = 0 := Nat.eq_zero_of_not_pos hpos
    exact .inr ⟨by simp [Answers.succeed, not_not.mp hdetach, hzero], _, rfl, rfl⟩

/-- Starting a thread fails before the attribute is initialised, or after that, or creates a
thread. -/
theorem constructStarted_cases (self : Obj) (stackMin stackSize : Nat) (ans : Answers) (os : Os) :
    (ans.succeed stackMin stackSize = false ∧
      ∃ e, constructStarted self stackMin stackSize ans os = (os, .error e)) ∨
    (ans.succeed stackMin stackSize = false ∧ ∃ e, constructStarted self stackMin stackSize ans os
      = ({ os with attrs := os.attrs + 1, destroyed := os.destroyed ++ [os.attrs] }, .error e)) ∨
    (ans.succeed stackMin stackSize = true ∧ ans.create = 0 ∧
      ∃ size, constructStarted self stackMin stackSize ans os
      = ({ os with attrs := os.attrs + 1, created := os.created ++ [ans.id] },
        .ok ⟨ans.id, some ⟨os.attrs, size⟩, some self, .aThread⟩)) := by
  unfold constructStarted
  rcases construct_cases self ans.attrInit os with ⟨hinit, hc⟩ | ⟨hinit, e, hc⟩
  · simp only [hc, init]
    rcases prepare_cases stackMin stackSize ans
        (⟨0, some ⟨os.attrs, 0⟩, some self, .notAThread⟩ : Thread Obj) with
      ⟨hs, e, hp⟩ | ⟨hs, attr, hattr, hp⟩
    · exact .inr (.inl ⟨hs, e, by simp [hp, destroy]⟩)
    · cases attr with
      | none => simp at hattr
      | some attr =>
          have hserial : attr.serial = os.attrs := by simpa using hattr
          simp only [hp]
          split_ifs with hcreate
          · exact .inr (.inl ⟨by simp [hs, hcreate],
              threadException "pthread_create failed." ans.create, by simp [destroy, hserial]⟩)
          · refine .inr (.inr ⟨by simp [hs, hinit, not_not.mp hcreate], not_not.mp hcreate,
              attr.stackSize, ?_⟩)
            simp [← hserial]
  · exact .inl ⟨by simp [Answers.succeed, hinit], e, by simp only [hc]⟩

/-- A join changes nothing, or succeeds. -/
theorem join_cases (caller : Nat) (rc : Int) (t : Thread Obj) (os : Os) :
    (∃ e, t.join caller rc os = (os, t, e)) ∨
    (t.thread ≠ 0 ∧ rc = 0 ∧ t.join caller rc os
      = ({ os with joined := os.joined ++ [t.thread] },
        { t with status := .notAThread, thread := 0 }, none)) := by
  unfold join
  by_cases hid : t.thread ≠ 0
  · rw [if_pos hid]
    by_cases hself : t.thread = caller
    · exact .inl ⟨_, if_pos hself⟩
    · rw [if_neg hself]
      by_cases hstatus : t.status = .notAThread
      · exact .inl ⟨_, if_pos hstatus⟩
      · rw [if_neg hstatus]
        by_cases hrc : rc = 0
        · exact .inr ⟨hid, hrc, if_pos hrc⟩
        · exact .inl ⟨_, if_neg hrc⟩
  · exact .inl ⟨_, if_neg hid⟩

/-- A join that returns leaves no id, when the status is right and `pthread_join` returns `0`. -/
theorem join_returns {caller : Nat} {t : Thread Obj} {os : Os}
    (hstatus : t.status = .aThread ↔ t.thread ≠ 0) (h : (t.join caller 0 os).2.2 = none) :
    (t.join caller 0 os).2.1.thread = 0 := by
  unfold join at h ⊢
  by_cases hid : t.thread ≠ 0
  · rw [if_pos hid] at h ⊢
    by_cases hself : t.thread = caller
    · rw [if_pos hself] at h
      cases h
    · have hnot : t.status ≠ .notAThread := by rw [hstatus.mpr hid]; decide
      rw [if_neg hself, if_neg hnot, if_pos rfl]
  · rw [if_neg hid]
    exact not_not.mp hid

end Thread

/-! ## Memory -/

/-- The `thread` objects that exist, by address. -/
abbrev Memory (Obj : Type) := Obj → Option (Thread Obj)

namespace Memory

variable {Obj : Type} [DecidableEq Obj]

/-- `this->swap(other)`, assignment by assignment: the two addresses may be the same. -/
def swap (m : Memory Obj) (this other : Obj) : Option (Memory Obj) :=
  match m this, m other with
  | some t, some o =>
      let m := Function.update m this
        (some { t with thread := o.thread, status := o.status, attr := o.attr })
      let m := Function.update m other
        (some { o with thread := t.thread, status := t.status, attr := t.attr })
      some (Function.update m this ((m this).map fun t => { t with attrPtr := some this }))
  | _, _ => none

/-- After a swap each object has what the other one had; the addresses may be the same. -/
theorem swap_cases {m m' : Memory Obj} {this other : Obj} (h : m.swap this other = some m') :
    ∃ t o, m this = some t ∧ m other = some o ∧ ∀ a, m' a =
      if a = this then some ⟨o.thread, o.attr, some this, o.status⟩
      else if a = other then some ⟨t.thread, t.attr, o.attrPtr, t.status⟩
      else m a := by
  unfold swap at h
  split at h
  · rename_i t o ht ho
    obtain rfl := Option.some.inj h
    refine ⟨t, o, ht, ho, fun a => ?_⟩
    by_cases ha : a = this
    · subst ha
      by_cases hab : a = other
      · subst hab
        obtain rfl : t = o := Option.some.inj (ht.symm.trans ho)
        simp
      · simp [hab]
    · by_cases hb : a = other
      · subst hb
        simp [ha]
      · simp [ha, hb]
  · cases h

end Memory

end CppPthread
