import CppPthread.Basic.Scopes
import CppPthread.Posix.RwLock

set_option autoImplicit false

/-! # Guards on a `read_write_lock`

A `read_write_lock` is a `write_lock`, and a `write_lock` is a `read_lock` with a `lock()` of its
own: both share one `pthread_rwlock_t`. No function of them is virtual, so that the template
argument of a guard decides which `lock()` its constructor calls, and the destructor calls the same
`unlock()` for both.

Any number of threads run programs made of guarded scopes and `try` blocks, one after the other
and inside each other, on the machine of `Basic/Scopes.lean`: a thread may throw at any point, and a
constructor that cannot get the lock throws. A hold is taken and given back for each kind by itself
(`guard_lawful`), so that each hold of the lock is an open scope, thread by thread and kind by kind.
That keeps the destructors from throwing, and it turns the exclusion of the lock into the exclusion
of the scopes.
-/

namespace CppPthread

open Posix Run Scopes

/-! ## The classes -/

/-- `read_write_lock_exception`. -/
structure ReadWriteLockException where
  message : String
  errorNumber : Int
  deriving DecidableEq

section Classes

variable {Tid : Type} [DecidableEq Tid]

/-- `read_lock::lock()`, called by `t`; `none` while it waits. -/
def ReadLock.lock (l : RwLock Tid) (t : Tid) (ret : Int) :
    Option (RwLock Tid × Option ReadWriteLockException) :=
  (l.rdlock t ret).map fun l =>
    (l, if ret ≠ 0 then some ⟨"Try get read lock failed.", ret⟩ else none)

/-- `write_lock::lock()` -/
def WriteLock.lock (l : RwLock Tid) (t : Tid) (ret : Int) :
    Option (RwLock Tid × Option ReadWriteLockException) :=
  (l.wrlock t ret).map fun l =>
    (l, if ret ≠ 0 then some ⟨"Try get write lock failed.", ret⟩ else none)

/-- `read_lock::unlock()` -/
def ReadLock.unlock (l : RwLock Tid) (t : Tid) : RwLock Tid × Option ReadWriteLockException :=
  match l.unlock t with
  | (l, ret) => (l, if ret ≠ 0 then some ⟨"failed to unlock read/read lock.", ret⟩ else none)

/-- `lock_guard(MutexType &)`, where `MutexType` is `read_lock` or `write_lock`. -/
def LockGuard.construct (k : Access) (l : RwLock Tid) (t : Tid) (ret : Int) :
    Option (RwLock Tid × Option ReadWriteLockException) :=
  match k with
  | .read => ReadLock.lock l t ret
  | .write => WriteLock.lock l t ret

/-- `~lock_guard()`. A `write_lock` has the `unlock()` of `read_lock`. -/
def LockGuard.destroy (l : RwLock Tid) (t : Tid) : RwLock Tid × Option ReadWriteLockException :=
  ReadLock.unlock l t

/-- A constructor that throws leaves the lock alone, and one that returns has taken one hold of its
kind. -/
theorem LockGuard.construct_cases {k : Access} {l l' : RwLock Tid} {t : Tid} {ret : Int}
    {e : Option ReadWriteLockException} (h : construct k l t ret = some (l', e)) :
    (e ≠ none ∧ l' = l) ∨
      (e = none ∧ ∀ u j, l'.holds u j = l.holds u j + RwLock.one t k u j) := by
  cases k with
  | read =>
      obtain ⟨l₁, hl, heq⟩ := Option.map_eq_some_iff.mp h
      obtain ⟨rfl, rfl⟩ := Prod.mk.inj heq
      exact (RwLock.holds_rdlock hl).imp (fun ⟨hret, hsame⟩ => ⟨by simp [hret], hsame⟩)
        fun ⟨hret, hholds⟩ => ⟨by simp [hret], hholds⟩
  | write =>
      obtain ⟨l₁, hl, heq⟩ := Option.map_eq_some_iff.mp h
      obtain ⟨rfl, rfl⟩ := Prod.mk.inj heq
      exact (RwLock.holds_wrlock hl).imp (fun ⟨hret, hsame⟩ => ⟨by simp [hret], hsame⟩)
        fun ⟨hret, hholds⟩ => ⟨by simp [hret], hholds⟩

/-- The destructor of a guard whose thread holds the lock does not throw. -/
theorem LockGuard.destroy_spec {k : Access} {l : RwLock Tid} {t : Tid} (h : 0 < l.holds t k) :
    ∃ l', destroy l t = (l', none) ∧
      ∀ u j, l'.holds u j + RwLock.one t k u j = l.holds u j := by
  obtain ⟨hret, hholds⟩ := RwLock.holds_unlock h
  unfold destroy ReadLock.unlock
  rcases hunlock : l.unlock t with ⟨l', ret⟩
  rw [hunlock] at hret hholds
  exact ⟨l', by simp [show ret = 0 from hret], hholds⟩

end Classes

/-! ## Guarded scopes -/

namespace ReadWriteLock

variable {Tid : Type} [DecidableEq Tid]

/-- The guards of one `read_write_lock`: a destructor does not look at the kind. -/
def guard : Guard Tid Access (RwLock Tid) ReadWriteLockException where
  construct := LockGuard.construct
  destroy _ := LockGuard.destroy

theorem guard_lawful :
    (guard : Guard Tid Access (RwLock Tid) ReadWriteLockException).Lawful RwLock.holds where
  threw h := ((LockGuard.construct_cases h).resolve_right fun hnone => by cases hnone.1).2
  taken h := ((LockGuard.construct_cases h).resolve_left fun hne => hne.1 rfl).2
  released h := LockGuard.destroy_spec h

/-- **Guarded scopes exclude each other and are balanced.** For any threads with any programs, in
every state that they can reach: the threads other than one that is in a write scope are in no
scope; the lock has one hold of its kind for each open scope; no thread whose program has ended
holds the lock; and no destructor has thrown. -/
theorem guard_scopes {progs : Tid → Prog Access} {es : List (Scopes.Event Tid)}
    {s : Scopes.State Tid Access (RwLock Tid)}
    (h : run (Scopes.step guard) (Scopes.init RwLock.free progs) es = some s) :
    (∀ t u, .write ∈ (s.tasks t).scopes → u ≠ t → (s.tasks u).scopes = []) ∧
    (∀ t k, s.locks.holds t k = (s.tasks t).scopes.count k) ∧
    (∀ t, (s.tasks t).Ended → ∀ k, s.locks.holds t k = 0) ∧
    s.terminated = false := by
  obtain ⟨hholds, halive⟩ := balanced_run guard_lawful RwLock.holds_free h
  refine ⟨fun t u hwrite hne => ?_, hholds, fun t hended k => ?_, halive⟩
  · refine List.eq_nil_iff_forall_not_mem.mpr fun k hk => hne ?_
    have ht : 0 < s.locks.holds t .write := by
      rw [hholds]
      exact List.count_pos_iff.mpr hwrite
    have hu : 0 < s.locks.holds u k := by
      rw [hholds]
      exact List.count_pos_iff.mpr hk
    exact (RwLock.holds_exclusive ht hu).1
  · rw [hholds, hended.scopes_eq]
    rfl

/-- Thread 0 opens two read scopes, one inside the other, and throws in the inner one; the lock
refuses thread 1 meanwhile; thread 2 opens a write scope afterwards. -/
def nested : List (Scopes.Event Nat) :=
  [.construct 0 0, .construct 0 0, .construct 1 EDEADLK, .throw 0, .unwind 0, .unwind 0,
   .enter 2, .construct 2 0]

def nestedProgs : Nat → Prog Access
  | 0 => .scope .read (.scope .read .done .done) .done
  | 1 => .scope .write .done .done
  | _ => .attempt (.scope .write .done .done) .done

theorem nested_runs :
    (run (Scopes.step guard) (Scopes.init RwLock.free nestedProgs) nested).isSome = true := by
  decide

theorem guard_scopes_nested :
    ∃ s, run (Scopes.step guard) (Scopes.init RwLock.free nestedProgs) nested = some s ∧
      (s.tasks 0).Ended ∧ (s.tasks 1).Ended ∧
      s.locks.holds 0 .read = 0 ∧ (s.tasks 2).scopes = [.write] ∧ (s.tasks 0).scopes = [] ∧
      s.locks.holds 2 .write = (s.tasks 2).scopes.count .write := by
  have hs := (Option.some_get nested_runs).symm
  obtain ⟨hexclusive, hholds, hended, -⟩ := guard_scopes hs
  exact ⟨_, hs, by decide, by decide, hended 0 (by decide) .read, by decide,
    hexclusive 2 0 (by decide) (by decide), hholds 2 .write⟩

end ReadWriteLock

end CppPthread
