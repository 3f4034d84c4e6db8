import CppPthread.Mutex.Guards
import CppPthread.Posix.TryLock

set_option autoImplicit false

/-! # Calls of the locks without a guard

The functions that a `lock_guard` calls are public, and beside them there is a `try_lock()`: that of
`mutex` tells with its result that it did not get the lock, those of `read_lock` and `write_lock`
throw. Any number of threads call `lock()`, `try_lock()` and `unlock()` in any order (`step`).

As in POSIX it is left to the threads to unlock only what they hold (`MayUnlock`). Then the locks
keep account of the calls: a thread holds a lock as often as it has taken it more than it has
released it, whatever the other threads do, and whoever tried in vain. The programs of
`Mutex/Guards.lean` do unlock only what they hold: their guards make such calls
(`guards_call_locks`).
-/

namespace CppPthread

open Posix Run Scopes

/-! ## The classes -/

section Classes

variable {Tid : Type}

/-- `mutex::try_lock()`, called by `t`. -/
def Mutex.tryLock [DecidableEq Tid] (m : Posix.Mutex Tid) (t : Tid) (ret : Int) :
    Posix.Mutex Tid × Except MutexException Bool :=
  match m.trylock t ret with
  | (m, rc) =>
      (m,
        if rc = 0 then .ok true
        else if rc = EBUSY then .ok false
        else .error ⟨"pthread_mutex_trylock failed, already locked.", rc⟩)

/-- `read_lock::try_lock()` -/
def ReadLock.tryLock (l : RwLock Tid) (t : Tid) (ret : Int) :
    RwLock Tid × Option ReadWriteLockException :=
  match l.tryrdlock t ret with
  | (l, ret) => (l, if ret ≠ 0 then some ⟨"Try get read lock failed.", ret⟩ else none)

/-- `write_lock::try_lock()` -/
def WriteLock.tryLock (l : RwLock Tid) (t : Tid) (ret : Int) :
    RwLock Tid × Option ReadWriteLockException :=
  match l.trywrlock t ret with
  | (l, ret) => (l, if ret ≠ 0 then some ⟨"Try get write lock failed.", ret⟩ else none)

end Classes

inductive LockCall where
  | lock
  | tryLock
  | unlock
  deriving DecidableEq

/-- How a call ends. A function without a result returns `true`. -/
inductive CallResult where
  | returned (b : Bool)
  | threw (e : GuardException)
  deriving DecidableEq

def CallResult.ofException : Option GuardException → CallResult
  | none => .returned true
  | some e => .threw e

@[simp] theorem CallResult.ofException_eq_returned {e : Option GuardException} {b : Bool} :
    ofException e = .returned b ↔ e = none ∧ b = true := by
  cases e with
  | none => simp [ofException, eq_comm]
  | some e => simp [ofException]

/-- A thread calls a function of a lock; when the lock refuses it returns `ret`. -/
structure CallEvent (Tid M L : Type) where
  thread : Tid
  call : LockCall
  on : Guarded M L
  ret : Int

/-- What `try_lock()` does when the lock is taken. -/
def Guarded.busy {M L : Type} : Guarded M L → CallResult
  | .mutex _ => .returned false
  | .rwlock .read _ => .threw (.readWriteLock ⟨"Try get read lock failed.", EBUSY⟩)
  | .rwlock .write _ => .threw (.readWriteLock ⟨"Try get write lock failed.", EBUSY⟩)

variable {Tid M L : Type} [DecidableEq M] [DecidableEq L]

/-- Two threads cannot hold a lock in these ways at a time. -/
def Guarded.excludes : Guarded M L → Guarded M L → Bool
  | .mutex m, .mutex n => m = n
  | .rwlock k l, .rwlock j n => decide (l = n ∧ (k = .write ∨ j = .write))
  | _, _ => false

/-- The sum over the ways in which a lock can be held. -/
def onLock (f : Guarded M L → Nat) : M ⊕ L → Nat
  | .inl m => f (.mutex m)
  | .inr l => f (.rwlock .read l) + f (.rwlock .write l)

variable [DecidableEq Tid]

namespace Locks

/-- The functions `lock()`, `try_lock()` and `unlock()`; `none` while the thread waits. -/
def call (s : Locks Tid M L) (t : Tid) (c : LockCall) (r : Guarded M L) (ret : Int) :
    Option (Locks Tid M L × CallResult) :=
  match c with
  | .lock => (guards.construct r s t ret).map fun x => (x.1, .ofException x.2)
  | .tryLock =>
      match r with
      | .mutex m =>
          match Mutex.tryLock (s.mutexes m) t ret with
          | (x, .ok b) => some (s.setMutex m x, .returned b)
          | (x, .error e) => some (s.setMutex m x, .threw (.mutex e))
      | .rwlock .read l =>
          match ReadLock.tryLock (s.rwlocks l) t ret with
          | (x, e) => some (s.setRwlock l x, .ofException (e.map .readWriteLock))
      | .rwlock .write l =>
          match WriteLock.tryLock (s.rwlocks l) t ret with
          | (x, e) => some (s.setRwlock l x, .ofException (e.map .readWriteLock))
  | .unlock =>
      match guards.destroy r s t with
      | (s, e) => some (s, .ofException e)

def step (s : Locks Tid M L) (e : CallEvent Tid M L) : Option (Locks Tid M L) :=
  (s.call e.thread e.call e.on e.ret).map Prod.fst

/-- How often a thread holds a lock. -/
def holdsOf (s : Locks Tid M L) (t : Tid) : M ⊕ L → Nat := onLock (s.holds t)

/-- A thread unlocks what it holds. -/
def MayUnlock (s : Locks Tid M L) (e : CallEvent Tid M L) : Prop :=
  e.call = .unlock → 0 < s.holdsOf e.thread e.on.lock

instance (s : Locks Tid M L) (e : CallEvent Tid M L) : Decidable (s.MayUnlock e) :=
  inferInstanceAs (Decidable (_ → _))

/-- The call that an event is about, with its end. -/
def ended (s : Locks Tid M L) (e : CallEvent Tid M L) : List (CallEvent Tid M L × CallResult) :=
  ((s.call e.thread e.call e.on e.ret).map fun x => (e, x.2)).toList

/-- The calls of a run that have ended. -/
def calls (es : List (CallEvent Tid M L)) : List (CallEvent Tid M L × CallResult) :=
  trace step ended free es

/-! ## What a call does -/

/-- `try_lock()` of a read-write lock ends as `lock()` does, if that does not wait. -/
theorem call_tryLock_rwlock (s : Locks Tid M L) (t : Tid) (k : Access) (l : L) (ret : Int) :
    s.call t .tryLock (.rwlock k l) ret
      = some ((s.call t .lock (.rwlock k l) ret).getD
          (s, (Guarded.rwlock k l : Guarded M L).busy)) := by
  cases k with
  | read =>
      simp only [call, ReadLock.tryLock, RwLock.tryrdlock_eq, guards, LockGuard.construct,
        ReadLock.lock]
      cases (s.rwlocks l).rdlock t ret with
      | none => simp [EBUSY, Guarded.busy, CallResult.ofException]
      | some x => rfl
  | write =>
      simp only [call, WriteLock.tryLock, RwLock.trywrlock_eq, guards, LockGuard.construct,
        WriteLock.lock]
      cases (s.rwlocks l).wrlock t ret with
      | none => simp [EBUSY, Guarded.busy, CallResult.ofException]
      | some x => rfl

/-- So does that of a mutex, when it is not refused: then the two throw with different texts. -/
theorem call_tryLock (s : Locks Tid M L) (t : Tid) (r : Guarded M L) :
    s.call t .tryLock r 0 = some ((s.call t .lock r 0).getD (s, r.busy)) := by
  cases r with
  | mutex m =>
      simp only [call, Mutex.tryLock, Posix.Mutex.trylock_eq, guards, Mutex.lock]
      cases (s.mutexes m).lock t 0 with
      | none => simp [EBUSY, Guarded.busy]
      | some x => simp [CallResult.ofException]
  | rwlock k l => exact s.call_tryLock_rwlock t k l 0

/-- `lock()` takes the lock or changes nothing. -/
theorem call_lock_cases {s s' : Locks Tid M L} {t : Tid} {r : Guarded M L} {ret : Int}
    {res : CallResult} (h : s.call t .lock r ret = some (s', res)) :
    (res = .returned true ∧ ∀ u j, s'.holds u j = s.holds u j + one t r u j) ∨
      (res ≠ .returned true ∧ s' = s) := by
  obtain ⟨⟨x, e⟩, hx, heq⟩ := Option.map_eq_some_iff.mp h
  obtain ⟨rfl, rfl⟩ := Prod.mk.inj heq
  cases e with
  | none => exact .inl ⟨rfl, guards_taken hx⟩
  | some e => exact .inr ⟨by simp, guards_threw hx⟩

/-- `try_lock()` gets the lock only if `lock()` would get it at once, and otherwise changes
nothing. -/
theorem tryLock_cases (s : Locks Tid M L) (t : Tid) (r : Guarded M L) (ret : Int) :
    (∃ s', s.call t .lock r ret = some (s', .returned true) ∧
      s.call t .tryLock r ret = some (s', .returned true)) ∨
    ∃ res, res ≠ .returned true ∧ s.call t .tryLock r ret = some (s, res) := by
  cases r with
  | mutex m =>
      by_cases hret : ret = 0
      · rw [hret, call_tryLock]
        cases hlock : s.call t .lock (.mutex m) 0 with
        | none => exact .inr ⟨_, by simp [Guarded.busy], rfl⟩
        | some y =>
            rcases y with ⟨s', res⟩
            rcases call_lock_cases hlock with ⟨rfl, -⟩ | ⟨hres, rfl⟩
            · exact .inl ⟨s', rfl, rfl⟩
            · exact .inr ⟨res, hres, rfl⟩
      · -- It is refused, and `EBUSY` is told by the result.
        simp only [call, Mutex.tryLock, Posix.Mutex.trylock, if_pos hret]
        by_cases hbusy : ret = EBUSY
        · exact .inr ⟨.returned false, by simp, by simp [hbusy, EBUSY]⟩
        · exact .inr ⟨.threw _, by simp, by simp [hret, hbusy]; rfl⟩
  | rwlock k l =>
      rw [call_tryLock_rwlock]
      cases hlock : s.call t .lock (.rwlock k l) ret with
      | none => exact .inr ⟨_, by cases k <;> simp [Guarded.busy], rfl⟩
      | some y =>
          rcases y with ⟨s', res⟩
          rcases call_lock_cases hlock with ⟨rfl, -⟩ | ⟨hres, rfl⟩
          · exact .inl ⟨s', rfl, rfl⟩
          · exact .inr ⟨res, hres, rfl⟩

/-- `lock()` waits while the lock is held in a way that excludes the caller's. -/
theorem call_lock_eq_none (s : Locks Tid M L) (t : Tid) (r : Guarded M L) :
    s.call t .lock r 0 = none ↔ ∃ u j, j.excludes r ∧ 0 < s.holds u j := by
  cases r with
  | mutex m =>
      simp only [call, guards, Mutex.lock, Option.map_eq_none_iff, Posix.Mutex.lock_eq_none]
      constructor
      · rintro ⟨u, hu⟩
        exact ⟨u, .mutex m, by simp [Guarded.excludes], hu⟩
      · rintro ⟨u, j, hj, hu⟩
        cases j with
        | mutex n =>
            obtain rfl : n = m := of_decide_eq_true hj
            exact ⟨u, hu⟩
        | rwlock k l => cases hj
  | rwlock k l =>
      cases k with
      | read =>
          simp only [call, guards, LockGuard.construct, ReadLock.lock, Option.map_eq_none_iff,
            RwLock.rdlock_eq_none]
          constructor
          · rintro ⟨u, hu⟩
            exact ⟨u, .rwlock .write l, by simp [Guarded.excludes], hu⟩
          · rintro ⟨u, j, hj, hu⟩
            cases j with
            | mutex n => cases hj
            | rwlock i n =>
                obtain ⟨rfl, hwrite⟩ : n = l ∧ (i = .write ∨ Access.read = .write) :=
                  of_decide_eq_true hj
                obtain rfl := hwrite.resolve_right (by simp)
                exact ⟨u, hu⟩
      | write =>
          simp only [call, guards, LockGuard.construct, WriteLock.lock, Option.map_eq_none_iff,
            RwLock.wrlock_eq_none]
          constructor
          · rintro ⟨u, j, hu⟩
            exact ⟨u, .rwlock j l, by simp [Guarded.excludes], hu⟩
          · rintro ⟨u, j, hj, hu⟩
            cases j with
            | mutex n => cases hj
            | rwlock i n =>
                obtain ⟨rfl, -⟩ : n = l ∧ (i = .write ∨ Access.write = .write) :=
                  of_decide_eq_true hj
                exact ⟨u, i, hu⟩

/-- `unlock()` is the same function for both sides of a read-write lock. -/
theorem destroy_congr {r k : Guarded M L} (h : k.lock = r.lock) (s : Locks Tid M L) (t : Tid) :
    guards.destroy r s t = guards.destroy k s t := by
  cases r with
  | mutex m =>
      cases k with
      | mutex n =>
          obtain rfl : n = m := Sum.inl.inj h
          rfl
      | rwlock i n => cases h
  | rwlock i l =>
      cases k with
      | mutex n => cases h
      | rwlock j n =>
          obtain rfl : n = l := Sum.inr.inj h
          rfl

omit [DecidableEq M] [DecidableEq L] in
theorem exists_holds {s : Locks Tid M L} {t : Tid} {x : M ⊕ L} (h : 0 < s.holdsOf t x) :
    ∃ k, k.lock = x ∧ 0 < s.holds t k := by
  cases x with
  | inl m => exact ⟨.mutex m, rfl, h⟩
  | inr l =>
      rcases Nat.add_pos_iff_pos_or_pos.mp h with hread | hwrite
      · exact ⟨.rwlock .read l, rfl, hread⟩
      · exact ⟨.rwlock .write l, rfl, hwrite⟩

/-- **What a call does.** It takes a hold, it releases one, or it changes nothing. -/
theorem call_cases {s s' : Locks Tid M L} {t : Tid} {c : LockCall} {r : Guarded M L} {ret : Int}
    {res : CallResult} (h : s.call t c r ret = some (s', res))
    (hmay : c = .unlock → 0 < s.holdsOf t r.lock) :
    (res = .returned true ∧ c ≠ .unlock ∧ ∀ u j, s'.holds u j = s.holds u j + one t r u j) ∨
    (res = .returned true ∧ c = .unlock ∧ ∃ k, k.lock = r.lock ∧
      ∀ u j, s'.holds u j + one t k u j = s.holds u j) ∨
    (res ≠ .returned true ∧ c ≠ .unlock ∧ s' = s) := by
  cases c with
  | lock =>
      rcases call_lock_cases h with ⟨hres, hholds⟩ | ⟨hres, hsame⟩
      · exact .inl ⟨hres, by simp, hholds⟩
      · exact .inr (.inr ⟨hres, by simp, hsame⟩)
  | tryLock =>
      rcases s.tryLock_cases t r ret with ⟨x, hlock, htry⟩ | ⟨res', hres, htry⟩
      · rw [h] at htry
        obtain ⟨rfl, rfl⟩ := Prod.mk.inj (Option.some.inj htry)
        have htaken := (call_lock_cases hlock).resolve_right fun hne => hne.1 rfl
        exact .inl ⟨rfl, by simp, htaken.2⟩
      · rw [h] at htry
        obtain ⟨rfl, rfl⟩ := Prod.mk.inj (Option.some.inj htry)
        exact .inr (.inr ⟨hres, by simp, rfl⟩)
  | unlock =>
      obtain ⟨k, hk, hpos⟩ := exists_holds (hmay rfl)
      obtain ⟨x, hx, hholds⟩ := guards_released hpos
      simp only [call, destroy_congr hk, hx] at h
      obtain ⟨rfl, rfl⟩ := Prod.mk.inj (Option.some.inj h)
      exact .inr (.inl ⟨rfl, rfl, k, hk, hholds⟩)

/-! ## The accounts -/

/-- The call has taken the lock `x` for `t`. -/
def took (t : Tid) (x : M ⊕ L) (p : CallEvent Tid M L × CallResult) : Bool :=
  decide (p.1.thread = t ∧ p.1.on.lock = x ∧ p.1.call ≠ .unlock ∧ p.2 = .returned true)

/-- The call has released the lock `x` for `t`. -/
def released (t : Tid) (x : M ⊕ L) (p : CallEvent Tid M L × CallResult) : Bool :=
  decide (p.1.thread = t ∧ p.1.on.lock = x ∧ p.1.call = .unlock ∧ p.2 = .returned true)

omit [DecidableEq M] [DecidableEq L] in
theorem onLock_add (f g : Guarded M L → Nat) (x : M ⊕ L) :
    onLock (fun j => f j + g j) x = onLock f x + onLock g x := by
  cases x with
  | inl m => rfl
  | inr l =>
      simp only [onLock]
      omega

theorem onLock_one (t u : Tid) (r : Guarded M L) (x : M ⊕ L) :
    onLock (one t r u) x = if u = t ∧ r.lock = x then 1 else 0 := by
  cases x with
  | inl m =>
      cases r with
      | mutex n => simp [onLock, one, Guarded.lock, eq_comm]
      | rwlock k n => simp [onLock, one, Guarded.lock]
  | inr l =>
      cases r with
      | mutex n => simp [onLock, one, Guarded.lock]
      | rwlock k n =>
          cases k <;> simp [onLock, one, Guarded.lock, eq_comm]

/-- A thread holds a lock as often as it has taken it more than it has released it. -/
def Accounts (s : Locks Tid M L) (calls : List (CallEvent Tid M L × CallResult)) : Prop :=
  ∀ t x, s.holdsOf t x + calls.countP (released t x) = calls.countP (took t x)

/-- **The step lemma.** -/
theorem step_accounts {s s' : Locks Tid M L} {e : CallEvent Tid M L}
    {calls : List (CallEvent Tid M L × CallResult)} (hs : s.Accounts calls) (hmay : s.MayUnlock e)
    (h : step s e = some s') : s'.Accounts (calls ++ s.ended e) := by
  obtain ⟨⟨x, res⟩, hcall, rfl⟩ := Option.map_eq_some_iff.mp h
  intro u y
  have hbefore := hs u y
  simp only [ended, hcall, Option.map_some, Option.toList_some, List.countP_append,
    List.countP_singleton, took, released, decide_eq_true_eq]
  rcases call_cases hcall hmay with ⟨rfl, hc, hholds⟩ | ⟨rfl, hc, k, hk, hholds⟩ |
    ⟨hres, hc, rfl⟩
  · have hsum : holdsOf x u y = s.holdsOf u y + if u = e.thread ∧ e.on.lock = y then 1 else 0 := by
      rw [← onLock_one, holdsOf, holdsOf, ← onLock_add]
      exact congrArg (onLock · y) (funext (hholds u))
    simp only [hc, ne_eq, not_false_eq_true, and_true, and_false, if_false, Nat.add_zero,
      @eq_comm _ e.thread u]
    omega
  · have hsum : holdsOf x u y + (if u = e.thread ∧ e.on.lock = y then 1 else 0)
        = s.holdsOf u y := by
      rw [← hk, ← onLock_one, holdsOf, holdsOf, ← onLock_add]
      exact congrArg (onLock · y) (funext (hholds u))
    simp only [hc, ne_eq, not_true_eq_false, and_true, and_false, if_false, Nat.add_zero,
      @eq_comm _ e.thread u]
    omega
  · simp only [hres, and_false, if_false, Nat.add_zero]
    exact hbefore

/-- **The run lemma.** -/
theorem run_accounts {es : List (CallEvent Tid M L)} {s : Locks Tid M L}
    (h : run step free es = some s) (hmay : Along step MayUnlock free es) :
    s.Accounts (calls es) := by
  refine run_history (P := fun es s => Along step MayUnlock free es → s.Accounts (calls es))
    (fun _ t x => ?_) (fun es m e m' hm hacc hstep halong => ?_) h hmay
  · cases x with
    | inl m => rfl
    | inr l => rfl
  · obtain ⟨hbefore, hlast, -⟩ := (along_append hm).mp halong
    rw [calls, trace_snoc e hm]
    exact step_accounts (hacc hbefore) hlast hstep

/-- `lock()` does not throw unless it is refused. -/
theorem call_lock_returned {s : Locks Tid M L} {t : Tid} {r : Guarded M L}
    {x : Locks Tid M L × CallResult} (h : s.call t .lock r 0 = some x) :
    x.2 = .returned true := by
  obtain ⟨⟨y, e⟩, hy, rfl⟩ := Option.map_eq_some_iff.mp h
  rw [CallResult.ofException_eq_returned]
  cases r with
  | mutex m =>
      simp only [guards, Mutex.lock, Option.map_map, Option.map_eq_some_iff] at hy
      obtain ⟨z, -, hz⟩ := hy
      exact ⟨(Prod.mk.inj hz).2.symm, rfl⟩
  | rwlock k l =>
      cases k <;>
        simp only [guards, LockGuard.construct, ReadLock.lock, WriteLock.lock, Option.map_map,
          Option.map_eq_some_iff] at hy <;>
        obtain ⟨z, -, hz⟩ := hy <;>
        exact ⟨(Prod.mk.inj hz).2.symm, rfl⟩

omit [DecidableEq M] [DecidableEq L] in
theorem holds_le_holdsOf (s : Locks Tid M L) (t : Tid) (j : Guarded M L) :
    s.holds t j ≤ s.holdsOf t j.lock := by
  cases j with
  | mutex m => exact Nat.le_refl _
  | rwlock k l =>
      cases k
      · exact Nat.le_add_right _ _
      · exact Nat.le_add_left _ _

theorem excludes_lock {i j : Guarded M L} (h : i.excludes j = true) : i.lock = j.lock := by
  cases i <;> cases j <;> simp_all [Guarded.excludes, Guarded.lock]

/-- Who holds a lock in a way that excludes the other one is the same thread, in the same way. -/
theorem holds_exclusive {s : Locks Tid M L} {t u : Tid} {i j : Guarded M L}
    (h : i.excludes j = true) (ht : 0 < s.holds t i) (hu : 0 < s.holds u j) : u = t ∧ j = i := by
  cases i with
  | mutex m =>
      cases j with
      | mutex n =>
          obtain rfl : m = n := of_decide_eq_true h
          exact ⟨Posix.Mutex.holds_exclusive ht hu, rfl⟩
      | rwlock k l => cases h
  | rwlock i m =>
      cases j with
      | mutex n => cases h
      | rwlock j n =>
          obtain ⟨rfl, rfl | rfl⟩ : m = n ∧ (i = .write ∨ j = .write) := of_decide_eq_true h
          · obtain ⟨rfl, rfl⟩ := RwLock.holds_exclusive ht hu
            exact ⟨rfl, rfl⟩
          · obtain ⟨rfl, rfl⟩ := RwLock.holds_exclusive hu ht
            exact ⟨rfl, rfl⟩

/-- **The locks keep account of their calls**, whatever threads call `lock()`, `try_lock()` and
`unlock()` in whatever order, as long as they unlock what they hold: a thread holds a lock as often
as it has taken it more than it has released it. Holds that exclude each other are of one thread,
and its `unlock()` returns. A call of `lock()` waits for a hold that excludes it, and only then
`try_lock()` fails, which always returns. So a lock can be taken by all who try, as soon as every
thread has released it as often as it has taken it. -/
theorem direct_calls {es : List (CallEvent Tid M L)} {s : Locks Tid M L}
    (h : run step free es = some s) (hmay : Along step MayUnlock free es) :
    (∀ t x, s.holdsOf t x + (calls es).countP (released t x) = (calls es).countP (took t x)) ∧
    (∀ t u i j, i.excludes j = true → 0 < s.holds t i → 0 < s.holds u j → u = t ∧ j = i) ∧
    (∀ t r ret, 0 < s.holdsOf t r.lock →
      ∃ s', s.call t .unlock r ret = some (s', .returned true)) ∧
    (∀ t r, s.call t .lock r 0 = none ↔ ∃ u j, j.excludes r = true ∧ 0 < s.holds u j) ∧
    (∀ t r, s.call t .tryLock r 0 = some ((s.call t .lock r 0).getD (s, r.busy))) ∧
    ∀ x, (∀ t, (calls es).countP (took t x) = (calls es).countP (released t x)) →
      ∀ t r, r.lock = x → ∃ s', s.call t .tryLock r 0 = some (s', .returned true) := by
  have hacc := run_accounts h hmay
  refine ⟨hacc, fun t u i j => holds_exclusive, fun t r ret hpos => ?_, call_lock_eq_none s,
    call_tryLock s, fun x heven t r hr => ?_⟩
  · obtain ⟨k, hk, hheld⟩ := exists_holds hpos
    obtain ⟨s', hs', -⟩ := guards_released hheld
    exact ⟨s', by simp only [call, destroy_congr hk, hs']; rfl⟩
  · have hfree : ∀ u j, j.excludes r = true → s.holds u j = 0 := by
      intro u j hj
      have hle := holds_le_holdsOf s u j
      rw [excludes_lock hj, hr] at hle
      have hbalance := hacc u x
      have heven := heven u
      omega
    cases hlock : s.call t .lock r 0 with
    | none =>
        obtain ⟨u, j, hj, hpos⟩ := (call_lock_eq_none s t r).mp hlock
        rw [hfree u j hj] at hpos
        cases hpos
    | some y =>
        have hy := call_lock_returned hlock
        exact ⟨y.1, by rw [call_tryLock, hlock, Option.getD_some, ← hy]⟩

/-- The first thread takes a mutex and reads; the second one tries both, and gets to read; the
first one leaves the mutex. -/
def tries : List (CallEvent Bool Unit Unit) :=
  [⟨false, .lock, .mutex (), 0⟩, ⟨false, .lock, .rwlock .read (), 0⟩,
   ⟨true, .tryLock, .mutex (), 0⟩, ⟨true, .tryLock, .rwlock .write (), 0⟩,
   ⟨true, .tryLock, .rwlock .read (), 0⟩, ⟨false, .unlock, .mutex (), 0⟩]

theorem tries_runs : (run step free tries).isSome = true := by decide

theorem direct_calls_tries :
    ∃ s, run step free tries = some s ∧ s.holdsOf true (.inr ()) = 1 ∧
      ∀ t, ∃ s', s.call t .tryLock (.mutex ()) 0 = some (s', .returned true) := by
  have hrun := (Option.some_get tries_runs).symm
  refine ⟨_, hrun, by decide, fun t => ?_⟩
  have heven := (direct_calls hrun (by decide)).2.2.2.2.2 (.inl ())
  exact heven (by decide) t (.mutex ()) rfl

/-! ## Guards make such calls -/

/-- The call that a guard makes at a step of the machine of `Basic/Scopes.lean`. -/
def guardCalls (s : Scopes.State Tid (Guarded M L) (Locks Tid M L)) :
    Scopes.Event Tid → List (CallEvent Tid M L)
  | .construct t ret =>
      match (s.tasks t).control with
      | .running (.scope r _ _) => [⟨t, .lock, r, ret⟩]
      | _ => []
  | .leave t | .unwind t =>
      match (s.tasks t).blocks with
      | .scope r _ :: _ => [⟨t, .unlock, r, 0⟩]
      | _ => []
  | .enter _ | .throw _ => []

theorem close_locks (s : Scopes.State Tid (Guarded M L) (Locks Tid M L)) (r : Guarded M L)
    (t : Tid) (task : Scopes.Task (Guarded M L)) :
    (s.close guards r t task).locks = (guards.destroy r s.locks t).1 := by
  unfold Scopes.State.close
  rcases guards.destroy r s.locks t with ⟨l, _ | e⟩ <;> rfl

/-- A step of the guards is a call, or none. -/
theorem guardCalls_run {s s' : Scopes.State Tid (Guarded M L) (Locks Tid M L)}
    {e : Scopes.Event Tid} (h : Scopes.step guards s e = some s') :
    run step s.locks (guardCalls s e) = some s'.locks := by
  cases (Scopes.step_trans h).2 with
  | take ht hl => simp [guardCalls, ht, step, call, hl]
  | refuse ht hl => simp [guardCalls, ht, step, call, hl]
  | enter ht => rfl
  | leaveScope ht => simp [guardCalls, ht, step, call, close_locks]
  | leaveAttempt ht => simp [guardCalls, ht]
  | throw ht => rfl
  | unwindScope ht => simp [guardCalls, ht, step, call, close_locks]
  | caught ht => simp [guardCalls, ht]

/-- A guard is destroyed by a thread that is in its scope. -/
theorem guardCalls_mayUnlock {s s' : Scopes.State Tid (Guarded M L) (Locks Tid M L)}
    {e : Scopes.Event Tid} (hs : Balanced holds s) (h : Scopes.step guards s e = some s') :
    Along step MayUnlock s.locks (guardCalls s e) := by
  have hopen : ∀ {t : Tid} {r : Guarded M L} {rest : Prog (Guarded M L)}
      {blocks : List (Block (Guarded M L))}, (s.tasks t).blocks = .scope r rest :: blocks →
      0 < s.locks.holdsOf t r.lock := by
    intro t r rest blocks ht
    have hcount : 0 < s.locks.holds t r := by
      rw [hs.holds, Scopes.Task.scopes, ht, scopesOf_scope]
      exact List.count_pos_iff.mpr (by simp)
    have hle := s.locks.holds_le_holdsOf t r
    omega
  cases (Scopes.step_trans h).2 with
  | take ht hl =>
      simp only [guardCalls, ht]
      exact along_singleton.mpr fun hc => by cases hc
  | refuse ht hl =>
      simp only [guardCalls, ht]
      exact along_singleton.mpr fun hc => by cases hc
  | enter ht => trivial
  | leaveScope ht =>
      simp only [guardCalls, ht]
      exact along_singleton.mpr fun _ => hopen (congrArg Scopes.Task.blocks ht)
  | leaveAttempt ht =>
      simp only [guardCalls, ht]
      trivial
  | throw ht => trivial
  | unwindScope ht =>
      simp only [guardCalls, ht]
      exact along_singleton.mpr fun _ => hopen (congrArg Scopes.Task.blocks ht)
  | caught ht =>
      simp only [guardCalls, ht]
      trivial

theorem onLock_count (t : Tid) (l : List (Guarded M L)) (x : M ⊕ L) :
    onLock (fun j => l.count j) x = l.countP fun r => decide (r.lock = x) := by
  induction l with
  | nil => cases x <;> rfl
  | cons r l ih =>
      have hcons : (fun j => (r :: l).count j) = fun j => l.count j + one t r t j :=
        funext fun j => count_cons_one t r j l
      rw [hcons, onLock_add, onLock_one, ih, List.countP_cons]
      simp

/-- **Guarded programs call the locks properly.** Whatever programs of nested scopes the threads
run, with exceptions or without, their guards make calls that the locks allow, with the same locks
in the end, and unlock nothing that their thread does not hold. The scopes of a lock that a thread
is in are its calls of `lock()` that have returned, less its calls of `unlock()`. -/
theorem guards_call_locks {progs : Tid → Prog (Guarded M L)} {es : List (Scopes.Event Tid)}
    {s : Scopes.State Tid (Guarded M L) (Locks Tid M L)}
    (h : run (Scopes.step guards) (Scopes.init free progs) es = some s) :
    ∃ es', es' = trace (Scopes.step guards) guardCalls (Scopes.init free progs) es ∧
      run step free es' = some s.locks ∧ Along step MayUnlock free es' ∧
      ∀ t x, (s.tasks t).scopes.countP (fun r => decide (r.lock = x))
        + (calls es').countP (released t x) = (calls es').countP (took t x) := by
  have hinit : Balanced holds (Scopes.init (free : Locks Tid M L) progs) :=
    balanced_init holds_free progs
  have hI : ∀ (s : Scopes.State Tid (Guarded M L) (Locks Tid M L)) e s', Balanced holds s →
      Scopes.step guards s e = some s' → Balanced holds s' :=
    fun _ _ _ hs hstep => balanced_step guards_lawful hs hstep
  have hrun := run_simulation (f := Scopes.State.locks) hI
    (fun _ _ _ _ hstep => guardCalls_run hstep) hinit h
  have halong := along_simulation (f := Scopes.State.locks) hI
    (fun _ _ _ _ hstep => guardCalls_run hstep)
    (fun _ _ _ hs hstep => guardCalls_mayUnlock hs hstep) hinit h
  refine ⟨_, rfl, hrun, halong, fun t x => ?_⟩
  have hbalance := run_accounts hrun halong t x
  have hscopes := (balanced_run guards_lawful holds_free h).holds t
  rwa [holdsOf, funext hscopes, onLock_count t] at hbalance

theorem guards_call_locks_twoMutexes :
    ∃ s, run (Scopes.step guards) (Scopes.init free twoMutexes) twoMutexesRun = some s ∧
      ∃ es', es'.length = 6 ∧ run step free es' = some s.locks ∧
        Along step MayUnlock free es' ∧ (calls es').countP (released false (.inl false)) = 1 ∧
        ∀ t x, (s.tasks t).scopes.countP (fun r => decide (r.lock = x))
          + (calls es').countP (released t x) = (calls es').countP (took t x) := by
  have hrun := (Option.some_get twoMutexes_runs).symm
  obtain ⟨es', hes, hcalls, hmay, hcount⟩ := guards_call_locks hrun
  exact ⟨_, hrun, es', by rw [hes]; decide, hcalls, hmay, by rw [hes]; decide, hcount⟩

end Locks

end CppPthread
