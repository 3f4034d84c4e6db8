import CppPthread.Posix.Mutex
import CppPthread.Posix.RwLock

set_option autoImplicit false

/-! # Locks without waiting

The calls of `Posix/Mutex.lean` and `Posix/RwLock.lean` that take a lock have siblings that return
`EBUSY` instead of waiting. They always return. What they do otherwise is what the calls that wait
do, one equation each; and these wait for those who hold the lock.
-/

namespace Posix

variable {Tid : Type}

/-- `pthread_mutex_trylock`, called by `t`. -/
def Mutex.trylock (m : Mutex Tid) (t : Tid) (ret : Int) : Mutex Tid × Int :=
  if ret ≠ 0 then (m, ret)
  else if m.owner = none then (⟨some t⟩, 0)
  else (m, EBUSY)

namespace RwLock

theorem exclusive_readers {l : RwLock Tid} (t : Tid) (h : l.writer = none) :
    l.writer ≠ none → t :: l.readers = [] := fun hw => absurd h hw

theorem exclusive_writer (t : Tid) : some t ≠ none → ([] : List Tid) = [] := fun _ => rfl

/-- `pthread_rwlock_tryrdlock`, called by `t`. Like `pthread_rwlock_rdlock` it does not look at the
writers that wait. -/
def tryrdlock (l : RwLock Tid) (t : Tid) (ret : Int) : RwLock Tid × Int :=
  if ret ≠ 0 then (l, ret)
  else if h : l.writer = none then (⟨l.writer, t :: l.readers, exclusive_readers t h⟩, 0)
  else (l, EBUSY)

/-- `pthread_rwlock_trywrlock`, called by `t`. -/
def trywrlock (l : RwLock Tid) (t : Tid) (ret : Int) : RwLock Tid × Int :=
  if ret ≠ 0 then (l, ret)
  else if l.writer = none ∧ l.readers = [] then (⟨some t, [], exclusive_writer t⟩, 0)
  else (l, EBUSY)

end RwLock

/-! ## They agree with the calls that wait -/

theorem Mutex.trylock_eq (m : Mutex Tid) (t : Tid) (ret : Int) :
    m.trylock t ret = (m.lock t ret).elim (m, EBUSY) fun m' => (m', ret) := by
  unfold trylock lock
  split_ifs with hret hfree
  · rfl
  · rw [Option.elim_some, not_not.mp hret]
  · rfl

theorem RwLock.tryrdlock_eq (l : RwLock Tid) (t : Tid) (ret : Int) :
    l.tryrdlock t ret = (l.rdlock t ret).elim (l, EBUSY) fun l' => (l', ret) := by
  unfold tryrdlock rdlock
  split_ifs with hret hfree
  · rfl
  · rw [Option.elim_some, not_not.mp hret]
  · rfl

theorem RwLock.trywrlock_eq (l : RwLock Tid) (t : Tid) (ret : Int) :
    l.trywrlock t ret = (l.wrlock t ret).elim (l, EBUSY) fun l' => (l', ret) := by
  unfold trywrlock wrlock
  split_ifs with hret hfree
  · rfl
  · rw [Option.elim_some, not_not.mp hret]
  · rfl

/-! ## Who is waited for -/

theorem Mutex.lock_eq_none [DecidableEq Tid] {m : Mutex Tid} {t : Tid} :
    m.lock t 0 = none ↔ ∃ u, 0 < m.holds u := by
  simp only [lock, ne_eq, not_true_eq_false, if_false, ite_eq_right_iff, reduceCtorEq, imp_false,
    holds_pos]
  exact Option.ne_none_iff_exists'

theorem RwLock.rdlock_eq_none [DecidableEq Tid] {l : RwLock Tid} {t : Tid} :
    l.rdlock t 0 = none ↔ ∃ u, 0 < l.holds u .write := by
  simp only [rdlock, ne_eq, not_true_eq_false, if_false, dite_eq_right_iff, reduceCtorEq,
    imp_false, holds_write_pos]
  exact Option.ne_none_iff_exists'

theorem RwLock.wrlock_eq_none [DecidableEq Tid] {l : RwLock Tid} {t : Tid} :
    l.wrlock t 0 = none ↔ ∃ u k, 0 < l.holds u k := by
  simp only [wrlock, ne_eq, not_true_eq_false, if_false, ite_eq_right_iff, reduceCtorEq,
    imp_false]
  constructor
  · intro hbusy
    by_contra hnone
    refine hbusy (free_of_holds fun u k => Nat.eq_zero_of_not_pos fun hpos => ?_)
    exact hnone ⟨u, k, hpos⟩
  · rintro ⟨u, k, hk⟩ ⟨hwriter, hreaders⟩
    cases k with
    | read =>
        rw [holds_read_pos, hreaders] at hk
        cases hk
    | write =>
        rw [holds_write_pos, hwriter] at hk
        cases hk

end Posix
