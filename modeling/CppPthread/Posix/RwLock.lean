import CppPthread.Posix.Time

set_option autoImplicit false

/-! # A read-write lock

The lock records its holds: the thread that holds it for writing, and the threads that hold it for
reading, each as often as it does (`holds`). While there is a writer there are no readers; the
structure carries that.

The operations are the pthread calls as POSIX describes them, with readers preferred to writers as
in glibc by default. A call that asks for the lock may be refused with any error number, and then
changes nothing. Otherwise it waits until the lock is free, or until it has no writer: `none` says
that the call cannot return yet. That leaves open which of the waiting threads is next, and whether
a thread that asks again is refused, granted a further read hold, or waits for itself. To each of
them there is one lemma about all the holds.
-/

namespace Posix

/-- What the lock is held for. -/
inductive Access where
  | read
  | write
  deriving DecidableEq

structure RwLock (Tid : Type) where
  writer : Option Tid
  readers : List Tid
  exclusive : writer ≠ none → readers = []

namespace RwLock

variable {Tid : Type}

def free : RwLock Tid := ⟨none, [], fun _ => rfl⟩

variable [DecidableEq Tid]

/-- `pthread_rwlock_rdlock`, called by `t`. It gets the lock beside other readers, also while a
writer waits: whether it may is left to the implementation, and in glibc it may by default. -/
def rdlock (l : RwLock Tid) (t : Tid) (ret : Int) : Option (RwLock Tid) :=
  if ret ≠ 0 then some l
  else if h : l.writer = none then some ⟨l.writer, t :: l.readers, fun hw => absurd h hw⟩
  else none

/-- `pthread_rwlock_wrlock`, called by `t`. -/
def wrlock (l : RwLock Tid) (t : Tid) (ret : Int) : Option (RwLock Tid) :=
  if ret ≠ 0 then some l
  else if l.writer = none ∧ l.readers = [] then some ⟨some t, [], fun _ => rfl⟩
  else none

/-- `pthread_rwlock_unlock`, called by `t`. It releases what `t` holds. The call of a thread without
a hold is undefined; here it fails. -/
def unlock (l : RwLock Tid) (t : Tid) : RwLock Tid × Int :=
  if l.writer = some t then (⟨none, l.readers, fun hw => absurd rfl hw⟩, 0)
  else if t ∈ l.readers then
    (⟨l.writer, l.readers.erase t, fun hw => by rw [l.exclusive hw, List.erase_nil]⟩, 0)
  else (l, EPERM)

/-- How often a thread holds the lock. -/
def holds (l : RwLock Tid) (t : Tid) : Access → Nat
  | .read => l.readers.count t
  | .write => if l.writer = some t then 1 else 0

/-- One hold more or less, of the thread `t` for `k`, among those of `u`. -/
def one (t : Tid) (k : Access) (u : Tid) (j : Access) : Nat := if u = t ∧ j = k then 1 else 0

theorem one_self (t : Tid) (k j : Access) : one t k t j = if j = k then 1 else 0 := by
  simp [one]

theorem one_of_ne {t u : Tid} (h : u ≠ t) (k j : Access) : one t k u j = 0 := by
  simp [one, h]

theorem holds_free (t : Tid) (k : Access) : (free : RwLock Tid).holds t k = 0 := by
  cases k <;> rfl

theorem holds_read_pos {l : RwLock Tid} {t : Tid} : 0 < l.holds t .read ↔ t ∈ l.readers :=
  List.count_pos_iff

theorem holds_write_pos {l : RwLock Tid} {t : Tid} :
    0 < l.holds t .write ↔ l.writer = some t := by
  unfold holds
  split_ifs with h <;> simp [h]

/-- **Exclusion**: who holds the lock for writing is the only one who holds it, and once. -/
theorem holds_exclusive {l : RwLock Tid} {t u : Tid} {k : Access} (ht : 0 < l.holds t .write)
    (hu : 0 < l.holds u k) : u = t ∧ k = .write := by
  have hwriter := holds_write_pos.mp ht
  have hreaders : l.readers = [] := l.exclusive (by rw [hwriter]; simp)
  cases k with
  | read =>
      rw [holds_read_pos, hreaders] at hu
      cases hu
  | write =>
      rw [holds_write_pos, hwriter] at hu
      exact ⟨(Option.some.inj hu).symm, rfl⟩

/-- A lock that nobody holds is free for reading and for writing. -/
theorem free_of_holds {l : RwLock Tid} (h : ∀ t k, l.holds t k = 0) :
    l.writer = none ∧ l.readers = [] := by
  constructor
  · cases hw : l.writer with
    | none => rfl
    | some t =>
        have hpos := holds_write_pos.mpr hw
        rw [h t .write] at hpos
        cases hpos
  · refine List.eq_nil_iff_forall_not_mem.mpr fun t ht => ?_
    have hpos := holds_read_pos.mpr ht
    rw [h t .read] at hpos
    cases hpos

/-- What `pthread_rwlock_rdlock` does, when it returns. -/
theorem holds_rdlock {l l' : RwLock Tid} {t : Tid} {ret : Int} (h : l.rdlock t ret = some l') :
    (ret ≠ 0 ∧ l' = l) ∨
      (ret = 0 ∧ ∀ u j, l'.holds u j = l.holds u j + one t .read u j) := by
  unfold rdlock at h
  split_ifs at h with hret hfree
  · exact .inl ⟨hret, (Option.some.inj h).symm⟩
  · refine .inr ⟨not_not.mp hret, fun u j => ?_⟩
    obtain rfl := Option.some.inj h
    cases j with
    | read => simp only [holds, one, List.count_cons, and_true, beq_iff_eq, eq_comm (a := u)]
    | write => simp [holds, one]

/-- What `pthread_rwlock_wrlock` does, when it returns. -/
theorem holds_wrlock {l l' : RwLock Tid} {t : Tid} {ret : Int} (h : l.wrlock t ret = some l') :
    (ret ≠ 0 ∧ l' = l) ∨
      (ret = 0 ∧ ∀ u j, l'.holds u j = l.holds u j + one t .write u j) := by
  unfold wrlock at h
  split_ifs at h with hret hfree
  · exact .inl ⟨hret, (Option.some.inj h).symm⟩
  · refine .inr ⟨not_not.mp hret, fun u j => ?_⟩
    obtain rfl := Option.some.inj h
    cases j with
    | read => simp [holds, one, hfree.2]
    | write => simp [holds, one, hfree.1, eq_comm]

/-- A thread that holds the lock can release it, and gives up one hold of the kind it has. -/
theorem holds_unlock {l : RwLock Tid} {t : Tid} {k : Access} (h : 0 < l.holds t k) :
    (l.unlock t).2 = 0 ∧ ∀ u j, (l.unlock t).1.holds u j + one t k u j = l.holds u j := by
  unfold unlock
  cases k with
  | write =>
      have hwriter := holds_write_pos.mp h
      rw [if_pos hwriter]
      refine ⟨rfl, fun u j => ?_⟩
      cases j with
      | read => simp [holds, one]
      | write => simp [holds, one, hwriter, eq_comm]
  | read =>
      -- A reader is not the writer: there is none.
      have hmem := holds_read_pos.mp h
      have hwriter : ¬ l.writer = some t := fun hw => by
        have hone := holds_exclusive (holds_write_pos.mpr hw) h
        cases hone.2
      rw [if_neg hwriter, if_pos hmem]
      refine ⟨rfl, fun u j => ?_⟩
      cases j with
      | read =>
          by_cases hu : u = t
          · subst hu
            have hpos : 0 < l.readers.count u := List.count_pos_iff.mpr hmem
            rw [one_self, if_pos rfl, holds, List.count_erase_self]
            exact Nat.sub_add_cancel hpos
          · rw [one_of_ne hu, holds, List.count_erase_of_ne hu]
            rfl
      | write => simp [holds, one]

end RwLock

end Posix
