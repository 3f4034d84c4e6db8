import CppPthread.Basic.LockOrder
import CppPthread.Posix.Mutex
import CppPthread.ReadWriteLock.Guards

set_option autoImplicit false

/-! # Scopes guarded by mutexes and read-write locks

A program has any number of mutexes and read-write locks, and its threads take them with
`lock_guard<mutex>`, `lock_guard<read_lock>` and `lock_guard<write_lock>`, in scopes that are nested
in any way and that exceptions may leave at any point. The three templates are one kind of guard
(`guards`), and the machine of `Basic/Scopes.lean` runs the programs.

Every hold of a lock is then an open scope, so the scopes exclude each other as the locks do, and no
destructor throws (`guarded_scopes`). When the programs nest their scopes in an order of the locks
they come to their ends, whatever the interleaving (`ordered_scopes_end`); the order is needed
(`crossed`).
-/

namespace CppPthread

open Posix Run Scopes Work

/-! ## The classes -/

/-- `mutex_exception`. -/
structure MutexException where
  message : String
  errorNumber : Int
  deriving DecidableEq

section Classes

variable {Tid : Type} [DecidableEq Tid]

/-- `mutex::lock()`, called by `t`; `none` while it waits. -/
def Mutex.lock (m : Posix.Mutex Tid) (t : Tid) (ret : Int) :
    Option (Posix.Mutex Tid × Option MutexException) :=
  (m.lock t ret).map fun m =>
    (m, if ret ≠ 0 then some ⟨"pthread_mutex_lock failed.", ret⟩ else none)

/-- `mutex::unlock()` -/
def Mutex.unlock (m : Posix.Mutex Tid) (t : Tid) : Posix.Mutex Tid × Option MutexException :=
  match m.unlock t with
  | (m, rc) => (m, if rc ≠ 0 then some ⟨"pthread_mutex_unlock failed.", rc⟩ else none)

/-- A call that throws leaves the mutex alone, and one that returns has taken it. -/
theorem Mutex.lock_cases {m m' : Posix.Mutex Tid} {t : Tid} {ret : Int}
    {e : Option MutexException} (h : Mutex.lock m t ret = some (m', e)) :
    (e ≠ none ∧ m' = m) ∨
      (e = none ∧ ∀ u, m'.holds u = m.holds u + if u = t then 1 else 0) := by
  obtain ⟨m₁, hm, heq⟩ := Option.map_eq_some_iff.mp h
  obtain ⟨rfl, rfl⟩ := Prod.mk.inj heq
  exact (Posix.Mutex.holds_lock hm).imp (fun ⟨hret, hsame⟩ => ⟨by simp [hret], hsame⟩)
    fun ⟨hret, hholds⟩ => ⟨by simp [hret], hholds⟩

/-- The owner's `unlock()` does not throw. -/
theorem Mutex.unlock_spec {m : Posix.Mutex Tid} {t : Tid} (h : 0 < m.holds t) :
    ∃ m', Mutex.unlock m t = (m', none) ∧
      ∀ u, m'.holds u + (if u = t then 1 else 0) = m.holds u := by
  obtain ⟨hrc, hholds⟩ := Posix.Mutex.holds_unlock h
  unfold Mutex.unlock
  rcases hunlock : m.unlock t with ⟨m', rc⟩
  rw [hunlock] at hrc hholds
  exact ⟨m', by simp [show rc = 0 from hrc], hholds⟩

end Classes

/-! ## The guards -/

/-- The mutexes and the read-write locks of a program, under any names. -/
structure Locks (Tid M L : Type) where
  mutexes : M → Posix.Mutex Tid
  rwlocks : L → RwLock Tid

/-- What a `lock_guard` is constructed with. -/
inductive Guarded (M L : Type) where
  /-- `lock_guard<mutex>` -/
  | mutex (m : M)
  /-- `lock_guard<read_lock>` or `lock_guard<write_lock>` -/
  | rwlock (k : Access) (l : L)
  deriving DecidableEq

/-- The lock that is guarded. -/
def Guarded.lock {M L : Type} : Guarded M L → M ⊕ L
  | .mutex m => .inl m
  | .rwlock _ l => .inr l

/-- What a constructor or a destructor throws. -/
inductive GuardException where
  | mutex (e : MutexException)
  | readWriteLock (e : ReadWriteLockException)
  deriving DecidableEq

section Guards

variable {Tid M L : Type} [DecidableEq Tid] [DecidableEq M] [DecidableEq L]

def Locks.free : Locks Tid M L := ⟨fun _ => Posix.Mutex.free, fun _ => RwLock.free⟩

def Locks.setMutex (s : Locks Tid M L) (m : M) (x : Posix.Mutex Tid) : Locks Tid M L :=
  { s with mutexes := Function.update s.mutexes m x }

def Locks.setRwlock (s : Locks Tid M L) (l : L) (x : RwLock Tid) : Locks Tid M L :=
  { s with rwlocks := Function.update s.rwlocks l x }

/-- `lock_guard(MutexType &)` and `~lock_guard()`, for the three templates. -/
def guards : Guard Tid (Guarded M L) (Locks Tid M L) GuardException where
  construct
    | .mutex m, s, t, ret =>
        (Mutex.lock (s.mutexes m) t ret).map fun x => (s.setMutex m x.1, x.2.map .mutex)
    | .rwlock k l, s, t, ret =>
        (LockGuard.construct k (s.rwlocks l) t ret).map fun x =>
          (s.setRwlock l x.1, x.2.map .readWriteLock)
  destroy
    | .mutex m, s, t =>
        match Mutex.unlock (s.mutexes m) t with
        | (x, e) => (s.setMutex m x, e.map .mutex)
    | .rwlock _ l, s, t =>
        match LockGuard.destroy (s.rwlocks l) t with
        | (x, e) => (s.setRwlock l x, e.map .readWriteLock)

/-- How often a thread holds a lock in the way of a guard. -/
def Locks.holds (s : Locks Tid M L) (t : Tid) : Guarded M L → Nat
  | .mutex m => (s.mutexes m).holds t
  | .rwlock k l => (s.rwlocks l).holds t k

omit [DecidableEq M] [DecidableEq L] in
theorem Locks.holds_free (t : Tid) (r : Guarded M L) :
    (Locks.free : Locks Tid M L).holds t r = 0 := by
  cases r with
  | mutex m => rfl
  | rwlock k l => exact RwLock.holds_free t k

omit [DecidableEq Tid] [DecidableEq L] in
@[simp] theorem Locks.setMutex_self (s : Locks Tid M L) (m : M) :
    s.setMutex m (s.mutexes m) = s := by
  simp [Locks.setMutex]

omit [DecidableEq Tid] [DecidableEq M] in
@[simp] theorem Locks.setRwlock_self (s : Locks Tid M L) (l : L) :
    s.setRwlock l (s.rwlocks l) = s := by
  simp [Locks.setRwlock]

/-- Taking or releasing a mutex changes the holds on it only. -/
theorem Locks.holds_setMutex (s : Locks Tid M L) {m : M} {x : Posix.Mutex Tid} (u : Tid)
    (j : Guarded M L) :
    (s.setMutex m x).holds u j = if j = .mutex m then x.holds u else s.holds u j := by
  cases j with
  | mutex n =>
      by_cases h : n = m
      · subst h
        simp [Locks.holds, Locks.setMutex]
      · simp [Locks.holds, Locks.setMutex, h]
  | rwlock k l => simp [Locks.holds, Locks.setMutex]

omit [DecidableEq M] in
/-- Taking or releasing a read-write lock changes the holds on it only. -/
theorem Locks.holds_setRwlock (s : Locks Tid M L) {l : L} {x : RwLock Tid} (u : Tid)
    (k : Access) (n : L) :
    (s.setRwlock l x).holds u (.rwlock k n)
      = if n = l then x.holds u k else s.holds u (.rwlock k n) := by
  by_cases h : n = l
  · subst h
    simp [Locks.holds, Locks.setRwlock]
  · simp [Locks.holds, Locks.setRwlock, h]

theorem one_mutex (t u : Tid) (m : M) :
    one t (.mutex m : Guarded M L) u (.mutex m) = if u = t then 1 else 0 := by
  simp [one]

theorem one_rwlock (t u : Tid) (k j : Access) (l : L) :
    one t (.rwlock k l : Guarded M L) u (.rwlock j l) = one t k u j := by
  simp [one]

theorem one_of_ne_lock {t u : Tid} {r j : Guarded M L} (h : j ≠ r) : one t r u j = 0 := by
  simp [one, h]

theorem guards_taken {r : Guarded M L} {s s' : Locks Tid M L} {t : Tid} {ret : Int}
    (h : guards.construct r s t ret = some (s', none)) (u : Tid) (j : Guarded M L) :
    s'.holds u j = s.holds u j + one t r u j := by
  cases r with
  | mutex m =>
      obtain ⟨⟨x, e⟩, hx, heq⟩ := Option.map_eq_some_iff.mp h
      obtain ⟨rfl, he⟩ := Prod.mk.inj heq
      obtain rfl : e = none := Option.map_eq_none_iff.mp he
      have hholds := ((Mutex.lock_cases hx).resolve_left fun hne => hne.1 rfl).2
      rw [Locks.holds_setMutex]
      split_ifs with hj
      · rw [hj, one_mutex]
        exact hholds u
      · rw [one_of_ne_lock hj, Nat.add_zero]
  | rwlock k l =>
      obtain ⟨⟨x, e⟩, hx, heq⟩ := Option.map_eq_some_iff.mp h
      obtain ⟨rfl, he⟩ := Prod.mk.inj heq
      obtain rfl : e = none := Option.map_eq_none_iff.mp he
      have hholds := ReadWriteLock.guard_lawful.taken hx
      cases j with
      | mutex m =>
          rw [one_of_ne_lock (by simp), Nat.add_zero]
          rfl
      | rwlock k' n =>
          rw [Locks.holds_setRwlock]
          split_ifs with hn
          · rw [hn, one_rwlock]
            exact hholds u k'
          · rw [one_of_ne_lock (by simp [hn]), Nat.add_zero]

theorem guards_threw {r : Guarded M L} {s s' : Locks Tid M L} {t : Tid} {ret : Int}
    {e : GuardException} (h : guards.construct r s t ret = some (s', some e)) : s' = s := by
  cases r with
  | mutex m =>
      obtain ⟨⟨x, e'⟩, hx, heq⟩ := Option.map_eq_some_iff.mp h
      obtain ⟨rfl, he⟩ := Prod.mk.inj heq
      have hsame := (Mutex.lock_cases hx).resolve_right fun hnone => by simp [hnone.1] at he
      rw [hsame.2, Locks.setMutex_self]
  | rwlock k l =>
      obtain ⟨⟨x, e'⟩, hx, heq⟩ := Option.map_eq_some_iff.mp h
      obtain ⟨rfl, he⟩ := Prod.mk.inj heq
      obtain ⟨e₁, rfl, -⟩ := Option.map_eq_some_iff.mp he
      rw [ReadWriteLock.guard_lawful.threw hx, Locks.setRwlock_self]

theorem guards_released {r : Guarded M L} {s : Locks Tid M L} {t : Tid} (h : 0 < s.holds t r) :
    ∃ s', guards.destroy r s t = (s', none) ∧
      ∀ u j, s'.holds u j + one t r u j = s.holds u j := by
  cases r with
  | mutex m =>
      obtain ⟨x, hunlock, hholds⟩ := Mutex.unlock_spec h
      refine ⟨s.setMutex m x, by simp only [guards, hunlock]; rfl, fun u j => ?_⟩
      rw [Locks.holds_setMutex]
      split_ifs with hj
      · rw [hj, one_mutex]
        exact hholds u
      · rw [one_of_ne_lock hj, Nat.add_zero]
  | rwlock k l =>
      obtain ⟨x, hdestroy, hholds⟩ := ReadWriteLock.guard_lawful.released h
      have hdestroy' : LockGuard.destroy (s.rwlocks l) t = (x, none) := hdestroy
      refine ⟨s.setRwlock l x, by simp only [guards, hdestroy']; rfl, fun u j => ?_⟩
      cases j with
      | mutex m =>
          rw [one_of_ne_lock (by simp), Nat.add_zero]
          rfl
      | rwlock k' n =>
          rw [Locks.holds_setRwlock]
          split_ifs with hn
          · rw [hn, one_rwlock]
            exact hholds u k'
          · rw [one_of_ne_lock (by simp [hn]), Nat.add_zero]

/-- The three templates take and give back one hold each. -/
theorem guards_lawful : (guards : Guard Tid (Guarded M L) (Locks Tid M L) GuardException).Lawful
    Locks.holds where
  threw := guards_threw
  taken := guards_taken
  released := guards_released

/-- A guard can be constructed when nobody holds its lock. -/
theorem guards_freeAt {Λ : Type} [LinearOrder Λ] (rank : M ⊕ L → Λ) :
    (guards : Guard Tid (Guarded M L) (Locks Tid M L) GuardException).FreeAt
      (fun r => rank r.lock) Locks.holds := by
  intro r s t hfree
  cases r with
  | mutex m =>
      have howner := Posix.Mutex.owner_eq_none fun u => hfree u (.mutex m) rfl
      exact ⟨_, by simp [guards, Mutex.lock, Posix.Mutex.lock, howner]; rfl⟩
  | rwlock k l =>
      obtain ⟨hwriter, hreaders⟩ := RwLock.free_of_holds fun u j => hfree u (.rwlock j l) rfl
      cases k with
      | read =>
          exact ⟨_, by
            simp [guards, LockGuard.construct, ReadLock.lock, RwLock.rdlock, hwriter]; rfl⟩
      | write =>
          exact ⟨_, by
            simp [guards, LockGuard.construct, WriteLock.lock, RwLock.wrlock, hwriter, hreaders]
            rfl⟩

/-! ## Exclusion and balance -/

/-- **Guarded scopes exclude each other and are balanced.** For any threads with any programs, in
every state that they can reach: a mutex is in one scope at most; nobody else is in a scope of a
read-write lock that a thread is in a write scope of, nor is that thread in another one; each lock
has one hold for each open scope, and none of a thread whose program has ended; and no destructor
has thrown. -/
theorem guarded_scopes {progs : Tid → Prog (Guarded M L)} {es : List (Scopes.Event Tid)}
    {s : Scopes.State Tid (Guarded M L) (Locks Tid M L)}
    (h : run (Scopes.step guards) (Scopes.init Locks.free progs) es = some s) :
    (∀ t m, .mutex m ∈ (s.tasks t).scopes → (s.tasks t).scopes.count (.mutex m) = 1 ∧
      ∀ u, u ≠ t → .mutex m ∉ (s.tasks u).scopes) ∧
    (∀ t l, .rwlock .write l ∈ (s.tasks t).scopes →
      (s.tasks t).scopes.count (.rwlock .write l) = 1 ∧ .rwlock .read l ∉ (s.tasks t).scopes ∧
      ∀ u, u ≠ t → ∀ k, .rwlock k l ∉ (s.tasks u).scopes) ∧
    (∀ t r, s.locks.holds t r = (s.tasks t).scopes.count r) ∧
    (∀ t, (s.tasks t).Ended → ∀ r, s.locks.holds t r = 0) ∧ s.terminated = false := by
  obtain ⟨hholds, halive⟩ := balanced_run guards_lawful Locks.holds_free h
  have hopen : ∀ {t r}, r ∈ (s.tasks t).scopes → 0 < s.locks.holds t r := by
    intro t r hr
    rw [hholds]
    exact List.count_pos_iff.mpr hr
  refine ⟨fun t m hm => ⟨?_, ?_⟩, fun t l hl => ⟨?_, ?_, ?_⟩, hholds, fun t hended r => ?_, halive⟩
  · have hpos := hopen hm
    have hle : s.locks.holds t (.mutex m) ≤ 1 := Posix.Mutex.holds_le_one _ t
    rw [← hholds]
    omega
  · exact fun u hne hu => hne (Posix.Mutex.holds_exclusive (hopen hm) (hopen hu))
  · have hpos := hopen hl
    have hle : s.locks.holds t (.rwlock .write l) ≤ 1 := by
      show (if _ then 1 else 0) ≤ 1
      split_ifs <;> omega
    rw [← hholds]
    omega
  · intro hr
    have hread : 0 < (s.locks.rwlocks l).holds t .read := hopen hr
    have hkind := (RwLock.holds_exclusive (hopen hl) hread).2
    cases hkind
  · intro u hne k hu
    have hother : 0 < (s.locks.rwlocks l).holds u k := hopen hu
    exact hne (RwLock.holds_exclusive (hopen hl) hother).1
  · rw [hholds, hended.scopes_eq]
    rfl

/-! ## Locks in order -/

/-- **Programs that take their locks in order come to their ends.** No run is longer than the
programs; as long as one of them has not ended, some thread can go on without an exception and
without a refusal; so they can all be brought to their ends, and then no lock is held. -/
theorem ordered_scopes_end [Fintype Tid] {Λ : Type} [LinearOrder Λ] (rank : M ⊕ L → Λ)
    {progs : Tid → Prog (Guarded M L)}
    (hordered : ∀ t, (progs t).Ordered (fun r => rank r.lock) [])
    {es : List (Scopes.Event Tid)} {s : Scopes.State Tid (Guarded M L) (Locks Tid M L)}
    (h : run (Scopes.step guards) (Scopes.init Locks.free progs) es = some s) :
    es.length ≤ ∑ t, ((progs t).size + 1) ∧
    ((¬ ∀ t, (s.tasks t).Ended) →
      ∃ e s', e.proceeds = true ∧ Scopes.step guards s e = some s') ∧
    ∃ es' s', (∀ e ∈ es', e.proceeds = true) ∧ run (Scopes.step guards) s es' = some s' ∧
      (∀ t, (s'.tasks t).Ended) ∧ ∀ t r, s'.locks.holds t r = 0 := by
  have hinit : Balanced Locks.holds (Scopes.init (Locks.free : Locks Tid M L) progs) :=
    balanced_init Locks.holds_free progs
  have hs := balanced_run guards_lawful Locks.holds_free h
  have hs' := run_invariant_of_step (fun _ _ _ hi hs => ordered_step hi hs)
    (ordered_init (l := (Locks.free : Locks Tid M L)) hordered) h
  refine ⟨?_, progress (guards_freeAt rank) hs hs', ?_⟩
  · have hleft := run_left guards_lawful hinit h
    have hbegin : total Task.size (Scopes.init (Locks.free : Locks Tid M L) progs).tasks
        = ∑ t, ((progs t).size + 1) := rfl
    omega
  · obtain ⟨es', s₁, hes', hrun, hended⟩ :=
      exists_ended guards_lawful (guards_freeAt rank) hs hs'
    have hbalanced := run_invariant_of_step
      (fun _ _ _ hi h => balanced_step guards_lawful hi h) hs hrun
    refine ⟨es', s₁, hes', hrun, hended, fun t r => ?_⟩
    rw [hbalanced.holds, (hended t).scopes_eq]
    rfl

end Guards

/-! ## Two mutexes and a read-write lock -/

/-- The programs of two threads: one takes the mutexes in order and then reads, the other reads and
then takes the second mutex in a `try` block. -/
def twoMutexes : Bool → Prog (Guarded Bool Unit)
  | false => .scope (.rwlock .read ()) (.scope (.mutex false) (.scope (.mutex true) .done .done)
      .done) .done
  | true => .attempt (.scope (.rwlock .write ()) (.scope (.mutex true) .done .done) .done) .done

/-- The first thread throws in the first mutex and leaves its two scopes, and the second one writes
then, in the second mutex. -/
def twoMutexesRun : List (Scopes.Event Bool) :=
  [.construct false 0, .enter true, .construct false 0, .throw false, .unwind false, .unwind false,
   .construct true 0, .construct true 0]

theorem twoMutexes_runs : (run (Scopes.step guards) (Scopes.init Locks.free twoMutexes)
    twoMutexesRun).isSome = true := by decide

theorem guarded_scopes_twoMutexes :
    ∃ s, run (Scopes.step guards) (Scopes.init Locks.free twoMutexes) twoMutexesRun = some s ∧
      (s.tasks true).scopes = [.mutex true, .rwlock .write ()] ∧
      .mutex true ∉ (s.tasks false).scopes ∧ .rwlock .read () ∉ (s.tasks false).scopes ∧
      (s.tasks false).Ended ∧ s.locks.holds false (.mutex false) = 0 ∧
      s.locks.holds true (.mutex true) = (s.tasks true).scopes.count (.mutex true) := by
  have hrun := (Option.some_get twoMutexes_runs).symm
  obtain ⟨hmutex, hwrite, hholds, hended, -⟩ := guarded_scopes hrun
  exact ⟨_, hrun, by decide, (hmutex true true (by decide)).2 false (by decide),
    (hwrite true () (by decide)).2.2 false (by decide) .read, by decide,
    hended false (by decide) (.mutex false), hholds true (.mutex true)⟩

/-- The read-write lock comes first, and then the two mutexes. -/
def twoMutexesRank : Bool ⊕ Unit → Nat
  | .inr _ => 0
  | .inl false => 1
  | .inl true => 2

theorem ordered_scopes_end_twoMutexes :
    ∃ s, run (Scopes.step guards) (Scopes.init Locks.free twoMutexes) twoMutexesRun = some s ∧
      ∃ es' s', (∀ e ∈ es', e.proceeds = true) ∧ run (Scopes.step guards) s es' = some s' ∧
        (∀ t, (s'.tasks t).Ended) ∧ ∀ t r, s'.locks.holds t r = 0 :=
  ⟨_, (Option.some_get twoMutexes_runs).symm,
    (ordered_scopes_end twoMutexesRank (by decide) (Option.some_get twoMutexes_runs).symm).2.2⟩

/-- Two threads that take two mutexes crosswise. -/
def crossed : Bool → Prog (Guarded Bool Unit) := fun t =>
  .scope (.mutex t) (.scope (.mutex !t) .done .done) .done

theorem crossed_runs : (run (Scopes.step guards) (Scopes.init Locks.free crossed)
    [.construct false 0, .construct true 0]).isSome = true := by decide

/-- They wait for each other for ever. -/
theorem crossed_stuck :
    ∃ s, run (Scopes.step guards) (Scopes.init Locks.free crossed)
        [.construct false 0, .construct true 0] = some s ∧
      (¬ ∀ t, (s.tasks t).Ended) ∧
      ∀ t, (Scopes.step guards s (.construct t 0)).isNone = true ∧
        (Scopes.step guards s (.leave t)).isNone = true ∧
        (Scopes.step guards s (.enter t)).isNone = true ∧
        (Scopes.step guards s (.unwind t)).isNone = true :=
  ⟨_, (Option.some_get crossed_runs).symm, by decide, by decide⟩

end CppPthread
