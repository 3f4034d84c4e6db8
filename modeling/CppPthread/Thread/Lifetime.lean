import CppPthread.Thread.Objects

set_option autoImplicit false

/-! # The threads of a group and the group itself

A thread that a member was started with executes the member's `run()`, on the object that the
group deletes in its destructor. Here the threads run while their owner goes through `start()`,
`join()` and the destructor, one member at a time: between any two of its steps some of the
threads may end (`finish`). `pthread_join` waits: it returns `0`, or reports that there is no such
thread, only when the thread has ended (`awaited`).

The invariant (`Kept`) says that a thread in its `run()` is the one that the member's `thread`
object has the id of, and that the destructor deletes each member once. It is kept by every step
that adds no member again, starts no joinable member and deletes none without joining it
(`Careful`). So the destructor that joins first outlives all the threads, and so does a `join()`
that returns. Without that care the objects of running threads are deleted, and a member that was
added twice is deleted twice.
-/

namespace CppPthread

open Posix Run

/-- Where the owner of the group is: between two calls, or in a call with the rest of the list
that the loop goes through. -/
inductive OwnerPc (Mem : Type) where
  | ready
  | starting (ms : List Mem)
  | joining (ms : List Mem)
  /-- In the destructor, which takes the members off the list itself. -/
  | destroying
  | gone
  deriving DecidableEq

/-- The member that the loop of `start()` or `join()` is at. -/
def OwnerPc.next {Mem : Type} : OwnerPc Mem → Option Mem
  | .starting ms | .joining ms => ms.head?
  | _ => none

/-- What the owner and the threads do, with what the system answers. -/
inductive LifetimeEvent (Mem Obj : Type) where
  | add (m : Mem)
  | callStart
  /-- `(*iterator)->start()` in the loop of `start()`. -/
  | startNext (a : Obj) (ans : Answers)
  | callJoin
  /-- The body of the loop of `join()`. -/
  | joinNext (rc : Int)
  | startOne (m : Mem) (a : Obj) (ans : Answers)
  | joinOne (m : Mem) (rc : Int)
  | callDestructor
  /-- The body of the loop of the destructor. -/
  | destroyNext (rc : Int)
  /-- The loop ends and the call returns. -/
  | ret
  /-- The `run()` of a member returns in the thread `id`. -/
  | finish (m : Mem) (id : Nat)

/-- A step of the destructor whose join, if there is one, succeeds, or the end of a `run()`. -/
def LifetimeEvent.cleansUp {Mem Obj : Type} : LifetimeEvent Mem Obj → Bool
  | .destroyNext rc => decide (rc = 0)
  | .ret | .finish _ _ => true
  | _ => false

structure Lifetime (Mem Obj : Type) where
  group : ThreadGroup Mem Obj
  /-- The threads in a `run()`, with the member whose `run()` it is. -/
  running : List (Mem × Nat)
  deleted : List Mem
  pc : OwnerPc Mem

namespace Lifetime

variable {Mem Obj : Type} [DecidableEq Mem] [DecidableEq Obj] (stackMin : Nat) (joinsFirst : Bool)
  (owner : Nat)

def init (stackSize : Mem → Nat) : Lifetime Mem Obj :=
  ⟨ThreadGroup.empty stackSize, [], [], .ready⟩

omit [DecidableEq Mem] [DecidableEq Obj] in
/-- A join of the member can end with this answer of `pthread_join`, if it gets to call it. -/
def awaited (s : Lifetime Mem Obj) (m : Mem) (rc : Int) : Bool :=
  !(decide (rc = 0) || decide (rc = ESRCH)) ||
    (s.group.memberJoinCalls m owner).all fun id => s.running.all fun r => decide (r.2 ≠ id)

/-- `abstract_thread::start()`. The owner is running, so that its id is not given to another
thread. `pc` is where the owner goes on when it returns. -/
def startMember (s : Lifetime Mem Obj) (pc : OwnerPc Mem) (m : Mem) (a : Obj) (ans : Answers) :
    Option (Lifetime Mem Obj) :=
  if ans.create = 0 ∧ ans.id = owner then none
  else (s.group.startMember stackMin m a ans).map fun
    | (g, none) => { s with group := g, running := (m, ans.id) :: s.running, pc := pc }
    | (g, some _) => { s with group := g, pc := .ready }

/-- `abstract_thread::join()` -/
def joinMember (s : Lifetime Mem Obj) (pc : OwnerPc Mem) (m : Mem) (rc : Int) :
    Option (Lifetime Mem Obj) :=
  if s.awaited owner m rc then (s.group.joinMember m owner rc).map fun
    | (g, none) => { s with group := g, pc := pc }
    | (g, some _) => { s with group := g, pc := .ready }
  else none

/-- An exception leaves a loop, and the owner may go on with the next call. `add()` puts any member
at the end of the list, also one that is in it. To delete a member a second time is undefined; here
it is only recorded in `deleted`. -/
def step (s : Lifetime Mem Obj) : LifetimeEvent Mem Obj → Option (Lifetime Mem Obj)
  | .add m =>
      if s.pc = .ready then
        some { s with group := { s.group with threads := s.group.threads ++ [m] } }
      else none
  | .callStart => if s.pc = .ready then some { s with pc := .starting s.group.threads } else none
  | .startNext a ans =>
      match s.pc with
      | .starting (m :: ms) => s.startMember stackMin owner (.starting ms) m a ans
      | _ => none
  | .callJoin => if s.pc = .ready then some { s with pc := .joining s.group.threads } else none
  | .joinNext rc =>
      match s.pc with
      | .joining (m :: ms) =>
          if s.group.memberJoinable m then s.joinMember owner (.joining ms) m rc
          else some { s with pc := .joining ms }
      | _ => none
  | .startOne m a ans =>
      if s.pc = .ready then s.startMember stackMin owner .ready m a ans else none
  | .joinOne m rc => if s.pc = .ready then s.joinMember owner .ready m rc else none
  | .callDestructor => if s.pc = .ready then some { s with pc := .destroying } else none
  | .destroyNext rc =>
      match s.pc, s.group.threads with
      | .destroying, m :: ms =>
          if joinsFirst && s.group.memberJoinable m && !s.awaited owner m rc then none
          else
            match ThreadGroup.destroyFront stackMin joinsFirst owner (fun _ => rc)
                { s.group with threads := ms } m with
            | some (_, g, none) => some { s with group := g, deleted := m :: s.deleted }
            | _ => none
      | _, _ => none
  | .ret =>
      match s.pc, s.group.threads with
      | .starting [], _ | .joining [], _ => some { s with pc := .ready }
      | .destroying, [] => some { s with pc := .gone }
      | _, _ => none
  | .finish m id =>
      if (m, id) ∈ s.running then
        some { s with running := s.running.filter fun r => decide (r ≠ (m, id)) }
      else none

/-- The step adds no member that is in the list, it starts none that is joinable at that time, and
the destructor deletes a joinable member only when it has joined it. -/
def Careful (s : Lifetime Mem Obj) : LifetimeEvent Mem Obj → Prop
  | .add m => m ∉ s.group.threads
  | .startNext _ _ => ∀ m ∈ s.pc.next, s.group.memberJoinable m = false
  | .startOne m _ _ => s.group.memberJoinable m = false
  | .destroyNext rc => ∀ m ∈ s.group.threads.head?, s.group.memberJoinable m = true →
      joinsFirst = true ∧ (rc = 0 ∨ rc = ESRCH)
  | _ => True

omit [DecidableEq Obj] in
instance (s : Lifetime Mem Obj) : DecidablePred (s.Careful joinsFirst)
  | .add m => inferInstanceAs (Decidable (m ∉ s.group.threads))
  | .startNext _ _ =>
      inferInstanceAs (Decidable (∀ m ∈ s.pc.next, s.group.memberJoinable m = false))
  | .startOne m _ _ => inferInstanceAs (Decidable (s.group.memberJoinable m = false))
  | .destroyNext rc => inferInstanceAs (Decidable (∀ m ∈ s.group.threads.head?,
      s.group.memberJoinable m = true → joinsFirst = true ∧ (rc = 0 ∨ rc = ESRCH)))
  | .callStart | .callJoin | .joinNext _ | .joinOne _ _ | .callDestructor | .ret
  | .finish _ _ => isTrue trivial

/-! ## What holds in every run -/

/-- Every member that has been started has an object of its own, and none is deleted before the
destructor. -/
structure Sound (s : Lifetime Mem Obj) : Prop where
  shape : s.group.Shape
  foreign : owner ∉ s.group.pool.os.created
  phase : s.pc ≠ .destroying → s.pc ≠ .gone → s.deleted = []

omit [DecidableEq Mem] [DecidableEq Obj] in
theorem sound_init (stackSize : Mem → Nat) : (init stackSize : Lifetime Mem Obj).Sound owner where
  shape := ⟨Pool.ok_empty, fun m a h => (by cases h), fun m n a h _ => (by cases h)⟩
  foreign := List.not_mem_nil
  phase _ _ := rfl

variable {stackMin joinsFirst owner}

theorem startMember_cases {s s' : Lifetime Mem Obj} (hs : s.Sound owner) {pc : OwnerPc Mem}
    {m : Mem} {a : Obj} {ans : Answers} (h : s.startMember stackMin owner pc m a ans = some s') :
    s'.deleted = s.deleted ∧ s'.group.Shape ∧ owner ∉ s'.group.pool.os.created ∧
    s'.group.threads = s.group.threads ∧ (∀ n, n ≠ m → s'.group.object n = s.group.object n) ∧
    ((s'.running = s.running ∧ s'.pc = .ready ∧ s'.group.object m = s.group.object m) ∨
    (s'.running = (m, ans.id) :: s.running ∧ s'.pc = pc ∧
      ∃ t, s'.group.object m = some t ∧ t.thread = ans.id ∧ ans.id ≠ 0)) := by
  unfold startMember at h
  split_ifs at h with howner
  obtain ⟨⟨g, e⟩, hstart, hs'⟩ := Option.map_eq_some_iff.mp h
  obtain ⟨hshape, hthreads, hothers,
      ⟨he, hcreated, hm⟩ | ⟨rfl, hcreate, hcreated, t, hm, hid, hne⟩⟩ :=
    ThreadGroup.startMember_object stackMin hs.shape hstart
  · obtain ⟨e, rfl⟩ := Option.ne_none_iff_exists'.mp he
    subst hs'
    exact ⟨rfl, hshape, hcreated ▸ hs.foreign, hthreads, hothers, .inl ⟨rfl, rfl, hm⟩⟩
  · subst hs'
    refine ⟨rfl, hshape, ?_, hthreads, hothers, .inr ⟨rfl, rfl, t, hm, hid, hid ▸ hne⟩⟩
    show owner ∉ g.pool.os.created
    rw [hcreated, List.mem_append, List.mem_singleton, not_or]
    exact ⟨hs.foreign, fun h => howner ⟨hcreate, h.symm⟩⟩

omit [DecidableEq Mem] [DecidableEq Obj] in
theorem ended_of_awaited {s : Lifetime Mem Obj} {m : Mem} {rc : Int}
    (h : s.awaited owner m rc = true) (hrc : rc = 0 ∨ rc = ESRCH) {id : Nat}
    (hid : id ∈ s.group.memberJoinCalls m owner) {r : Mem × Nat} (hr : r ∈ s.running) :
    r.2 ≠ id := by
  have hall : (s.group.memberJoinCalls m owner).all (fun id =>
      s.running.all fun r => decide (r.2 ≠ id)) = true := by
    unfold awaited at h
    rcases hrc with hrc | hrc <;> simpa [hrc] using h
  simpa using List.all_eq_true.mp (List.all_eq_true.mp hall id hid) r hr

omit [DecidableEq Mem] in
/-- After a join that returns the member is not joinable or its thread has ended. -/
theorem joinMember_cases {s s' : Lifetime Mem Obj} (hs : s.Sound owner) {pc : OwnerPc Mem}
    {m : Mem} {rc : Int} (h : s.joinMember owner pc m rc = some s') :
    s'.deleted = s.deleted ∧ s'.running = s.running ∧ s'.group.Shape ∧
    s'.group.pool.os.created = s.group.pool.os.created ∧ s'.group.threads = s.group.threads ∧
    (s'.pc = .ready ∨ s'.pc = pc) ∧ (∀ n, n ≠ m → s'.group.object n = s.group.object n) ∧
    ((s'.group.object m = s.group.object m ∧
      (s'.pc = .ready ∨ s.group.memberJoinable m = false)) ∨
    ∃ t, s.group.object m = some t ∧ ∀ r ∈ s.running, r.2 ≠ t.thread) := by
  unfold joinMember at h
  split_ifs at h with hawaited
  obtain ⟨g, e, hjoin, hshape, hthreads, hcreated, hothers, hcases⟩ :=
    ThreadGroup.joinMember_object hs.shape m owner rc
  rw [hjoin, Option.map_some] at h
  -- In both cases the thread has ended if `pthread_join` has been called and has not failed.
  have hended : ∀ {t : Thread Obj}, (rc = 0 ∨ rc = ESRCH) →
      s.group.memberJoinCalls m owner = [t.thread] → ∀ r ∈ s.running, r.2 ≠ t.thread :=
    fun hrc hcalls r hr => ended_of_awaited hawaited hrc (by rw [hcalls]; simp) hr
  cases e with
  | none =>
      obtain rfl := Option.some.inj h
      refine ⟨rfl, rfl, hshape, hcreated, hthreads, .inr rfl, hothers, ?_⟩
      rcases hcases with ⟨hm, hnot⟩ | ⟨hrc, t, ht, hcalls⟩
      · exact .inl ⟨hm, .inr (hnot rfl)⟩
      · exact .inr ⟨t, ht, hended hrc hcalls⟩
  | some e =>
      obtain rfl := Option.some.inj h
      refine ⟨rfl, rfl, hshape, hcreated, hthreads, .inl rfl, hothers, ?_⟩
      rcases hcases with ⟨hm, -⟩ | ⟨hrc, t, ht, hcalls⟩
      · exact .inl ⟨hm, .inl rfl⟩
      · exact .inr ⟨t, ht, hended hrc hcalls⟩

/-- The destructor takes the next member off the list and deletes it. If it joins it before, and
the join does not fail, the thread has ended. -/
theorem destroyNext_cases {s s' : Lifetime Mem Obj} (hs : s.Sound owner) {rc : Int}
    (h : s.step stackMin joinsFirst owner (.destroyNext rc) = some s') :
    ∃ m ms, s.pc = .destroying ∧ s.group.threads = m :: ms ∧ s'.pc = .destroying ∧
      s'.group.threads = ms ∧ s'.deleted = m :: s.deleted ∧ s'.running = s.running ∧
      s'.group.Shape ∧ s'.group.pool.os.created = s.group.pool.os.created ∧
      (∀ n, n ≠ m → s'.group.object n = s.group.object n) ∧
      (joinsFirst = true → (rc = 0 ∨ rc = ESRCH) → ∀ t, s.group.object m = some t →
        t.thread ≠ 0 → ∀ r ∈ s.running, r.2 ≠ t.thread) := by
  simp only [step] at h
  split at h
  · rename_i m ms hpc hthreads
    split_ifs at h with hawaited
    obtain ⟨acts, g, hfront, hshape, hthreads', hcreated, hothers⟩ :=
      @ThreadGroup.destroyFront_object Mem Obj _ _ stackMin { s.group with threads := ms }
        ⟨hs.shape.pool, hs.shape.valid, hs.shape.unique⟩ joinsFirst owner (fun _ => rc) m
    simp only [hfront] at h
    obtain rfl := Option.some.inj h
    refine ⟨m, ms, hpc, hthreads, hpc, hthreads', rfl, rfl, hshape, hcreated, hothers,
      fun hfirst hrc t ht hid r hr => ?_⟩
    have hjoinable := ThreadGroup.joinable_iff_object.mpr ⟨t, ht, hid⟩
    rw [hfirst, hjoinable, Bool.true_and, Bool.true_and, Bool.not_eq_true',
      Bool.not_eq_false] at hawaited
    refine ended_of_awaited hawaited hrc ?_ hr
    rw [ThreadGroup.memberJoinCalls_of_joinable hs.shape hs.foreign ht hid]
    exact List.mem_singleton_self _
  · cases h

/-- **The step lemma** for what always holds. -/
theorem step_sound {s s' : Lifetime Mem Obj} {e : LifetimeEvent Mem Obj} (hs : s.Sound owner)
    (h : s.step stackMin joinsFirst owner e = some s') : s'.Sound owner := by
  have hstart : ∀ {pc : OwnerPc Mem} {m : Mem} {a : Obj} {ans : Answers}, s.deleted = [] →
      s.startMember stackMin owner pc m a ans = some s' → s'.Sound owner := by
    intro pc m a ans hnone h
    obtain ⟨hdeleted, hshape, hforeign, -⟩ := startMember_cases hs h
    exact ⟨hshape, hforeign, fun _ _ => hdeleted.trans hnone⟩
  have hjoin : ∀ {pc : OwnerPc Mem} {m : Mem} {rc : Int}, s.deleted = [] →
      s.joinMember owner pc m rc = some s' → s'.Sound owner := by
    intro pc m rc hnone h
    obtain ⟨hdeleted, -, hshape, hcreated, -⟩ := joinMember_cases hs h
    exact ⟨hshape, hcreated ▸ hs.foreign, fun _ _ => hdeleted.trans hnone⟩
  have hpc : ∀ {pc : OwnerPc Mem}, s.deleted = [] ∨ pc = .destroying ∨ pc = .gone →
      Sound owner { s with pc := pc } := fun hnone =>
    ⟨hs.shape, hs.foreign, fun h₁ h₂ => hnone.resolve_right fun h => h.elim h₁ h₂⟩
  cases e with
  | add m =>
      simp only [step] at h
      split_ifs at h with hready
      obtain rfl := Option.some.inj h
      exact ⟨⟨hs.shape.pool, hs.shape.valid, hs.shape.unique⟩, hs.foreign, hs.phase⟩
  | callStart =>
      simp only [step] at h
      split_ifs at h with hready
      obtain rfl := Option.some.inj h
      exact hpc (.inl (hs.phase (by simp [hready]) (by simp [hready])))
  | startNext a ans =>
      simp only [step] at h
      split at h
      · rename_i hat
        exact hstart (hs.phase (by simp [hat]) (by simp [hat])) h
      · cases h
  | callJoin =>
      simp only [step] at h
      split_ifs at h with hready
      obtain rfl := Option.some.inj h
      exact hpc (.inl (hs.phase (by simp [hready]) (by simp [hready])))
  | joinNext rc =>
      simp only [step] at h
      split at h
      · rename_i hat
        have hnone : s.deleted = [] := hs.phase (by simp [hat]) (by simp [hat])
        split_ifs at h
        · exact hjoin hnone h
        · obtain rfl := Option.some.inj h
          exact hpc (.inl hnone)
      · cases h
  | startOne m a ans =>
      simp only [step] at h
      split_ifs at h with hready
      exact hstart (hs.phase (by simp [hready]) (by simp [hready])) h
  | joinOne m rc =>
      simp only [step] at h
      split_ifs at h with hready
      exact hjoin (hs.phase (by simp [hready]) (by simp [hready])) h
  | callDestructor =>
      simp only [step] at h
      split_ifs at h
      obtain rfl := Option.some.inj h
      exact hpc (.inr (.inl rfl))
  | destroyNext rc =>
      obtain ⟨m, ms, -, -, hpc', -, -, -, hshape, hcreated, -⟩ := destroyNext_cases hs h
      exact ⟨hshape, hcreated ▸ hs.foreign, fun h₁ => absurd hpc' h₁⟩
  | ret =>
      simp only [step] at h
      split at h
      · rename_i hat
        obtain rfl := Option.some.inj h
        exact hpc (.inl (hs.phase (by simp [hat]) (by simp [hat])))
      · rename_i hat
        obtain rfl := Option.some.inj h
        exact hpc (.inl (hs.phase (by simp [hat]) (by simp [hat])))
      · obtain rfl := Option.some.inj h
        exact hpc (.inr (.inr rfl))
      · cases h
  | finish m id =>
      simp only [step] at h
      split_ifs at h
      obtain rfl := Option.some.inj h
      exact ⟨hs.shape, hs.foreign, hs.phase⟩

/-! ## What careful steps keep -/

/-- A thread in its `run()` is the one that the object of its member has the id of, and the member
exists. A loop of joins has the members of all these threads still before it. Each member is deleted
once. -/
structure Kept (s : Lifetime Mem Obj) : Prop where
  running : ∀ m id, (m, id) ∈ s.running →
    ∃ t, s.group.object m = some t ∧ t.thread = id ∧ id ≠ 0
  alive : ∀ m id, (m, id) ∈ s.running → m ∉ s.deleted
  joined : ∀ ms, s.pc = .joining ms → ∀ m id, (m, id) ∈ s.running → m ∈ s.group.threads → m ∈ ms
  once : (s.deleted ++ s.group.threads).Nodup

omit [DecidableEq Mem] [DecidableEq Obj] in
theorem kept_init (stackSize : Mem → Nat) : (init stackSize : Lifetime Mem Obj).Kept :=
  ⟨fun m id h => (by cases h), fun m id h => (by cases h), fun ms h => (by cases h), List.nodup_nil⟩

omit [DecidableEq Mem] [DecidableEq Obj] in
/-- The member of a running thread is joinable. -/
theorem Kept.joinable {s : Lifetime Mem Obj} (hk : s.Kept) {m : Mem} {id : Nat}
    (h : (m, id) ∈ s.running) : s.group.memberJoinable m = true := by
  obtain ⟨t, ht, hid, hne⟩ := hk.running m id h
  exact ThreadGroup.joinable_iff_object.mpr ⟨t, ht, hid ▸ hne⟩

omit [DecidableEq Mem] [DecidableEq Obj] in
/-- A step that only moves the owner, to a place that is not in a loop of joins. -/
theorem Kept.move {s : Lifetime Mem Obj} (hk : s.Kept) {pc : OwnerPc Mem}
    (hpc : ∀ ms, pc ≠ .joining ms) : Kept { s with pc := pc } :=
  ⟨hk.running, hk.alive, fun ms h => absurd h (hpc ms), hk.once⟩

theorem kept_startMember {s s' : Lifetime Mem Obj} (hs : s.Sound owner) (hk : s.Kept)
    (hnone : s.deleted = []) {pc : OwnerPc Mem} (hpc : ∀ ms, pc ≠ .joining ms) {m : Mem} {a : Obj}
    {ans : Answers} (hm : s.group.memberJoinable m = false)
    (h : s.startMember stackMin owner pc m a ans = some s') : s'.Kept := by
  obtain ⟨hdeleted, -, -, hthreads, hothers, hcases⟩ := startMember_cases hs h
  -- No thread runs for `m`, as it is not joinable.
  have hold : ∀ n id, (n, id) ∈ s.running →
      ∃ t, s'.group.object n = some t ∧ t.thread = id ∧ id ≠ 0 := by
    intro n id hn
    have hnm : n ≠ m := by
      rintro rfl
      rw [hk.joinable hn] at hm
      cases hm
    rw [hothers n hnm]
    exact hk.running n id hn
  have halive : ∀ n id, (n, id) ∈ s'.running → n ∉ s'.deleted := by
    intro n id _
    rw [hdeleted, hnone]
    exact List.not_mem_nil
  have honce : (s'.deleted ++ s'.group.threads).Nodup := by
    rw [hdeleted, hthreads]
    exact hk.once
  rcases hcases with ⟨hrunning, hready, -⟩ | ⟨hrunning, hready, t, ht, hid, hne⟩
  · refine ⟨?_, halive, fun ms h => (by rw [hready] at h; cases h), honce⟩
    rw [hrunning]
    exact hold
  · refine ⟨fun n id hn => ?_, halive, fun ms h => absurd (hready ▸ h) (hpc ms), honce⟩
    rw [hrunning] at hn
    rcases List.mem_cons.mp hn with heq | hn
    · obtain ⟨rfl, rfl⟩ := Prod.mk.inj heq
      exact ⟨t, ht, hid, hne⟩
    · exact hold n id hn

omit [DecidableEq Obj] in
/-- The step leaves all members but `m` alone, and `m` too if one of its threads is running. -/
theorem Kept.running_of {s s' : Lifetime Mem Obj} (hk : s.Kept) (hrunning : s'.running = s.running)
    {m : Mem} (hothers : ∀ n, n ≠ m → s'.group.object n = s.group.object n)
    (hm : s'.group.object m = s.group.object m ∨ ∀ id, (m, id) ∉ s.running) (n : Mem) (id : Nat)
    (hn : (n, id) ∈ s'.running) : ∃ t, s'.group.object n = some t ∧ t.thread = id ∧ id ≠ 0 := by
  rw [hrunning] at hn
  have hsame : s'.group.object n = s.group.object n := by
    by_cases hnm : n = m
    · subst hnm
      exact hm.resolve_right fun hnone => hnone id hn
    · exact hothers n hnm
  rw [hsame]
  exact hk.running n id hn

omit [DecidableEq Mem] [DecidableEq Obj] in
/-- No thread runs for a member whose thread has ended. -/
theorem Kept.ended {s : Lifetime Mem Obj} (hk : s.Kept) {m : Mem} {t : Thread Obj}
    (ht : s.group.object m = some t) (hended : ∀ r ∈ s.running, r.2 ≠ t.thread) (id : Nat) :
    (m, id) ∉ s.running := by
  intro hm
  obtain ⟨u, hu, hid, -⟩ := hk.running m id hm
  obtain rfl : t = u := Option.some.inj (ht.symm.trans hu)
  exact hended _ hm hid.symm

theorem kept_joinMember {s s' : Lifetime Mem Obj} (hs : s.Sound owner) (hk : s.Kept)
    {pc : OwnerPc Mem} {m : Mem} {rc : Int} (h : s.joinMember owner pc m rc = some s')
    (hpc : ∀ ms, pc = .joining ms → s.pc = .joining (m :: ms)) : s'.Kept := by
  obtain ⟨hdeleted, hrunning, -, -, hthreads, hat, hothers, hm⟩ := joinMember_cases hs h
  have hm' : (s'.group.object m = s.group.object m ∧
      (s'.pc = .ready ∨ s.group.memberJoinable m = false)) ∨ ∀ id, (m, id) ∉ s.running :=
    hm.imp_right fun ⟨t, ht, hended⟩ id => hk.ended ht hended id
  refine ⟨hk.running_of hrunning hothers (hm'.imp_left And.left), ?_,
    fun ms hms n id hn hmem => ?_, ?_⟩
  · rw [hrunning, hdeleted]
    exact hk.alive
  · rw [hrunning] at hn
    rw [hthreads] at hmem
    have hready : s'.pc ≠ .ready := by simp [hms]
    -- The loop has been at `m`, for which no thread runs any more.
    have hbefore := hk.joined _ (hpc ms ((hat.resolve_left hready) ▸ hms)) n id hn hmem
    refine (List.mem_cons.mp hbefore).resolve_left ?_
    rintro rfl
    rcases hm' with ⟨-, hnot⟩ | hnone
    · have hj := hnot.resolve_left hready
      rw [hk.joinable hn] at hj
      cases hj
    · exact hnone id hn
  · rw [hdeleted, hthreads]
    exact hk.once

theorem kept_destroyNext {s s' : Lifetime Mem Obj} (hs : s.Sound owner) (hk : s.Kept) {rc : Int}
    (hcareful : s.Careful joinsFirst (.destroyNext rc))
    (h : s.step stackMin joinsFirst owner (.destroyNext rc) = some s') : s'.Kept := by
  obtain ⟨m, ms, -, hthreads, hpc, hthreads', hdeleted, hrunning, -, -, hothers, hended⟩ :=
    destroyNext_cases hs h
  have hnone : ∀ id, (m, id) ∉ s.running := by
    intro id hm
    obtain ⟨t, ht, hid, hne⟩ := hk.running m id hm
    obtain ⟨hfirst, hrc⟩ := hcareful m (by simp [hthreads]) (hk.joinable hm)
    exact hk.ended ht (hended hfirst hrc t ht (hid ▸ hne)) id hm
  refine ⟨hk.running_of hrunning hothers (.inr hnone), fun n id hn => ?_,
    fun ms h => (by rw [hpc] at h; cases h), ?_⟩
  · rw [hrunning] at hn
    rw [hdeleted, List.mem_cons, not_or]
    refine ⟨?_, hk.alive n id hn⟩
    rintro rfl
    exact hnone id hn
  · -- The member goes from the list to those that are deleted.
    have hold := hk.once
    rw [hthreads] at hold
    rw [hdeleted, hthreads', List.cons_append]
    exact List.nodup_middle.mp hold

/-- **The step lemma** for careful steps. -/
theorem step_kept {s s' : Lifetime Mem Obj} {e : LifetimeEvent Mem Obj} (hs : s.Sound owner)
    (hk : s.Kept) (hcareful : s.Careful joinsFirst e)
    (h : s.step stackMin joinsFirst owner e = some s') : s'.Kept := by
  cases e with
  | add m =>
      simp only [step] at h
      split_ifs at h with hready
      obtain rfl := Option.some.inj h
      refine ⟨hk.running, hk.alive,
        fun ms h => (by rw [show _ = _ from hready] at h; cases h), ?_⟩
      -- Nothing has been deleted, and the member is not in the list.
      have hnone : s.deleted = [] := hs.phase (by simp [hready]) (by simp [hready])
      have hold := hk.once
      simp only [hnone, List.nil_append] at hold ⊢
      refine List.nodup_append.mpr ⟨hold, List.nodup_singleton m, fun n hn k hk => ?_⟩
      rw [List.mem_singleton.mp hk]
      exact ne_of_mem_of_not_mem hn hcareful
  | callStart =>
      simp only [step] at h
      split_ifs at h
      obtain rfl := Option.some.inj h
      exact hk.move fun _ h => by cases h
  | startNext a ans =>
      simp only [step] at h
      split at h
      · rename_i m ms hat
        exact kept_startMember hs hk (hs.phase (by simp [hat]) (by simp [hat]))
          (fun _ h => by cases h) (hcareful m (by simp [hat, OwnerPc.next])) h
      · cases h
  | callJoin =>
      simp only [step] at h
      split_ifs at h
      obtain rfl := Option.some.inj h
      refine ⟨hk.running, hk.alive, fun ms h m id _ hm => ?_, hk.once⟩
      rw [← OwnerPc.joining.inj h]
      exact hm
  | joinNext rc =>
      simp only [step] at h
      split at h
      · rename_i m ms hat
        split_ifs at h with hj
        · refine kept_joinMember hs hk h fun ms' h => ?_
          rw [← OwnerPc.joining.inj h]
          exact hat
        · obtain rfl := Option.some.inj h
          refine ⟨hk.running, hk.alive, fun ms' h n id hn hmem => ?_, hk.once⟩
          rw [← OwnerPc.joining.inj h]
          refine (List.mem_cons.mp (hk.joined _ hat n id hn hmem)).resolve_left ?_
          rintro rfl
          exact hj (hk.joinable hn)
      · cases h
  | startOne m a ans =>
      simp only [step] at h
      split_ifs at h with hready
      exact kept_startMember hs hk (hs.phase (by simp [hready]) (by simp [hready]))
        (fun _ h => by cases h) hcareful h
  | joinOne m rc =>
      simp only [step] at h
      split_ifs at h
      exact kept_joinMember hs hk h fun _ h => by cases h
  | callDestructor =>
      simp only [step] at h
      split_ifs at h
      obtain rfl := Option.some.inj h
      exact hk.move fun _ h => by cases h
  | destroyNext rc => exact kept_destroyNext hs hk hcareful h
  | ret =>
      simp only [step] at h
      split at h
      · obtain rfl := Option.some.inj h
        exact hk.move fun _ h => by cases h
      · obtain rfl := Option.some.inj h
        exact hk.move fun _ h => by cases h
      · obtain rfl := Option.some.inj h
        exact hk.move fun _ h => by cases h
      · cases h
  | finish m id =>
      simp only [step] at h
      split_ifs at h
      obtain rfl := Option.some.inj h
      exact ⟨fun n id hn => hk.running n id (List.mem_of_mem_filter hn),
        fun n id hn => hk.alive n id (List.mem_of_mem_filter hn),
        fun ms h n id hn => hk.joined ms h n id (List.mem_of_mem_filter hn), hk.once⟩

/-! ## Runs -/

/-- **The run lemma.** -/
theorem run_sound {s s' : Lifetime Mem Obj} {es : List (LifetimeEvent Mem Obj)}
    (hs : s.Sound owner) (h : run (step stackMin joinsFirst owner) s es = some s') :
    s'.Sound owner :=
  run_invariant_of_step (fun _ _ _ hi hs => step_sound hi hs) hs h

theorem run_kept {s s' : Lifetime Mem Obj} {es : List (LifetimeEvent Mem Obj)}
    (hs : s.Sound owner) (hk : s.Kept)
    (hcareful : Along (step stackMin joinsFirst owner) (Careful joinsFirst) s es)
    (h : run (step stackMin joinsFirst owner) s es = some s') : s'.Sound owner ∧ s'.Kept :=
  run_invariant (I := fun s : Lifetime Mem Obj => s.Sound owner ∧ s.Kept)
    (fun _ _ _ hi hc hs => ⟨step_sound hi.1 hs, step_kept hi.1 hi.2 hc hs⟩) ⟨hs, hk⟩ hcareful h

end Lifetime

end CppPthread
