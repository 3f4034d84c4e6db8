import CppPthread.Basic.Parts
import CppPthread.Exceptions
import CppPthread.Mutex.Guards

set_option autoImplicit false

/-! # What the objects hold of the system

A `mutex`, a `condition_variable` and a `read_write_lock` hold an object of the pthread library
each, which their constructors initialise and their destructors destroy. A `sync_queue` has three
of them as members. The constructors throw when the initialisation fails. Of the destructors only
the one of `condition_variable` looks at the return code, and it throws, too.

For programs that construct and destroy such objects, and objects of other classes with such
members, this is the machine of `Basic/Parts.lean`.
-/

namespace CppPthread

open Run Parts

/-- What is initialised and destroyed. -/
inductive Resource where
  | mutex
  | conditionVariable
  | readWriteLock
  deriving DecidableEq

inductive ResourceException where
  | mutex (e : MutexException)
  | conditionVariable (e : PthreadException)
  | readWriteLock (e : ReadWriteLockException)
  deriving DecidableEq

/-- `mutex()`, where `pthread_mutex_init` returns `rc`. -/
def Mutex.construct (rc : Int) : Option MutexException :=
  if rc ≠ 0 then
    some ⟨"In constructor of mutex pthread_mutex_init(&mutex, NULL) failed. ", rc⟩
  else none

/-- `~mutex()`. What `pthread_mutex_destroy` returns is ignored. -/
def Mutex.destroy (_rc : Int) : Option MutexException := none

/-- `condition_variable()` -/
def ConditionVariable.construct (rc : Int) : Option PthreadException :=
  if rc ≠ 0 then some (conditionVariableException "pthread_cond_init failed." rc) else none

/-- `~condition_variable()` -/
def ConditionVariable.destroy (rc : Int) : Option PthreadException :=
  if rc ≠ 0 then
    some (conditionVariableException "pthread condition variable destroy failed." rc)
  else none

/-- `read_lock()`, which is all of `write_lock()`. -/
def ReadLock.construct (rc : Int) : Option ReadWriteLockException :=
  if rc ≠ 0 then some ⟨"Failed to init read/write lock", rc⟩ else none

/-- `~read_lock()` -/
def ReadLock.destroy (_rc : Int) : Option ReadWriteLockException := none

def resources : Behaviour Resource ResourceException where
  construct
    | .mutex, rc => (Mutex.construct rc).map .mutex
    | .conditionVariable, rc => (ConditionVariable.construct rc).map .conditionVariable
    | .readWriteLock, rc => (ReadLock.construct rc).map .readWriteLock
  destroy
    | .mutex, rc => (Mutex.destroy rc).map .mutex
    | .conditionVariable, rc => (ConditionVariable.destroy rc).map .conditionVariable
    | .readWriteLock, rc => (ReadLock.destroy rc).map .readWriteLock

/-- The members of a `sync_queue` that can fail: `_mutex`, `_not_empty_cv` and `_not_full_cv`. -/
def SyncQueue.members : List Resource := [.mutex, .conditionVariable, .conditionVariable]

/-- A constructor returns iff its call does not fail. -/
theorem resources_construct (k : Resource) (rc : Int) :
    resources.construct k rc = none ↔ rc = 0 := by
  cases k <;> simp [resources, Mutex.construct, ConditionVariable.construct, ReadLock.construct]

variable {Obj : Type} [DecidableEq Obj]

/-- The constructor of a `sync_queue`. It ends the process when the initialisation of `_not_full_cv`
fails and so does then the destruction of `_not_empty_cv`. -/
theorem queue_construct {a : Obj} {w : World Obj Resource} (ha : w.parts a = [])
    (init ans : Nat → Int) :
    (constructParts resources a init ans SyncQueue.members w).2 = .terminated ↔
      init w.made = 0 ∧ init (w.made + 1) = 0 ∧ init (w.made + 2) ≠ 0 ∧ ans (w.made + 1) ≠ 0 := by
  -- The first that fails, if any, after members that `ps` lists.
  have hfails : ∀ {k : Resource} {ks : List Resource} {w' : World Obj Resource},
      init w'.made ≠ 0 → ((constructParts resources a init ans (k :: ks) w').2 = .terminated ↔
        thrown resources ans (w'.parts a) ≠ []) := by
    intro k ks w' hinit
    obtain ⟨e, he⟩ := Option.ne_none_iff_exists'.mp (mt (resources_construct k _).mp hinit)
    rw [constructParts_fails he, Ending.of_cons_terminated]
  unfold SyncQueue.members
  by_cases h0 : init w.made = 0
  · rw [constructParts_cons ((resources_construct _ _).mpr h0)]
    by_cases h1 : init (w.made + 1) = 0
    · rw [constructParts_cons ((resources_construct _ _).mpr h1)]
      by_cases h2 : init (w.made + 2) = 0
      · rw [constructParts_cons ((resources_construct _ _).mpr h2)]
        simp [constructParts, h2]
      · rw [hfails h2]
        simp [World.push, thrown, ha, resources, Mutex.destroy, ConditionVariable.destroy, h0, h1,
          h2]
    · rw [hfails h1]
      simp [World.push, thrown, ha, resources, Mutex.destroy, h1]
  · rw [hfails h0]
    simp [thrown, ha, h0]

/-- The destructor of a `sync_queue`. It destroys all members, unless the destructors of both
condition variables throw. -/
theorem queue_destroy {a : Obj} {w : World Obj Resource} {m c₁ c₂ : Nat}
    (ha : w.parts a = [(.conditionVariable, c₂), (.conditionVariable, c₁), (.mutex, m)])
    (ans : Nat → Int) :
    ((destroyParts resources a ans (w.parts a) none w).2 = .returned ↔ ans c₂ = 0 ∧ ans c₁ = 0) ∧
    ((destroyParts resources a ans (w.parts a) none w).2 = .terminated ↔
      ans c₂ ≠ 0 ∧ ans c₁ ≠ 0) ∧
    ((destroyParts resources a ans (w.parts a) none w).2 ≠ .terminated →
      (destroyParts resources a ans (w.parts a) none w).1.destroyed
        = w.destroyed ++ [c₂, c₁, m]) := by
  rw [ha]
  by_cases h2 : ans c₂ = 0
  · by_cases h1 : ans c₁ = 0
    · simp [destroyParts, World.pop, resources, Mutex.destroy, ConditionVariable.destroy, h1, h2]
    · simp [destroyParts, World.pop, resources, Mutex.destroy, ConditionVariable.destroy, h1, h2]
  · by_cases h1 : ans c₁ = 0
    · simp [destroyParts, World.pop, resources, Mutex.destroy, ConditionVariable.destroy, h1, h2]
    · simp [destroyParts, World.pop, resources, ConditionVariable.destroy, h1, h2]

/-- **No pthread object leaks, and none is destroyed twice.** Whatever is constructed and destroyed,
and whichever calls fail: every pthread object that has been initialised is a member of exactly one
object, in one place, or has been passed to its destroy function once. As long as the process has
not been ended, every object has all its members, and of a failed constructor nothing is left. The
constructor of a `sync_queue` returns iff its three calls succeed. It ends the process only when a
condition variable cannot be destroyed in it, and the destructor only when neither of the two can;
otherwise the destructor has destroyed all three members, also when it throws. -/
theorem resources_released {ops : List (Parts.Op Obj Resource)} {s : Parts.State Obj Resource}
    (h : run (Parts.step resources) Parts.State.empty ops = some s) :
    (∀ n < s.world.made, n ∉ s.world.destroyed ↔ ∃ a i, slots s.world.parts (a, i) = some n) ∧
    (∀ a b i j n, slots s.world.parts (a, i) = some n → slots s.world.parts (b, j) = some n →
      a = b ∧ i = j) ∧
    s.world.destroyed.Nodup ∧
    (s.terminated = false →
      (∀ a, (s.world.parts a).map Prod.fst = ((s.objects a).getD []).reverse) ∧
      (∀ a init ans, s.objects a = none →
        ((constructParts resources a init ans SyncQueue.members s.world).2 = .returned ↔
          init s.world.made = 0 ∧ init (s.world.made + 1) = 0 ∧ init (s.world.made + 2) = 0) ∧
        ((constructParts resources a init ans SyncQueue.members s.world).2 = .terminated ↔
          init s.world.made = 0 ∧ init (s.world.made + 1) = 0 ∧ init (s.world.made + 2) ≠ 0 ∧
            ans (s.world.made + 1) ≠ 0)) ∧
      (∀ a ans, s.objects a = some SyncQueue.members → ∃ m c₁ c₂,
        s.world.parts a = [(.conditionVariable, c₂), (.conditionVariable, c₁), (.mutex, m)] ∧
        ((destroyParts resources a ans (s.world.parts a) none s.world).2 = .returned ↔
          ans c₂ = 0 ∧ ans c₁ = 0) ∧
        ((destroyParts resources a ans (s.world.parts a) none s.world).2 = .terminated ↔
          ans c₂ ≠ 0 ∧ ans c₁ ≠ 0) ∧
        ((destroyParts resources a ans (s.world.parts a) none s.world).2 ≠ .terminated →
          (destroyParts resources a ans (s.world.parts a) none s.world).1.destroyed
            = s.world.destroyed ++ [c₂, c₁, m]))) := by
  have howned : s.world.Owned := run_owned owned_empty h
  have hwhole : s.Whole := run_whole (fun _ _ => rfl) h
  refine ⟨fun n hn => ?_, fun a b i j n ha hb => ?_, howned.nodup, fun halive =>
    ⟨hwhole halive, fun a init ans hfree => ⟨?_, queue_construct ?_ init ans⟩,
      fun a ans hobj => ?_⟩⟩
  · have hheld := howned.held_iff n
    rw [List.mem_range, and_iff_right hn] at hheld
    rw [← hheld, Prod.exists]
  · exact Prod.mk.inj (howned.unique ha hb)
  · rw [(constructParts_spec init ans).1]
    constructor
    · intro hall
      exact ⟨(resources_construct _ _).mp (hall 0 _ rfl),
        (resources_construct _ _).mp (hall 1 _ rfl), (resources_construct _ _).mp (hall 2 _ rfl)⟩
    · rintro ⟨h0, h1, h2⟩ i k hi
      rw [resources_construct]
      match i, hi with
      | 0, _ => exact h0
      | 1, _ => exact h1
      | 2, _ => exact h2
      | i + 3, hi => simp [SyncQueue.members] at hi
  · have hempty := hwhole halive a
    rw [hfree] at hempty
    exact List.map_eq_nil_iff.mp hempty
  · have hmembers := hwhole halive a
    rw [hobj] at hmembers
    obtain ⟨m, c₁, c₂, hparts⟩ : ∃ m c₁ c₂, s.world.parts a
        = [(.conditionVariable, c₂), (.conditionVariable, c₁), (.mutex, m)] := by
      match hp : s.world.parts a, hmembers with
      | [(k₂, c₂), (k₁, c₁), (k₀, m)], hmembers =>
          simp only [List.map_cons, List.map_nil, SyncQueue.members, Option.getD_some,
            List.reverse_cons, List.reverse_nil, List.nil_append, List.cons_append,
            List.cons.injEq, and_true] at hmembers
          obtain ⟨rfl, rfl, rfl⟩ := hmembers
          exact ⟨m, c₁, c₂, rfl⟩
      | [], hmembers | [_], hmembers | [_, _], hmembers | _ :: _ :: _ :: _ :: _, hmembers =>
          simp [SyncQueue.members] at hmembers
    exact ⟨m, c₁, c₂, hparts, queue_destroy hparts ans⟩

/-- A queue; another one, whose third member fails; a lock in its place; and the destructor of the
first, in which one condition variable is busy. -/
def busyQueue : List (Parts.Op Nat Resource) :=
  [.construct 0 SyncQueue.members (fun _ => 0) (fun _ => 0),
   .construct 1 SyncQueue.members (fun n => if n = 5 then 12 else 0) (fun _ => 0),
   .construct 1 [.readWriteLock] (fun _ => 0) (fun _ => 0),
   .destroy 0 (fun n => if n = 2 then 16 else 0)]

theorem busyQueue_runs :
    (run (Parts.step resources) Parts.State.empty busyQueue).isSome = true := by decide

theorem resources_released_busyQueue :
    ∃ s, run (Parts.step resources) Parts.State.empty busyQueue = some s ∧ s.world.made = 6 ∧
      s.world.destroyed = [4, 3, 2, 1, 0] ∧
      (5 ∉ s.world.destroyed ↔ ∃ a i, slots s.world.parts (a, i) = some 5) :=
  ⟨_, (Option.some_get busyQueue_runs).symm, by decide, by decide,
    (resources_released (Option.some_get busyQueue_runs).symm).1 5 (by decide)⟩

end CppPthread
