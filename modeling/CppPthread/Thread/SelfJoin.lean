import CppPthread.Thread.Pool

set_option autoImplicit false

/-! # A thread that joins itself

The parent executes `abstract_thread::start()`, step by step: `thread()`, the attributes,
`pthread_create`, which makes the child runnable, the stores of the id and of the status, and
last the store of the pointer `_thread`. The child executes `run()`, which calls `join()` and
`joinable()` of its own `abstract_thread`, one read or store at a time. The two interleave in
any way (`step`).

Both functions go through `_thread`. Until the parent has stored it, it is the pointer of the
previous `start()`, or null: the child then looks at the wrong object, or at none.
-/

namespace CppPthread

open Posix Run

/-- What the parent does next. -/
inductive StartPc where
  /-- `thread()` -/
  | construct
  /-- The first part of `init`. -/
  | prepare
  | create
  | storeId
  | storeStatus
  | storePointer
  | returned
  | threw (e : PthreadException)
  deriving DecidableEq

/-- What the child does next; `a` is the object whose member function it executes. -/
inductive RunPc (Obj : Type) where
  | notCreated
  /-- It is in `run()`, outside the calls. -/
  | running
  /-- `abstract_thread::join()`: the test of `_thread`, and the dereference. -/
  | joinTest
  | joinDeref
  /-- `thread::join()`: the tests of the id, of the id against its own, and of the status. -/
  | testId (a : Obj)
  | testSelf (a : Obj)
  | testStatus (a : Obj)
  | wait (a : Obj)
  | clearStatus (a : Obj)
  | clearId (a : Obj)
  /-- `abstract_thread::joinable()` -/
  | joinableTest
  | joinableDeref
  | joinableId (a : Obj)
  deriving DecidableEq

/-- The child has not been created. -/
def StartPc.starting : StartPc → Bool
  | .construct => true
  | .prepare => true
  | .create => true
  | _ => false

/-- The id has been stored and the pointer has not. -/
def StartPc.stored : StartPc → Bool
  | .storeStatus => true
  | .storePointer => true
  | _ => false

namespace RunPc

variable {Obj : Type}

/-- The object whose member function the child executes. -/
def object : RunPc Obj → Option Obj
  | testId a => some a
  | testSelf a => some a
  | testStatus a => some a
  | wait a => some a
  | clearStatus a => some a
  | clearId a => some a
  | joinableId a => some a
  | _ => none

/-- The object that the child joins, having found that its id is not its own. -/
def notSelf : RunPc Obj → Option Obj
  | testStatus a => some a
  | wait a => some a
  | clearStatus a => some a
  | clearId a => some a
  | _ => none

end RunPc

/-- The calls that the child makes. -/
inductive SelfCall where
  | join
  | joinable
  deriving DecidableEq

/-- How a call of the child ends. -/
inductive SelfResult where
  | joined
  | threw (e : PthreadException)
  | joinable (b : Bool)
  deriving DecidableEq

/-- The child is told that it cannot join itself, and that it can be joined. -/
def SelfResult.Told : SelfResult → Prop
  | .joined => False
  | .threw e => e.cls = .threadException
  | .joinable b => b = true

instance : DecidablePred SelfResult.Told
  | .joined => isFalse id
  | .threw e => inferInstanceAs (Decidable (e.cls = .threadException))
  | .joinable b => inferInstanceAs (Decidable (b = true))

/-- A step of the parent; a call of the child; a step of the child, where `pthread_join` returns
`rc` if it is called. -/
inductive SelfEvent where
  | parent
  | call (c : SelfCall)
  | child (rc : Int)
  deriving DecidableEq

structure Startup (Obj : Type) where
  parent : StartPc
  child : RunPc Obj
  /-- `abstract_thread::_thread` -/
  pointer : Option Obj
  pool : Pool Obj
  /-- How the calls have ended. -/
  results : List SelfResult

namespace Startup

variable {Obj : Type}

/-- `start()` is called when the pointer is `pointer`. -/
def initial (pool : Pool Obj) (pointer : Option Obj) : Startup Obj :=
  ⟨.construct, .notCreated, pointer, pool, []⟩

/-- The call ends. -/
def finish (s : Startup Obj) (r : SelfResult) : Startup Obj :=
  { s with child := .running, results := s.results ++ [r] }

variable [DecidableEq Obj]

def store (s : Startup Obj) (a : Obj) (t : Thread Obj) : Startup Obj :=
  { s with pool := { s.pool with memory := Function.update s.pool.memory a (some t) } }

/-- The constructor throws and its object is destroyed again. -/
def unwind (s : Startup Obj) (a : Obj) (t : Thread Obj) (e : PthreadException) : Startup Obj :=
  { s with
    parent := .threw e
    pool := { s.pool with
      os := t.destroy s.pool.os
      memory := Function.update s.pool.memory a none } }

/-- A step of `start()`, where `new` returns `a`. -/
def stepStart (stackMin stackSize : Nat) (a : Obj) (ans : Answers) (s : Startup Obj) :
    Option (Startup Obj) :=
  match s.parent with
  | .construct =>
      match Thread.construct a ans.attrInit s.pool.os with
      | (os, .ok t) =>
          some { s with
            parent := .prepare
            pool := { s.pool with
              os := os
              memory := Function.update s.pool.memory a (some t) } }
      | (os, .error e) => some { s with parent := .threw e, pool := { s.pool with os := os } }
  | .prepare =>
      (s.pool.memory a).map fun t =>
        match t.prepare stackMin stackSize ans with
        | (t, none) => { s.store a t with parent := .create }
        | (t, some e) => s.unwind a t e
  | .create =>
      (s.pool.memory a).map fun t =>
        if ans.create ≠ 0 then
          s.unwind a t (threadException "pthread_create failed." ans.create)
        else
          { s with
            parent := .storeId
            child := .running
            pool := { s.pool with
              os := { s.pool.os with created := s.pool.os.created ++ [ans.id] } } }
  | .storeId =>
      (s.pool.memory a).map fun t =>
        { s.store a { t with thread := ans.id } with parent := .storeStatus }
  | .storeStatus =>
      (s.pool.memory a).map fun t =>
        { s.store a { t with status := .aThread } with parent := .storePointer }
  | .storePointer => some { s with parent := .returned, pointer := some a }
  | .returned => none
  | .threw _ => none

/-- A step of the child, whose id is `self`, inside a call. -/
def stepRun (self : Nat) (rc : Int) (s : Startup Obj) : Option (Startup Obj) :=
  match s.child with
  | .notCreated => none
  | .running => none
  | .joinTest =>
      match s.pointer with
      | some _ => some { s with child := .joinDeref }
      | none => some (s.finish .joined)
  | .joinDeref => s.pointer.map fun b => { s with child := .testId b }
  | .testId b =>
      (s.pool.memory b).map fun t =>
        if t.thread ≠ 0 then { s with child := .testSelf b } else s.finish .joined
  | .testSelf b =>
      (s.pool.memory b).map fun t =>
        if t.thread = self then s.finish (.threw Thread.joinYourself)
        else { s with child := .testStatus b }
  | .testStatus b =>
      (s.pool.memory b).map fun t =>
        if t.status = .notAThread then s.finish (.threw Thread.joinNotAThread)
        else { s with child := .wait b }
  | .wait b =>
      (s.pool.memory b).map fun t =>
        if rc = 0 then
          { s with
            child := .clearStatus b
            pool := { s.pool with
              os := { s.pool.os with joined := s.pool.os.joined ++ [t.thread] } } }
        else s.finish ((Thread.joinFailed rc).elim .joined .threw)
  | .clearStatus b =>
      (s.pool.memory b).map fun t =>
        { s.store b { t with status := .notAThread } with child := .clearId b }
  | .clearId b =>
      (s.pool.memory b).map fun t => (s.store b { t with thread := 0 }).finish .joined
  | .joinableTest =>
      match s.pointer with
      | some _ => some { s with child := .joinableDeref }
      | none => some (s.finish (.joinable false))
  | .joinableDeref => s.pointer.map fun b => { s with child := .joinableId b }
  | .joinableId b => (s.pool.memory b).map fun t => s.finish (.joinable t.joinable)

def step (stackMin stackSize : Nat) (a : Obj) (ans : Answers) (s : Startup Obj) :
    SelfEvent → Option (Startup Obj)
  | .parent => s.stepStart stackMin stackSize a ans
  | .call c =>
      if s.child = .running then
        some { s with child := match c with | .join => .joinTest | .joinable => .joinableTest }
      else none
  | .child rc => s.stepRun ans.id rc

/-! ## One thread at a time -/

section

variable (stackMin stackSize : Nat) (a : Obj) (ans : Answers)

/-- The steps of `start()` do what the constructor does, and then store the pointer. -/
theorem start_alone {pool : Pool Obj} (pointer : Option Obj) (ha : pool.memory a = none) :
    ∃ n s, run (step stackMin stackSize a ans) (initial pool pointer)
        (List.replicate n .parent) = some s ∧
      ∃ r, Thread.constructStarted a stackMin stackSize ans pool.os = (s.pool.os, r) ∧
        match r with
        | .ok t => s.parent = .returned ∧ s.pointer = some a ∧ s.child = .running ∧
            s.pool.memory = Function.update pool.memory a (some t)
        | .error e => s.parent = .threw e ∧ s.pointer = pointer ∧ s.child = .notCreated ∧
            s.pool.memory = pool.memory := by
  unfold Thread.constructStarted
  have hfree : Function.update pool.memory a none = pool.memory := by
    rw [← ha, Function.update_eq_self]
  rcases Thread.construct_cases a ans.attrInit pool.os with ⟨-, hc⟩ | ⟨-, e, hc⟩
  · rcases Thread.prepare_cases stackMin stackSize ans
        (⟨0, some ⟨pool.os.attrs, 0⟩, some a, .notAThread⟩ : Thread Obj) with
      ⟨-, e, hp⟩ | ⟨-, attr, -, hp⟩
    · refine ⟨2, ?_⟩
      simp [run, List.replicate, step, stepStart, initial, unwind, Thread.init, hc, hp, hfree]
    · by_cases hcreate : ans.create = 0
      · refine ⟨6, ?_⟩
        simp [run, List.replicate, step, stepStart, initial, store, Thread.init, hc, hp, hcreate]
      · refine ⟨3, ?_⟩
        simp [run, List.replicate, step, stepStart, initial, store, unwind, Thread.init, hc, hp,
          hcreate, hfree]
  · refine ⟨1, ?_⟩
    simp [step, stepStart, initial, hc]

/-- How a call ends that has returned, or thrown `e`. -/
def resultOf (e : Option PthreadException) : SelfResult := e.elim .joined .threw

/-- The steps of `thread::join()` do what the function does, when the child executes them
alone. -/
theorem join_alone {s : Startup Obj} {b : Obj} {t : Thread Obj} (hs : s.child = .testId b)
    (ht : s.pool.memory b = some t) (rc : Int) :
    ∃ n, run (step stackMin stackSize a ans) s (List.replicate n (.child rc)) =
      some { s with
        child := .running
        pool := { s.pool with
          os := (t.join ans.id rc s.pool.os).1
          memory := Function.update s.pool.memory b
            (some (t.join ans.id rc s.pool.os).2.1) }
        results := s.results ++ [resultOf (t.join ans.id rc s.pool.os).2.2] } := by
  have hsame : Function.update s.pool.memory b (some t) = s.pool.memory := by
    rw [← ht, Function.update_eq_self]
  unfold Thread.join
  by_cases hid : t.thread = 0
  · refine ⟨1, ?_⟩
    simp [step, stepRun, finish, resultOf, hs, ht, hid, hsame]
  · by_cases hself : t.thread = ans.id
    · have hid' : ans.id ≠ 0 := hself ▸ hid
      refine ⟨2, ?_⟩
      simp [run, List.replicate, step, stepRun, finish, resultOf, hs, ht, hself, hid', hsame]
    · by_cases hstatus : t.status = .notAThread
      · refine ⟨3, ?_⟩
        simp [run, List.replicate, step, stepRun, finish, resultOf, hs, ht, hid, hself, hstatus,
          hsame]
      · by_cases hrc : rc = 0
        · refine ⟨6, ?_⟩
          simp [run, List.replicate, step, stepRun, finish, resultOf, store, hs, ht, hid, hself,
            hstatus, hrc]
        · refine ⟨4, ?_⟩
          simp [run, List.replicate, step, stepRun, finish, resultOf, hs, ht, hid, hself,
            hstatus, hrc, hsame]

/-! ## What a step changes -/

/-- A step of the parent leaves alone the results and the objects other than the new one. It
makes the child run, or publishes the new object, or only goes on. -/
theorem stepStart_cases {s s' : Startup Obj}
    (h : s.stepStart stackMin stackSize a ans = some s') :
    s'.results = s.results ∧ (∀ b, b ≠ a → s'.pool.memory b = s.pool.memory b) ∧
    ((s.parent = .create ∧ s'.parent = .storeId ∧ s'.child = .running ∧ s'.pointer = s.pointer) ∨
      (s.parent = .storePointer ∧ s'.parent = .returned ∧ s'.child = s.child ∧
        s'.pointer = some a ∧ s'.pool = s.pool) ∨
      (s.parent ≠ .returned ∧ s.parent ≠ .storePointer ∧ s'.parent ≠ .returned ∧
        s'.child = s.child ∧ s'.pointer = s.pointer ∧
        (s'.parent.starting = true → s.parent.starting = true) ∧
        (s'.parent.stored = true → ∃ t, s'.pool.memory a = some t ∧
          (t.thread = ans.id ∨ s.parent.stored = true ∧
            ∃ u, s.pool.memory a = some u ∧ t.thread = u.thread)))) := by
  unfold stepStart at h
  cases hparent : s.parent with
  | construct =>
      simp only [hparent] at h
      rcases Thread.construct_cases a ans.attrInit s.pool.os with ⟨-, hc⟩ | ⟨-, e, hc⟩ <;>
        rw [hc] at h
      · obtain rfl := Option.some.inj h
        refine ⟨rfl, fun b hb => Function.update_of_ne hb .., .inr (.inr ?_)⟩
        simp [StartPc.starting, StartPc.stored]
      · obtain rfl := Option.some.inj h
        refine ⟨rfl, fun _ _ => rfl, .inr (.inr ?_)⟩
        simp [StartPc.starting, StartPc.stored]
  | prepare =>
      simp only [hparent] at h
      obtain ⟨t, -, h⟩ := Option.map_eq_some_iff.mp h
      rcases Thread.prepare_cases stackMin stackSize ans t with ⟨-, e, hp⟩ | ⟨-, attr, -, hp⟩ <;>
        rw [hp] at h
      · subst h
        refine ⟨rfl, fun b hb => Function.update_of_ne hb .., .inr (.inr ?_)⟩
        simp [unwind, StartPc.starting, StartPc.stored]
      · subst h
        refine ⟨rfl, fun b hb => Function.update_of_ne hb .., .inr (.inr ?_)⟩
        simp [store, StartPc.starting, StartPc.stored]
  | create =>
      simp only [hparent] at h
      obtain ⟨t, -, h⟩ := Option.map_eq_some_iff.mp h
      split_ifs at h with hcreate
      · subst h
        refine ⟨rfl, fun b hb => Function.update_of_ne hb .., .inr (.inr ?_)⟩
        simp [unwind, StartPc.starting, StartPc.stored]
      · subst h
        exact ⟨rfl, fun _ _ => rfl, .inl ⟨rfl, rfl, rfl, rfl⟩⟩
  | storeId =>
      simp only [hparent] at h
      obtain ⟨t, -, rfl⟩ := Option.map_eq_some_iff.mp h
      refine ⟨rfl, fun b hb => Function.update_of_ne hb .., .inr (.inr ?_)⟩
      simp [store, StartPc.starting, StartPc.stored]
  | storeStatus =>
      simp only [hparent] at h
      obtain ⟨t, ht, rfl⟩ := Option.map_eq_some_iff.mp h
      refine ⟨rfl, fun b hb => Function.update_of_ne hb .., .inr (.inr ?_)⟩
      simp [store, StartPc.starting, StartPc.stored, ht]
  | storePointer =>
      simp only [hparent] at h
      obtain rfl := Option.some.inj h
      exact ⟨rfl, fun _ _ => rfl, .inr (.inl ⟨rfl, rfl, rfl, rfl, rfl⟩)⟩
  | returned => simp [hparent] at h
  | threw e => simp [hparent] at h

/-- A step of the child leaves the parent and the pointer alone. It writes to no object, or it
clears the status or the id of the one it has joined. -/
theorem stepRun_cases {s s' : Startup Obj} {self : Nat} {rc : Int}
    (h : s.stepRun self rc = some s') :
    s'.parent = s.parent ∧ s'.pointer = s.pointer ∧ s.child ≠ .notCreated ∧
    s'.child ≠ .notCreated ∧
    (∀ b, s'.child.object = some b → s.child.object = some b ∨ s.pointer = some b) ∧
    (∀ b, s'.child.notSelf = some b → s.child.notSelf = some b ∨
      s.child.object = some b ∧ ∃ t, s.pool.memory b = some t ∧ t.thread ≠ self) ∧
    ((s'.pool.memory = s.pool.memory ∧ ∀ b, s.child ≠ .clearId b) ∨
      (∃ b t, s.child = .clearStatus b ∧ s'.child = .clearId b ∧ s.pool.memory b = some t ∧
        s'.pool.memory = Function.update s.pool.memory b (some { t with status := .notAThread })) ∨
      (∃ b t, s.child = .clearId b ∧ s.pool.memory b = some t ∧
        s'.pool.memory = Function.update s.pool.memory b (some { t with thread := 0 }))) := by
  unfold stepRun at h
  cases hchild : s.child with
  | notCreated => simp [hchild] at h
  | running => simp [hchild] at h
  | joinTest =>
      simp only [hchild] at h
      split at h <;> obtain rfl := Option.some.inj h <;> simp [finish, RunPc.object, RunPc.notSelf]
  | joinDeref =>
      simp only [hchild] at h
      obtain ⟨b, hb, rfl⟩ := Option.map_eq_some_iff.mp h
      simp [hb, RunPc.object, RunPc.notSelf]
  | testId b =>
      simp only [hchild] at h
      obtain ⟨t, ht, rfl⟩ := Option.map_eq_some_iff.mp h
      split_ifs <;> simp [finish, RunPc.object, RunPc.notSelf]
  | testSelf b =>
      simp only [hchild] at h
      obtain ⟨t, ht, rfl⟩ := Option.map_eq_some_iff.mp h
      split_ifs with hself
      · simp [finish, RunPc.object, RunPc.notSelf]
      · simp [RunPc.object, RunPc.notSelf, ht, hself]
  | testStatus b =>
      simp only [hchild] at h
      obtain ⟨t, ht, rfl⟩ := Option.map_eq_some_iff.mp h
      split_ifs <;> simp [finish, RunPc.object, RunPc.notSelf]
  | wait b =>
      simp only [hchild] at h
      obtain ⟨t, ht, rfl⟩ := Option.map_eq_some_iff.mp h
      split_ifs <;> simp [finish, RunPc.object, RunPc.notSelf]
  | clearStatus b =>
      simp only [hchild] at h
      obtain ⟨t, ht, rfl⟩ := Option.map_eq_some_iff.mp h
      simp [store, RunPc.object, RunPc.notSelf, ht]
  | clearId b =>
      simp only [hchild] at h
      obtain ⟨t, ht, rfl⟩ := Option.map_eq_some_iff.mp h
      simp [store, finish, RunPc.object, RunPc.notSelf, ht]
  | joinableTest =>
      simp only [hchild] at h
      split at h <;> obtain rfl := Option.some.inj h <;> simp [finish, RunPc.object, RunPc.notSelf]
  | joinableDeref =>
      simp only [hchild] at h
      obtain ⟨b, hb, rfl⟩ := Option.map_eq_some_iff.mp h
      simp [hb, RunPc.object, RunPc.notSelf]
  | joinableId b =>
      simp only [hchild] at h
      obtain ⟨t, ht, rfl⟩ := Option.map_eq_some_iff.mp h
      simp [finish, RunPc.object, RunPc.notSelf]

/-! ## Invariants -/

/-- An object that the parent does not construct has not the id of the child, and if it has an
id, its status says so, unless the child is about to clear the id. -/
structure ObjectOk (s : Startup Obj) (b : Obj) (t : Thread Obj) : Prop where
  other : t.thread ≠ ans.id
  status : t.thread ≠ 0 → s.child ≠ .clearId b → t.status = .aThread

structure Ok (s : Startup Obj) : Prop where
  valid : ∀ b, s.pointer = some b → ∃ t, s.pool.memory b = some t
  /-- The new object is found through the pointer only when `start()` has returned. -/
  pointer : s.pointer = some a ↔ s.parent = .returned
  starting : s.parent.starting = true → s.child = .notCreated
  id : s.parent.stored = true ∨ s.parent = .returned →
    ∃ t, s.pool.memory a = some t ∧ t.thread = ans.id
  others : ∀ b t, b ≠ a → s.pool.memory b = some t → s.ObjectOk ans b t
  object : s.child.object = some a → s.parent = .returned
  notSelf : s.child.notSelf ≠ some a

theorem ok_stepStart {s s' : Startup Obj} (hs : s.Ok a ans)
    (h : s.stepStart stackMin stackSize a ans = some s') : s'.Ok a ans := by
  obtain ⟨-, hmemory, hcases⟩ := stepStart_cases stackMin stackSize a ans h
  have hothers : (∀ b, s'.child = .clearId b ↔ s.child = .clearId b) →
      ∀ b t, b ≠ a → s'.pool.memory b = some t → s'.ObjectOk ans b t := by
    intro hclear b t hb ht
    obtain ⟨hother, hstatus⟩ := hs.others b t hb (hmemory b hb ▸ ht)
    exact ⟨hother, fun hid hchild => hstatus hid fun hc => hchild ((hclear b).mpr hc)⟩
  -- Nobody points to the new object before the pointer is stored.
  have hvalid : s.pointer ≠ some a → ∀ b, s.pointer = some b → ∃ t, s'.pool.memory b = some t := by
    intro hnot b hb
    rw [hmemory b fun hba => hnot (hba ▸ hb)]
    exact hs.valid b hb
  rcases hcases with ⟨hc, hp, hchild, hptr⟩ | ⟨hc, hp, hchild, hptr, hpool⟩ |
    ⟨hret, -, hp, hchild, hptr, hstarting, hid⟩
  · have hnot : s.pointer ≠ some a := fun h => by rw [hs.pointer.mp h] at hc; cases hc
    have hnone : s.child = .notCreated := hs.starting (by rw [hc]; rfl)
    exact {
      valid := hptr ▸ hvalid hnot
      pointer := by rw [hptr, hp]; simp [hnot]
      starting := by rw [hp]; simp [StartPc.starting]
      id := by rw [hp]; simp [StartPc.stored]
      others := hothers (by simp [hchild, hnone])
      object := by rw [hchild]; simp [RunPc.object]
      notSelf := by rw [hchild]; simp [RunPc.notSelf] }
  · have hid := hs.id (.inl (by rw [hc]; rfl))
    exact {
      valid := by
        intro b hb
        obtain rfl : a = b := Option.some.inj (hptr.symm.trans hb)
        obtain ⟨t, ht, -⟩ := hid
        exact ⟨t, by rw [hpool]; exact ht⟩
      pointer := by simp [hptr, hp]
      starting := by rw [hp]; simp [StartPc.starting]
      id := fun _ => by rw [hpool]; exact hid
      others := hothers (by simp [hchild])
      object := fun _ => hp
      notSelf := by rw [hchild]; exact hs.notSelf }
  · have hnot : s.pointer ≠ some a := fun h => hret (hs.pointer.mp h)
    exact {
      valid := hptr ▸ hvalid hnot
      pointer := by rw [hptr]; simp [hnot, hp]
      starting := fun hs' => by rw [hchild]; exact hs.starting (hstarting hs')
      id := by
        rintro (hstored | hret')
        · obtain ⟨t, ht, hself | ⟨hbefore, u, hu, htu⟩⟩ := hid hstored
          · exact ⟨t, ht, hself⟩
          · obtain ⟨v, hv, hvid⟩ := hs.id (.inl hbefore)
            obtain rfl : u = v := Option.some.inj (hu.symm.trans hv)
            exact ⟨t, ht, htu.trans hvid⟩
        · exact absurd hret' hp
      others := hothers (by simp [hchild])
      object := fun hobj => absurd (hs.object (hchild ▸ hobj)) hret
      notSelf := by rw [hchild]; exact hs.notSelf }

theorem update_keeps {m : Memory Obj} {b : Obj} (u : Thread Obj) (hba : b ≠ a) :
    Function.update m b (some u) a = m a ∧
      ∀ c t, m c = some t → ∃ v, Function.update m b (some u) c = some v := by
  refine ⟨Function.update_of_ne hba.symm .., fun c t ht => ?_⟩
  rw [Function.update_apply]
  split_ifs
  · exact ⟨u, rfl⟩
  · exact ⟨t, ht⟩

theorem ok_stepRun {s s' : Startup Obj} {rc : Int} (hself : ans.id ≠ 0) (hs : s.Ok a ans)
    (h : s.stepRun ans.id rc = some s') : s'.Ok a ans := by
  obtain ⟨hparent, hptr, hcreated, -, hobject, hnotSelf, hmemory⟩ := stepRun_cases h
  -- The object written to, if any, is not the new one.
  have hkeep : s'.pool.memory a = s.pool.memory a ∧
      ∀ c t, s.pool.memory c = some t → ∃ u, s'.pool.memory c = some u := by
    rcases hmemory with ⟨hm, -⟩ | ⟨b, t, hb, -, -, hm⟩ | ⟨b, t, hb, -, hm⟩ <;> rw [hm]
    · exact ⟨rfl, fun c t ht => ⟨t, ht⟩⟩
    · exact update_keeps a _ fun hba => hs.notSelf (by rw [hb, hba]; rfl)
    · exact update_keeps a _ fun hba => hs.notSelf (by rw [hb, hba]; rfl)
  refine ⟨?_, ?_, ?_, ?_, ?_, ?_, ?_⟩
  · intro b hb
    obtain ⟨t, ht⟩ := hs.valid b (hptr ▸ hb)
    exact hkeep.2 b t ht
  · rw [hptr, hparent]
    exact hs.pointer
  · rw [hparent]
    exact fun hstarting => absurd (hs.starting hstarting) hcreated
  · rw [hparent, hkeep.1]
    exact hs.id
  · intro c u hc hu
    rcases hmemory with ⟨hm, hclear⟩ | ⟨b, t, hb, hb', ht, hm⟩ | ⟨b, t, hb, ht, hm⟩ <;>
      rw [hm] at hu
    · obtain ⟨hother, hstatus⟩ := hs.others c u hc hu
      exact ⟨hother, fun hid _ => hstatus hid (hclear c)⟩
    · rw [Function.update_apply] at hu
      split_ifs at hu with hcb
      · obtain rfl := Option.some.inj hu
        exact ⟨(hs.others b t (hcb ▸ hc) ht).other, fun _ hnot => absurd (hcb ▸ hb') hnot⟩
      · obtain ⟨hother, hstatus⟩ := hs.others c u hc hu
        exact ⟨hother, fun hid _ => hstatus hid (by rw [hb]; simp)⟩
    · rw [Function.update_apply] at hu
      split_ifs at hu with hcb
      · obtain rfl := Option.some.inj hu
        exact ⟨hself.symm, fun hid => absurd rfl hid⟩
      · obtain ⟨hother, hstatus⟩ := hs.others c u hc hu
        refine ⟨hother, fun hid _ => hstatus hid ?_⟩
        rw [hb]
        exact fun hbc => hcb (RunPc.clearId.inj hbc).symm
  · intro ha
    rw [hparent]
    rcases hobject a ha with hobj | hpub
    · exact hs.object hobj
    · exact hs.pointer.mp hpub
  · intro ha
    rcases hnotSelf a ha with hns | ⟨hobj, t, ht, hother⟩
    · exact hs.notSelf hns
    · obtain ⟨u, hu, hid⟩ := hs.id (.inr (hs.object hobj))
      obtain rfl : t = u := Option.some.inj (ht.symm.trans hu)
      exact hother hid

theorem ok_step {s s' : Startup Obj} {e : SelfEvent} (hself : ans.id ≠ 0) (hs : s.Ok a ans)
    (h : s.step stackMin stackSize a ans e = some s') : s'.Ok a ans := by
  cases e with
  | parent => exact ok_stepStart stackMin stackSize a ans hs h
  | call c =>
      simp only [step] at h
      split_ifs at h with hrunning
      obtain rfl := Option.some.inj h
      refine ⟨hs.valid, hs.pointer, fun hstarting => ?_, hs.id, fun b t hb ht => ?_, ?_, ?_⟩
      · have hnone := hs.starting hstarting
        rw [hrunning] at hnone
        cases hnone
      · obtain ⟨hother, hstatus⟩ := hs.others b t hb ht
        exact ⟨hother, fun hid _ => hstatus hid (by rw [hrunning]; simp)⟩
      · cases c <;> simp [RunPc.object]
      · cases c <;> simp [RunPc.notSelf]
  | child rc => exact ok_stepRun a ans hself hs h

/-- `start()` is called in any state that the operations on `thread` objects can reach, with a
pointer that is null or refers to an object. -/
structure Callable (pool : Pool Obj) (pointer : Option Obj) : Prop where
  ok : pool.Ok
  valid : ∀ b, pointer = some b → ∃ t, pool.memory b = some t
  free : pool.memory a = none
  nonzero : ans.id ≠ 0
  fresh : ans.id ∉ pool.os.created

omit [DecidableEq Obj] in
theorem ok_initial {pool : Pool Obj} {pointer : Option Obj} (h : Callable a ans pool pointer) :
    (initial pool pointer).Ok a ans where
  valid := h.valid
  pointer := by
    refine ⟨fun ha => ?_, fun hreturned => by cases hreturned⟩
    obtain ⟨t, ht⟩ := h.valid a ha
    rw [h.free] at ht
    cases ht
  starting _ := rfl
  id := by
    rintro (hstored | hreturned)
    · cases hstored
    · cases hreturned
  others b t hb ht := by
    refine ⟨fun hid => h.fresh ?_, fun hid _ => (h.ok.threads b t ht).status_iff.mpr hid⟩
    exact ((h.ok.ids.held_iff ans.id).mp ⟨b, (Pool.held_idIn h.nonzero).mpr ⟨t, ht, hid⟩⟩).1
  object h := by cases h
  notSelf h := by cases h

theorem run_ok {pool : Pool Obj} {pointer : Option Obj} (hcall : Callable a ans pool pointer)
    {es : List SelfEvent} {s : Startup Obj}
    (h : run (step stackMin stackSize a ans) (initial pool pointer) es = some s) : s.Ok a ans :=
  run_invariant_of_step (fun _ _ _ hs he => ok_step stackMin stackSize a ans hcall.nonzero hs he)
    (ok_initial a ans hcall) h

/-! ## Calls made before the pointer is stored -/

/-- As long as the pointer is not stored, a `join()` can return: it finds no object, or it joins
the thread of the previous `start()`, if that has not been joined yet. -/
theorem join_can_return {s : Startup Obj} (hs : s.Ok a ans) (hrunning : s.child = .running)
    (hparent : s.parent ≠ .returned) :
    ∃ es s', run (step stackMin stackSize a ans) s (.call .join :: es) = some s' ∧
      s'.results = s.results ++ [.joined] := by
  cases hptr : s.pointer with
  | none => exact ⟨[.child 0], by simp [run, step, stepRun, hrunning, hptr, finish]⟩
  | some b =>
      have hba : b ≠ a := fun hba => hparent (hs.pointer.mp (hba ▸ hptr))
      obtain ⟨t, ht⟩ := hs.valid b hptr
      obtain ⟨hother, hstatus⟩ := hs.others b t hba ht
      have hreturns : (t.join ans.id 0 s.pool.os).2.2 = none := by
        unfold Thread.join
        by_cases hid : t.thread = 0
        · rw [if_neg (not_not.mpr hid)]
        · have hnot : t.status ≠ .notAThread := by
            rw [hstatus hid (by rw [hrunning]; simp)]
            decide
          rw [if_pos hid, if_neg hother, if_neg hnot, if_pos rfl]
      obtain ⟨n, hn⟩ := join_alone stackMin stackSize a ans
        (s := { s with child := .testId b }) rfl ht 0
      refine ⟨.child 0 :: .child 0 :: List.replicate n (.child 0), _,
        run_cons.mpr ⟨_, if_pos hrunning, run_cons.mpr ⟨{ s with child := .joinDeref }, ?_,
          run_cons.mpr ⟨{ s with child := .testId b }, ?_, hn⟩⟩⟩, ?_⟩
      · simp [step, stepRun, hptr]
      · simp [step, stepRun, hptr]
      · simp [hreturns, resultOf]

/-! ## Calls made after that -/

/-- How many steps the child has to take until it is told. It takes no others when it calls
after the pointer is stored. -/
def stepsLeft (a : Obj) : RunPc Obj → Option Nat
  | .notCreated => some 0
  | .running => some 0
  | .joinTest => some 4
  | .joinDeref => some 3
  | .testId b => if b = a then some 2 else none
  | .testSelf b => if b = a then some 1 else none
  | .joinableTest => some 3
  | .joinableDeref => some 2
  | .joinableId b => if b = a then some 1 else none
  | _ => none

/-- Inside a call that finds the new object the child can always go on, and with the last step it
is told. -/
theorem stepRun_told {s : Startup Obj} {t : Thread Obj} {n : Nat} (hself : ans.id ≠ 0)
    (hptr : s.pointer = some a) (ht : s.pool.memory a = some t) (hid : t.thread = ans.id)
    (hn : stepsLeft a s.child = some (n + 1)) (rc : Int) :
    (n ≠ 0 ∧ ∃ child, stepsLeft a child = some n ∧
      s.stepRun ans.id rc = some { s with child := child }) ∨
    (n = 0 ∧ ∃ r : SelfResult, r.Told ∧ s.stepRun ans.id rc = some (s.finish r)) := by
  cases hchild : s.child with
  | joinTest =>
      obtain rfl : n = 3 := by simpa [hchild, stepsLeft] using hn
      exact .inl ⟨by decide, .joinDeref, rfl, by simp [stepRun, hchild, hptr]⟩
  | joinDeref =>
      obtain rfl : n = 2 := by simpa [hchild, stepsLeft] using hn
      exact .inl ⟨by decide, .testId a, if_pos rfl, by simp [stepRun, hchild, hptr]⟩
  | testId b =>
      obtain ⟨rfl, rfl⟩ : b = a ∧ n = 1 := by simpa [hchild, stepsLeft] using hn
      exact .inl ⟨by decide, .testSelf b, if_pos rfl, by simp [stepRun, hchild, ht, hid, hself]⟩
  | testSelf b =>
      obtain ⟨rfl, rfl⟩ : b = a ∧ n = 0 := by simpa [hchild, stepsLeft] using hn
      exact .inr ⟨rfl, .threw Thread.joinYourself, rfl, by simp [stepRun, hchild, ht, hid]⟩
  | joinableTest =>
      obtain rfl : n = 2 := by simpa [hchild, stepsLeft] using hn
      exact .inl ⟨by decide, .joinableDeref, rfl, by simp [stepRun, hchild, hptr]⟩
  | joinableDeref =>
      obtain rfl : n = 1 := by simpa [hchild, stepsLeft] using hn
      exact .inl ⟨by decide, .joinableId a, if_pos rfl, by simp [stepRun, hchild, hptr]⟩
  | joinableId b =>
      obtain ⟨rfl, rfl⟩ : b = a ∧ n = 0 := by simpa [hchild, stepsLeft] using hn
      exact .inr ⟨rfl, .joinable true, rfl,
        by simp [stepRun, hchild, ht, Thread.joinable, hid, hself]⟩
  | notCreated => simp [hchild, stepsLeft] at hn
  | running => simp [hchild, stepsLeft] at hn
  | testStatus b => simp [hchild, stepsLeft] at hn
  | wait b => simp [hchild, stepsLeft] at hn
  | clearStatus b => simp [hchild, stepsLeft] at hn
  | clearId b => simp [hchild, stepsLeft] at hn

/-- Every call has been made after the pointer was stored. -/
structure Informed (s : Startup Obj) : Prop where
  ok : s.Ok a ans
  told : ∀ r ∈ s.results, r.Told
  steps : ∃ n, stepsLeft a s.child = some n
  returned : stepsLeft a s.child ≠ some 0 → s.parent = .returned

theorem informed_stepRun {s : Startup Obj} {n : Nat} (hself : ans.id ≠ 0) (hs : s.Informed a ans)
    (hn : stepsLeft a s.child = some (n + 1)) (rc : Int) :
    ∃ s', s.stepRun ans.id rc = some s' ∧ s'.Informed a ans ∧ stepsLeft a s'.child = some n ∧
      ((n ≠ 0 ∧ s'.results = s.results) ∨
        (n = 0 ∧ s'.child = .running ∧ ∃ r, r.Told ∧ s'.results = s.results ++ [r])) := by
  have hreturned : s.parent = .returned := hs.returned (by rw [hn]; simp)
  have hptr : s.pointer = some a := hs.ok.pointer.mpr hreturned
  obtain ⟨t, ht, hid⟩ := hs.ok.id (.inr hreturned)
  rcases stepRun_told a ans hself hptr ht hid hn rc with
    ⟨hn0, child, hleft, hstep⟩ | ⟨rfl, r, hr, hstep⟩
  · have hok := ok_stepRun a ans hself hs.ok hstep
    exact ⟨_, hstep, ⟨hok, hs.told, ⟨n, hleft⟩, fun _ => hreturned⟩, hleft, .inl ⟨hn0, rfl⟩⟩
  · have hok := ok_stepRun a ans hself hs.ok hstep
    have htold : ∀ r' ∈ (s.finish r).results, r'.Told := by
      intro r' hr'
      rcases List.mem_append.mp hr' with hmem | hmem
      · exact hs.told r' hmem
      · exact List.mem_singleton.mp hmem ▸ hr
    exact ⟨_, hstep, ⟨hok, htold, ⟨0, rfl⟩, fun _ => hreturned⟩, rfl, .inr ⟨rfl, rfl, r, hr, rfl⟩⟩

/-- The child makes its calls only after `start()` has stored the pointer. -/
def CallOk (s : Startup Obj) : SelfEvent → Prop
  | .call _ => s.parent = .returned
  | _ => True

omit [DecidableEq Obj] in
instance decidableCallOk (s : Startup Obj) : DecidablePred s.CallOk
  | .call _ => inferInstanceAs (Decidable (s.parent = .returned))
  | .parent => isTrue trivial
  | .child _ => isTrue trivial

theorem informed_step {s s' : Startup Obj} {e : SelfEvent} (hself : ans.id ≠ 0)
    (hs : s.Informed a ans) (hcall : s.CallOk e)
    (h : s.step stackMin stackSize a ans e = some s') : s'.Informed a ans := by
  have hok := ok_step stackMin stackSize a ans hself hs.ok h
  cases e with
  | parent =>
      -- The parent can still go on, so the child is in no call.
      obtain ⟨hresults, -, hcases⟩ := stepStart_cases stackMin stackSize a ans h
      have hleft : stepsLeft a s.child = some 0 := by
        by_contra hleft
        have hreturned := hs.returned hleft
        rw [hreturned] at hcases
        simp at hcases
      have hleft' : stepsLeft a s'.child = some 0 := by
        rcases hcases with ⟨-, -, hchild, -⟩ | ⟨-, -, hchild, -⟩ | ⟨-, -, -, hchild, -⟩ <;>
          rw [hchild]
        · rfl
        · exact hleft
        · exact hleft
      exact ⟨hok, hresults ▸ hs.told, ⟨0, hleft'⟩, fun hne => absurd hleft' hne⟩
  | call c =>
      simp only [step] at h
      split_ifs at h with hrunning
      obtain rfl := Option.some.inj h
      refine ⟨hok, hs.told, ?_, fun _ => hcall⟩
      cases c with
      | join => exact ⟨4, rfl⟩
      | joinable => exact ⟨3, rfl⟩
  | child rc =>
      obtain ⟨n, hn⟩ := hs.steps
      cases n with
      | zero =>
          -- Outside the calls the child takes no such step.
          cases hchild : s.child <;> simp [step, stepRun, hchild, stepsLeft] at h hn
      | succ n =>
          obtain ⟨s'', hs'', hinformed, -, -⟩ := informed_stepRun a ans hself hs hn rc
          obtain rfl : s'' = s' := Option.some.inj (hs''.symm.trans h)
          exact hinformed

/-- **The run lemma.** -/
theorem run_informed {pool : Pool Obj} {pointer : Option Obj} (hcall : Callable a ans pool pointer)
    {es : List SelfEvent} {s : Startup Obj}
    (hC : Along (step stackMin stackSize a ans) CallOk (initial pool pointer) es)
    (h : run (step stackMin stackSize a ans) (initial pool pointer) es = some s) :
    s.Informed a ans :=
  run_invariant
    (fun _ _ _ hs hc he => informed_step stackMin stackSize a ans hcall.nonzero hs hc he)
    ⟨ok_initial a ans hcall, by simp [initial], ⟨0, rfl⟩, fun hne => absurd rfl hne⟩ hC h

/-- A call in progress ends, told, when the child has taken the steps that are left. -/
theorem call_ends {s : Startup Obj} {n : Nat} (hself : ans.id ≠ 0) (hs : s.Informed a ans)
    (hn : stepsLeft a s.child = some (n + 1)) (rcs : List Int) (hrcs : rcs.length = n + 1) :
    ∃ s' r, run (step stackMin stackSize a ans) s (rcs.map .child) = some s' ∧
      s'.child = .running ∧ s'.results = s.results ++ [r] ∧ r.Told := by
  induction rcs generalizing s n with
  | nil => cases hrcs
  | cons rc rcs ih =>
      obtain rfl : rcs.length = n := by simpa using hrcs
      obtain ⟨s₁, h₁, hs₁, hn₁, ⟨hn0, hresults⟩ | ⟨hn0, hchild, r, hr, hresults⟩⟩ :=
        informed_stepRun a ans hself hs hn rc
      · obtain ⟨k, hk⟩ := Nat.exists_eq_succ_of_ne_zero hn0
        obtain ⟨s', r, h', hchild, hresults', hr⟩ := ih hs₁ (by rw [hn₁, hk]) hk
        exact ⟨s', r, run_cons.mpr ⟨s₁, h₁, h'⟩, hchild, hresults ▸ hresults', hr⟩
      · obtain rfl := List.length_eq_zero_iff.mp hn0
        exact ⟨s₁, r, run_cons.mpr ⟨s₁, h₁, rfl⟩, hchild, hresults, hr⟩

end

/-- **When a thread that joins itself is told so.** `start()` is called in any state that the
operations on `thread` objects reach. In every interleaving in which the child calls only after
the pointer is stored, every call that has ended was told, and one in progress ends, told, with
the child's next `n` steps, whatever `pthread_join` would return. In every interleaving, as long
as the pointer is not stored, a `join()` can return. -/
theorem self_join_told {stackMin stackSize : Nat} {a : Obj} {ans : Answers}
    {ops : List (PoolOp Obj)} {pool : Pool Obj} {pointer : Option Obj}
    (hpool : run (Pool.step stackMin) Pool.empty ops = some pool)
    (hpointer : ∀ b, pointer = some b → (pool.memory b).isSome = true)
    (ha : pool.memory a = none) (hid : ans.id ≠ 0) (hfresh : ans.id ∉ pool.os.created)
    {es : List SelfEvent} {s : Startup Obj}
    (h : run (step stackMin stackSize a ans) (initial pool pointer) es = some s) :
    (Along (step stackMin stackSize a ans) CallOk (initial pool pointer) es →
      (∀ r ∈ s.results, r.Told) ∧
      (s.child ≠ .notCreated → s.child ≠ .running →
        ∃ n, ∀ rcs : List Int, rcs.length = n →
          ∃ s' r, run (step stackMin stackSize a ans) s (rcs.map .child) = some s' ∧
            s'.child = .running ∧ s'.results = s.results ++ [r] ∧ r.Told)) ∧
    (s.child = .running → s.parent ≠ .returned →
      ∃ es' s', run (step stackMin stackSize a ans) s (.call .join :: es') = some s' ∧
        s'.results = s.results ++ [.joined]) := by
  have hcall : Callable a ans pool pointer :=
    ⟨Pool.run_ok Pool.ok_empty hpool,
      fun b hb => Option.isSome_iff_exists.mp (hpointer b hb), ha, hid, hfresh⟩
  refine ⟨fun hC => ?_, join_can_return stackMin stackSize a ans
    (run_ok stackMin stackSize a ans hcall h)⟩
  have hs := run_informed stackMin stackSize a ans hcall hC h
  refine ⟨hs.told, fun hcreated hrunning => ?_⟩
  obtain ⟨n, hn⟩ := hs.steps
  cases n with
  | zero =>
      exfalso
      cases hchild : s.child <;> simp_all [stepsLeft]
  | succ n => exact ⟨n + 1, call_ends stackMin stackSize a ans hid hs hn⟩

/-- A second `start()`, with the first thread still running: the child waits until it is over. -/
def restarted : List SelfEvent :=
  List.replicate 6 .parent ++ (.call .join :: List.replicate 4 (.child 0)) ++
    (.call .joinable :: List.replicate 3 (.child 0))

def firstStart : List (PoolOp Nat) := [.constructStarted 0 0 ⟨0, 0, 0, 0, 41⟩]

theorem firstStart_runs : (run (Pool.step 16) Pool.empty firstStart).isSome = true := by decide

theorem restarted_runs :
    (run (step 16 0 1 ⟨0, 0, 0, 0, 42⟩)
      (initial ((run (Pool.step 16) Pool.empty firstStart).get firstStart_runs) (some 0))
      restarted).isSome = true := by decide

theorem self_join_told_restarted :
    ∃ pool s, run (Pool.step 16) Pool.empty firstStart = some pool ∧
      run (step 16 0 1 ⟨0, 0, 0, 0, 42⟩) (initial pool (some 0)) restarted = some s ∧
      s.results = [.threw Thread.joinYourself, .joinable true] ∧ ∀ r ∈ s.results, r.Told :=
  ⟨_, _, (Option.some_get firstStart_runs).symm, (Option.some_get restarted_runs).symm,
    by decide,
    ((self_join_told (Option.some_get firstStart_runs).symm
      (fun b hb => Option.some.inj hb ▸ by decide) (by decide) (by decide) (by decide)
      (Option.some_get restarted_runs).symm).1 (by decide)).1⟩

/-- A first `start()`. The child runs before the pointer is stored: its `join()` returns and it
is not joinable. -/
def tooEarly : List SelfEvent :=
  [.parent, .parent, .parent, .call .join, .child 0, .call .joinable, .child 0]

theorem tooEarly_runs :
    (run (step 16 0 0 ⟨0, 0, 0, 0, 42⟩) (initial Pool.empty none)
      tooEarly).isSome = true := by decide

theorem self_join_not_told :
    ∃ s, run (step 16 0 0 ⟨0, 0, 0, 0, 42⟩) (initial Pool.empty none) tooEarly = some s ∧
      s.results = [.joined, .joinable false] ∧ ¬ ∀ r ∈ s.results, r.Told :=
  ⟨_, (Option.some_get tooEarly_runs).symm, by decide, by decide⟩

end Startup

end CppPthread
