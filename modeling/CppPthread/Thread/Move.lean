import CppPthread.Thread.Join

set_option autoImplicit false

/-! # The source of a move

A move exchanges what the two objects hold. The target of a move construction is a new object
without an id, so that its source is not a thread afterwards. The target of an assignment may be
a thread: then the source gets its id, and is a thread (`moved_from_iff`).
-/

namespace CppPthread

open Posix Run

namespace Pool

variable {Obj : Type} [DecidableEq Obj]

/-- After a move from the object at `b`, which was `former`, to the one at `a`: the target has what
the source had, and the source is not a thread. -/
structure MovedFrom (p : Pool Obj) (a b : Obj) (former : Thread Obj) : Prop where
  target : ∃ t, p.memory a = some t ∧ t.thread = former.thread ∧ t.status = former.status ∧
    t.attr.map Attr.stackSize = former.attr.map Attr.stackSize
  source : ∃ o, p.memory b = some o ∧ o.DoneFor

theorem swap_some (m : Memory Obj) {a b : Obj} {t o : Thread Obj} (ht : m a = some t)
    (ho : m b = some o) : ∃ m', m.swap a b = some m' := by
  unfold Memory.swap
  rw [ht, ho]
  exact ⟨_, rfl⟩

/-- What a swap of two different objects leaves, when the first one is well-formed. -/
theorem movedFrom_swap {p : Pool Obj} {m : Memory Obj} {a b : Obj} (hab : a ≠ b) {t o : Thread Obj}
    (hok : ThreadOk a t) (ht : p.memory a = some t) (ho : p.memory b = some o)
    (h : p.memory.swap a b = some m) (os : Os) :
    MovedFrom { p with os := os, memory := m } a b o ↔ t.thread = 0 := by
  obtain ⟨t', o', ht', ho', hm⟩ := Memory.swap_cases h
  obtain rfl := Option.some.inj (ht.symm.trans ht')
  obtain rfl := Option.some.inj (ho.symm.trans ho')
  have ha : m a = some ⟨o.thread, o.attr, some a, o.status⟩ := by rw [hm, if_pos rfl]
  have hb : m b = some ⟨t.thread, t.attr, o.attrPtr, t.status⟩ := by
    rw [hm, if_neg hab.symm, if_pos rfl]
  constructor
  · rintro ⟨-, u, hu, hdone⟩
    obtain rfl := Option.some.inj (hb.symm.trans hu)
    exact hdone.id
  · intro hid
    exact ⟨⟨_, ha, rfl, rfl, rfl⟩, _, hb, Thread.doneFor_of hid
      (Thread.notAThread_of_id hok.status_iff hid)⟩

/-- **When the source of a move is not a thread.** After any use of `thread`s: always when it is
moved to a new object, and iff the target has no id when it is assigned to another one. -/
theorem moved_from_iff {stackMin : Nat} {ops : List (PoolOp Obj)} {p : Pool Obj}
    (h : run (step stackMin) empty ops = some p) {b : Obj} {o : Thread Obj}
    (ho : p.memory b = some o) :
    (∀ a, p.memory a = none → ∃ p', p.step stackMin (.moveConstruct a b 0) = some p' ∧
      p'.MovedFrom a b o) ∧
    ∀ a t, a ≠ b → p.memory a = some t → ∃ p', p.step stackMin (.moveAssign a b) = some p' ∧
      (p'.MovedFrom a b o ↔ t.thread = 0) := by
  have hok := run_ok ok_empty h
  constructor
  · intro a ha
    have hab : a ≠ b := fun hab => by rw [hab, ho] at ha; cases ha
    -- the object that the constructor has initialised before the swap
    let q : Pool Obj := { p with
      os := { p.os with attrs := p.os.attrs + 1 }
      memory := Function.update p.memory a
        (some ⟨0, some ⟨p.os.attrs, 0⟩, some a, .notAThread⟩) }
    have hqa : q.memory a = some ⟨0, some ⟨p.os.attrs, 0⟩, some a, .notAThread⟩ :=
      Function.update_self ..
    have hqb : q.memory b = some o := (Function.update_of_ne hab.symm ..).trans ho
    have hqok := (ok_construct hok ha).threads a _ hqa
    obtain ⟨m, hm⟩ := swap_some q.memory hqa hqb
    refine ⟨{ q with memory := m }, ?_, (movedFrom_swap hab hqok hqa hqb hm q.os).mpr rfl⟩
    simp only [step, ha, ho, Thread.construct, ne_eq, not_true_eq_false, if_false]
    exact Option.map_eq_some_iff.mpr ⟨m, hm, rfl⟩
  · intro a t hab ht
    obtain ⟨m, hm⟩ := swap_some p.memory ht ho
    exact ⟨_, Option.map_eq_some_iff.mpr ⟨m, hm, rfl⟩,
      movedFrom_swap hab (hok.threads a t ht) ht ho hm p.os⟩

/-- Two threads are started and the second one is joined. -/
def oneRunning : List (PoolOp Nat) :=
  [.constructStarted 0 0 ⟨0, 0, 0, 0, 41⟩, .constructStarted 1 0 ⟨0, 0, 0, 0, 42⟩, .join 1 7 0]

theorem oneRunning_runs : (run (step 16) empty oneRunning).isSome = true := by decide

theorem moved_from_iff_oneRunning :
    ∃ p o p', run (step 16) empty oneRunning = some p ∧ p.memory 0 = some o ∧ o.thread = 41 ∧
      p.step 16 (.moveAssign 1 0) = some p' ∧ p'.MovedFrom 1 0 o := by
  obtain ⟨p', hp', hiff⟩ := (moved_from_iff (b := 0) (o := ⟨41, some ⟨0, 0⟩, some 0, .aThread⟩)
    (Option.some_get oneRunning_runs).symm (by decide)).2 1
      ⟨0, some ⟨1, 0⟩, some 1, .notAThread⟩ (by decide) (by decide)
  exact ⟨_, _, p', (Option.some_get oneRunning_runs).symm, by decide, rfl, hp', hiff.mpr rfl⟩

/-- A thread is assigned over another running one: the source is the other thread afterwards, and
joining it joins that one. -/
theorem assignment_exchanges :
    ∃ p p' : Pool Nat, ∃ o u : Thread Nat,
      run (step 16) empty [.constructStarted 0 0 ⟨0, 0, 0, 0, 41⟩,
        .constructStarted 1 0 ⟨0, 0, 0, 0, 42⟩] = some p ∧
      p.memory 0 = some o ∧ p.step 16 (.moveAssign 1 0) = some p' ∧ p'.memory 0 = some u ∧
      u.thread = 42 ∧ u.status = .aThread ∧ u.joinable = true ∧ u.joinCalls 7 = [42] ∧
      ¬ p'.MovedFrom 1 0 o := by
  refine ⟨_, _, ⟨41, some ⟨0, 0⟩, some 0, .aThread⟩, ⟨42, some ⟨1, 0⟩, some 0, .aThread⟩,
    rfl, by decide, rfl, by decide, rfl, rfl, by decide, by decide, ?_⟩
  rintro ⟨-, u, hu, hdone⟩
  have hid : (⟨42, some ⟨1, 0⟩, some 0, .aThread⟩ : Thread Nat) = u :=
    Option.some.inj (Eq.trans (by decide) hu)
  exact absurd (hid ▸ hdone.id) (by decide)

end Pool

end CppPthread
