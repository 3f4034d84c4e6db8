import CppPthread.Basic.Run
import Mathlib.Data.List.Count
import Mathlib.Logic.Function.Basic

set_option autoImplicit false

/-! # Programs with guarded scopes

Threads that take locks by constructing guards and release them by destroying them. The locks are
any state `σ` with two operations for each thing `r : R` that a guard can be for: `construct` takes
it, cannot yet (`none`), or throws; `destroy` releases it, or throws. A program is made of scopes
with a guard each and of `try` blocks, nested in any way. An exception may come up at any point; it
leaves the open scopes and calls the destructors of their guards, up to the next `try` block. An
exception out of a destructor ends the process (`terminated`).

The locks are looked at through the number of holds that a thread has of each `r`. What is asked of
them (`Guard.Lawful`) is that a constructor that returns takes one hold, that one that throws
changes nothing, and that the destructor of who has a hold gives it back. Then every hold is an open
scope, thread by thread, in every state that can be reached, and no destructor throws
(`balanced_run`).
-/

namespace Scopes

open Run

/-! ## Guards -/

/-- The constructor and the destructor of the guards. -/
structure Guard (Tid R σ E : Type) where
  construct : R → σ → Tid → Int → Option (σ × Option E)
  destroy : R → σ → Tid → σ × Option E

section Lawful

variable {Tid R σ E : Type} [DecidableEq Tid] [DecidableEq R]

/-- One hold more or less, of the thread `t` on `r`, among those of `u`. -/
def one (t : Tid) (r : R) (u : Tid) (j : R) : Nat := if u = t ∧ j = r then 1 else 0

theorem one_self (t : Tid) (r j : R) : one t r t j = if j = r then 1 else 0 := by
  simp [one]

theorem one_of_ne {t u : Tid} (h : u ≠ t) (r j : R) : one t r u j = 0 := by
  simp [one, h]

theorem count_cons_one (t : Tid) (r j : R) (l : List R) :
    (r :: l).count j = l.count j + one t r t j := by
  rw [List.count_cons, one_self]
  simp only [beq_iff_eq, eq_comm (a := r)]

/-- The guards take and give back one hold each. -/
structure Guard.Lawful (g : Guard Tid R σ E) (holds : σ → Tid → R → Nat) : Prop where
  threw : ∀ {r l t ret l' e}, g.construct r l t ret = some (l', some e) → l' = l
  taken : ∀ {r l t ret l'}, g.construct r l t ret = some (l', none) →
    ∀ u j, holds l' u j = holds l u j + one t r u j
  released : ∀ {r l t}, 0 < holds l t r → ∃ l', g.destroy r l t = (l', none) ∧
    ∀ u j, holds l' u j + one t r u j = holds l u j

end Lawful

/-! ## Programs -/

inductive Prog (R : Type) where
  | done
  /-- `{ lock_guard<...> lock(r); body } rest` -/
  | scope (r : R) (body rest : Prog R)
  /-- `try { body } catch (...) { } rest` -/
  | attempt (body rest : Prog R)
  deriving DecidableEq

/-- A block that has been entered, with what comes after it. -/
inductive Block (R : Type) where
  | scope (r : R) (rest : Prog R)
  | attempt (rest : Prog R)
  deriving DecidableEq

inductive Control (R : Type) where
  | running (p : Prog R)
  /-- An exception is on its way out. -/
  | unwinding
  deriving DecidableEq

/-- What a thread does, with the blocks that it is in, innermost first. -/
structure Task (R : Type) where
  control : Control R
  blocks : List (Block R)
  deriving DecidableEq

section Tasks

variable {R : Type}

def Block.scope? : Block R → Option R
  | .scope r _ => some r
  | .attempt _ => none

/-- What comes after the block. -/
def Block.rest : Block R → Prog R
  | .scope _ rest => rest
  | .attempt rest => rest

/-- The open scopes of a list of blocks. -/
def scopesOf (blocks : List (Block R)) : List R := blocks.filterMap Block.scope?

/-- The scopes that a thread is in. -/
def Task.scopes (task : Task R) : List R := scopesOf task.blocks

/-- The program has ended, normally or by an exception. -/
def Task.Ended (task : Task R) : Prop :=
  task.blocks = [] ∧ (task.control = .running .done ∨ task.control = .unwinding)

instance [DecidableEq R] (task : Task R) : Decidable task.Ended :=
  inferInstanceAs (Decidable (_ ∧ _))

@[simp] theorem scopesOf_scope (r : R) (rest : Prog R) (blocks : List (Block R)) :
    scopesOf (.scope r rest :: blocks) = r :: scopesOf blocks := rfl

@[simp] theorem scopesOf_attempt (rest : Prog R) (blocks : List (Block R)) :
    scopesOf (.attempt rest :: blocks) = scopesOf blocks := rfl

theorem Task.Ended.scopes_eq {task : Task R} (h : task.Ended) : task.scopes = [] := by
  rw [Task.scopes, h.1]
  rfl

end Tasks

/-! ## The machine -/

structure State (Tid R σ : Type) where
  locks : σ
  tasks : Tid → Task R
  /-- `std::terminate()` has been called. -/
  terminated : Bool

inductive Event (Tid : Type) where
  /-- The thread constructs a guard, and the call of the lock returns `ret`. -/
  | construct (t : Tid) (ret : Int)
  /-- It enters a `try` block. -/
  | enter (t : Tid)
  /-- It comes to the end of the block that it is in. -/
  | leave (t : Tid)
  | throw (t : Tid)
  /-- The exception comes to the end of the block that the thread is in. -/
  | unwind (t : Tid)

/-- All threads begin their programs. -/
def init {Tid R σ : Type} (locks : σ) (progs : Tid → Prog R) : State Tid R σ :=
  ⟨locks, fun t => ⟨.running (progs t), []⟩, false⟩

section Machine

variable {Tid R σ E : Type} [DecidableEq Tid]

def State.set (s : State Tid R σ) (l : σ) (t : Tid) (task : Task R) : State Tid R σ :=
  { s with locks := l, tasks := Function.update s.tasks t task }

@[simp] theorem State.set_locks (s : State Tid R σ) (l : σ) (t : Tid) (task : Task R) :
    (s.set l t task).locks = l := rfl

@[simp] theorem State.set_tasks_self (s : State Tid R σ) (l : σ) (t : Tid) (task : Task R) :
    (s.set l t task).tasks t = task := Function.update_self ..

theorem State.set_tasks_of_ne (s : State Tid R σ) (l : σ) {t u : Tid} (task : Task R)
    (h : u ≠ t) : (s.set l t task).tasks u = s.tasks u := Function.update_of_ne h ..

variable (g : Guard Tid R σ E)

/-- The thread `t` closes a scope with a guard for `r`. -/
def State.close (s : State Tid R σ) (r : R) (t : Tid) (task : Task R) : State Tid R σ :=
  match g.destroy r s.locks t with
  | (l, none) => s.set l t task
  | (l, some _) => { s with locks := l, terminated := true }

/-- A guard whose constructor throws has not been constructed, and is not destroyed. -/
def step (s : State Tid R σ) (e : Event Tid) : Option (State Tid R σ) :=
  if s.terminated then none
  else
    match e with
    | .construct t ret =>
        match s.tasks t with
        | ⟨.running (.scope r body rest), blocks⟩ =>
            match g.construct r s.locks t ret with
            | some (l, none) => some (s.set l t ⟨.running body, .scope r rest :: blocks⟩)
            | some (l, some _) => some (s.set l t ⟨.unwinding, blocks⟩)
            | none => none
        | _ => none
    | .enter t =>
        match s.tasks t with
        | ⟨.running (.attempt body rest), blocks⟩ =>
            some (s.set s.locks t ⟨.running body, .attempt rest :: blocks⟩)
        | _ => none
    | .leave t =>
        match s.tasks t with
        | ⟨.running .done, .scope r rest :: blocks⟩ => some (s.close g r t ⟨.running rest, blocks⟩)
        | ⟨.running .done, .attempt rest :: blocks⟩ =>
            some (s.set s.locks t ⟨.running rest, blocks⟩)
        | _ => none
    | .throw t =>
        match s.tasks t with
        | ⟨.running _, blocks⟩ => some (s.set s.locks t ⟨.unwinding, blocks⟩)
        | _ => none
    | .unwind t =>
        match s.tasks t with
        | ⟨.unwinding, .scope r _ :: blocks⟩ => some (s.close g r t ⟨.unwinding, blocks⟩)
        | ⟨.unwinding, .attempt rest :: blocks⟩ =>
            some (s.set s.locks t ⟨.running rest, blocks⟩)
        | _ => none

/-- The steps of the machine. -/
inductive Trans (s : State Tid R σ) : Event Tid → State Tid R σ → Prop where
  | take {t : Tid} {ret : Int} {r : R} {body rest : Prog R} {blocks : List (Block R)} {l : σ}
      (ht : s.tasks t = ⟨.running (.scope r body rest), blocks⟩)
      (hl : g.construct r s.locks t ret = some (l, none)) :
      Trans s (.construct t ret) (s.set l t ⟨.running body, .scope r rest :: blocks⟩)
  | refuse {t : Tid} {ret : Int} {r : R} {body rest : Prog R} {blocks : List (Block R)} {l : σ}
      {e : E} (ht : s.tasks t = ⟨.running (.scope r body rest), blocks⟩)
      (hl : g.construct r s.locks t ret = some (l, some e)) :
      Trans s (.construct t ret) (s.set l t ⟨.unwinding, blocks⟩)
  | enter {t : Tid} {body rest : Prog R} {blocks : List (Block R)}
      (ht : s.tasks t = ⟨.running (.attempt body rest), blocks⟩) :
      Trans s (.enter t) (s.set s.locks t ⟨.running body, .attempt rest :: blocks⟩)
  | leaveScope {t : Tid} {r : R} {rest : Prog R} {blocks : List (Block R)}
      (ht : s.tasks t = ⟨.running .done, .scope r rest :: blocks⟩) :
      Trans s (.leave t) (s.close g r t ⟨.running rest, blocks⟩)
  | leaveAttempt {t : Tid} {rest : Prog R} {blocks : List (Block R)}
      (ht : s.tasks t = ⟨.running .done, .attempt rest :: blocks⟩) :
      Trans s (.leave t) (s.set s.locks t ⟨.running rest, blocks⟩)
  | throw {t : Tid} {p : Prog R} {blocks : List (Block R)}
      (ht : s.tasks t = ⟨.running p, blocks⟩) :
      Trans s (.throw t) (s.set s.locks t ⟨.unwinding, blocks⟩)
  | unwindScope {t : Tid} {r : R} {rest : Prog R} {blocks : List (Block R)}
      (ht : s.tasks t = ⟨.unwinding, .scope r rest :: blocks⟩) :
      Trans s (.unwind t) (s.close g r t ⟨.unwinding, blocks⟩)
  | caught {t : Tid} {rest : Prog R} {blocks : List (Block R)}
      (ht : s.tasks t = ⟨.unwinding, .attempt rest :: blocks⟩) :
      Trans s (.unwind t) (s.set s.locks t ⟨.running rest, blocks⟩)

variable {g}

/-- **What a step can do.** -/
theorem step_trans {s s' : State Tid R σ} {e : Event Tid} (h : step g s e = some s') :
    s.terminated = false ∧ Trans g s e s' := by
  unfold step at h
  split_ifs at h with hterm
  refine ⟨by simpa using hterm, ?_⟩
  cases e with
  | construct t ret =>
      simp only at h
      split at h
      · rename_i r body rest blocks ht
        split at h
        · rename_i l hl
          obtain rfl := Option.some.inj h
          exact .take ht hl
        · rename_i l e hl
          obtain rfl := Option.some.inj h
          exact .refuse ht hl
        · cases h
      · cases h
  | enter t =>
      simp only at h
      split at h
      · obtain rfl := Option.some.inj h
        exact .enter ‹_›
      · cases h
  | leave t =>
      simp only at h
      split at h
      · obtain rfl := Option.some.inj h
        exact .leaveScope ‹_›
      · obtain rfl := Option.some.inj h
        exact .leaveAttempt ‹_›
      · cases h
  | throw t =>
      simp only at h
      split at h
      · obtain rfl := Option.some.inj h
        exact .throw ‹_›
      · cases h
  | unwind t =>
      simp only at h
      split at h
      · obtain rfl := Option.some.inj h
        exact .unwindScope ‹_›
      · obtain rfl := Option.some.inj h
        exact .caught ‹_›
      · cases h

/-! ## Scopes and holds -/

variable [DecidableEq R] {holds : σ → Tid → R → Nat}

/-- Each hold is an open scope, and no destructor has thrown. -/
structure Balanced (holds : σ → Tid → R → Nat) (s : State Tid R σ) : Prop where
  holds : ∀ t r, holds s.locks t r = (s.tasks t).scopes.count r
  alive : s.terminated = false

omit [DecidableEq Tid] in
theorem balanced_init {l : σ} (hfree : ∀ t r, holds l t r = 0) (progs : Tid → Prog R) :
    Balanced holds (init l progs) where
  holds t r := hfree t r
  alive := rfl

/-- A thread that has no other scopes than before. -/
theorem Balanced.same {s : State Tid R σ} (hs : Balanced holds s) {t : Tid} {task : Task R}
    (hscopes : task.scopes = (s.tasks t).scopes) : Balanced holds (s.set s.locks t task) := by
  refine ⟨fun u j => ?_, hs.alive⟩
  rw [State.set_locks, hs.holds]
  by_cases hu : u = t
  · rw [hu, State.set_tasks_self, hscopes]
  · rw [State.set_tasks_of_ne _ _ _ hu]

/-- A thread that opens a scope. -/
theorem Balanced.opened {s : State Tid R σ} (hs : Balanced holds s) {t : Tid} {task : Task R}
    {r : R} {l : σ} (hscopes : task.scopes = r :: (s.tasks t).scopes)
    (hl : ∀ u j, holds l u j = holds s.locks u j + one t r u j) :
    Balanced holds (s.set l t task) := by
  refine ⟨fun u j => ?_, hs.alive⟩
  rw [State.set_locks]
  by_cases hu : u = t
  · subst hu
    rw [State.set_tasks_self, hscopes, count_cons_one u, ← hs.holds]
    exact hl u j
  · rw [State.set_tasks_of_ne _ _ _ hu, hl, one_of_ne hu, Nat.add_zero, hs.holds]

/-- A thread that closes its innermost scope: it has the hold, and the destructor does not throw. -/
theorem Balanced.close {s : State Tid R σ} (hs : Balanced holds s) (hg : g.Lawful holds) {t : Tid}
    (task : Task R) {r : R} (hscopes : (s.tasks t).scopes = r :: task.scopes) :
    ∃ l, s.close g r t task = s.set l t task ∧ Balanced holds (s.set l t task) := by
  have hpos : 0 < holds s.locks t r := by
    rw [hs.holds, hscopes]
    exact List.count_pos_iff.mpr (by simp)
  obtain ⟨l, hdestroy, hl⟩ := hg.released hpos
  refine ⟨l, by unfold State.close; rw [hdestroy], fun u j => ?_, hs.alive⟩
  rw [State.set_locks]
  by_cases hu : u = t
  · subst hu
    rw [State.set_tasks_self]
    apply Nat.add_right_cancel (m := one u r u j)
    calc holds l u j + one u r u j = holds s.locks u j := hl u j
      _ = task.scopes.count j + one u r u j := by rw [hs.holds, hscopes, count_cons_one u]
  · rw [State.set_tasks_of_ne _ _ _ hu, ← hs.holds, ← hl u j, one_of_ne hu, Nat.add_zero]

/-- **The step lemma.** -/
theorem balanced_step (hg : g.Lawful holds) {s s' : State Tid R σ} {e : Event Tid}
    (hs : Balanced holds s) (h : step g s e = some s') : Balanced holds s' := by
  cases (step_trans h).2 with
  | take ht hl => exact hs.opened (by rw [ht]; rfl) (hg.taken hl)
  | refuse ht hl =>
      rw [hg.threw hl]
      exact hs.same (by rw [ht]; rfl)
  | enter ht => exact hs.same (by rw [ht]; rfl)
  | leaveScope ht =>
      obtain ⟨l, hclose, hbalanced⟩ := hs.close hg ⟨.running _, _⟩ (by rw [ht]; rfl)
      rw [hclose]
      exact hbalanced
  | leaveAttempt ht => exact hs.same (by rw [ht]; rfl)
  | throw ht => exact hs.same (by rw [ht]; rfl)
  | unwindScope ht =>
      obtain ⟨l, hclose, hbalanced⟩ := hs.close hg ⟨.unwinding, _⟩ (by rw [ht]; rfl)
      rw [hclose]
      exact hbalanced
  | caught ht => exact hs.same (by rw [ht]; rfl)

/-- **The run lemma.** -/
theorem balanced_run (hg : g.Lawful holds) {l : σ} (hfree : ∀ t r, holds l t r = 0)
    {progs : Tid → Prog R} {es : List (Event Tid)} {s : State Tid R σ}
    (h : run (step g) (init l progs) es = some s) : Balanced holds s :=
  run_invariant_of_step (fun _ _ _ hi hs => balanced_step hg hi hs) (balanced_init hfree progs) h

end Machine

end Scopes
