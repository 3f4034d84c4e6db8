import CppPthread.Basic.Scopes
import CppPthread.Basic.Work
import Mathlib.Data.Set.Finite.Lemmas

set_option autoImplicit false

/-! # Locks taken in order

Every lock has a level, and the scopes of a program are *ordered* when each of them is above the
scopes around it. Threads with ordered programs do not wait for each other in a circle: among those
that wait, one that waits for the highest level waits for nobody who waits (`exists_unblocked`). So
while some program has not ended, some thread can go on without an exception and without a refusal
(`progress`).

Each step of a program makes what is left of it smaller (`step_left`). Ordered programs therefore
come to their ends in whatever order the threads run (`run_left`, `exists_ended`).
-/

namespace Scopes

open Run Work

/-! ## Waiting in order -/

/-- Each thread wants at most one lock, which is above those it has. Some thread that wants a lock
wants one that is with nobody who wants another. -/
theorem exists_unblocked {ι L : Type} [Finite ι] [LinearOrder L] {wants : ι → Option L}
    {has : ι → L → Prop} (hordered : ∀ i l m, has i l → wants i = some m → l < m) {i : ι} {l : L}
    (hi : wants i = some l) : ∃ j m, wants j = some m ∧ ∀ k, has k m → wants k = none := by
  obtain ⟨j, hj, hmax⟩ := Set.exists_max_image {k | (wants k).isSome = true}
    (fun k => (wants k).getD l) (Set.toFinite _) ⟨i, by simp [hi]⟩
  obtain ⟨m, hm⟩ := Option.isSome_iff_exists.mp hj
  refine ⟨j, m, hm, fun k hk => ?_⟩
  cases hw : wants k with
  | none => rfl
  | some m' =>
      -- a thread that has `m` and waits would want something higher
      have hlt := hordered k m m' hk hw
      have hle := hmax k (by simp [hw])
      simp only [hw, hm, Option.getD_some] at hle
      exact absurd hlt (not_lt.mpr hle)

/-! ## Ordered programs -/

section Order

variable {R L : Type} [LinearOrder L] (level : R → L)

/-- Each scope of the program is above those around it and above `outer`. -/
def Prog.Ordered : List R → Prog R → Prop
  | _, .done => True
  | outer, .scope r body rest =>
      (∀ j ∈ outer, level j < level r) ∧ body.Ordered (r :: outer) ∧ rest.Ordered outer
  | outer, .attempt body rest => body.Ordered outer ∧ rest.Ordered outer

/-- What comes after each block is ordered. -/
def BlocksOrdered : List (Block R) → Prop
  | [] => True
  | b :: blocks => b.rest.Ordered level (scopesOf blocks) ∧ BlocksOrdered blocks

/-- What is left of the program is ordered. -/
def Task.Ordered (task : Task R) : Prop :=
  (∀ p, task.control = .running p → p.Ordered level task.scopes) ∧ BlocksOrdered level task.blocks

instance decidableOrdered : ∀ (outer : List R) (p : Prog R), Decidable (p.Ordered level outer)
  | _, .done => isTrue trivial
  | outer, .scope r body rest =>
      haveI := decidableOrdered (r :: outer) body
      haveI := decidableOrdered outer rest
      inferInstanceAs (Decidable (_ ∧ _ ∧ _))
  | outer, .attempt body rest =>
      haveI := decidableOrdered outer body
      haveI := decidableOrdered outer rest
      inferInstanceAs (Decidable (_ ∧ _))

variable {level} {Tid σ E : Type} [DecidableEq Tid] {g : Guard Tid R σ E}

omit [DecidableEq Tid] in
theorem ordered_init {l : σ} {progs : Tid → Prog R} (h : ∀ t, (progs t).Ordered level []) :
    ∀ t, ((init l progs).tasks t).Ordered level := by
  refine fun t => ⟨fun p hp => ?_, trivial⟩
  obtain rfl : progs t = p := by simpa [init] using hp
  exact h t

/-- A thread goes on with an ordered program. -/
theorem ordered_set {s : State Tid R σ} (hs : ∀ t, (s.tasks t).Ordered level) {l : σ} {t : Tid}
    {task : Task R} (htask : task.Ordered level) :
    ∀ u, ((s.set l t task).tasks u).Ordered level := by
  intro u
  by_cases hu : u = t
  · rw [hu, State.set_tasks_self]
    exact htask
  · rw [State.set_tasks_of_ne _ _ _ hu]
    exact hs u

theorem ordered_close {s : State Tid R σ} (hs : ∀ t, (s.tasks t).Ordered level) {r : R} {t : Tid}
    {task : Task R} (htask : task.Ordered level) :
    ∀ u, ((s.close g r t task).tasks u).Ordered level := by
  unfold State.close
  split
  · exact ordered_set hs htask
  · exact hs

theorem ordered_step {s s' : State Tid R σ} {e : Event Tid}
    (hs : ∀ t, (s.tasks t).Ordered level) (h : step g s e = some s') :
    ∀ t, (s'.tasks t).Ordered level := by
  cases (step_trans h).2 with
  | @take t ret r body rest blocks l ht hl =>
      have hold := hs t
      rw [ht] at hold
      obtain ⟨-, hbody, hrest⟩ := hold.1 _ rfl
      refine ordered_set hs ⟨fun p hp => ?_, hrest, hold.2⟩
      cases hp
      exact hbody
  | @refuse t ret r body rest blocks l e ht hl =>
      have hold := hs t
      rw [ht] at hold
      exact ordered_set hs ⟨(fun p hp => by cases hp), hold.2⟩
  | @enter t body rest blocks ht =>
      have hold := hs t
      rw [ht] at hold
      obtain ⟨hbody, hrest⟩ := hold.1 _ rfl
      refine ordered_set hs ⟨fun p hp => ?_, hrest, hold.2⟩
      cases hp
      exact hbody
  | @leaveScope t r rest blocks ht =>
      have hold := hs t
      rw [ht] at hold
      refine ordered_close hs ⟨fun p hp => ?_, hold.2.2⟩
      cases hp
      exact hold.2.1
  | @leaveAttempt t rest blocks ht =>
      have hold := hs t
      rw [ht] at hold
      refine ordered_set hs ⟨fun p hp => ?_, hold.2.2⟩
      cases hp
      exact hold.2.1
  | @throw t p blocks ht =>
      have hold := hs t
      rw [ht] at hold
      exact ordered_set hs ⟨(fun p hp => by cases hp), hold.2⟩
  | @unwindScope t r rest blocks ht =>
      have hold := hs t
      rw [ht] at hold
      exact ordered_close hs ⟨(fun p hp => by cases hp), hold.2.2⟩
  | @caught t rest blocks ht =>
      have hold := hs t
      rw [ht] at hold
      refine ordered_set hs ⟨fun p hp => ?_, hold.2.2⟩
      cases hp
      exact hold.2.1

/-! ## Progress -/

/-- The thread goes on: nothing is thrown, and the lock does not refuse. -/
def Event.proceeds : Event Tid → Bool
  | .construct _ ret => decide (ret = 0)
  | .throw _ => false
  | _ => true

/-- What the thread waits for. -/
def Task.wants (task : Task R) : Option R :=
  match task.control with
  | .running (.scope r _ _) => some r
  | _ => none

theorem Task.wants_eq_some {task : Task R} {r : R} (h : task.wants = some r) :
    ∃ body rest, task.control = .running (.scope r body rest) := by
  unfold Task.wants at h
  split at h
  · rename_i r' body rest hc
    obtain rfl := Option.some.inj h
    exact ⟨body, rest, hc⟩
  · cases h

/-- A thread that waits for nothing can go on, or its program has ended. -/
theorem can_step_of_wants_eq_none {s : State Tid R σ} (halive : s.terminated = false) {t : Tid}
    (hwants : (s.tasks t).wants = none) (hended : ¬ (s.tasks t).Ended) :
    ∃ e s', e.proceeds = true ∧ step g s e = some s' := by
  rcases ht : s.tasks t with ⟨control, blocks⟩
  rw [ht] at hwants hended
  cases control with
  | running p =>
      cases p with
      | scope r body rest => cases hwants
      | attempt body rest => exact ⟨.enter t, _, rfl, by simp only [step, halive, ht]; rfl⟩
      | done =>
          cases blocks with
          | nil => exact absurd ⟨rfl, .inl rfl⟩ hended
          | cons b blocks =>
              cases b with
              | scope r rest => exact ⟨.leave t, _, rfl, by simp only [step, halive, ht]; rfl⟩
              | attempt rest => exact ⟨.leave t, _, rfl, by simp only [step, halive, ht]; rfl⟩
  | unwinding =>
      cases blocks with
      | nil => exact absurd ⟨rfl, .inr rfl⟩ hended
      | cons b blocks =>
          cases b with
          | scope r rest => exact ⟨.unwind t, _, rfl, by simp only [step, halive, ht]; rfl⟩
          | attempt rest => exact ⟨.unwind t, _, rfl, by simp only [step, halive, ht]; rfl⟩

variable [DecidableEq R] {holds : σ → Tid → R → Nat}

/-- A guard can be constructed when nobody holds anything of its level. -/
def Guard.FreeAt (g : Guard Tid R σ E) (level : R → L) (holds : σ → Tid → R → Nat) : Prop :=
  ∀ r l t, (∀ u j, level j = level r → holds l u j = 0) →
    ∃ l', g.construct r l t 0 = some (l', none)

variable [Finite Tid]

/-- **Progress.** Threads with ordered programs do not block each other for ever. -/
theorem progress (hfree : g.FreeAt level holds) {s : State Tid R σ} (hs : Balanced holds s)
    (hordered : ∀ t, (s.tasks t).Ordered level) (hended : ¬ ∀ t, (s.tasks t).Ended) :
    ∃ e s', e.proceeds = true ∧ step g s e = some s' := by
  push Not at hended
  obtain ⟨t, ht⟩ := hended
  by_cases hnone : ∃ u, (s.tasks u).wants = none ∧ ¬ (s.tasks u).Ended
  · obtain ⟨u, hwants, hu⟩ := hnone
    exact can_step_of_wants_eq_none hs.alive hwants hu
  · -- everybody who has not ended waits
    push Not at hnone
    obtain ⟨r, hr⟩ : ∃ r, (s.tasks t).wants = some r := by
      cases hw : (s.tasks t).wants with
      | none => exact absurd (hnone t hw) ht
      | some r => exact ⟨r, rfl⟩
    have habove : ∀ u l m, (∃ j ∈ (s.tasks u).scopes, level j = l) →
        (s.tasks u).wants.map level = some m → l < m := by
      rintro u l m ⟨j, hj, rfl⟩ hu
      obtain ⟨r', hw, rfl⟩ := Option.map_eq_some_iff.mp hu
      obtain ⟨body, rest, hc⟩ := Task.wants_eq_some hw
      exact ((hordered u).1 _ hc).1 j hj
    obtain ⟨u, m, hu, hm⟩ := exists_unblocked habove (i := t) (l := level r) (by rw [hr]; rfl)
    obtain ⟨r', hr', rfl⟩ := Option.map_eq_some_iff.mp hu
    -- who holds something of that level would have to wait for nothing
    have hnobody : ∀ v j, level j = level r' → holds s.locks v j = 0 := by
      intro v j hj
      rw [hs.holds, List.count_eq_zero]
      intro hmem
      have hw := Option.map_eq_none_iff.mp (hm v ⟨j, hmem, hj⟩)
      have hempty := (hnone v hw).scopes_eq
      rw [hempty] at hmem
      cases hmem
    obtain ⟨body, rest, hc⟩ := Task.wants_eq_some hr'
    obtain ⟨l', hl'⟩ := hfree r' s.locks u hnobody
    rcases htask : s.tasks u with ⟨control, blocks⟩
    rw [htask] at hc
    obtain rfl : control = .running (.scope r' body rest) := hc
    exact ⟨.construct u 0, _, rfl, by simp only [step, hs.alive, htask, hl']; rfl⟩

end Order

/-! ## Coming to the end -/

section Size

variable {R : Type}

/-- A bound on the steps of a program. -/
def Prog.size : Prog R → Nat
  | .done => 0
  | .scope _ body rest => body.size + rest.size + 3
  | .attempt body rest => body.size + rest.size + 3

def Control.size : Control R → Nat
  | .running p => p.size + 1
  | .unwinding => 0

def blocksSize : List (Block R) → Nat
  | [] => 0
  | b :: blocks => b.rest.size + 2 + blocksSize blocks

/-- A bound on the steps that a thread has left. -/
def Task.size (task : Task R) : Nat := task.control.size + blocksSize task.blocks

variable {Tid σ E : Type} [DecidableEq Tid] [Fintype Tid] {g : Guard Tid R σ E}

theorem left_set {s : State Tid R σ} {l : σ} {t : Tid} {task : Task R}
    (h : task.size < (s.tasks t).size) :
    total Task.size (s.set l t task).tasks + 1 ≤ total Task.size s.tasks := by
  have htotal := total_update Task.size s.tasks t task
  show total Task.size (Function.update s.tasks t task) + 1 ≤ _
  omega

variable [DecidableEq R] {holds : σ → Tid → R → Nat}

/-- **The step lemma**: every step makes what is left smaller. -/
theorem step_left (hg : g.Lawful holds) {s s' : State Tid R σ} {e : Event Tid}
    (hs : Balanced holds s) (h : step g s e = some s') :
    total Task.size s'.tasks + 1 ≤ total Task.size s.tasks := by
  cases (step_trans h).2 with
  | take ht hl =>
      refine left_set ?_
      rw [ht]
      simp only [Task.size, Control.size, blocksSize, Prog.size, Block.rest]
      omega
  | refuse ht hl =>
      refine left_set ?_
      rw [ht]
      simp only [Task.size, Control.size, Prog.size]
      omega
  | enter ht =>
      refine left_set ?_
      rw [ht]
      simp only [Task.size, Control.size, blocksSize, Prog.size, Block.rest]
      omega
  | leaveScope ht =>
      obtain ⟨l, hclose, -⟩ := hs.close hg ⟨.running _, _⟩ (by rw [ht]; rfl)
      rw [hclose]
      refine left_set ?_
      rw [ht]
      simp only [Task.size, Control.size, blocksSize, Prog.size, Block.rest]
      omega
  | leaveAttempt ht =>
      refine left_set ?_
      rw [ht]
      simp only [Task.size, Control.size, blocksSize, Prog.size, Block.rest]
      omega
  | throw ht =>
      refine left_set ?_
      rw [ht]
      simp only [Task.size, Control.size]
      omega
  | unwindScope ht =>
      obtain ⟨l, hclose, -⟩ := hs.close hg ⟨.unwinding, _⟩ (by rw [ht]; rfl)
      rw [hclose]
      refine left_set ?_
      rw [ht]
      simp only [Task.size, Control.size, blocksSize, Block.rest]
      omega
  | caught ht =>
      refine left_set ?_
      rw [ht]
      simp only [Task.size, Control.size, blocksSize, Block.rest]
      omega

/-- **The run lemma**: no run is longer than what there was to do at its begin. -/
theorem run_left (hg : g.Lawful holds) {s s' : State Tid R σ} {es : List (Event Tid)}
    (hs : Balanced holds s) (h : run (step g) s es = some s') :
    total Task.size s'.tasks + es.length ≤ total Task.size s.tasks := by
  have hbudget := run_budget (fun _ _ _ hi hs => balanced_step hg hi hs) (fun _ => 1) (fun _ => 0)
    (fun _ _ _ hi hs => step_left hg hi hs) hs h
  simpa using hbudget

variable {L : Type} [LinearOrder L] {level : R → L}

/-- **Ordered programs come to their ends**, from every state that they can reach. -/
theorem exists_ended (hg : g.Lawful holds) (hfree : g.FreeAt level holds) {s : State Tid R σ}
    (hs : Balanced holds s) (hordered : ∀ t, (s.tasks t).Ordered level) :
    ∃ es s', (∀ e ∈ es, e.proceeds = true) ∧ run (step g) s es = some s' ∧
      ∀ t, (s'.tasks t).Ended := by
  refine exists_settled (I := fun s => Balanced holds s ∧ ∀ t, (s.tasks t).Ordered level)
    ?_ (fun s => total Task.size s.tasks) ?_ ⟨hs, hordered⟩
  · exact fun s e s' hi h => ⟨balanced_step hg hi.1 h, ordered_step hi.2 h⟩
  · intro s hi hended
    obtain ⟨e, s', he, h⟩ := progress hfree hi.1 hi.2 hended
    refine ⟨[e], s', fun e' he' => ?_, by simpa using h, step_left hg hi.1 h⟩
    rw [List.mem_singleton.mp he']
    exact he

end Size

end Scopes
