import CppPthread.Thread.Lifetime

set_option autoImplicit false

/-! # The group outlives its threads

When the destructor of a group joins first, no object is deleted while a thread is in its `run()`,
as long as each member has been added once, no joinable member has been started again and the joins
do not fail. When it does not join, that holds iff no member's thread is running by then, as after a
`join()` that returns. The destructor is never stuck: it can only wait for threads that run.
-/

namespace CppPthread

open Posix Run

namespace Lifetime

variable {Mem Obj : Type} [DecidableEq Mem] [DecidableEq Obj] {stackMin : Nat} {joinsFirst : Bool}
  {owner : Nat}

/-! ## The destructor -/

/-- It is careful in the group that joins first. -/
theorem careful_of_cleansUp {s : Lifetime Mem Obj} {es : List (LifetimeEvent Mem Obj)}
    (hes : ∀ e ∈ es, e.cleansUp = true) :
    Along (step stackMin true owner) (Careful true) s (.callDestructor :: es) := by
  refine Along.mono (fun s e he => ?_) (along_of_forall
    (P := fun e => e = .callDestructor ∨ e.cleansUp = true) (List.forall_mem_cons.mpr
      ⟨.inl rfl, fun e he => .inr (hes e he)⟩))
  rcases he with rfl | he
  · trivial
  · cases e with
    | destroyNext rc => exact fun _ _ _ => ⟨rfl, .inl (of_decide_eq_true he)⟩
    | ret | finish m id => trivial
    | _ => cases he

/-- No thread runs for a member of the group, or for one that has been deleted. -/
def Apart (s : Lifetime Mem Obj) : Prop :=
  ∀ m id, (m, id) ∈ s.running → m ∉ s.group.threads ∧ m ∉ s.deleted

theorem step_apart {s s' : Lifetime Mem Obj} {e : LifetimeEvent Mem Obj} (hs : s.Sound owner)
    (ha : s.Apart) (he : e = .callDestructor ∨ e.cleansUp = true)
    (h : s.step stackMin joinsFirst owner e = some s') : s'.Apart := by
  rcases he with rfl | he
  · simp only [step] at h
    split_ifs at h
    obtain rfl := Option.some.inj h
    exact ha
  · cases e with
    | destroyNext rc =>
        obtain ⟨m, ms, -, hthreads, -, hthreads', hdeleted, hrunning, -⟩ := destroyNext_cases hs h
        intro n id hn
        rw [hrunning] at hn
        obtain ⟨hnot, hnd⟩ := ha n id hn
        rw [hthreads, List.mem_cons, not_or] at hnot
        rw [hthreads', hdeleted, List.mem_cons, not_or]
        exact ⟨hnot.2, hnot.1, hnd⟩
    | ret =>
        simp only [step] at h
        split at h
        · obtain rfl := Option.some.inj h
          exact ha
        · obtain rfl := Option.some.inj h
          exact ha
        · obtain rfl := Option.some.inj h
          exact ha
        · cases h
    | finish m id =>
        simp only [step] at h
        split_ifs at h
        obtain rfl := Option.some.inj h
        exact fun n k hn => ha n k (List.mem_of_mem_filter hn)
    | _ => cases he

/-- The next member can be deleted, unless its thread is waited for. -/
theorem destroyNext_can {s : Lifetime Mem Obj} (hs : s.Sound owner) (hpc : s.pc = .destroying)
    (hgo : joinsFirst = false ∨ s.running = []) {m : Mem} {ms : List Mem}
    (hthreads : s.group.threads = m :: ms) :
    ∃ s', s.step stackMin joinsFirst owner (.destroyNext 0) = some s' := by
  obtain ⟨acts, g, hfront, -⟩ :=
    @ThreadGroup.destroyFront_object Mem Obj _ _ stackMin { s.group with threads := ms }
      ⟨hs.shape.pool, hs.shape.valid, hs.shape.unique⟩ joinsFirst owner (fun _ => 0) m
  have hwait : ¬ (joinsFirst && s.group.memberJoinable m && !s.awaited owner m 0) = true := by
    rcases hgo with hfirst | hnone
    · simp [hfirst]
    · simp [awaited, hnone]
  refine ⟨{ s with group := g, deleted := m :: s.deleted }, ?_⟩
  simp only [step, hpc, hthreads]
  rw [if_neg hwait, hfront]

/-- The destructor deletes all members, when it need not wait. -/
theorem destructor_can {s : Lifetime Mem Obj} (hs : s.Sound owner) (hpc : s.pc = .destroying)
    (hgo : joinsFirst = false ∨ s.running = []) :
    ∃ s', run (step stackMin joinsFirst owner) s
        (List.replicate s.group.threads.length (.destroyNext 0) ++ [.ret]) = some s' ∧
      s'.pc = .gone ∧ s'.running = s.running ∧
      ∀ m, m ∈ s.group.threads ∨ m ∈ s.deleted → m ∈ s'.deleted := by
  generalize hms : s.group.threads = ms
  induction ms generalizing s with
  | nil =>
      refine ⟨{ s with pc := .gone }, ?_, rfl, rfl, fun m hm => ?_⟩
      · rw [List.length_nil, List.replicate_zero, List.nil_append, run_singleton]
        simp only [step, hpc, hms]
      · exact hm.resolve_left List.not_mem_nil
  | cons m ms ih =>
      obtain ⟨s₁, h₁⟩ :=
        @destroyNext_can Mem Obj _ _ stackMin joinsFirst owner s hs hpc hgo m ms hms
      obtain ⟨m', ms', -, hthreads, hpc₁, hthreads₁, hdeleted, hrunning, -⟩ :=
        destroyNext_cases hs h₁
      obtain ⟨rfl, rfl⟩ := List.cons.inj (hms.symm.trans hthreads)
      obtain ⟨s', hrun, hgone, hsame, hall⟩ :=
        ih (step_sound hs h₁) hpc₁ (hgo.imp_right hrunning.trans) hthreads₁
      refine ⟨s', ?_, hgone, hsame.trans hrunning, fun n hn => hall n ?_⟩
      · rw [List.length_cons, List.replicate_succ, List.cons_append]
        exact run_cons.mpr ⟨s₁, h₁, hrun⟩
      · rw [hdeleted, List.mem_cons]
        rcases hn with hn | hn
        · exact (List.mem_cons.mp hn).elim (fun h => .inr (.inl h)) .inl
        · exact .inr (.inr hn)

/-- All threads can end. -/
theorem finish_all (s : Lifetime Mem Obj) :
    ∃ es s', (∀ e ∈ es, LifetimeEvent.cleansUp e = true) ∧
      run (step stackMin joinsFirst owner) s es = some s' ∧ s'.running = [] ∧
      s'.group = s.group ∧ s'.deleted = s.deleted ∧ s'.pc = s.pc := by
  generalize hn : s.running.length = n
  induction n using Nat.strongRecOn generalizing s with
  | ind n ih =>
      cases hr : s.running with
      | nil => exact ⟨[], s, by simp, rfl, hr, rfl, rfl, rfl⟩
      | cons r rs =>
          have hmem : r ∈ s.running := by rw [hr]; exact List.mem_cons_self
          have hstep : s.step stackMin joinsFirst owner (.finish r.1 r.2)
              = some { s with running := s.running.filter fun r' => decide (r' ≠ (r.1, r.2)) } :=
            if_pos hmem
          have hlt : (s.running.filter fun r' => decide (r' ≠ (r.1, r.2))).length < n := by
            rw [← hn]
            exact List.length_filter_lt_length_iff_exists.mpr ⟨r, hmem, by simp⟩
          obtain ⟨es, s', hes, hrun, hrest⟩ := ih _ hlt
            { s with running := s.running.filter fun r' => decide (r' ≠ (r.1, r.2)) } rfl
          exact ⟨_ :: es, s', List.forall_mem_cons.mpr ⟨rfl, hes⟩,
            run_cons.mpr ⟨_, hstep, hrun⟩, hrest⟩

/-! ## Without interruption

When no thread runs in between, the steps of a call are the call of the group's model. -/

section Alone

omit [DecidableEq Mem] [DecidableEq Obj] in
theorem awaited_of_none {s : Lifetime Mem Obj} (hnone : s.running = []) (m : Mem) (rc : Int) :
    s.awaited owner m rc = true := by simp [awaited, hnone]

/-- A `start()` that returns. -/
theorem start_alone {env : Mem → Obj × Answers}
    (howner : ∀ m, ¬ ((env m).2.create = 0 ∧ (env m).2.id = owner)) {ms : List Mem}
    {s : Lifetime Mem Obj} (hpc : s.pc = .starting ms) {g : ThreadGroup Mem Obj}
    (h : ThreadGroup.forEach (fun g m => g.startMember stackMin m (env m).1 (env m).2)
      s.group ms = some (g, none)) :
    ∃ s', run (step stackMin joinsFirst owner) s
        (ms.map fun m => .startNext (env m).1 (env m).2) = some s' ∧
      s'.group = g ∧ s'.pc = .starting [] ∧
      s'.running = (ms.map fun m => (m, (env m).2.id)).reverse ++ s.running := by
  induction ms generalizing s with
  | nil => exact ⟨s, rfl, (Prod.mk.inj (Option.some.inj h)).1, hpc, rfl⟩
  | cons m ms ih =>
      rcases ThreadGroup.forEach_cons h with ⟨g₁, h₁, h₂⟩ | ⟨-, he⟩
      · have hstep : s.step stackMin joinsFirst owner (.startNext (env m).1 (env m).2)
            = some { s with
              group := g₁, running := (m, (env m).2.id) :: s.running, pc := .starting ms } := by
          simp only [step, hpc, startMember]
          rw [if_neg (howner m), h₁, Option.map_some]
        obtain ⟨s', hrun, hgroup, hend, hrunning⟩ := ih (s := { s with
          group := g₁, running := (m, (env m).2.id) :: s.running, pc := .starting ms }) rfl h₂
        refine ⟨s', ?_, hgroup, hend, ?_⟩
        · rw [List.map_cons]
          exact run_cons.mpr ⟨_, hstep, hrun⟩
        · simpa using hrunning
      · exact absurd rfl he

/-- A `join()` that returns. -/
theorem join_alone {rc : Mem → Int} {ms : List Mem} {s : Lifetime Mem Obj}
    (hnone : s.running = []) (hpc : s.pc = .joining ms) {calls : List (Mem × Nat)}
    {g : ThreadGroup Mem Obj} (h : s.group.joinLoop owner rc ms = some (calls, g, none)) :
    run (step stackMin joinsFirst owner) s (ms.map fun m => .joinNext (rc m))
      = some { s with group := g, pc := .joining [] } := by
  induction ms generalizing s calls with
  | nil =>
      obtain ⟨-, rfl, -⟩ : calls = [] ∧ g = s.group ∧ True := by
        simpa [ThreadGroup.joinLoop, eq_comm] using h
      rw [List.map_nil, run_nil, ← hpc]
  | cons m ms ih =>
      rw [ThreadGroup.joinLoop] at h
      rw [List.map_cons]
      split_ifs at h with hj
      · rcases hr : s.group.joinMember m owner (rc m) with _ | ⟨g₁, _ | e₁⟩ <;> rw [hr] at h
        · cases h
        · obtain ⟨⟨calls₁, g₂, e₂⟩, hloop, heq⟩ := Option.map_eq_some_iff.mp h
          simp only [Prod.mk.injEq] at heq
          obtain ⟨-, rfl, rfl⟩ := heq
          refine run_cons.mpr ⟨{ s with group := g₁, pc := .joining ms }, ?_, ih hnone rfl hloop⟩
          simp only [step, hpc, hj, if_true, joinMember]
          rw [if_pos (awaited_of_none hnone m (rc m)), hr, Option.map_some]
        · simp at h
      · refine run_cons.mpr ⟨{ s with pc := .joining ms }, ?_, ih hnone rfl h⟩
        simp only [step, hpc]
        rw [if_neg hj]

/-- The destructor. -/
theorem destructor_alone {rc : Mem → Int} {ms : List Mem} {s : Lifetime Mem Obj}
    (hs : s.Sound owner) (hnone : s.running = []) (hpc : s.pc = .destroying)
    (hms : s.group.threads = ms) {acts : List (CleanUp Mem)} {g : ThreadGroup Mem Obj}
    (h : ThreadGroup.destructorLoop stackMin joinsFirst owner rc s.deleted s.group ms
      = some (acts, g, none)) :
    run (step stackMin joinsFirst owner) s (ms.map fun m => .destroyNext (rc m))
      = some { s with group := g, deleted := ms.reverse ++ s.deleted } := by
  induction ms generalizing s acts with
  | nil =>
      obtain ⟨-, rfl, -⟩ : acts = [] ∧ g = s.group ∧ True := by
        simpa [ThreadGroup.destructorLoop, eq_comm] using h
      rfl
  | cons m ms ih =>
      obtain ⟨acts₁, g₁, hfront, -, hthreads, -⟩ :=
        @ThreadGroup.destroyFront_object Mem Obj _ _ stackMin { s.group with threads := ms }
          ⟨hs.shape.pool, hs.shape.valid, hs.shape.unique⟩ joinsFirst owner rc m
      have hstep : s.step stackMin joinsFirst owner (.destroyNext (rc m))
          = some { s with group := g₁, deleted := m :: s.deleted } := by
        have hfront' : ThreadGroup.destroyFront stackMin joinsFirst owner (fun _ => rc m)
            { s.group with threads := ms } m = some (acts₁, g₁, none) := hfront
        simp only [step, hpc, hms, awaited_of_none hnone, Bool.not_true, Bool.and_false,
          Bool.false_eq_true, if_false, hfront']
      rw [ThreadGroup.destructorLoop] at h
      split_ifs at h
      rw [hfront] at h
      obtain ⟨⟨acts₂, g₂, e₂⟩, hloop, heq⟩ := Option.map_eq_some_iff.mp h
      simp only [Prod.mk.injEq] at heq
      obtain ⟨-, rfl, rfl⟩ := heq
      have hrest := ih (s := { s with group := g₁, deleted := m :: s.deleted })
        (step_sound hs hstep) hnone hpc hthreads hloop
      rw [List.map_cons]
      refine run_cons.mpr ⟨_, hstep, hrest.trans ?_⟩
      simp

end Alone

/-- **The group outlives its threads.** Whatever the threads do in between: as long as each member
is added once, no joinable member is started again and the destructor deletes no joinable member
without a join that does not fail, no object is deleted while a thread is in its `run()`, none is
deleted twice, and when the loop of `join()` is over no member's thread is running. The destructor
can only be held up by threads that run: once they have ended it deletes every member. And when it
is called and all its joins succeed (`cleansUp`), no member is deleted under its thread, however it
goes on, iff the group joins first or no member's thread is running by then. -/
theorem outlives_threads {stackSize : Mem → Nat} {es : List (LifetimeEvent Mem Obj)}
    {s : Lifetime Mem Obj} (h : run (step stackMin joinsFirst owner) (init stackSize) es = some s)
    (hcareful : Along (step stackMin joinsFirst owner) (Careful joinsFirst) (init stackSize) es) :
    (∀ m id, (m, id) ∈ s.running → m ∉ s.deleted) ∧ s.deleted.Nodup ∧
    (s.pc = .joining [] → ∀ m id, (m, id) ∈ s.running → m ∉ s.group.threads) ∧
    (s.pc = .destroying → ∃ es' s', (∀ e ∈ es', LifetimeEvent.cleansUp e = true) ∧
      run (step stackMin joinsFirst owner) s es' = some s' ∧ s'.pc = .gone ∧
      ∀ m ∈ s.group.threads, m ∈ s'.deleted) ∧
    (s.pc = .ready →
      ((∀ es' s', (∀ e ∈ es', LifetimeEvent.cleansUp e = true) →
        run (step stackMin joinsFirst owner) s (.callDestructor :: es') = some s' →
        ∀ m id, (m, id) ∈ s'.running → m ∉ s'.deleted) ↔
      joinsFirst = true ∨ ∀ m id, (m, id) ∈ s.running → m ∉ s.group.threads)) := by
  obtain ⟨hs, hk⟩ := run_kept (sound_init owner stackSize) (kept_init stackSize) hcareful h
  refine ⟨hk.alive, (List.nodup_append.mp hk.once).1, fun hpc m id hm hmem => ?_, fun hpc => ?_,
    fun hready => ⟨fun hall => ?_, ?_⟩⟩
  · exact List.not_mem_nil (hk.joined [] hpc m id hm hmem)
  · -- The threads end, and then the destructor need not wait.
    obtain ⟨es₁, s₁, hes₁, hrun₁, hnone, hgroup, -, hpc₁⟩ :=
      @finish_all Mem Obj _ _ stackMin joinsFirst owner s
    obtain ⟨s', hrun', hgone, -, hall⟩ := @destructor_can Mem Obj _ _ stackMin joinsFirst owner s₁
      (run_sound hs hrun₁) (hpc₁.trans hpc) (.inr hnone)
    refine ⟨_, s', ?_, run_append.mpr ⟨s₁, hrun₁, hrun'⟩, hgone, fun m hm => ?_⟩
    · intro e he
      simp only [List.mem_append, List.mem_replicate, List.mem_singleton] at he
      rcases he with he | ⟨-, rfl⟩ | rfl
      · exact hes₁ e he
      · rfl
      · rfl
    · exact hall m (.inl (hgroup ▸ hm))
  · -- Without the joins it deletes all members at once.
    by_contra hnot
    rw [not_or] at hnot
    obtain ⟨hfirst, hsome⟩ := hnot
    simp only [not_forall, not_not] at hsome
    obtain ⟨m, id, hm, hmem⟩ := hsome
    have hcall : s.step stackMin joinsFirst owner .callDestructor
        = some { s with pc := .destroying } := if_pos hready
    obtain ⟨s', hrun', -, hrunning, hdeleted⟩ := @destructor_can Mem Obj _ _ stackMin joinsFirst
      owner _ (step_sound hs hcall) rfl (.inl (Bool.eq_false_iff.mpr hfirst))
    refine hall _ s' (fun e he => ?_) (run_cons.mpr ⟨_, hcall, hrun'⟩) m id (hrunning ▸ hm)
      (hdeleted m (.inl hmem))
    simp only [List.mem_append, List.mem_replicate, List.mem_singleton] at he
    rcases he with ⟨-, rfl⟩ | rfl <;> rfl
  · rintro (rfl | hnone) es' s' hes' hrun' m id hm
    · exact (run_kept hs hk (careful_of_cleansUp hes') hrun').2.alive m id hm
    · have hapart : s'.Sound owner ∧ s'.Apart := by
        refine run_invariant (I := fun s : Lifetime Mem Obj => s.Sound owner ∧ s.Apart)
          (C := fun _ e => e = .callDestructor ∨ e.cleansUp = true)
          (fun _ _ _ hi hc hs => ⟨step_sound hi.1 hs, step_apart hi.1 hi.2 hc hs⟩) ⟨hs, ?_⟩
          (along_of_forall
            (List.forall_mem_cons.mpr ⟨.inl rfl, fun e he => .inr (hes' e he)⟩)) hrun'
        exact fun m id hm => ⟨hnone m id hm, hk.alive m id hm⟩
      exact (hapart.2 m id hm).2

/-- Two members are started, the first thread ends before the second is created, and the
destructor waits for the second. -/
def supervised : List (LifetimeEvent Nat Nat) :=
  [.add 0, .add 1, .callStart, .startNext 0 ⟨0, 0, 0, 0, 41⟩, .finish 0 41,
   .startNext 1 ⟨0, 0, 0, 0, 42⟩, .ret, .callDestructor, .destroyNext 0]

theorem supervised_runs :
    (run (step 16 true 7) (init fun _ => 0) supervised).isSome = true := by decide

theorem outlives_threads_supervised :
    ∃ s, run (step 16 true 7) (init fun _ => 0) supervised = some s ∧ s.running = [(1, 42)] ∧
      s.deleted = [0] ∧ ∃ es' s', (∀ e ∈ es', LifetimeEvent.cleansUp e = true) ∧
        run (step 16 true 7) s es' = some s' ∧ s'.pc = .gone ∧
        ∀ m ∈ s.group.threads, m ∈ s'.deleted :=
  ⟨_, (Option.some_get supervised_runs).symm, by decide, by decide,
    (outlives_threads (Option.some_get supervised_runs).symm (by decide)).2.2.2.1 (by decide)⟩

/-- A member that is added twice is deleted twice. -/
example : (run (step 16 true 7) (init fun _ => 0)
    [.add 0, .add 0, .callDestructor, .destroyNext 0, .destroyNext 0]).map
      (fun s : Lifetime Nat Nat => s.deleted) = some [0, 0] := by decide

/-- `destructor_joins_first` is false unless it is asked for. -/
example : (run (step 16 false 7) (init fun _ => 0)
    [.add 0, .callStart, .startNext 0 ⟨0, 0, 0, 0, 41⟩, .ret, .callDestructor,
      .destroyNext 0]).map (fun s : Lifetime Nat Nat => (s.running, s.deleted))
    = some ([(0, 41)], [0]) := by decide

end Lifetime

end CppPthread
