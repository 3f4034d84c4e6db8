import CppPthread.Thread.Destructor

set_option autoImplicit false

/-! # The objects of the members

What the operations on one member of a group do to the `thread` objects that the members point to
(`object`): each touches the object of its own member only, as every member that has been started
has an object of its own (`Shape`).
-/

namespace CppPthread

open Posix Run

namespace ThreadGroup

variable {Mem Obj : Type} [DecidableEq Mem] [DecidableEq Obj] (stackMin : Nat)

/-- Every member that has been started has an object of its own. -/
structure Shape (g : ThreadGroup Mem Obj) : Prop where
  pool : g.pool.Ok
  valid : ∀ m a, (g.members m).thread = some a → ∃ t, g.pool.memory a = some t
  unique : ∀ m n a, (g.members m).thread = some a → (g.members n).thread = some a → m = n

omit [DecidableEq Mem] [DecidableEq Obj] in
theorem object_eq_some {g : ThreadGroup Mem Obj} {m : Mem} {t : Thread Obj} :
    g.object m = some t ↔ ∃ a, (g.members m).thread = some a ∧ g.pool.memory a = some t :=
  Option.bind_eq_some_iff

omit [DecidableEq Mem] [DecidableEq Obj] in
theorem joinable_iff_object {g : ThreadGroup Mem Obj} {m : Mem} :
    g.memberJoinable m = true ↔ ∃ t, g.object m = some t ∧ t.thread ≠ 0 := by
  rw [memberJoinable_iff]
  constructor
  · rintro ⟨a, t, hm, ht, hid⟩
    exact ⟨t, object_eq_some.mpr ⟨a, hm, ht⟩, hid⟩
  · rintro ⟨t, ht, hid⟩
    obtain ⟨a, hm, ht⟩ := object_eq_some.mp ht
    exact ⟨a, t, hm, ht, hid⟩

omit [DecidableEq Mem] [DecidableEq Obj] in
theorem object_congr {g g' : ThreadGroup Mem Obj} {n : Mem} (hn : g'.members n = g.members n)
    (hmemory : ∀ b, (g.members n).thread = some b → g'.pool.memory b = g.pool.memory b) :
    g'.object n = g.object n := by
  rw [object, object, hn]
  cases h : (g.members n).thread with
  | none => rfl
  | some b => exact hmemory b h

/-- A start throws and leaves the objects alone, or the member has a new object with the new id. -/
theorem startMember_object {g g' : ThreadGroup Mem Obj} (hg : g.Shape) {m : Mem} {a : Obj}
    {ans : Answers} {e : Option PthreadException}
    (h : g.startMember stackMin m a ans = some (g', e)) :
    g'.Shape ∧ g'.threads = g.threads ∧ (∀ n, n ≠ m → g'.object n = g.object n) ∧
    ((e ≠ none ∧ g'.pool.os.created = g.pool.os.created ∧ g'.object m = g.object m) ∨
    (e = none ∧ ans.create = 0 ∧ g'.pool.os.created = g.pool.os.created ++ [ans.id] ∧
      ∃ t, g'.object m = some t ∧ t.thread = ans.id ∧ t.thread ≠ 0)) := by
  have hpool : g'.pool.Ok := Pool.step_ok hg.pool (pool_startMember stackMin h)
  obtain ⟨hthreads, -, -, hfree, ⟨he, -, hmembers, hmemory, hcreated⟩ |
    ⟨he, hs, hmembers, t, hid, hne, hmemory, hcreated⟩⟩ := startMember_cases stackMin h
  · have hobject : ∀ n, g'.object n = g.object n := fun n =>
      object_congr (congrFun hmembers n) fun b _ => congrFun hmemory b
    refine ⟨⟨hpool, ?_, ?_⟩, hthreads, fun n _ => hobject n, .inl ⟨he, hcreated, hobject m⟩⟩
    · rw [hmembers, hmemory]
      exact hg.valid
    · rw [hmembers]
      exact hg.unique
  · -- The address of the new object is free, so no member has pointed to it.
    have hnew : ∀ n, (g.members n).thread ≠ some a := by
      intro n hn
      obtain ⟨u, hu⟩ := hg.valid n a hn
      rw [hfree] at hu
      cases hu
    have hself : (g'.members m).thread = some a := (thread_update hmembers m).trans (if_pos rfl)
    refine ⟨⟨hpool, ?_, unique_update hmembers hnew hg.unique⟩, hthreads, ?_, ?_⟩
    · intro n b hn
      rw [hmemory, Function.update_apply]
      split_ifs with hb
      · exact ⟨t, rfl⟩
      · rw [thread_update hmembers] at hn
        split_ifs at hn
        · exact absurd (Option.some.inj hn).symm hb
        · exact hg.valid n b hn
    · intro n hn
      refine object_congr (by rw [hmembers, Function.update_of_ne hn]) fun b hb => ?_
      have hba : b ≠ a := fun hba => hnew n (hba ▸ hb)
      rw [hmemory, Function.update_of_ne hba]
    · refine .inr ⟨he, ?_, hcreated, t, ?_, hid, hne⟩
      · simp only [Answers.succeed, Bool.and_eq_true, decide_eq_true_eq] at hs
        exact hs.2
      · exact object_eq_some.mpr ⟨a, hself, by rw [hmemory, Function.update_self]⟩

omit [DecidableEq Mem] in
/-- A join of a member. When it returns the member was not joinable, or `pthread_join` has been
called with the id and has not failed. When it throws it changes nothing. -/
theorem joinMember_object {g : ThreadGroup Mem Obj} (hg : g.Shape) (m : Mem) (caller : Nat)
    (rc : Int) :
    ∃ g' e, g.joinMember m caller rc = some (g', e) ∧ g'.Shape ∧ g'.threads = g.threads ∧
      g'.pool.os.created = g.pool.os.created ∧ (∀ n, n ≠ m → g'.object n = g.object n) ∧
      ((g'.object m = g.object m ∧ (e = none → g.memberJoinable m = false)) ∨
        (rc = 0 ∨ rc = ESRCH) ∧
          ∃ t, g.object m = some t ∧ g.memberJoinCalls m caller = [t.thread]) := by
  cases hm : (g.members m).thread with
  | none =>
      refine ⟨g, none, by simp only [joinMember, hm], hg, rfl, rfl, fun _ _ => rfl,
        .inl ⟨rfl, fun _ => ?_⟩⟩
      simp only [memberJoinable, hm]
  | some a =>
      obtain ⟨t, ht⟩ := hg.valid m a hm
      have hobject : g.object m = some t := object_eq_some.mpr ⟨a, hm, ht⟩
      have hpool : Pool.Ok { g.pool with
          os := (t.join caller rc g.pool.os).1
          memory := Function.update g.pool.memory a (some (t.join caller rc g.pool.os).2.1) } := by
        refine @Pool.step_ok Obj _ 0 g.pool _ (.join a caller rc) hg.pool ?_
        simp only [Pool.step, ht]
      refine ⟨{ g with pool := { g.pool with
          os := (t.join caller rc g.pool.os).1
          memory := Function.update g.pool.memory a (some (t.join caller rc g.pool.os).2.1) } },
        (t.join caller rc g.pool.os).2.2, by simp only [joinMember, hm, ht],
        ⟨hpool, fun n b hb => ?_, hg.unique⟩, rfl, ?_, fun n hn => ?_, ?_⟩
      · show ∃ u, Function.update g.pool.memory a _ b = some u
        rw [Function.update_apply]
        split_ifs
        · exact ⟨_, rfl⟩
        · exact hg.valid n b hb
      · show (t.join caller rc g.pool.os).1.created = _
        rcases Thread.join_cases caller rc t g.pool.os with ⟨e, hj⟩ | ⟨-, -, hj⟩ <;> rw [hj]
      · refine object_congr rfl fun b hb => Function.update_of_ne (fun hba => hn ?_) ..
        exact hg.unique n m a (hba ▸ hb) hm
      · rcases Thread.join_spec (hg.pool.threads a t ht).status_iff caller rc g.pool.os with
          ⟨hid, -, hj⟩ | ⟨-, -, -, hj⟩ | ⟨-, -, hcalls, hj⟩
        · refine .inl ⟨?_, fun _ => ?_⟩
          · rw [hobject, hj]
            exact object_eq_some.mpr ⟨a, hm, Function.update_self ..⟩
          · rw [memberJoinable_eq hm ht]
            simp [Thread.joinable, hid]
        · refine .inl ⟨?_, fun he => ?_⟩
          · rw [hobject, hj]
            exact object_eq_some.mpr ⟨a, hm, Function.update_self ..⟩
          · rw [hj] at he
            cases he
        · have hmcalls : g.memberJoinCalls m caller = [t.thread] := by
            simp only [memberJoinCalls, hm, ht, Option.elim_some, hcalls]
          by_cases hrc : rc = 0 ∨ rc = ESRCH
          · exact .inr ⟨hrc, t, hobject, hmcalls⟩
          · rw [not_or] at hrc
            rw [if_neg hrc.1] at hj
            refine .inl ⟨?_, fun he => ?_⟩
            · rw [hobject, hj]
              exact object_eq_some.mpr ⟨a, hm, Function.update_self ..⟩
            · rw [hj] at he
              exact absurd (Thread.joinFailed_eq_none.mp he) hrc.2

/-- The destructor of a member frees its object. -/
theorem destroyMember_object {g : ThreadGroup Mem Obj} (hg : g.Shape) (m : Mem) :
    ∃ g', g.destroyMember stackMin m = some g' ∧ g'.Shape ∧ g'.threads = g.threads ∧
      g'.pool.os.created = g.pool.os.created ∧ ∀ n, n ≠ m → g'.object n = g.object n := by
  unfold destroyMember
  cases hm : (g.members m).thread with
  | none => exact ⟨g, rfl, hg, rfl, rfl, fun _ _ => rfl⟩
  | some a =>
      obtain ⟨t, ht⟩ := hg.valid m a hm
      have hstep : g.pool.step stackMin (.destroy a) = some ⟨t.destroy g.pool.os,
          Function.update g.pool.memory a none,
          if t.thread ≠ 0 then g.pool.dropped ++ [t.thread] else g.pool.dropped⟩ := by
        simp only [Pool.step, ht]
      -- The others keep their pointers, which are to other objects.
      have hptr : ∀ n b, (Function.update g.members m
          { g.members m with thread := none } n).thread = some b →
          n ≠ m ∧ b ≠ a ∧ (g.members n).thread = some b := by
        intro n b hb
        by_cases hn : n = m
        · rw [hn, Function.update_self] at hb
          cases hb
        · rw [Function.update_of_ne hn] at hb
          exact ⟨hn, fun hba => hn (hg.unique n m a (hba ▸ hb) hm), hb⟩
      simp only [hstep, Option.map_some]
      refine ⟨_, rfl, ⟨Pool.step_ok hg.pool hstep, fun n b hb => ?_, fun n k b hb hk => ?_⟩, rfl,
        ?_, fun n hn => ?_⟩
      · obtain ⟨-, hba, hb⟩ := hptr n b hb
        exact (hg.valid n b hb).imp fun u hu => (Function.update_of_ne hba ..).trans hu
      · exact hg.unique n k b (hptr n b hb).2.2 (hptr k b hk).2.2
      · show (t.destroy g.pool.os).created = _
        unfold Thread.destroy
        split <;> rfl
      · refine object_congr (Function.update_of_ne hn ..) fun b hb =>
          Function.update_of_ne (fun hba => hn ?_) ..
        exact hg.unique n m a (hba ▸ hb) hm

/-- The body of the destructor's loop, for one member. -/
theorem destroyFront_object {g : ThreadGroup Mem Obj} (hg : g.Shape) (joinsFirst : Bool)
    (caller : Nat) (rc : Mem → Int) (m : Mem) :
    ∃ acts g', destroyFront stackMin joinsFirst caller rc g m = some (acts, g', none) ∧
      g'.Shape ∧ g'.threads = g.threads ∧ g'.pool.os.created = g.pool.os.created ∧
      ∀ n, n ≠ m → g'.object n = g.object n := by
  unfold destroyFront
  split_ifs
  · obtain ⟨g₁, e, hjoin, hg₁, hthreads₁, hcreated₁, hobject₁, -⟩ :=
      joinMember_object hg m caller (rc m)
    obtain ⟨g', hdestroy, hg', hthreads, hcreated, hobject⟩ :=
      destroyMember_object stackMin hg₁ m
    refine ⟨.join m e :: (catchAll e).1 ++ [.delete m], g', ?_, hg', hthreads.trans hthreads₁,
      hcreated.trans hcreated₁, fun n hn => (hobject n hn).trans (hobject₁ n hn)⟩
    simp only [hjoin, hdestroy, Option.map_some, catchAll_escapes]
  · obtain ⟨g', hdestroy, hg', hrest⟩ := destroyMember_object stackMin hg m
    exact ⟨_, g', by rw [hdestroy]; rfl, hg', hrest⟩

omit [DecidableEq Mem] [DecidableEq Obj] in
/-- The join of a joinable member by a thread that is not in the group calls `pthread_join`. -/
theorem memberJoinCalls_of_joinable {g : ThreadGroup Mem Obj} (hg : g.Shape) {caller : Nat}
    (hcaller : caller ∉ g.pool.os.created) {m : Mem} {t : Thread Obj} (ht : g.object m = some t)
    (hid : t.thread ≠ 0) : g.memberJoinCalls m caller = [t.thread] := by
  obtain ⟨a, hm, ha⟩ := object_eq_some.mp ht
  have hcreated : t.thread ∈ g.pool.os.created :=
    ((hg.pool.ids.held_iff _).mp ⟨a, (Pool.held_idIn hid).mpr ⟨t, ha, rfl⟩⟩).1
  rcases Thread.join_spec (hg.pool.threads a t ha).status_iff caller 0 g.pool.os with
    ⟨h0, -, -⟩ | ⟨-, hself, -, -⟩ | ⟨-, -, hcalls, -⟩
  · exact absurd h0 hid
  · exact absurd (hself ▸ hcreated) hcaller
  · simp only [memberJoinCalls, hm, ha, Option.elim_some, hcalls]

end ThreadGroup

end CppPthread
