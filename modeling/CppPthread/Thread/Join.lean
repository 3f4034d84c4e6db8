import CppPthread.Thread.Group

set_option autoImplicit false

/-! # What a join leaves behind

`thread::join()` passes its id to `pthread_join` unless it has none, or the caller's own
(`joinCalls`). When `pthread_join` succeeds the object gives up its id and its status, and every
later join, by whichever way it comes, finds nothing to do (`DoneFor`). When it fails the join
throws and the object stays as it is, with one exception: `ESRCH` is taken for a thread that has
already ended, and the join returns without giving up the id.
-/

namespace CppPthread

open Posix Run

namespace Thread

variable {Obj : Type}

theorem joinFailed_eq_none {rc : Int} : joinFailed rc = none ↔ rc = ESRCH := by
  constructor
  · intro h
    unfold joinFailed at h
    split_ifs at h with _ _ hesrch
    exact hesrch
  · rintro rfl
    rfl

theorem notAThread_of_id {t : Thread Obj} (hstatus : t.status = .aThread ↔ t.thread ≠ 0)
    (hid : t.thread = 0) : t.status = .notAThread := by
  cases hs : t.status with
  | notAThread => rfl
  | aThread => exact absurd hid (hstatus.mp hs)

/-- **What a join does**: nothing, to an object without an id; it refuses to join the caller; and
otherwise `pthread_join` decides. -/
theorem join_spec {t : Thread Obj} (hstatus : t.status = .aThread ↔ t.thread ≠ 0) (caller : Nat)
    (rc : Int) (os : Os) :
    (t.thread = 0 ∧ t.joinCalls caller = [] ∧ t.join caller rc os = (os, t, none)) ∨
    (t.thread ≠ 0 ∧ t.thread = caller ∧ t.joinCalls caller = [] ∧
      t.join caller rc os = (os, t, some joinYourself)) ∨
    (t.thread ≠ 0 ∧ t.thread ≠ caller ∧ t.joinCalls caller = [t.thread] ∧
      t.join caller rc os = if rc = 0 then ({ os with joined := os.joined ++ [t.thread] },
          { t with status := .notAThread, thread := 0 }, none)
        else (os, t, joinFailed rc)) := by
  unfold joinCalls join
  by_cases hid : t.thread ≠ 0
  · have hnot : t.status ≠ .notAThread := by rw [hstatus.mpr hid]; decide
    rw [if_pos hid, if_pos hid]
    by_cases hself : t.thread = caller
    · exact .inr (.inl ⟨hid, hself, if_pos hself, if_pos hself⟩)
    · rw [if_neg hself, if_neg hself, if_neg hnot, if_neg hnot]
      exact .inr (.inr ⟨hid, hself, rfl, rfl⟩)
  · exact .inl ⟨not_not.mp hid, if_neg hid, if_neg hid⟩

/-- How a join ends does not depend on what has happened outside the objects. -/
theorem join_outcome (t : Thread Obj) (caller : Nat) (rc : Int) (os os' : Os) :
    (t.join caller rc os).2.2 = (t.join caller rc os').2.2 := by
  unfold join
  split_ifs <;> rfl

/-- A join of an object with an id gives the id up, or fails. -/
theorem join_of_id {t : Thread Obj} (hid : t.thread ≠ 0) (caller : Nat) (rc : Int) (os : Os) :
    t.thread ∈ (t.join caller rc os).1.joined ∨ (t.join caller rc os).2.2 ≠ none ∨ rc = ESRCH := by
  unfold join
  rw [if_pos hid]
  by_cases hself : t.thread = caller
  · rw [if_pos hself]
    exact .inr (.inl (by simp))
  · rw [if_neg hself]
    by_cases hstatus : t.status = .notAThread
    · rw [if_pos hstatus]
      exact .inr (.inl (by simp))
    · rw [if_neg hstatus]
      by_cases hrc : rc = 0
      · rw [if_pos hrc]
        exact .inl (by simp)
      · rw [if_neg hrc]
        by_cases hfailed : joinFailed rc = none
        · exact .inr (.inr (joinFailed_eq_none.mp hfailed))
        · exact .inr (.inl hfailed)

end Thread

namespace ThreadGroup

variable {Mem Obj : Type} [DecidableEq Obj]

omit [DecidableEq Obj] in
theorem memberJoinable_eq {g : ThreadGroup Mem Obj} {m : Mem} {a : Obj} {t : Thread Obj}
    (hm : (g.members m).thread = some a) (ht : g.pool.memory a = some t) :
    g.memberJoinable m = t.joinable := by
  simp only [memberJoinable, hm, ht, Option.elim_some]

/-- A join of one member changes only the object that it points to. -/
theorem joinMember_frame {g g' : ThreadGroup Mem Obj} {m : Mem} {caller : Nat} {rc : Int}
    {e : Option PthreadException} (h : g.joinMember m caller rc = some (g', e)) :
    g'.members = g.members ∧
      ∀ b, (g.members m).thread ≠ some b → g'.pool.memory b = g.pool.memory b := by
  unfold joinMember at h
  split at h
  · obtain ⟨rfl, -⟩ := Prod.mk.inj (Option.some.inj h)
    exact ⟨rfl, fun _ _ => rfl⟩
  · rename_i a hm
    split at h
    · cases h
    · obtain ⟨rfl, -⟩ := Prod.mk.inj (Option.some.inj h)
      refine ⟨rfl, fun b hb => Function.update_of_ne (fun hba => hb ?_) ..⟩
      rw [hm, hba]

/-- A member whose object has no id is passed over by the join of a group. -/
theorem joinLoop_skips {caller : Nat} {rc : Mem → Int} {m : Mem} {a : Obj} {t : Thread Obj}
    (hid : t.thread = 0) {ms : List Mem} {g : ThreadGroup Mem Obj}
    (hm : (g.members m).thread = some a) (ht : g.pool.memory a = some t)
    {calls : List (Mem × Nat)} {g' : ThreadGroup Mem Obj} {e : Option PthreadException}
    (h : g.joinLoop caller rc ms = some (calls, g', e)) :
    g'.pool.memory a = some t ∧ ∀ id, (m, id) ∉ calls := by
  induction ms generalizing g calls with
  | nil =>
      obtain ⟨rfl, hr⟩ := Prod.mk.inj (Option.some.inj h)
      obtain ⟨rfl, -⟩ := Prod.mk.inj hr
      exact ⟨ht, fun id => List.not_mem_nil⟩
  | cons n ms ih =>
      rw [joinLoop] at h
      split_ifs at h with hj
      · -- a member that is joined points to another object
        have hna : (g.members n).thread ≠ some a := fun hna => by
          rw [memberJoinable_eq hna ht] at hj
          simp [Thread.joinable, hid] at hj
        have hcalls : ∀ id, (m, id) ∉ (g.memberJoinCalls n caller).map fun id => (n, id) := by
          intro id hmem
          obtain ⟨_, -, heq⟩ := List.mem_map.mp hmem
          exact hna ((Prod.mk.inj heq).1 ▸ hm)
        rcases hr : g.joinMember n caller (rc n) with _ | ⟨g₁, _ | e₁⟩ <;> rw [hr] at h
        · cases h
        · obtain ⟨hmembers, hmemory⟩ := joinMember_frame hr
          obtain ⟨⟨calls₁, r⟩, hloop, heq⟩ := Option.map_eq_some_iff.mp h
          obtain ⟨rfl, rfl⟩ := Prod.mk.inj heq
          obtain ⟨hsame, hrest⟩ := ih (g := g₁) (by rw [hmembers]; exact hm)
            (by rw [hmemory a hna]; exact ht) hloop
          exact ⟨hsame, fun id hmem => (List.mem_append.mp hmem).elim (hcalls id) (hrest id)⟩
        · obtain ⟨-, hmemory⟩ := joinMember_frame hr
          obtain ⟨rfl, hr'⟩ := Prod.mk.inj (Option.some.inj h)
          obtain ⟨rfl, -⟩ := Prod.mk.inj hr'
          exact ⟨by rw [hmemory a hna]; exact ht, hcalls⟩
      · exact ih hm ht h

end ThreadGroup

/-! ## All or nothing -/

namespace Thread

variable {Obj : Type} [DecidableEq Obj]

/-- The object is not a thread, and no later join of it makes a call: neither its own, nor those of
an `abstract_thread` and of a group that refer to it. -/
structure DoneFor (t : Thread Obj) : Prop where
  joinable : t.joinable = false
  id : t.thread = 0
  status : t.status = .notAThread
  own : ∀ caller rc os, t.join caller rc os = (os, t, none) ∧ t.joinCalls caller = []
  member : ∀ {Mem : Type} (g : ThreadGroup Mem Obj) (m : Mem) (a : Obj),
    (g.members m).thread = some a → g.pool.memory a = some t → ∀ caller rc,
      (∃ g', g.joinMember m caller rc = some (g', none) ∧ g'.pool.memory a = some t) ∧
        g.memberJoinCalls m caller = []
  group : ∀ {Mem : Type} (g : ThreadGroup Mem Obj) (m : Mem) (a : Obj),
    (g.members m).thread = some a → g.pool.memory a = some t → ∀ caller rc ms calls g' e,
      g.joinLoop caller rc ms = some (calls, g', e) →
        g'.pool.memory a = some t ∧ ∀ id, (m, id) ∉ calls

theorem doneFor_of {t : Thread Obj} (hid : t.thread = 0) (hstatus : t.status = .notAThread) :
    t.DoneFor where
  joinable := by simp [joinable, hid]
  id := hid
  status := hstatus
  own caller rc os := by simp [join, joinCalls, hid]
  member g m a hm ht caller rc := by
    have hjoin : t.join caller rc g.pool.os = (g.pool.os, t, none) := by simp [join, hid]
    refine ⟨⟨_, by simp only [ThreadGroup.joinMember, hm, ht, hjoin]; rfl, ?_⟩, ?_⟩
    · exact Function.update_self ..
    · simp [ThreadGroup.memberJoinCalls, hm, ht, joinCalls, hid]
  group g m a hm ht caller rc ms calls g' e h := ThreadGroup.joinLoop_skips hid hm ht h

/-- What `join()` is to do, for the thread `caller` and the return code `rc`. -/
structure AllOrNothing (caller : Nat) (rc : Int) (t : Thread Obj) (os : Os) : Prop where
  threw : ∀ e, (t.join caller rc os).2.2 = some e →
    (t.join caller rc os).2.1.thread = t.thread ∧ (t.join caller rc os).2.1.status = t.status
  returned : (t.join caller rc os).2.2 = none → (t.join caller rc os).2.1.DoneFor

/-- **When a join is all or nothing.** For every object that any use of `thread`s can produce,
every caller and every return code: iff it is not the case that the object has the id of another
thread and `pthread_join` returns `ESRCH`. -/
theorem join_all_or_nothing_iff {stackMin : Nat} {ops : List (PoolOp Obj)} {p : Pool Obj}
    (h : run (Pool.step stackMin) Pool.empty ops = some p) {a : Obj} {t : Thread Obj}
    (ht : p.memory a = some t) (caller : Nat) (rc : Int) :
    t.AllOrNothing caller rc p.os ↔ ¬ (t.thread ≠ 0 ∧ t.thread ≠ caller ∧ rc = ESRCH) := by
  have hstatus := ((Pool.run_ok Pool.ok_empty h).threads a t ht).status_iff
  rcases join_spec hstatus caller rc p.os with ⟨hid, -, hjoin⟩ | ⟨hid, hself, -, hjoin⟩ |
    ⟨hid, hself, -, hjoin⟩
  · have hnot := notAThread_of_id hstatus hid
    refine iff_of_true ⟨?_, ?_⟩ (fun hbad => hbad.1 hid) <;> rw [hjoin]
    · exact fun e he => ⟨rfl, rfl⟩
    · exact fun _ => doneFor_of hid hnot
  · refine iff_of_true ⟨?_, ?_⟩ (fun hbad => hbad.2.1 hself) <;> rw [hjoin]
    · exact fun e he => ⟨rfl, rfl⟩
    · exact fun hnone => by cases hnone
  · by_cases hrc : rc = 0
    · subst hrc
      rw [if_pos rfl] at hjoin
      refine iff_of_true ⟨?_, ?_⟩ (fun hbad => absurd hbad.2.2 (by decide)) <;> rw [hjoin]
      · exact fun e he => by cases he
      · exact fun _ => doneFor_of rfl rfl
    · rw [if_neg hrc] at hjoin
      constructor
      · -- after `ESRCH` the join returns and the id is still there
        rintro ⟨-, hreturned⟩ ⟨-, -, rfl⟩
        rw [hjoin] at hreturned
        exact hid (hreturned rfl).id
      · intro hgood
        refine ⟨?_, ?_⟩ <;> rw [hjoin]
        · exact fun e he => ⟨rfl, rfl⟩
        · exact fun hnone => absurd ⟨hid, hself, joinFailed_eq_none.mp hnone⟩ hgood

/-- Two threads are started, and one is joined with success and then again. -/
def joinedTwice : List (PoolOp Nat) :=
  [.constructStarted 0 0 ⟨0, 0, 0, 0, 41⟩, .constructStarted 1 0 ⟨0, 0, 0, 0, 42⟩, .join 0 7 0,
   .join 0 7 ESRCH]

theorem joinedTwice_runs : (run (Pool.step 16) Pool.empty joinedTwice).isSome = true := by decide

theorem join_all_or_nothing_iff_joinedTwice :
    ∃ p t u, run (Pool.step 16) Pool.empty joinedTwice = some p ∧ p.memory 0 = some t ∧
      p.memory 1 = some u ∧ t.AllOrNothing 7 ESRCH p.os ∧ u.AllOrNothing 7 EINVAL p.os ∧
      ¬ u.AllOrNothing 7 ESRCH p.os :=
  ⟨_, ⟨0, some ⟨0, 0⟩, some 0, .notAThread⟩, ⟨42, some ⟨1, 0⟩, some 1, .aThread⟩,
    (Option.some_get joinedTwice_runs).symm, by decide, by decide,
    (join_all_or_nothing_iff (a := 0) (Option.some_get joinedTwice_runs).symm (by decide) 7
      ESRCH).mpr (by decide),
    (join_all_or_nothing_iff (a := 1) (Option.some_get joinedTwice_runs).symm (by decide) 7
      EINVAL).mpr (by decide),
    fun hall => (join_all_or_nothing_iff (a := 1) (Option.some_get joinedTwice_runs).symm
      (by decide) 7 ESRCH).mp hall (by decide)⟩

/-- `pthread_join` finds no thread with the id: the join returns, and the object is as before. -/
theorem join_keeps_id :
    ∃ (p : Pool Nat) (t : Thread Nat), run (Pool.step 16) Pool.empty
        [.constructStarted 0 0 ⟨0, 0, 0, 0, 41⟩] = some p ∧
      p.memory 0 = some t ∧ t.join 7 ESRCH p.os = (p.os, t, none) ∧ t.joinable = true ∧
      t.thread = 41 ∧ t.status = .aThread ∧ t.joinCalls 7 = [41] ∧
      ¬ t.AllOrNothing 7 ESRCH p.os := by
  refine ⟨⟨⟨1, [], [41], []⟩, _, []⟩, ⟨41, some ⟨0, 0⟩, some 0, .aThread⟩, rfl, by decide,
    by decide, by decide, rfl, rfl, by decide, fun hall => ?_⟩
  exact absurd (hall.returned (by decide)).id (by decide)

end Thread

end CppPthread
