import CppPthread.Thread.Group

set_option autoImplicit false

/-! # Starting a thread

The constructor that starts a thread makes four calls that can fail. Whichever fails first, no
thread has been created then, and the attribute is destroyed if it has been initialised: the
constructor delegates to `thread()`, so that the object is complete and its destructor runs when
`init` throws. The size of the stack is tested before the third call, and the test refuses the
smallest legal size as well (`start_atomic_iff`).
-/

namespace CppPthread

open Posix Run

/-- All four calls succeed. -/
def Answers.Good (ans : Answers) : Prop :=
  ans.attrInit = 0 ∧ ans.setDetachState = 0 ∧ ans.setStackSize = 0 ∧ ans.create = 0

instance : DecidablePred Answers.Good := fun _ => inferInstanceAs (Decidable (_ ∧ _))

theorem Answers.succeed_of_good {ans : Answers} (h : ans.Good) (stackMin stackSize : Nat) :
    ans.succeed stackMin stackSize = (decide (stackSize = 0) || decide (stackMin < stackSize)) := by
  obtain ⟨hinit, hdetach, hset, hcreate⟩ := h
  simp [succeed, hinit, hdetach, hset, hcreate]

namespace Thread

variable {Obj : Type}

/-- What the constructor leaves when it throws. -/
theorem constructStarted_throws {self : Obj} {stackMin stackSize : Nat} {ans : Answers}
    {os os' : Os} {e : PthreadException}
    (h : constructStarted self stackMin stackSize ans os = (os', .error e)) :
    e.cls = .threadException ∧ os' = if ans.attrInit = 0 then { os with
      attrs := os.attrs + 1, destroyed := os.destroyed ++ [os.attrs] } else os := by
  unfold constructStarted construct init prepare at h
  split_ifs at h <;> simp [destroy] at h <;> obtain ⟨rfl, rfl⟩ := h <;>
    simp_all [threadException]

/-- It throws iff its calls do not succeed. -/
theorem constructStarted_throws_iff {self : Obj} {stackMin stackSize : Nat} {ans : Answers}
    {os : Os} : (∃ os' e, constructStarted self stackMin stackSize ans os = (os', .error e)) ↔
      ans.succeed stackMin stackSize = false := by
  rcases constructStarted_cases self stackMin stackSize ans os with
    ⟨hs, e, hc⟩ | ⟨hs, e, hc⟩ | ⟨hs, -, size, hc⟩
  · exact iff_of_true ⟨_, e, hc⟩ hs
  · exact iff_of_true ⟨_, e, hc⟩ hs
  · rw [hs, hc]
    simp

/-- Starting a thread is atomic and accepts the legal sizes of the stack. -/
structure StartsProperly (a : Obj) (stackMin stackSize : Nat) (ans : Answers) (os : Os) : Prop where
  /-- No thread has been created, and an attribute that has been initialised has been destroyed. -/
  threw : ∀ os' e, constructStarted a stackMin stackSize ans os = (os', .error e) →
    e.cls = .threadException ∧ os'.created = os.created ∧ os' = if ans.attrInit = 0 then { os with
      attrs := os.attrs + 1, destroyed := os.destroyed ++ [os.attrs] } else os
  returned : ∀ os' t, constructStarted a stackMin stackSize ans os = (os', .ok t) →
    os'.created = os.created ++ [ans.id] ∧ t.thread = ans.id ∧ t.status = .aThread
  legal : ans.Good →
    ((∃ os' e, constructStarted a stackMin stackSize ans os = (os', .error e)) ↔
      0 < stackSize ∧ stackSize < stackMin)

/-- The smallest legal size is refused, and it is the only one. -/
theorem startsProperly_iff {stackMin : Nat} (hmin : 0 < stackMin) (self : Obj) (stackSize : Nat)
    (ans : Answers) (os : Os) : StartsProperly self stackMin stackSize ans os ↔
      ¬ (stackSize = stackMin ∧ ans.Good) := by
  constructor
  · rintro ⟨-, -, hlegal⟩ ⟨rfl, hgood⟩
    have hrefused : ans.succeed stackSize stackSize = false := by
      rw [Answers.succeed_of_good hgood]
      simp [Nat.ne_of_gt hmin]
    have hlt : stackSize < stackSize :=
      ((hlegal hgood).mp (constructStarted_throws_iff.mpr hrefused)).2
    exact absurd hlt (Nat.lt_irrefl stackSize)
  · intro hnot
    refine ⟨fun os' e h => ?_, fun os' t h => ?_, fun hgood => ?_⟩
    · obtain ⟨hcls, rfl⟩ := constructStarted_throws h
      refine ⟨hcls, ?_, rfl⟩
      split_ifs <;> rfl
    · rcases constructStarted_cases self stackMin stackSize ans os with
        ⟨-, e, hc⟩ | ⟨-, e, hc⟩ | ⟨-, -, size, hc⟩ <;> rw [hc] at h <;> cases h
      exact ⟨rfl, rfl, rfl⟩
    · have hne : stackSize ≠ stackMin := fun heq => hnot ⟨heq, hgood⟩
      rw [constructStarted_throws_iff, Answers.succeed_of_good hgood, Bool.or_eq_false_iff,
        decide_eq_false_iff_not, decide_eq_false_iff_not]
      omega

end Thread

namespace ThreadGroup

variable {Mem Obj : Type} [DecidableEq Mem] [DecidableEq Obj] (stackMin : Nat)

/-- A start returns iff its calls succeed. -/
theorem succeed_startMember {g g' : ThreadGroup Mem Obj} {m : Mem} {a : Obj} {ans : Answers}
    {e : Option PthreadException} (h : g.startMember stackMin m a ans = some (g', e)) :
    ans.succeed stackMin (g.members m).stackSize = true ↔ e = none := by
  obtain ⟨-, -, -, -, ⟨he, hs, -⟩ | ⟨he, hs, -⟩⟩ := startMember_cases stackMin h
  · rw [hs]
    exact iff_of_false Bool.false_ne_true he
  · exact iff_of_true hs he

/-- **When starting a thread is atomic and accepts every legal size**: unless the size is exactly
`PTHREAD_STACK_MIN` and all four calls succeed. A `start()` that throws always leaves the
`abstract_thread` as it was. -/
theorem start_atomic_iff {stackMin : Nat} (hmin : 0 < stackMin) :
    (∀ (self : Obj) (stackSize : Nat) (ans : Answers) (os : Os),
      Thread.StartsProperly self stackMin stackSize ans os ↔
        ¬ (stackSize = stackMin ∧ ans.Good)) ∧
    (∀ (g g' : ThreadGroup Mem Obj) (m : Mem) (a : Obj) (ans : Answers) (e : PthreadException),
      g.startMember stackMin m a ans = some (g', some e) →
        g'.members = g.members ∧ g'.pool.memory = g.pool.memory ∧
        g'.pool.os.created = g.pool.os.created ∧ g'.memberJoinable m = g.memberJoinable m) := by
  refine ⟨Thread.startsProperly_iff hmin, fun g g' m a ans e h => ?_⟩
  obtain ⟨-, -, -, -, hthrew | hreturned⟩ := startMember_cases stackMin h
  · obtain ⟨-, -, hmembers, hmemory, hcreated⟩ := hthrew
    refine ⟨hmembers, hmemory, hcreated, ?_⟩
    unfold memberJoinable
    rw [hmembers, hmemory]
  · cases hreturned.1

/-- A member that is running is started again, and `pthread_create` fails. -/
theorem start_atomic_iff_createFails :
    ∃ g g' : ThreadGroup Nat Nat, ∃ e,
      startMember 16 (empty fun _ => 17) 3 0 ⟨0, 0, 0, 0, 41⟩ = some (g, none) ∧
      g.startMember 16 3 1 ⟨0, 0, 0, 11, 42⟩ = some (g', some e) ∧
      g'.memberJoinable 3 = true ∧ g'.memberJoinable 3 = g.memberJoinable 3 ∧
      Thread.StartsProperly 1 16 17 ⟨0, 0, 0, 11, 42⟩ g.pool.os ∧
      Thread.StartsProperly 1 16 16 ⟨0, 0, 0, 11, 42⟩ g.pool.os ∧
      ¬ Thread.StartsProperly 1 16 16 ⟨0, 0, 0, 0, 42⟩ g.pool.os := by
  have hall := @start_atomic_iff Nat Nat _ _ 16 (by decide)
  refine ⟨_, _, _, rfl, rfl, rfl, (hall.2 _ _ 3 1 ⟨0, 0, 0, 11, 42⟩ _ rfl).2.2.2,
    (hall.1 _ _ _ _).mpr (by decide), (hall.1 _ _ _ _).mpr (by decide),
    fun hbad => (hall.1 _ _ _ _).mp hbad (by decide)⟩

end ThreadGroup

/-- The smallest legal size is refused, although all four calls would succeed. -/
theorem Thread.start_refuses_minimum :
    Answers.Good ⟨0, 0, 0, 0, 41⟩ ∧ ¬ (0 < 16 ∧ 16 < 16) ∧
      constructStarted (0 : Nat) 16 16 ⟨0, 0, 0, 0, 41⟩ Os.empty = (⟨1, [0], [], []⟩, .error
        (threadException "minimum stack size is 16 bytes, you passed a size of 16" (-1))) ∧
      ¬ StartsProperly (0 : Nat) 16 16 ⟨0, 0, 0, 0, 41⟩ Os.empty := by
  have hthrows : constructStarted (0 : Nat) 16 16 ⟨0, 0, 0, 0, 41⟩ Os.empty
      = (⟨1, [0], [], []⟩, .error
        (threadException "minimum stack size is 16 bytes, you passed a size of 16" (-1))) := rfl
  have hgood : Answers.Good ⟨0, 0, 0, 0, 41⟩ := by decide
  refine ⟨hgood, by decide, hthrows, fun hproper => ?_⟩
  exact absurd ((hproper.legal hgood).mp ⟨_, _, hthrows⟩).2 (by decide)

end CppPthread
