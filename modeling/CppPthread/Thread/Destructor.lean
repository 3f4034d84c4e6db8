import CppPthread.Thread.Join
import CppPthread.Thread.Start
import Mathlib.Data.List.Nodup

set_option autoImplicit false

/-! # The destructor of a group

The destructor of a `thread_group` takes the members from the front of the list, one by one, and
deletes each at the end of the loop's body. With `destructor_joins_first` it joins the members
that are joinable before that, and catches what the joins throw. Before it runs, the members may
have been started and joined in any order, by themselves and by the group, and each of these
calls may have failed (`MemberOp`).

The invariant of these runs (`Owns`) ties each member to the thread it was last started with. The
destructor looks at one member at a time, and each has an object of its own, so that what it does
for one member does not depend on the others (`destroyFront_spec`, `destructorLoop_spec`).
-/

namespace CppPthread

open Posix Run

/-- What is done with the members of a group before its destructor runs, with what the system
answers. -/
inductive MemberOp (Mem Obj : Type) where
  /-- `thread_group::add()` -/
  | add (m : Mem)
  /-- `abstract_thread::start()` -/
  | startOne (m : Mem) (a : Obj) (ans : Answers)
  /-- `abstract_thread::join()` -/
  | joinOne (m : Mem) (caller : Nat) (rc : Int)
  /-- `thread_group::start()` -/
  | start (env : Mem → Obj × Answers)
  /-- `thread_group::join()` -/
  | join (caller : Nat) (rc : Mem → Int)

/-- What the destructor does, in order. -/
inductive CleanUp (Mem : Type) where
  | join (m : Mem) (e : Option PthreadException)
  /-- Output on `cerr`. -/
  | report (text : String) (e : PthreadException)
  | delete (m : Mem)
  deriving DecidableEq

def CleanUp.deleted {Mem : Type} : CleanUp Mem → Option Mem
  | .delete m => some m
  | _ => none

def CleanUp.joined {Mem : Type} : CleanUp Mem → Option Mem
  | .join m _ => some m
  | _ => none

namespace ThreadGroup

variable {Mem Obj : Type} [DecidableEq Mem] [DecidableEq Obj] (stackMin : Nat)

/-- The members are distinct: `add()`, which takes any pointer, is not called for a member again. -/
def memberStep (g : ThreadGroup Mem Obj) : MemberOp Mem Obj → Option (ThreadGroup Mem Obj)
  | .add m => if m ∈ g.threads then none else some { g with threads := g.threads ++ [m] }
  | .startOne m a ans => (g.startMember stackMin m a ans).map Prod.fst
  | .joinOne m caller rc => (g.joinMember m caller rc).map Prod.fst
  | .start env => (g.start stackMin env).map Prod.fst
  | .join caller rc => (g.join caller rc).map Prod.fst

omit [DecidableEq Mem] [DecidableEq Obj] in
/-- The members that an operation gets to start, with the ids of their threads. -/
def startedBy (g : ThreadGroup Mem Obj) : MemberOp Mem Obj → List (Mem × Nat)
  | .startOne m _ ans =>
      if ans.succeed stackMin (g.members m).stackSize then [(m, ans.id)] else []
  | .start env => (g.started stackMin env).map fun m => (m, (env m).2.id)
  | .add _ | .joinOne .. | .join .. => []

/-! ## The destructors -/

/-- `~abstract_thread()` -/
def destroyMember (g : ThreadGroup Mem Obj) (m : Mem) : Option (ThreadGroup Mem Obj) :=
  match (g.members m).thread with
  | none => some g
  | some a =>
      (g.pool.step stackMin (.destroy a)).map fun pool =>
        { g with
          pool := pool
          members := Function.update g.members m { g.members m with thread := none } }

/-- The `catch` clauses: what they print, and what leaves them. -/
def catchAll : Option PthreadException → List (CleanUp Mem) × Option PthreadException
  | none => ([], none)
  | some e => ([.report "thread_group destructor failed to join one thread. " e], none)

/-- The body of the loop, for the member `m`. The member is deleted at its end, also when an
exception leaves it. -/
def destroyFront (joinsFirst : Bool) (caller : Nat) (rc : Mem → Int) (g : ThreadGroup Mem Obj)
    (m : Mem) : Option (List (CleanUp Mem) × ThreadGroup Mem Obj × Option PthreadException) :=
  if joinsFirst && g.memberJoinable m then
    match g.joinMember m caller (rc m) with
    | none => none
    | some (g, e) =>
        let (reports, escaped) := catchAll e
        (g.destroyMember stackMin m).map fun g => (.join m e :: reports ++ [.delete m], g, escaped)
  else (g.destroyMember stackMin m).map fun g => ([.delete m], g, none)

/-- `while (!_threads.empty())`. A member that has been deleted, which `freed` lists, is not
touched again. -/
def destructorLoop (joinsFirst : Bool) (caller : Nat) (rc : Mem → Int) :
    List Mem → ThreadGroup Mem Obj → List Mem →
      Option (List (CleanUp Mem) × ThreadGroup Mem Obj × Option PthreadException)
  | _, g, [] => some ([], g, none)
  | freed, g, m :: ms =>
      if m ∈ freed then none
      else
        match destroyFront stackMin joinsFirst caller rc { g with threads := ms } m with
        | none => none
        | some (acts, g, some e) => some (acts, g, some e)
        | some (acts, g, none) =>
            (destructorLoop joinsFirst caller rc (m :: freed) g ms).map fun r =>
              (acts ++ r.1, r.2)

/-- `~thread_group()` -/
def destructor (joinsFirst : Bool) (caller : Nat) (rc : Mem → Int) (g : ThreadGroup Mem Obj) :
    Option (List (CleanUp Mem) × ThreadGroup Mem Obj × Option PthreadException) :=
  destructorLoop stackMin joinsFirst caller rc [] g g.threads

/-! ## Which thread a member has -/

/-- Every pointer refers to an object of its own, and the object has the id of a thread that the
member was started with, unless that thread has been joined. `starts` lists the starts so far. -/
structure Owns (starts : List (Mem × Nat)) (g : ThreadGroup Mem Obj) : Prop where
  nodup : g.threads.Nodup
  unique : ∀ m n a, (g.members m).thread = some a → (g.members n).thread = some a → m = n
  valid : ∀ m a, (g.members m).thread = some a → ∃ t id, g.pool.memory a = some t ∧
    (m, id) ∈ starts ∧ id ≠ 0 ∧ (t.thread = id ∨ t.thread = 0 ∧ id ∈ g.pool.os.joined)
  points : ∀ m id, (m, id) ∈ starts → ∃ a, (g.members m).thread = some a

omit [DecidableEq Mem] [DecidableEq Obj] in
theorem owns_empty (stackSize : Mem → Nat) : Owns [] (empty stackSize : ThreadGroup Mem Obj) where
  nodup := List.nodup_nil
  unique m n a h := by cases h
  valid m a h := by cases h
  points m id h := by cases h

/-- What one start preserves. -/
theorem owns_startMember {starts : List (Mem × Nat)} {g g' : ThreadGroup Mem Obj} {m : Mem}
    {a : Obj} {ans : Answers} {e : Option PthreadException} (hg : Owns starts g)
    (h : g.startMember stackMin m a ans = some (g', e)) :
    Owns (starts ++
      if ans.succeed stackMin (g.members m).stackSize then [(m, ans.id)] else []) g' := by
  obtain ⟨hthreads, -, hjoined, hfree, hcases⟩ := startMember_cases stackMin h
  rcases hcases with ⟨-, hs, hmembers, hmemory, -⟩ | ⟨-, hs, hmembers, t, hid, hne, hmemory, -⟩
  · rw [if_neg (by simp [hs]), List.append_nil]
    refine ⟨hthreads ▸ hg.nodup, ?_, ?_, ?_⟩ <;> rw [hmembers]
    · exact hg.unique
    · rw [hmemory, hjoined]
      exact hg.valid
    · exact hg.points
  · rw [if_pos hs]
    -- The address of the new object is free, so no member has pointed to it.
    have hnew : ∀ n, (g.members n).thread ≠ some a := by
      intro n hn
      obtain ⟨u, -, hu, -⟩ := hg.valid n a hn
      rw [hfree] at hu
      cases hu
    refine ⟨hthreads ▸ hg.nodup, unique_update hmembers hnew hg.unique, ?_, ?_⟩
    · intro n b hn
      rw [thread_update hmembers] at hn
      rw [hmemory, hjoined, Function.update_apply]
      split_ifs at hn with hnm
      · rw [if_pos (Option.some.inj hn).symm]
        exact ⟨t, ans.id, rfl, by simp [hnm], hid ▸ hne, .inl hid⟩
      · have hba : b ≠ a := fun hba => hnew n (hba ▸ hn)
        obtain ⟨u, id, hu, hmem, hrest⟩ := hg.valid n b hn
        exact ⟨u, id, (if_neg hba).trans hu, List.mem_append_left _ hmem, hrest⟩
    · intro n id hmem
      rw [thread_update hmembers]
      split_ifs with hnm
      · exact ⟨a, rfl⟩
      · have hold : (n, id) ∈ starts := by simpa [hnm] using hmem
        exact hg.points n id hold

theorem stackSize_startMember {g g' : ThreadGroup Mem Obj} {m : Mem} {a : Obj} {ans : Answers}
    {e : Option PthreadException} (h : g.startMember stackMin m a ans = some (g', e))
    (n : Mem) : (g'.members n).stackSize = (g.members n).stackSize := by
  obtain ⟨-, -, -, -, ⟨-, -, hmembers, -⟩ | ⟨-, -, hmembers, -⟩⟩ :=
    startMember_cases stackMin h
  · rw [hmembers]
  · rw [hmembers, Function.update_apply]
    split_ifs with hnm
    · rw [hnm]
    · rfl

/-- `start()` over the rest `ms` of the list. `p` says for which members the constructor
returns. -/
theorem owns_forEach {env : Mem → Obj × Answers} {p : Mem → Bool} {ms : List Mem}
    {starts : List (Mem × Nat)} {g g' : ThreadGroup Mem Obj} {e : Option PthreadException}
    (hg : Owns starts g)
    (hp : ∀ m, (env m).2.succeed stackMin (g.members m).stackSize = p m)
    (h : forEach (fun g m => g.startMember stackMin m (env m).1 (env m).2) g ms
      = some (g', e)) :
    Owns (starts ++ (ms.takeWhile p).map fun m => (m, (env m).2.id)) g' := by
  induction ms generalizing g starts with
  | nil =>
      obtain ⟨rfl, -⟩ := Prod.mk.inj (Option.some.inj h)
      simpa using hg
  | cons m ms ih =>
      rcases forEach_cons h with ⟨g₁, h₁, h₂⟩ | ⟨h₁, hthrow⟩
      · -- `m` is started and the loop goes on.
        have hone := owns_startMember stackMin hg h₁
        have hs : p m = true := hp m ▸ (succeed_startMember stackMin h₁).mpr rfl
        rw [hp m, if_pos hs] at hone
        have hrest := ih hone (fun n => by rw [stackSize_startMember stackMin h₁, hp n]) h₂
        rw [List.takeWhile_cons_of_pos hs, List.map_cons]
        simpa using hrest
      · -- `start()` throws for `m`.
        have hone := owns_startMember stackMin hg h₁
        have hs : ¬ p m = true := hp m ▸ mt (succeed_startMember stackMin h₁).mp hthrow
        rw [hp m, if_neg hs] at hone
        rw [List.takeWhile_cons_of_neg hs]
        simpa using hone

omit [DecidableEq Mem] in
/-- What one join preserves. -/
theorem owns_joinMember {starts : List (Mem × Nat)} {g g' : ThreadGroup Mem Obj} {m : Mem}
    {caller : Nat} {rc : Int} {e : Option PthreadException} (hg : Owns starts g)
    (h : g.joinMember m caller rc = some (g', e)) : Owns starts g' := by
  rcases joinMember_cases h with rfl | ⟨a, t, -, ht, hid, rfl⟩
  · exact hg
  · refine ⟨hg.nodup, hg.unique, fun n b hn => ?_, hg.points⟩
    obtain ⟨u, id, hu, hmem, hne, hkeep⟩ := hg.valid n b hn
    have hjoined : id ∈ g.pool.os.joined → id ∈ g.pool.os.joined ++ [t.thread] :=
      List.mem_append_left _
    by_cases hba : b = a
    · -- the object that has been joined
      obtain rfl : u = t := Option.some.inj (hu.symm.trans (hba ▸ ht))
      have hidt : u.thread = id := hkeep.resolve_right fun h0 => hid h0.1
      exact ⟨_, id, by rw [hba]; exact Function.update_self .., hmem, hne,
        .inr ⟨rfl, by simp [hidt]⟩⟩
    · exact ⟨u, id, by rw [← hu]; exact Function.update_of_ne hba .., hmem, hne,
        hkeep.imp_right fun h0 => ⟨h0.1, hjoined h0.2⟩⟩

omit [DecidableEq Mem] in
/-- `join()` over the rest `ms` of the list. -/
theorem owns_joinLoop {starts : List (Mem × Nat)} {caller : Nat} {rc : Mem → Int} {ms : List Mem}
    {g : ThreadGroup Mem Obj} (hg : Owns starts g)
    {r : List (Mem × Nat) × ThreadGroup Mem Obj × Option PthreadException}
    (h : g.joinLoop caller rc ms = some r) : Owns starts r.2.1 := by
  induction ms generalizing g r with
  | nil =>
      obtain rfl := Option.some.inj h
      exact hg
  | cons m ms ih =>
      rw [joinLoop] at h
      split_ifs at h with hj
      · rcases hr : g.joinMember m caller (rc m) with _ | ⟨g₁, _ | e₁⟩ <;> rw [hr] at h
        · cases h
        · obtain ⟨r₁, hloop, rfl⟩ := Option.map_eq_some_iff.mp h
          exact ih (r := r₁) (owns_joinMember hg hr) hloop
        · obtain rfl := Option.some.inj h
          exact owns_joinMember hg hr
      · exact ih hg h

/-- **The step lemma.** -/
theorem owns_step {starts : List (Mem × Nat)} {g g' : ThreadGroup Mem Obj} {op : MemberOp Mem Obj}
    (hg : Owns starts g) (h : g.memberStep stackMin op = some g') :
    Owns (starts ++ g.startedBy stackMin op) g' := by
  cases op with
  | add m =>
      simp only [memberStep] at h
      split_ifs at h with hm
      obtain rfl := Option.some.inj h
      rw [startedBy, List.append_nil]
      refine ⟨List.nodup_append.mpr ⟨hg.nodup, by simp, fun n hn k hk => ?_⟩, hg.unique, hg.valid,
        hg.points⟩
      rw [List.mem_singleton.mp hk]
      exact ne_of_mem_of_not_mem hn hm
  | startOne m a ans =>
      obtain ⟨⟨g₁, e⟩, h₁, rfl⟩ := Option.map_eq_some_iff.mp h
      exact owns_startMember stackMin hg h₁
  | joinOne m caller rc =>
      obtain ⟨⟨g₁, e⟩, h₁, rfl⟩ := Option.map_eq_some_iff.mp h
      rw [startedBy, List.append_nil]
      exact owns_joinMember hg h₁
  | start env =>
      obtain ⟨⟨g₁, e⟩, h₁, rfl⟩ := Option.map_eq_some_iff.mp h
      exact owns_forEach stackMin hg (fun _ => rfl) h₁
  | join caller rc =>
      obtain ⟨r, h₁, rfl⟩ := Option.map_eq_some_iff.mp h
      obtain ⟨⟨calls, r⟩, hloop, rfl⟩ := Option.map_eq_some_iff.mp h₁
      rw [startedBy, List.append_nil]
      exact owns_joinLoop hg hloop

/-- The starts of a run, with the ids of the threads. -/
def starts (stackSize : Mem → Nat) (ops : List (MemberOp Mem Obj)) : List (Mem × Nat) :=
  trace (memberStep stackMin) (startedBy stackMin) (empty stackSize) ops

/-- **The run lemma.** -/
theorem owns_run {stackSize : Mem → Nat} {ops : List (MemberOp Mem Obj)} {g : ThreadGroup Mem Obj}
    (h : run (memberStep stackMin) (empty stackSize) ops = some g) :
    Owns (starts stackMin stackSize ops) g := by
  refine run_history (P := fun ops g => Owns (starts stackMin stackSize ops) g)
    (owns_empty stackSize) (fun ops g op g' hg howns hop => ?_) h
  rw [starts, trace_snoc op hg]
  exact owns_step stackMin howns hop

/-! ## What the destructor does -/

omit [DecidableEq Mem] [DecidableEq Obj] in
/-- The object of a member. -/
def object (g : ThreadGroup Mem Obj) (m : Mem) : Option (Thread Obj) :=
  (g.members m).thread.bind g.pool.memory

omit [DecidableEq Mem] [DecidableEq Obj] in
/-- How a join of a member ends. -/
def joinOutcome (g : ThreadGroup Mem Obj) (m : Mem) (caller : Nat) (rc : Int) :
    Option PthreadException :=
  (g.object m).bind fun t => (t.join caller rc g.pool.os).2.2

omit [DecidableEq Mem] [DecidableEq Obj] in
/-- What the destructor is to do for a member. -/
def cleanUp (caller : Nat) (rc : Mem → Int) (g : ThreadGroup Mem Obj) (m : Mem) :
    List (CleanUp Mem) :=
  if g.memberJoinable m then
    .join m (g.joinOutcome m caller (rc m)) ::
      (catchAll (g.joinOutcome m caller (rc m))).1 ++ [.delete m]
  else [.delete m]

omit [DecidableEq Mem] [DecidableEq Obj] in
theorem memberJoinable_eq_object (g : ThreadGroup Mem Obj) (m : Mem) :
    g.memberJoinable m = (g.object m).elim false Thread.joinable := by
  unfold memberJoinable object
  cases (g.members m).thread <;> rfl

omit [DecidableEq Mem] [DecidableEq Obj] in
/-- What is to be done for a member depends on its object only. -/
theorem cleanUp_congr {g g' : ThreadGroup Mem Obj} {m : Mem} (h : g'.object m = g.object m)
    (caller : Nat) (rc : Mem → Int) : g'.cleanUp caller rc m = g.cleanUp caller rc m := by
  have hout : g'.joinOutcome m caller (rc m) = g.joinOutcome m caller (rc m) := by
    unfold joinOutcome
    rw [h]
    exact Option.bind_congr fun t _ => Thread.join_outcome t caller (rc m) _ _
  rw [cleanUp, cleanUp, hout, memberJoinable_eq_object, memberJoinable_eq_object, h]

omit [DecidableEq Mem] in
theorem catchAll_escapes (e : Option PthreadException) :
    (catchAll e : List (CleanUp Mem) × Option PthreadException).2 = none := by
  cases e <;> rfl

/-- `~abstract_thread()` frees the object of the member, and touches nothing else. -/
theorem destroyMember_spec {g : ThreadGroup Mem Obj} {m : Mem}
    (hvalid : ∀ a, (g.members m).thread = some a → ∃ t, g.pool.memory a = some t) :
    ∃ g', g.destroyMember stackMin m = some g' ∧ g'.threads = g.threads ∧
      (∀ n, n ≠ m → g'.members n = g.members n) ∧
      (∀ b, g'.pool.memory b = if (g.members m).thread = some b then none else g.pool.memory b) ∧
      g'.pool.os.joined = g.pool.os.joined := by
  unfold destroyMember
  cases hm : (g.members m).thread with
  | none => exact ⟨g, rfl, rfl, fun _ _ => rfl, fun b => by simp, rfl⟩
  | some a =>
      obtain ⟨t, ht⟩ := hvalid a hm
      simp only [Pool.step, ht, Option.map_some]
      refine ⟨_, rfl, rfl, fun n hnm => Function.update_of_ne hnm .., fun b => ?_, ?_⟩
      · simp only [Function.update_apply, Option.some.injEq, eq_comm]
      · unfold Thread.destroy
        split <;> rfl

omit [DecidableEq Mem] in
/-- A join of a member with an id: it touches the object of the member only, and the thread has
been joined or the join has failed. -/
theorem joinMember_spec {g : ThreadGroup Mem Obj} {m : Mem} {a : Obj} {t : Thread Obj}
    (hm : (g.members m).thread = some a) (ht : g.pool.memory a = some t) (hid : t.thread ≠ 0)
    (caller : Nat) (rc : Int) :
    ∃ g', g.joinMember m caller rc = some (g', g.joinOutcome m caller rc) ∧
      g'.threads = g.threads ∧ g'.members = g.members ∧ (∃ u, g'.pool.memory a = some u) ∧
      (∀ b, b ≠ a → g'.pool.memory b = g.pool.memory b) ∧
      (∀ id ∈ g.pool.os.joined, id ∈ g'.pool.os.joined) ∧
      (t.thread ∈ g'.pool.os.joined ∨ g.joinOutcome m caller rc ≠ none ∨ rc = ESRCH) := by
  have hout : g.joinOutcome m caller rc = (t.join caller rc g.pool.os).2.2 := by
    rw [joinOutcome, object, hm, Option.bind_some, ht, Option.bind_some]
  rw [hout]
  refine ⟨{ g with pool := { g.pool with
      os := (t.join caller rc g.pool.os).1
      memory := Function.update g.pool.memory a (some (t.join caller rc g.pool.os).2.1) } },
    ?_, rfl, rfl, ⟨_, Function.update_self ..⟩, fun b hb => Function.update_of_ne hb ..,
    fun id hmem => ?_, Thread.join_of_id hid caller rc g.pool.os⟩
  · simp only [joinMember, hm, ht]
  · show id ∈ (t.join caller rc g.pool.os).1.joined
    rcases Thread.join_cases caller rc t g.pool.os with ⟨e, hc⟩ | ⟨-, -, hc⟩ <;> rw [hc]
    · exact hmem
    · exact List.mem_append_left _ hmem

/-- The destructor's join of the member failed: it threw, or `pthread_join` reported `ESRCH`. -/
def JoinFailed (acts : List (CleanUp Mem)) (rc : Mem → Int) (m : Mem) : Prop :=
  ∃ e, .join m e ∈ acts ∧ (e ≠ none ∨ rc m = ESRCH)

/-- **The body of the loop**, for one member: nothing escapes, the object of the member is freed,
and the other members keep theirs. -/
theorem destroyFront_spec {g : ThreadGroup Mem Obj} {m : Mem} (caller : Nat) (rc : Mem → Int)
    (hvalid : ∀ a, (g.members m).thread = some a → ∃ t, g.pool.memory a = some t) :
    ∃ g', destroyFront stackMin true caller rc g m = some (g.cleanUp caller rc m, g', none) ∧
      g'.threads = g.threads ∧ (∀ n, n ≠ m → g'.members n = g.members n) ∧
      (∀ b, g'.pool.memory b = if (g.members m).thread = some b then none else g.pool.memory b) ∧
      (∀ id ∈ g.pool.os.joined, id ∈ g'.pool.os.joined) ∧
      ∀ t, g.object m = some t → t.thread ≠ 0 →
        t.thread ∈ g'.pool.os.joined ∨ JoinFailed (g.cleanUp caller rc m) rc m := by
  unfold destroyFront cleanUp
  by_cases hj : g.memberJoinable m = true
  · obtain ⟨a, t, hm, ht, hid⟩ := memberJoinable_iff.mp hj
    obtain ⟨g₁, hjoin, hthreads₁, hmembers₁, hobject₁, hmemory₁, hjoined₁, hfailed⟩ :=
      joinMember_spec hm ht hid caller (rc m)
    -- The join changes the object, and the destructor of the member frees it.
    have hvalid₁ : ∀ b, (g₁.members m).thread = some b → ∃ u, g₁.pool.memory b = some u := by
      intro b hb
      rw [hmembers₁, hm] at hb
      exact Option.some.inj hb ▸ hobject₁
    obtain ⟨g', hdestroy, hthreads, hmembers, hmemory, hjoined⟩ :=
      destroyMember_spec stackMin hvalid₁
    refine ⟨g', ?_, hthreads.trans hthreads₁, fun n hn => ?_, fun b => ?_, fun id hmem => ?_,
      fun u hu hne => ?_⟩
    · rw [Bool.true_and, if_pos hj, if_pos hj, hjoin]
      simp only [hdestroy, Option.map_some, catchAll_escapes]
    · rw [hmembers n hn, hmembers₁]
    · rw [hmemory, hmembers₁]
      by_cases hb : (g.members m).thread = some b
      · rw [if_pos hb, if_pos hb]
      · rw [if_neg hb, if_neg hb]
        exact hmemory₁ b fun hba => hb (hba ▸ hm)
    · rw [hjoined]
      exact hjoined₁ id hmem
    · have hobject : g.object m = some t := by rw [object, hm, Option.bind_some, ht]
      obtain rfl : t = u := Option.some.inj (hobject.symm.trans hu)
      rw [hjoined, if_pos hj]
      exact hfailed.imp_right fun hfailed => ⟨_, by simp, hfailed⟩
  · obtain ⟨g', hdestroy, hthreads, hmembers, hmemory, hjoined⟩ :=
      destroyMember_spec stackMin hvalid
    refine ⟨g', ?_, hthreads, hmembers, hmemory, fun id hmem => hjoined ▸ hmem,
      fun t ht hne => ?_⟩
    · rw [Bool.true_and, if_neg hj, if_neg hj, hdestroy, Option.map_some]
    · rw [memberJoinable_eq_object, ht] at hj
      exact absurd (decide_eq_true hne) hj

/-- **The loop**, over the members that are left. -/
theorem destructorLoop_spec {caller : Nat} {rc : Mem → Int} {ms freed : List Mem}
    {g : ThreadGroup Mem Obj} (hthreads : g.threads = ms) (hnodup : ms.Nodup)
    (hfreed : ∀ m ∈ ms, m ∉ freed)
    (hunique : ∀ m ∈ ms, ∀ n ∈ ms, ∀ a, (g.members m).thread = some a →
      (g.members n).thread = some a → m = n)
    (hvalid : ∀ m ∈ ms, ∀ a, (g.members m).thread = some a → ∃ t, g.pool.memory a = some t) :
    ∃ g', destructorLoop stackMin true caller rc freed g ms
        = some (ms.flatMap (g.cleanUp caller rc), g', none) ∧
      g'.threads = [] ∧ (∀ id ∈ g.pool.os.joined, id ∈ g'.pool.os.joined) ∧
      (∀ b, g.pool.memory b = none → g'.pool.memory b = none) ∧
      ∀ m ∈ ms, (∀ a, (g.members m).thread = some a → g'.pool.memory a = none) ∧
        ∀ t, g.object m = some t → t.thread ≠ 0 →
          t.thread ∈ g'.pool.os.joined ∨ JoinFailed (g.cleanUp caller rc m) rc m := by
  induction ms generalizing g freed with
  | nil => exact ⟨g, rfl, hthreads, fun _ => id, fun _ => id, by simp⟩
  | cons m ms ih =>
      obtain ⟨hmnot, hnodup'⟩ := List.nodup_cons.mp hnodup
      obtain ⟨g₁, hfront, hthreads₁, hmembers₁, hmemory₁, hjoined₁, hown₁⟩ :=
        destroyFront_spec stackMin (g := { g with threads := ms }) caller rc (hvalid m (by simp))
      -- The members that are left have the objects that they had.
      have hne : ∀ n ∈ ms, n ≠ m := fun n hn => ne_of_mem_of_not_mem hn hmnot
      have hmember : ∀ n ∈ ms, g₁.members n = g.members n := fun n hn => hmembers₁ n (hne n hn)
      have hmemory : ∀ n ∈ ms, ∀ a, (g.members n).thread = some a →
          g₁.pool.memory a = g.pool.memory a := by
        intro n hn a ha
        rw [hmemory₁]
        refine if_neg fun hma => hne n hn ?_
        exact hunique n (List.mem_cons_of_mem m hn) m (by simp) a ha hma
      have hobject : ∀ n ∈ ms, g₁.object n = g.object n := by
        intro n hn
        unfold object
        rw [hmember n hn]
        exact Option.bind_congr fun a ha => hmemory n hn a ha
      have hclean : ∀ n ∈ ms, g₁.cleanUp caller rc n = g.cleanUp caller rc n := fun n hn =>
        cleanUp_congr (hobject n hn) caller rc
      have hfreed₁ : ∀ n ∈ ms, n ∉ m :: freed := by
        intro n hn
        rw [List.mem_cons, not_or]
        exact ⟨hne n hn, hfreed n (List.mem_cons_of_mem m hn)⟩
      obtain ⟨g', hloop, hthreads', hjoined', hfree', hown'⟩ := ih hthreads₁ hnodup' hfreed₁
        (fun n hn k hk a ha hb => hunique n (List.mem_cons_of_mem m hn) k
          (List.mem_cons_of_mem m hk) a (hmember n hn ▸ ha) (hmember k hk ▸ hb))
        (fun n hn a ha => by
          rw [hmember n hn] at ha
          rw [hmemory n hn a ha]
          exact hvalid n (List.mem_cons_of_mem m hn) a ha)
      refine ⟨g', ?_, hthreads', fun id hid => hjoined' id (hjoined₁ id hid), fun b hb => ?_,
        fun n hn => ?_⟩
      · rw [destructorLoop, if_neg (hfreed m (by simp)), hfront]
        simp only [hloop, Option.map_some]
        rw [List.flatMap_cons, List.flatMap_congr hclean]
        rfl
      · refine hfree' b ?_
        rw [hmemory₁]
        split_ifs
        · rfl
        · exact hb
      · rcases List.mem_cons.mp hn with rfl | hn
        · refine ⟨fun a ha => hfree' a ((hmemory₁ a).trans (if_pos ha)), fun t ht hne => ?_⟩
          exact (hown₁ t ht hne).imp_left (hjoined' t.thread)
        · obtain ⟨hfreed', hown⟩ := hown' n hn
          refine ⟨fun a ha => hfreed' a (by rw [hmember n hn]; exact ha), fun t ht hne => ?_⟩
          rw [← hclean n hn]
          exact hown t (by rw [hobject n hn]; exact ht) hne

omit [DecidableEq Mem] [DecidableEq Obj] in
/-- Every member is deleted once, and a join is attempted on those that are joinable. -/
theorem cleanUp_acts (caller : Nat) (rc : Mem → Int) (g : ThreadGroup Mem Obj) (ms : List Mem) :
    (ms.flatMap (g.cleanUp caller rc)).filterMap CleanUp.deleted = ms ∧
    (ms.flatMap (g.cleanUp caller rc)).filterMap CleanUp.joined
      = ms.filter fun m => g.memberJoinable m := by
  induction ms with
  | nil => exact ⟨rfl, rfl⟩
  | cons m ms ih =>
      rw [List.flatMap_cons, List.filterMap_append, List.filterMap_append, ih.1, ih.2,
        List.filter_cons]
      unfold cleanUp
      split_ifs with hj
      · cases g.joinOutcome m caller (rc m) <;> exact ⟨rfl, rfl⟩
      · exact ⟨rfl, rfl⟩

/-- **The destructor of a group cleans up every member once.** After any starts and joins of the
members, each started once at most: it ends without an exception, and takes the members in the
order of their registration. For each, it joins it, iff it is joinable, and then deletes it
(`cleanUp`). A thread that a member was started with has been joined at the end, unless that
member's own join failed. -/
theorem destructor_cleans_up {stackSize : Mem → Nat} {ops : List (MemberOp Mem Obj)}
    {g : ThreadGroup Mem Obj} (h : run (memberStep stackMin) (empty stackSize) ops = some g)
    (honce : ((starts stackMin stackSize ops).map Prod.fst).Nodup) (caller : Nat)
    (rc : Mem → Int) :
    ∃ acts g', destructor stackMin true caller rc g = some (acts, g', none) ∧
      acts = g.threads.flatMap (g.cleanUp caller rc) ∧
      g.threads.Nodup ∧ acts.filterMap CleanUp.deleted = g.threads ∧
      (acts.filterMap CleanUp.joined = g.threads.filter fun m => g.memberJoinable m) ∧
      g'.threads = [] ∧
      ∀ m ∈ g.threads, (∀ a, (g.members m).thread = some a → g'.pool.memory a = none) ∧
        ∀ id, (m, id) ∈ starts stackMin stackSize ops →
          id ∈ g'.pool.os.joined ∨ JoinFailed acts rc m := by
  have howns := owns_run stackMin h
  obtain ⟨g', hloop, hthreads, hjoined, -, hown⟩ :=
    @destructorLoop_spec Mem Obj _ _ stackMin caller rc g.threads [] g rfl howns.nodup
      (fun m _ => List.not_mem_nil) (fun m _ n _ => howns.unique m n)
      (fun m _ a ha => (howns.valid m a ha).imp fun t ⟨_, ht, _⟩ => ht)
  obtain ⟨hdeleted, hattempted⟩ := cleanUp_acts caller rc g g.threads
  refine ⟨_, g', hloop, rfl, howns.nodup, hdeleted, hattempted, hthreads, fun m hm =>
    ⟨(hown m hm).1, fun id hstart => ?_⟩⟩
  -- The object of the member has the id of its only start, or that thread has been joined.
  obtain ⟨a, ha⟩ := howns.points m id hstart
  obtain ⟨t, id', ht, hstart', hne, hkeep⟩ := howns.valid m a ha
  have hsame : id' = id := congrArg Prod.snd (List.inj_on_of_nodup_map honce hstart' hstart rfl)
  have hobject : g.object m = some t := by rw [object, ha, Option.bind_some, ht]
  rcases hkeep with hid | ⟨-, hid⟩
  · have hlast := (hown m hm).2 t hobject (hid ▸ hne)
    rw [hid, hsame] at hlast
    refine hlast.imp_right fun ⟨e, hmem, hfailed⟩ => ⟨e, ?_, hfailed⟩
    exact List.mem_flatMap.mpr ⟨m, hm, hmem⟩
  · exact .inl (hjoined id (hsame ▸ hid))

/-- The start of a group fails at its third member; the first member is joined; the fourth is
started by itself. -/
def partlyStarted : List (MemberOp Nat Nat) :=
  [.add 0, .add 1, .add 2, .add 3,
   .start fun m => (m, ⟨0, 0, 0, if m = 2 then 11 else 0, 41 + m⟩),
   .joinOne 0 7 0, .startOne 3 3 ⟨0, 0, 0, 0, 44⟩]

theorem partlyStarted_runs :
    (run (memberStep 16) (empty fun _ => 0) partlyStarted).isSome = true := by decide

/-- `pthread_join` fails for the second member, and the fourth is joined all the same. -/
theorem destructor_cleans_up_partlyStarted :
    ∃ g acts g', run (memberStep 16) (empty fun _ => 0) partlyStarted = some g ∧
      starts 16 (fun _ => 0) partlyStarted = [(0, 41), (1, 42), (3, 44)] ∧
      destructor 16 true 7 (fun m => if m = 1 then EINVAL else 0) g = some (acts, g', none) ∧
      acts = [.delete 0, .join 1 (Thread.joinFailed EINVAL),
        .report "thread_group destructor failed to join one thread. " (threadException
          "pthread::thread::join failed not a joinable thread." EINVAL),
        .delete 1, .delete 2, .join 3 none, .delete 3] ∧
      (42 ∈ g'.pool.os.joined ∨ JoinFailed acts (fun m => if m = 1 then EINVAL else 0) 1) := by
  have hg := (Option.some_get partlyStarted_runs).symm
  obtain ⟨acts, g', hrun, hacts, -, -, -, -, hown⟩ :=
    destructor_cleans_up 16 hg (by decide) 7 fun m => if m = 1 then EINVAL else 0
  refine ⟨_, acts, g', hg, by decide, hrun, hacts.trans (by decide), ?_⟩
  exact (hown 1 (by decide)).2 42 (by decide)

end ThreadGroup

end CppPthread
