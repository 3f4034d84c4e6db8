import CppPthread.Thread.Pool

set_option autoImplicit false

/-! # `abstract_thread` and `thread_group`

A `thread_group` is a list of pointers to `abstract_thread`s (`Mem`), and an `abstract_thread`
holds a pointer to the `thread` object that its last `start()` has allocated. `start()`
overwrites that pointer without looking at it. When the old object still has the id of a thread
that nobody has joined, that id can no longer be reached: it has leaked (`Leaked`).

Each `start()` leaks exactly the ids of the members that are joinable when it starts them again,
nothing ever takes a leak back, and a `join()` that returns has joined all threads but the
leaked ones. So `join()` joins everything exactly in the runs that never start a joinable member
(`StartOk`).
-/

namespace CppPthread

open Posix Run Tokens

/-- `abstract_thread`. -/
structure AbstractThread (Obj : Type) where
  thread : Option Obj
  stackSize : Nat

/-- `thread_group`, with the objects it refers to. -/
structure ThreadGroup (Mem Obj : Type) where
  threads : List Mem
  members : Mem → AbstractThread Obj
  pool : Pool Obj

/-- The calls of the member functions, with what the system answers. `pthread_join` returns `0`,
as a join is only called for ids that have not been joined. -/
inductive GroupOp (Mem Obj : Type) where
  | add (m : Mem)
  /-- For each member, the address that `new` returns and the answers to the constructor. -/
  | start (env : Mem → Obj × Answers)
  | join (caller : Nat)

namespace ThreadGroup

variable {Mem Obj : Type}

/-- Nothing is registered and no `abstract_thread` has been started. -/
def empty (stackSize : Mem → Nat) : ThreadGroup Mem Obj :=
  ⟨[], fun m => ⟨none, stackSize m⟩, Pool.empty⟩

/-- `for (...) f(*iterator);`, which an exception leaves. -/
def forEach
    (f : ThreadGroup Mem Obj → Mem → Option (ThreadGroup Mem Obj × Option PthreadException)) :
    ThreadGroup Mem Obj → List Mem → Option (ThreadGroup Mem Obj × Option PthreadException)
  | g, [] => some (g, none)
  | g, m :: ms =>
      match f g m with
      | some (g', none) => forEach f g' ms
      | r => r

/-- `abstract_thread::joinable()` -/
def memberJoinable (g : ThreadGroup Mem Obj) (m : Mem) : Bool :=
  match (g.members m).thread with
  | some a => (g.pool.memory a).elim false Thread.joinable
  | none => false

variable [DecidableEq Mem] [DecidableEq Obj] (stackMin : Nat)

/-- `abstract_thread::start()`, where `new` returns `a`. -/
def startMember (g : ThreadGroup Mem Obj) (m : Mem) (a : Obj) (ans : Answers) :
    Option (ThreadGroup Mem Obj × Option PthreadException) :=
  (g.pool.step stackMin (.constructStarted a (g.members m).stackSize ans)).map fun pool =>
    match (Thread.constructStarted a stackMin (g.members m).stackSize ans g.pool.os).2 with
    | .ok _ =>
        ({ g with
          pool := pool
          members := Function.update g.members m { g.members m with thread := some a } }, none)
    | .error e => ({ g with pool := pool }, some e)

omit [DecidableEq Mem] in
/-- `abstract_thread::join()`, where `pthread_join` returns `rc`. -/
def joinMember (g : ThreadGroup Mem Obj) (m : Mem) (caller : Nat) (rc : Int) :
    Option (ThreadGroup Mem Obj × Option PthreadException) :=
  match (g.members m).thread with
  | none => some (g, none)
  | some a =>
      match g.pool.memory a with
      | none => none
      | some t =>
          let r := t.join caller rc g.pool.os
          some ({ g with pool := { g.pool with
            os := r.1, memory := Function.update g.pool.memory a (some r.2.1) } }, r.2.2)

omit [DecidableEq Mem] [DecidableEq Obj] in
/-- The ids that `abstract_thread::join()` passes to `pthread_join`. -/
def memberJoinCalls (g : ThreadGroup Mem Obj) (m : Mem) (caller : Nat) : List Nat :=
  match (g.members m).thread with
  | none => []
  | some a => (g.pool.memory a).elim [] fun t => t.joinCalls caller

/-- `thread_group::start()` -/
def start (g : ThreadGroup Mem Obj) (env : Mem → Obj × Answers) :
    Option (ThreadGroup Mem Obj × Option PthreadException) :=
  forEach (fun g m => g.startMember stackMin m (env m).1 (env m).2) g g.threads

omit [DecidableEq Mem] in
/-- The loop of `thread_group::join()` over the rest of the list, with the calls of `pthread_join`
that it makes for each member. -/
def joinLoop (caller : Nat) (rc : Mem → Int) : ThreadGroup Mem Obj → List Mem →
    Option (List (Mem × Nat) × ThreadGroup Mem Obj × Option PthreadException)
  | g, [] => some ([], g, none)
  | g, m :: ms =>
      if g.memberJoinable m then
        match g.joinMember m caller (rc m) with
        | some (g', none) => (joinLoop caller rc g' ms).map fun r =>
            ((g.memberJoinCalls m caller).map (fun id => (m, id)) ++ r.1, r.2)
        | some (g', some e) =>
            some ((g.memberJoinCalls m caller).map fun id => (m, id), g', some e)
        | none => none
      else joinLoop caller rc g ms

omit [DecidableEq Mem] in
/-- `thread_group::join()` -/
def join (g : ThreadGroup Mem Obj) (caller : Nat) (rc : Mem → Int) :
    Option (ThreadGroup Mem Obj × Option PthreadException) :=
  (joinLoop caller rc g g.threads).map Prod.snd

/-- The members are distinct: `add()`, which takes any pointer, is not called for a member again. -/
def step (g : ThreadGroup Mem Obj) : GroupOp Mem Obj → Option (ThreadGroup Mem Obj)
  | .add m => if m ∈ g.threads then none else some { g with threads := g.threads ++ [m] }
  | .start env => (g.start stackMin env).map Prod.fst
  | .join caller => (g.join caller fun _ => 0).map Prod.fst

/-- The members that a call of `start()` gets to start. -/
def started (g : ThreadGroup Mem Obj) (env : Mem → Obj × Answers) : List Mem :=
  g.threads.takeWhile fun m => (env m).2.succeed stackMin (g.members m).stackSize

/-- The call starts no member that is joinable at that time. -/
def StartOk (g : ThreadGroup Mem Obj) : GroupOp Mem Obj → Prop
  | .start env => ∀ m ∈ g.started stackMin env, g.memberJoinable m = false
  | _ => True

instance (g : ThreadGroup Mem Obj) : DecidablePred (g.StartOk stackMin)
  | .add _ => isTrue trivial
  | .start env =>
      inferInstanceAs (Decidable (∀ m ∈ g.started stackMin env, g.memberJoinable m = false))
  | .join _ => isTrue trivial

/-! ## Invariants -/

/-- Every pointer refers to an object of its own, and only registered members have one. -/
structure Ok (g : ThreadGroup Mem Obj) : Prop where
  pool : g.pool.Ok
  kept : g.pool.dropped = []
  valid : ∀ m a, (g.members m).thread = some a → ∃ t, g.pool.memory a = some t
  unique : ∀ m n a, (g.members m).thread = some a → (g.members n).thread = some a → m = n
  registered : ∀ m a, (g.members m).thread = some a → m ∈ g.threads
  nodup : g.threads.Nodup

/-- An object has the id of a thread and no member points to it. -/
def Leaked (g : ThreadGroup Mem Obj) : Prop :=
  ∃ a t, g.pool.memory a = some t ∧ t.thread ≠ 0 ∧ ∀ m, (g.members m).thread ≠ some a

omit [DecidableEq Mem] [DecidableEq Obj] in
theorem memberJoinable_iff {g : ThreadGroup Mem Obj} {m : Mem} :
    g.memberJoinable m = true ↔
      ∃ a t, (g.members m).thread = some a ∧ g.pool.memory a = some t ∧ t.thread ≠ 0 := by
  unfold memberJoinable
  cases hm : (g.members m).thread with
  | none => simp
  | some a =>
      cases ht : g.pool.memory a with
      | none => simp [ht]
      | some t => simp [ht, Thread.joinable]

omit [DecidableEq Mem] [DecidableEq Obj] in
theorem forEach_cons
    {f : ThreadGroup Mem Obj → Mem → Option (ThreadGroup Mem Obj × Option PthreadException)}
    {g g' : ThreadGroup Mem Obj} {m : Mem} {ms : List Mem} {e : Option PthreadException}
    (h : forEach f g (m :: ms) = some (g', e)) :
    (∃ g₁, f g m = some (g₁, none) ∧ forEach f g₁ ms = some (g', e)) ∨
      (f g m = some (g', e) ∧ e ≠ none) := by
  rw [forEach] at h
  split at h
  · rename_i g₁ h₁
    exact .inl ⟨g₁, h₁, h⟩
  · rename_i hthrow
    exact .inr ⟨h, fun he => hthrow g' (he ▸ h)⟩

/-! ## Starting the members -/

omit [DecidableEq Obj] in
/-- The pointers of the members, after one of them has been started. -/
theorem thread_update {g g' : ThreadGroup Mem Obj} {m : Mem} {a : Obj}
    (h : g'.members = Function.update g.members m { g.members m with thread := some a })
    (n : Mem) : (g'.members n).thread = if n = m then some a else (g.members n).thread := by
  rw [h, Function.update_apply]
  split_ifs <;> rfl

omit [DecidableEq Obj] in
/-- They stay different, when nobody has pointed to the new object. -/
theorem unique_update {g g' : ThreadGroup Mem Obj} {m : Mem} {a : Obj}
    (h : g'.members = Function.update g.members m { g.members m with thread := some a })
    (hnew : ∀ n, (g.members n).thread ≠ some a)
    (hunique : ∀ n k b, (g.members n).thread = some b → (g.members k).thread = some b → n = k)
    (n k : Mem) (b : Obj) (hn : (g'.members n).thread = some b)
    (hk : (g'.members k).thread = some b) : n = k := by
  rw [thread_update h] at hn hk
  split_ifs at hn hk with hnm hkm hkm
  · exact hnm.trans hkm.symm
  · exact absurd (hk.trans hn.symm) (hnew k)
  · exact absurd (hn.trans hk.symm) (hnew n)
  · exact hunique n k b hn hk

/-- A start throws and leaves the pointers and the objects alone, or it points the member to a new
object with the new id. -/
theorem startMember_cases {g g' : ThreadGroup Mem Obj} {m : Mem} {a : Obj} {ans : Answers}
    {e : Option PthreadException} (h : g.startMember stackMin m a ans = some (g', e)) :
    g'.threads = g.threads ∧ g'.pool.dropped = g.pool.dropped ∧
    g'.pool.os.joined = g.pool.os.joined ∧ g.pool.memory a = none ∧
    ((e ≠ none ∧ ans.succeed stackMin (g.members m).stackSize = false ∧
      g'.members = g.members ∧ g'.pool.memory = g.pool.memory ∧
      g'.pool.os.created = g.pool.os.created) ∨
    (e = none ∧ ans.succeed stackMin (g.members m).stackSize = true ∧
      g'.members = Function.update g.members m { g.members m with thread := some a } ∧
      ∃ t : Thread Obj, t.thread = ans.id ∧ t.thread ≠ 0 ∧
        g'.pool.memory = Function.update g.pool.memory a (some t) ∧
        g'.pool.os.created = g.pool.os.created ++ [ans.id])) := by
  obtain ⟨pool, hpool, hg⟩ := Option.map_eq_some_iff.mp h
  obtain ⟨ha, ⟨hs, ⟨e', hc⟩, hpool'⟩ | ⟨hs, hid, -, size, hc, rfl⟩⟩ :=
    Pool.step_constructStarted hpool <;> rw [hc] at hg
  · obtain ⟨rfl, rfl⟩ := Prod.mk.inj hg
    rcases hpool' with rfl | rfl
    · exact ⟨rfl, rfl, rfl, ha, .inl ⟨by simp, hs, rfl, rfl, rfl⟩⟩
    · exact ⟨rfl, rfl, rfl, ha, .inl ⟨by simp, hs, rfl, rfl, rfl⟩⟩
  · obtain ⟨rfl, rfl⟩ := Prod.mk.inj hg
    exact ⟨rfl, rfl, rfl, ha, .inr ⟨rfl, hs, rfl, _, rfl, hid, rfl, rfl⟩⟩

theorem pool_startMember {g g' : ThreadGroup Mem Obj} {m : Mem} {a : Obj} {ans : Answers}
    {e : Option PthreadException} (h : g.startMember stackMin m a ans = some (g', e)) :
    g.pool.step stackMin (.constructStarted a (g.members m).stackSize ans) = some g'.pool := by
  obtain ⟨pool, hpool, hg⟩ := Option.map_eq_some_iff.mp h
  rw [hpool]
  split at hg <;> exact congrArg (fun r => some r.1.pool) hg

theorem ok_startMember {g g' : ThreadGroup Mem Obj} {m : Mem} {a : Obj} {ans : Answers}
    {e : Option PthreadException} (hg : g.Ok) (hm : m ∈ g.threads)
    (h : g.startMember stackMin m a ans = some (g', e)) : g'.Ok := by
  have hpool : g'.pool.Ok := Pool.step_ok hg.pool (pool_startMember stackMin h)
  obtain ⟨hthreads, hdropped, -, hfree, ⟨-, -, hmembers, hmemory, -⟩ |
    ⟨-, -, hmembers, t, -, -, hmemory, -⟩⟩ := startMember_cases stackMin h
  · refine ⟨hpool, hdropped.trans hg.kept, ?_, ?_, ?_, hthreads ▸ hg.nodup⟩
    · rw [hmembers, hmemory]
      exact hg.valid
    · rw [hmembers]
      exact hg.unique
    · rw [hmembers, hthreads]
      exact hg.registered
  · -- The address of the new object is free, so no member has pointed to it.
    have hnew : ∀ n, (g.members n).thread ≠ some a := by
      intro n hn
      obtain ⟨u, hu⟩ := hg.valid n a hn
      rw [hfree] at hu
      cases hu
    refine ⟨hpool, hdropped.trans hg.kept, ?_, unique_update hmembers hnew hg.unique, ?_,
      hthreads ▸ hg.nodup⟩
    · intro n b hn
      rw [hmemory, Function.update_apply]
      split_ifs with hb
      · exact ⟨t, rfl⟩
      · rw [thread_update hmembers] at hn
        split_ifs at hn
        · exact absurd (Option.some.inj hn).symm hb
        · exact hg.valid n b hn
    · intro n b hn
      rw [hthreads]
      rw [thread_update hmembers] at hn
      split_ifs at hn with hnm
      · exact hnm ▸ hm
      · exact hg.registered n b hn

/-- Starting a member does not change the others. -/
theorem memberJoinable_startMember {g g' : ThreadGroup Mem Obj} {m n : Mem} {a : Obj}
    {ans : Answers} {e : Option PthreadException} (hg : g.Ok)
    (h : g.startMember stackMin m a ans = some (g', e)) (hnm : n ≠ m) :
    g'.memberJoinable n = g.memberJoinable n ∧ (g'.members n) = g.members n := by
  obtain ⟨-, -, -, hfree, ⟨-, -, hmembers, hmemory, -⟩ | ⟨-, -, hmembers, t, -, -, hmemory, -⟩⟩ :=
    startMember_cases stackMin h
  · simp only [memberJoinable, hmembers, hmemory, and_self]
  · have hsame : g'.members n = g.members n := by rw [hmembers, Function.update_of_ne hnm]
    refine ⟨?_, hsame⟩
    unfold memberJoinable
    rw [hsame]
    cases hn : (g.members n).thread with
    | none => rfl
    | some b =>
        obtain ⟨u, hu⟩ := hg.valid n b hn
        have hba : b ≠ a := fun hba => by rw [hba, hfree] at hu; cases hu
        simp only [hmemory, Function.update_of_ne hba]

/-- **What one start leaks**: the id of the member, if it is joinable and the start succeeds. -/
theorem leaked_startMember {g g' : ThreadGroup Mem Obj} {m : Mem} {a : Obj} {ans : Answers}
    {e : Option PthreadException} (hg : g.Ok)
    (h : g.startMember stackMin m a ans = some (g', e)) :
    g'.Leaked ↔ g.Leaked ∨ e = none ∧ g.memberJoinable m = true := by
  obtain ⟨-, -, -, hfree, ⟨he, -, hmembers, hmemory, -⟩ |
    ⟨he, -, hmembers, t, -, -, hmemory, -⟩⟩ := startMember_cases stackMin h
  · simp only [Leaked, hmembers, hmemory, he, false_and, or_false]
  · have hptr : ∀ n, n ≠ m → (g'.members n).thread = (g.members n).thread := fun n hn =>
      (thread_update hmembers n).trans (if_neg hn)
    have hself : (g'.members m).thread = some a := (thread_update hmembers m).trans (if_pos rfl)
    constructor
    · rintro ⟨b, u, hb, hu, hnone⟩
      have hba : b ≠ a := fun hba => hnone m (hba ▸ hself)
      rw [hmemory, Function.update_of_ne hba] at hb
      by_cases hm : (g.members m).thread = some b
      · exact .inr ⟨he, memberJoinable_iff.mpr ⟨b, u, hm, hb, hu⟩⟩
      · refine .inl ⟨b, u, hb, hu, fun n => ?_⟩
        by_cases hn : n = m
        · exact hn ▸ hm
        · exact hptr n hn ▸ hnone n
    · -- In both cases some object at `b`, other than the new one, keeps an id.
      have hkeep : ∀ {b u}, g.pool.memory b = some u → u.thread ≠ 0 →
          (∀ n, n ≠ m → (g.members n).thread ≠ some b) → g'.Leaked := by
        intro b u hb hu hnone
        have hba : b ≠ a := fun hba => by rw [hba, hfree] at hb; cases hb
        refine ⟨b, u, by rw [hmemory, Function.update_of_ne hba]; exact hb, hu, fun n => ?_⟩
        by_cases hn : n = m
        · rw [hn, hself]
          exact fun hab => hba (Option.some.inj hab).symm
        · rw [hptr n hn]
          exact hnone n hn
      rintro (⟨b, u, hb, hu, hnone⟩ | ⟨-, hj⟩)
      · exact hkeep hb hu fun n _ => hnone n
      · obtain ⟨b, u, hm, hb, hu⟩ := memberJoinable_iff.mp hj
        exact hkeep hb hu fun n hn hnb => hn (hg.unique n m b hnb hm)

/-- `start()` over the rest `ms` of the list leaks the ids of the joinable members among those
that it gets to start. `p` says for which members the constructor returns. -/
theorem forEach_startMember {env : Mem → Obj × Answers} {p : Mem → Bool} {ms : List Mem}
    {g g' : ThreadGroup Mem Obj} {e : Option PthreadException} (hg : g.Ok)
    (hms : ∀ m ∈ ms, m ∈ g.threads) (hnd : ms.Nodup)
    (hp : ∀ m ∈ ms, (env m).2.succeed stackMin (g.members m).stackSize = p m)
    (h : forEach (fun g m => g.startMember stackMin m (env m).1 (env m).2) g ms = some (g', e)) :
    g'.Ok ∧ (g'.Leaked ↔ g.Leaked ∨ ∃ m ∈ ms.takeWhile p, g.memberJoinable m = true) := by
  induction ms generalizing g with
  | nil =>
      obtain ⟨rfl, -⟩ := Prod.mk.inj (Option.some.inj h)
      exact ⟨hg, by simp⟩
  | cons m ms ih =>
      obtain ⟨hmnot, hnd'⟩ := List.nodup_cons.mp hnd
      have hm : m ∈ g.threads := hms m (by simp)
      have hpm := hp m (by simp)
      rcases forEach_cons h with ⟨g₁, h₁, h₂⟩ | ⟨h₁, hthrow⟩
      · -- `m` is started and the loop goes on.
        obtain ⟨hthreads, -, -, -, ⟨he, -⟩ | ⟨-, hs, -⟩⟩ := startMember_cases stackMin h₁
        · exact absurd rfl he
        have hothers : ∀ n ∈ ms, g₁.memberJoinable n = g.memberJoinable n ∧
            g₁.members n = g.members n := fun n hn =>
          memberJoinable_startMember stackMin hg h₁ (ne_of_mem_of_not_mem hn hmnot)
        obtain ⟨hok, hleaked⟩ := ih (ok_startMember stackMin hg hm h₁)
          (fun n hn => hthreads ▸ hms n (List.mem_cons_of_mem m hn)) hnd'
          (fun n hn => by rw [(hothers n hn).2]; exact hp n (List.mem_cons_of_mem m hn)) h₂
        refine ⟨hok, ?_⟩
        rw [hleaked, leaked_startMember stackMin hg h₁, or_assoc,
          List.takeWhile_cons_of_pos (hpm ▸ hs), List.exists_mem_cons_iff]
        refine or_congr_right (or_congr (and_iff_right rfl) (exists_congr fun n => ?_))
        refine and_congr_right fun hn => ?_
        rw [(hothers n ((List.takeWhile_prefix _).subset hn)).1]
      · -- `start()` throws for `m`.
        obtain ⟨-, -, -, -, ⟨-, hs, -⟩ | ⟨he, -⟩⟩ := startMember_cases stackMin h₁
        · refine ⟨ok_startMember stackMin hg hm h₁, ?_⟩
          rw [leaked_startMember stackMin hg h₁,
            List.takeWhile_cons_of_neg (by rw [← hpm, hs]; simp)]
          simp [hthrow]
        · exact absurd he hthrow

/-! ## Joining the members -/

section Join

omit [DecidableEq Mem]

/-- A join of one member changes nothing, or its thread is joined and its object gives up the
id. -/
theorem joinMember_cases {g g' : ThreadGroup Mem Obj} {m : Mem} {caller : Nat} {rc : Int}
    {e : Option PthreadException} (h : g.joinMember m caller rc = some (g', e)) :
    g' = g ∨ ∃ a t, (g.members m).thread = some a ∧ g.pool.memory a = some t ∧ t.thread ≠ 0 ∧
      g' = { g with pool := { g.pool with
        os := { g.pool.os with joined := g.pool.os.joined ++ [t.thread] }
        memory := Function.update g.pool.memory a
          (some { t with status := .notAThread, thread := 0 }) } } := by
  unfold joinMember at h
  split at h
  · obtain ⟨rfl, -⟩ := Prod.mk.inj (Option.some.inj h)
    exact .inl rfl
  · rename_i a hm
    split at h
    · cases h
    · rename_i t ht
      obtain ⟨rfl, -⟩ := Prod.mk.inj (Option.some.inj h)
      rcases Thread.join_cases caller rc t g.pool.os with ⟨e', hj⟩ | ⟨hid, -, hj⟩ <;> rw [hj]
      · left
        rw [← ht, Function.update_eq_self]
      · exact .inr ⟨a, t, hm, ht, hid, rfl⟩

theorem threads_joinMember {g g' : ThreadGroup Mem Obj} {m : Mem} {caller : Nat} {rc : Int}
    {e : Option PthreadException} (h : g.joinMember m caller rc = some (g', e)) :
    g'.threads = g.threads := by
  rcases joinMember_cases h with rfl | ⟨a, t, -, -, -, rfl⟩ <;> rfl

theorem ok_joinMember {g g' : ThreadGroup Mem Obj} {m : Mem} {caller : Nat} {rc : Int}
    {e : Option PthreadException} (hg : g.Ok)
    (h : g.joinMember m caller rc = some (g', e)) : g'.Ok := by
  rcases joinMember_cases h with rfl | ⟨a, t, -, ht, hid, rfl⟩
  · exact hg
  · refine ⟨Pool.ok_join hg.pool ht hid, hg.kept, fun n b hn => ?_, hg.unique, hg.registered,
      hg.nodup⟩
    show ∃ u, Function.update g.pool.memory a _ b = some u
    rw [Function.update_apply]
    split_ifs
    · exact ⟨_, rfl⟩
    · exact hg.valid n b hn

/-- No join makes a member joinable. -/
theorem memberJoinable_joinMember {g g' : ThreadGroup Mem Obj} {m : Mem} {caller : Nat} {rc : Int}
    {e : Option PthreadException} (h : g.joinMember m caller rc = some (g', e)) (n : Mem)
    (hn : g'.memberJoinable n = true) : g.memberJoinable n = true := by
  rcases joinMember_cases h with rfl | ⟨a, t, -, ht, hid, rfl⟩
  · exact hn
  · obtain ⟨b, u, hb, hu, hu0⟩ := memberJoinable_iff.mp hn
    by_cases hba : b = a
    · exact memberJoinable_iff.mpr ⟨a, t, hba ▸ hb, ht, hid⟩
    · exact memberJoinable_iff.mpr ⟨b, u, hb, (Function.update_of_ne hba ..).symm.trans hu, hu0⟩

/-- A join that returns leaves its member not joinable. -/
theorem joinMember_returns {g g' : ThreadGroup Mem Obj} {m : Mem} {caller : Nat} (hg : g.Ok)
    (h : g.joinMember m caller 0 = some (g', none)) : g'.memberJoinable m = false := by
  unfold joinMember at h
  split at h
  · rename_i hm
    obtain rfl : g = g' := (Prod.mk.inj (Option.some.inj h)).1
    simp [memberJoinable, hm]
  · rename_i a hm
    split at h
    · cases h
    · rename_i t ht
      obtain ⟨rfl, hnone⟩ := Prod.mk.inj (Option.some.inj h)
      have hid := Thread.join_returns (hg.pool.threads a t ht).status_iff hnone
      simp [memberJoinable, hm, Thread.joinable, hid]

/-- A join does not touch what has leaked. -/
theorem leaked_joinMember {g g' : ThreadGroup Mem Obj} {m : Mem} {caller : Nat} {rc : Int}
    {e : Option PthreadException} (h : g.joinMember m caller rc = some (g', e)) :
    g'.Leaked ↔ g.Leaked := by
  rcases joinMember_cases h with rfl | ⟨a, t, hm, -, -, rfl⟩
  · rfl
  · refine exists_congr fun b => exists_congr fun u => ?_
    by_cases hba : b = a
    · -- The object that has changed has a member that points to it.
      constructor
      · exact fun hu => absurd (hba ▸ hm) (hu.2.2 m)
      · exact fun hu => absurd (hba ▸ hm) (hu.2.2 m)
    · refine and_congr_left' ?_
      show Function.update g.pool.memory a _ b = some u ↔ _
      rw [Function.update_of_ne hba]

/-- `join()` over the rest `ms` of the list, when `pthread_join` always returns `0`. -/
theorem joinLoop_joins {caller : Nat} {ms : List Mem} {g g' : ThreadGroup Mem Obj}
    {calls : List (Mem × Nat)} {e : Option PthreadException} (hg : g.Ok)
    (h : g.joinLoop caller (fun _ => 0) ms = some (calls, g', e)) :
    g'.Ok ∧ (g'.Leaked ↔ g.Leaked) ∧ g'.threads = g.threads ∧
    (∀ n, g'.memberJoinable n = true → g.memberJoinable n = true) ∧
    (e = none → ∀ m ∈ ms, g'.memberJoinable m = false) := by
  induction ms generalizing g calls with
  | nil =>
      obtain ⟨-, rfl, -⟩ : [] = calls ∧ g = g' ∧ none = e := by simpa [joinLoop] using h
      exact ⟨hg, Iff.rfl, rfl, fun _ => id, by simp⟩
  | cons m ms ih =>
      rw [joinLoop] at h
      split_ifs at h with hj
      · rcases hr : g.joinMember m caller 0 with _ | ⟨g₁, _ | e₁⟩ <;> rw [hr] at h
        · cases h
        · -- `m` is joined and the loop goes on.
          obtain ⟨⟨calls₁, g₂, e₂⟩, hloop, heq⟩ := Option.map_eq_some_iff.mp h
          simp only [Prod.mk.injEq] at heq
          obtain ⟨-, rfl, rfl⟩ := heq
          obtain ⟨hok, hleaked, hthreads, hmono, hms⟩ := ih (ok_joinMember hg hr) hloop
          refine ⟨hok, hleaked.trans (leaked_joinMember hr),
            hthreads.trans (threads_joinMember hr),
            fun n hn => memberJoinable_joinMember hr n (hmono n hn),
            fun he => List.forall_mem_cons.mpr ⟨?_, hms he⟩⟩
          exact Bool.eq_false_iff.mpr fun hm =>
            Bool.eq_false_iff.mp (joinMember_returns hg hr) (hmono m hm)
        · -- `join()` throws for `m`.
          simp only [Option.some.injEq, Prod.mk.injEq] at h
          obtain ⟨-, rfl, rfl⟩ := h
          exact ⟨ok_joinMember hg hr, leaked_joinMember hr, threads_joinMember hr,
            memberJoinable_joinMember hr, fun he => by cases he⟩
      · obtain ⟨hok, hleaked, hthreads, hmono, hms⟩ := ih hg h
        refine ⟨hok, hleaked, hthreads, hmono, fun he => List.forall_mem_cons.mpr ⟨?_, hms he⟩⟩
        exact Bool.eq_false_iff.mpr fun hm => hj (hmono m hm)

end Join

/-! ## Runs -/

omit [DecidableEq Mem] [DecidableEq Obj] in
theorem ok_empty (stackSize : Mem → Nat) : (empty stackSize : ThreadGroup Mem Obj).Ok where
  pool := Pool.ok_empty
  kept := rfl
  valid m a h := by cases h
  unique m n a h := by cases h
  registered m a h := by cases h
  nodup := List.nodup_nil

/-- **The step lemma.** A step keeps the invariant and leaks an id iff it starts a joinable
member. -/
theorem step_leaked {g g' : ThreadGroup Mem Obj} {op : GroupOp Mem Obj} (hg : g.Ok)
    (h : g.step stackMin op = some g') :
    g'.Ok ∧ (g'.Leaked ↔ g.Leaked ∨ ¬ g.StartOk stackMin op) := by
  cases op with
  | add m =>
      simp only [step] at h
      split_ifs at h with hm
      obtain rfl := Option.some.inj h
      -- A new member points to nothing that the others do not.
      refine ⟨⟨hg.pool, hg.kept, hg.valid, hg.unique, ?_, ?_⟩, by simp [StartOk, Leaked]⟩
      · exact fun n a hn => List.mem_append_left _ (hg.registered n a hn)
      · refine List.nodup_append.mpr ⟨hg.nodup, by simp, fun n hn k hk => ?_⟩
        rw [List.mem_singleton.mp hk]
        exact ne_of_mem_of_not_mem hn hm
  | start env =>
      obtain ⟨⟨g₁, e⟩, h₁, rfl⟩ := Option.map_eq_some_iff.mp h
      obtain ⟨hok, hleaked⟩ := forEach_startMember stackMin hg (fun _ => id) hg.nodup
        (fun _ _ => rfl) h₁
      refine ⟨hok, hleaked.trans (or_congr_right ?_)⟩
      simp [StartOk, started]
  | join caller =>
      obtain ⟨⟨g₁, e⟩, h₁, rfl⟩ := Option.map_eq_some_iff.mp h
      obtain ⟨⟨calls, r⟩, hloop, rfl⟩ := Option.map_eq_some_iff.mp h₁
      obtain ⟨hok, hleaked, -⟩ := joinLoop_joins hg hloop
      exact ⟨hok, hleaked.trans (by simp [StartOk])⟩

/-- **The run lemma.** -/
theorem run_leaked {g g' : ThreadGroup Mem Obj} {ops : List (GroupOp Mem Obj)} (hg : g.Ok)
    (h : run (step stackMin) g ops = some g') :
    g'.Ok ∧ (g'.Leaked ↔ g.Leaked ∨ ¬ Along (step stackMin) (StartOk stackMin) g ops) := by
  induction ops generalizing g with
  | nil =>
      obtain rfl : g = g' := by simpa using h
      exact ⟨hg, by simp [Along]⟩
  | cons op ops ih =>
      obtain ⟨m, hm, h'⟩ := run_cons.mp h
      obtain ⟨hok, hleaked⟩ := step_leaked stackMin hg hm
      obtain ⟨hok', hleaked'⟩ := ih hok h'
      refine ⟨hok', ?_⟩
      rw [hleaked', hleaked, or_assoc, Along, hm, Option.elim_some, not_and_or]

omit [DecidableEq Mem] [DecidableEq Obj] in
/-- When no member is joinable, the ids that have been created and not joined are the leaked
ones. -/
theorem all_joined_iff {g : ThreadGroup Mem Obj} (hg : g.Ok)
    (hm : ∀ m ∈ g.threads, g.memberJoinable m = false) :
    (∀ id ∈ g.pool.os.created, id ∈ g.pool.os.joined) ↔ ¬ g.Leaked := by
  -- The ids created and not joined are those in the objects.
  have hids := hg.pool.ids
  rw [hg.kept, List.append_nil] at hids
  constructor
  · rintro hall ⟨a, t, ht, hid, -⟩
    have hheld : Pool.held Pool.idIn g.pool.memory a = some t.thread :=
      (Pool.held_idIn hid).mpr ⟨t, ht, rfl⟩
    obtain ⟨hcreated, hjoined⟩ := (hids.held_iff _).mp ⟨a, hheld⟩
    exact hjoined (hall _ hcreated)
  · intro hnone id hid
    by_contra hjoined
    obtain ⟨a, ha⟩ := (hids.held_iff id).mpr ⟨hid, hjoined⟩
    obtain ⟨t, ht, hidIn⟩ := Pool.held_eq_some.mp ha
    have h0 : t.thread ≠ 0 := fun h0 => by simp [Pool.idIn, h0] at hidIn
    refine hnone ⟨a, t, ht, h0, fun m hma => ?_⟩
    -- The object has no member pointing to it: that member would be joinable.
    have hj := memberJoinable_iff.mpr ⟨a, t, hma, ht, h0⟩
    rw [hm m (hg.registered m a hma)] at hj
    cases hj

/-! ## Joining a group -/

/-- **When `join()` joins everything.** For every sequence of calls, no id is lost at any point
iff no `start()` starts a joinable member. A `join()` that returns after these calls has then
joined every thread that was created, and otherwise it has not. -/
theorem join_joins_all {stackSize : Mem → Nat} {ops : List (GroupOp Mem Obj)}
    {g : ThreadGroup Mem Obj} (h : run (step stackMin) (empty stackSize) ops = some g) :
    ((∀ ops₁ ops₂ g₁, ops = ops₁ ++ ops₂ →
        run (step stackMin) (empty stackSize) ops₁ = some g₁ → ¬ g₁.Leaked) ↔
      Along (step stackMin) (StartOk stackMin) (empty stackSize) ops) ∧
    ∀ g' caller, (g.join caller fun _ => 0) = some (g', none) →
      ((∀ id ∈ g'.pool.os.created, id ∈ g'.pool.os.joined) ↔
        Along (step stackMin) (StartOk stackMin) (empty stackSize) ops) := by
  have hnone : ¬ (empty stackSize : ThreadGroup Mem Obj).Leaked := by
    rintro ⟨a, t, ht, -⟩
    cases ht
  have hkept : ∀ {ops g}, run (step stackMin) (empty stackSize : ThreadGroup Mem Obj) ops = some g →
      g.Ok ∧ (¬ g.Leaked ↔ Along (step stackMin) (StartOk stackMin) (empty stackSize) ops) := by
    intro ops g h
    obtain ⟨hok, hleaked⟩ := run_leaked stackMin (ok_empty stackSize) h
    exact ⟨hok, by rw [hleaked, not_or, not_not, and_iff_right hnone]⟩
  refine ⟨⟨fun hall => ?_, fun halong => ?_⟩, fun g' caller hj => ?_⟩
  · exact (hkept h).2.mp (hall ops [] g (List.append_nil ops).symm h)
  · rintro ops₁ ops₂ g₁ rfl h₁
    exact (hkept h₁).2.mpr ((along_append h₁).mp halong).1
  · obtain ⟨hok, hiff⟩ := hkept h
    obtain ⟨⟨calls, r⟩, hloop, rfl⟩ := Option.map_eq_some_iff.mp hj
    obtain ⟨hok', hleaked, hthreads, -, hjoined⟩ := joinLoop_joins hok hloop
    rw [all_joined_iff hok' (hthreads ▸ hjoined rfl), hleaked, hiff]

/-- One member, started again after it has been joined. -/
def restart : List (GroupOp Nat Nat) :=
  [.add 0, .start fun _ => (0, ⟨0, 0, 0, 0, 41⟩), .join 7, .start fun _ => (1, ⟨0, 0, 0, 0, 42⟩)]

theorem restart_joins :
    ((run (step 16) (empty fun _ => 0) restart).bind fun g => (g.join 7 fun _ => 0).map fun r =>
      (r.2, r.1.pool.os.created)) = some (none, [41, 42]) := by decide

theorem join_joins_all_restart :
    ∃ g g', run (step 16) (empty fun _ => 0) restart = some g ∧
      (g.join 7 fun _ => 0) = some (g', none) ∧
      g'.pool.os.created = [41, 42] ∧ ∀ id ∈ g'.pool.os.created, id ∈ g'.pool.os.joined := by
  obtain ⟨g, hg, hj⟩ := Option.bind_eq_some_iff.mp restart_joins
  obtain ⟨⟨g', e⟩, hj', hr⟩ := Option.map_eq_some_iff.mp hj
  obtain ⟨rfl, hcreated⟩ := Prod.mk.inj hr
  exact ⟨g, g', hg, hj', hcreated,
    ((join_joins_all 16 hg).2 g' 7 hj').mpr (by decide)⟩

/-- The same without the first join. -/
def startTwice : List (GroupOp Nat Nat) :=
  [.add 0, .start fun _ => (0, ⟨0, 0, 0, 0, 41⟩), .start fun _ => (1, ⟨0, 0, 0, 0, 42⟩)]

theorem startTwice_joins :
    ((run (step 16) (empty fun _ => 0) startTwice).bind fun g => (g.join 7 fun _ => 0).map fun r =>
      (r.2, r.1.pool.os.created, r.1.pool.os.joined)) = some (none, [41, 42], [42]) := by decide

/-- The join returns and the thread 41 has not been joined. -/
theorem startTwice_loses_thread :
    ∃ g g', run (step 16) (empty fun _ => 0) startTwice = some g ∧
      (g.join 7 fun _ => 0) = some (g', none) ∧ g'.pool.os.created = [41, 42] ∧
      g'.pool.os.joined = [42] ∧ ¬ ∀ id ∈ g'.pool.os.created, id ∈ g'.pool.os.joined := by
  obtain ⟨g, hg, hj⟩ := Option.bind_eq_some_iff.mp startTwice_joins
  obtain ⟨⟨g', e⟩, hj', hr⟩ := Option.map_eq_some_iff.mp hj
  obtain ⟨rfl, hos⟩ := Prod.mk.inj hr
  obtain ⟨hcreated, hjoined⟩ := Prod.mk.inj hos
  refine ⟨g, g', hg, hj', hcreated, hjoined, fun hall => ?_⟩
  have hmem := hall 41 (by rw [hcreated]; decide)
  rw [hjoined] at hmem
  revert hmem
  decide

end ThreadGroup

end CppPthread
