import CppPthread.Basic.Run
import CppPthread.Basic.Tokens
import CppPthread.Thread.Thread

set_option autoImplicit false

/-! # Any number of `thread` objects

A program that constructs, moves, joins and destroys `thread` objects at addresses of its
choice. The ids of its threads and its attributes are tokens with one holder each: they are
given out by the calls that create a thread and initialise an attribute, passed on by `swap`,
and used up by a join that succeeds, by the destruction of the object that holds them, and by
`pthread_attr_destroy`.
-/

namespace CppPthread

open Posix Run Tokens

/-- The operations on `thread` objects, with what the system answers. -/
inductive PoolOp (Obj : Type) where
  | construct (a : Obj) (attrInit : Int)
  | constructStarted (a : Obj) (stackSize : Nat) (ans : Answers)
  /-- `thread(thread &&)` of the object at `a` from the one at `other`. -/
  | moveConstruct (a other : Obj) (attrInit : Int)
  /-- `operator=(thread &&)`. -/
  | moveAssign (a other : Obj)
  | join (a : Obj) (caller : Nat) (rc : Int)
  | destroy (a : Obj)

structure Pool (Obj : Type) where
  os : Os
  memory : Memory Obj
  /-- The ids held by the objects that have been destroyed. -/
  dropped : List Nat

namespace Pool

variable {Obj : Type}

def empty : Pool Obj := ⟨Os.empty, fun _ => none, []⟩

variable [DecidableEq Obj]

/-- An object is constructed only at a free address and used only while it exists. The id of a
new thread is not `0` and has not been used before. -/
def step (stackMin : Nat) (p : Pool Obj) : PoolOp Obj → Option (Pool Obj)
  | .construct a attrInit =>
      match p.memory a with
      | some _ => none
      | none =>
          match Thread.construct a attrInit p.os with
          | (os, .ok t) => some { p with os := os, memory := Function.update p.memory a (some t) }
          | (os, .error _) => some { p with os := os }
  | .constructStarted a stackSize ans =>
      match p.memory a with
      | some _ => none
      | none =>
          if ans.create = 0 → ans.id ≠ 0 ∧ ans.id ∉ p.os.created then
            match Thread.constructStarted a stackMin stackSize ans p.os with
            | (os, .ok t) =>
                some { p with os := os, memory := Function.update p.memory a (some t) }
            | (os, .error _) => some { p with os := os }
          else none
  | .moveConstruct a other attrInit =>
      match p.memory a, p.memory other with
      | none, some _ =>
          match Thread.construct a attrInit p.os with
          | (os, .ok t) =>
              (Memory.swap (Function.update p.memory a (some t)) a other).map fun memory =>
                { p with os := os, memory := memory }
          | (os, .error _) => some { p with os := os }
      | _, _ => none
  | .moveAssign a other =>
      (p.memory.swap a other).map fun memory => { p with memory := memory }
  | .join a caller rc =>
      match p.memory a with
      | some t =>
          match t.join caller rc p.os with
          | (os, t, _) => some { p with os := os, memory := Function.update p.memory a (some t) }
      | none => none
  | .destroy a =>
      match p.memory a with
      | some t =>
          some ⟨t.destroy p.os, Function.update p.memory a none,
            if t.thread ≠ 0 then p.dropped ++ [t.thread] else p.dropped⟩
      | none => none

/-! ## Who holds what -/

/-- The id in an object. -/
def idIn (t : Thread Obj) : Option Nat := if t.thread = 0 then none else some t.thread

/-- The attribute in an object. -/
def attrIn (t : Thread Obj) : Option Nat := t.attr.map Attr.serial

/-- What the objects of a memory hold. -/
def held (f : Thread Obj → Option Nat) (m : Memory Obj) (a : Obj) : Option Nat := (m a).bind f

omit [DecidableEq Obj] in
theorem held_eq_some {f : Thread Obj → Option Nat} {m : Memory Obj} {a : Obj} {x : Nat} :
    held f m a = some x ↔ ∃ t, m a = some t ∧ f t = some x := by
  simp [held, Option.bind_eq_some_iff]

theorem held_update (f : Thread Obj → Option Nat) (m : Memory Obj) (a : Obj)
    (o : Option (Thread Obj)) :
    held f (Function.update m a o) = Function.update (held f m) a (o.bind f) := by
  funext b
  by_cases hb : b = a
  · subst hb
    simp [held]
  · simp [held, hb]

/-- An object's attribute pointer is the address of its own block, which is initialised, and its
status says whether it has an id. -/
structure ThreadOk (a : Obj) (t : Thread Obj) : Prop where
  status_iff : t.status = .aThread ↔ t.thread ≠ 0
  attrPtr : t.attrPtr = some a
  attr : t.attr.isSome = true

structure Ok (p : Pool Obj) : Prop where
  threads : ∀ a t, p.memory a = some t → ThreadOk a t
  ids : OneHolder (held idIn p.memory) p.os.created (p.os.joined ++ p.dropped)
  attrs : OneHolder (held attrIn p.memory) (List.range p.os.attrs) p.os.destroyed

omit [DecidableEq Obj] in
theorem ok_empty : Ok (empty : Pool Obj) where
  threads a t h := by cases h
  ids := OneHolder.empty
  attrs := OneHolder.empty

/-! ## What the operations preserve -/

omit [DecidableEq Obj] in
theorem held_free {f : Thread Obj → Option Nat} {m : Memory Obj} {a : Obj} (ha : m a = none) :
    held f m a = none := by simp [held, ha]

theorem threads_update {m : Memory Obj} (hm : ∀ a t, m a = some t → ThreadOk a t) {a : Obj}
    {o : Option (Thread Obj)} (ho : ∀ t, o = some t → ThreadOk a t) :
    ∀ b t, Function.update m a o b = some t → ThreadOk b t :=
  (Function.forall_update_iff m fun b o => ∀ t, o = some t → ThreadOk b t).mpr
    ⟨ho, fun b _ => hm b⟩

/-- `thread()` at a free address. -/
theorem ok_construct {p : Pool Obj} (hp : p.Ok) {a : Obj} (ha : p.memory a = none) :
    Ok { p with
      os := { p.os with attrs := p.os.attrs + 1 }
      memory := Function.update p.memory a
        (some ⟨0, some ⟨p.os.attrs, 0⟩, some a, .notAThread⟩) } where
  threads := threads_update hp.threads fun t ht => by
    obtain rfl := Option.some.inj ht
    exact ⟨by simp, rfl, rfl⟩
  ids := by
    show OneHolder (held idIn (Function.update p.memory a _)) _ _
    rw [held_update]
    -- A new object has no id.
    have hfree : held idIn p.memory a = none := held_free ha
    simp only [Option.bind_some, idIn, if_true]
    rw [← hfree, Function.update_eq_self]
    exact hp.ids
  attrs := by
    show OneHolder (held attrIn (Function.update p.memory a _)) (List.range (p.os.attrs + 1)) _
    rw [held_update, List.range_succ]
    exact hp.attrs.issue (held_free ha) (by simp)

/-- The constructor that starts a thread, when it returns. -/
theorem ok_constructStarted {p : Pool Obj} (hp : p.Ok) {a : Obj} (ha : p.memory a = none)
    {id size : Nat} (hid : id ≠ 0) (hfresh : id ∉ p.os.created) :
    Ok { p with
      os := { p.os with attrs := p.os.attrs + 1, created := p.os.created ++ [id] }
      memory := Function.update p.memory a
        (some ⟨id, some ⟨p.os.attrs, size⟩, some a, .aThread⟩) } where
  threads := threads_update hp.threads fun t ht => by
    obtain rfl := Option.some.inj ht
    exact ⟨by simp [hid], rfl, rfl⟩
  ids := by
    show OneHolder (held idIn (Function.update p.memory a _)) (p.os.created ++ [id]) _
    rw [held_update]
    simp only [Option.bind_some, idIn, if_neg hid]
    exact hp.ids.issue (held_free ha) hfresh
  attrs := by
    show OneHolder (held attrIn (Function.update p.memory a _)) (List.range (p.os.attrs + 1)) _
    rw [held_update, List.range_succ]
    exact hp.attrs.issue (held_free ha) (by simp)

/-- The constructor that starts a thread, when it throws after `thread()`: the attribute that
`thread()` has initialised is destroyed again. -/
theorem ok_constructFailed {p : Pool Obj} (hp : p.Ok) {a : Obj} (ha : p.memory a = none) :
    Ok { p with os := { p.os with
      attrs := p.os.attrs + 1, destroyed := p.os.destroyed ++ [p.os.attrs] } } where
  threads := hp.threads
  ids := hp.ids
  attrs := by
    show OneHolder _ (List.range (p.os.attrs + 1)) _
    rw [List.range_succ]
    exact hp.attrs.issue_spend (held_free (f := attrIn) ha) (by simp)

/-- What two objects hold is exchanged. -/
theorem held_swap {f : Thread Obj → Option Nat} {m m' : Memory Obj} {a b : Obj}
    (hf : ∀ (t : Thread Obj) ptr status, f { t with attrPtr := ptr, status := status } = f t)
    (h : m.swap a b = some m') : held f m' = fun c => held f m (Equiv.swap a b c) := by
  obtain ⟨t, o, ht, ho, hm'⟩ := Memory.swap_cases h
  funext c
  rw [held, hm']
  by_cases hca : c = a
  · subst hca
    simpa [held, ho] using hf o _ _
  · by_cases hcb : c = b
    · subst hcb
      simpa [held, ht, hca] using hf t _ _
    · simp [held, hca, hcb, Equiv.swap_apply_of_ne_of_ne hca hcb]

theorem ok_swap {p : Pool Obj} (hp : p.Ok) {a b : Obj} {m : Memory Obj}
    (h : p.memory.swap a b = some m) : Ok { p with memory := m } where
  threads := by
    obtain ⟨t, o, ht, ho, hm⟩ := Memory.swap_cases h
    intro c u hc
    rw [show ({ p with memory := m } : Pool Obj).memory c = m c from rfl, hm] at hc
    by_cases hca : c = a
    · subst hca
      obtain rfl : _ = u := by simpa using hc
      exact ⟨(hp.threads b o ho).status_iff, rfl, (hp.threads b o ho).attr⟩
    · by_cases hcb : c = b
      · subst hcb
        obtain rfl : _ = u := by simpa [hca] using hc
        exact ⟨(hp.threads a t ht).status_iff, (hp.threads c o ho).attrPtr,
          (hp.threads a t ht).attr⟩
      · exact hp.threads c u (by simpa [hca, hcb] using hc)
  ids := by
    show OneHolder (held idIn m) _ _
    rw [held_swap (fun _ _ _ => rfl) h]
    exact hp.ids.exchange _
  attrs := by
    show OneHolder (held attrIn m) _ _
    rw [held_swap (fun _ _ _ => rfl) h]
    exact hp.attrs.exchange _

/-- A join that succeeds. -/
theorem ok_join {p : Pool Obj} (hp : p.Ok) {a : Obj} {t : Thread Obj} (ht : p.memory a = some t)
    (hid : t.thread ≠ 0) :
    Ok { p with
      os := { p.os with joined := p.os.joined ++ [t.thread] }
      memory := Function.update p.memory a
        (some { t with status := .notAThread, thread := 0 }) } where
  threads := threads_update hp.threads fun u hu => by
    obtain rfl := Option.some.inj hu
    exact ⟨by simp, (hp.threads a t ht).attrPtr, (hp.threads a t ht).attr⟩
  ids := by
    show OneHolder (held idIn (Function.update p.memory a _)) p.os.created
      ((p.os.joined ++ [t.thread]) ++ p.dropped)
    rw [held_update]
    simp only [Option.bind_some, idIn, if_true]
    have hspent := hp.ids.spend (a := a) (x := t.thread)
      (held_eq_some.mpr ⟨t, ht, if_neg hid⟩)
    -- The id is used up by the join, not by the destruction of an object.
    refine hspent.perm ?_
    rw [List.append_assoc, List.append_assoc]
    exact List.perm_append_comm.append_left _
  attrs := by
    show OneHolder (held attrIn (Function.update p.memory a _)) _ _
    rw [held_update]
    -- The attribute stays where it is.
    have hsame : held attrIn p.memory a
        = (some { t with status := .notAThread, thread := 0 }).bind attrIn := by
      simp [held, ht, attrIn]
    rw [← hsame, Function.update_eq_self]
    exact hp.attrs

theorem ok_destroy {p : Pool Obj} (hp : p.Ok) {a : Obj} {t : Thread Obj}
    (ht : p.memory a = some t) :
    Ok (⟨t.destroy p.os, Function.update p.memory a none,
      if t.thread ≠ 0 then p.dropped ++ [t.thread] else p.dropped⟩ : Pool Obj) := by
  obtain ⟨-, hptr, hattr⟩ := hp.threads a t ht
  obtain ⟨attr, hattr⟩ := Option.isSome_iff_exists.mp hattr
  have hos : t.destroy p.os
      = { p.os with destroyed := p.os.destroyed ++ [attr.serial] } := by
    simp [Thread.destroy, hptr, hattr]
  rw [hos]
  refine ⟨threads_update hp.threads (fun u hu => by cases hu), ?_, ?_⟩
  · show OneHolder (held idIn (Function.update p.memory a none)) p.os.created
      (p.os.joined ++ if t.thread ≠ 0 then p.dropped ++ [t.thread] else p.dropped)
    rw [held_update, Option.bind_none]
    by_cases hid : t.thread = 0
    · have hnone : held idIn p.memory a = none := by simp [held, ht, idIn, hid]
      rw [if_neg (not_not.mpr hid), ← hnone, Function.update_eq_self]
      exact hp.ids
    · rw [if_pos hid, ← List.append_assoc]
      exact hp.ids.spend (held_eq_some.mpr ⟨t, ht, if_neg hid⟩)
  · show OneHolder (held attrIn (Function.update p.memory a none)) _ _
    rw [held_update, Option.bind_none]
    exact hp.attrs.spend (held_eq_some.mpr ⟨t, ht, by simp [attrIn, hattr]⟩)

/-- Starting a thread in a new object: the constructor throws, before or after the attribute is
initialised, and leaves no object, or it returns. -/
theorem step_constructStarted {stackMin : Nat} {p p' : Pool Obj} {a : Obj} {stackSize : Nat}
    {ans : Answers} (h : step stackMin p (.constructStarted a stackSize ans) = some p') :
    p.memory a = none ∧
    ((ans.succeed stackMin stackSize = false ∧
      (∃ e, (Thread.constructStarted a stackMin stackSize ans p.os).2 = .error e) ∧
      (p' = p ∨ p' = { p with os := { p.os with
        attrs := p.os.attrs + 1, destroyed := p.os.destroyed ++ [p.os.attrs] } })) ∨
    (ans.succeed stackMin stackSize = true ∧ ans.id ≠ 0 ∧ ans.id ∉ p.os.created ∧
      ∃ size, (Thread.constructStarted a stackMin stackSize ans p.os).2
          = .ok ⟨ans.id, some ⟨p.os.attrs, size⟩, some a, .aThread⟩ ∧
        p' = { p with
          os := { p.os with attrs := p.os.attrs + 1, created := p.os.created ++ [ans.id] }
          memory := Function.update p.memory a
            (some ⟨ans.id, some ⟨p.os.attrs, size⟩, some a, .aThread⟩) })) := by
  simp only [step] at h
  split at h
  · cases h
  · rename_i ha
    split_ifs at h with hfresh
    refine ⟨ha, ?_⟩
    rcases Thread.constructStarted_cases a stackMin stackSize ans p.os with
      ⟨hs, e, hc⟩ | ⟨hs, e, hc⟩ | ⟨hs, hcreate, size, hc⟩ <;> rw [hc] at h ⊢
    · exact .inl ⟨hs, ⟨e, rfl⟩, .inl (Option.some.inj h).symm⟩
    · exact .inl ⟨hs, ⟨e, rfl⟩, .inr (Option.some.inj h).symm⟩
    · obtain ⟨hid, hnew⟩ := hfresh hcreate
      exact .inr ⟨hs, hid, hnew, size, rfl, (Option.some.inj h).symm⟩

/-- **The step lemma.** -/
theorem step_ok {stackMin : Nat} {p p' : Pool Obj} {op : PoolOp Obj} (hp : p.Ok)
    (h : step stackMin p op = some p') : p'.Ok := by
  cases op with
  | construct a attrInit =>
      simp only [step] at h
      split at h
      · cases h
      · rename_i ha
        rcases Thread.construct_cases a attrInit p.os with ⟨-, hc⟩ | ⟨-, e, hc⟩ <;> rw [hc] at h
        · obtain rfl := Option.some.inj h
          exact ok_construct hp ha
        · obtain rfl := Option.some.inj h
          exact hp
  | constructStarted a stackSize ans =>
      obtain ⟨ha, ⟨-, -, rfl | rfl⟩ | ⟨-, hid, hnew, size, -, rfl⟩⟩ := step_constructStarted h
      · exact hp
      · exact ok_constructFailed hp ha
      · exact ok_constructStarted hp ha hid hnew
  | moveConstruct a other attrInit =>
      simp only [step] at h
      split at h
      · rename_i ha ho
        rcases Thread.construct_cases a attrInit p.os with ⟨-, hc⟩ | ⟨-, e, hc⟩ <;> rw [hc] at h
        · obtain ⟨m, hm, rfl⟩ := Option.map_eq_some_iff.mp h
          exact ok_swap (ok_construct hp ha) hm
        · obtain rfl := Option.some.inj h
          exact hp
      · cases h
  | moveAssign a other =>
      obtain ⟨m, hm, rfl⟩ := Option.map_eq_some_iff.mp h
      exact ok_swap hp hm
  | join a caller rc =>
      simp only [step] at h
      split at h
      · rename_i t ht
        rcases Thread.join_cases caller rc t p.os with ⟨e, hj⟩ | ⟨hid, -, hj⟩ <;> rw [hj] at h
        · obtain rfl := Option.some.inj h
          rw [← ht, Function.update_eq_self]
          exact hp
        · obtain rfl := Option.some.inj h
          exact ok_join hp ht hid
      · cases h
  | destroy a =>
      simp only [step] at h
      split at h
      · rename_i t ht
        obtain rfl := Option.some.inj h
        exact ok_destroy hp ht
      · cases h

theorem run_ok {stackMin : Nat} {p p' : Pool Obj} {ops : List (PoolOp Obj)} (hp : p.Ok)
    (h : run (step stackMin) p ops = some p') : p'.Ok :=
  run_invariant_of_step (fun _ _ _ hi hs => step_ok hi hs) hp h

omit [DecidableEq Obj] in
theorem held_idIn {m : Memory Obj} {a : Obj} {id : Nat} (hid : id ≠ 0) :
    held idIn m a = some id ↔ ∃ t, m a = some t ∧ t.thread = id := by
  rw [held_eq_some]
  constructor
  · rintro ⟨t, ht, hi⟩
    unfold idIn at hi
    split_ifs at hi with h0
    exact ⟨t, ht, Option.some.inj hi⟩
  · rintro ⟨t, ht, rfl⟩
    exact ⟨t, ht, if_neg hid⟩

/-- **Handles and attributes have one owner**, whatever is done with `thread` objects. An object
is a thread iff it has an id; no two objects have the same one; the ids in the objects are those
created and neither joined nor held by an object when it was destroyed; every attribute pointer
points to the object's own block; and every attribute that has been initialised is in exactly one
object, or has been destroyed once. -/
theorem handles_have_one_owner {stackMin : Nat} {ops : List (PoolOp Obj)} {p : Pool Obj}
    (h : run (step stackMin) empty ops = some p) :
    (∀ a t, p.memory a = some t → (t.status = .aThread ↔ t.thread ≠ 0)) ∧
    (∀ a b t u, p.memory a = some t → p.memory b = some u → t.thread ≠ 0 →
      t.thread = u.thread → a = b) ∧
    (∀ id, id ≠ 0 → ((∃ a t, p.memory a = some t ∧ t.thread = id) ↔
      id ∈ p.os.created ∧ id ∉ p.os.joined ∧ id ∉ p.dropped)) ∧
    (∀ a t, p.memory a = some t → t.attrPtr = some a) ∧
    (p.os.destroyed.Nodup ∧ (∀ s ∈ p.os.destroyed, s < p.os.attrs) ∧
      ∀ s, s < p.os.attrs →
        (s ∉ p.os.destroyed ↔ ∃ a t, p.memory a = some t ∧ t.attr.map Attr.serial = some s) ∧
        ∀ a b t u, p.memory a = some t → p.memory b = some u →
          t.attr.map Attr.serial = some s → u.attr.map Attr.serial = some s → a = b) := by
  obtain ⟨hthreads, hids, hattrs⟩ := run_ok ok_empty h
  refine ⟨fun a t ht => (hthreads a t ht).status_iff, ?_, ?_,
    fun a t ht => (hthreads a t ht).attrPtr, hattrs.nodup, ?_, ?_⟩
  · intro a b t u ht hu hid heq
    exact hids.unique (held_eq_some.mpr ⟨t, ht, if_neg hid⟩)
      (held_eq_some.mpr ⟨u, hu, by rw [heq]; exact if_neg (heq ▸ hid)⟩)
  · intro id hid
    rw [← not_or, ← List.mem_append, ← hids.held_iff]
    exact exists_congr fun a => (held_idIn hid).symm
  · intro s hs
    exact List.mem_range.mp ((hattrs.mem_issued s).mpr (.inl hs))
  · intro s hs
    constructor
    · have hheld := hattrs.held_iff s
      simp only [held_eq_some, List.mem_range, hs, true_and] at hheld
      exact hheld.symm
    · intro a b t u ht hu hts hus
      exact hattrs.unique (held_eq_some.mpr ⟨t, ht, hts⟩) (held_eq_some.mpr ⟨u, hu, hus⟩)

/-- Threads are started in two objects and assigned, one to itself and one over the other; one
join fails, one succeeds; an object is destroyed with its thread still running. -/
def assignments : List (PoolOp Nat) :=
  [.constructStarted 0 0 ⟨0, 0, 0, 0, 41⟩, .constructStarted 1 0 ⟨0, 0, 0, 0, 42⟩,
   .constructStarted 2 5 ⟨0, 0, 0, 0, 43⟩, .moveAssign 0 0, .moveAssign 0 1,
   .join 0 7 EDEADLK, .join 0 7 0, .moveConstruct 2 1 0, .destroy 2]

theorem assignments_runs : (run (step 16) empty assignments).isSome = true := by decide

theorem handles_have_one_owner_assignments :
    ∃ p, run (step 16) empty assignments = some p ∧ p.os.created = [41, 42] ∧
      p.os.joined = [42] ∧ p.dropped = [41] ∧
      ((∃ a t, p.memory a = some t ∧ t.thread = 42) ↔
        42 ∈ p.os.created ∧ 42 ∉ p.os.joined ∧ 42 ∉ p.dropped) :=
  ⟨_, (Option.some_get assignments_runs).symm, by decide, by decide, by decide,
    (handles_have_one_owner (Option.some_get assignments_runs).symm).2.2.1 42 (by decide)⟩

end Pool

end CppPthread
