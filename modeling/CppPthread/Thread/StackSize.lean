import CppPthread.Thread.Pool
import Mathlib.Data.List.Nodup

set_option autoImplicit false

/-! # The stack size of a thread

`stack_size()` does not ask the thread: it reads the attribute of the object, which `init` has
filled in and `swap` exchanges along with the id. So it tells the size that the thread of the object
was started with, wherever the thread has been moved to. It still does so after the thread has been
joined and the object has given up the id.
-/

namespace CppPthread

open Posix Run Tokens

namespace Thread

variable {Obj : Type}

theorem prepare_size {stackMin stackSize : Nat} {ans : Answers} {t t' : Thread Obj}
    (ht : t.attr.map Attr.stackSize = some 0)
    (h : prepare stackMin stackSize ans t = (t', none)) :
    t'.attr.map Attr.stackSize = some stackSize := by
  unfold prepare at h
  split_ifs at h with hdetach hpos hmin hset
  · cases h
  · cases h
  · obtain ⟨attr, hattr, -⟩ := Option.map_eq_some_iff.mp ht
    obtain ⟨rfl, -⟩ := Prod.mk.inj h
    simp [hattr]
  · cases h
  · obtain ⟨rfl, -⟩ := Prod.mk.inj h
    rw [ht, Nat.eq_zero_of_not_pos hpos]

/-- The constructor puts the size into the attribute. -/
theorem constructStarted_size {a : Obj} {stackMin stackSize : Nat} {ans : Answers} {os : Os}
    {t : Thread Obj} (h : (constructStarted a stackMin stackSize ans os).2 = .ok t) :
    t.attr.map Attr.stackSize = some stackSize := by
  unfold constructStarted at h
  rcases construct_cases a ans.attrInit os with ⟨-, hc⟩ | ⟨-, e, hc⟩
  · simp only [hc, init] at h
    rcases hp : prepare stackMin stackSize ans
        (⟨0, some ⟨os.attrs, 0⟩, some a, .notAThread⟩ : Thread Obj) with ⟨u, _ | e⟩
    · simp only [hp] at h
      split_ifs at h with hcreate
      have hu := prepare_size rfl hp
      obtain rfl := Except.ok.inj h
      exact hu
    · simp only [hp] at h
      cases h
  · simp only [hc] at h
    cases h

end Thread

namespace Pool

variable {Obj : Type} [DecidableEq Obj] (stackMin : Nat)

/-- `stack_size()` of the object at `a`, where `pthread_attr_getstacksize` returns `rc`. It follows
the pointer to the attribute. `systemSize` is the size in an attribute in which none has been
set. -/
def stackSize (systemSize : Nat) (p : Pool Obj) (a : Obj) (rc : Int) :
    Option (Except PthreadException Nat) :=
  (p.memory a).bind fun t =>
    if rc ≠ 0 then some (.error (threadException "failed to get stack size." rc))
    else t.attrPtr.bind fun b => (p.memory b).bind fun u => u.attr.map fun attr =>
      .ok (if attr.stackSize = 0 then systemSize else attr.stackSize)

/-- The thread that an operation starts, with the size that it is to have. -/
def startedBy (p : Pool Obj) : PoolOp Obj → List (Nat × Nat)
  | .constructStarted a size ans =>
      match (Thread.constructStarted a stackMin size ans p.os).2 with
      | .ok _ => [(ans.id, size)]
      | .error _ => []
  | .construct _ _ | .moveConstruct _ _ _ | .moveAssign _ _ | .join _ _ _ | .destroy _ => []

/-- The threads started in a run. -/
def starts (ops : List (PoolOp Obj)) : List (Nat × Nat) :=
  trace (step stackMin) (startedBy stackMin) empty ops

/-- The size in the attribute is the one of the object's thread. An object without an id has never
had one, and then no size, or its thread has been joined. -/
def Sized (starts : List (Nat × Nat)) (joined : List Nat) (t : Thread Obj) : Prop :=
  ∃ attr, t.attr = some attr ∧
    (t.thread ≠ 0 ∧ (t.thread, attr.stackSize) ∈ starts ∨
      t.thread = 0 ∧ (attr.stackSize = 0 ∨ ∃ id ∈ joined, (id, attr.stackSize) ∈ starts))

structure SizesOk (starts : List (Nat × Nat)) (p : Pool Obj) : Prop where
  ok : p.Ok
  ids : starts.map Prod.fst = p.os.created
  once : p.os.created.Nodup
  sized : ∀ a t, p.memory a = some t → Sized starts p.os.joined t

omit [DecidableEq Obj] in
theorem Sized.mono {starts starts' : List (Nat × Nat)} {joined joined' : List Nat}
    {t : Thread Obj} (h : Sized starts joined t) (hs : starts ⊆ starts') (hj : joined ⊆ joined') :
    Sized starts' joined' t := by
  obtain ⟨attr, hattr, ⟨hid, hmem⟩ | ⟨hid, hzero | ⟨id, hjoined, hmem⟩⟩⟩ := h
  · exact ⟨attr, hattr, .inl ⟨hid, hs hmem⟩⟩
  · exact ⟨attr, hattr, .inr ⟨hid, .inl hzero⟩⟩
  · exact ⟨attr, hattr, .inr ⟨hid, .inr ⟨id, hj hjoined, hs hmem⟩⟩⟩

theorem sized_update {m : Memory Obj} {P : Thread Obj → Prop} (hm : ∀ a t, m a = some t → P t)
    {a : Obj} {o : Option (Thread Obj)} (ho : ∀ t, o = some t → P t) :
    ∀ b t, Function.update m a o b = some t → P t :=
  (Function.forall_update_iff m fun _ o => ∀ t, o = some t → P t).mpr ⟨ho, fun b _ => hm b⟩

/-- The size moves with the id. -/
theorem sized_swap {m m' : Memory Obj} {a b : Obj} {starts : List (Nat × Nat)}
    {joined : List Nat} (hm : ∀ c t, m c = some t → Sized starts joined t)
    (h : m.swap a b = some m') : ∀ c t, m' c = some t → Sized starts joined t := by
  obtain ⟨t, o, ht, ho, hm'⟩ := Memory.swap_cases h
  intro c u hu
  rw [hm'] at hu
  split_ifs at hu
  · obtain rfl := Option.some.inj hu
    exact hm b o ho
  · obtain rfl := Option.some.inj hu
    exact hm a t ht
  · exact hm c u hu

/-- **The step lemma.** -/
theorem step_sizesOk {starts : List (Nat × Nat)} {p p' : Pool Obj} {op : PoolOp Obj}
    (hp : p.SizesOk starts) (h : step stackMin p op = some p') :
    p'.SizesOk (starts ++ p.startedBy stackMin op) := by
  have hok := step_ok hp.ok h
  have hnew : ∀ {a : Obj} {joined : List Nat}, Sized starts joined
      (⟨0, some ⟨p.os.attrs, 0⟩, some a, .notAThread⟩ : Thread Obj) := fun {a joined} =>
    ⟨_, rfl, .inr ⟨rfl, .inl rfl⟩⟩
  cases op with
  | construct a attrInit =>
      simp only [step] at h
      rw [startedBy, List.append_nil]
      split at h
      · cases h
      · rcases Thread.construct_cases a attrInit p.os with ⟨-, hc⟩ | ⟨-, e, hc⟩ <;> rw [hc] at h
        · obtain rfl := Option.some.inj h
          exact ⟨hok, hp.ids, hp.once, sized_update hp.sized fun t ht =>
            Option.some.inj ht ▸ hnew⟩
        · obtain rfl := Option.some.inj h
          exact ⟨hok, hp.ids, hp.once, hp.sized⟩
  | constructStarted a size ans =>
      obtain ⟨-, ⟨-, ⟨e, hc⟩, hp'⟩ | ⟨-, hid, hfresh, size', hc, rfl⟩⟩ := step_constructStarted h
      · rw [startedBy, hc, List.append_nil]
        rcases hp' with rfl | rfl
        · exact hp
        · exact ⟨hok, hp.ids, hp.once, hp.sized⟩
      · obtain rfl : size' = size := by simpa using Thread.constructStarted_size hc
        rw [startedBy, hc]
        refine ⟨hok, by simp [hp.ids], ?_, sized_update (fun b t ht => ?_) fun t ht => ?_⟩
        · exact List.nodup_append.mpr ⟨hp.once, by simp, fun x hx y hy =>
            (List.mem_singleton.mp hy) ▸ ne_of_mem_of_not_mem hx hfresh⟩
        · exact (hp.sized b t ht).mono (List.subset_append_left _ _) (fun _ => id)
        · obtain rfl := Option.some.inj ht
          exact ⟨_, rfl, .inl ⟨hid, by simp⟩⟩
  | moveConstruct a other attrInit =>
      simp only [step] at h
      rw [startedBy, List.append_nil]
      split at h
      · rcases Thread.construct_cases a attrInit p.os with ⟨-, hc⟩ | ⟨-, e, hc⟩ <;> rw [hc] at h
        · obtain ⟨m, hm, rfl⟩ := Option.map_eq_some_iff.mp h
          exact ⟨hok, hp.ids, hp.once, sized_swap (sized_update hp.sized fun t ht =>
            Option.some.inj ht ▸ hnew) hm⟩
        · obtain rfl := Option.some.inj h
          exact ⟨hok, hp.ids, hp.once, hp.sized⟩
      · cases h
  | moveAssign a other =>
      obtain ⟨m, hm, rfl⟩ := Option.map_eq_some_iff.mp h
      rw [startedBy, List.append_nil]
      exact ⟨hok, hp.ids, hp.once, sized_swap hp.sized hm⟩
  | join a caller rc =>
      simp only [step] at h
      rw [startedBy, List.append_nil]
      split at h
      · rename_i t ht
        rcases Thread.join_cases caller rc t p.os with ⟨e, hj⟩ | ⟨hid, -, hj⟩ <;> rw [hj] at h
        · obtain rfl := Option.some.inj h
          exact ⟨hok, hp.ids, hp.once, sized_update hp.sized fun u hu =>
            Option.some.inj hu ▸ hp.sized a t ht⟩
        · obtain rfl := Option.some.inj h
          refine ⟨hok, hp.ids, hp.once, sized_update (fun b u hu => ?_) fun u hu => ?_⟩
          · exact (hp.sized b u hu).mono (fun _ => id) (List.subset_append_left _ _)
          · -- The attribute stays, and the thread has been joined now.
            obtain rfl := Option.some.inj hu
            obtain ⟨attr, hattr, ⟨-, hmem⟩ | ⟨hzero, -⟩⟩ := hp.sized a t ht
            · exact ⟨attr, hattr, .inr ⟨rfl, .inr ⟨t.thread, by simp, hmem⟩⟩⟩
            · exact absurd hzero hid
      · cases h
  | destroy a =>
      simp only [step] at h
      rw [startedBy, List.append_nil]
      split at h
      · rename_i t ht
        obtain rfl := Option.some.inj h
        have hos : (t.destroy p.os).created = p.os.created ∧
            (t.destroy p.os).joined = p.os.joined := by
          unfold Thread.destroy
          split <;> exact ⟨rfl, rfl⟩
        refine ⟨hok, hp.ids.trans hos.1.symm, ?_, ?_⟩
        · show (t.destroy p.os).created.Nodup
          rw [hos.1]
          exact hp.once
        · show ∀ b u, Function.update p.memory a none b = some u →
            Sized starts (t.destroy p.os).joined u
          rw [hos.2]
          exact sized_update hp.sized fun u hu => by cases hu
      · cases h

/-- **The run lemma.** -/
theorem run_sizesOk {ops : List (PoolOp Obj)} {p : Pool Obj}
    (h : run (step stackMin) empty ops = some p) : p.SizesOk (starts stackMin ops) := by
  refine run_history (P := fun ops p => p.SizesOk (starts stackMin ops))
    ⟨ok_empty, rfl, List.nodup_nil, fun a t ht => by cases ht⟩ (fun ops p op p' hp hs hop => ?_) h
  rw [starts, trace_snoc op hp]
  exact step_sizesOk stackMin hs hop

omit [DecidableEq Obj] in
/-- What `stack_size()` returns is in the object's own attribute. -/
theorem stackSize_eq {p : Pool Obj} (hp : p.Ok) {systemSize : Nat} {a : Obj} {t : Thread Obj}
    {attr : Attr} (ht : p.memory a = some t) (hattr : t.attr = some attr) :
    p.stackSize systemSize a 0
      = some (.ok (if attr.stackSize = 0 then systemSize else attr.stackSize)) := by
  simp [stackSize, ht, (hp.threads a t ht).attrPtr, hattr]

/-- **The stack size travels with the thread.** After any operations on `thread` objects, the
`stack_size()` of an object that holds a thread is the size that this thread was started with, or
the size of the system if it was started without one. An object that holds none tells the size of
a thread that has been joined, or the size of the system. -/
theorem stack_size_travels {ops : List (PoolOp Obj)} {p : Pool Obj}
    (h : run (step stackMin) empty ops = some p) (systemSize : Nat) :
    (∀ id size size', (id, size) ∈ starts stackMin ops → (id, size') ∈ starts stackMin ops →
      size = size') ∧
    (∀ a t, p.memory a = some t → t.thread ≠ 0 → ∃ size, (t.thread, size) ∈ starts stackMin ops ∧
      p.stackSize systemSize a 0 = some (.ok (if size = 0 then systemSize else size))) ∧
    (∀ a t, p.memory a = some t → t.thread = 0 →
      p.stackSize systemSize a 0 = some (.ok systemSize) ∨
      ∃ id size, id ∈ p.os.joined ∧ (id, size) ∈ starts stackMin ops ∧
        p.stackSize systemSize a 0 = some (.ok (if size = 0 then systemSize else size))) := by
  have hp := run_sizesOk stackMin h
  refine ⟨fun id size size' hs hs' => ?_, fun a t ht hid => ?_, fun a t ht hid => ?_⟩
  · have hnodup : ((starts stackMin ops).map Prod.fst).Nodup := by
      rw [hp.ids]
      exact hp.once
    exact congrArg Prod.snd (List.inj_on_of_nodup_map hnodup hs hs' rfl)
  · obtain ⟨attr, hattr, ⟨-, hmem⟩ | ⟨hzero, -⟩⟩ := hp.sized a t ht
    · exact ⟨attr.stackSize, hmem, stackSize_eq hp.ok ht hattr⟩
    · exact absurd hzero hid
  · obtain ⟨attr, hattr, ⟨hne, -⟩ | ⟨-, hzero | ⟨id, hjoined, hmem⟩⟩⟩ := hp.sized a t ht
    · exact absurd hid hne
    · left
      rw [stackSize_eq hp.ok ht hattr, if_pos hzero]
    · exact .inr ⟨id, attr.stackSize, hjoined, hmem, stackSize_eq hp.ok ht hattr⟩

/-- Two threads with sizes of their own are exchanged, and one is joined. -/
def sizesMoved : List (PoolOp Nat) :=
  [.constructStarted 0 100 ⟨0, 0, 0, 0, 41⟩, .constructStarted 1 200 ⟨0, 0, 0, 0, 42⟩,
   .moveAssign 0 1, .join 1 7 0, .moveConstruct 2 0 0]

theorem sizesMoved_runs : (run (step 16) empty sizesMoved).isSome = true := by decide

theorem stack_size_travels_sizesMoved :
    ∃ p, run (step 16) empty sizesMoved = some p ∧
      starts 16 sizesMoved = [(41, 100), (42, 200)] ∧
      (∃ t, p.memory 2 = some t ∧ t.thread = 42) ∧
      p.stackSize 8 2 0 = some (.ok 200) ∧ p.stackSize 8 1 0 = some (.ok 100) ∧
      ∀ size size', (42, size) ∈ starts 16 sizesMoved → (42, size') ∈ starts 16 sizesMoved →
        size = size' :=
  ⟨_, (Option.some_get sizesMoved_runs).symm, by decide, ⟨_, rfl, by decide⟩, by decide, by decide,
    (stack_size_travels 16 (Option.some_get sizesMoved_runs).symm 8).1 42⟩

end Pool

end CppPthread
