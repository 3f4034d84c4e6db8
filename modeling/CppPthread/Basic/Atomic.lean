import CppPthread.Basic.Run
import Mathlib.Logic.Function.Basic

set_option autoImplicit false

/-! # Atomic objects

What a shared object is for, seen from the threads that use it: an operation takes effect at one
instant between its call and its return. A sequential object is a partial function: `seq s o r` is
the state after the operation `o` has ended with `r`, and `none` if it may not end so. The atomic
object made of it (`step`) has three events for each operation of a thread, and a further one for
operations that have no duration. The values that an operation hands to its caller are handed over
when it takes effect (`deliver`).

Two facts say that this is linearizability. The effects of a run are a run of the sequential object
(`run_effects`); and between a call and the return that ends it the thread has had one effect, of
the operation that was called and with the result that was returned (`call_effect`).

An implementation refines the object when the status of its threads and the state of the object can
be read off its states. The events are then read off the change of the status (`moves`).
-/

namespace Atomic

open Run

/-- Where a thread stands. -/
inductive Status (O R : Type) where
  | idle
  | pending (o : O)
  | done (o : O) (r : R)

structure State (Tid σ O R : Type) where
  object : σ
  status : Tid → Status O R

inductive Event (Tid O R : Type) where
  | call (t : Tid) (o : O)
  /-- The operation of the thread takes effect. -/
  | effect (t : Tid) (r : R)
  | ret (t : Tid) (r : R)
  /-- An operation that takes effect when it is called. -/
  | instant (o : O) (r : R)

/-- What can be seen of an event. -/
inductive Shown (O R V : Type) where
  | called (o : O)
  | delivered (v : V)
  | ended (r : R)

variable {Tid σ O R V : Type} [DecidableEq Tid] [DecidableEq R] (seq : σ → O → R → Option σ)
  (deliver : σ → O → R → List V)

def State.set (s : State Tid σ O R) (x : σ) (t : Tid) (st : Status O R) : State Tid σ O R :=
  ⟨x, Function.update s.status t st⟩

def step (s : State Tid σ O R) : Event Tid O R → Option (State Tid σ O R)
  | .call t o =>
      match s.status t with
      | .idle => some (s.set s.object t (.pending o))
      | _ => none
  | .effect t r =>
      match s.status t with
      | .pending o => (seq s.object o r).map fun x => s.set x t (.done o r)
      | _ => none
  | .ret t r =>
      match s.status t with
      | .done _ r' => if r' = r then some (s.set s.object t .idle) else none
      | _ => none
  | .instant o r => (seq s.object o r).map fun x => { s with object := x }

/-- What is seen of an event, with the thread that sees it if it has one. -/
def shows (s : State Tid σ O R) : Event Tid O R → List (Option Tid × Shown O R V)
  | .call t o => [(some t, .called o)]
  | .effect t r =>
      match s.status t with
      | .pending o => (deliver s.object o r).map fun v => (some t, .delivered v)
      | _ => []
  | .ret t r => [(some t, .ended r)]
  | .instant o r => [(none, .called o), (none, .ended r)]

/-- The operation that takes effect, with its thread if it has one. -/
def effects (s : State Tid σ O R) : Event Tid O R → List (Option Tid × O × R)
  | .effect t r =>
      match s.status t with
      | .pending o => [(some t, o, r)]
      | _ => []
  | .instant o r => [(none, o, r)]
  | _ => []

/-- The sequential object, driven by effects. -/
def apply (x : σ) (e : Option Tid × O × R) : Option σ := seq x e.2.1 e.2.2

variable {seq}

/-! ## Linearizability -/

/-- An effect changes the object as the operation does, and the other events do not change it. -/
theorem step_effects {s s' : State Tid σ O R} {e : Event Tid O R} (h : step seq s e = some s') :
    run (apply seq) s.object (effects s e) = some s'.object := by
  cases e with
  | call t o =>
      simp only [step] at h
      split at h
      · obtain rfl := Option.some.inj h
        rfl
      · cases h
  | effect t r =>
      simp only [step] at h
      split at h
      · rename_i o ho
        obtain ⟨x, hx, rfl⟩ := Option.map_eq_some_iff.mp h
        simp only [effects, ho, run_singleton]
        exact hx
      · cases h
  | ret t r =>
      simp only [step] at h
      split at h
      · split_ifs at h
        obtain rfl := Option.some.inj h
        rfl
      · cases h
  | instant o r =>
      obtain ⟨x, hx, rfl⟩ := Option.map_eq_some_iff.mp h
      simp only [effects, run_singleton]
      exact hx

/-- **The effects of a run are a run of the sequential object.** -/
theorem run_effects {s s' : State Tid σ O R} {es : List (Event Tid O R)}
    (h : run (step seq) s es = some s') :
    run (apply seq) s.object (trace (step seq) effects s es) = some s'.object :=
  run_simulation (f := State.object) (I := fun _ => True) (fun _ _ _ _ _ => trivial)
    (fun _ _ _ _ hs => step_effects hs) trivial h

/-- The effects of one thread. -/
def own (t : Tid) (l : List (Option Tid × O × R)) : List (O × R) :=
  l.filterMap fun e => if e.1 = some t then some e.2 else none

omit [DecidableEq R] in
theorem own_append (t : Tid) (l l' : List (Option Tid × O × R)) :
    own t (l ++ l') = own t l ++ own t l' := List.filterMap_append ..

/-- The effects that a thread has had since it called `o`. -/
def Had (o : O) (l : List (O × R)) : Status O R → Prop
  | .idle => False
  | .pending o' => o' = o ∧ l = []
  | .done o' r => o' = o ∧ l = [(o, r)]

/-- **The step lemma.** -/
theorem step_had {s s' : State Tid σ O R} {e : Event Tid O R} {t : Tid} {o : O} {l : List (O × R)}
    (h : step seq s e = some s') (he : ∀ r, e ≠ .ret t r) (hl : Had o l (s.status t)) :
    Had o (l ++ own t (effects s e)) (s'.status t) := by
  have other : ∀ {u : Tid} {x : σ} {st : Status O R}, t ≠ u →
      (s.set x u st).status t = s.status t := fun hne => Function.update_of_ne hne ..
  cases e with
  | call u o' =>
      simp only [step] at h
      split at h
      · rename_i hu
        obtain rfl := Option.some.inj h
        have hne : t ≠ u := by
          rintro rfl
          rw [hu] at hl
          exact hl
        rw [other hne]
        simpa [effects, own] using hl
      · cases h
  | effect u r =>
      simp only [step] at h
      split at h
      · rename_i o' hu
        obtain ⟨x, -, rfl⟩ := Option.map_eq_some_iff.mp h
        by_cases htu : t = u
        · subst htu
          rw [hu] at hl
          obtain ⟨rfl, rfl⟩ := hl
          simp [effects, hu, own, Had, State.set]
        · rw [other htu]
          simpa [effects, hu, own, Ne.symm htu] using hl
      · cases h
  | ret u r =>
      simp only [step] at h
      split at h
      · split_ifs at h
        obtain rfl := Option.some.inj h
        have hne : t ≠ u := by
          rintro rfl
          exact he r rfl
        rw [other hne]
        simpa [effects, own] using hl
      · cases h
  | instant o' r =>
      obtain ⟨x, -, rfl⟩ := Option.map_eq_some_iff.mp h
      simpa [effects, own] using hl

/-- **Between a call and its return the thread has one effect**, of the operation that was called
and with the result that is returned. -/
theorem call_effect {s s' : State Tid σ O R} {es : List (Event Tid O R)} {t : Tid} {o : O} {r : R}
    (hret : ∀ r', .ret t r' ∉ es)
    (h : run (step seq) s (.call t o :: es ++ [.ret t r]) = some s') :
    own t (trace (step seq) effects s (.call t o :: es)) = [(o, r)] := by
  obtain ⟨m, hm, hlast⟩ := run_append.mp h
  obtain ⟨m₀, hcall, hes⟩ := run_cons.mp hm
  have hbegin : m₀.status t = .pending o := by
    simp only [step] at hcall
    split at hcall
    · obtain rfl := Option.some.inj hcall
      simp [State.set]
    · cases hcall
  have hhad : Had o (own t (trace (step seq) effects m₀ es)) (m.status t) := by
    refine run_history (P := fun es m => (∀ r', .ret t r' ∉ es) →
      Had o (own t (trace (step seq) effects m₀ es)) (m.status t)) ?_ ?_ hes hret
    · intro _
      rw [hbegin]
      exact ⟨rfl, rfl⟩
    · intro es m e m' hrun ih hs hne
      rw [trace_snoc e hrun, own_append]
      refine step_had hs (fun r' he => hne r' (by simp [he])) (ih fun r' hmem => ?_)
      exact hne r' (List.mem_append_left _ hmem)
  have htrace : trace (step seq) effects s (.call t o :: es)
      = trace (step seq) effects m₀ es := by
    rw [trace, hcall]
    rfl
  rw [htrace]
  rw [run_singleton] at hlast
  simp only [step] at hlast
  split at hlast
  · rename_i o' r' hdone
    split_ifs at hlast with hr
    rw [hdone] at hhad
    rw [hhad.2, hr]
  · cases hlast

/-! ## Events read off the status -/

/-- The event by which a thread gets from one status to another. -/
def moves (t : Tid) : Status O R → Status O R → List (Event Tid O R)
  | .idle, .pending o => [.call t o]
  | .pending _, .done _ r => [.effect t r]
  | .done _ r, .idle => [.ret t r]
  | _, _ => []

omit [DecidableEq Tid] [DecidableEq R] in
@[simp] theorem moves_self (t : Tid) (st : Status O R) : moves t st st = [] := by
  cases st <;> rfl

omit [DecidableEq R] in
theorem State.set_same {s : State Tid σ O R} {t : Tid} {st : Status O R} (h : s.status t = st) :
    s.set s.object t st = s := by
  cases s
  simp only [State.set, State.mk.injEq, true_and]
  rw [← h]
  exact Function.update_eq_self ..

/-- The thread keeps its status. -/
theorem run_stay {s : State Tid σ O R} {t : Tid} {st : Status O R} (h : s.status t = st) :
    run (step seq) s (moves t st st) = some (s.set s.object t st) := by
  rw [State.set_same h, moves_self]
  rfl

theorem run_call {s : State Tid σ O R} {t : Tid} {o : O} (h : s.status t = .idle) :
    run (step seq) s (moves t .idle (.pending o)) = some (s.set s.object t (.pending o)) := by
  simp [moves, step, h]

theorem run_effect {s : State Tid σ O R} {t : Tid} {o : O} {r : R} {x : σ}
    (h : s.status t = .pending o) (hx : seq s.object o r = some x) :
    run (step seq) s (moves t (.pending o) (.done o r)) = some (s.set x t (.done o r)) := by
  simp [moves, step, h, hx]

theorem run_ret {s : State Tid σ O R} {t : Tid} {o : O} {r : R} (h : s.status t = .done o r) :
    run (step seq) s (moves t (.done o r) .idle) = some (s.set s.object t .idle) := by
  simp [moves, step, h]

/-! ## What is seen of a change of the status -/

variable {deliver}

theorem shows_call (s : State Tid σ O R) (t : Tid) (o : O) :
    trace (step seq) (shows deliver) s (moves t .idle (.pending o)) = [(some t, .called o)] :=
  trace_singleton _ _ (Event.call t o)

theorem shows_effect {s : State Tid σ O R} {t : Tid} {o : O} {r : R} (h : s.status t = .pending o) :
    trace (step seq) (shows deliver) s (moves t (.pending o) (.done o r))
      = (deliver s.object o r).map fun v => (some t, .delivered v) := by
  rw [moves, trace_singleton, shows, h]

theorem shows_ret (s : State Tid σ O R) (t : Tid) (o : O) (r : R) :
    trace (step seq) (shows deliver) s (moves t (.done o r) .idle) = [(some t, .ended r)] :=
  trace_singleton _ _ (Event.ret t r)

end Atomic
