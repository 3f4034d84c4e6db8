import Mathlib.Data.List.Induction
import Mathlib.Tactic.Common

set_option autoImplicit false

/-! # Runs of a partial step function

A concurrent system is a type of states, a type of events and a partial function
`step : σ → ε → Option σ`: the event says which thread moves and what its environment
answers, and `none` says that the event is not possible in that state. A *run* is a list of
events (`run`); every interleaving of the threads is such a list.

Three things are read off a run: whether each of its steps meets a condition (`Along`), what
its steps emit (`trace`), and whether the system it projects to can follow it
(`run_simulation`). Invariants come in the two shapes the developments use: of the state
(`run_invariant`), and of the state together with the events so far (`run_history`).
-/

namespace Run

universe u v w x

variable {σ : Type u} {ε : Type v} {ω : Type w} (step : σ → ε → Option σ)

/-- The state after a list of events; `none` if one of them is not possible. -/
def run : σ → List ε → Option σ
  | s, [] => some s
  | s, e :: es => (step s e).bind fun s' => run s' es

/-- Every step of the run meets `C`. -/
def Along (C : σ → ε → Prop) : σ → List ε → Prop
  | _, [] => True
  | s, e :: es => C s e ∧ (step s e).elim True fun s' => Along C s' es

/-- What the steps of the run emit, in order. -/
def trace (emit : σ → ε → List ω) : σ → List ε → List ω
  | _, [] => []
  | s, e :: es => emit s e ++ (step s e).elim [] fun s' => trace emit s' es

instance decidableAlong (C : σ → ε → Prop) [∀ s e, Decidable (C s e)] :
    ∀ (s : σ) (es : List ε), Decidable (Along step C s es)
  | _, [] => isTrue trivial
  | s, e :: es =>
      match h : step s e with
      | none => decidable_of_iff (C s e) (by simp [Along, h])
      | some s' =>
          haveI := decidableAlong C s' es
          decidable_of_iff (C s e ∧ Along step C s' es) (by simp [Along, h])

variable {step}

@[simp] theorem run_nil (s : σ) : run step s [] = some s := rfl

theorem run_cons {s s' : σ} {e : ε} {es : List ε} :
    run step s (e :: es) = some s' ↔ ∃ m, step s e = some m ∧ run step m es = some s' := by
  simp [run, Option.bind_eq_some_iff]

theorem run_append {s s' : σ} {es es' : List ε} :
    run step s (es ++ es') = some s' ↔
      ∃ m, run step s es = some m ∧ run step m es' = some s' := by
  induction es generalizing s with
  | nil => simp
  | cons e es ih =>
      rw [List.cons_append, run_cons]
      constructor
      · rintro ⟨m, hm, h⟩
        obtain ⟨m', h1, h2⟩ := ih.mp h
        exact ⟨m', run_cons.mpr ⟨m, hm, h1⟩, h2⟩
      · rintro ⟨m', h1, h2⟩
        obtain ⟨m, hm, h⟩ := run_cons.mp h1
        exact ⟨m, hm, ih.mpr ⟨m', h, h2⟩⟩

@[simp] theorem run_singleton (s : σ) (e : ε) : run step s [e] = step s e := by
  cases h : step s e <;> simp [run, h]

theorem run_pair {s s' : σ} {e e' : ε} :
    run step s [e, e'] = some s' ↔ ∃ m, step s e = some m ∧ step m e' = some s' := by
  rw [run_cons]
  simp

/-! ## Conditions along a run -/

theorem along_cons {C : σ → ε → Prop} {s m : σ} {e : ε} {es : List ε}
    (h : Along step C s (e :: es)) (hm : step s e = some m) :
    C s e ∧ Along step C m es := by
  simpa [Along, hm] using h

theorem along_append {C : σ → ε → Prop} {s m : σ} {es es' : List ε}
    (hm : run step s es = some m) :
    Along step C s (es ++ es') ↔ Along step C s es ∧ Along step C m es' := by
  induction es generalizing s with
  | nil =>
      obtain rfl : s = m := by simpa using hm
      simp [Along]
  | cons e es ih =>
      obtain ⟨m', h1, h2⟩ := run_cons.mp hm
      simp only [List.cons_append, Along, h1, Option.elim_some, ih h2, and_assoc]

theorem along_singleton {C : σ → ε → Prop} {s : σ} {e : ε} :
    Along step C s [e] ↔ C s e := by
  cases h : step s e <;> simp [Along, h]

theorem Along.mono {C D : σ → ε → Prop} (hCD : ∀ s e, C s e → D s e) {s : σ} {es : List ε}
    (h : Along step C s es) : Along step D s es := by
  induction es generalizing s with
  | nil => trivial
  | cons e es ih =>
      refine ⟨hCD s e h.1, ?_⟩
      cases hm : step s e with
      | none => trivial
      | some m => exact ih (along_cons h hm).2

theorem Along.and {C D : σ → ε → Prop} {s : σ} {es : List ε} (hC : Along step C s es)
    (hD : Along step D s es) : Along step (fun s e => C s e ∧ D s e) s es := by
  induction es generalizing s with
  | nil => trivial
  | cons e es ih =>
      refine ⟨⟨hC.1, hD.1⟩, ?_⟩
      cases hm : step s e with
      | none => trivial
      | some m => exact ih (along_cons hC hm).2 (along_cons hD hm).2

/-- A condition on the events alone holds along a run iff each event meets it, as long as the
run can be followed. -/
theorem along_of_forall {P : ε → Prop} {s : σ} {es : List ε} (h : ∀ e ∈ es, P e) :
    Along step (fun _ e => P e) s es := by
  induction es generalizing s with
  | nil => trivial
  | cons e es ih =>
      refine ⟨h e (by simp), ?_⟩
      cases hm : step s e with
      | none => trivial
      | some m => exact ih fun e' he' => h e' (by simp [he'])

/-- No step of the run is the event `e`. -/
theorem along_ne {e : ε} {s : σ} {es : List ε} (h : e ∉ es) :
    Along step (fun _ e' => e' ≠ e) s es :=
  along_of_forall (P := fun e' => e' ≠ e) fun _ hmem he => h (he ▸ hmem)

/-! ## Invariants -/

/-- **The invariant rule.** What every step that meets `C` preserves holds at the end of every
run along which `C` holds. -/
theorem run_invariant {I : σ → Prop} {C : σ → ε → Prop}
    (hstep : ∀ s e s', I s → C s e → step s e = some s' → I s')
    {s s' : σ} {es : List ε} (hs : I s) (hC : Along step C s es)
    (h : run step s es = some s') : I s' := by
  induction es generalizing s with
  | nil =>
      obtain rfl : s = s' := by simpa using h
      exact hs
  | cons e es ih =>
      obtain ⟨m, hm, h'⟩ := run_cons.mp h
      obtain ⟨hc, hC'⟩ := along_cons hC hm
      exact ih (hstep s e m hs hc hm) hC' h'

/-- The invariant rule for steps that preserve `I` unconditionally. -/
theorem run_invariant_of_step {I : σ → Prop}
    (hstep : ∀ s e s', I s → step s e = some s' → I s')
    {s s' : σ} {es : List ε} (hs : I s) (h : run step s es = some s') : I s' :=
  run_invariant (C := fun _ _ => True) (fun s e s' hi _ => hstep s e s' hi) hs
    (along_of_forall (P := fun _ => True) fun _ _ => trivial) h

/-- **The history rule.** A relation between the events so far and the state, which every
further event preserves, holds at the end of every run. -/
theorem run_history {P : List ε → σ → Prop} {s : σ} (h0 : P [] s)
    (hstep : ∀ es m e m', run step s es = some m → P es m → step m e = some m' →
      P (es ++ [e]) m')
    {s' : σ} {es : List ε} (h : run step s es = some s') : P es s' := by
  induction es using List.reverseRecOn generalizing s' with
  | nil =>
      obtain rfl : s = s' := by simpa using h
      exact h0
  | append_singleton es e ih =>
      obtain ⟨m, hm, he⟩ := run_append.mp h
      rw [run_singleton] at he
      exact hstep es m e s' hm (ih hm) he

/-! ## Traces -/

theorem trace_append {emit : σ → ε → List ω} {s m : σ} {es es' : List ε}
    (hm : run step s es = some m) :
    trace step emit s (es ++ es') = trace step emit s es ++ trace step emit m es' := by
  induction es generalizing s with
  | nil =>
      obtain rfl : s = m := by simpa using hm
      rfl
  | cons e es ih =>
      obtain ⟨m', h1, h2⟩ := run_cons.mp hm
      simp only [List.cons_append, trace, h1, Option.elim_some, ih h2, List.append_assoc]

theorem trace_singleton (emit : σ → ε → List ω) (s : σ) (e : ε) :
    trace step emit s [e] = emit s e := by
  cases h : step s e <;> simp [trace, h]

theorem trace_snoc {emit : σ → ε → List ω} {s m : σ} {es : List ε} (e : ε)
    (hm : run step s es = some m) :
    trace step emit s (es ++ [e]) = trace step emit s es ++ emit m e := by
  rw [trace_append hm, trace_singleton]

theorem filterMap_trace {υ : Type x} (g : ω → Option υ) (emit : σ → ε → List ω) (s : σ)
    (es : List ε) :
    (trace step emit s es).filterMap g = trace step (fun s e => (emit s e).filterMap g) s es := by
  induction es generalizing s with
  | nil => rfl
  | cons e es ih =>
      rw [trace, trace, List.filterMap_append]
      cases step s e with
      | none => rfl
      | some m => simp [ih]

/-! ## Simulation -/

section Simulation

/-! `f` maps the first system to the second one, and the second one follows each event of the
first with the events that `lower` gives. An invariant `I` of the first system may be used, and a
condition `C` that its steps meet. -/

variable {τ : Type w} {η : Type x} {step' : τ → η → Option τ} {f : σ → τ} {lower : σ → ε → List η}
  {I : σ → Prop} {C : σ → ε → Prop}
  (hI : ∀ s e s', I s → C s e → step s e = some s' → I s')
  (hsim : ∀ s e s', I s → C s e → step s e = some s' →
    run step' (f s) (lower s e) = some (f s'))

include hI hsim

/-- **The simulation rule.** The second system follows every run of the first one. -/
theorem run_simulation_along {s s' : σ} {es : List ε} (hs : I s) (hC : Along step C s es)
    (h : run step s es = some s') :
    run step' (f s) (trace step lower s es) = some (f s') := by
  induction es generalizing s with
  | nil =>
      obtain rfl : s = s' := by simpa using h
      rfl
  | cons e es ih =>
      obtain ⟨m, hm, h'⟩ := run_cons.mp h
      obtain ⟨hc, hC'⟩ := along_cons hC hm
      simp only [trace, hm, Option.elim_some]
      exact run_append.mpr ⟨f m, hsim s e m hs hc hm, ih (hI s e m hs hc hm) hC' h'⟩

/-- What the steps of the first system emit is what the second one emits when it follows. -/
theorem trace_simulation_along {emit : σ → ε → List ω} {emit' : τ → η → List ω}
    (hemit : ∀ s e s', I s → C s e → step s e = some s' →
      emit s e = trace step' emit' (f s) (lower s e))
    {s s' : σ} {es : List ε} (hs : I s) (hC : Along step C s es) (h : run step s es = some s') :
    trace step emit s es = trace step' emit' (f s) (trace step lower s es) := by
  induction es generalizing s with
  | nil => rfl
  | cons e es ih =>
      obtain ⟨m, hm, h'⟩ := run_cons.mp h
      obtain ⟨hc, hC'⟩ := along_cons hC hm
      rw [trace, trace, hm, Option.elim_some, Option.elim_some,
        trace_append (hsim s e m hs hc hm), hemit s e m hs hc hm, ih (hI s e m hs hc hm) hC' h']

end Simulation

section Unconditional

variable {τ : Type w} {η : Type x} {step' : τ → η → Option τ} {f : σ → τ} {lower : σ → ε → List η}
  {I : σ → Prop} (hI : ∀ s e s', I s → step s e = some s' → I s')
  (hsim : ∀ s e s', I s → step s e = some s' → run step' (f s) (lower s e) = some (f s'))

include hI hsim

/-- The simulation rule for steps that are followed unconditionally. -/
theorem run_simulation {s s' : σ} {es : List ε} (hs : I s) (h : run step s es = some s') :
    run step' (f s) (trace step lower s es) = some (f s') :=
  run_simulation_along (C := fun _ _ => True) (fun s e s' hi _ => hI s e s' hi)
    (fun s e s' hi _ => hsim s e s' hi) hs
    (along_of_forall (P := fun _ => True) fun _ _ => trivial) h

/-- What the events that follow a step meet, all events that follow a run meet. -/
theorem along_simulation {D : τ → η → Prop}
    (hD : ∀ s e s', I s → step s e = some s' → Along step' D (f s) (lower s e))
    {s s' : σ} {es : List ε} (hs : I s) (h : run step s es = some s') :
    Along step' D (f s) (trace step lower s es) := by
  induction es generalizing s with
  | nil => trivial
  | cons e es ih =>
      obtain ⟨m, hm, h'⟩ := run_cons.mp h
      simp only [trace, hm, Option.elim_some]
      exact (along_append (hsim s e m hs hm)).mpr ⟨hD s e m hs hm, ih (hI s e m hs hm) h'⟩

theorem trace_simulation {emit : σ → ε → List ω} {emit' : τ → η → List ω}
    (hemit : ∀ s e s', I s → step s e = some s' → emit s e = trace step' emit' (f s) (lower s e))
    {s s' : σ} {es : List ε} (hs : I s) (h : run step s es = some s') :
    trace step emit s es = trace step' emit' (f s) (trace step lower s es) :=
  trace_simulation_along (C := fun _ _ => True) (fun s e s' hi _ => hI s e s' hi)
    (fun s e s' hi _ => hsim s e s' hi) (fun s e s' hi _ => hemit s e s' hi) hs
    (along_of_forall (P := fun _ => True) fun _ _ => trivial) h

end Unconditional

end Run
