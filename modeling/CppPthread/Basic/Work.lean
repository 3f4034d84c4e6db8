import CppPthread.Basic.Run
import Mathlib.Algebra.BigOperators.Group.Finset.Piecewise
import Mathlib.Algebra.Order.BigOperators.Group.Finset
import Mathlib.Algebra.Order.Ring.Nat

set_option autoImplicit false

/-! # Work that comes to an end

A system whose threads have work to do, and an environment that gives them more. The work that is
left in a state is a number, `left s`; each event does some of it (`cost`) and may add some
(`credit`). If every step pays for what it does, then a run does no more than what was there at its
begin and what came in (`run_budget`). When in every state that is not settled some of the work can
be done, the system can settle from everywhere (`exists_settled`).

The work that is left in a system of threads is the sum over the threads of a rank of their local
states (`total`). It changes by what the thread that moves does (`total_update`), and a step that
raises the ranks of others by at most `d` has to pay `d` for each (`total_le`).
-/

namespace Work

open Run

universe u v

/-! ## Budgets of runs -/

section Budget

variable {σ : Type u} {ε : Type v} {step : σ → ε → Option σ} {I : σ → Prop} {left : σ → Nat}

theorem sum_map_toNat (p : ε → Bool) (es : List ε) :
    (es.map fun e => (p e).toNat).sum = es.countP p := by
  induction es with
  | nil => rfl
  | cons e es ih =>
      rw [List.map_cons, List.sum_cons, List.countP_cons, ih, Nat.add_comm]
      cases p e <;> rfl

variable (hI : ∀ s e s', I s → step s e = some s' → I s')

include hI

/-- **The budget rule.** -/
theorem run_budget (cost credit : ε → Nat)
    (hstep : ∀ s e s', I s → step s e = some s' → left s' + cost e ≤ left s + credit e)
    {s s' : σ} {es : List ε} (hs : I s) (h : run step s es = some s') :
    left s' + (es.map cost).sum ≤ left s + (es.map credit).sum := by
  induction es generalizing s with
  | nil =>
      obtain rfl : s = s' := by simpa using h
      simp
  | cons e es ih =>
      obtain ⟨m, hm, h'⟩ := run_cons.mp h
      have hfirst := hstep s e m hs hm
      have hrest := ih (hI s e m hs hm) h'
      simp only [List.map_cons, List.sum_cons]
      omega

/-- **The settling rule.** While the system is not settled it can get some of its work done, so it
can be brought to a settled state. -/
theorem exists_settled (left : σ → Nat) {own : ε → Prop} {settled : σ → Prop}
    (hprogress : ∀ s, I s → ¬ settled s → ∃ es s', (∀ e ∈ es, own e) ∧ run step s es = some s' ∧
      left s' < left s) {s : σ} (hs : I s) :
    ∃ es s', (∀ e ∈ es, own e) ∧ run step s es = some s' ∧ settled s' := by
  -- the induction is on the work that is left
  induction hn : left s using Nat.strong_induction_on generalizing s with
  | _ n ih =>
      by_cases hset : settled s
      · exact ⟨[], s, by simp, rfl, hset⟩
      · obtain ⟨es, m, hes, hm, hlt⟩ := hprogress s hs hset
        have hmI := run_invariant_of_step hI hs hm
        obtain ⟨es', s', hes', hrun, hset'⟩ := ih (left m) (hn ▸ hlt) hmI rfl
        refine ⟨es ++ es', s', fun e he => ?_, run_append.mpr ⟨m, hm, hrun⟩, hset'⟩
        rcases List.mem_append.mp he with hmem | hmem
        · exact hes e hmem
        · exact hes' e hmem

end Budget

/-! ## Ranks of threads -/

section Total

variable {ι : Type u} [Fintype ι] {L : Type v}

/-- The work that all threads together have left. -/
def total (rank : L → Nat) (f : ι → L) : Nat := ∑ i, rank (f i)

theorem total_le_card {rank : L → Nat} {f : ι → L} {b : Nat} (h : ∀ i, rank (f i) ≤ b) :
    total rank f ≤ Fintype.card ι * b := by
  have hsum := Finset.sum_le_card_nsmul Finset.univ (fun i => rank (f i)) b fun i _ => h i
  simpa [total] using hsum

theorem total_eq_zero {rank : L → Nat} {f : ι → L} (h : ∀ i, rank (f i) = 0) :
    total rank f = 0 := Finset.sum_eq_zero fun i _ => h i

/-- A step that raises no rank by more than `d`. -/
theorem total_le {rank : L → Nat} {f g : ι → L} {d : Nat}
    (h : ∀ i, rank (g i) ≤ rank (f i) + d) : total rank g ≤ total rank f + Fintype.card ι * d :=
  calc total rank g ≤ ∑ i, (rank (f i) + d) := Finset.sum_le_sum fun i _ => h i
    _ = total rank f + Fintype.card ι * d := by simp [Finset.sum_add_distrib, total]

variable [DecidableEq ι]

/-- Thread `i` goes to `l`. -/
theorem total_update (rank : L → Nat) (f : ι → L) (i : ι) (l : L) :
    total rank (Function.update f i l) + rank (f i) = total rank f + rank l := by
  have hrest : ∑ j ∈ Finset.univ.erase i, rank (Function.update f i l j)
      = ∑ j ∈ Finset.univ.erase i, rank (f j) :=
    Finset.sum_congr rfl fun j hj => by rw [Function.update_of_ne (Finset.ne_of_mem_erase hj)]
  have hnew := Finset.add_sum_erase Finset.univ
    (fun j => rank (Function.update f i l j)) (Finset.mem_univ i)
  have hold := Finset.add_sum_erase Finset.univ (fun j => rank (f j)) (Finset.mem_univ i)
  simp only [Function.update_self] at hnew
  rw [total, total]
  omega

end Total

end Work
