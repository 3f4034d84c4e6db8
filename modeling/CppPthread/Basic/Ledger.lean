import Mathlib.Data.Fintype.Card
import Mathlib.Algebra.BigOperators.Group.Finset.Piecewise
import Mathlib.Tactic.Common

set_option autoImplicit false

/-! # Counting threads, and the wakeup ledger

A family of local states `f : ι → L`, one for each thread. `count p f` is the number of
threads whose local state satisfies `p`; it changes by at most one when one thread moves
(`count_update`).

The ledger of a condition variable compares three numbers: the `supply` (units of what the
waiters wait for), the number of threads that are *parked* on the variable, and the number of
threads that are *pending*: already on their way to take a unit or to pass the news on.
`Covered` says that as long as somebody is parked, every unit of supply has a pending
thread. When nobody is on the way the supply must then be zero (`Covered.supply_eq_zero`):
that is the absence of lost wakeups. The rules below say which moves keep a ledger covered:

* `Covered.move`: one thread moves and the supply changes by no more than its own pending
  status does;
* `Covered.zero`: a thread may park when the supply is zero;
* `Covered.signal`: a pending thread stops being pending after it has unparked at least one
  thread, if there was one;
* `Covered.giveUp`: a pending thread stops being pending when the others are enough.
-/

namespace Ledger

universe u v

variable {ι : Type u} [Fintype ι] [DecidableEq ι] {L : Type v}

/-- The number of threads whose local state satisfies `p`. -/
def count (p : L → Bool) (f : ι → L) : Nat := (Finset.univ.filter fun i => p (f i) = true).card

omit [DecidableEq ι] in
theorem count_pos {p : L → Bool} {f : ι → L} : 0 < count p f ↔ ∃ i, p (f i) = true := by
  simp [count, Finset.card_pos, Finset.Nonempty]

omit [DecidableEq ι] in
theorem count_eq_zero {p : L → Bool} {f : ι → L} : count p f = 0 ↔ ∀ i, p (f i) = false := by
  simp [count, Finset.filter_eq_empty_iff]

omit [DecidableEq ι] in
theorem count_congr {p q : L → Bool} {f g : ι → L} (h : ∀ i, p (f i) = q (g i)) :
    count p f = count q g := by
  simp only [count, h]

omit [DecidableEq ι] in
theorem count_eq_sum (p : L → Bool) (f : ι → L) : count p f = ∑ i, (p (f i)).toNat := by
  rw [count, Finset.card_filter]
  exact Finset.sum_congr rfl fun i _ => by cases p (f i) <;> rfl

/-- Moving thread `i` to `l` takes its old local state out of the count and puts `l` in. -/
theorem count_update (p : L → Bool) (f : ι → L) (i : ι) (l : L) :
    count p (Function.update f i l) + (p (f i)).toNat = count p f + (p l).toNat := by
  have hrest : ∑ j ∈ Finset.univ.erase i, (p (Function.update f i l j)).toNat
      = ∑ j ∈ Finset.univ.erase i, (p (f j)).toNat :=
    Finset.sum_congr rfl fun j hj => by rw [Function.update_of_ne (Finset.ne_of_mem_erase hj)]
  have hnew := Finset.add_sum_erase Finset.univ
    (fun j => (p (Function.update f i l j)).toNat) (Finset.mem_univ i)
  have hold := Finset.add_sum_erase Finset.univ (fun j => (p (f j)).toNat) (Finset.mem_univ i)
  simp only [Function.update_self] at hnew
  rw [count_eq_sum, count_eq_sum]
  omega

/-- Moving the threads of `W` from `p`-states to `q`-states that no other thread counts for. -/
theorem count_add_card_le {p : L → Bool} {f g : ι → L} {W : Finset ι}
    (hW : ∀ i ∈ W, p (f i) = false ∧ p (g i) = true) (hsame : ∀ i, i ∉ W → p (g i) = p (f i)) :
    count p f + W.card = count p g := by
  have hdisj : Disjoint (Finset.univ.filter fun i => p (f i) = true) W :=
    Finset.disjoint_left.mpr fun i hi hw => by simp [(hW i hw).1] at hi
  have hunion : (Finset.univ.filter fun i => p (g i) = true)
      = (Finset.univ.filter fun i => p (f i) = true) ∪ W := by
    ext i
    by_cases hi : i ∈ W
    · simp [hi, (hW i hi).2]
    · simp [hi, hsame i hi]
  rw [count, count, hunion, Finset.card_union_of_disjoint hdisj]

/-! ## The ledger -/

/-- While somebody is parked, every unit of supply has a pending thread. -/
def Covered (parked pending : L → Bool) (supply : Nat) (f : ι → L) : Prop :=
  0 < count parked f → supply ≤ count pending f

instance (parked pending : L → Bool) (supply : Nat) (f : ι → L) :
    Decidable (Covered parked pending supply f) :=
  inferInstanceAs (Decidable (_ → _))

variable {parked pending : L → Bool} {n n' : Nat} {f g : ι → L}

omit [DecidableEq ι] in
theorem Covered.zero : Covered parked pending 0 f := fun _ => Nat.zero_le _

omit [DecidableEq ι] in
theorem Covered.mono (h : Covered parked pending n f) (hn : n' ≤ n) :
    Covered parked pending n' f := fun hp => Nat.le_trans hn (h hp)

omit [DecidableEq ι] in
/-- **No lost wakeup.** With nobody on the way, a parked thread means that there is nothing
to take. -/
theorem Covered.supply_eq_zero (h : Covered parked pending n f)
    (hidle : ∀ i, pending (f i) = false) {i : ι} (hi : parked (f i) = true) : n = 0 := by
  have hle := h (count_pos.mpr ⟨i, hi⟩)
  rw [count_eq_zero.mpr hidle] at hle
  omega

omit [DecidableEq ι] in
theorem Covered.congr (h : Covered parked pending n f)
    (hparked : ∀ i, parked (g i) = parked (f i)) (hpending : ∀ i, pending (g i) = pending (f i)) :
    Covered parked pending n g := by
  unfold Covered
  rw [count_congr hparked, count_congr hpending]
  exact h

/-- One thread moves. It may not park, and the supply may only grow by what the thread adds to
the pending threads, and must fall when it stops being one of them. -/
theorem Covered.move (h : Covered parked pending n f) {i : ι} {l : L}
    (hparked : parked l = true → parked (f i) = true)
    (hn : n' + (pending (f i)).toNat ≤ n + (pending l).toNat) :
    Covered parked pending n' (Function.update f i l) := by
  intro hpos
  have hp := count_update parked f i l
  have hq := count_update pending f i l
  have hmono : (parked l).toNat ≤ (parked (f i)).toNat := by
    cases hl : parked l with
    | false => simp
    | true => simp [hparked hl]
  -- If somebody is parked now, somebody was parked before.
  have hle := h (by omega)
  omega

/-- A pending thread stops being pending although the supply stays the same. That is fine when
the others are enough. -/
theorem Covered.giveUp (h : 0 < count parked f → n < count pending f) {i : ι} {l : L}
    (hl : parked l = false) : Covered parked pending n (Function.update f i l) := by
  intro hpos
  have hp := count_update parked f i l
  have hq := count_update pending f i l
  simp only [hl, Bool.toNat_false] at hp
  have hi : (pending (f i)).toNat ≤ 1 := Bool.toNat_le _
  have hlt := h (by omega)
  omega

/-- The threads of `W` are unparked and become pending. -/
theorem Covered.unpark (h : Covered parked pending n f) {W : Finset ι}
    (hW : ∀ i ∈ W, pending (f i) = false ∧ parked (g i) = false ∧ pending (g i) = true)
    (hsame : ∀ i, i ∉ W → g i = f i) :
    0 < count parked g → n + W.card ≤ count pending g := by
  intro hpos
  obtain ⟨j, hj⟩ := count_pos.mp hpos
  have hjW : j ∉ W := fun hj' => by simp [(hW j hj').2.1] at hj
  have hf := h (count_pos.mpr ⟨j, by rw [← hsame j hjW]; exact hj⟩)
  have hq := count_add_card_le (p := pending) (fun i hi => ⟨(hW i hi).1, (hW i hi).2.2⟩)
    fun i hi => by rw [hsame i hi]
  omega

/-- A wakeup for some of the parked threads keeps the ledger covered. -/
theorem Covered.wake (h : Covered parked pending n f) {W : Finset ι}
    (hW : ∀ i ∈ W, pending (f i) = false ∧ parked (g i) = false ∧ pending (g i) = true)
    (hsame : ∀ i, i ∉ W → g i = f i) : Covered parked pending n g :=
  fun hpos => Nat.le_of_add_right_le (h.unpark hW hsame hpos)

/-- **The signal rule.** Thread `i`, which is pending, unparks the threads of `W` and is then
no longer pending. That is fine when `W` is not empty, and when nobody was parked. -/
theorem Covered.signal (h : Covered parked pending n f) {W : Finset ι} {i : ι} {l : L}
    (hW : ∀ j ∈ W, pending (f j) = false ∧ parked (g j) = false ∧ pending (g j) = true)
    (hsame : ∀ j, j ∉ W → g j = f j) (hl : parked l = false)
    (hne : (∃ j, parked (f j) = true) → W.Nonempty) :
    Covered parked pending n (Function.update g i l) := by
  intro hpos
  have hp := count_update parked g i l
  have hq := count_update pending g i l
  have hg : 0 < count parked g := by simp only [hl, Bool.toNat_false] at hp; omega
  obtain ⟨j, hj⟩ := count_pos.mp hg
  have hjW : j ∉ W := fun hj' => by simp [(hW j hj').2.1] at hj
  have hcard : 0 < W.card := (hne ⟨j, by rw [← hsame j hjW]; exact hj⟩).card_pos
  have hunpark := h.unpark hW hsame hg
  have hi : (pending (g i)).toNat ≤ 1 := Bool.toNat_le _
  omega

end Ledger
