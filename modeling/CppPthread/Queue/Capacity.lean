import CppPthread.Queue.Wakeup

set_option autoImplicit false

/-! # The queue never outgrows its capacity

A `put` tests the size and appends its item in two steps, and `set_max_size` may change the
capacity in between. Still the size is bounded: by the largest capacity that has been in force
(`run_bounded`), because the size that the test has seen was below the capacity of that
moment, and nobody else changes the items before the item is appended.

While the capacity stays the same a producer that is admitted has seen a size below it
(`AdmittedBelow`), so the size does not grow at or above the capacity.
-/

namespace CppPthread

open Posix Run

namespace SyncQueue

variable {Tid T : Type} [DecidableEq Tid] [Fintype Tid]

/-! ## Producers between their test and their `push_back` -/

/-- The wait of a `put` has ended and its item is not stored yet. -/
def admitted : Frame QueueCv (Code QueueCv (Local T)) → Bool
  | .running (.returned (.ok true) k) => k.op.item?.isSome
  | _ => false

/-- The producers that are admitted find less than `b` items. -/
def AdmittedBelow (b : Nat) (q : SyncQueue Tid T) : Prop :=
  ∀ t, admitted (q.frame t) = true → q.items.length < b

/-- A producer is admitted by its test, below the capacity, and then nobody else changes the
items. -/
theorem step_admittedBelow {q q' : SyncQueue Tid T} {e : Event Tid T} {b : Nat} (hq : q.Ok)
    (hcap : q.capacity ≤ b) (hb : q.AdmittedBelow b) (h : step q e = some q') :
    q'.AdmittedBelow b := by
  intro t ht
  by_cases he : e.thread = some t
  · cases step_trans hq h with
    | @testTrue u w k status ht' hp hr =>
        cases he
        have hput : k.op.item?.isSome = true := by simpa [admitted] using ht
        have hlt : q.items.length < q.capacity := by
          cases hop : k.op <;> simp [hop, Op.item?] at hput <;> simpa [hop, ready] using hr
        exact Nat.lt_of_lt_of_le hlt hcap
    | setMaxSize => exact hb t ht
    | tick => exact hb t ht
    | _ =>
        cases he
        simp [admitted] at ht
  · have hrun : (q'.frame t).isRunning = true := by
      cases hf : q'.frame t with
      | running c => rfl
      | _ => simp [hf, admitted] at ht
    obtain ⟨hf, hitems⟩ := step_running_same hq h he hrun
    rw [hitems]
    exact hb t (hf ▸ ht)

/-- A step makes the list longer only if an admitted producer appends its item. -/
theorem step_length {q q' : SyncQueue Tid T} {e : Event Tid T} (hq : q.Ok)
    (h : step q e = some q') : q'.items.length ≤ q.items.length ∨
      q'.items.length = q.items.length + 1 ∧ ∃ t, admitted (q.frame t) = true := by
  cases step_trans hq h with
  | pop ht hx => exact .inl (by simp [hx])
  | @push t op pc x ht hop => exact .inr ⟨by simp, t, by simp [ht, admitted, hop]⟩
  | _ => exact .inl (Nat.le_refl _)

theorem step_length_le {q q' : SyncQueue Tid T} {e : Event Tid T} {b : Nat} (hq : q.Ok)
    (hb : q.AdmittedBelow b) (hlen : q.items.length ≤ b) (h : step q e = some q') :
    q'.items.length ≤ b := by
  rcases step_length hq h with hle | ⟨heq, t, ht⟩
  · exact Nat.le_trans hle hlen
  · -- an admitted producer has found less than `b` items
    have hlt := hb t ht
    omega

/-! ## The largest capacity that has been in force -/

/-- The largest of `c` and the capacities that the events set. -/
def largest (c : Nat) (es : List (Event Tid T)) : Nat :=
  es.foldl (fun c e => match e with
    | .setMaxSize n => max c n.toNat
    | _ => c) c

omit [DecidableEq Tid] [Fintype Tid] in
theorem le_largest_snoc (c : Nat) (es : List (Event Tid T)) (e : Event Tid T) :
    largest c es ≤ largest c (es ++ [e]) := by
  simp only [largest, List.foldl_append, List.foldl_cons, List.foldl_nil]
  cases e <;> simp

omit [DecidableEq Tid] [Fintype Tid] in
theorem le_largest_setMaxSize (c : Nat) (es : List (Event Tid T)) (n : BitVec 64) :
    n.toNat ≤ largest c (es ++ [.setMaxSize n]) := by
  simp [largest, List.foldl_append]

/-- What holds of a queue after the events `es`. -/
structure Bounded (b : Nat) (q : SyncQueue Tid T) : Prop where
  capacity_le : q.capacity ≤ b
  length_le : q.items.length ≤ b
  admitted_lt : q.AdmittedBelow b

/-- **The step lemma.** -/
theorem step_bounded {q q' : SyncQueue Tid T} {e : Event Tid T} {b b' : Nat} (hq : q.Ok)
    (hb : Bounded b q) (hle : b ≤ b')
    (hset : ∀ n, e = .setMaxSize n → n.toNat < 2 ^ 31 ∧ n.toNat ≤ b')
    (h : step q e = some q') : Bounded b' q' where
  capacity_le := by
    by_cases he : ∀ n, e ≠ .setMaxSize n
    · rw [capacity_congr (step_maxSizeInt he h)]
      exact Nat.le_trans hb.capacity_le hle
    · push Not at he
      obtain ⟨n, rfl⟩ := he
      obtain ⟨hn, hnb⟩ := hset n rfl
      cases step_trans hq h
      rw [capacity_of_truncate hn rfl]
      exact hnb
  length_le := Nat.le_trans (step_length_le hq hb.admitted_lt hb.length_le h) hle
  admitted_lt := step_admittedBelow hq (Nat.le_trans hb.capacity_le hle)
    (fun t ht => Nat.lt_of_lt_of_le (hb.admitted_lt t ht) hle) h

theorem run_bounded {m : BitVec 32} (hm : 0 ≤ m.toInt) {now : Timeval}
    {timeout : QueueCv → Timespec} {es : List (Event Tid T)} {q : SyncQueue Tid T}
    (hset : ∀ n, .setMaxSize n ∈ es → n.toNat < 2 ^ 31)
    (h : run step (construct m now timeout) es = some q) :
    Bounded (largest m.toInt.toNat es) q := by
  have hok : (construct m now timeout : SyncQueue Tid T).Ok := ok_construct m now timeout
  refine run_history (P := fun es q => (∀ n, .setMaxSize n ∈ es → n.toNat < 2 ^ 31) →
    Bounded (largest m.toInt.toNat es) q) ?_ ?_ h hset
  · intro _
    have hcap := capacity_of_nonneg (q := (construct m now timeout : SyncQueue Tid T)) hm
    refine ⟨?_, Nat.zero_le _, fun t ht => by cases ht⟩
    show _ ≤ m.toInt.toNat
    have hmax : (construct m now timeout : SyncQueue Tid T).maxSizeInt = m := rfl
    rw [hmax] at hcap
    omega
  · intro es q e q' hrun ih hs hset
    have hb := ih fun n hn => hset n (List.mem_append_left _ hn)
    refine step_bounded (run_ok hok hrun) hb (le_largest_snoc _ es e) ?_ hs
    rintro n rfl
    exact ⟨hset n (by simp), le_largest_setMaxSize _ es n⟩

/-! ## Stretches without `set_max_size` -/

/-- **The size does not grow at or above the capacity**, while the capacity stays the same and
no producer was already admitted at the beginning. -/
theorem stretch_length_le {q q₁ q₂ : SyncQueue Tid T} {es : List (Event Tid T)}
    {e : Event Tid T} (hq : q.Ok) (hadm : ∀ t, admitted (q.frame t) = false)
    (hset : ∀ n, .setMaxSize n ∉ es) (h : run step q es = some q₁) (he : step q₁ e = some q₂)
    (hfull : q₁.capacity ≤ q₁.items.length) : q₂.items.length ≤ q₁.items.length := by
  -- Whoever is admitted during the stretch has found less items than the capacity.
  have hinv := run_invariant (I := fun q' : SyncQueue Tid T => q'.Ok ∧
    q'.maxSizeInt = q.maxSizeInt ∧ q'.AdmittedBelow q.capacity) (fun q' e q'' hi hne hs => by
      obtain ⟨hok, hmax, hb⟩ := hi
      exact ⟨step_ok hok hs, (step_maxSizeInt hne hs).trans hmax,
        step_admittedBelow hok (capacity_congr hmax).le hb hs⟩)
    ⟨hq, rfl, fun t ht => by rw [hadm t] at ht; cases ht⟩ (along_not_setMaxSize hset q) h
  obtain ⟨hok, hmax, hb⟩ := hinv
  rw [capacity_congr hmax] at hfull
  exact step_length_le hok (fun t ht => Nat.lt_of_lt_of_le (hb t ht) hfull) (Nat.le_refl _) he

/-- **The queue never outgrows its capacity.** -/
theorem never_outgrows_capacity {m : BitVec 32} (hm : 0 ≤ m.toInt) {now : Timeval}
    {timeout : QueueCv → Timespec} {es : List (Event Tid T)} {q : SyncQueue Tid T}
    (hset : ∀ n, .setMaxSize n ∈ es → n.toNat < 2 ^ 31)
    (h : run step (construct m now timeout) es = some q) :
    q.items.length ≤ largest m.toInt.toNat es ∧
    (∀ es₁ es₂ e es₃ q₁ q₂ q₃, es = es₁ ++ (es₂ ++ e :: es₃) →
      run step (construct m now timeout) es₁ = some q₁ → (∀ t, admitted (q₁.frame t) = false) →
      run step q₁ es₂ = some q₂ → step q₂ e = some q₃ → (∀ n, .setMaxSize n ∉ es₂ ++ [e]) →
      q₂.capacity ≤ q₂.items.length → q₃.items.length ≤ q₂.items.length) := by
  refine ⟨(run_bounded hm hset h).length_le, ?_⟩
  intro es₁ es₂ e es₃ q₁ q₂ q₃ _ h₁ hadm h₂ he hset₂ hfull
  exact stretch_length_le (run_ok (ok_construct m now timeout) h₁) hadm
    (fun n hn => hset₂ n (List.mem_append_left _ hn)) h₂ he hfull

/-- The capacity is lowered while a producer is between its test and its `push_back`. -/
def loweredTooLate : List (Event Worker Nat) :=
  [.call .a (.put 7), .lock .a, .start .a, .test .a, .setMaxSize 0, .push .a true]

theorem loweredTooLate_runs :
    (run step (construct 1 Timeval.zero fun _ => ⟨0, 0⟩) loweredTooLate).isSome = true := by decide

theorem never_outgrows_capacity_lowered :
    ∃ q, run step (construct 1 Timeval.zero fun _ => ⟨0, 0⟩) loweredTooLate = some q ∧
      q.capacity = 0 ∧ q.items.length = 1 ∧ q.items.length ≤ largest 1 loweredTooLate := by
  refine ⟨_, (Option.some_get loweredTooLate_runs).symm, by decide, by decide, ?_⟩
  exact (never_outgrows_capacity (by decide) (by simp [loweredTooLate])
    (Option.some_get loweredTooLate_runs).symm).1

end SyncQueue

end CppPthread
