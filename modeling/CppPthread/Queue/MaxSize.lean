import CppPthread.Queue.Wakeup

set_option autoImplicit false

/-! # The size that is in force

A size goes into the `int` member `_max_size` and comes out again as a `size_t`, in `max_size()`
and in the comparison of `put`. The test of `set_max_size` that is to reject bad sizes compares an
unsigned value with `0`, so that every size is accepted, and the constructor tests nothing. What
is in force afterwards is the size that was given only if it survives the way there and back
(`truncate_signExtend_eq_iff`): below `2 ^ 31`, and again above the middle of the last block of
`2 ^ 32` numbers, where the sign extension restores what the truncation drops.
-/

namespace CppPthread

open Posix Run

namespace SyncQueue

variable {Tid T : Type}

/-- From `size_t` to `int` and back. -/
theorem truncate_signExtend_eq_iff {n : BitVec 64} :
    (n.truncate 32).signExtend 64 = n ↔ n.toNat < 2 ^ 31 ∨ 2 ^ 64 - 2 ^ 31 ≤ n.toNat := by
  have hlt := n.isLt
  rw [← BitVec.toNat_inj, BitVec.toNat_signExtend, BitVec.msb_eq_decide]
  simp only [BitVec.truncate_eq_setWidth, BitVec.toNat_setWidth]
  split_ifs with hmsb <;> simp at hmsb <;> omega

/-- `max_size()` returns `n`, and `put` admits an item iff there are fewer than `n`, however many
there are. -/
def InForce (q : SyncQueue Tid T) (n : BitVec 64) : Prop :=
  q.maxSize = n ∧ ∀ (items : List T) (op : Op T), op.waitsOn = .notFull →
    (ready { q with items := items } op = true ↔ items.length < n.toNat)

/-- Both conversions to `size_t` are the same. -/
theorem inForce_iff {q : SyncQueue Tid T} {n : BitVec 64} : q.InForce n ↔ q.maxSize = n := by
  constructor
  · exact And.left
  · rintro rfl
    refine ⟨rfl, fun items op hop => ?_⟩
    cases op with
    | get => cases hop
    | getFor waitTime => cases hop
    | put item => exact decide_eq_true_iff
    | putFor item waitTime => exact decide_eq_true_iff

variable [DecidableEq Tid] [Fintype Tid]

/-- Until the next `set_max_size`, whatever the threads do, `n` is in force. -/
def StaysInForce (q : SyncQueue Tid T) (n : BitVec 64) : Prop :=
  ∀ es q', (∀ k, .setMaxSize k ∉ es) → run step q es = some q' → q'.InForce n

theorem staysInForce_iff {q : SyncQueue Tid T} {n : BitVec 64} :
    q.StaysInForce n ↔ q.maxSize = n := by
  constructor
  · intro h
    exact (h [] q (by simp) rfl).1
  · intro h es q' hset hrun
    rw [inForce_iff, maxSize, run_maxSizeInt hset hrun]
    exact h

/-- `set_max_size(n)` throws, or `n` is in force from then on. -/
def SetsSize (q : SyncQueue Tid T) (n : BitVec 64) : Prop :=
  (∃ message, q.setMaxSize n = .error (.queueException message)) ∨
    ∃ q', q.setMaxSize n = .ok q' ∧ q'.StaysInForce n

variable (Tid T) in
/-- `sync_queue(m)` is only possible for an `m` that is not negative, and then it is in force. -/
def ConstructsSize (m : BitVec 32) (now : Timeval) (timeout : QueueCv → Timespec) : Prop :=
  0 ≤ m.toInt ∧
    (construct m now timeout : SyncQueue Tid T).StaysInForce (BitVec.ofInt 64 m.toInt)

/-- **When an accepted size is the size in force.** For `set_max_size`, when the size is below
`2 ^ 31` or at least `2 ^ 64 - 2 ^ 31`; for the constructor, when it is not negative. -/
theorem size_in_force_iff :
    (∀ (q : SyncQueue Tid T) (n : BitVec 64),
      q.SetsSize n ↔ n.toNat < 2 ^ 31 ∨ 2 ^ 64 - 2 ^ 31 ≤ n.toNat) ∧
    ∀ (m : BitVec 32) (now : Timeval) (timeout : QueueCv → Timespec),
      ConstructsSize Tid T m now timeout ↔ 0 ≤ m.toInt := by
  constructor
  · intro q n
    rw [← truncate_signExtend_eq_iff, SetsSize, setMaxSize_eq]
    constructor
    · rintro (⟨message, h⟩ | ⟨q', h, hforce⟩)
      · cases h
      · obtain rfl := Except.ok.inj h
        exact staysInForce_iff.mp hforce
    · exact fun h => .inr ⟨_, rfl, staysInForce_iff.mpr h⟩
  · intro m now timeout
    constructor
    · exact And.left
    · exact fun h => ⟨h, staysInForce_iff.mpr rfl⟩

/-- `set_max_size` accepts `2 ^ 32` and leaves a queue that admits nothing, and `-1` constructs one
that admits everything. -/
theorem size_not_in_force :
    ¬ (construct 4 Timeval.zero fun _ => ⟨0, 0⟩ : SyncQueue Worker Nat).SetsSize 4294967296 ∧
      ¬ ConstructsSize Worker Nat (-1) Timeval.zero (fun _ => ⟨0, 0⟩) ∧
      ((construct 4 Timeval.zero fun _ => ⟨0, 0⟩ : SyncQueue Worker Nat).setMaxSize
        4294967296).toOption.map maxSize = some 0 ∧
      (construct (-1) Timeval.zero fun _ => ⟨0, 0⟩ : SyncQueue Worker Nat).capacity
        = 18446744073709551615 := by
  refine ⟨?_, fun h => absurd h.1 (by decide), by decide, by decide⟩
  rintro (⟨message, h⟩ | ⟨q', h, hforce⟩)
  · rw [setMaxSize_eq] at h
    cases h
  · rw [setMaxSize_eq] at h
    obtain rfl := Except.ok.inj h
    exact absurd (staysInForce_iff.mp hforce) (by decide)

end SyncQueue

end CppPthread
