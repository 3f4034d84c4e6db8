import CppPthread.Basic.CInt
import CppPthread.ConditionVariable.Deadline

set_option autoImplicit false

/-! # The deadline in machine integers

`deadline` computes over the integers. The code computes over `int`, `long` and `time_t`
(`millisecondsIn`), where `seconds` and `(millis % 1000) * 1000000` are of type `int` and `nanos`
is a `long`. Neither of them overflows, for any `int` and in types of any size that C++ allows,
so that `deadline` is what the code stores (`millisecondsIn_eq`).
-/

namespace CppPthread

open Posix CInt

/-- `condition_variable::milliseconds`, operation by operation. A `long` has `long` bits, a
`time_t` has `time`. -/
def millisecondsIn (long time : Nat) (now : Timeval) (millis : Int) : Option Timespec := do
  let seconds ← signed 32 (millis.tdiv 1000)
  let usecs ← signed long (now.tvUsec * 1000)
  let rest ← signed 32 (millis.tmod 1000)
  let rest ← signed 32 (rest * 1000000)
  let nanos ← signed long (usecs + rest)
  let carry ← signed long (nanos.tdiv 1000000000)
  let sum ← signed long (seconds + carry)
  -- `+=` converts the sum back to `int`
  let seconds ← signed 32 sum
  let nanos ← signed long (nanos.tmod 1000000000)
  let tvSec ← signed time (now.tvSec + seconds)
  return ⟨tvSec, nanos⟩

/-- What a division that truncates leaves. -/
theorem tmod_bounds (x : Int) {b : Int} (hb : 0 < b) :
    -b < x.tmod b ∧ x.tmod b < b ∧ b * x.tdiv b + x.tmod b = x :=
  ⟨Int.lt_tmod_of_pos x hb, Int.tmod_lt_of_pos x hb, Int.mul_tdiv_add_tmod x b⟩

/-- The bounds of the two sums, for every `int`. -/
theorem deadline_bounds (now : Timeval) {millis : Int} (hm : Fits 32 millis) :
    (-2147484 ≤ millis.tdiv 1000 ∧ millis.tdiv 1000 ≤ 2147484) ∧
    (-999000000 ≤ now.tvUsec * 1000 + millis.tmod 1000 * 1000000 ∧
      now.tvUsec * 1000 + millis.tmod 1000 * 1000000 < 1999000000) := by
  obtain ⟨hlow, hhigh⟩ := fits_32.mp hm
  obtain ⟨hr1, hr2, hq⟩ := tmod_bounds millis (b := 1000) (by decide)
  have hu1 := now.usec_nonneg
  have hu2 := now.usec_lt
  omega

/-- **No operation overflows**, and the code stores `deadline`. -/
theorem millisecondsIn_eq {long time : Nat} (hlong : 32 ≤ long) {now : Timeval} {millis : Int}
    (hm : Fits 32 millis) (h0 : 0 ≤ now.tvSec) (ht : Fits time (now.tvSec + 2 ^ 22)) :
    millisecondsIn long time now millis = some (deadline now millis) := by
  obtain ⟨⟨hq1, hq2⟩, hn1, hn2⟩ := deadline_bounds now hm
  obtain ⟨hr1, hr2, -⟩ := tmod_bounds millis (b := 1000) (by decide)
  obtain ⟨hc1, hc2, hc⟩ :=
    tmod_bounds (now.tvUsec * 1000 + millis.tmod 1000 * 1000000) (b := 1000000000) (by decide)
  have hu1 := now.usec_nonneg
  have hu2 := now.usec_lt
  -- What an `int` holds, a `long` holds.
  have hint : ∀ {x : Int}, -2147483648 ≤ x → x < 2147483648 → Fits 32 x ∧ Fits long x :=
    fun h1 h2 => ⟨fits_32.mpr ⟨h1, h2⟩, (fits_32.mpr ⟨h1, h2⟩).mono hlong⟩
  have hseconds := hint (x := millis.tdiv 1000) (by omega) (by omega)
  have husecs := hint (x := now.tvUsec * 1000) (by omega) (by omega)
  have hmod := hint (x := millis.tmod 1000) (by omega) (by omega)
  have hrest := hint (x := millis.tmod 1000 * 1000000) (by omega) (by omega)
  have hnanos := hint (x := now.tvUsec * 1000 + millis.tmod 1000 * 1000000) (by omega) (by omega)
  have hcarry := hint
    (x := (now.tvUsec * 1000 + millis.tmod 1000 * 1000000).tdiv 1000000000) (by omega) (by omega)
  have hsum := hint (x := millis.tdiv 1000
    + (now.tvUsec * 1000 + millis.tmod 1000 * 1000000).tdiv 1000000000) (by omega) (by omega)
  have hnsec := hint
    (x := (now.tvUsec * 1000 + millis.tmod 1000 * 1000000).tmod 1000000000) (by omega) (by omega)
  have hsec : Fits time (now.tvSec + (millis.tdiv 1000
      + (now.tvUsec * 1000 + millis.tmod 1000 * 1000000).tdiv 1000000000)) := by
    rw [show (2 : Int) ^ 22 = 4194304 by norm_num] at ht
    exact (ht.neg (by omega)).between ht (by omega) (by omega)
  simp only [millisecondsIn, Option.bind_eq_bind, Option.bind_some, Option.pure_def,
    signed_of_fits hseconds.1, signed_of_fits husecs.2, signed_of_fits hmod.1,
    signed_of_fits hrest.1, signed_of_fits hnanos.2, signed_of_fits hcarry.2,
    signed_of_fits hsum.1, signed_of_fits hsum.2, signed_of_fits hnsec.2, signed_of_fits hsec,
    deadline]

/-- A remainder has the sign of the dividend. -/
theorem tmod_nonpos {x b : Int} (hx : x ≤ 0) : x.tmod b ≤ 0 := by
  have hneg := Int.tmod_nonneg b (Int.neg_nonneg_of_nonpos hx)
  rw [Int.neg_tmod] at hneg
  omega

/-- **When the nanoseconds are in range**: a negative delay is taken from the microseconds of the
clock, which may be too few. -/
theorem deadline_valid_iff (now : Timeval) (millis : Int) :
    (deadline now millis).valid ↔ 0 ≤ now.tvUsec + millis.tmod 1000 * 1000 := by
  obtain ⟨hr1, hr2, -⟩ := tmod_bounds millis (b := 1000) (by decide)
  obtain ⟨hn1, hn2, hn⟩ :=
    tmod_bounds (now.tvUsec * 1000 + millis.tmod 1000 * 1000000) (b := 1000000000) (by decide)
  have hu := now.usec_nonneg
  constructor
  · intro hvalid
    by_contra hneg
    have hnonpos : (now.tvUsec * 1000 + millis.tmod 1000 * 1000000).tmod 1000000000 ≤ 0 :=
      tmod_nonpos (by omega)
    have hnonneg := hvalid.1
    simp only [deadline] at hnonneg
    omega
  · intro hnonneg
    exact ⟨Int.tmod_nonneg _ (by omega), hn2⟩

/-- **The deadline is exact and normalised**: at a clock reading that leaves room for the largest
delay, `milliseconds` runs without an overflow, whatever the sizes of `long` and `time_t` are; it
stores the clock plus the delay, with nanoseconds below one second; and a larger delay at the same
reading gives no earlier deadline. -/
theorem deadline_exact {long time : Nat} (hlong : 32 ≤ long) {now : Timeval} {millis : Int}
    (hm : Fits 32 millis) (hpos : 0 ≤ millis) (h0 : 0 ≤ now.tvSec)
    (ht : Fits time (now.tvSec + 2 ^ 22)) :
    ∃ timeout, millisecondsIn long time now millis = some timeout ∧
      timeout.tvSec * 10 ^ 9 + timeout.tvNsec
        = now.tvSec * 10 ^ 9 + now.tvUsec * 1000 + millis * 10 ^ 6 ∧
      0 ≤ timeout.tvNsec ∧ timeout.tvNsec < 10 ^ 9 ∧
      ∀ millis' timeout', Fits 32 millis' → millis ≤ millis' →
        millisecondsIn long time now millis' = some timeout' → timeout.nanos ≤ timeout'.nanos := by
  have hvalid := deadline_valid now hpos
  refine ⟨deadline now millis, millisecondsIn_eq hlong hm h0 ht, ?_, hvalid.1, hvalid.2, ?_⟩
  · have hnanos := deadline_nanos now millis
    simp only [Timespec.nanos, Timeval.nanos] at hnanos
    omega
  · intro millis' timeout' hm' hle h
    rw [millisecondsIn_eq hlong hm' h0 ht] at h
    obtain rfl := Option.some.inj h
    rw [deadline_nanos, deadline_nanos]
    omega

/-- The largest delay at the latest reading, in a `long` and a `time_t` of 32 bits. -/
def lastReading : Timeval := ⟨2143289343, 999999, by decide, by decide⟩

theorem deadline_exact_lastReading :
    millisecondsIn 32 32 lastReading 2147483647 = some ⟨2145436827, 646999000⟩ ∧
      ∃ timeout, millisecondsIn 32 32 lastReading 2147483647 = some timeout ∧
        timeout.tvSec * 10 ^ 9 + timeout.tvNsec
          = lastReading.tvSec * 10 ^ 9 + lastReading.tvUsec * 1000 + 2147483647 * 10 ^ 6 := by
  refine ⟨by decide, ?_⟩
  obtain ⟨timeout, h, hexact, -⟩ := @deadline_exact 32 32 le_rfl lastReading 2147483647
    (by decide) (by decide) (by decide) (by decide)
  exact ⟨timeout, h, hexact⟩

end CppPthread
