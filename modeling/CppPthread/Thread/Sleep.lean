import CppPthread.Basic.CInt
import CppPthread.Exceptions

set_option autoImplicit false

/-! # `this_thread::sleep_for`

The delay goes to `usleep` below one second and to `sleep` from there on. Both take an unsigned
argument of 32 bits, and the second one takes seconds: what the delay has beyond the last full
second is dropped, and a negative delay, for which the function has an exception, is handed to
`usleep` as a large one. So the time asked for is the one given exactly when it is less than a
second or a whole number of seconds (`asksForGiven_iff`).
-/

namespace CppPthread

open CInt

/-- A call of the system, with its argument before the conversion to `unsigned`. -/
inductive SleepCall where
  | usleep (micros : Int)
  | sleep (seconds : Int)
  deriving DecidableEq

namespace SleepCall

def argument : SleepCall → Int
  | usleep micros => micros
  | sleep seconds => seconds

/-- The argument that the system gets. -/
def received (c : SleepCall) : Nat := toUnsigned 32 c.argument

/-- The microseconds that the call asks for. -/
def micros : SleepCall → Nat
  | usleep n => (usleep n).received
  | sleep n => (sleep n).received * 1000000

end SleepCall

namespace ThisThread

/-- `sleep_for`: the calls it makes and the exception it ends with, if it throws. `rc` and `errno`
are those of the call; `none` stands for an overflow. -/
def sleepFor (rc errno millis : Int) : Option (List SleepCall × Option PthreadException) :=
  if millis < 1000 then
    (signed 32 (millis * 1000)).map fun micros =>
      ([.usleep micros], if rc ≠ 0 then
        some ⟨.pthreadException, "in sleep_for, call to usleep failed. ", errno⟩ else none)
  else if 1000 ≤ millis then
    (signed 32 (millis.tdiv 1000)).map fun seconds =>
      ([.sleep seconds], if rc ≠ 0 then
        some ⟨.pthreadException, "in sleep_for, call to sleep failed. ", errno⟩ else none)
  else
    some ([], some ⟨.pthreadException,
      "sleep_for received an unexpected duration value (" ++ toString millis ++ ")", 0⟩)

/-- The microseconds asked for, when the calls succeed. -/
def requested (millis : Int) : Nat :=
  (sleepFor 0 0 millis).elim 0 fun r => (r.1.map SleepCall.micros).sum

theorem sleepFor_micros {millis : Int} (h : Fits 32 (millis * 1000)) (hlt : millis < 1000)
    (errno : Int) : sleepFor 0 errno millis = some ([.usleep (millis * 1000)], none) := by
  simp [sleepFor, hlt, signed_of_fits h]

theorem sleepFor_seconds {millis : Int} (h : Fits 32 millis) (hge : 1000 ≤ millis) (errno : Int) :
    sleepFor 0 errno millis = some ([.sleep (millis / 1000)], none) := by
  have hdiv : Fits 32 (millis / 1000) := by
    rw [fits_32] at h ⊢
    omega
  have htdiv : millis.tdiv 1000 = millis / 1000 := Int.tdiv_eq_ediv_of_nonneg (by omega)
  simp [sleepFor, not_lt.mpr hge, hge, htdiv, signed_of_fits hdiv]

/-- What `sleep_for` is for: it asks for the delay it is given, throws for a negative one, and
computes nothing that the types cannot hold. -/
structure AsksForGiven (millis : Int) : Prop where
  asks : 0 ≤ millis → ∀ errno, ∃ calls, sleepFor 0 errno millis = some (calls, none) ∧
    ((calls.map SleepCall.micros).sum : Int) = millis * 1000
  throws : millis < 0 → ∀ rc errno, ∃ e, sleepFor rc errno millis = some ([], some e) ∧
    e.cls = .pthreadException
  exact : ∀ rc errno, ∃ r, sleepFor rc errno millis = some r ∧
    ∀ c ∈ r.1, (c.received : Int) = c.argument

/-- A negative delay is not refused. -/
theorem sleepFor_neg {millis : Int} (h : millis < 0) (rc errno : Int)
    (e : Option PthreadException) : sleepFor rc errno millis ≠ some ([], e) := by
  intro hs
  rw [sleepFor, if_pos (by omega)] at hs
  obtain ⟨micros, -, hr⟩ := Option.map_eq_some_iff.mp hs
  cases congrArg Prod.fst hr

/-- Up to the signs, the arguments are in range. -/
theorem sleepFor_exact {millis : Int} (hm : Fits 32 millis) (h0 : 0 ≤ millis) (rc errno : Int) :
    ∃ r, sleepFor rc errno millis = some r ∧ ∀ c ∈ r.1, (c.received : Int) = c.argument := by
  have hhigh := (fits_32.mp hm).2
  unfold sleepFor
  by_cases hlt : millis < 1000
  · rw [if_pos hlt, signed_of_fits (fits_32.mpr (by omega))]
    refine ⟨_, rfl, List.forall_mem_singleton.mpr ?_⟩
    exact toUnsigned_of_lt (by simp only [SleepCall.argument]; omega)
      (by simp only [SleepCall.argument]; omega)
  · have hdiv : millis.tdiv 1000 = millis / 1000 := Int.tdiv_eq_ediv_of_nonneg h0
    rw [if_neg hlt, if_pos (by omega), hdiv, signed_of_fits (fits_32.mpr (by omega))]
    refine ⟨_, rfl, List.forall_mem_singleton.mpr ?_⟩
    exact toUnsigned_of_lt (by simp only [SleepCall.argument]; omega)
      (by simp only [SleepCall.argument]; omega)

/-- The time asked for, in microseconds. -/
theorem requested_eq {millis : Int} (hm : Fits 32 millis) (h0 : 0 ≤ millis) :
    (requested millis : Int)
      = if millis < 1000 then millis * 1000 else millis / 1000 * 1000000 := by
  have hhigh := (fits_32.mp hm).2
  have hreceived : ∀ {x : Int}, 0 ≤ x → x < 2 ^ 32 → (toUnsigned 32 x : Int) = x :=
    fun h h' => toUnsigned_of_lt h h'
  by_cases hlt : millis < 1000
  · rw [requested, sleepFor_micros (fits_32.mpr (by omega)) hlt, if_pos hlt]
    simpa [SleepCall.micros, SleepCall.received, SleepCall.argument] using
      hreceived (x := millis * 1000) (by omega) (by omega)
  · rw [requested, sleepFor_seconds hm (by omega), if_neg hlt]
    simpa [SleepCall.micros, SleepCall.received, SleepCall.argument] using
      hreceived (x := millis / 1000) (by omega) (by omega)

theorem asksForGiven_iff {millis : Int} (hm : Fits 32 millis) :
    AsksForGiven millis ↔ 0 ≤ millis ∧ (millis < 1000 ∨ 1000 ∣ millis) := by
  constructor
  · intro hgiven
    by_cases hneg : millis < 0
    · obtain ⟨e, he, -⟩ := hgiven.throws hneg 0 0
      exact absurd he (sleepFor_neg hneg 0 0 _)
    · obtain ⟨calls, hcalls, hsum⟩ := hgiven.asks (by omega) 0
      have hreq := requested_eq hm (by omega)
      rw [requested, hcalls, Option.elim_some, hsum] at hreq
      split_ifs at hreq <;> omega
  · rintro ⟨h0, hfull⟩
    refine ⟨fun _ errno => ?_, fun hneg => absurd h0 (by omega), sleepFor_exact hm h0⟩
    have hreq := requested_eq hm h0
    by_cases hlt : millis < 1000
    · have hfits : Fits 32 (millis * 1000) := fits_32.mpr (by omega)
      rw [requested, sleepFor_micros hfits hlt, if_pos hlt] at hreq
      exact ⟨_, sleepFor_micros hfits hlt errno, hreq⟩
    · rw [requested, sleepFor_seconds hm (by omega), if_neg hlt] at hreq
      refine ⟨_, sleepFor_seconds hm (by omega) errno, hreq.trans ?_⟩
      omega

/-- **When `sleep_for` asks for the time it is given.** For an `int`, it does what it is for iff
the delay is not negative and is below one second or a whole number of seconds. A shorter delay
never asks for a longer time, and among such delays only equal ones ask for the same time. -/
theorem sleep_for_asks {millis : Int} (hm : Fits 32 millis) :
    (AsksForGiven millis ↔ 0 ≤ millis ∧ (millis < 1000 ∨ 1000 ∣ millis)) ∧
    ∀ shorter, 0 ≤ shorter → shorter ≤ millis → requested shorter ≤ requested millis ∧
      ((shorter < 1000 ∨ 1000 ∣ shorter) → (millis < 1000 ∨ 1000 ∣ millis) →
        requested shorter = requested millis → shorter = millis) := by
  refine ⟨asksForGiven_iff hm, fun shorter h0 hle => ?_⟩
  have hshorter : Fits 32 shorter := fits_32.mpr (by rw [fits_32] at hm; omega)
  have hreq := requested_eq hshorter h0
  have hreq' := requested_eq hm (by omega)
  split_ifs at hreq hreq' <;> omega

theorem sleep_for_asks_seconds :
    AsksForGiven 2000 ∧ ¬ AsksForGiven 1500 ∧ ¬ AsksForGiven (-1) ∧
      requested 1500 ≤ requested 2000 :=
  ⟨(sleep_for_asks (by decide)).1.mpr (by decide),
    fun h => absurd ((sleep_for_asks (by decide)).1.mp h) (by decide),
    fun h => absurd ((sleep_for_asks (by decide)).1.mp h) (by decide),
    ((sleep_for_asks (by decide)).2 1500 (by decide) (by decide)).1⟩

/-- A second and a half is slept as one second, and `-1` as more than an hour. -/
theorem sleep_for_drops :
    ¬ (∀ millis, Fits 32 millis → AsksForGiven millis) ∧
      sleepFor 0 0 1500 = some ([.sleep 1], none) ∧
      (sleepFor 0 0 (-1)).map (fun r => r.1.map SleepCall.received) = some [4294966296] ∧
      sleepFor 0 0 (-2147484) = none := by
  refine ⟨fun hall => ?_, by decide, by decide, by decide⟩
  obtain ⟨calls, hcalls, hsum⟩ := (hall 1500 (by decide)).asks (by decide) 0
  obtain rfl : [SleepCall.sleep 1] = calls := congrArg Prod.fst (Option.some.inj hcalls)
  revert hsum
  decide

end ThisThread

end CppPthread
