import CppPthread.ConditionVariable.Deadlines
import CppPthread.Queue.Steps

set_option autoImplicit false

/-! # The waiting times of `get` and `put`

A timed `get` or `put` reports a timeout only when its wait has given up. `Timed` follows a
call from its begin: until the wait has computed its deadline only the clock matters, and then
the thread keeps a deadline that is no earlier than the call plus its waiting time
(`CondVars.ThreadKeeps`). The steps of the queue reach the condition variables as the calls
`SyncQueue.calls`, so the results on their runs apply as they are.
-/

namespace CppPthread

open Posix Run

/-- The waiting time in milliseconds. -/
def Op.waitTime {T : Type} : Op T → Option Int
  | .getFor waitTime | .putFor _ waitTime => some waitTime
  | _ => none

theorem Op.start_of_waitTime {T : Type} {op : Op T} {millis : Int}
    (h : op.waitTime = some millis) :
    Wait.start op.call = ⟨.waitFor op.waitsOn millis, millis, .arm⟩ := by
  cases op <;> simp [waitTime] at h <;> simp [call, waitsOn, Wait.start, h]

namespace SyncQueue

variable {Tid T : Type} [DecidableEq Tid] [Fintype Tid]

/-- The step does not replace the deadline of a wait in progress by a different one. -/
def ArmOk (q : SyncQueue Tid T) (e : Event Tid T) : Prop :=
  ∀ ev ∈ q.calls e, CondVars.ArmOk q.cvs ev

instance (q : SyncQueue Tid T) (e : Event Tid T) : Decidable (ArmOk q e) :=
  inferInstanceAs (Decidable (∀ ev ∈ q.calls e, _))

/-! ## The calls of a step -/

omit [DecidableEq Tid] [Fintype Tid] in
/-- Only `milliseconds` is called for `Event.arm`, and a wait begins only at `Event.start`. -/
theorem mem_calls {q : SyncQueue Tid T} {e : Event Tid T}
    {ev : CondVars.Event Tid QueueCv (Local T)} (h : ev ∈ q.calls e) :
    (∀ t clockOk, ev = .arm t clockOk → e = .arm t clockOk) ∧
      (∀ t c, ev = .start t c → e = .start t) := by
  cases e <;> simp only [calls, code] at h
  case start t =>
    split at h <;> simp at h
    simp [h]
  case test t =>
    split at h <;> simp at h
    simp [h]
  case copy t ok =>
    split at h
    · split at h <;> simp at h
      simp [h]
    · simp at h
  case pop t =>
    split at h <;> simp at h
    simp [h]
  case push t ok =>
    split at h
    · split at h
      · split at h <;> simp at h <;> simp [h]
      · simp at h
    · simp at h
  case notify t W =>
    split at h <;> simp at h <;> rcases h with rfl | rfl <;> simp
  case leave t =>
    split at h <;> simp at h <;> simp [h]
  all_goals
    simp at h
    try simp [h]

/-- A step makes only calls that replace no deadline, if it does not itself. -/
theorem along_calls {q : SyncQueue Tid T} {e : Event Tid T} (h : q.ArmOk e) :
    Along CondVars.step CondVars.ArmOk q.cvs (q.calls e) := by
  by_cases he : ∃ t clockOk, e = .arm t clockOk
  · obtain ⟨t, clockOk, rfl⟩ := he
    refine ⟨h _ (by simp [calls, code]), ?_⟩
    cases CondVars.step q.cvs (.arm t clockOk) <;> trivial
  · refine (along_of_forall (P := fun ev => ∀ s, CondVars.ArmOk s ev) fun ev hev s => ?_).mono
      fun s ev hs => hs s
    cases ev with
    | arm t clockOk => exact absurd ⟨t, clockOk, (mem_calls hev).1 t clockOk rfl⟩ he
    | _ => exact fun a ha => by cases ha

/-- **The thread keeps its deadline** while the queue takes a step that replaces none. -/
theorem step_threadKeeps {q q' : SyncQueue Tid T} {e : Event Tid T} {cv : QueueCv}
    {d : Timespec} {t : Tid} (hq : q.Ok) (hok : q.ArmOk e) (hne : e ≠ .start t)
    (hk : CondVars.ThreadKeeps cv d t q.cvs) (h : step q e = some q') :
    CondVars.ThreadKeeps cv d t q'.cvs :=
  CondVars.run_keeps hq.frames (along_calls hok) (fun c hc => hne ((mem_calls hc).2 t c rfl)) hk
    (step_simulates h)

theorem step_clock {q q' : SyncQueue Tid T} {e : Event Tid T} (hq : q.Ok)
    (h : step q e = some q') : q.cvs.mon.clock.nanos ≤ q'.cvs.mon.clock.nanos := by
  cases step_trans hq h with
  | tick hn => exact hn
  | _ => exact Int.le_refl _

/-! ## Following a timed call -/

/-- The thread has begun its wait and has not left. -/
def started : Frame QueueCv (Code QueueCv (Local T)) → Bool
  | .running (.client k) => decide (k.pc ≠ .enter)
  | .running _ => true
  | .blocked _ _ _ => true
  | .woken _ _ _ => true
  | _ => false

/-- The thread is in a call of `op` and has not computed its deadline yet. -/
def beforeDeadline (op : Op T) (f : Frame QueueCv (Code QueueCv (Local T))) : Prop :=
  f = .locking (.client ⟨op, .enter⟩) ∨ f = .running (.client ⟨op, .enter⟩) ∨
    f = .running (.waiting (Wait.start op.call) ⟨op, .enter⟩)

theorem step_started {q q' : SyncQueue Tid T} {e : Event Tid T} {t : Tid} (hq : q.Ok)
    (hs : started (q.frame t) = true) (he : e ≠ .leave t) (h : step q e = some q') :
    started (q'.frame t) = true := by
  by_cases ht : e.thread = some t
  · cases step_trans hq h with
    | call hf => cases ht; simp [hf, started] at hs
    | lock hf => cases ht; simp [hf, started] at hs
    | leave => exact absurd (congrArg Event.leave (Option.some.inj ht)) he
    | unwind => exact absurd (congrArg Event.leave (Option.some.inj ht)) he
    | setMaxSize => exact hs
    | tick => exact hs
    | _ => cases ht; simp [started]
  · rcases step_frame_ne hq h ht with hf | hf <;> rw [hf]
    · exact hs
    · cases hf' : q.frame t <;> simp [hf', started] at hs <;> simp [Frame.unblock, started, hs]

/-- The thread keeps a deadline that is no earlier than `bound`. -/
def KeepsDeadline (op : Op T) (bound : Int) (t : Tid) (q : SyncQueue Tid T) : Prop :=
  started (q.frame t) = true ∧
    ∃ d : Timespec, bound ≤ d.nanos ∧ CondVars.ThreadKeeps op.waitsOn d t q.cvs

/-- A thread that has not computed its deadline either goes on to do so, or computes it from the
present clock, or fails. -/
theorem step_beforeDeadline {q q' : SyncQueue Tid T} {e : Event Tid T} {op : Op T}
    {millis begun : Int} {t : Tid} (hop : op.waitTime = some millis) (hq : q.Ok)
    (hf : beforeDeadline op (q.frame t)) (hclock : begun ≤ q.cvs.mon.clock.nanos)
    (ht : e.thread = some t) (h : step q e = some q') :
    beforeDeadline op (q'.frame t) ∨ KeepsDeadline op (begun + millis * 1000000) t q' := by
  have hbound : begun + millis * 1000000 ≤ (deadline q.cvs.mon.clock millis).nanos := by
    rw [deadline_nanos]
    omega
  have hstart := Op.start_of_waitTime hop
  cases step_trans hq h with
  | @lock u op' hu =>
      cases ht
      obtain rfl : op' = op := by simpa [beforeDeadline, hu] using hf
      exact .inl (.inr (.inl (by simp)))
  | @start u op' hu =>
      cases ht
      obtain rfl : op' = op := by simpa [beforeDeadline, hu] using hf
      exact .inl (.inr (.inr (by simp)))
  | @arm u w k hu hp =>
      cases ht
      obtain ⟨rfl, rfl⟩ : w = Wait.start op.call ∧ k = ⟨op, .enter⟩ := by
        simpa [beforeDeadline, hu] using hf
      refine .inr ⟨by simp [started], _, hbound, ?_⟩
      have hstep := step_simulates h
      rw [show q.calls (.arm t true) = [.arm t true] from rfl, run_singleton] at hstep
      have hkeep := CondVars.arm_keeps (w := Wait.start op.call) hu (by rw [hstart]; rfl) hstep
      rw [hstart] at hkeep ⊢
      exact hkeep
  | @armFail u w k hu hp =>
      cases ht
      refine .inr ⟨by simp [started], _, hbound, ?_⟩
      show CondVars.Keeps _ _ _ _ (Function.update q.frame t _ t)
      rw [Function.update_self]
      exact fun hr => by cases hr
  | setMaxSize => cases ht
  | tick => cases ht
  | _ =>
      cases ht
      simp_all [beforeDeadline]

/-- A call of `op` with the waiting time `millis` that was made at the time `begun`. -/
def Timed (op : Op T) (millis begun : Int) (t : Tid) (q : SyncQueue Tid T) : Prop :=
  begun ≤ q.cvs.mon.clock.nanos ∧
  (beforeDeadline op (q.frame t) ∨
    KeepsDeadline op (begun + millis * 1000000) t q)

/-- **The step lemma.** -/
theorem step_timed {q q' : SyncQueue Tid T} {e : Event Tid T} {op : Op T} {millis begun : Int}
    {t : Tid} (hop : op.waitTime = some millis) (hq : q.Ok) (hok : q.ArmOk e)
    (he : e ≠ .leave t) (hi : Timed op millis begun t q) (h : step q e = some q') :
    Timed op millis begun t q' := by
  obtain ⟨hclock, hbefore | ⟨hstarted, d, hd, hkeep⟩⟩ := hi
  · refine ⟨hclock.trans (step_clock hq h), ?_⟩
    by_cases ht : e.thread = some t
    · exact step_beforeDeadline hop hq hbefore hclock ht h
    · -- the thread itself does not move
      left
      rcases hbefore with hf | hf | hf
      · rcases step_frame_ne hq h ht with hf' | hf' <;> rw [hf', hf]
        · exact .inl rfl
        · exact .inl rfl
      · exact .inr (.inl ((step_running_ne hq h ht).mpr hf))
      · exact .inr (.inr ((step_running_ne hq h ht).mpr hf))
  · refine ⟨hclock.trans (step_clock hq h), .inr ⟨step_started hq hstarted he h, d, hd, ?_⟩⟩
    refine step_threadKeeps hq hok ?_ hkeep h
    rintro rfl
    cases step_trans hq h with
    | start hf => simp [hf, started] at hstarted

/-- No timed `get` or `put` of the run reports a timeout before its own waiting time has elapsed
since it was called. -/
def NoEarlyTimeout (q₀ : SyncQueue Tid T) (es : List (Event Tid T)) : Prop :=
  ∀ es₁ t op millis es₂ q₁ q, es = es₁ ++ .call t op :: es₂ → op.waitTime = some millis →
    run step q₀ es₁ = some q₁ → run step q₀ es = some q → .leave t ∉ es₂ →
    (∃ k, q.frame t = .running (.returned (.ok false) k)) →
    q₁.cvs.mon.clock.nanos + millis * 1000000 ≤ q.cvs.mon.clock.nanos

theorem noEarlyTimeout {q₀ : SyncQueue Tid T} {es : List (Event Tid T)} (hq : q₀.Ok)
    (hok : Along step ArmOk q₀ es) : NoEarlyTimeout q₀ es := by
  intro es₁ t op millis es₂ q₁ q hes hop h₁ h hleave ht
  subst hes
  obtain ⟨m, hm, hrest⟩ := run_append.mp h
  obtain rfl : q₁ = m := Option.some.inj (h₁.symm.trans hm)
  obtain ⟨q₂, hcall, h₂⟩ := run_cons.mp hrest
  have hq₁ := run_ok hq h₁
  have hok₂ := (along_cons ((along_append h₁).mp hok).2 hcall).2
  have hbegin : Timed op millis q₁.cvs.mon.clock.nanos t q₂ := by
    refine ⟨step_clock hq₁ hcall, .inl (.inl ?_)⟩
    cases step_trans hq₁ hcall
    simp
  have hend : q.Ok ∧ Timed op millis q₁.cvs.mon.clock.nanos t q := by
    refine run_invariant (I := fun q => q.Ok ∧ Timed op millis q₁.cvs.mon.clock.nanos t q)
      (fun q e q' hi hc hs => ?_) ⟨step_ok hq₁ hcall, hbegin⟩ (hok₂.and (along_ne hleave)) h₂
    exact ⟨step_ok hi.1 hs, step_timed hop hi.1 hc.1 hc.2 hi.2 hs⟩
  obtain ⟨k, hk⟩ := ht
  obtain ⟨-, -, hbefore | ⟨-, d, hd, hkeep⟩⟩ := hend
  · simp [beforeDeadline, hk] at hbefore
  · have hframe : q.cvs.mon.frame t = .running (.returned (.ok false) k) := hk
    unfold CondVars.ThreadKeeps at hkeep
    rw [hframe] at hkeep
    exact hd.trans (hkeep rfl)

/-- **Timed waits honour their deadlines** in every run that replaces no deadline of a wait in
progress: the waits of any program that uses condition variables under one mutex, and with them
the waiting times of `get` and `put`. -/
theorem timed_waits_honour_deadlines (Tid Cv K T : Type) [DecidableEq Tid] [Fintype Tid]
    [DecidableEq Cv] :
    (∀ (now : Timeval) (timeout : Cv → Timespec) (es : List (CondVars.Event Tid Cv K)),
      Along CondVars.step CondVars.ArmOk (CondVars.free now timeout) es →
      CondVars.HonoursDeadlines (CondVars.free now timeout) es) ∧
    (∀ (m : BitVec 32) (now : Timeval) (timeout : QueueCv → Timespec)
      (es : List (Event Tid T)),
      Along step ArmOk (construct m now timeout) es →
      NoEarlyTimeout (construct m now timeout) es) :=
  ⟨fun _ _ _ hok => CondVars.honoursDeadlines hok,
    fun m now timeout _ hok => noEarlyTimeout (ok_construct m now timeout) hok⟩

/-- Worker a waits for ten milliseconds and nobody else comes. -/
def ownTimeout : List (Event Worker Nat) :=
  [.call .a (.getFor 10), .lock .a, .start .a, .arm .a true, .test .a, .block .a,
   .tick ⟨0, 10000, by decide, by decide⟩, .expire .a, .relock .a, .test .a]

theorem ownTimeout_runs :
    (run step (construct 1 Timeval.zero fun _ => ⟨0, 0⟩) ownTimeout).isSome = true := by decide

theorem timed_waits_honour_deadlines_ownTimeout :
    ∃ q, run step (construct 1 Timeval.zero fun _ => ⟨0, 0⟩) ownTimeout = some q ∧
      0 + 10 * 1000000 ≤ q.cvs.mon.clock.nanos := by
  refine ⟨_, (Option.some_get ownTimeout_runs).symm, ?_⟩
  exact (timed_waits_honour_deadlines Worker QueueCv (Local Nat) Nat).2 1 Timeval.zero
    (fun _ => ⟨0, 0⟩) ownTimeout (by decide) [] .a (.getFor 10) 10 ownTimeout.tail _ _ rfl rfl rfl
    (Option.some_get ownTimeout_runs).symm (by simp [ownTimeout]) ⟨⟨.getFor 10, .enter⟩, by decide⟩

/-- Worker a waits for ten seconds, worker b begins a wait of no time at all, and worker a wakes
up spuriously and goes on waiting. -/
def overwritten : List (Event Worker Nat) :=
  [.call .a (.getFor 10000), .lock .a, .start .a, .arm .a true, .test .a, .block .a,
   .call .b (.getFor 0), .lock .b, .start .b, .arm .b true, .test .b, .block .b,
   .spurious .a, .relock .a, .test .a, .block .a, .expire .a, .relock .a, .test .a]

theorem overwritten_runs :
    (run step (construct 1 Timeval.zero fun _ => ⟨0, 0⟩) overwritten).isSome = true := by decide

/-- The same with the two overloads of `wait_for`, up to the second wait of worker a. -/
def overwrittenWaits : List (CondVars.Event Worker Unit Unit) :=
  [.arm .a true, .test .a false, .block .a,
   .call .b (), .lock .b, .start .b (.retryLoop () 0), .test .b false, .arm .b true, .block .b,
   .spurious .a, .relock .a, .test .a false]

def overwrittenBegin : List (CondVars.Event Worker Unit Unit) :=
  [.call .a (), .lock .a, .start .a (.waitFor () 10000)]

theorem overwrittenBegin_runs :
    (run CondVars.step (CondVars.free Timeval.zero fun _ => ⟨0, 0⟩) overwrittenBegin).isSome
      = true := by decide

theorem overwrittenWaits_runs :
    (run CondVars.step (CondVars.free Timeval.zero fun _ => ⟨0, 0⟩)
      (overwrittenBegin ++ overwrittenWaits)).isSome = true := by decide

/-- The wait of worker a is passed the deadline of worker b, and its `get` reports a timeout
before any time has passed. -/
theorem deadline_overwritten :
    ¬ CondVars.HonoursDeadlines (CondVars.free Timeval.zero fun _ => ⟨0, 0⟩)
      (overwrittenBegin ++ overwrittenWaits) ∧
    ¬ NoEarlyTimeout (construct 1 Timeval.zero fun _ => ⟨0, 0⟩) overwritten := by
  constructor
  · intro h
    have hpassed := (h overwrittenBegin .a overwrittenWaits.tail _ _ () _ rfl
      (Option.some_get overwrittenBegin_runs).symm rfl rfl
      (Option.some_get overwrittenWaits_runs).symm (by simp [overwrittenWaits])).1 _ () rfl rfl
    exact absurd hpassed (by decide)
  · intro h
    have hearly := h [] .a (.getFor 10000) 10000 overwritten.tail _ _ rfl rfl rfl
      (Option.some_get overwritten_runs).symm (by simp [overwritten])
      ⟨⟨.getFor 10000, .enter⟩, by decide⟩
    exact absurd hearly (by decide)

end SyncQueue

end CppPthread
