import CppPthread.ConditionVariable.Machine

set_option autoImplicit false

/-! # The deadline of a timed wait

A timed wait computes its deadline once, when it begins, and stores it in the member `timeout`
of the condition variable; each of its calls of `pthread_cond_timedwait` then reads that
member. Between two such calls the mutex has been released, and another thread that begins a
timed wait on the same variable stores its own deadline in the same place.

`Keeps` says what a thread may rely on from the computation of its deadline to the end of its
wait. It is preserved by every step that does not store a different deadline while the wait is
in progress (`ArmOk`), and `run_keeps` carries it over whole runs.
-/

namespace CppPthread

open Posix Run

section Wait

variable {Cv K : Type} [DecidableEq Cv]

/-- The wait has computed its deadline and may still call `pthread_cond_timedwait`. -/
def Wait.inProgress (w : Wait Cv) : Bool :=
  match w.call with
  | .wait _ => false
  | .waitFor _ _ => decide (w.point ≠ .arm)
  | .retryLoop _ _ => decide (w.delay < 0) || decide (w.point = .block)

/-- A thread in this frame relies on the deadline stored in `cv`. -/
def reliesOn (cv : Cv) : Frame Cv (Code Cv K) → Bool
  | .running (.waiting w _) => w.inProgress && decide (w.call.cv = cv)
  | .blocked _ _ (.waiting w _) => w.inProgress && decide (w.call.cv = cv)
  | .woken _ _ (.waiting w _) => w.inProgress && decide (w.call.cv = cv)
  | _ => false

omit [DecidableEq Cv] in
theorem Wait.timed_of_inProgress {w : Wait Cv} (h : w.inProgress = true) :
    w.call.timed = true := by
  cases hc : w.call with
  | wait cv => simp [inProgress, hc] at h
  | waitFor cv millis => rfl
  | retryLoop cv millis => rfl

omit [DecidableEq Cv] in
/-- A wait that has just computed its deadline is in progress. -/
theorem Wait.armed_inProgress {w : Wait Cv} (hw : w.computesDeadline = true) :
    w.armed.inProgress = true := by
  cases hc : w.call with
  | wait cv => simp [computesDeadline, hc] at hw
  | waitFor cv millis => simp [armed, inProgress, hc]
  | retryLoop cv millis => simp [armed, inProgress, hc]

omit [DecidableEq Cv] in
/-- A wait in progress does not compute its deadline again. -/
theorem Wait.not_computes_of_inProgress {w : Wait Cv} (h : w.inProgress = true)
    (hp : w.point = .arm) : w.computesDeadline = false := by
  cases hc : w.call with
  | wait cv => simp [computesDeadline, hc]
  | waitFor cv millis => simp [inProgress, hc, hp] at h
  | retryLoop cv millis =>
      have hd : w.delay < 0 := by simpa [inProgress, hc, hp] using h
      simpa [computesDeadline, hc] using hd

omit [DecidableEq Cv] in
@[simp] theorem Wait.armed_call (w : Wait Cv) : w.armed.call = w.call := by
  unfold armed
  split <;> rfl

end Wait

namespace CondVars

variable {Tid Cv K : Type} [DecidableEq Tid] [Fintype Tid] [DecidableEq Cv]

/-- The deadline that a step stores: the thread, the variable and the deadline. -/
def stores (s : CondVars Tid Cv K) : Event Tid Cv K → Option (Tid × Cv × Timespec)
  | .arm t true =>
      match s.mon.frame t with
      | .running (.waiting w _) =>
          if w.computesDeadline then some (t, w.call.cv, deadline s.mon.clock w.delay) else none
      | _ => none
  | _ => none

/-- The step does not replace the deadline of a wait in progress by a different one. -/
def ArmOk (s : CondVars Tid Cv K) (e : Event Tid Cv K) : Prop :=
  ∀ a ∈ s.stores e, ∀ u, u ≠ a.1 → reliesOn a.2.1 (s.mon.frame u) = true →
    a.2.2 = s.timeout a.2.1

instance (s : CondVars Tid Cv K) (e : Event Tid Cv K) : Decidable (ArmOk s e) :=
  inferInstanceAs (Decidable (∀ a ∈ s.stores e, _))

/-! ## What a waiting thread may rely on

`τ` is the deadline stored in `cv`, `now` the clock in nanoseconds, and `d` the deadline that
the thread has computed. -/

/-- The code of a thread whose wait on `cv` has the deadline `d`. -/
def CodeKeeps (cv : Cv) (d τ : Timespec) (now : Int) : Code Cv K → Prop
  | .client _ => True
  | .waiting w _ =>
      w.call.cv = cv ∧ w.inProgress = true ∧ τ = d ∧ (w.point = .test .timedout → d.nanos ≤ now)
  | .returned r _ => r = .ok false → d.nanos ≤ now

/-- The frame of a thread whose wait on `cv` has the deadline `d`. -/
def Keeps (cv : Cv) (d τ : Timespec) (now : Int) : Frame Cv (Code Cv K) → Prop
  | .outside => True
  | .locking c => CodeKeeps cv d τ now c
  | .running c => CodeKeeps cv d τ now c
  | .blocked _ a c => CodeKeeps cv d τ now c ∧ a = some d
  | .woken _ rc c => CodeKeeps cv d τ now c ∧ (rc = ETIMEDOUT → d.nanos ≤ now)

section Keeps

variable {cv : Cv} {d τ τ' : Timespec} {now now' : Int}

omit [DecidableEq Cv] in
theorem CodeKeeps.mono {c : Code Cv K} (h : CodeKeeps cv d τ now c) (hnow : now ≤ now')
    (hτ : ∀ w k, c = .waiting w k → w.inProgress = true → w.call.cv = cv → τ' = τ) :
    CodeKeeps cv d τ' now' c := by
  cases c with
  | client k => trivial
  | waiting w k =>
      obtain ⟨hcv, hin, hd, hto⟩ := h
      exact ⟨hcv, hin, (hτ w k rfl hin hcv).trans hd, fun hp => (hto hp).trans hnow⟩
  | returned r k => exact fun hr => (h hr).trans hnow

/-- A thread keeps what it relies on when time passes, and when the stored deadline changes
while it does not rely on it. -/
theorem Keeps.mono {f : Frame Cv (Code Cv K)} (h : Keeps cv d τ now f) (hf : FrameOk f)
    (hnow : now ≤ now') (hτ : reliesOn cv f = true → τ' = τ) : Keeps cv d τ' now' f := by
  cases f with
  | outside => trivial
  | locking c =>
      obtain ⟨k, rfl⟩ := hf
      trivial
  | running c =>
      refine CodeKeeps.mono h hnow fun w k hc hin hcv => hτ ?_
      simp [reliesOn, hc, hin, hcv]
  | blocked cv' a c =>
      refine ⟨CodeKeeps.mono h.1 hnow fun w k hc hin hcv => hτ ?_, h.2⟩
      simp [reliesOn, hc, hin, hcv]
  | woken cv' rc c =>
      refine ⟨CodeKeeps.mono h.1 hnow fun w k hc hin hcv => hτ ?_,
        fun hrc => (h.2 hrc).trans hnow⟩
      simp [reliesOn, hc, hin, hcv]

omit [DecidableEq Cv] in
theorem Keeps.unblock {f : Frame Cv (Code Cv K)} (h : Keeps cv d τ now f) :
    Keeps cv d τ now (f.unblock 0) := by
  cases f with
  | blocked cv' a c => exact ⟨h.1, fun hrc => absurd hrc (by decide)⟩
  | _ => exact h

omit [DecidableEq Cv] in
/-- The evaluation of the predicate keeps the wait in progress or ends it; it ends it with
`false` only after a wait that timed out. -/
theorem CodeKeeps.tested {w : Wait Cv} {k : K} {status : CvStatus}
    (h : CodeKeeps cv d τ now (.waiting w k)) (hp : w.point = .test status) (b : Bool) :
    CodeKeeps cv d τ now (w.tested status b k) := by
  obtain ⟨hcv, hin, hd, hto⟩ := h
  cases b with
  | true => simp [Wait.tested, CodeKeeps]
  | false =>
      cases hc : w.call with
      | wait cv' => simp [Wait.inProgress, hc] at hin
      | waitFor cv' millis =>
          rw [hc] at hcv
          cases status with
          | noTimeout => simp [Wait.tested, hc, CodeKeeps, Wait.inProgress, hd, hcv]
          | timedout => simpa [Wait.tested, hc, CodeKeeps] using hto hp
      | retryLoop cv' millis =>
          rw [hc] at hcv
          have hneg : w.delay < 0 := by simpa [Wait.inProgress, hc, hp] using hin
          simp [Wait.tested, hc, CodeKeeps, Wait.inProgress, hd, hcv, hneg]

omit [DecidableEq Cv] in
/-- The return of the condition wait keeps the wait in progress or ends it. -/
theorem CodeKeeps.resumed {w : Wait Cv} {k : K} {rc : Int}
    (h : CodeKeeps cv d τ now (.waiting w k)) (hrc : rc = ETIMEDOUT → d.nanos ≤ now) :
    CodeKeeps cv d τ now (w.resumed rc k) := by
  obtain ⟨hcv, hin, hd, -⟩ := h
  cases hc : w.call with
  | wait cv' => simp [Wait.inProgress, hc] at hin
  | waitFor cv' millis =>
      rw [hc] at hcv
      cases hst : timedwaitStatus rc with
      | error e => simp [Wait.resumed, hc, hst, CodeKeeps]
      | ok status =>
          have hto : status = .timedout → d.nanos ≤ now := fun h =>
            hrc (timedwaitStatus_eq_timedout.mp (h ▸ hst))
          simpa [Wait.resumed, hc, hst, CodeKeeps, Wait.inProgress, hd, hcv] using hto
  | retryLoop cv' millis =>
      rw [hc] at hcv
      cases hst : timedwaitStatus rc with
      | error e => simp [Wait.resumed, hc, hst, CodeKeeps]
      | ok status =>
          cases status with
          | noTimeout => simp [Wait.resumed, hc, hst, CodeKeeps, Wait.inProgress, hd, hcv]
          | timedout =>
              simpa [Wait.resumed, hc, hst, CodeKeeps]
                using hrc (timedwaitStatus_eq_timedout.mp hst)

end Keeps

/-- Thread `t` has what it relies on. -/
def ThreadKeeps (cv : Cv) (d : Timespec) (t : Tid) (s : CondVars Tid Cv K) : Prop :=
  Keeps cv d (s.timeout cv) s.mon.clock.nanos (s.mon.frame t)

/-! ## Steps and runs -/

/-- **The step lemma.** As long as thread `t` does not begin another wait, a step that replaces
no deadline of a wait in progress leaves it what it relies on. -/
theorem step_keeps {s s' : CondVars Tid Cv K} {e : Event Tid Cv K} {cv : Cv} {d : Timespec}
    {t : Tid} (hs : ∀ u, FrameOk (s.mon.frame u)) (hok : ArmOk s e) (hne : ∀ c, e ≠ .start t c)
    (hk : ThreadKeeps cv d t s) (h : step s e = some s') : ThreadKeeps cv d t s' := by
  -- a step of thread `u` that leaves the stored deadlines and the clock alone
  have put : ∀ {u : Tid} {f f' : Frame Cv (Code Cv K)}, s.mon.frame u = f →
      (Keeps cv d (s.timeout cv) s.mon.clock.nanos f →
        Keeps cv d (s.timeout cv) s.mon.clock.nanos f') →
      Keeps cv d (s.timeout cv) s.mon.clock.nanos (Function.update s.mon.frame u f' t) := by
    intro u f f' hf hff'
    by_cases hu : t = u
    · subst hu
      rw [Function.update_self]
      exact hff' (hf ▸ hk)
    · rw [Function.update_of_ne hu]
      exact hk
  have wake : ∀ W : Finset Tid,
      Keeps cv d (s.timeout cv) s.mon.clock.nanos ((s.mon.wake W).frame t) := fun W =>
    Monitor.wake_keeps (P := Keeps cv d (s.timeout cv) s.mon.clock.nanos)
      (fun _ => Keeps.unblock) hk W
  cases step_trans h with
  | call ht => exact put ht fun _ => trivial
  | lock ht => exact put ht id
  | @start u c k ht =>
      by_cases hu : t = u
      · exact absurd rfl (hu ▸ hne c)
      · show Keeps cv d _ _ (Function.update s.mon.frame u _ t)
        rw [Function.update_of_ne hu]
        exact hk
  | @arm u w k ht hp hw =>
      by_cases hu : t = u
      · -- a wait in progress does not compute its deadline again
        subst hu
        unfold ThreadKeeps at hk
        rw [ht] at hk
        simp [Wait.not_computes_of_inProgress hk.2.1 hp] at hw
      · show Keeps cv d _ _ (Function.update s.mon.frame u _ t)
        rw [Function.update_of_ne hu]
        refine hk.mono (hs t) le_rfl fun hrel => ?_
        by_cases hcv : cv = w.call.cv
        · subst hcv
          have hstore : (u, w.call.cv, deadline s.mon.clock w.delay) ∈ s.stores (.arm u true) := by
            simp [stores, ht, hw]
          show Function.update s.timeout w.call.cv _ w.call.cv = _
          rw [Function.update_self]
          exact hok _ hstore t hu hrel
        · exact Function.update_of_ne hcv ..
  | armFail ht => exact put ht fun _ => by simp [Keeps, CodeKeeps]
  | @armSkip u b w k ht hp hw =>
      refine put ht fun hk' => ?_
      obtain ⟨hcv, hin, hd, -⟩ := hk'
      cases hc : w.call with
      | wait cv' => simp [Wait.inProgress, hc] at hin
      | waitFor cv' millis => simp [Wait.computesDeadline, hc] at hw
      | retryLoop cv' millis =>
          rw [hc] at hcv
          simp [Wait.armed, hc, Keeps, CodeKeeps, Wait.inProgress, hd, hcv]
  | test ht hp =>
      refine put ht fun hk' => ?_
      exact CodeKeeps.tested hk' hp _
  | @block u w k ht hp hv =>
      refine put ht fun hk' => ?_
      refine ⟨hk', ?_⟩
      rw [abstime, if_pos (Wait.timed_of_inProgress hk'.2.1), hk'.1, hk'.2.2.1]
  | refuse ht =>
      refine put ht fun hk' => ?_
      exact CodeKeeps.resumed hk' fun hrc => absurd hrc (by decide)
  | spurious ht =>
      refine put ht fun hk' => ?_
      exact ⟨hk'.1, fun hrc => absurd hrc (by decide)⟩
  | @expire u cv' a c ht ha =>
      refine put ht fun hk' => ?_
      obtain rfl : a = d := by simpa using hk'.2
      exact ⟨hk'.1, fun _ => ha⟩
  | @relock u cv' rc c ht hm =>
      refine put ht fun hk' => ?_
      cases c with
      | waiting w k => exact CodeKeeps.resumed hk'.1 hk'.2
      | client k => exact hk'.1
      | returned r k => exact hk'.1
  | work ht => exact put ht fun _ => trivial
  | notifyOne => exact wake _
  | notifyAll => exact wake _
  | leave ht => exact put ht fun _ => trivial
  | tick hn => exact hk.mono (hs t) hn fun _ => rfl

theorem run_keeps {s s' : CondVars Tid Cv K} {es : List (Event Tid Cv K)} {cv : Cv}
    {d : Timespec} {t : Tid} (hs : ∀ u, FrameOk (s.mon.frame u)) (hok : Along step ArmOk s es)
    (hne : ∀ c, .start t c ∉ es) (hk : ThreadKeeps cv d t s) (h : run step s es = some s') :
    ThreadKeeps cv d t s' := by
  have hstart : Along step (fun _ e => ∀ c, e ≠ .start t c) s es :=
    along_of_forall fun e he c hc => hne c (hc ▸ he)
  refine (run_invariant (I := fun s => (∀ u, FrameOk (s.mon.frame u)) ∧ ThreadKeeps cv d t s)
    (fun s e s' hi hc h => ?_) ⟨hs, hk⟩ (hok.and hstart) h).2
  exact ⟨step_frameOk hi.1 h, step_keeps hi.1 hc.1 hc.2 hi.2 h⟩

/-- The computation of the deadline gives the thread what it relies on. -/
theorem arm_keeps {s s' : CondVars Tid Cv K} {t : Tid} {w : Wait Cv} {k : K}
    (ht : s.mon.frame t = .running (.waiting w k)) (hw : w.computesDeadline = true)
    (h : step s (.arm t true) = some s') :
    ThreadKeeps w.call.cv (deadline s.mon.clock w.delay) t s' := by
  cases step_trans h with
  | @arm t w' k' ht' hp hw' =>
      obtain ⟨rfl, rfl⟩ : w = w' ∧ k = k' := by simpa [ht] using ht'
      show Keeps _ _ (Function.update s.timeout _ _ _) _ (Function.update s.mon.frame t _ t)
      rw [Function.update_self, Function.update_self]
      refine ⟨by simp, Wait.armed_inProgress hw, rfl, fun hto => ?_⟩
      cases hc : w.call <;> simp [Wait.armed, hc] at hto
  | armSkip ht' hp hw' =>
      obtain ⟨rfl, rfl⟩ := by simpa [ht] using ht'
      simp [hw] at hw'

/-! ## The delay of a wait is the caller's -/

/-- A wait that may still compute its deadline has the delay that its caller asked for. -/
def DelayOk : Code Cv K → Prop
  | .waiting w _ => w.computesDeadline = true → w.delay = w.call.millis
  | _ => True

omit [DecidableEq Cv] in
/-- A wait that only moves on keeps its delay. -/
theorem DelayOk.point {w : Wait Cv} {k : K} (h : DelayOk (.waiting w k)) (p : Point) :
    DelayOk (.waiting { w with point := p } k) := h

omit [DecidableEq Cv] in
theorem DelayOk.armed {w : Wait Cv} {k : K} (h : DelayOk (.waiting w k)) :
    DelayOk (.waiting w.armed k) := by
  unfold Wait.armed
  split
  · exact h.point _
  · exact h.point _

omit [DecidableEq Cv] in
theorem DelayOk.tested {w : Wait Cv} {k : K} (h : DelayOk (.waiting w k)) (status : CvStatus)
    (b : Bool) : DelayOk (w.tested status b k) := by
  unfold Wait.tested
  split_ifs
  · trivial
  · split
    · trivial
    · exact h.point _
    · exact h.point _

omit [DecidableEq Cv] in
/-- The retry loop goes on with a delay that does not compute a deadline. -/
theorem DelayOk.resumed {w : Wait Cv} {k : K} (h : DelayOk (.waiting w k)) (rc : Int) :
    DelayOk (w.resumed rc k) := by
  unfold Wait.resumed
  split
  · exact h.point _
  · split
    · exact h.point _
    · trivial
  · rename_i cv millis hc
    split
    · exact fun hw => by simp [Wait.computesDeadline, hc] at hw
    · trivial
    · trivial

omit [DecidableEq Cv] in
theorem delayOk_start (c : Call Cv) (k : K) : DelayOk (.waiting (Wait.start c) k) := by
  cases c with
  | wait cv => exact fun hw => by simp [Wait.computesDeadline, Wait.start] at hw
  | waitFor cv millis => exact fun _ => rfl
  | retryLoop cv millis => exact fun _ => rfl

theorem step_delayOk {s s' : CondVars Tid Cv K} {e : Event Tid Cv K}
    (hs : ∀ t c, (s.mon.frame t).data = some c → DelayOk c) (h : step s e = some s') :
    ∀ t c, (s'.mon.frame t).data = some c → DelayOk c := by
  have put : ∀ {t : Tid} {f : Frame Cv (Code Cv K)}, (∀ c, f.data = some c → DelayOk c) →
      ∀ u c, (Function.update s.mon.frame t f u).data = some c → DelayOk c :=
    fun hf => (Function.forall_update_iff _ fun _ (f : Frame Cv (Code Cv K)) =>
      ∀ c, f.data = some c → DelayOk c).mpr ⟨hf, fun u _ => hs u⟩
  have wake : ∀ (W : Finset Tid) u c, ((s.mon.wake W).frame u).data = some c → DelayOk c :=
    fun W u => Monitor.wake_keeps (P := fun f => ∀ c, f.data = some c → DelayOk c)
      (fun f hf c hc => hf c (by rwa [Frame.unblock_data] at hc)) (hs u) W
  cases step_trans h with
  | call => exact put fun c hc => by cases hc; trivial
  | @lock t c ht => exact put fun c' hc => by cases hc; exact hs t c (by rw [ht]; rfl)
  | start => exact put fun c hc => by cases hc; exact delayOk_start _ _
  | @arm t w k ht =>
      refine put fun c hc => ?_
      cases hc
      exact DelayOk.armed (k := k) (hs t _ (by rw [ht]; rfl))
  | armFail => exact put fun c hc => by cases hc; trivial
  | @armSkip t ok w k ht =>
      refine put fun c hc => ?_
      cases hc
      exact DelayOk.armed (k := k) (hs t _ (by rw [ht]; rfl))
  | @test t b w k status ht =>
      refine put fun c hc => ?_
      cases hc
      exact DelayOk.tested (hs t _ (by rw [ht]; rfl)) status b
  | @block t w k ht => exact put fun c hc => by cases hc; exact hs t _ (by rw [ht]; rfl)
  | @refuse t w k ht =>
      refine put fun c hc => ?_
      cases hc
      exact DelayOk.resumed (hs t _ (by rw [ht]; rfl)) EINVAL
  | @spurious t cv a c ht => exact put fun c' hc => by cases hc; exact hs t c (by rw [ht]; rfl)
  | @expire t cv a c ht => exact put fun c' hc => by cases hc; exact hs t c (by rw [ht]; rfl)
  | @relock t cv rc c ht =>
      refine put fun c' hc => ?_
      cases hc
      have hc := hs t c (by rw [ht]; rfl)
      cases c with
      | waiting w k => exact hc.resumed rc
      | client k => exact hc
      | returned r k => exact hc
  | work => exact put fun c hc => by cases hc; trivial
  | notifyOne => exact wake _
  | notifyAll => exact wake _
  | leave => exact put fun c hc => by cases hc
  | tick => exact hs

/-! ## Deadlines are honoured -/

/-- Each timed wait of the run honours the deadline it computed. From the step in which thread
`t` computes a deadline until it begins another wait, every `pthread_cond_timedwait` it calls
is passed that deadline, which is the clock plus the delay the caller asked for, and the wait
does not report a timeout before that delay has elapsed. -/
def HonoursDeadlines (s : CondVars Tid Cv K) (es : List (Event Tid Cv K)) : Prop :=
  ∀ es₁ t es₂ s₁ w k s₂, es = es₁ ++ .arm t true :: es₂ → run step s es₁ = some s₁ →
    s₁.mon.frame t = .running (.waiting w k) → w.computesDeadline = true →
    run step s es = some s₂ → (∀ c, .start t c ∉ es₂) →
    (∀ w' k', s₂.mon.frame t = .running (.waiting w' k') → w'.point = .block →
      s₂.abstime w' = some (deadline s₁.mon.clock w.call.millis)) ∧
    (∀ k', s₂.mon.frame t = .running (.returned (.ok false) k') →
      s₁.mon.clock.nanos + w.call.millis * 1000000 ≤ s₂.mon.clock.nanos)

/-- **Deadlines are honoured** in every run that replaces no deadline of a wait in progress. -/
theorem honoursDeadlines {now : Timeval} {timeout : Cv → Timespec} {es : List (Event Tid Cv K)}
    (hok : Along step ArmOk (free now timeout) es) : HonoursDeadlines (free now timeout) es := by
  intro es₁ t es₂ s₁ w k s₂ hes hrun₁ ht hw hrun hne
  subst hes
  obtain ⟨m, hm, hrest⟩ := run_append.mp hrun
  obtain rfl : s₁ = m := Option.some.inj (hrun₁.symm.trans hm)
  obtain ⟨m, harm, hrun₂⟩ := run_cons.mp hrest
  have hs₁ : ∀ u, FrameOk (s₁.mon.frame u) :=
    run_invariant_of_step (I := fun s => ∀ u, FrameOk (s.mon.frame u))
      (fun _ _ _ hi h => step_frameOk hi h) (frameOk_free now timeout) hrun₁
  have hd₁ : ∀ u c, (s₁.mon.frame u).data = some c → DelayOk c :=
    run_invariant_of_step (I := fun s => ∀ u c, (s.mon.frame u).data = some c → DelayOk c)
      (fun _ _ _ hi h => step_delayOk hi h) (fun _ _ hc => by cases hc) hrun₁
  have hdelay : w.delay = w.call.millis := hd₁ t (.waiting w k) (by rw [ht]; rfl) hw
  have hok₂ := (along_cons ((along_append hrun₁).mp hok).2 harm).2
  have hkeep := run_keeps (step_frameOk hs₁ harm) hok₂ hne (arm_keeps ht hw harm) hrun₂
  unfold ThreadKeeps at hkeep
  constructor
  · intro w' k' ht' hp'
    rw [ht'] at hkeep
    rw [abstime, if_pos (Wait.timed_of_inProgress hkeep.2.1), hkeep.1, hkeep.2.2.1, hdelay]
  · intro k' ht'
    rw [ht'] at hkeep
    rw [← deadline_nanos, ← hdelay]
    exact hkeep rfl

end CondVars

end CppPthread
