import CppPthread.ConditionVariable.Machine

set_option autoImplicit false

/-! # The contract of `condition_variable`

A program keeps a value under the mutex, and its threads wait until predicates of the value hold.
The documentation of `condition_variable` asks of a thread that modifies the value that it has the
mutex, and that it notifies the variable; the mutex may have been released by then. Between the
modification and the notification the notification is due (`Shared.due`).

A modification makes a notification due whenever it may have made a predicate true that is waited
for with the variable (`enables`). Then no thread is blocked while its predicate holds, unless a
notification is due: a wait looks at the predicate under the mutex, and blocks before the mutex is
free for a modification (`Wait.saidNo`). And a wait that returns tells what the predicate is at that
time.
-/

namespace CppPthread

open Posix Run

variable {Tid Cv K σ : Type}

/-- The value under the mutex, and the variables that are to be notified. -/
structure Shared (Tid Cv K σ : Type) where
  cvs : CondVars Tid Cv K
  value : σ
  due : Cv → Bool

inductive SharedEvent (Tid Cv K σ : Type) where
  /-- A step of the mutex, of a wait, or a notification. -/
  | cvs (e : CondVars.Event Tid Cv K)
  /-- A thread that has the mutex changes the value. -/
  | modify (t : Tid) (v : σ) (k : K)

/-- The predicate of the wait has been evaluated, to false, since the wait had the mutex last. -/
def Wait.saidNo (w : Wait Cv) : Bool :=
  match w.point, w.call with
  | .block, _ => true
  | .arm, .retryLoop _ _ => true
  | _, _ => false

/-- The loop that callers without lambdas write ends on `timedout` without another look at the
predicate. -/
def Wait.isRetry (w : Wait Cv) : Bool :=
  match w.call with
  | .retryLoop _ _ => true
  | _ => false

namespace Shared

open CondVars

variable [DecidableEq Tid] [Fintype Tid] [DecidableEq Cv]
  (lambda : Cv → K → σ → Bool) (enables : Cv → σ → σ → Bool)

/-- Nobody is inside, and nothing is due. -/
def init (now : Timeval) (timeout : Cv → Timespec) (v : σ) : Shared Tid Cv K σ :=
  ⟨CondVars.free now timeout, v, fun _ => false⟩

omit [DecidableEq Tid] [Fintype Tid] [DecidableEq Cv] in
/-- An evaluation of the predicate gives what the predicate says about the value. -/
def evaluates (s : Shared Tid Cv K σ) : CondVars.Event Tid Cv K → Bool
  | .test t b =>
      match s.cvs.mon.frame t with
      | .running (.waiting w k) => b == lambda w.call.cv k s.value
      | _ => true
  | _ => true

omit [DecidableEq Tid] in
/-- A notification that reaches every thread that is blocked: `notify_all()`, or a `notify_one()`
that unblocks all of them, as it does when there is one. -/
def tells (s : Shared Tid Cv K σ) (cv : Cv) : CondVars.Event Tid Cv K → Bool
  | .notifyAll cv' => decide (cv' = cv)
  | .notifyOne cv' W => decide (cv' = cv ∧ s.cvs.mon.waiters cv ⊆ W)
  | _ => false

def step (s : Shared Tid Cv K σ) : SharedEvent Tid Cv K σ → Option (Shared Tid Cv K σ)
  | .cvs e =>
      if s.evaluates lambda e then
        (CondVars.step s.cvs e).map fun c =>
          { s with cvs := c, due := fun cv => s.due cv && !s.tells cv e }
      else none
  | .modify t v k =>
      (CondVars.step s.cvs (.work t k)).map fun c =>
        ⟨c, v, fun cv => s.due cv || enables cv s.value v⟩

/-! ## What is known about the predicates -/

/-- What a wait has been told and acts upon is still so. -/
def CodeTold (v : σ) : Code Cv K → Prop
  | .waiting w k => w.saidNo = true → lambda w.call.cv k v = false
  | _ => True

/-- The threads inside, by where they are. -/
def FrameTold (v : σ) (due : Cv → Bool) : Frame Cv (Code Cv K) → Prop
  | .running c => CodeTold lambda v c
  | .blocked cv _ c => lambda cv c.data v = true → due cv = true
  | _ => True

structure Told (s : Shared Tid Cv K σ) : Prop where
  excl : s.cvs.mon.Excl
  frames : ∀ t, FrameOk (s.cvs.mon.frame t)
  told : ∀ t, FrameTold lambda s.value s.due (s.cvs.mon.frame t)

variable {lambda enables}

omit [DecidableEq Tid] [Fintype Tid] [DecidableEq Cv] in
theorem told_init (now : Timeval) (timeout : Cv → Timespec) (v : σ) :
    (init now timeout v : Shared Tid Cv K σ).Told lambda where
  excl := Monitor.excl_free now
  frames := frameOk_free now timeout
  told _ := trivial

omit [DecidableEq Tid] [Fintype Tid] [DecidableEq Cv] in
/-- A wakeup cannot make it wrong. -/
theorem FrameTold.unblock {v : σ} {due : Cv → Bool} {f : Frame Cv (Code Cv K)}
    (h : FrameTold lambda v due f) : FrameTold lambda v due (f.unblock 0) := by
  cases f with
  | blocked cv a c => trivial
  | _ => exact h

omit [DecidableEq Tid] [Fintype Tid] [DecidableEq Cv] in
theorem codeTold_start (v : σ) (c : Call Cv) (k : K) :
    CodeTold lambda v (.waiting (Wait.start c) k) := by
  cases c <;> exact fun h => by cases h

omit [DecidableEq Tid] [Fintype Tid] [DecidableEq Cv] in
theorem codeTold_armed {v : σ} {w : Wait Cv} {k : K} (hp : w.point = .arm)
    (h : CodeTold lambda v (.waiting w k)) : CodeTold lambda v (.waiting w.armed k) := by
  rcases w with ⟨_ | _ | _, delay, point⟩
  · exact fun h => by cases h
  · exact fun h => by cases h
  · subst hp
    exact fun _ => h rfl

omit [DecidableEq Tid] [Fintype Tid] [DecidableEq Cv] in
/-- The predicate has just been evaluated. -/
theorem codeTold_tested {v : σ} {w : Wait Cv} {k : K} (status : CvStatus) {b : Bool}
    (hb : b = lambda w.call.cv k v) : CodeTold lambda v (w.tested status b k) := by
  unfold Wait.tested
  cases b with
  | true => trivial
  | false =>
      rcases w with ⟨_ | _ | _, delay, point⟩
      · exact fun _ => hb.symm
      · cases status with
        | timedout => trivial
        | noTimeout => exact fun _ => hb.symm
      · exact fun _ => hb.symm

omit [DecidableEq Tid] [Fintype Tid] [DecidableEq Cv] in
/-- After a wait the predicate is looked at again. -/
theorem codeTold_resumed (v : σ) (w : Wait Cv) (rc : Int) (k : K) :
    CodeTold lambda v (w.resumed rc k) := by
  unfold Wait.resumed
  rcases w with ⟨_ | _ | _, delay, point⟩
  · exact fun h => by cases h
  · cases timedwaitStatus rc with
    | ok status => exact fun h => by cases h
    | error e => trivial
  · rcases timedwaitStatus rc with e | _ | _
    · trivial
    · exact fun h => by cases h
    · trivial

omit [Fintype Tid] [DecidableEq Cv] in
/-- One thread moves, under the same value. -/
theorem told_put {v : σ} {due : Cv → Bool} {frame : Tid → Frame Cv (Code Cv K)}
    (h : ∀ t, FrameTold lambda v due (frame t)) {t : Tid} {f : Frame Cv (Code Cv K)}
    (hf : FrameTold lambda v due f) (u : Tid) :
    FrameTold lambda v due (Function.update frame t f u) :=
  (Function.forall_update_iff frame fun _ f => FrameTold lambda v due f).mpr
    ⟨hf, fun u _ => h u⟩ u

/-! ## Steps -/

/-- The threads that are woken up, and what is still due. -/
theorem told_wake {s : Shared Tid Cv K σ} (hs : s.Told lambda) {due : Cv → Bool} {W : Finset Tid}
    (hdue : ∀ cv, s.due cv = true → due cv = true ∨ s.cvs.mon.waiters cv ⊆ W) (t : Tid) :
    FrameTold lambda s.value due ((s.cvs.mon.wake W).frame t) := by
  have ht := hs.told t
  by_cases hW : t ∈ W
  · rw [Monitor.wake_frame_of_mem hW]
    cases hf : s.cvs.mon.frame t with
    | running c =>
        rw [hf] at ht
        exact ht
    | blocked cv a c => trivial
    | outside | locking _ | woken _ _ _ => trivial
  · rw [Monitor.wake_frame_of_notMem hW]
    cases hf : s.cvs.mon.frame t with
    | running c =>
        rw [hf] at ht
        exact ht
    | blocked cv a c =>
        rw [hf] at ht
        intro hlambda
        exact (hdue cv (ht hlambda)).resolve_right fun hall =>
          hW (hall (Monitor.mem_waiters.mpr ⟨a, c, hf⟩))
    | outside | locking _ | woken _ _ _ => trivial

omit [DecidableEq Tid] [Fintype Tid] [DecidableEq Cv] in
theorem evaluates_test {s : Shared Tid Cv K σ} {t : Tid} {b : Bool} {w : Wait Cv} {k : K}
    (ht : s.cvs.mon.frame t = .running (.waiting w k))
    (he : s.evaluates lambda (.test t b) = true) : b = lambda w.call.cv k s.value := by
  simp only [evaluates, ht] at he
  exact eq_of_beq he

/-- A step that notifies nobody leaves due what is due. -/
theorem due_of_not_tells {s : Shared Tid Cv K σ} {e : CondVars.Event Tid Cv K}
    (h : ∀ cv, s.tells cv e = false) : (fun cv => s.due cv && !s.tells cv e) = s.due := by
  funext cv
  rw [h, Bool.not_false, Bool.and_true]

theorem told_cvs {s : Shared Tid Cv K σ} {c : CondVars Tid Cv K} {e : CondVars.Event Tid Cv K}
    (hs : s.Told lambda) (he : s.evaluates lambda e = true) (h : CondVars.step s.cvs e = some c) :
    ∀ t, FrameTold lambda s.value (fun cv => s.due cv && !s.tells cv e) (c.mon.frame t) := by
  have put : ∀ {t : Tid} {f : Frame Cv (Code Cv K)}, (∀ cv, s.tells cv e = false) →
      FrameTold lambda s.value s.due f → ∀ u, FrameTold lambda s.value
        (fun cv => s.due cv && !s.tells cv e) (Function.update s.cvs.mon.frame t f u) := by
    intro t f hnot hf
    rw [due_of_not_tells hnot]
    exact told_put hs.told hf
  have hrunning : ∀ {t : Tid} {c : Code Cv K}, s.cvs.mon.frame t = .running c →
      CodeTold lambda s.value c := by
    intro t c ht
    have htold := hs.told t
    rw [ht] at htold
    exact htold
  have hstill : ∀ {W : Finset Tid}, (∀ cv, s.tells cv e = true → s.cvs.mon.waiters cv ⊆ W) →
      ∀ cv, s.due cv = true →
        (s.due cv && !s.tells cv e) = true ∨ s.cvs.mon.waiters cv ⊆ W := by
    intro W hW cv hdue
    cases htells : s.tells cv e with
    | true => exact .inr (hW cv htells)
    | false => exact .inl (by rw [hdue]; rfl)
  cases step_trans h with
  | call => exact put (fun _ => rfl) trivial
  | @lock t c ht hm =>
      have hok := hs.frames t
      rw [ht] at hok
      obtain ⟨k, rfl⟩ := hok
      exact put (fun _ => rfl) trivial
  | start => exact put (fun _ => rfl) (codeTold_start _ _ _)
  | arm ht hp hw => exact put (fun _ => rfl) (codeTold_armed hp (hrunning ht))
  | armFail => exact put (fun _ => rfl) trivial
  | armSkip ht hp hw => exact put (fun _ => rfl) (codeTold_armed hp (hrunning ht))
  | test ht hp =>
      exact put (fun _ => rfl) (codeTold_tested _ (evaluates_test ht he))
  | @block t w k ht hp hv =>
      -- The predicate was false and nobody has had the mutex since.
      refine put (fun _ => rfl) fun hlambda => ?_
      have hno := hrunning ht (by simp [Wait.saidNo, hp])
      rw [Code.data] at hlambda
      rw [hno] at hlambda
      cases hlambda
  | refuse ht => exact put (fun _ => rfl) (codeTold_resumed _ _ _ _)
  | spurious | expire => exact put (fun _ => rfl) trivial
  | @relock t cv rc c ht hm =>
      have hok := hs.frames t
      rw [ht] at hok
      obtain ⟨w, k, rfl, -, -, -⟩ := hok
      exact put (fun _ => rfl) (codeTold_resumed _ _ _ _)
  | work => exact put (fun _ => rfl) trivial
  | @notifyOne cv W hW hne =>
      refine told_wake hs (hstill fun cv' htells => ?_)
      obtain ⟨-, hall⟩ := of_decide_eq_true htells
      exact hall
  | @notifyAll cv =>
      refine told_wake hs (hstill fun cv' htells => ?_)
      obtain rfl : cv = cv' := of_decide_eq_true htells
      exact Finset.Subset.refl _
  | leave => exact put (fun _ => rfl) trivial
  | tick => exact fun t => by rw [due_of_not_tells fun _ => rfl]; exact hs.told t

/-- Every notification that a modification calls for is due. -/
def Sound (lambda : Cv → K → σ → Bool) (enables : Cv → σ → σ → Bool) : Prop :=
  ∀ cv k v v', lambda cv k v = false → lambda cv k v' = true → enables cv v v' = true

/-- **The step lemma.** -/
theorem step_told (hsound : Sound lambda enables) {s s' : Shared Tid Cv K σ}
    {e : SharedEvent Tid Cv K σ} (hs : s.Told lambda) (h : step lambda enables s e = some s') :
    s'.Told lambda := by
  cases e with
  | cvs e =>
      simp only [step] at h
      split_ifs at h with he
      obtain ⟨c, hc, rfl⟩ := Option.map_eq_some_iff.mp h
      exact ⟨step_excl hs.excl hc, step_frameOk hs.frames hc, told_cvs hs he hc⟩
  | modify t v k =>
      obtain ⟨c, hc, rfl⟩ := Option.map_eq_some_iff.mp h
      refine ⟨step_excl hs.excl hc, step_frameOk hs.frames hc, fun u => ?_⟩
      cases step_trans hc with
      | @work _ c _ ht hclient =>
          show FrameTold lambda v (fun cv => s.due cv || enables cv s.value v)
            (Function.update s.cvs.mon.frame t (.running (.client k)) u)
          by_cases hu : u = t
          · subst hu
            rw [Function.update_self]
            trivial
          · rw [Function.update_of_ne hu]
            have htold := hs.told u
            cases hf : s.cvs.mon.frame u with
            | running c' => exact absurd (hs.excl.eq_of_running hf ht) hu
            | blocked cv a c' =>
                rw [hf] at htold
                intro hlambda
                rw [Bool.or_eq_true]
                -- The predicate has held before, or the modification has made it true.
                cases hbefore : lambda cv c'.data s.value with
                | true => exact .inl (htold hbefore)
                | false => exact .inr (hsound cv c'.data s.value v hbefore hlambda)
            | outside | locking _ | woken _ _ _ => trivial

/-- **The run lemma.** -/
theorem run_told (hsound : Sound lambda enables) {s s' : Shared Tid Cv K σ}
    {es : List (SharedEvent Tid Cv K σ)} (hs : s.Told lambda)
    (h : run (step lambda enables) s es = some s') : s'.Told lambda :=
  run_invariant_of_step (fun _ _ _ hi hs => step_told hsound hi hs) hs h

/-! ## What the waits return -/

omit [DecidableEq Tid] [Fintype Tid] [DecidableEq Cv] in
theorem tested_returned {w : Wait Cv} {status : CvStatus} {b b' : Bool} {k k' : K}
    (h : w.tested status b k = .returned (.ok b') k') : b' = b ∧ k' = k := by
  unfold Wait.tested at h
  cases b with
  | true =>
      simp only [if_true, Code.returned.injEq, Except.ok.injEq] at h
      exact ⟨h.1.symm, h.2.symm⟩
  | false =>
      rcases w with ⟨_ | _ | _, delay, point⟩ <;> cases status <;>
        simp only [Bool.false_eq_true, if_false, reduceCtorEq, Code.returned.injEq,
          Except.ok.injEq] at h
      exact ⟨h.1.symm, h.2.symm⟩

omit [DecidableEq Tid] [Fintype Tid] [DecidableEq Cv] in
/-- Only the loop without a lambda ends right after a wait. -/
theorem resumed_returned {w : Wait Cv} {rc : Int} {b : Bool} {k k' : K}
    (h : w.resumed rc k = .returned (.ok b) k') : k' = k ∧ b = false ∧ w.isRetry = true := by
  unfold Wait.resumed at h
  rcases w with ⟨_ | _ | _, delay, point⟩
  · cases h
  · cases hrc : timedwaitStatus rc with
    | ok status => simp [hrc] at h
    | error e => simp [hrc] at h
  · rcases hrc : timedwaitStatus rc with e | _ | _
    · simp [hrc] at h
    · simp [hrc] at h
    · simp only [hrc, Code.returned.injEq, Except.ok.injEq] at h
      exact ⟨h.2.symm, h.1.symm, rfl⟩

/-- A step in which a wait of `t` ends is a step of `t`. -/
theorem cvs_returned {s : CondVars Tid Cv K} {c : CondVars Tid Cv K} {e : CondVars.Event Tid Cv K}
    (h : CondVars.step s e = some c) {t : Tid} {w : Wait Cv} {k k' : K} {b : Bool}
    (ht : (s.mon.frame t).data = some (.waiting w k))
    (hc : c.mon.frame t = .running (.returned (.ok b) k')) :
    k' = k ∧ (e = .test t b ∧ s.mon.frame t = .running (.waiting w k) ∨
      b = false ∧ w.isRetry = true) := by
  -- Nothing has happened to `t`.
  have hsame : ∀ {f : Frame Cv (Code Cv K)}, f = s.mon.frame t →
      f = .running (.returned (.ok b) k') → False := by
    rintro f rfl hf
    rw [hf] at ht
    cases ht
  have hput : ∀ {u : Tid} {f : Frame Cv (Code Cv K)},
      Function.update s.mon.frame u f t = .running (.returned (.ok b) k') →
      u = t ∧ f = .running (.returned (.ok b) k') := by
    intro u f hf
    by_cases hu : t = u
    · subst hu
      rw [Function.update_self] at hf
      exact ⟨rfl, hf⟩
    · rw [Function.update_of_ne hu] at hf
      exact (hsame rfl hf).elim
  have hwake : ∀ {W : Finset Tid},
      (s.mon.wake W).frame t = .running (.returned (.ok b) k') → False := by
    intro W hf
    by_cases hW : t ∈ W
    · rw [Monitor.wake_frame_of_mem hW] at hf
      cases hft : s.mon.frame t with
      | running c' =>
          rw [hft] at hf
          exact hsame hft.symm hf
      | outside | locking _ | blocked _ _ _ | woken _ _ _ =>
          rw [hft] at hf
          cases hf
    · rw [Monitor.wake_frame_of_notMem hW] at hf
      exact hsame rfl hf
  -- Where `t` has been inside its wait, it was there with `w` and `k`.
  have hdata : ∀ {f : Frame Cv (Code Cv K)} {c' : Code Cv K}, s.mon.frame t = f →
      f.data = some c' → c' = .waiting w k := by
    intro f c' hf hc'
    rw [hf, hc'] at ht
    exact Option.some.inj ht
  cases step_trans h with
  | call => cases (hput hc).2
  | lock hu hm =>
      obtain ⟨rfl, hf⟩ := hput hc
      obtain rfl := Frame.running.inj hf
      cases hdata hu rfl
  | start => cases (hput hc).2
  | arm => cases (hput hc).2
  | armFail => cases (hput hc).2
  | armSkip => cases (hput hc).2
  | test hu hp =>
      obtain ⟨rfl, hf⟩ := hput hc
      obtain ⟨rfl, rfl⟩ := Code.waiting.inj (hdata hu rfl)
      obtain ⟨rfl, rfl⟩ := tested_returned (Frame.running.inj hf)
      exact ⟨rfl, .inl ⟨rfl, hu⟩⟩
  | block => cases (hput hc).2
  | refuse hu =>
      obtain ⟨rfl, hf⟩ := hput hc
      obtain ⟨rfl, rfl⟩ := Code.waiting.inj (hdata hu rfl)
      obtain ⟨hk, hb⟩ := resumed_returned (Frame.running.inj hf)
      exact ⟨hk, .inr hb⟩
  | spurious => cases (hput hc).2
  | expire => cases (hput hc).2
  | relock hu hm =>
      obtain ⟨rfl, hf⟩ := hput hc
      obtain rfl := hdata hu rfl
      obtain ⟨hk, hb⟩ := resumed_returned (Frame.running.inj hf)
      exact ⟨hk, .inr hb⟩
  | work => cases (hput hc).2
  | notifyOne => exact (hwake hc).elim
  | notifyAll => exact (hwake hc).elim
  | leave => cases (hput hc).2
  | tick => exact (hsame rfl hc).elim

omit [DecidableEq Tid] [Fintype Tid] [DecidableEq Cv] in
/-- Nobody waits for what is so already, once nothing is due. -/
theorem Told.at_rest {s : Shared Tid Cv K σ} (hs : s.Told lambda) (hrest : s.cvs.mon.Quiescent)
    (hdue : ∀ cv, s.due cv = false) (t : Tid) :
    s.cvs.mon.frame t = .outside ∨ ∃ w a k,
      s.cvs.mon.frame t = .blocked w.call.cv a (.waiting w k) ∧
        lambda w.call.cv k s.value = false := by
  have hatRest := hrest t
  have hok := hs.frames t
  have htold := hs.told t
  cases hf : s.cvs.mon.frame t with
  | outside => exact .inl rfl
  | blocked cv a c =>
      rw [hf] at hok htold
      obtain ⟨w, k, rfl, rfl, -, -⟩ := hok
      refine .inr ⟨w, a, k, rfl, ?_⟩
      rw [← Bool.not_eq_true]
      intro hlambda
      have htrue := htold hlambda
      rw [hdue] at htrue
      cases htrue
  | locking _ | running _ | woken _ _ _ =>
      rw [hf] at hatRest
      cases hatRest

/-- What a wait that returns tells its caller. -/
structure Tells (lambda : Cv → K → σ → Bool) (s s' : Shared Tid Cv K σ) (t : Tid) (w : Wait Cv)
    (k : K) (b : Bool) (k' : K) : Prop where
  data : k' = k
  /-- Its thread has the mutex, and nobody has changed the value in this step. -/
  owner : s'.cvs.mon.mutex = some t
  value : s'.value = s.value
  holds : b = true → lambda w.call.cv k s'.value = true
  fails : b = false → w.isRetry = false → lambda w.call.cv k s'.value = false

theorem step_returned {s s' : Shared Tid Cv K σ} {e : SharedEvent Tid Cv K σ}
    (hs : s.Told lambda) (h : step lambda enables s e = some s') {t : Tid} {w : Wait Cv} {k k' : K}
    {b : Bool} (ht : (s.cvs.mon.frame t).data = some (.waiting w k))
    (ht' : s'.cvs.mon.frame t = .running (.returned (.ok b) k')) :
    Tells lambda s s' t w k b k' := by
  cases e with
  | cvs e =>
      simp only [step] at h
      split_ifs at h with he
      obtain ⟨c, hc, rfl⟩ := Option.map_eq_some_iff.mp h
      have howner := (step_excl hs.excl hc t).mp (by rw [ht']; rfl)
      obtain ⟨hk, hret⟩ := cvs_returned hc ht ht'
      refine ⟨hk, howner, rfl, ?_, ?_⟩
      · rintro rfl
        rcases hret with ⟨rfl, hf⟩ | ⟨hb, -⟩
        · exact (evaluates_test hf he).symm
        · cases hb
      · rintro rfl hretry
        rcases hret with ⟨rfl, hf⟩ | ⟨-, htrue⟩
        · exact (evaluates_test hf he).symm
        · rw [hretry] at htrue
          cases htrue
  | modify u v l =>
      -- The thread that modifies the value has left its waits, and is the only one that moves.
      obtain ⟨c, hc, rfl⟩ := Option.map_eq_some_iff.mp h
      cases step_trans hc with
      | work hu hclient =>
          by_cases htu : t = u
          · subst htu
            simp only [CondVars.put, Monitor.put_self] at ht'
            cases ht'
          · simp only [CondVars.put, Monitor.put_ne _ _ htu] at ht'
            rw [ht'] at ht
            cases ht

/-- **The contract of the condition variables**, for any number of threads that keep their part of
it, whatever order they run in. No thread is blocked while the predicate it waits for holds, unless
a notification is still due. When all notifications have been made and nobody has anything left to
do, the threads inside wait for predicates that do not hold. A wait that returns `true` returns to a
thread that has the mutex, and the predicate holds then; when it returns `false` the predicate does
not hold, except in the loop without a lambda, which has not looked at it. -/
theorem waiters_see_changes (lambda : Cv → K → σ → Bool) (enables : Cv → σ → σ → Bool)
    (hsound : Sound lambda enables) {now : Timeval} {timeout : Cv → Timespec} {v : σ}
    {es : List (SharedEvent Tid Cv K σ)} {s : Shared Tid Cv K σ}
    (h : run (step lambda enables) (init now timeout v) es = some s) :
    (∀ t cv a c, s.cvs.mon.frame t = .blocked cv a c → lambda cv c.data s.value = true →
      s.due cv = true) ∧
    (s.cvs.mon.Quiescent → (∀ cv, s.due cv = false) → ∀ t,
      s.cvs.mon.frame t = .outside ∨ ∃ w a k,
        s.cvs.mon.frame t = .blocked w.call.cv a (.waiting w k) ∧
          lambda w.call.cv k s.value = false) ∧
    ∀ e s' t w k b k', step lambda enables s e = some s' →
      (s.cvs.mon.frame t).data = some (.waiting w k) →
      s'.cvs.mon.frame t = .running (.returned (.ok b) k') → Tells lambda s s' t w k b k' := by
  have hs : s.Told lambda := run_told hsound (told_init now timeout v) h
  refine ⟨fun t cv a c hf => ?_, hs.at_rest, fun e s' t w k b k' hstep => step_returned hs hstep⟩
  have htold := hs.told t
  rw [hf] at htold
  exact htold

/-! A latch that counts up: the threads wait until it has reached their number. -/

/-- One thread waits for `2`, the other one counts to `2` and is gone; its notification is due. -/
def latchRun : List (SharedEvent Bool Unit Nat Nat) :=
  [.cvs (.call false 2), .cvs (.lock false), .cvs (.start false (.wait ())),
    .cvs (.test false false), .cvs (.block false), .cvs (.call true 0), .cvs (.lock true),
    .modify true 2 0, .cvs (.leave true)]

def latchStep : Shared Bool Unit Nat Nat → SharedEvent Bool Unit Nat Nat →
    Option (Shared Bool Unit Nat Nat) :=
  step (fun _ k v => decide (k ≤ v)) fun _ v v' => decide (v < v')

def latchInit : Shared Bool Unit Nat Nat :=
  init Timeval.zero (fun _ => ⟨0, 0⟩) 0

theorem latchRun_runs : (run latchStep latchInit latchRun).isSome = true := by decide

theorem latch_sound : Sound (fun (_ : Unit) k v => decide (k ≤ v)) fun _ (v v' : Nat) =>
    decide (v < v') := by
  intro _ k v v' hbefore hafter
  rw [decide_eq_false_iff_not] at hbefore
  rw [decide_eq_true_eq] at hafter ⊢
  omega

theorem waiters_see_changes_latch :
    ∃ s, run latchStep latchInit latchRun = some s ∧
      s.cvs.mon.frame false = .blocked () none (.waiting ⟨.wait (), 0, .block⟩ 2) ∧
      s.due () = true := by
  have hrun := (Option.some_get latchRun_runs).symm
  refine ⟨_, hrun, by decide, ?_⟩
  have hblocked := (waiters_see_changes _ _ latch_sound hrun).1 false () none
    (.waiting ⟨.wait (), 0, .block⟩ 2)
  exact hblocked (by decide) (by decide)

end Shared

end CppPthread
