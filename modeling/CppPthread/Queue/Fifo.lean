import CppPthread.Basic.Fifo
import CppPthread.Queue.Steps

set_option autoImplicit false

/-! # Nothing is lost, duplicated or reordered

What can be seen of the operations is written to a log: the values they copy out, remove and
store, and how they end. The items of the queue are a first-in first-out list driven by the
removals and the stores (`step_fifo`), so over every run what was removed, followed by what is
left, is what was stored.

What a single call adds to the log is determined by how it ends (`CallLog`): that is an
invariant of the thread, which says for each place in the operation what it has written so far
(`Wrote`).
-/

namespace CppPthread

open Posix Run

/-- An observation. -/
inductive Obs (T : Type) where
  /-- `item = _items.front()` -/
  | wrote (x : T)
  /-- `_items.pop_front()` -/
  | removed (x : T)
  /-- `_items.push_back(item)` -/
  | stored (x : T)
  | ended (o : Outcome)
  deriving DecidableEq

namespace Obs

variable {Tid T : Type}

def removed? : Obs T → Option T
  | removed x => some x
  | _ => none

def stored? : Obs T → Option T
  | stored x => some x
  | _ => none

/-- The operation of the list of items. -/
def fifoOp : Obs T → Option (Fifo.Op T)
  | removed _ => some .deq
  | stored x => some (.enq x)
  | _ => none

/-- The items removed, in the order of their `pop_front`. -/
def removedItems (log : List (Tid × Obs T)) : List T := log.filterMap fun o => o.2.removed?

/-- The items stored, in the order of their `push_back`. -/
def storedItems (log : List (Tid × Obs T)) : List T := log.filterMap fun o => o.2.stored?

/-- The observations of one thread. -/
def own [DecidableEq Tid] (t : Tid) (log : List (Tid × Obs T)) : List (Obs T) :=
  log.filterMap fun o => if o.1 = t then some o.2 else none

end Obs

namespace SyncQueue

variable {Tid T : Type}

def observe (q : SyncQueue Tid T) : Event Tid T → List (Tid × Obs T)
  | .copy t true => q.items.head?.toList.map fun x => (t, .wrote x)
  | .pop t => q.items.head?.toList.map fun x => (t, .removed x)
  | .push t true =>
      match q.frame t with
      | .running (.returned _ k) => k.op.item?.toList.map fun x => (t, .stored x)
      | _ => []
  | .leave t =>
      match q.frame t with
      | .running (.client ⟨_, .leave o⟩) => [(t, .ended o)]
      | .running (.returned (.error e) _) => [(t, .ended (.failed e))]
      | _ => []
  | _ => []

variable [DecidableEq Tid] [Fintype Tid]

/-- What the run shows. -/
def log (q : SyncQueue Tid T) (es : List (Event Tid T)) : List (Tid × Obs T) :=
  trace step observe q es

/-! ## The items are a first-in first-out list -/

/-- The operations of the list of items that an event makes. -/
def fifoOps (q : SyncQueue Tid T) (e : Event Tid T) : List (Fifo.Op T) :=
  (q.observe e).filterMap fun o => o.2.fifoOp

theorem step_fifo {q q' : SyncQueue Tid T} {e : Event Tid T} (hq : q.Ok)
    (h : step q e = some q') : run Fifo.step q.items (q.fifoOps e) = some q'.items := by
  cases step_trans hq h with
  | copy ht hop hx => simp [fifoOps, observe, hx, Obs.fifoOp]
  | pop ht hx => simp [fifoOps, observe, hx, Obs.fifoOp, Fifo.step]
  | push ht hop => simp [fifoOps, observe, ht, hop, Obs.fifoOp, Fifo.step]
  | leave ht => simp [fifoOps, observe, ht, Obs.fifoOp]
  | unwind ht => simp [fifoOps, observe, ht, Obs.fifoOp]
  | _ => rfl

/-- The values that a step removes are the ones that the list gives out. -/
theorem step_removed {q q' : SyncQueue Tid T} {e : Event Tid T} (hq : q.Ok)
    (h : step q e = some q') : (q.observe e).filterMap (fun o => o.2.removed?)
      = trace Fifo.step Fifo.output q.items (q.fifoOps e) := by
  cases step_trans hq h with
  | copy ht hop hx => simp [fifoOps, observe, hx, Obs.fifoOp, Obs.removed?, trace]
  | pop ht hx =>
      simp [fifoOps, observe, hx, Obs.fifoOp, Obs.removed?, trace, Fifo.step, Fifo.output]
  | push ht hop =>
      simp [fifoOps, observe, ht, hop, Obs.fifoOp, Obs.removed?, trace, Fifo.step, Fifo.output]
  | leave ht => simp [fifoOps, observe, ht, Obs.fifoOp, Obs.removed?, trace]
  | unwind ht => simp [fifoOps, observe, ht, Obs.fifoOp, Obs.removed?, trace]
  | _ => rfl

/-- **Conservation.** -/
theorem run_conservation {q q' : SyncQueue Tid T} {es : List (Event Tid T)} (hq : q.Ok)
    (h : run step q es = some q') :
    q.items ++ Obs.storedItems (q.log es) = Obs.removedItems (q.log es) ++ q'.items := by
  have hok : ∀ (q : SyncQueue Tid T) e q', q.Ok → step q e = some q' → q'.Ok :=
    fun _ _ _ hi hs => step_ok hi hs
  have hfifo : run Fifo.step q.items (trace step fifoOps q es) = some q'.items :=
    run_simulation hok (fun _ _ _ hi hs => step_fifo hi hs) hq h
  have hcons := Fifo.conservation hfifo
  -- What the list gives out is what the log shows as removed.
  rw [← trace_simulation hok (fun _ _ _ hi hs => step_fifo hi hs)
    (fun _ _ _ hi hs => step_removed hi hs) hq h] at hcons
  rw [Obs.storedItems, Obs.removedItems, log, filterMap_trace, filterMap_trace, ← hcons,
    filterMap_trace]
  congr 2
  funext q e
  rw [fifoOps, List.filterMap_filterMap]
  congr 1
  funext o
  cases o.2 <;> rfl

/-! ## What one call writes to the log -/

/-- What a call of `op` that ends with `o` has written to the log before its end. -/
def Records (op : Op T) (o : Outcome) (l : List (Obs T)) : Prop :=
  match o with
  | .returned =>
      match op.item? with
      | some x => l = [.stored x]
      | none => ∃ x, l = [.wrote x, .removed x]
  | .threw e => e = op.timedOut ∧ l = []
  | .failed _ => l = []
  | .copyThrew => l = []

/-- What a call of `op` writes to the log from its beginning to its end. -/
def CallLog (op : Op T) (l : List (Obs T)) : Prop :=
  ∃ o l', Records op o l' ∧ l = l' ++ [.ended o]

/-- What a thread inside a call of `op` has written to the log so far. -/
def Wrote (op : Op T) (l : List (Obs T)) (items : List T) :
    Frame QueueCv (Code QueueCv (Local T)) → Prop
  | .outside => CallLog op l
  | .locking c => c = .client ⟨op, .enter⟩ ∧ l = []
  | .running (.client ⟨op', .enter⟩) => op' = op ∧ l = []
  | .running (.client ⟨op', .pop⟩) =>
      op' = op ∧ op.item? = none ∧ ∃ x xs, l = [.wrote x] ∧ items = x :: xs
  | .running (.client ⟨op', .notify⟩) => op' = op ∧ Records op .returned l
  | .running (.client ⟨op', .leave o⟩) => op' = op ∧ Records op o l
  | .running (.waiting _ k) => k.op = op ∧ l = []
  | .running (.returned _ k) => k.op = op ∧ l = []
  | .blocked _ _ c => c.data.op = op ∧ l = []
  | .woken _ _ c => c.data.op = op ∧ l = []

omit [Fintype Tid] in
theorem own_observe_ne {q : SyncQueue Tid T} {e : Event Tid T} {t : Tid}
    (he : e.thread ≠ some t) : Obs.own t (q.observe e) = [] := by
  have hne : ∀ u, some u ≠ some t → u ≠ t := fun u hu h => hu (congrArg some h)
  cases e with
  | copy u ok =>
      cases ok <;> simp [observe, Obs.own, hne u he]
  | pop u => simp [observe, Obs.own, hne u he]
  | push u ok =>
      cases ok with
      | false => rfl
      | true =>
          simp only [observe]
          split <;> simp [Obs.own, hne u he]
  | leave u =>
      simp only [observe]
      split <;> simp [Obs.own, hne u he]
  | _ => rfl

/-- The steps of the other threads. -/
theorem step_wrote_ne {q q' : SyncQueue Tid T} {e : Event Tid T} {op : Op T} {l : List (Obs T)}
    {t : Tid} (hq : q.Ok) (h : step q e = some q') (he : e.thread ≠ some t)
    (hw : Wrote op l q.items (q.frame t)) : Wrote op l q'.items (q'.frame t) := by
  cases hf : q.frame t with
  | running c =>
      rw [(step_running_ne hq h he).mpr hf, step_items_ne hq h he hf, ← hf]
      exact hw
  | _ =>
      rw [hf] at hw
      rcases step_frame_ne hq h he with hf' | hf' <;> rw [hf', hf] <;> exact hw

/-- The steps of the thread itself. -/
theorem step_wrote_self {q q' : SyncQueue Tid T} {e : Event Tid T} {op : Op T}
    {l : List (Obs T)} {t : Tid} (hq : q.Ok) (h : step q e = some q') (he : e.thread = some t)
    (hin : q.frame t ≠ .outside) (hw : Wrote op l q.items (q.frame t)) :
    Wrote op (l ++ Obs.own t (q.observe e)) q'.items (q'.frame t) := by
  -- Until the wait is over nothing has been written, and nothing is.
  have quiet : ∀ {u : Tid} {f g : Frame QueueCv (Code QueueCv (Local T))}, some u = some t →
      q.frame u = f → q'.frame u = g → (Wrote op l q.items f → Wrote op l q'.items g) →
      Obs.own t (q.observe e) = [] →
      Wrote op (l ++ Obs.own t (q.observe e)) q'.items (q'.frame t) := by
    intro u f g hu hf hg hfg hobs
    obtain rfl := Option.some.inj hu
    rw [hobs, List.append_nil, hg]
    exact hfg (hf ▸ hw)
  cases step_trans hq h with
  | call ht =>
      cases he
      exact absurd ht hin
  | lock ht =>
      refine quiet he ht (take_frame_self ..) ?_ rfl
      rintro ⟨hk, hl⟩
      cases hk
      exact ⟨rfl, hl⟩
  | start ht => exact quiet he ht (put_frame_self ..) id rfl
  | arm ht => exact quiet he ht (put_frame_self ..) id rfl
  | armFail ht => exact quiet he ht (put_frame_self ..) id rfl
  | testTrue ht => exact quiet he ht (put_frame_self ..) id rfl
  | testBlock ht => exact quiet he ht (put_frame_self ..) id rfl
  | testFalse ht => exact quiet he ht (put_frame_self ..) id rfl
  | block ht => exact quiet he ht (release_frame_self ..) id rfl
  | refuse ht => exact quiet he ht (put_frame_self ..) id rfl
  | spurious ht => exact quiet he ht (put_frame_self ..) id rfl
  | expire ht => exact quiet he ht (put_frame_self ..) id rfl
  | relock ht => exact quiet he ht (take_frame_self ..) id rfl
  | copy ht hop hx =>
      cases he
      rw [ht] at hw
      obtain ⟨rfl, rfl⟩ := hw
      simp [Wrote, observe, Obs.own, hop, hx]
  | copyThrow ht =>
      cases he
      rw [ht] at hw
      obtain ⟨rfl, rfl⟩ := hw
      simp [Wrote, Records, observe, Obs.own]
  | pop ht hx =>
      cases he
      rw [ht] at hw
      obtain ⟨rfl, hop, x, xs, rfl, hx'⟩ := hw
      obtain ⟨rfl, rfl⟩ := List.cons.inj (hx.symm.trans hx')
      simp [Wrote, Records, observe, Obs.own, hop, hx]
  | push ht hop =>
      cases he
      rw [ht] at hw
      obtain ⟨rfl, rfl⟩ := hw
      simp [Wrote, Records, observe, Obs.own, ht, hop]
  | pushThrow ht =>
      cases he
      rw [ht] at hw
      obtain ⟨rfl, rfl⟩ := hw
      simp [Wrote, Records, observe, Obs.own]
  | notifyOne ht =>
      cases he
      rw [ht] at hw
      obtain ⟨rfl, hrec⟩ := hw
      simpa [Wrote, observe, Obs.own] using hrec
  | notifyAll ht =>
      cases he
      rw [ht] at hw
      obtain ⟨rfl, rfl⟩ := hw
      simp [Wrote, Records, observe, Obs.own]
  | @leave u op' o ht =>
      cases he
      rw [ht] at hw
      obtain ⟨rfl, hrec⟩ := hw
      simpa [Wrote, observe, Obs.own, ht] using ⟨o, l, hrec, rfl⟩
  | @unwind u ex k ht =>
      cases he
      rw [ht] at hw
      obtain ⟨rfl, rfl⟩ := hw
      simpa [Wrote, observe, Obs.own, ht] using ⟨.failed ex, [], rfl, rfl⟩
  | setMaxSize => cases he
  | tick => cases he

/-- **The step lemma.** -/
theorem step_wrote {q q' : SyncQueue Tid T} {e : Event Tid T} {op : Op T} {l : List (Obs T)}
    {t : Tid} (hq : q.Ok) (h : step q e = some q') (hin : q.frame t ≠ .outside)
    (hw : Wrote op l q.items (q.frame t)) :
    Wrote op (l ++ Obs.own t (q.observe e)) q'.items (q'.frame t) := by
  by_cases he : e.thread = some t
  · exact step_wrote_self hq h he hin hw
  · rw [own_observe_ne he, List.append_nil]
    exact step_wrote_ne hq h he hw

/-- A thread is inside until it leaves. -/
theorem step_inside {q q' : SyncQueue Tid T} {e : Event Tid T} {t : Tid} (hq : q.Ok)
    (h : step q e = some q') (hin : q.frame t ≠ .outside) (he : e ≠ .leave t) :
    q'.frame t ≠ .outside := by
  by_cases ht : e.thread = some t
  · cases step_trans hq h with
    | leave => exact absurd (congrArg Event.leave (Option.some.inj ht)) he
    | unwind => exact absurd (congrArg Event.leave (Option.some.inj ht)) he
    | setMaxSize => exact hin
    | tick => exact hin
    | _ =>
        cases ht
        simp
  · rcases step_frame_ne hq h ht with hf | hf <;> rw [hf]
    · exact hin
    · cases hf' : q.frame t with
      | outside => exact absurd hf' hin
      | _ => simp [Frame.unblock]

omit [Fintype Tid] in
@[simp] theorem own_nil (t : Tid) : Obs.own t ([] : List (Tid × Obs T)) = [] := rfl

omit [Fintype Tid] in
theorem own_append (t : Tid) (l l' : List (Tid × Obs T)) :
    Obs.own t (l ++ l') = Obs.own t l ++ Obs.own t l' := List.filterMap_append ..

/-- **The run lemma.** While the thread has not left, it has written what its place in the
operation says. -/
theorem run_wrote {q q' : SyncQueue Tid T} {es : List (Event Tid T)} {op : Op T} {t : Tid}
    (hq : q.Ok) (hin : q.frame t ≠ .outside) (hw : Wrote op [] q.items (q.frame t))
    (hleave : .leave t ∉ es) (h : run step q es = some q') :
    q'.frame t ≠ .outside ∧ Wrote op (Obs.own t (q.log es)) q'.items (q'.frame t) := by
  refine run_history (P := fun es m => .leave t ∉ es → m.frame t ≠ .outside ∧
    Wrote op (Obs.own t (q.log es)) m.items (m.frame t)) ?_ ?_ h hleave
  · exact fun _ => ⟨hin, hw⟩
  intro es m e m' hrun ih hm hne
  rw [List.mem_append, List.mem_singleton, not_or] at hne
  obtain ⟨hin', hw'⟩ := ih hne.1
  have hok := run_ok hq hrun
  rw [log, trace_snoc e hrun, own_append]
  exact ⟨step_inside hok hm hin' (Ne.symm hne.2), step_wrote hok hm hin' hw'⟩

/-- What a thread has written to the log since it called an operation that it has not left. -/
theorem call_wrote {q q' : SyncQueue Tid T} {es : List (Event Tid T)} {op : Op T} {t : Tid}
    (hq : q.Ok) (hleave : .leave t ∉ es) (h : run step q (.call t op :: es) = some q') :
    q'.frame t ≠ .outside ∧
      Wrote op (Obs.own t (q.log (.call t op :: es))) q'.items (q'.frame t) := by
  obtain ⟨m, hcall, hes⟩ := run_cons.mp h
  have hbegin : m.frame t = .locking (.client ⟨op, .enter⟩) := by
    cases step_trans hq hcall
    simp
  have hlog : q.log (.call t op :: es) = m.log es := by simp [log, trace, hcall, observe]
  rw [hlog]
  refine run_wrote (step_ok hq hcall) ?_ ?_ hleave hes
  · simp [hbegin]
  · rw [hbegin]
    exact ⟨rfl, rfl⟩

/-- What a thread writes to the log between the begin of a call and its end. -/
theorem call_log {q q' : SyncQueue Tid T} {es : List (Event Tid T)} {op : Op T} {t : Tid}
    (hq : q.Ok) (hleave : .leave t ∉ es)
    (h : run step q (.call t op :: es ++ [.leave t]) = some q') :
    CallLog op (Obs.own t (q.log (.call t op :: es ++ [.leave t]))) := by
  obtain ⟨m, hcall, hl⟩ := run_append.mp h
  rw [run_singleton] at hl
  have hm := run_ok hq hcall
  obtain ⟨hin, hw⟩ := call_wrote hq hleave hcall
  have hend := step_wrote hm hl hin hw
  have hout : q'.frame t = .outside := by
    cases step_trans hm hl <;> simp
  rw [hout] at hend
  rw [log, trace_snoc _ hcall, own_append]
  exact hend

/-! ## `front()` is never called on an empty list -/

/-- The thread is between its successful wait and the end of `pop_front()` in a `get`. -/
def needsFront : Frame QueueCv (Code QueueCv (Local T)) → Bool
  | .running (.returned (.ok true) k) => k.op.item?.isNone
  | .running (.client ⟨_, .pop⟩) => true
  | _ => false

def FrontOk (q : SyncQueue Tid T) : Prop :=
  ∀ t, needsFront (q.frame t) = true → q.items ≠ []

theorem step_frontOk {q q' : SyncQueue Tid T} {e : Event Tid T} (hq : q.Ok) (hf : q.FrontOk)
    (h : step q e = some q') : q'.FrontOk := by
  intro t ht
  by_cases he : e.thread = some t
  · cases step_trans hq h with
    | @testTrue u w k status ht' hp hr =>
        cases he
        have hget : k.op.item? = none := by simpa [needsFront] using ht
        cases hop : k.op <;> simp [hop, Op.item?] at hget <;> simpa [hop, ready] using hr
    | copy ht' hop hx => simp [hx]
    | setMaxSize => exact hf t ht
    | tick => exact hf t ht
    | _ =>
        cases he
        simp [needsFront] at ht
  · have hrun : (q'.frame t).isRunning = true := by
      cases hf' : q'.frame t with
      | running c => rfl
      | _ => simp [hf', needsFront] at ht
    obtain ⟨hf', hitems⟩ := step_running_same hq h he hrun
    rw [hitems]
    exact hf t (hf' ▸ ht)

/-! ## The queue as a whole -/

/-- **`sync_queue` loses, duplicates and reorders nothing.** In every run, what was removed
followed by what is left is what was stored; every call that has ended has written to the log
what its end says; and a thread that is about to read or remove the first item finds one. -/
theorem sync_queue_fifo {m : BitVec 32} {now : Timeval} {timeout : QueueCv → Timespec}
    {es : List (Event Tid T)} {q : SyncQueue Tid T}
    (h : run step (construct m now timeout) es = some q) :
    Obs.removedItems ((construct m now timeout).log es) ++ q.items
      = Obs.storedItems ((construct m now timeout).log es) ∧
    (∀ es₁ t op es₂ es₃ q₁, es = es₁ ++ ((.call t op :: es₂ ++ [.leave t]) ++ es₃) →
      .leave t ∉ es₂ → run step (construct m now timeout) es₁ = some q₁ →
      CallLog op (Obs.own t (q₁.log (.call t op :: es₂ ++ [.leave t])))) ∧
    (∀ t, needsFront (q.frame t) = true → q.items ≠ []) := by
  have hok : (construct m now timeout : SyncQueue Tid T).Ok := ok_construct m now timeout
  refine ⟨(run_conservation hok h).symm, ?_, ?_⟩
  · intro es₁ t op es₂ es₃ q₁ hes hleave h₁
    rw [hes] at h
    obtain ⟨m, hm, hrest⟩ := run_append.mp h
    obtain rfl : q₁ = m := Option.some.inj (h₁.symm.trans hm)
    obtain ⟨q₂, hcall, -⟩ := run_append.mp hrest
    exact call_log (run_ok hok h₁) hleave hcall
  · refine (run_invariant_of_step (I := fun q => q.Ok ∧ q.FrontOk) ?_ ⟨hok, ?_⟩ h).2
    · exact fun _ _ _ hi hs => ⟨step_ok hi.1 hs, step_frontOk hi.1 hi.2 hs⟩
    · exact fun t ht => by cases ht

theorem sync_queue_fifo_handover :
    ∃ q, run step (construct 1 Timeval.zero fun _ => ⟨0, 0⟩) handover = some q ∧
      Obs.storedItems ((construct 1 Timeval.zero fun _ => ⟨0, 0⟩).log handover) = [7] ∧
      Obs.removedItems ((construct 1 Timeval.zero fun _ => ⟨0, 0⟩).log handover) ++ q.items
        = Obs.storedItems ((construct 1 Timeval.zero fun _ => ⟨0, 0⟩).log handover) :=
  ⟨_, (Option.some_get handover_runs).symm, by decide,
    (sync_queue_fifo (Option.some_get handover_runs).symm).1⟩

end SyncQueue

end CppPthread
