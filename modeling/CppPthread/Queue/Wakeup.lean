import CppPthread.Basic.Ledger
import CppPthread.Queue.Steps

set_option autoImplicit false

/-! # Wakeups

The waiters of `_not_empty_cv` wait for items and those of `_not_full_cv` for free places: the
`supply` of the variable. A thread is *parked* on a variable when it is blocked on it, or about
to be, and *pending* when it is on its way to take a unit of the supply or to signal the
variable (`parked`, `pending`). The ledger of a variable is covered when, with somebody parked,
every unit of the supply has a pending thread (`Covers`).

Every step of the queue keeps the ledger of each variable covered (`step_covers`), with two
exceptions. A copy that throws takes a pending thread away; it must leave enough of them
(`ThrowOk`). And `set_max_size` changes the supply of free places.
-/

namespace CppPthread

open Posix Run Ledger

namespace SyncQueue

section Roles

variable {Tid T : Type}

/-- The units that the waiters of a condition variable wait for: items, or free places. -/
def supply (q : SyncQueue Tid T) : QueueCv → Nat
  | .notEmpty => q.items.length
  | .notFull => q.capacity - q.items.length

/-- The thread is blocked on `c`, or has decided to block on it. -/
def parked (c : QueueCv) : Frame QueueCv (Code QueueCv (Local T)) → Bool
  | .blocked cv _ _ => decide (cv = c)
  | .running (.waiting w k) => decide (w.point = .block) && decide (k.op.waitsOn = c)
  | _ => false

/-- The thread will test the predicate of `c`, has found it true, or will signal `c`. -/
def pending (c : QueueCv) : Frame QueueCv (Code QueueCv (Local T)) → Bool
  | .woken cv _ _ => decide (cv = c)
  | .running (.waiting ⟨_, _, .test _⟩ k) => decide (k.op.waitsOn = c)
  | .running (.returned (.ok true) k) => decide (k.op.waitsOn = c)
  | .running (.client ⟨op, .pop⟩) => decide (op.waitsOn = c)
  | .running (.client ⟨op, .notify⟩) => decide (op.signals = c)
  | _ => false

theorem ready_iff {q : SyncQueue Tid T} {op : Op T} :
    q.ready op = true ↔ 0 < q.supply op.waitsOn := by
  cases op <;> simp only [ready, supply, Op.waitsOn, Nat.sub_pos_iff_lt, decide_eq_true_eq]
  all_goals cases q.items <;> simp

theorem supply_eq_zero {q : SyncQueue Tid T} {op : Op T} (h : q.ready op = false) :
    q.supply op.waitsOn = 0 := by
  by_contra hne
  rw [ready_iff.mpr (Nat.pos_of_ne_zero hne)] at h
  cases h

theorem pending_waiting (c : QueueCv) (w : Wait QueueCv) (k : Local T) :
    pending c (.running (.waiting w k)) = true ↔
      (∃ status, w.point = .test status) ∧ k.op.waitsOn = c := by
  cases w with
  | mk call delay point => cases point <;> simp [pending]

theorem pending_admitted (c : QueueCv) (k : Local T) :
    pending c (.running (.returned (.ok true) k)) = decide (k.op.waitsOn = c) := rfl

/-- A wakeup makes a thread that was parked on `c` pending. -/
theorem unblock_roles {c : QueueCv} {f : Frame QueueCv (Code QueueCv (Local T))}
    (hf : f.isBlockedOn c = true) :
    pending c f = false ∧ parked c (f.unblock 0) = false ∧ pending c (f.unblock 0) = true := by
  obtain ⟨a, k, rfl⟩ := Frame.isBlockedOn_iff.mp hf
  simp [pending, parked, Frame.unblock]

/-- A wakeup on another variable changes nothing for `c`. -/
theorem unblock_roles_ne {c c' : QueueCv} {f : Frame QueueCv (Code QueueCv (Local T))}
    (hf : f.isBlockedOn c' = true) (hc : c' ≠ c) :
    parked c (f.unblock 0) = parked c f ∧ pending c (f.unblock 0) = pending c f := by
  obtain ⟨a, k, rfl⟩ := Frame.isBlockedOn_iff.mp hf
  simp [pending, parked, Frame.unblock, hc]

end Roles

section Ledgers

variable {Tid T : Type} [DecidableEq Tid] [Fintype Tid]

/-- While somebody is parked on `c`, every unit of its supply has a pending thread. -/
def Covers (c : QueueCv) (q : SyncQueue Tid T) : Prop :=
  Covered (parked c) (pending c) (q.supply c) q.frame

/-- The step is a copy of `T` that throws; the variable is the one that the operation has
waited on. -/
def Event.copyThrows : Event Tid T → Option QueueCv
  | .copy _ false => some .notEmpty
  | .push _ false => some .notFull
  | _ => none

/-- If the step is a copy that throws while somebody is parked on `c`, the threads that stay
pending on `c`, without the one that throws, are enough for its supply. -/
def ThrowOk (c : QueueCv) (q : SyncQueue Tid T) (e : Event Tid T) : Prop :=
  e.copyThrows = some c → 0 < count (parked c) q.frame → q.supply c < count (pending c) q.frame

instance (c : QueueCv) (q : SyncQueue Tid T) (e : Event Tid T) : Decidable (ThrowOk c q e) :=
  inferInstanceAs (Decidable (_ → _ → _))

/-! ## Every step keeps the ledgers covered -/

omit [DecidableEq Tid] in
theorem mem_waiters {q : SyncQueue Tid T} {c : QueueCv} {t : Tid} :
    t ∈ q.cvs.mon.waiters c ↔ (q.frame t).isBlockedOn c = true := by
  simp [Monitor.waiters, frame]

omit [DecidableEq Tid] in
/-- A thread that is parked while another thread runs is blocked. -/
theorem Ok.blocked_of_parked {q : SyncQueue Tid T} (hq : q.Ok) {c : QueueCv} {t u : Tid}
    {k : Code QueueCv (Local T)} (ht : q.frame t = .running k) (hk : parked c (.running k) = false)
    (hu : parked c (q.frame u) = true) : u ∈ q.cvs.mon.waiters c := by
  rw [mem_waiters]
  cases hf : q.frame u with
  | running k' =>
      obtain rfl : t = u := hq.excl.eq_of_running ht hf
      rw [ht, hk] at hu
      cases hu
  | blocked cv a k' => simpa [hf, parked, Frame.isBlockedOn] using hu
  | _ => simp [hf, parked] at hu

/-- The threads of `W` get a wakeup on `c'`. -/
theorem Covers.wake {q : SyncQueue Tid T} {c c' : QueueCv} (h : Covers c q) {W : Finset Tid}
    (hW : W ⊆ q.cvs.mon.waiters c') : Covers c (q.wake W) := by
  have hmem : ∀ u ∈ W, (q.frame u).isBlockedOn c' = true := fun u hu => mem_waiters.mp (hW hu)
  have hin : ∀ u ∈ W, (q.wake W).frame u = (q.frame u).unblock 0 := fun u hu =>
    Monitor.wake_frame_of_mem hu
  have hout : ∀ u, u ∉ W → (q.wake W).frame u = q.frame u := fun u hu =>
    Monitor.wake_frame_of_notMem hu
  by_cases hc : c' = c
  · subst hc
    exact Covered.wake h (fun u hu => by rw [hin u hu]; exact unblock_roles (hmem u hu)) hout
  · refine Covered.congr h (fun u => ?_) fun u => ?_
    · by_cases hu : u ∈ W
      · rw [hin u hu, (unblock_roles_ne (hmem u hu) hc).1]
      · rw [hout u hu]
    · by_cases hu : u ∈ W
      · rw [hin u hu, (unblock_roles_ne (hmem u hu) hc).2]
      · rw [hout u hu]

omit [DecidableEq Tid] in
/-- The supply and the ledger of `c` after the capacity or the clock has changed. -/
theorem Covers.of_frame {q q' : SyncQueue Tid T} {c : QueueCv} (h : Covers c q)
    (hf : q'.frame = q.frame) (hs : q'.supply c = q.supply c) : Covers c q' := by
  unfold Covers
  rw [hf, hs]
  exact h

omit [Fintype Tid] in
theorem wake_frame_running {q : SyncQueue Tid T} {t : Tid} {k : Code QueueCv (Local T)}
    (ht : q.frame t = .running k) (W : Finset Tid) : (q.wake W).frame t = .running k := by
  show (if t ∈ W then (q.frame t).unblock 0 else q.frame t) = _
  rw [ht]
  exact ite_self _

/-- A thread moves, and neither parks nor stops being pending. -/
theorem Covers.move {q : SyncQueue Tid T} {c : QueueCv} (h : Covers c q) {t : Tid}
    {f : Frame QueueCv (Code QueueCv (Local T))}
    (hparked : parked c f = true → parked c (q.frame t) = true)
    (hpending : pending c (q.frame t) = true → pending c f = true) :
    Covered (parked c) (pending c) (q.supply c) (Function.update q.frame t f) := by
  refine Covered.move h hparked (Nat.add_le_add_left ?_ _)
  cases hf : pending c (q.frame t) with
  | false => simp
  | true => simp [hpending hf]

/-- **The step lemma.** A step other than `set_max_size` keeps the ledger covered, if a copy
that throws leaves enough pending threads. -/
theorem step_covers {q q' : SyncQueue Tid T} {e : Event Tid T} {c : QueueCv} (hq : q.Ok)
    (hcap : c = .notFull → ∀ n, e ≠ .setMaxSize n) (hthrow : ThrowOk c q e) (h : Covers c q)
    (hs : step q e = some q') : Covers c q' := by
  cases step_trans hq hs with
  | call ht => exact h.move (by simp [parked]) (by simp [ht, pending])
  | lock ht => exact h.move (by simp [parked]) (by simp [ht, pending])
  | start ht => exact h.move (by simp [parked, Wait.start_ne_block]) (by simp [ht, pending])
  | @arm t w k ht hp => exact h.move (by simp [parked]) (by simp [ht, pending_waiting, hp])
  | armFail ht hp => exact h.move (by simp [parked]) (by simp [ht, pending_waiting, hp])
  | testTrue ht hp =>
      exact h.move (by simp [parked]) (by simp [ht, pending_waiting, pending_admitted])
  | @testBlock t w k status ht hp hr =>
      by_cases hc : k.op.waitsOn = c
      · -- the thread parks, and there is nothing to take
        subst hc
        show Covered _ _ (q.supply _) _
        rw [supply_eq_zero hr]
        exact Covered.zero
      · exact h.move (by simp [parked, hc]) (by simp [ht, pending_waiting, hc])
  | @testFalse t w k ht hp hr =>
      by_cases hc : k.op.waitsOn = c
      · subst hc
        show Covered _ _ (q.supply _) _
        rw [supply_eq_zero hr]
        exact Covered.zero
      · exact h.move (by simp [parked]) (by simp [ht, pending_waiting, hc])
  | block ht hp => exact h.move (by simp [ht, parked, hp]) (by simp [ht, pending_waiting, hp])
  | refuse ht hp => exact h.move (by simp [parked]) (by simp [ht, pending_waiting, hp])
  | spurious ht => exact h.move (by simp [parked]) (by simp [ht, pending])
  | expire ht => exact h.move (by simp [parked]) (by simp [ht, pending])
  | relock ht => exact h.move (by simp [parked]) (by simp [ht, pending])
  | copy ht => exact h.move (by simp [parked]) (by simp [ht, pending])
  | @copyThrow t op pc ht hop =>
      by_cases hc : op.waitsOn = c
      · have hempty : some QueueCv.notEmpty = some c :=
          congrArg some ((Op.waitsOn_eq_notEmpty.mpr hop).symm.trans hc)
        exact Covered.giveUp (hthrow hempty) rfl
      · exact h.move (by simp [parked]) (by simp [ht, pending_admitted, hc])
  | @pop t op x xs ht hx =>
      have hget := Op.waitsOn_eq_notEmpty.mpr
        (hq.code (c := .client ⟨op, .pop⟩) (by rw [ht]; rfl) rfl)
      have hsig : op.signals = .notFull := Op.signals_eq_notFull.mpr hget
      refine Covered.move (i := t) h (by simp [parked]) ?_
      rw [ht]
      cases c with
      | notEmpty => simp [pending, hget, hsig, supply, hx]
      | notFull =>
          simp only [pending, hget, hsig, supply, hx, List.length_cons]
          show q.capacity - _ + _ ≤ _
          simp
          omega
  | @push t op pc x ht hop =>
      have hput : op.waitsOn = .notFull := Op.waitsOn_eq_notFull.mpr ⟨x, hop⟩
      have hsig : op.signals = .notEmpty := Op.signals_eq_notEmpty.mpr hput
      cases c with
      | notEmpty =>
          refine Covered.move (i := t) h (by simp [parked]) ?_
          rw [ht]
          simp [pending, hput, hsig, supply]
      | notFull =>
          have hlen : (q.items ++ [x]).length = q.items.length + 1 := by simp
          by_cases hfull : q.capacity ≤ q.items.length
          · -- more than the capacity is stored when it was lowered after the test
            have hz : q.capacity - (q.items ++ [x]).length = 0 := by omega
            show Covered _ _ (q.capacity - (q.items ++ [x]).length) _
            rw [hz]
            exact Covered.zero
          · refine Covered.move (i := t) h (by simp [parked]) ?_
            rw [ht]
            show q.capacity - (q.items ++ [x]).length + _ ≤ q.capacity - q.items.length + _
            simp only [pending, hput, hsig, hlen, decide_true, Bool.toNat_true]
            omega
  | @pushThrow t op pc x ht hop =>
      by_cases hc : op.waitsOn = c
      · have hfull : some QueueCv.notFull = some c :=
          congrArg some ((Op.waitsOn_eq_notFull.mpr ⟨x, hop⟩).symm.trans hc)
        exact Covered.giveUp (hthrow hfull) rfl
      · exact h.move (by simp [parked]) (by simp [ht, pending_admitted, hc])
  | @notifyOne t op W ht hW hne =>
      by_cases hc : op.signals = c
      · subst hc
        have hsame : ∀ u, u ∉ W → (q.wake W).frame u = q.frame u := fun u hu =>
          Monitor.wake_frame_of_notMem hu
        refine Covered.signal h (W := W) (g := (q.wake W).frame) (fun u hu => ?_) hsame rfl
          fun ⟨u, hu⟩ => hne ⟨u, hq.blocked_of_parked ht rfl hu⟩
        have hin : (q.wake W).frame u = (q.frame u).unblock 0 := Monitor.wake_frame_of_mem hu
        rw [hin]
        exact unblock_roles (mem_waiters.mp (hW hu))
      · refine (h.wake hW).move (by simp [parked]) ?_
        rw [wake_frame_running ht]
        simp [pending, hc]
  | @notifyAll t op pc W ht =>
      refine (h.wake (Finset.Subset.refl (q.cvs.mon.waiters op.signals))).move
        (by simp [parked]) ?_
      rw [wake_frame_running ht]
      simp [pending]
  | leave ht => exact h.move (by simp [parked]) (by simp [ht, pending])
  | unwind ht => exact h.move (by simp [parked]) (by simp [ht, pending])
  | @setMaxSize n =>
      cases c with
      | notEmpty => exact h.of_frame rfl rfl
      | notFull => exact absurd rfl (hcap rfl n)
  | tick => exact h.of_frame rfl rfl

/-! ## No lost wakeup -/

omit [DecidableEq Tid] in
theorem covers_construct (c : QueueCv) (m : BitVec 32) (now : Timeval)
    (timeout : QueueCv → Timespec) : Covers c (construct m now timeout : SyncQueue Tid T) := by
  intro hpos
  obtain ⟨t, ht⟩ := count_pos.mp hpos
  cases ht

theorem along_not_setMaxSize {es : List (Event Tid T)} (he : ∀ n, .setMaxSize n ∉ es)
    (q : SyncQueue Tid T) : Along step (fun _ e => ∀ n, e ≠ .setMaxSize n) q es :=
  along_of_forall (P := fun e : Event Tid T => ∀ n, e ≠ .setMaxSize n)
    fun _ hmem n hn => he n (hn ▸ hmem)

/-- **The run lemma**, for runs in which no copy takes away a thread that is needed. -/
theorem run_covers {q q' : SyncQueue Tid T} {es : List (Event Tid T)} {c : QueueCv} (hq : q.Ok)
    (hcap : c = .notFull → ∀ n, .setMaxSize n ∉ es) (hthrow : Along step (ThrowOk c) q es)
    (h : Covers c q) (hs : run step q es = some q') : Covers c q' := by
  have hset : Along step (fun _ e => c = .notFull → ∀ n, e ≠ .setMaxSize n) q es :=
    along_of_forall (P := fun e : Event Tid T => c = .notFull → ∀ n, e ≠ .setMaxSize n)
      fun e he hc n hn => hcap hc n (hn ▸ he)
  refine (run_invariant (I := fun q => q.Ok ∧ Covers c q) (fun q e q' hi hok hs => ?_) ⟨hq, h⟩
    (hthrow.and hset) hs).2
  exact ⟨step_ok hi.1 hs, step_covers hi.1 hok.2 hok.1 hi.2 hs⟩

omit [DecidableEq Tid] in
/-- When nobody is on the way, a blocked thread means that there is nothing to take. -/
theorem Covers.supply_eq_zero {q : SyncQueue Tid T} {c : QueueCv} (h : Covers c q)
    (hrest : q.cvs.mon.Quiescent) {t : Tid} (ht : (q.frame t).isBlockedOn c = true) :
    q.supply c = 0 := by
  refine Covered.supply_eq_zero h (fun u => ?_) (i := t) ?_
  · have hu : (q.frame u).atRest = true := hrest u
    cases hf : q.frame u <;> simp [hf, Frame.atRest] at hu <;> simp [pending]
  · obtain ⟨a, k, hf⟩ := Frame.isBlockedOn_iff.mp ht
    simp [hf, parked]

omit [DecidableEq Tid] in
theorem Covers.items_eq_nil {q : SyncQueue Tid T} (h : Covers .notEmpty q)
    (hrest : q.cvs.mon.Quiescent) {t : Tid} (ht : (q.frame t).isBlockedOn .notEmpty = true) :
    q.items = [] := List.length_eq_zero_iff.mp (h.supply_eq_zero hrest ht)

omit [DecidableEq Tid] in
theorem Covers.capacity_le {q : SyncQueue Tid T} (h : Covers .notFull q)
    (hrest : q.cvs.mon.Quiescent) {t : Tid} (ht : (q.frame t).isBlockedOn .notFull = true) :
    q.capacity ≤ q.items.length := Nat.sub_eq_zero_iff_le.mp (h.supply_eq_zero hrest ht)

theorem step_maxSizeInt {q q' : SyncQueue Tid T} {e : Event Tid T}
    (he : ∀ n, e ≠ .setMaxSize n) (h : step q e = some q') : q'.maxSizeInt = q.maxSizeInt := by
  obtain ⟨calls, items, cvs, hc, hr, rfl⟩ := (step_eq_some he).mp h
  rfl

theorem run_maxSizeInt {q q' : SyncQueue Tid T} {es : List (Event Tid T)}
    (he : ∀ n, .setMaxSize n ∉ es) (h : run step q es = some q') :
    q'.maxSizeInt = q.maxSizeInt :=
  run_invariant (I := fun q' => q'.maxSizeInt = q.maxSizeInt)
    (C := fun _ e => ∀ n, e ≠ .setMaxSize n)
    (fun _ _ _ hi hne hs => (step_maxSizeInt hne hs).trans hi) rfl
    (along_not_setMaxSize he q) h

/-- The capacity of a queue constructed with a capacity that is not negative. -/
theorem run_capacity {q : SyncQueue Tid T} {m : BitVec 32} {now : Timeval}
    {timeout : QueueCv → Timespec} {es : List (Event Tid T)} (hm : 0 ≤ m.toInt)
    (he : ∀ n, .setMaxSize n ∉ es) (h : run step (construct m now timeout) es = some q) :
    (q.capacity : Int) = m.toInt := by
  have hq : q.maxSizeInt = m := run_maxSizeInt he h
  rw [capacity_of_nonneg (by rw [hq]; exact hm), hq]

/-- **No wakeup is lost** in a queue of fixed capacity whose copies do not throw: when nobody is
on the way, consumers are blocked only in front of an empty queue and producers only in front of
a full one. -/
theorem no_lost_wakeup {m : BitVec 32} (hm : 0 ≤ m.toInt) {now : Timeval}
    {timeout : QueueCv → Timespec} {es : List (Event Tid T)} {q : SyncQueue Tid T}
    (hset : ∀ n, .setMaxSize n ∉ es) (hcopy : ∀ e ∈ es, e.copyThrows = none)
    (h : run step (construct m now timeout) es = some q) (hrest : q.cvs.mon.Quiescent) :
    (∀ t, (q.frame t).isBlockedOn .notEmpty = true → q.items = []) ∧
    (∀ t, (q.frame t).isBlockedOn .notFull = true → m.toInt ≤ q.items.length) := by
  have hcovers : ∀ c, Covers c q := by
    intro c
    have hthrow : Along step (ThrowOk c) (construct m now timeout) es :=
      (along_of_forall hcopy).mono fun q e he hc => by rw [he] at hc; cases hc
    exact run_covers (ok_construct m now timeout) (fun _ => hset) hthrow
      (covers_construct c m now timeout) h
  constructor
  · exact fun t ht => (hcovers _).items_eq_nil hrest ht
  · intro t ht
    rw [← run_capacity hm hset h]
    exact_mod_cast (hcovers _).capacity_le hrest ht

end Ledgers

theorem no_lost_wakeup_handover :
    ∃ q, run step (construct 1 Timeval.zero fun _ => ⟨0, 0⟩) handover = some q ∧
      (q.frame .a).isBlockedOn .notEmpty = true ∧ q.items = [] := by
  refine ⟨_, (Option.some_get handover_runs).symm, by decide, ?_⟩
  exact (no_lost_wakeup (by decide) (by simp [handover]) (by decide)
    (Option.some_get handover_runs).symm (by decide)).1 .a (by decide)

end SyncQueue

end CppPthread
