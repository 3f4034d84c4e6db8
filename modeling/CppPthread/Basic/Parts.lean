import CppPthread.Basic.Run
import CppPthread.Basic.Tokens

set_option autoImplicit false

/-! # Objects made of parts

An object is constructed part by part and destroyed in the reverse order. Each part gets a resource
in its constructor and gives it up in its destructor, also when the destructor throws. When the
constructor of a part throws, the parts before it are destroyed (`constructParts`). A destructor
that throws does not keep the other parts from being destroyed, and its exception leaves at the end;
unless an exception is under way already, which ends the process (`destroyParts`).

In every run every resource has one owner, until it is given up, once (`run_owned`), and objects
are there completely or not at all (`run_whole`).
-/

namespace Parts

open Run Tokens

variable {Obj κ ε : Type}

/-- How the constructors and the destructors of the parts end, by what the system answers. -/
structure Behaviour (κ ε : Type) where
  construct : κ → Int → Option ε
  destroy : κ → Int → Option ε

/-- The resources have serial numbers. -/
structure World (Obj κ : Type) where
  made : Nat
  destroyed : List Nat
  /-- The parts of an object with their resources, the last one first. -/
  parts : Obj → List (κ × Nat)

inductive Ending (ε : Type) where
  | returned
  | threw (e : ε)
  | terminated
  deriving DecidableEq

/-- How a call ends in which these exceptions are thrown, none of them caught. -/
def Ending.of : List ε → Ending ε
  | [] => .returned
  | [e] => .threw e
  | _ => .terminated

variable [DecidableEq Obj]

def World.push (w : World Obj κ) (a : Obj) (k : κ) : World Obj κ :=
  { w with
    made := w.made + 1
    parts := Function.update w.parts a ((k, w.made) :: w.parts a) }

/-- The last part gives up its resource, and `ps` are left. -/
def World.pop (w : World Obj κ) (a : Obj) (s : Nat) (ps : List (κ × Nat)) : World Obj κ :=
  { w with destroyed := w.destroyed ++ [s], parts := Function.update w.parts a ps }

/-- The parts of the object at `a` are destroyed, while the exception `flying` is under way. -/
def destroyParts (b : Behaviour κ ε) (a : Obj) (ans : Nat → Int) :
    List (κ × Nat) → Option ε → World Obj κ → World Obj κ × Ending ε
  | [], flying, w => (w, flying.elim .returned .threw)
  | (k, s) :: ps, flying, w =>
      match b.destroy k (ans s) with
      | none => destroyParts b a ans ps flying (w.pop a s ps)
      | some e =>
          match flying with
          | none => destroyParts b a ans ps (some e) (w.pop a s ps)
          | some _ => (w.pop a s ps, .terminated)

/-- The parts `ks` are constructed at `a`, after those that are there. -/
def constructParts (b : Behaviour κ ε) (a : Obj) (init ans : Nat → Int) :
    List κ → World Obj κ → World Obj κ × Ending ε
  | [], w => (w, .returned)
  | k :: ks, w =>
      match b.construct k (init w.made) with
      | none => constructParts b a init ans ks (w.push a k)
      | some e => destroyParts b a ans (w.parts a) (some e) w

/-! ## Programs -/

structure State (Obj κ : Type) where
  world : World Obj κ
  /-- The objects that are complete, with the kinds of their parts. -/
  objects : Obj → Option (List κ)
  terminated : Bool

/-- The answers of the system are given by the serial number of the resource. -/
inductive Op (Obj κ : Type) where
  | construct (a : Obj) (ks : List κ) (init ans : Nat → Int)
  | destroy (a : Obj) (ans : Nat → Int)

def State.empty : State Obj κ := ⟨⟨0, [], fun _ => []⟩, fun _ => none, false⟩

/-- What a call leaves that constructs or destroys the object at `a`; `o` is what it is to leave
there when it returns. -/
def State.after (s : State Obj κ) (a : Obj) (o : Option (List κ)) :
    World Obj κ × Ending ε → State Obj κ
  | (w, .returned) => ⟨w, Function.update s.objects a o, false⟩
  | (w, .threw _) => ⟨w, Function.update s.objects a none, false⟩
  | (w, .terminated) => ⟨w, s.objects, true⟩

def step (b : Behaviour κ ε) (s : State Obj κ) : Op Obj κ → Option (State Obj κ)
  | .construct a ks init ans =>
      if s.terminated ∨ (s.objects a).isSome then none
      else some (s.after a (some ks) (constructParts b a init ans ks s.world))
  | .destroy a ans =>
      if s.terminated ∨ (s.objects a).isNone then none
      else some (s.after a none (destroyParts b a ans (s.world.parts a) none s.world))

/-! ## Every resource has one owner -/

/-- The resources of an object by position, the first part at `0`. -/
def slots (parts : Obj → List (κ × Nat)) (x : Obj × Nat) : Option Nat :=
  ((parts x.1).reverse[x.2]?).map Prod.snd

/-- Every resource that has been made is in one place in one object, or has been given up once. -/
def World.Owned (w : World Obj κ) : Prop :=
  OneHolder (slots w.parts) (List.range w.made) w.destroyed

omit [DecidableEq Obj] in
theorem slots_length (parts : Obj → List (κ × Nat)) (a : Obj) :
    slots parts (a, (parts a).length) = none := by
  simp [slots]

theorem slots_update {parts : Obj → List (κ × Nat)} {a : Obj} {ps qs : List (κ × Nat)} {n : Nat}
    {o : Option Nat} (ha : parts a = qs) (hn : (ps.reverse[n]?).map Prod.snd = o)
    (hrest : ∀ i, i ≠ n → ps.reverse[i]? = qs.reverse[i]?) :
    slots (Function.update parts a ps) = Function.update (slots parts) (a, n) o := by
  funext x
  rcases x with ⟨b, i⟩
  by_cases hb : b = a
  · subst hb
    by_cases hi : i = n
    · subst hi
      rw [Function.update_self, slots, Function.update_self, hn]
    · rw [Function.update_of_ne (by simp [hi]), slots, Function.update_self, hrest i hi, slots, ha]
  · rw [Function.update_of_ne (by simp [hb]), slots, Function.update_of_ne hb, slots]

theorem owned_push {w : World Obj κ} (hw : w.Owned) (a : Obj) (k : κ) : (w.push a k).Owned := by
  have hslots : slots (Function.update w.parts a ((k, w.made) :: w.parts a))
      = Function.update (slots w.parts) (a, (w.parts a).length) (some w.made) := by
    refine slots_update rfl (by simp) fun i hi => ?_
    rw [List.reverse_cons, List.getElem?_append]
    split_ifs with hlt
    · rfl
    · rw [List.length_reverse] at hlt
      rw [List.getElem?_eq_none (by simp; omega),
        List.getElem?_eq_none (by rw [List.length_reverse]; omega)]
  show OneHolder (slots (Function.update w.parts a ((k, w.made) :: w.parts a)))
    (List.range (w.made + 1)) w.destroyed
  rw [hslots, List.range_succ]
  exact hw.issue (slots_length w.parts a) (by simp)

theorem owned_pop {w : World Obj κ} (hw : w.Owned) {a : Obj} {k : κ} {s : Nat}
    {ps : List (κ × Nat)} (ha : w.parts a = (k, s) :: ps) : (w.pop a s ps).Owned := by
  have hslots : slots (Function.update w.parts a ps)
      = Function.update (slots w.parts) (a, ps.length) none := by
    refine slots_update ha (by simp) fun i hi => ?_
    rw [List.reverse_cons, List.getElem?_append]
    split_ifs with hlt
    · rfl
    · rw [List.length_reverse] at hlt
      rw [List.getElem?_eq_none (by rw [List.length_reverse]; omega),
        List.getElem?_eq_none (by simp; omega)]
  show OneHolder (slots (Function.update w.parts a ps)) _ (w.destroyed ++ [s])
  rw [hslots]
  exact hw.spend (by simp [slots, ha])

variable {b : Behaviour κ ε} {a : Obj}

theorem destroyParts_owned (ans : Nat → Int) {ps : List (κ × Nat)} (flying : Option ε)
    {w : World Obj κ} (hw : w.Owned) (ha : w.parts a = ps) :
    (destroyParts b a ans ps flying w).1.Owned := by
  induction ps generalizing flying w with
  | nil => exact hw
  | cons p ps ih =>
      rcases p with ⟨k, s⟩
      have hpop : (w.pop a s ps).Owned := owned_pop hw ha
      have hleft : (w.pop a s ps).parts a = ps := Function.update_self ..
      rw [destroyParts]
      split
      · exact ih _ hpop hleft
      · split
        · exact ih _ hpop hleft
        · exact hpop

theorem constructParts_owned (init ans : Nat → Int) (ks : List κ) {w : World Obj κ}
    (hw : w.Owned) : (constructParts b a init ans ks w).1.Owned := by
  induction ks generalizing w with
  | nil => exact hw
  | cons k ks ih =>
      rw [constructParts]
      split
      · exact ih (owned_push hw a k)
      · exact destroyParts_owned ans _ hw rfl

/-! ## Objects are complete or not there -/

theorem destroyParts_frame (ans : Nat → Int) (ps : List (κ × Nat)) (flying : Option ε)
    (w : World Obj κ) {c : Obj} (hc : c ≠ a) :
    (destroyParts b a ans ps flying w).1.parts c = w.parts c := by
  induction ps generalizing flying w with
  | nil => rfl
  | cons p ps ih =>
      rcases p with ⟨k, s⟩
      have hpop : (w.pop a s ps).parts c = w.parts c := Function.update_of_ne hc ..
      rw [destroyParts]
      split
      · rw [ih, hpop]
      · split
        · rw [ih, hpop]
        · exact hpop

theorem constructParts_frame (init ans : Nat → Int) (ks : List κ) (w : World Obj κ) {c : Obj}
    (hc : c ≠ a) : (constructParts b a init ans ks w).1.parts c = w.parts c := by
  induction ks generalizing w with
  | nil => rfl
  | cons k ks ih =>
      rw [constructParts]
      split
      · rw [ih]
        exact Function.update_of_ne hc ..
      · exact destroyParts_frame ans _ _ w hc

/-- The exceptions that the destructors of these parts throw. -/
def thrown (b : Behaviour κ ε) (ans : Nat → Int) (ps : List (κ × Nat)) : List ε :=
  ps.filterMap fun p => b.destroy p.1 (ans p.2)

/-- **How a destruction ends**, and what is left of the object. -/
theorem destroyParts_spec (ans : Nat → Int) {ps : List (κ × Nat)} (flying : Option ε)
    {w : World Obj κ} (ha : w.parts a = ps) :
    (destroyParts b a ans ps flying w).2 = Ending.of (flying.toList ++ thrown b ans ps) ∧
    ((destroyParts b a ans ps flying w).2 ≠ .terminated →
      (destroyParts b a ans ps flying w).1.parts a = []) := by
  induction ps generalizing flying w with
  | nil =>
      refine ⟨?_, fun _ => ha⟩
      cases flying <;> rfl
  | cons p ps ih =>
      rcases p with ⟨k, s⟩
      have hleft : (w.pop a s ps).parts a = ps := Function.update_self ..
      cases hd : b.destroy k (ans s) with
      | none =>
          have hthrown : thrown b ans ((k, s) :: ps) = thrown b ans ps :=
            List.filterMap_cons_none hd
          simp only [destroyParts, hd, hthrown]
          exact ih flying hleft
      | some e =>
          have hthrown : thrown b ans ((k, s) :: ps) = e :: thrown b ans ps :=
            List.filterMap_cons_some hd
          cases flying with
          | none =>
              simp only [destroyParts, hd, hthrown]
              exact ih (some e) hleft
          | some e' =>
              simp only [destroyParts, hd, hthrown]
              exact ⟨rfl, fun h => absurd rfl h⟩

theorem constructParts_cons {init ans : Nat → Int} {k : κ} {ks : List κ} {w : World Obj κ}
    (hc : b.construct k (init w.made) = none) :
    constructParts b a init ans (k :: ks) w = constructParts b a init ans ks (w.push a k) := by
  simp only [constructParts, hc]

/-- A constructor that throws: the parts before it are destroyed with its exception under way. -/
theorem constructParts_fails {init ans : Nat → Int} {k : κ} {ks : List κ} {w : World Obj κ} {e : ε}
    (hc : b.construct k (init w.made) = some e) :
    (constructParts b a init ans (k :: ks) w).2 = Ending.of (e :: thrown b ans (w.parts a)) := by
  simp only [constructParts, hc]
  exact (destroyParts_spec ans (some e) rfl).1

theorem Ending.of_cons_terminated {e : ε} {es : List ε} :
    Ending.of (e :: es) = .terminated ↔ es ≠ [] := by
  cases es <;> simp [Ending.of]

/-- **How a construction ends.** It returns iff all constructors do, and then the object has all its
parts. Otherwise nothing is left of it, or the process has ended. -/
theorem constructParts_spec (init ans : Nat → Int) {ks : List κ} {w : World Obj κ} :
    ((constructParts b a init ans ks w).2 = .returned ↔
      ∀ i k, ks[i]? = some k → b.construct k (init (w.made + i)) = none) ∧
    ((constructParts b a init ans ks w).2 = .returned →
      (constructParts b a init ans ks w).1.parts a
        = (ks.zipIdx w.made).reverse ++ w.parts a) ∧
    (∀ e, (constructParts b a init ans ks w).2 = .threw e →
      (constructParts b a init ans ks w).1.parts a = []) := by
  induction ks generalizing w with
  | nil => exact ⟨by simp [constructParts], fun _ => rfl, fun e h => by cases h⟩
  | cons k ks ih =>
      cases hc : b.construct k (init w.made) with
      | none =>
          simp only [constructParts, hc]
          obtain ⟨hiff, hparts, hthrew⟩ := ih (w := w.push a k)
          refine ⟨hiff.trans ⟨fun h i k' hi => ?_, fun h i k' hi => ?_⟩, fun h => ?_, hthrew⟩
          · cases i with
            | zero =>
                obtain rfl : k = k' := by simpa using hi
                exact hc
            | succ i =>
                have hi' := h i k' (by simpa using hi)
                have hmade : (w.push a k).made + i = w.made + (i + 1) := by
                  simp [World.push]; omega
                rwa [hmade] at hi'
          · have hi' := h (i + 1) k' (by simpa using hi)
            rwa [show w.made + (i + 1) = (w.push a k).made + i by simp [World.push]; omega] at hi'
          · rw [hparts h]
            simp [World.push, List.zipIdx_cons]
      | some e =>
          simp only [constructParts, hc]
          obtain ⟨hending, hleft⟩ :=
            @destroyParts_spec Obj κ ε _ b a ans (w.parts a) (some e) w rfl
          refine ⟨?_, ?_, ?_⟩
          · refine iff_of_false ?_ fun h => ?_
            · rw [hending]
              cases thrown b ans (w.parts a) <;> exact fun h => by cases h
            · have hk := h 0 k rfl
              rw [Nat.add_zero, hc] at hk
              cases hk
          · intro h
            rw [hending] at h
            revert h
            cases thrown b ans (w.parts a) <;> exact fun h => by cases h
          · intro e' h
            exact hleft (by rw [h]; exact fun h => by cases h)

/-! ## Runs -/

/-- Every object has the parts of its kind, and where there is no object there are none. -/
def State.Whole (s : State Obj κ) : Prop :=
  s.terminated = false → ∀ a, (s.world.parts a).map Prod.fst = ((s.objects a).getD []).reverse

omit [DecidableEq Obj] in
theorem owned_empty : (State.empty : State Obj κ).world.Owned := OneHolder.empty

theorem world_after (s : State Obj κ) (a : Obj) (o : Option (List κ))
    (r : World Obj κ × Ending ε) : (s.after a o r).world = r.1 := by
  rcases r with ⟨w, _ | _ | _⟩ <;> rfl

theorem step_owned {s s' : State Obj κ} {op : Op Obj κ} (hs : s.world.Owned)
    (h : step b s op = some s') : s'.world.Owned := by
  cases op with
  | construct a ks init ans =>
      simp only [step] at h
      split_ifs at h
      obtain rfl := Option.some.inj h
      rw [world_after]
      exact constructParts_owned init ans ks hs
  | destroy a ans =>
      simp only [step] at h
      split_ifs at h
      obtain rfl := Option.some.inj h
      rw [world_after]
      exact destroyParts_owned ans none hs rfl

/-- **Every resource has one owner**, in every run, or has been given up once. -/
theorem run_owned {s s' : State Obj κ} {ops : List (Op Obj κ)} (hs : s.world.Owned)
    (h : run (step b) s ops = some s') : s'.world.Owned :=
  run_invariant_of_step (fun _ _ _ hi hs => step_owned hi hs) hs h

/-- A call that changes only the object at `a`, and leaves it complete or not there. -/
theorem whole_after {s : State Obj κ} (hs : s.Whole) (hrun : s.terminated = false) {a : Obj}
    {o : Option (List κ)} {r : World Obj κ × Ending ε}
    (hframe : ∀ c, c ≠ a → r.1.parts c = s.world.parts c)
    (hreturned : r.2 = .returned → (r.1.parts a).map Prod.fst = (o.getD []).reverse)
    (hthrew : ∀ e, r.2 = .threw e → r.1.parts a = []) : (s.after a o r).Whole := by
  -- The objects at other addresses are what they were.
  have hothers : ∀ {o' : Option (List κ)} (c : Obj), c ≠ a → (r.1.parts c).map Prod.fst
      = ((Function.update s.objects a o' c).getD []).reverse := by
    intro o' c hc
    rw [hframe c hc, Function.update_of_ne hc]
    exact hs hrun c
  rcases r with ⟨w, _ | e | _⟩
  · intro _ c
    by_cases hc : c = a
    · subst hc
      simp only [State.after, Function.update_self]
      exact hreturned rfl
    · exact hothers c hc
  · intro _ c
    by_cases hc : c = a
    · subst hc
      simp only [State.after, Function.update_self]
      exact congrArg (List.map Prod.fst) (hthrew e rfl)
    · exact hothers c hc
  · exact fun h => by cases h

theorem step_whole {s s' : State Obj κ} {op : Op Obj κ} (hs : s.Whole)
    (h : step b s op = some s') : s'.Whole := by
  cases op with
  | construct a ks init ans =>
      simp only [step] at h
      split_ifs at h with hnot
      obtain rfl := Option.some.inj h
      rw [not_or, Bool.not_eq_true, Bool.not_eq_true] at hnot
      obtain ⟨hrun, hfree⟩ := hnot
      obtain ⟨-, hparts, hthrew⟩ := @constructParts_spec Obj κ ε _ b a init ans ks s.world
      have hnone : s.world.parts a = [] := by
        have hempty := hs hrun a
        rw [Option.isSome_eq_false_iff, Option.isNone_iff_eq_none] at hfree
        simpa [hfree] using hempty
      refine whole_after hs hrun (fun c hc => constructParts_frame init ans ks _ hc) (fun h => ?_)
        hthrew
      rw [hparts h, hnone, List.append_nil, List.map_reverse, List.zipIdx_map_fst]
      rfl
  | destroy a ans =>
      simp only [step] at h
      split_ifs at h with hnot
      obtain rfl := Option.some.inj h
      rw [not_or, Bool.not_eq_true] at hnot
      obtain ⟨-, hleft⟩ :=
        @destroyParts_spec Obj κ ε _ b a ans (s.world.parts a) none s.world rfl
      refine whole_after hs hnot.1 (fun c hc => destroyParts_frame ans _ none _ hc) (fun h => ?_)
        fun e h => hleft (by rw [h]; exact fun h => by cases h)
      rw [hleft (by rw [h]; exact fun h => by cases h)]
      rfl

/-- **Objects are complete or not there**, in every run that has not ended the process. -/
theorem run_whole {s s' : State Obj κ} {ops : List (Op Obj κ)} (hs : s.Whole)
    (h : run (step b) s ops = some s') : s'.Whole :=
  run_invariant_of_step (fun _ _ _ hi hs => step_whole hi hs) hs h

end Parts
