import CppPthread.Basic.Run

set_option autoImplicit false

/-! # The first-in first-out list

The sequential object behind a queue: a list to which values are added at the back and from
which they are taken at the front. Over any run, what was there followed by what came in is
what went out followed by what is there (`conservation`).
-/

namespace Fifo

open Run

universe u

variable {α : Type u}

inductive Op (α : Type u) where
  | enq (x : α)
  | deq

/-- `deq` is not possible on an empty list. -/
def step : List α → Op α → Option (List α)
  | q, .enq x => some (q ++ [x])
  | _ :: q, .deq => some q
  | [], .deq => none

def input : Op α → Option α
  | .enq x => some x
  | .deq => none

/-- The value that an operation takes out. -/
def output : List α → Op α → List α
  | x :: _, .deq => [x]
  | _, _ => []

/-- Nothing is lost, duplicated or reordered. -/
theorem conservation {q q' : List α} {ops : List (Op α)} (h : run step q ops = some q') :
    q ++ ops.filterMap input = trace step output q ops ++ q' := by
  induction ops generalizing q with
  | nil =>
      obtain rfl : q = q' := by simpa using h
      simp [trace]
  | cons op ops ih =>
      obtain ⟨m, hm, h'⟩ := run_cons.mp h
      have hrest := ih h'
      cases op with
      | enq x =>
          obtain rfl : q ++ [x] = m := Option.some.inj hm
          simpa [trace, step, input, output] using hrest
      | deq =>
          cases q with
          | nil => cases hm
          | cons x q =>
              obtain rfl : q = m := Option.some.inj hm
              simpa [trace, step, input, output, List.filterMap_cons] using hrest

end Fifo
