import CppPthread.Exceptions
import CppPthread.Mutex.Guards

set_option autoImplicit false

/-! # What the exceptions tell

`what()` of a `pthread_exception` is the message with the text of the error number after it. Its
documentation puts a blank between the two when the message ends with a period, and a period with a
blank otherwise. The constructor looks for the last period, and compares what it has found with the
position of the last character; both are of type `size_t`. In an empty message there is no period,
`find_last_of` returns `npos`, and the position of the last character is `npos` too.

The text of an error number (`strerror`) is left open. A character stands for a byte.
-/

namespace CppPthread

open Posix

/-- `find_last_of`, with `none` for `npos`. -/
def findLastOf (c : Char) : List Char → Option Nat
  | [] => none
  | x :: s =>
      match findLastOf c s with
      | some i => some (i + 1)
      | none => if x = c then some 0 else none

/-- `pos == (_message.size() - 1)` -/
def endsHere (message : String) : Bool :=
  let pos : BitVec 64 := (findLastOf '.' message.toList).elim (-1) (BitVec.ofNat 64)
  pos == BitVec.ofNat 64 message.length - 1

/-- The constructor of `pthread_exception`: what its `_message` is in the end. -/
def exceptionText (strerror : Int → String) (message : String) (errorNumber : Int) : String :=
  if errorNumber ≠ 0 then
    let separator := if endsHere message then " " else ". "
    message ++ separator ++ strerror errorNumber
  else message

/-- The text according to the documentation of the constructor. -/
def documentedText (strerror : Int → String) (message : String) (errorNumber : Int) : String :=
  if errorNumber = 0 then message
  else if message.toList.getLast? = some '.' then message ++ " " ++ strerror errorNumber
  else message ++ ". " ++ strerror errorNumber

section What

variable (strerror : Int → String)

/-- `pthread_exception::what()` -/
def PthreadException.what (e : PthreadException) : String :=
  exceptionText strerror e.message e.errorNumber

def MutexException.what (e : MutexException) : String :=
  exceptionText strerror e.message e.errorNumber

def ReadWriteLockException.what (e : ReadWriteLockException) : String :=
  exceptionText strerror e.message e.errorNumber

/-- `queue_exception::what()` -/
def QueueException.what : QueueException → String
  | .queueException message => message
  | .queueFull message => message
  | .queueTimeout message => message

end What

/-! ## The last period -/

theorem findLastOf_eq_none {c : Char} {s : List Char} : findLastOf c s = none ↔ c ∉ s := by
  induction s with
  | nil => simp [findLastOf]
  | cons x s ih =>
      rw [findLastOf, List.mem_cons, not_or]
      cases hs : findLastOf c s with
      | some i =>
          have hmem : ¬ c ∉ s := fun hnot => by simp [ih.mpr hnot] at hs
          simp [hmem]
      | none =>
          rw [hs] at ih
          have hnot := ih.mp rfl
          simp [hnot, eq_comm]

theorem findLastOf_lt {c : Char} {s : List Char} {i : Nat} (h : findLastOf c s = some i) :
    i < s.length := by
  induction s generalizing i with
  | nil => cases h
  | cons x s ih =>
      rw [findLastOf] at h
      rw [List.length_cons]
      cases hs : findLastOf c s with
      | some j =>
          rw [hs] at h
          obtain rfl := Option.some.inj h
          have hj := ih hs
          omega
      | none =>
          simp only [hs, Option.ite_none_right_eq_some, Option.some.injEq] at h
          omega

/-- It is the last character iff it is found there. -/
theorem findLastOf_eq_last {c : Char} {s : List Char} {i : Nat} (h : findLastOf c s = some i) :
    i + 1 = s.length ↔ s.getLast? = some c := by
  induction s generalizing i with
  | nil => cases h
  | cons x s ih =>
      rw [findLastOf] at h
      rw [List.length_cons]
      cases hs : findLastOf c s with
      | some j =>
          rw [hs] at h
          obtain rfl := Option.some.inj h
          have hne : s ≠ [] := fun hnil => by simp [hnil, findLastOf] at hs
          rw [Nat.add_right_cancel_iff, ih hs, List.getLast?_cons_of_ne_nil hne]
      | none =>
          simp only [hs, Option.ite_none_right_eq_some, Option.some.injEq] at h
          obtain ⟨rfl, rfl⟩ := h
          have hnot := findLastOf_eq_none.mp hs
          cases s with
          | nil => simp
          | cons y s =>
              rw [List.getLast?_cons_of_ne_nil (List.cons_ne_nil y s)]
              have hlast : (y :: s).getLast? ≠ some x := fun heq =>
                hnot (List.mem_of_getLast? heq)
              simp [hlast]

/-- The code takes an empty message for one that ends with a period. -/
theorem endsHere_iff {message : String} (hlen : message.length < 2 ^ 64) :
    endsHere message = true ↔ message = "" ∨ message.toList.getLast? = some '.' := by
  have hempty : message = "" ↔ message.toList = [] := by
    rw [← String.toList_inj, String.toList_empty]
  have hlength : message.toList.length = message.length := String.length_toList
  simp only [endsHere, beq_iff_eq]
  rw [hempty]
  cases hfind : findLastOf '.' message.toList with
  | none =>
      have hnot := findLastOf_eq_none.mp hfind
      have hlast : message.toList.getLast? ≠ some '.' := fun h => hnot (List.mem_of_getLast? h)
      rw [Option.elim_none, ← List.length_eq_zero_iff, hlength]
      simp only [hlast, or_false]
      constructor
      · intro h
        bv_omega
      · intro h
        bv_omega
  | some i =>
      have hlt := findLastOf_lt hfind
      have hne : message.toList ≠ [] := fun hnil => by simp [hnil, findLastOf] at hfind
      rw [Option.elim_some, ← findLastOf_eq_last hfind]
      simp only [hne, false_or]
      constructor
      · intro h
        bv_omega
      · intro h
        bv_omega

/-- **`what()` is what the documentation says**, except that a blank message with an error number
lacks the period. -/
theorem exceptionText_eq_documented_iff (strerror : Int → String) {message : String}
    (errorNumber : Int) (hlen : message.length < 2 ^ 64) :
    exceptionText strerror message errorNumber = documentedText strerror message errorNumber ↔
      errorNumber = 0 ∨ message ≠ "" := by
  unfold exceptionText documentedText
  by_cases hzero : errorNumber = 0
  · simp [hzero]
  · have hends := endsHere_iff hlen
    by_cases hempty : message = ""
    · subst hempty
      simp [hzero, hends, ← String.toList_inj]
    · simp only [hzero, hends, hempty, ne_eq, not_false_eq_true, if_true, if_false, false_or,
        or_true, iff_true]
      split_ifs <;> rfl

/-- A message that ends with a period and a blank gets another period. -/
example : exceptionText (fun _ => "EINVAL") "failed. " 22 = "failed. . EINVAL" := by decide

end CppPthread
