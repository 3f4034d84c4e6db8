import Mathlib.Algebra.Order.Ring.Int
import Mathlib.Tactic.Common
import Mathlib.Tactic.GCongr
import Mathlib.Tactic.NormNum

set_option autoImplicit false

/-! # Machine integers of C++

A signed integer type is its number of bits. The values of an expression are integers, and each
operation is looked at in the type it is made in: `signed` gives its value, or nothing when the
type cannot hold it. A conversion to an unsigned type always has a value, the one modulo
`2 ^ bits` (`toUnsigned`); it keeps what is in range (`toUnsigned_of_lt`).
-/

namespace CInt

/-- The signed type of `bits` bits holds `x`. -/
def Fits (bits : Nat) (x : Int) : Prop := -2 ^ (bits - 1) ≤ x ∧ x < 2 ^ (bits - 1)

instance (bits : Nat) (x : Int) : Decidable (Fits bits x) := inferInstanceAs (Decidable (_ ∧ _))

/-- The value of an operation of a signed type. An overflow is undefined. -/
def signed (bits : Nat) (x : Int) : Option Int := if Fits bits x then some x else none

/-- The conversion to the unsigned type. -/
def toUnsigned (bits : Nat) (x : Int) : Nat := (x % 2 ^ bits).toNat

theorem fits_32 {x : Int} : Fits 32 x ↔ -2147483648 ≤ x ∧ x < 2147483648 := by
  simp [Fits]

theorem Fits.mono {bits bits' : Nat} (h : bits ≤ bits') {x : Int} (hx : Fits bits x) :
    Fits bits' x := by
  have hpow : (2 : Int) ^ (bits - 1) ≤ 2 ^ (bits' - 1) := by
    gcongr
    · norm_num
  unfold Fits at hx ⊢
  omega

/-- What lies between two values of the type is one. -/
theorem Fits.between {bits : Nat} {x y z : Int} (hx : Fits bits x) (hz : Fits bits z)
    (hxy : x ≤ y) (hyz : y ≤ z) : Fits bits y :=
  ⟨hx.1.trans hxy, hyz.trans_lt hz.2⟩

/-- The negative values reach further than the positive ones. -/
theorem Fits.neg {bits : Nat} {x : Int} (hx : Fits bits x) (h : 0 ≤ x) : Fits bits (-x) := by
  unfold Fits at hx ⊢
  omega

theorem signed_of_fits {bits : Nat} {x : Int} (h : Fits bits x) : signed bits x = some x :=
  if_pos h

/-- The conversion does not wrap what is in range. -/
theorem toUnsigned_of_lt {bits : Nat} {x : Int} (h0 : 0 ≤ x) (h : x < 2 ^ bits) :
    (toUnsigned bits x : Int) = x := by
  rw [toUnsigned, Int.emod_eq_of_lt h0 h]
  exact Int.toNat_of_nonneg h0

end CInt
