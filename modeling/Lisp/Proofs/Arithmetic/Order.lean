import Lisp.Number.Basic
import Mathlib

/-!
The order of numbers when the two change places.  Whatever their kinds, the order
is then the reverse, and numbers that have no order still have none.  Only a NaN
has no order with itself.
-/

namespace Lisp

open Float.Model

/-- Two magnitudes that change places compare the other way round. -/
theorem compare_magnitudes_swap (e f : Int) (m n : Nat) :
    (compare f e).then (compare n m) =
      ((compare e f).then (compare m n)).swap := by
  have hexponents : compare f e = (compare e f).swap :=
    Std.OrientedCmp.eq_swap
  have hdigits : compare n m = (compare m n).swap := Std.OrientedCmp.eq_swap
  rw [Ordering.swap_then, hexponents, hdigits]

theorem compare_unpacked_swap (x y : UnpackedFloat) :
    y.compare x = (x.compare y).map Ordering.swap := by
  cases x with
  | notANumber => cases y <;> rfl
  | infinity s =>
      cases y with
      | infinity t => cases s <;> cases t <;> rfl
      | _ => cases s <;> rfl
  | zero s =>
      cases y with
      | infinity t | finite t => cases t <;> rfl
      | _ => rfl
  | finite s m e hm =>
      cases y with
      | infinity t => cases t <;> rfl
      | finite t n f hn =>
          cases s <;> cases t <;>
            simp only [UnpackedFloat.compare, Option.map_some, Ordering.swap,
              compare_magnitudes_swap e f m n]
      | _ => cases s <;> rfl

theorem compare_unpacked_self (x : UnpackedFloat) :
    x.compare x = if x.isNaN then none else some .eq := by
  cases x with
  | notANumber => rfl
  | infinity s => cases s <;> rfl
  | zero s => rfl
  | finite s m e hm =>
      cases s <;> simp [UnpackedFloat.compare, UnpackedFloat.isNaN]

namespace Number

/-- Doubles are ordered as the numbers they stand for. -/
theorem floatOrder_eq_compare (a b : Float) :
    floatOrder a b = a.toModel.unpack.compare b.toModel.unpack := by
  have hless : ∀ x y : Float,
      x < y ↔ x.toModel.unpack.compare y.toModel.unpack = some .lt := by
    intro x y
    change decide ((x.toModel.unpack.compare y.toModel.unpack ==
      some .lt) = true) = true ↔ _
    rw [decide_eq_true_iff, beq_iff_eq]
  have hequal : (a == b) = true ↔
      a.toModel.unpack.compare b.toModel.unpack = some .eq := by
    change (a.toModel.unpack.compare b.toModel.unpack == some .eq) = true ↔ _
    rw [beq_iff_eq]
  simp only [floatOrder, hless, hequal,
    compare_unpacked_swap a.toModel.unpack b.toModel.unpack]
  cases a.toModel.unpack.compare b.toModel.unpack with
  | none => rfl
  | some o => cases o <;> rfl

theorem floatOrder_swap (a b : Float) :
    floatOrder b a = (floatOrder a b).map Ordering.swap := by
  rw [floatOrder_eq_compare, floatOrder_eq_compare, compare_unpacked_swap]

theorem floatOrder_self (x : Float) :
    floatOrder x x = if x.isNaN then none else some .eq := by
  rw [floatOrder_eq_compare]
  exact compare_unpacked_self x.toModel.unpack

theorem beq_float_self (x : Float) : (x == x) = !x.isNaN := by
  change (x.toModel.unpack.compare x.toModel.unpack == some .eq) =
    !x.toModel.unpack.isNaN
  rw [compare_unpacked_self]
  cases x.toModel.unpack.isNaN <;> rfl

/-- Whether a number is the double that is none. -/
def isNaN : Number → Bool
  | .float x => x.isNaN
  | _ => false

/-- All other numbers equal themselves. -/
theorem order_self {x : Number} (hx : x.isNaN = false) :
    x.order x = some .eq := by
  cases x with
  | int | big => exact congrArg some Std.ReflCmp.compare_self
  | float x =>
      have hnumber : x.isNaN = false := hx
      change floatOrder x x = some .eq
      rw [floatOrder_self, hnumber]
      rfl

/-- Numbers that change places are ordered the other way round, whatever their
kinds. -/
theorem order_swap (x y : Number) : y.order x = (x.order y).map Ordering.swap := by
  have hintegers : ∀ m n : Int, compare n m = (compare m n).swap :=
    fun _ _ => Std.OrientedCmp.eq_swap
  cases x with
  | float a =>
      cases y with
      | int | big | float => exact floatOrder_swap _ _
  | int | big =>
      cases y with
      | float b => exact floatOrder_swap _ _
      | int | big => exact congrArg some (hintegers _ _)

/-- Numbers that are equal one way round are equal the other way round. -/
theorem order_eq_comm (x y : Number) :
    (y.order x == some .eq) = (x.order y == some .eq) := by
  rw [order_swap x y]
  cases x.order y with
  | none => rfl
  | some o => cases o <;> rfl

end Number

end Lisp
