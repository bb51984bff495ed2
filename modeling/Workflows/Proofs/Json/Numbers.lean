import Workflows.Json.Basic
import Workflows.Number.Read
import Workflows.Proofs.Number.Doubles

/-!
# Values of numbers

Integers and doubles are compared with each other as doubles.

* `InRange`   a value that can stand in a document
* `units?`    the nearest double of a number, in units of the smallest positive one
* `Equals`    a number that equals an integer
* `Nears`     a number with the same nearest double as an integer

Main statement: up to `2 ^ 53` only a number that equals an integer is near to it (`nears_iff_equals`).
-/

namespace Workflows.Json

variable {v : Json} {n : Int} {x : Float}

/-- A value that can stand in a document: an integer of 64 bits, a finite double, or no number at all. -/
def InRange : Json → Prop
  | .int n => Number.minInt64 ≤ n ∧ n < Number.wordCount
  | .double x => x.isFinite = true
  | _ => True

/-- the nearest double of a number, in units of the smallest positive one -/
def units? (v : Json) : Option Int := v.double?.bind Double.units?

theorem units?_of_double? (h : v.double? = some x) : v.units? = Double.units? x := by
  rw [units?, h]
  rfl

theorem units?_of_no_double (h : v.double? = none) : v.units? = none := by
  rw [units?, h]
  rfl

theorem natAbs_lt (h : (Json.int n).InRange) : n.natAbs < 2 ^ 64 := by
  have hbounds : Number.minInt64 = -2 ^ 63 ∧ Number.wordCount = 2 ^ 64 := by decide
  have hn : Number.minInt64 ≤ n ∧ n < Number.wordCount := h
  omega

theorem units?_int (h : (Json.int n).InRange) : (Json.int n).units? = some (Number.nearest n * Double.one) :=
  Number.units?_ofInt (natAbs_lt h)

/-- every number of a document has units -/
theorem InRange.units?_isSome (h : v.InRange) (hx : v.double? = some x) : ∃ u, v.units? = some u := by
  cases v with
  | int n => exact ⟨_, units?_int h⟩
  | double y =>
    have hfinite : y.isFinite = true := h
    rw [Double.isFinite_eq] at hfinite
    exact Option.isSome_iff_exists.mp hfinite
  | _ => cases hx

/-! ## integers -/

/-- a number that equals an integer -/
def Equals : Json → Int → Prop
  | .int m, n => m = n
  | .double x, n => Double.units? x = some (n * Double.one)
  | _, _ => False

/-- a number with the same nearest double as an integer -/
def Nears (v : Json) (n : Int) : Prop := v.units? = some (Number.nearest n * Double.one)

theorem nears_int {m : Int} (h : (Json.int m).InRange) : (Json.int m).Nears n ↔ Number.nearest m = Number.nearest n := by
  rw [Nears, units?_int h, Option.some.injEq, Int.mul_eq_mul_right_iff (Int.natCast_ne_zero.mpr Double.one_pos.ne')]

/-- Integers below `2 ^ 53` are told apart from all other numbers. -/
theorem nears_iff_equals (hv : v.InRange) (hn : n.natAbs < 2 ^ 53) : v.Nears n ↔ v.Equals n := by
  have hself : Number.nearest n = n := Number.nearest_eq_self hn.le
  cases v with
  | int m =>
    rw [nears_int hv, Equals]
    exact ⟨fun h => Number.eq_of_nearest_eq hn h, congrArg _⟩
  | double x =>
    rw [Nears, Equals, hself]
    rfl
  | _ => exact iff_of_false (Option.some_ne_none _).symm id

end Workflows.Json
