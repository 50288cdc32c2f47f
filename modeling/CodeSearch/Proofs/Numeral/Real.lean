import CodeSearch.Scalar
import Mathlib.Analysis.Real.Sqrt

/-! # Real numbers as scalars

Over the real numbers the index computes without rounding.
-/

namespace CodeSearch

/-- Real numbers have no finite text, so that they cannot be told apart in cache keys: nothing that
depends on the text of a number is stated over them. -/
noncomputable instance : Scalar ℝ where
  natCast := Nat.cast
  sqrt := Real.sqrt
  text _ := ""
  decidableLT := Classical.decRel _
  decidableLE := Classical.decRel _

namespace Scalar

@[simp] theorem ofNat_real (n : ℕ) : (ofNat n : ℝ) = n := rfl

@[simp] theorem sqrt_real (x : ℝ) : sqrt x = Real.sqrt x := rfl

end Scalar

end CodeSearch
