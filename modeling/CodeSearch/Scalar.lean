import CodeSearch.Numeral.Shortest

/-! # Scalars

Weights, vector components, scores and times are computed in one type of scalars. The program runs
on doubles; laws of exact arithmetic are stated over fields.
-/

namespace CodeSearch

/-- The arithmetic, the order and the decimal text that the index needs of its numbers. -/
class Scalar (α : Type) extends Add α, Sub α, Mul α, Div α, LT α, LE α, OfScientific α, NatCast α
    where
  sqrt : α → α
  /-- The text of a number in cache keys. -/
  text : α → String
  decidableLT : DecidableLT α
  decidableLE : DecidableLE α

attribute [reducible, instance] Scalar.decidableLT Scalar.decidableLE

namespace Scalar

variable {α : Type} [Scalar α]

def ofNat (n : Nat) : α := NatCast.natCast n

/-- Negative numbers are differences from zero. -/
def ofInt : Int → α
  | .ofNat n => ofNat n
  | .negSucc n => ofNat 0 - ofNat (n + 1)

instance : Inhabited α := ⟨ofNat 0⟩

end Scalar

instance : Scalar Float where
  natCast := Float.ofNat
  sqrt := Float.sqrt
  text := Numeral.shortest
  decidableLT := inferInstance
  decidableLE := inferInstance

end CodeSearch
