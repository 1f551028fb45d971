/-!
# Numbers that measure lengths

Layout is arithmetic on lengths with comparisons.  It is written over any type with the operations
below and runs on doubles.  No law is assumed: doubles have few.
-/

namespace PagedReport

/-- The arithmetic that layout uses. -/
class Scalar (K : Type) extends Add K, Sub K, Mul K, Div K, Neg K, LT K, LE K, BEq K where
  /-- The number `n / 10 ^ places`. -/
  decimal : (n places : Nat) → K
  decidableLT : DecidableLT K
  decidableLE : DecidableLE K

namespace Scalar

variable {K : Type} [Scalar K]

instance : DecidableLT K := Scalar.decidableLT
instance : DecidableLE K := Scalar.decidableLE

/-- A whole number. -/
def whole (n : Nat) : K := decimal n 0

instance (priority := low) (n : Nat) : OfNat K n := ⟨whole n⟩

instance (priority := low) : OfScientific K where
  ofScientific m negative e := if negative then decimal m e else decimal (m * Nat.pow 10 e) 0

/-- The larger of two numbers; one that differs from itself loses. -/
def larger (a b : K) : K := if a < b then b else if a == a then a else b

/-- The smaller of two numbers; one that differs from itself loses. -/
def smaller (a b : K) : K := if a < b then a else if b == b then b else a

instance (priority := low) : Inhabited K := ⟨whole 0⟩

end Scalar

instance : Scalar Float where
  decimal n places := OfScientific.ofScientific n true places
  decidableLT := inferInstance
  decidableLE := inferInstance

end PagedReport
