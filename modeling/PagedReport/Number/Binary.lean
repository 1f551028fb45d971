/-!
# Binary floating-point words

A word of a binary interchange format is a sign, a significand `m` and an exponent `q`; its value
is `m * 2 ^ q`.  `Layout.decode` takes a word apart, and `Layout.nearest` finds the word nearest to
a ratio of naturals, a tie going to the even significand.
-/

namespace PagedReport

/-- The widths of the two fields that follow the sign. -/
structure BinaryLayout where
  fractionBits : Nat
  exponentBits : Nat
deriving DecidableEq, Repr

/-- What a word stands for. -/
inductive BinaryValue where
  | nan
  | infinite (negative : Bool)
  | finite (negative : Bool) (significand : Nat) (exponent : Int)
deriving DecidableEq, Repr

namespace BinaryLayout

/-- Sixty-four bits. -/
def double : BinaryLayout := ⟨52, 11⟩

/-- Thirty-two bits. -/
def single : BinaryLayout := ⟨23, 8⟩

variable (l : BinaryLayout)

def bias : Nat := Nat.pow 2 (l.exponentBits - 1) - 1

/-- The exponent of the least positive number, shared by zero and all subnormal numbers. -/
def leastExponent : Int := 1 - (l.bias : Int) - l.fractionBits

/-- The significand that the least normal number has, and every power of two above it. -/
def hidden : Nat := Nat.pow 2 l.fractionBits

/-- The word of positive infinity. -/
def infinity : Nat := (Nat.pow 2 l.exponentBits - 1) * l.hidden

def decode (bits : Nat) : BinaryValue :=
  let negative := bits / (Nat.pow 2 l.exponentBits * l.hidden) % 2 == 1
  let field := bits / l.hidden % Nat.pow 2 l.exponentBits
  let fraction := bits % l.hidden
  if field = Nat.pow 2 l.exponentBits - 1 then
    if fraction = 0 then .infinite negative else .nan
  else if field = 0 then .finite negative fraction l.leastExponent
  else .finite negative (l.hidden + fraction) (l.leastExponent + (field - 1 : Nat))

/-- A quotient rounded to the nearest natural, a half going to the even neighbour. -/
def roundEven (num den : Nat) : Nat :=
  let floor := num / den
  let twice := 2 * (num % den)
  if twice < den then floor
  else if den < twice then floor + 1
  else floor + floor % 2

/-- `2 ^ e` moved to the side of a fraction where its exponent is natural. -/
def scaleByPow2 (num den : Nat) (e : Int) : Nat × Nat :=
  match e with
  | .ofNat k => (num * Nat.pow 2 k, den)
  | .negSucc k => (num, den * Nat.pow 2 (k + 1))

/-- The positive word nearest to `num / den`, infinity when it lies beyond all finite ones. -/
def nearest (num den : Nat) : Nat :=
  if num = 0 then 0 else
  let guess : Int := (num.log2 : Int) - den.log2
  let (n, d) := scaleByPow2 num den (-guess)
  let magnitude := if d ≤ n then guess else guess - 1
  let exponent := max l.leastExponent (magnitude - l.fractionBits)
  let (n, d) := scaleByPow2 num den (-exponent)
  let word := (exponent - l.leastExponent).toNat * l.hidden + roundEven n d
  min word l.infinity

end BinaryLayout

/-- The double nearest to `± num / den`. -/
def doubleNearest (negative : Bool) (num den : Nat) : Float :=
  let word := BinaryLayout.double.nearest num den
  Float.ofBits (UInt64.ofNat (if negative then Nat.pow 2 63 + word else word))

end PagedReport
