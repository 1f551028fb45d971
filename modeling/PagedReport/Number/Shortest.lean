import PagedReport.Number.Binary

/-!
# Shortest decimals

Of all decimals that read back as a given binary number, `shortest` takes one with the fewest
digits and, among those, the one nearest to the number.  It walks the decimal grids from one digit
up and looks, on each, only at the two neighbours of the number: if any point of a grid lies in the
interval that reads back, so does one of these two.
-/

namespace PagedReport

/-- The value `digits * 10 ^ exponent`. -/
structure DecimalForm where
  digits : Nat
  exponent : Int
deriving DecidableEq, Repr

namespace DecimalForm

/-- The same value with no zero at its end, zero being `0 * 10 ^ 0`. -/
def strip (n : Nat) (e : Int) : DecimalForm :=
  if h : n = 0 then ⟨0, 0⟩
  else if n % 10 = 0 then strip (n / 10) (e + 1)
  else ⟨n, e⟩
termination_by n
decreasing_by omega

end DecimalForm

/-- `10 ^ e` moved to the side of a fraction where its exponent is natural. -/
def scaleByPow10 (num den : Nat) (e : Int) : Nat × Nat :=
  match e with
  | .ofNat k => (num * Nat.pow 10 k, den)
  | .negSucc k => (num, den * Nat.pow 10 (k + 1))

/-- How many decimal digits `n` has; zero has one. -/
def decimalLength (n : Nat) : Nat := (Nat.toDigits 10 n).length

/-- The exponent of the leading digit of `num / den`. -/
def leadingExponent (num den : Nat) : Int :=
  if den ≤ num then (decimalLength (num / den) : Int) - 1
  else -(decimalLength ((den - 1) / num) : Int)

/-- The reals that read back as one binary number, as numerators over a common denominator. -/
structure ReadBack where
  value : Nat
  low : Nat
  high : Nat
  denominator : Nat
  /-- Whether the two ends read back too. -/
  closed : Bool

namespace ReadBack

/-- The interval around `m * 2 ^ q`; below a power of two the neighbour is half as far. -/
def of (l : BinaryLayout) (m : Nat) (q : Int) : ReadBack :=
  let nearBelow := m = l.hidden ∧ l.leastExponent < q
  let scale := fun n ↦ (BinaryLayout.scaleByPow2 n 1 (q - 2)).1
  let denominator := (BinaryLayout.scaleByPow2 1 1 (q - 2)).2
  { value := scale (4 * m)
    low := scale (if nearBelow then 4 * m - 1 else 4 * m - 2)
    high := scale (4 * m + 2)
    denominator
    closed := m % 2 == 0 }

/-- Whether `num / den` lies in the interval. -/
def contains (r : ReadBack) (num den : Nat) : Bool :=
  let x := num * r.denominator
  if r.closed then r.low * den ≤ x && x ≤ r.high * den
  else r.low * den < x && x < r.high * den

/-- The better neighbour of the number on the grid of multiples of `10 ^ e`, if one reads back. -/
def onGrid (r : ReadBack) (e : Int) : Option Nat :=
  let (num, den) := scaleByPow10 r.value r.denominator (-e)
  let below := num / den
  let reads := fun n ↦
    let (x, y) := scaleByPow10 n 1 e
    r.contains x y
  let nearerBelow := 2 * (num % den) < den
  match reads below, reads (below + 1) with
  | true, true => some (if nearerBelow then below else below + 1)
  | true, false => some below
  | false, true => some (below + 1)
  | false, false => none

/-- The first grid with a hit, from `n` digits on, at most `tries` grids. -/
def search (r : ReadBack) (lead : Int) : Nat → Nat → Option DecimalForm
  | 0, _ => none
  | tries + 1, n =>
    let e := lead - n
    match r.onGrid e with
    | some d => some ⟨d, e⟩
    | none => search r lead tries (n + 1)

end ReadBack

/-- The shortest decimal for the positive number `m * 2 ^ q` of a layout. -/
def shortest (l : BinaryLayout) (m : Nat) (q : Int) : DecimalForm :=
  let r := ReadBack.of l m q
  let lead := leadingExponent r.value r.denominator
  match r.search lead 18 0 with
  | some d => DecimalForm.strip d.digits d.exponent
  | none => ⟨r.value / r.denominator, 0⟩

end PagedReport
