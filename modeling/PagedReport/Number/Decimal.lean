import PagedReport.Number.Text

/-!
# Decimals by their digits

A finite binary number as the digits of its shortest decimal.  Multiplying by a power of ten moves
the point, and rounding to hundredths looks at the digits after it.
-/

namespace PagedReport

/-- Digits, the most significant first, the last of them after the point. -/
structure Decimal where
  negative : Bool
  digits : List Nat
  /-- How many digits are after the point. -/
  places : Nat
  inRange : places ≤ digits.length

namespace Decimal

/-- The number that a digit stands for. -/
def digitOf (c : Char) : Nat := c.toNat - 48

/-- Reads digits around a point, leaving out zeros at the end of a fraction. -/
def ofText (negative : Bool) (text : List Char) : Decimal :=
  let (whole, rest) := text.span (· != '.')
  let fraction := ((rest.drop 1).reverse.dropWhile (· == '0')).reverse
  { negative
    digits := (whole ++ fraction).map digitOf
    places := fraction.length
    inRange := by simp }

/-- A number other than zero keeps its sign. -/
def ofBinary : BinaryValue → Option Decimal
  | .finite negative m q =>
    some (ofText (negative && m != 0) ((BinaryValue.finite false m q).text .double).toList)
  | _ => none

/-- Multiplied by `10 ^ places`. -/
def shift (d : Decimal) (places : Nat) : Decimal :=
  if places ≤ d.places then
    { d with places := d.places - places, inRange := Nat.le_trans (Nat.sub_le ..) d.inRange }
  else
    { d with
      digits := d.digits ++ List.replicate (places - d.places) 0
      places := 0
      inRange := Nat.zero_le _ }

def whole (d : Decimal) : List Nat := d.digits.take (d.digits.length - d.places)

def fraction (d : Decimal) : List Nat := d.digits.drop (d.digits.length - d.places)

def isIntegral (d : Decimal) : Bool := d.fraction.all (· == 0)

/-- A digit after the point; there are zeros beyond the last. -/
def place (d : Decimal) (i : Nat) : Nat := d.fraction.getD i 0

/-- The number of hundredths in a word, a half going up. -/
def hundredths (d : Decimal) : BitVec 128 :=
  let whole := d.whole.foldl (fun n x ↦ n * 10 + BitVec.ofNat 128 x) 0
  let below := whole * 100 + BitVec.ofNat 128 (d.place 0) * 10 + BitVec.ofNat 128 (d.place 1)
  if 5 ≤ d.place 2 then below + 1 else below

/-- Two digits. -/
def twoDigits (n : Nat) : List Char := (Nat.toDigits 10 n).leftpad 2 '0'

def roundedText (d : Decimal) : String :=
  let h := d.hundredths.toNat
  (if d.negative && h != 0 then "-" else "") ++
    toString (h / 100) ++ "." ++ String.ofList (twoDigits (h % 100))

/-- The digits of an integral number, and two places of any other. -/
def text (d : Decimal) : String :=
  if d.isIntegral then
    let digits := d.whole.dropWhile (· == 0)
    if digits.isEmpty then "0"
    else (if d.negative then "-" else "") ++ String.ofList (digits.map Nat.digitChar)
  else d.roundedText

end Decimal

end PagedReport
