import PagedReport.Number.Shortest

/-!
# Numbers read from text

Integers within given limits and decimal numbers, both with an optional sign and nothing around
them.  A decimal number becomes the nearest double.
-/

namespace PagedReport

/-! ## Integers -/

/-- Why a text is no integer within the limits. -/
inductive IntegerError where
  | empty
  | invalidDigit
  | tooLarge
  | tooSmall
deriving DecidableEq, Repr

def IntegerError.message : IntegerError → String
  | .empty => "cannot parse integer from empty string"
  | .invalidDigit => "invalid digit found in string"
  | .tooLarge => "number too large to fit in target type"
  | .tooSmall => "number too small to fit in target type"

/-- The value of a digit in a base up to sixteen. -/
def digitValue (radix : Nat) (c : Char) : Option Nat :=
  let n := c.toNat
  let v? :=
    if 48 ≤ n ∧ n ≤ 57 then some (n - 48)
    else if 97 ≤ n ∧ n ≤ 102 then some (n - 87)
    else if 65 ≤ n ∧ n ≤ 70 then some (n - 55)
    else none
  v?.filter (· < radix)

/-- Reads digits from the left; the first bad digit or the first step past `limit` decides. -/
def readDigits (radix limit : Nat) (past : IntegerError) (n : Nat) :
    List Char → Except IntegerError Nat
  | [] => .ok n
  | c :: cs =>
    match digitValue radix c with
    | none => .error .invalidDigit
    | some d =>
      let next := n * radix + d
      if limit < next then .error past else readDigits radix limit past next cs

/-- Reads an integer from `-below` to `above`.  A minus is a sign only where `below` is positive. -/
def readInteger (radix below above : Nat) : List Char → Except IntegerError Int
  | [] => .error .empty
  | ['+'] => .error .invalidDigit
  | ['-'] => .error .invalidDigit
  | '+' :: cs => (readDigits radix above .tooLarge 0 cs).map Int.ofNat
  | cs@('-' :: ds) =>
    if 0 < below then (readDigits radix below .tooSmall 0 ds).map (fun n ↦ -(n : Int))
    else (readDigits radix above .tooLarge 0 cs).map Int.ofNat
  | cs => (readDigits radix above .tooLarge 0 cs).map Int.ofNat

/-- A signed word of sixty-four bits. -/
def readInt64 (cs : List Char) : Except IntegerError Int :=
  readInteger 10 (Nat.pow 2 63) (Nat.pow 2 63 - 1) cs

/-! ## Decimal numbers -/

/-- The number that a run of decimal digits denotes. -/
def digitsValue (cs : List Char) : Nat :=
  cs.foldl (fun n c ↦ n * 10 + (c.toNat - 48)) 0

/-- The double nearest to `± digits * 10 ^ exponent`; far beyond the range no power is formed. -/
def decimalToDouble (negative : Bool) (digits : Nat) (exponent : Int) : Float :=
  let magnitude := exponent + decimalLength digits
  if digits = 0 || magnitude < -400 then doubleNearest negative 0 1
  else if 400 < magnitude then doubleNearest negative (Nat.pow 2 1024) 1
  else
    let (num, den) := scaleByPow10 digits 1 exponent
    doubleNearest negative num den

/-- A sign and what follows it. -/
def splitSign : List Char → Bool × List Char
  | '-' :: cs => (true, cs)
  | '+' :: cs => (false, cs)
  | cs => (false, cs)

/-- An exponent mark with at least one digit, or nothing at all. -/
def readExponent : List Char → Option Int
  | [] => some 0
  | c :: cs =>
    if c == 'e' || c == 'E' then
      let (negative, ds) := splitSign cs
      if ds.isEmpty || !ds.all Char.isDigit then none
      else some (if negative then -(digitsValue ds : Int) else digitsValue ds)
    else none

/-- Digits with a point somewhere among them, then an exponent. -/
def readUnsigned (negative : Bool) (cs : List Char) : Option Float :=
  let (whole, rest) := cs.span Char.isDigit
  let (fraction, rest) :=
    match rest with
    | '.' :: more => more.span Char.isDigit
    | _ => ([], rest)
  if whole.isEmpty && fraction.isEmpty then none
  else (readExponent rest).map fun e ↦
    decimalToDouble negative (digitsValue (whole ++ fraction)) (e - fraction.length)

/-- A decimal number, an infinity or a NaN; the names are read in either case. -/
def readDouble (cs : List Char) : Option Float :=
  let (negative, body) := splitSign cs
  let name := String.ofList (body.map Char.toLower)
  if name == "nan" then some (Float.ofBits 0x7ff8000000000000)
  else if name == "inf" || name == "infinity" then some (doubleNearest negative (Nat.pow 2 1024) 1)
  else readUnsigned negative body

end PagedReport
