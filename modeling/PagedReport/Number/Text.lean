import PagedReport.Number.Shortest

/-!
# Numbers as text

The positional text of a binary number is its shortest decimal without an exponent: no point in an
integer, no zero at the end of a fraction, and one zero before the point of a proper fraction.
-/

namespace PagedReport

/-- `digits * 10 ^ exponent` written out in full. -/
def DecimalForm.positional (d : DecimalForm) : String :=
  let digits := Nat.toDigits 10 d.digits
  match d.exponent with
  | .ofNat k => String.ofList (if d.digits = 0 then digits else digits ++ List.replicate k '0')
  | .negSucc k =>
    let places := k + 1
    let padded := List.replicate (places + 1 - digits.length) '0' ++ digits
    let whole := padded.length - places
    String.ofList (padded.take whole ++ '.' :: padded.drop whole)

/-- The positional text of a binary number; both zeros are `0`. -/
def BinaryValue.text (l : BinaryLayout) : BinaryValue → String
  | .nan => "NaN"
  | .infinite false => "inf"
  | .infinite true => "-inf"
  | .finite negative m q =>
    if m = 0 then "0"
    else (if negative then "-" else "") ++ (shortest l m q).positional

/-- The fields of a double. -/
def doubleValue (x : Float) : BinaryValue := BinaryLayout.double.decode x.toBits.toNat

/-- The fields of a single. -/
def singleValue (x : Float32) : BinaryValue := BinaryLayout.single.decode x.toBits.toNat

def doubleText (x : Float) : String := (doubleValue x).text .double

def singleText (x : Float32) : String := (singleValue x).text .single

end PagedReport
