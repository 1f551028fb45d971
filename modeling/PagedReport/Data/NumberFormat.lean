import PagedReport.Data.Value
import PagedReport.Number.Decimal
import PagedReport.Text.Blank

/-!
# Formatted numbers

An integral number prints its digits; any other is rounded to two places, a half going away from
zero.  Rounding happens on the shortest decimal of a double and not on the double, so `1.005` gives
`1.01`.
-/

namespace PagedReport

inductive NumberFormat where
  | plain
  | currency
  | percent
deriving DecidableEq, Repr, Inhabited

namespace NumberFormat

/-- A name that is not known means plain. -/
def ofName (s : String) : NumberFormat :=
  match settingName s with
  | "currency" => .currency
  | "percent" => .percent
  | _ => .plain

/-- Puts the sign of the currency or of a percentage on an amount. -/
def decorate : NumberFormat → String → String
  | .plain, s => s
  | .currency, s => "$" ++ s
  | .percent, s => s ++ "%"

/-- What is not finite keeps its name. -/
def format (f : NumberFormat) (v : BinaryValue) : String :=
  f.decorate <|
    match Decimal.ofBinary v with
    | some d => (if f = .percent then d.shift 2 else d).text
    | none => v.text .double

def formatDouble (f : NumberFormat) (x : Float) : String := f.format (doubleValue x)

/-- An integer keeps every digit; a percentage has two zeros more. -/
def formatInteger (f : NumberFormat) (n : Int) : String :=
  f.decorate (if f = .percent && n ≠ 0 then toString n ++ "00" else toString n)

/-- A string is its own text; null, booleans, lists and objects have none. -/
def formatValue (f : NumberFormat) : Value → String
  | .string s => s
  | .number (.integer n) => f.formatInteger n
  | .number (.double x) => f.formatDouble x
  | _ => ""

end NumberFormat

end PagedReport
