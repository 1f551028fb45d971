import PagedReport.Data.NumberFormat
import PagedReport.Text.Case

/-!
# Helpers

A helper is a partial function on lists of values, called by name in actions.  Names are compared
in lower case and a later helper replaces an earlier one of the same name.
-/

namespace PagedReport

/-- Why a helper gives no value. -/
inductive HelperError where
  | arity (want got : Nat)
  | notString (got : String)
  | notNumber (got : String)
  | notFinite (x : Float)
  | other (message : String)

def HelperError.message : HelperError → String
  | .arity want got => s!"wrong number of args: want {want} got {got}"
  | .notString got => s!"expected string; got {got}"
  | .notNumber got => s!"expected number; got {got}"
  | .notFinite x => s!"result {doubleText x} is not a finite number"
  | .other m => m

abbrev Helper := List Value → Except HelperError Value

/-- Helpers by their names in lower case. -/
structure Helpers where
  entries : List (String × Helper) := []
deriving Inhabited

namespace Helpers

def empty : Helpers := ⟨[]⟩

def register (name : String) (h : Helper) (hs : Helpers) : Helpers :=
  ⟨(lowerText name, h) :: hs.entries⟩

def get? (name : String) (hs : Helpers) : Option Helper := hs.entries.lookup (lowerText name)

end Helpers

namespace Helper

def asString : Value → Except HelperError String
  | .string s => .ok s
  | v => .error (.notString v.typeName)

def asNumber : Value → Except HelperError Float
  | .number n => .ok n.toDouble
  | v => .error (.notNumber v.typeName)

/-- Arithmetic has finite results only. -/
def finite (x : Float) : Except HelperError Value :=
  if x.isFinite then .ok (.number (.double x)) else .error (.notFinite x)

def unary (f : Value → Except HelperError Value) : Helper
  | [v] => f v
  | vs => .error (.arity 1 vs.length)

def binary (f : Value → Value → Except HelperError Value) : Helper
  | [v, w] => f v w
  | vs => .error (.arity 2 vs.length)

def onString (f : String → String) : Helper :=
  unary fun v ↦ (asString v).map fun s ↦ .string (f s)

def onNumbers (f : Float → Float → Float) : Helper :=
  binary fun v w ↦ do finite (f (← asNumber v) (← asNumber w))

def formatted (f : NumberFormat) : Helper := unary fun v ↦ .ok (.string (f.formatValue v))

/-- What a word ends before: an ASCII character that is neither letter, digit nor underscore, or a
blank. -/
def separatesWords (c : Char) : Bool :=
  if c.toNat < 128 then !(c.isAlphanum || c == '_') else isBlank c

/-- Capitals at the beginnings of words. -/
def titleFrom : Bool → List Char → List Char
  | _, [] => []
  | atStart, c :: cs =>
    (if atStart then upperChar c else [c]) ++ titleFrom (separatesWords c) cs

def titleText (s : String) : String := String.ofList (titleFrom true s.toList)

/-- The second value unless it is null or the empty string. -/
def fallback : Helper := binary fun v w ↦
  match w with
  | .null => .ok v
  | .string s => .ok (if s.isEmpty then v else w)
  | _ => .ok w

/-- Division by zero gives zero. -/
def quotient (x y : Float) : Float := if y == 0 then 0 else x / y

end Helper

/-- The helpers that every report has. -/
def Helpers.standard : Helpers :=
  ⟨[ ("upper", Helper.onString upperText),
     ("lower", Helper.onString lowerText),
     ("title", Helper.onString Helper.titleText),
     ("trim", Helper.onString trimmed),
     ("default", Helper.fallback),
     ("add", Helper.onNumbers (· + ·)),
     ("sub", Helper.onNumbers (· - ·)),
     ("mul", Helper.onNumbers (· * ·)),
     ("div", Helper.onNumbers Helper.quotient),
     ("number", Helper.formatted .plain),
     ("currency", Helper.formatted .currency),
     ("percent", Helper.formatted .percent) ]⟩

end PagedReport
