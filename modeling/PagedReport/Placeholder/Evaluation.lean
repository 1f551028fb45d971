import PagedReport.Placeholder.Helper
import PagedReport.Placeholder.Reading

/-!
# Evaluating actions

A helper is looked up before its arguments are evaluated, and the value piped into a call comes
after its own arguments.
-/

namespace PagedReport

/-- Why a path leads nowhere: a value on the way has no members. -/
inductive SelectionError where
  | missing (key : String)
  | notObject (key : String) (typeName : String)
deriving DecidableEq, Repr

/-- Why a fragment or one of its actions has no text. -/
inductive BindingError where
  | malformed (action : String) (cause : ActionError)
  | unclosed (fragment : String)
  | unknownHelper (name : String)
  | helper (name : String) (cause : HelperError)
  | noValue (fragment : String)
  | selection (cause : SelectionError)
  /-- An operand that is no call stands after a `|`. -/
  | pipedIntoOperand

def SelectionError.message : SelectionError → String
  | .missing key => s!"Cannot read field '{key}' of a missing value"
  | .notObject key typeName => s!"Cannot read field '{key}' of {typeName}"

def BindingError.message : BindingError → String
  | .malformed action cause => s!"Placeholder parse error in '{action}': {cause.message}"
  | .unclosed fragment => s!"Unclosed placeholder in '{fragment}'"
  | .unknownHelper name => s!"Unknown helper: {name}"
  | .helper name cause => s!"Helper '{name}' error: {cause.message}"
  | .noValue fragment => s!"No value to print for '{fragment}'"
  | .selection cause => s!"Type error: {cause.message}"
  | .pipedIntoOperand => "Type error: Only helpers can receive a piped value"

/-- What an action may refer to. -/
structure Scope where
  dot : Value
  root : Value
  helpers : Helpers

/-- Follows a path.  A member that an object lacks is null, and null has no members. -/
def select : List String → Value → Except BindingError Value
  | [], v => .ok v
  | key :: path, .object m => select path ((m.lookup key).getD .null)
  | key :: _, .null => .error (.selection (.missing key))
  | key :: _, v => .error (.selection (.notObject key v.typeName))

mutual

def Operand.eval (scope : Scope) : Operand → Except BindingError Value
  | .literal v => .ok v
  | .field path => select path scope.dot
  | .root path => select path scope.root
  | .nested p => do
    let v ← evalStages scope none p
    return v.getD .null

def evalOperands (scope : Scope) : List Operand → Except BindingError (List Value)
  | [] => .ok []
  | o :: os => do
    let v ← o.eval scope
    let vs ← evalOperands scope os
    return v :: vs

def Command.eval (scope : Scope) (piped : Option Value) : Command → Except BindingError Value
  | .call name args =>
    match scope.helpers.get? name with
    | none => .error (.unknownHelper name)
    | some h => do
      let vs ← evalOperands scope args
      match h (vs ++ piped.toList) with
      | .ok v => .ok v
      | .error e => .error (.helper name e)
  | .operand o =>
    match piped with
    | some _ => .error .pipedIntoOperand
    | none => o.eval scope

/-- The value of the last stage, each stage receiving the value before it. -/
def evalStages (scope : Scope) (piped : Option Value) :
    List Command → Except BindingError (Option Value)
  | [] => .ok piped
  | c :: cs => do
    let v ← c.eval scope piped
    evalStages scope (some v) cs

end

/-- The value of a pipeline; that of no commands is null. -/
def evaluate (scope : Scope) (p : Pipeline) : Except BindingError Value := do
  let v ← evalStages scope none p
  return v.getD .null

end PagedReport
