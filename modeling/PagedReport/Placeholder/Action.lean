import PagedReport.Data.Value

/-!
# Actions

What stands between double braces: a pipeline of commands over the data of the report.  A command
is a call of a helper or a single operand, and an operand may hold a pipeline in parentheses.
-/

namespace PagedReport

mutual

/-- A term with a value. -/
inductive Operand where
  | literal (v : Value)
  /-- A path from the current data. -/
  | field (path : List String)
  /-- A path from the whole data. -/
  | root (path : List String)
  | nested (pipeline : List Command)

/-- One stage of a pipeline. -/
inductive Command where
  | call (name : String) (args : List Operand)
  | operand (o : Operand)

end

/-- Stages joined by `|`; each but the first takes the value before it as its last argument. -/
abbrev Pipeline := List Command

instance : Inhabited Operand := ⟨.field []⟩

end PagedReport
