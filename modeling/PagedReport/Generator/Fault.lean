import PagedReport.Data.Json
import PagedReport.Layout.Session
import PagedReport.Template.Reading

/-!
# What a generator can fail with

The causes, in the words of the user: the template, the data, a file or the drawing.
-/

namespace PagedReport

/-- The kind of a whole data value in messages. -/
def Value.documentKind : Value → String
  | .null => "null"
  | .bool _ => "a boolean"
  | .number _ => "a number"
  | .string _ => "a string"
  | .array _ => "an array"
  | .object _ => "an object"

/-- Why a text is no data for a report. -/
inductive DataFault where
  | malformed (e : Json.Failure)
  | notObject (found : Value)

def DataFault.message : DataFault → String
  | malformed e => e.message
  | notObject found =>
    s!"expected a JSON object at the top level, found {found.documentKind}"

/-- What was to be done with a file. -/
inductive FilePurpose where
  | data
  | output
deriving DecidableEq, Repr

def FilePurpose.text : FilePurpose → String
  | data => "read data file"
  | output => "write output file"

inductive ReportError where
  | template (e : TemplateError)
  | data (e : DataFault)
  | file (purpose : FilePurpose) (path : String) (e : FileError)
  | noTemplate
  | generation (e : GenerationError)

def ReportError.message : ReportError → String
  | template e => s!"Failed to parse template: {e.message}"
  | data e => s!"Failed to parse data: {e.message}"
  | file purpose path e => s!"Failed to {purpose.text} '{path}': {e.message}"
  | noTemplate => "No template loaded"
  | generation e => s!"Failed to generate PDF: {e.message}"

end PagedReport
