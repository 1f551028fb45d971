import PagedReport.CommandLine.Arguments
import PagedReport.Generator.Drawing

/-!
# Answering command lines

A command line becomes a job whose result is what the program prints and the code it ends with:
zero, one if the report failed, two if the command line is at fault.
-/

namespace PagedReport

namespace CommandLine

structure Answer where
  code : Nat := 0
  output : String := ""
  errors : String := ""
deriving DecidableEq, Repr

def help : String :=
  "Generate a PDF report from an XML template and JSON data\n\n" ++
  "Usage: quire [OPTIONS] --template <TEMPLATE>\n\n" ++
  "Options:\n" ++
  "      --template <TEMPLATE>    Path to the XML template file\n" ++
  "      --data <DATA>            Path to the JSON data file\n" ++
  "      --output <OUTPUT>        Path for the output PDF file [default: output.pdf]\n" ++
  "      --validate               Only validate the template without generating a PDF\n" ++
  "      --font-dir <FONT_DIR>    Base directory for relative font paths\n" ++
  "      --image-dir <IMAGE_DIR>  Base directory for relative image paths\n" ++
  "      --compress               Compress PDF streams\n" ++
  "  -h, --help                   Print help\n" ++
  "  -V, --version                Print version\n"

def version : String := "quire 0.1.0\n"

def Answer.ofFault (e : ReportError) : Answer :=
  { code := 1, errors := s!"Error: {e.message}\n" }

def Answer.ofUsage (e : UsageError) : Answer :=
  { code := 2, errors := s!"error: {e.message}\n\nFor more information, try '--help'.\n" }

def Answer.ofQuestion : Question → Answer
  | .help => { output := help }
  | .version => { output := version }

/-- The generator that an order asks for, with nothing loaded. -/
def Order.generator (o : Order) : Generator :=
  { options :=
      { fontDirectory := o.fontDirectory
        imageDirectory := o.imageDirectory
        compress := o.compress } }

/-- Carries an order out up to the first fault, and gives what is printed then. -/
def Order.job (o : Order) : Job (Except ReportError String) := do
  match o.generator.load (← Job.fetch [o.template]) (.templateAt o.template) with
  | (_, .error e, _) => return .error e
  | (g, .ok (), _) =>
    if o.validate then return .ok "Template validation successful\n"
    match g.load (← Job.fetch o.data.toList) ((o.data.map .dataAt).getD (.members [])) with
    | (_, .error e, _) => return .error e
    | (g, .ok (), _) =>
      match ← g.generate o.output with
      | (.error e, _) => return .error e
      | (.ok (), _) => return .ok s!"PDF generated successfully: {o.output}\n"

/-- What a command line does and answers. -/
def answer (arguments : List String) : Job Answer :=
  match read arguments with
  | .error e => .done (.ofUsage e)
  | .ok (.question q) => .done (.ofQuestion q)
  | .ok (.order o) =>
    o.job.bind fun
      | .error e => .done (.ofFault e)
      | .ok output => .done { output }

end CommandLine

end PagedReport
