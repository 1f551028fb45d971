/-!
# Command lines

A command line is read from left to right and the first fault or request for help decides.  An
option that takes a path has it in the next argument or after an equals sign, and every option is
given at most once.
-/

namespace PagedReport

namespace CommandLine

/-- Options that take a path. -/
inductive PathOption where
  | template
  | data
  | output
  | fontDirectory
  | imageDirectory
deriving DecidableEq, Repr

inductive Flag where
  | validate
  | compress
deriving DecidableEq, Repr

/-- Options that end the reading. -/
inductive Question where
  | help
  | version
deriving DecidableEq, Repr

inductive OptionName where
  | path (o : PathOption)
  | flag (f : Flag)
  | question (q : Question)
deriving DecidableEq, Repr

/-- An option by its long name. -/
def OptionName.ofName? : String → Option OptionName
  | "template" => some (.path .template)
  | "data" => some (.path .data)
  | "output" => some (.path .output)
  | "font-dir" => some (.path .fontDirectory)
  | "image-dir" => some (.path .imageDirectory)
  | "validate" => some (.flag .validate)
  | "compress" => some (.flag .compress)
  | "help" => some (.question .help)
  | "version" => some (.question .version)
  | _ => none

/-- An option by its letter. -/
def Question.ofLetter? : Char → Option Question
  | 'h' => some .help
  | 'V' => some .version
  | _ => none

inductive UsageError where
  | unexpected (argument : String)
  | repeated (argument : String)
  | missingValue (argument : String)
  | unneededValue (argument : String)
  | missingTemplate
deriving DecidableEq, Repr

def UsageError.message : UsageError → String
  | unexpected argument => s!"unexpected argument '{argument}' found"
  | repeated argument => s!"the argument '{argument}' cannot be used multiple times"
  | missingValue argument => s!"a value is required for '{argument}' but none was supplied"
  | unneededValue argument => s!"unexpected value for '{argument}' found; no more were expected"
  | missingTemplate => "the following required arguments were not provided: --template <TEMPLATE>"

/-! ## Single arguments -/

/-- What one argument looks like. -/
inductive Argument where
  | value
  /-- No options follow. -/
  | terminator
  | long (name : String) (value : Option String)
  | short (letter : Char)
deriving DecidableEq, Repr

def Argument.ofString (s : String) : Argument :=
  match s.toList with
  | ['-', '-'] => .terminator
  | '-' :: '-' :: rest =>
    let name := rest.takeWhile (· != '=')
    .long (String.ofList name) ((rest[name.length]?).map fun _ ↦
      String.ofList (rest.drop (name.length + 1)))
  | '-' :: letter :: _ => .short letter
  | _ => .value

/-! ## Whole command lines -/

/-- The options given so far. -/
structure Given where
  paths : List (PathOption × String) := []
  flags : List Flag := []
deriving DecidableEq, Repr

namespace Given

def path? (g : Given) (o : PathOption) : Option String := g.paths.lookup o

def has (g : Given) (f : Flag) : Bool := g.flags.contains f

def setPath (argument : String) (o : PathOption) (path : String) (g : Given) :
    Except UsageError Given :=
  if path.isEmpty then .error (.missingValue argument)
  else if (g.path? o).isSome then .error (.repeated argument)
  else .ok { g with paths := (o, path) :: g.paths }

def setFlag (argument : String) (f : Flag) (g : Given) : Except UsageError Given :=
  if g.has f then .error (.repeated argument) else .ok { g with flags := f :: g.flags }

end Given

/-- What is to be done. -/
structure Order where
  template : String
  data : Option String
  output : String
  fontDirectory : Option String
  imageDirectory : Option String
  /-- Only the template is read. -/
  validate : Bool
  compress : Bool
deriving DecidableEq, Repr

inductive Request where
  | question (q : Question)
  | order (o : Order)
deriving DecidableEq, Repr

def usualOutput : String := "output.pdf"

/-- The order that the options make up. -/
def Given.order (g : Given) : Except UsageError Order :=
  match g.path? .template with
  | none => .error .missingTemplate
  | some template => .ok
    { template
      data := g.path? .data
      output := (g.path? .output).getD usualOutput
      fontDirectory := g.path? .fontDirectory
      imageDirectory := g.path? .imageDirectory
      validate := g.has .validate
      compress := g.has .compress }

/-- Reads what follows the options given so far. -/
def readAfter : List String → Given → Except UsageError Request
  | [], g => g.order.map .order
  | argument :: rest, g =>
    match Argument.ofString argument with
    | .value => .error (.unexpected argument)
    | .terminator =>
      match rest with
      | [] => g.order.map .order
      | extra :: _ => .error (.unexpected extra)
    | .short letter =>
      match Question.ofLetter? letter with
      | some q => .ok (.question q)
      | none => .error (.unexpected argument)
    | .long name value =>
      match OptionName.ofName? name, value with
      | none, _ => .error (.unexpected argument)
      | some (.flag _), some _ => .error (.unneededValue argument)
      | some (.question _), some _ => .error (.unneededValue argument)
      | some (.question q), none => .ok (.question q)
      | some (.flag f), none =>
        match g.setFlag argument f with
        | .error e => .error e
        | .ok g => readAfter rest g
      | some (.path o), some path =>
        match g.setPath argument o path with
        | .error e => .error e
        | .ok g => readAfter rest g
      | some (.path o), none =>
        match rest with
        | [] => .error (.missingValue argument)
        | path :: rest =>
          match Argument.ofString path with
          | .value =>
            match g.setPath argument o path with
            | .error e => .error e
            | .ok g => readAfter rest g
          | _ => .error (.missingValue argument)

/-- Reads a command line. -/
def read (arguments : List String) : Except UsageError Request := readAfter arguments {}

end CommandLine

end PagedReport
