import PagedReport.Data.Json
import PagedReport.Placeholder.Action
import PagedReport.Text.Blank
import PagedReport.Text.Letter
import PagedReport.Text.Quoted

/-!
# Reading actions

Alternatives are tried in a fixed order and each takes as much as it can.  A reader that does not
apply lets the next one try; a string literal that begins but cannot be finished ends the reading at
once.
-/

namespace PagedReport

/-- Why a text is no action, with the text from the point of failure on. -/
inductive ActionError where
  /-- A whole pipeline was read and something follows it. -/
  | leftover (rest : List Char)
  /-- No alternative applies. -/
  | noOperand (rest : List Char)
  /-- A quoted string without its closing quote. -/
  | unterminated (rest : List Char)
  /-- A backslash before anything but `n`, `t`, `\` and `"`. -/
  | badEscape (rest : List Char)
deriving DecidableEq, Repr

/-- A failure at a place in the input, with the code of what was tried there. -/
def failureText (weight : String) (rest : List Char) (code : String) : String :=
  "Parsing " ++ weight ++ ": Error \x7b input: " ++ quotedText rest ++ ", code: " ++ code ++ " \x7d"

def ActionError.message : ActionError → String
  | .leftover rest => "Unexpected input: '" ++ String.ofList rest ++ "'"
  | .noOperand rest => failureText "Error" rest "Tag"
  | .unterminated rest => failureText "Failure" rest "Char"
  | .badEscape rest => failureText "Failure" rest "Escaped"

/-- What comes of trying to read something from the front of a text. -/
inductive Reading (α : Type) where
  | read (a : α) (rest : List Char)
  /-- The text begins with something else. -/
  | other (e : ActionError)
  /-- The text cannot be read at all. -/
  | failed (e : ActionError)

namespace Reading

def map {α β : Type} (f : α → β) : Reading α → Reading β
  | read a rest => read (f a) rest
  | other e => other e
  | failed e => failed e

end Reading

namespace Action

/-- A blank between words and around `|`. -/
def isGap (c : Char) : Bool := c == ' ' || c == '\t' || c == '\r' || c == '\n'

def skipGap (cs : List Char) : List Char := cs.dropWhile isGap

def isAsciiLetter (c : Char) : Bool := c.isAlpha

def continuesName (c : Char) : Bool := isAlphanumeric c || c == '_'

/-- The longest name at the front. -/
def name? : List Char → Option (String × List Char)
  | [] => none
  | c :: cs =>
    if isAsciiLetter c || c == '_' then
      let more := cs.takeWhile continuesName
      some (String.ofList (c :: more), cs.dropWhile continuesName)
    else none

/-- The names that stand for values. -/
def keyword? (name : String) : Option Value :=
  if name == "true" then some (.bool true)
  else if name == "false" then some (.bool false)
  else if name == "nil" then some .null
  else none

/-- The rest of a quoted string; `opening` is the text from its opening quote on. -/
def quoted (opening : List Char) : List Char → List Char → Reading Value
  | _, [] => .failed (.unterminated opening)
  | acc, '"' :: cs => .read (.string (String.ofList acc.reverse)) cs
  | acc, '\\' :: 'n' :: cs => quoted opening ('\n' :: acc) cs
  | acc, '\\' :: 't' :: cs => quoted opening ('\t' :: acc) cs
  | acc, '\\' :: '\\' :: cs => quoted opening ('\\' :: acc) cs
  | acc, '\\' :: '"' :: cs => quoted opening ('"' :: acc) cs
  | _, '\\' :: cs => .failed (.badEscape ('\\' :: cs))
  | acc, c :: cs => quoted opening (c :: acc) cs

/-- A run of digits, which must not be empty. -/
def digits? (cs : List Char) : Option (List Char × List Char) :=
  let ds := cs.takeWhile Char.isDigit
  if ds.isEmpty then none else some (ds, cs.drop ds.length)

/-- The fraction of a number, if there is one. -/
def fraction : List Char → List Char × List Char
  | '.' :: cs =>
    match digits? cs with
    | some (ds, rest) => ('.' :: ds, rest)
    | none => ([], '.' :: cs)
  | cs => ([], cs)

/-- The exponent of a number, if there is one. -/
def exponent : List Char → List Char × List Char
  | [] => ([], [])
  | c :: cs =>
    let none? := ([], c :: cs)
    if c == 'e' || c == 'E' then
      let sign := cs.take 1 |>.filter fun s ↦ s == '+' || s == '-'
      match digits? (cs.drop sign.length) with
      | some (ds, rest) => (c :: sign ++ ds, rest)
      | none => none?
    else none?

/-- The value of a number literal: an integer of sixty-four bits or else a double, and null when
that is infinite. -/
def literalValue (text : List Char) : Value :=
  match readInt64 text with
  | .ok n => .number (.integer n)
  | .error _ =>
    match readDouble text with
    | some x => if x.isFinite then .number (.double x) else .null
    | none => .null

/-- A number literal at the front. -/
def number? (cs : List Char) : Option (Value × List Char) :=
  let sign := cs.take 1 |>.filter (· == '-')
  match digits? (cs.drop sign.length) with
  | none => none
  | some (whole, rest) =>
    let (frac, rest) := fraction rest
    let (exp, rest) := exponent rest
    some (literalValue (sign ++ whole ++ frac ++ exp), rest)

/-- As many `.name` as there are, at most `fuel`. -/
def segments : Nat → List Char → List String × List Char
  | 0, cs => ([], cs)
  | fuel + 1, '.' :: cs =>
    match name? cs with
    | some (key, rest) =>
      let (keys, rest) := segments fuel rest
      (key :: keys, rest)
    | none => ([], '.' :: cs)
  | _ + 1, cs => ([], cs)

/-- A keyword, or a helper called without arguments. -/
def bare (cs : List Char) : Reading Operand :=
  match name? cs with
  | none => .other (.noOperand cs)
  | some (name, rest) =>
    match keyword? name with
    | some v => .read (.literal v) rest
    | none => .read (.nested [.call name []]) rest

section

variable (inner : List Char → Reading Pipeline)

/-- A pipeline in parentheses, given a reader of pipelines. -/
def parenthesised (opening cs : List Char) : Reading Operand :=
  match inner (skipGap cs) with
  | .read p rest =>
    match skipGap rest with
    | ')' :: rest => .read (.nested p) rest
    | _ => .other (.noOperand opening)
  | .other _ => .other (.noOperand opening)
  | .failed e => .failed e

/-- An operand at the front. -/
def operand (cs : List Char) : Reading Operand :=
  match cs with
  | '"' :: rest => (quoted cs [] rest).map .literal
  | '`' :: rest =>
    match rest.dropWhile (· != '`') with
    | _ :: after => .read (.literal (.string (String.ofList (rest.takeWhile (· != '`'))))) after
    | [] => .other (.noOperand cs)
  | '$' :: rest =>
    let (path, rest) := segments rest.length rest
    .read (.root path) rest
  | '.' :: rest =>
    match segments cs.length cs with
    | ([], _) => .read (.field []) rest
    | (path, rest) => .read (.field path) rest
  | '(' :: rest => parenthesised inner cs rest
  | _ =>
    match number? cs with
    | some (v, rest) => .read (.literal v) rest
    | none => bare cs

/-- Operands, each after a gap, at most `fuel`. -/
def arguments : Nat → List Char → Reading (List Operand)
  | 0, cs => .read [] cs
  | fuel + 1, cs =>
    let after := skipGap cs
    if after.length = cs.length then .read [] cs else
    match operand inner after with
    | .read o rest =>
      match arguments fuel rest with
      | .read os rest => .read (o :: os) rest
      | .other e => .other e
      | .failed e => .failed e
    | .other _ => .read [] cs
    | .failed e => .failed e

/-- A call if the text begins with a name that is no keyword, else an operand. -/
def command (cs : List Char) : Reading Command :=
  match name? cs with
  | some (name, rest) =>
    match keyword? name with
    | none => (arguments inner rest.length rest).map (.call name)
    | some _ => (operand inner cs).map .operand
  | none => (operand inner cs).map .operand

/-- Commands, each after a `|`, at most `fuel`. -/
def stages : Nat → List Char → Reading (List Command)
  | 0, cs => .read [] cs
  | fuel + 1, cs =>
    match skipGap cs with
    | '|' :: after =>
      match command inner (skipGap after) with
      | .read c rest =>
        match stages fuel rest with
        | .read more rest => .read (c :: more) rest
        | .other e => .other e
        | .failed e => .failed e
      | .other _ => .read [] cs
      | .failed e => .failed e
    | _ => .read [] cs

/-- Commands joined by `|`. -/
def joined (cs : List Char) : Reading Pipeline :=
  match command inner cs with
  | .read c rest => (stages inner rest.length rest).map (c :: ·)
  | .other e => .other e
  | .failed e => .failed e

end

/-- A pipeline in which parentheses nest less than `depth` deep. -/
def pipeline : Nat → List Char → Reading Pipeline
  | 0, cs => .other (.noOperand cs)
  | depth + 1, cs => joined (pipeline depth) cs

/-- The pipeline that a whole text is, blanks at its ends apart. -/
def read (s : String) : Except ActionError Pipeline :=
  let cs := trimBoth s.toList
  match pipeline (cs.count '(' + 1) cs with
  | .read p [] => .ok p
  | .read _ rest => .error (.leftover rest)
  | .other e => .error e
  | .failed e => .error e

end Action

end PagedReport
