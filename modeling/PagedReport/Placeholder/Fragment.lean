import PagedReport.Placeholder.Evaluation

/-!
# Fragments

A fragment of text holds actions between `{{` and `}}`.  A closing mark inside a quoted or backtick
string does not close.  A dash and a space just inside a mark remove the blanks of the text beside
that mark, and an action that is a comment leaves nothing behind.
-/

namespace PagedReport

/-- What a fragment consists of. -/
inductive Segment where
  | text (cs : List Char)
  | action (p : Pipeline)
  | comment

namespace Fragment

/-- The text before the first opening mark and what follows that mark. -/
def findOpen : List Char → Option (List Char × List Char)
  | [] => none
  | '{' :: '{' :: cs => some ([], cs)
  | c :: cs =>
    match findOpen cs with
    | some (before, after) => some (c :: before, after)
    | none => none

/-- Where a scan for a closing mark stands. -/
inductive Inside where
  | action
  | quotes
  /-- After a backslash between quotes. -/
  | escape
  | backticks

/-- The text before the first closing mark outside strings and what follows that mark. -/
def findClose : Inside → List Char → Option (List Char × List Char)
  | _, [] => none
  | .action, '}' :: '}' :: cs => some ([], cs)
  | i, c :: cs =>
    let next : Inside :=
      match i with
      | .action => if c == '"' then .quotes else if c == '`' then .backticks else .action
      | .quotes => if c == '"' then .action else if c == '\\' then .escape else .quotes
      | .escape => .quotes
      | .backticks => if c == '`' then .action else .backticks
    match findClose next cs with
    | some (before, after) => some (c :: before, after)
    | none => none

/-- The body of an action, and whether the blanks before and after it go. -/
structure Marked where
  body : List Char
  trimsBefore : Bool
  trimsAfter : Bool
deriving DecidableEq

/-- The text without its last two characters if these are a space and a dash. -/
def dropEndMark (cs : List Char) : Option (List Char) :=
  match cs.reverse with
  | '-' :: ' ' :: rest => some rest.reverse
  | _ => none

/-- Takes the marks for trimming off what stands between the braces. -/
def marked (inside : List Char) : Marked :=
  let (body, before) :=
    match inside with
    | '-' :: ' ' :: rest => (rest, true)
    | _ => (inside, false)
  match dropEndMark body with
  | some body => ⟨body, before, true⟩
  | none => ⟨body, before, false⟩

/-- A body that begins with `/*` and ends with `*/`, blanks at its ends apart. -/
def isComment (body : List Char) : Bool :=
  let cs := trimBoth body
  match cs, cs.reverse with
  | '/' :: '*' :: _, '/' :: '*' :: _ => true
  | _, _ => false

def textSegment (cs : List Char) : List Segment := if cs.isEmpty then [] else [.text cs]

def actionSegment (body : List Char) : Except BindingError Segment :=
  if isComment body then .ok .comment else
  match Action.read (String.ofList body) with
  | .ok p => .ok (.action p)
  | .error e => .error (.malformed (String.ofList body) e)

/-- The segments of the rest of a fragment, in which at most `fuel` actions begin. -/
def splitFrom (fragment : String) : Nat → Bool → List Char → Except BindingError (List Segment)
  | 0, _, _ => .error (.unclosed fragment)
  | fuel + 1, trims, cs =>
    match findOpen cs with
    | none => .ok (textSegment (if trims then trimLeft cs else cs))
    | some (before, after) =>
      match findClose .action after with
      | none => .error (.unclosed fragment)
      | some (inside, rest) => do
        let m := marked inside
        let text := if trims then trimLeft before else before
        let text := if m.trimsBefore then trimRight text else text
        let action ← actionSegment m.body
        let more ← splitFrom fragment fuel m.trimsAfter rest
        return textSegment text ++ action :: more

def split (fragment : String) : Except BindingError (List Segment) :=
  splitFrom fragment (fragment.length + 1) false fragment.toList

end Fragment

/-- The text that takes the place of a segment. -/
def Segment.render (scope : Scope) (fragment : String) : Segment → Except BindingError (List Char)
  | .text cs => .ok cs
  | .comment => .ok []
  | .action p => do
    let v ← evaluate scope p
    match v.print? with
    | some s => return s.toList
    | none => .error (.noValue fragment)

/-- A fragment with every action replaced by its printed value. -/
def tryResolve (helpers : Helpers) (data : Value) (fragment : String) :
    Except BindingError String := do
  let segments ← Fragment.split fragment
  let texts ← segments.mapM (·.render ⟨data, data, helpers⟩ fragment)
  return String.ofList texts.flatten

/-- Like `tryResolve`, but a fragment that cannot be resolved stays as it is. -/
def resolve (helpers : Helpers) (data : Value) (fragment : String) : String :=
  match tryResolve helpers data fragment with
  | .ok s => s
  | .error _ => fragment

end PagedReport
