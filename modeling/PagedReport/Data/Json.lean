import PagedReport.Data.Value
import PagedReport.Number.Reading

/-!
# Reading JSON

`Json.read` takes a whole text as one value.  A failure names its cause and the line and column,
in bytes, up to which the text was accepted or looked at.  Values nest at most 127 deep; the depth
left is what the recursion runs on.
-/

namespace PagedReport

namespace Json

inductive Cause where
  | eofInList
  | eofInObject
  | eofInString
  | eofInValue
  | expectedColon
  | expectedListCommaOrEnd
  | expectedObjectCommaOrEnd
  | expectedIdent
  | expectedValue
  | invalidEscape
  | invalidNumber
  | numberOutOfRange
  | controlCharacter
  | keyMustBeString
  | loneSurrogate
  | trailingComma
  | trailingCharacters
  | unexpectedEndOfHexEscape
  | tooDeep
deriving DecidableEq, Repr

def Cause.message : Cause → String
  | .eofInList => "EOF while parsing a list"
  | .eofInObject => "EOF while parsing an object"
  | .eofInString => "EOF while parsing a string"
  | .eofInValue => "EOF while parsing a value"
  | .expectedColon => "expected `:`"
  | .expectedListCommaOrEnd => "expected `,` or `]`"
  | .expectedObjectCommaOrEnd => "expected `,` or `\x7d`"
  | .expectedIdent => "expected ident"
  | .expectedValue => "expected value"
  | .invalidEscape => "invalid escape"
  | .invalidNumber => "invalid number"
  | .numberOutOfRange => "number out of range"
  | .controlCharacter => "control character (\\u0000-\\u001F) found while parsing a string"
  | .keyMustBeString => "key must be a string"
  | .loneSurrogate => "lone leading surrogate in hex escape"
  | .trailingComma => "trailing comma"
  | .trailingCharacters => "trailing characters"
  | .unexpectedEndOfHexEscape => "unexpected end of hex escape"
  | .tooDeep => "recursion limit exceeded"

structure Failure where
  cause : Cause
  line : Nat
  column : Nat
deriving DecidableEq, Repr

def Failure.message (e : Failure) : String :=
  s!"{e.cause.message} at line {e.line} column {e.column}"

/-- What is left of the text, and how far in it starts. -/
structure Cursor where
  rest : List Char
  line : Nat := 1
  column : Nat := 0

namespace Cursor

/-- Past one character, of which `rest` is what follows. -/
def past (c : Cursor) (ch : Char) (rest : List Char) : Cursor :=
  if ch == '\n' then ⟨rest, c.line + 1, 0⟩ else ⟨rest, c.line, c.column + ch.utf8Size⟩

def failHere {α : Type} (c : Cursor) (cause : Cause) : Except Failure α :=
  .error ⟨cause, c.line, c.column⟩

/-- Fails at the next byte, which has been looked at but not taken. -/
def failNext {α : Type} (c : Cursor) (cause : Cause) : Except Failure α :=
  match c.rest with
  | [] => c.failHere cause
  | '\n' :: _ => .error ⟨cause, c.line + 1, 0⟩
  | _ => .error ⟨cause, c.line, c.column + 1⟩

/-- Past the blanks of JSON. -/
def skipBlanks (c : Cursor) : Cursor :=
  go c.rest c
where
  go : List Char → Cursor → Cursor
    | [], c => c
    | ch :: rest, c =>
      if ch == ' ' || ch == '\n' || ch == '\t' || ch == '\r' then go rest (c.past ch rest) else c

end Cursor

abbrev Reader (α : Type) := Cursor → Except Failure (α × Cursor)

/-- Past `n` bytes, which may end inside a character. -/
def pastBytes : Nat → Cursor → Cursor
  | 0, c => c
  | n + 1, c =>
    match c.rest with
    | [] => c
    | ch :: rest =>
      if n + 1 < ch.utf8Size then { c with column := c.column + n + 1 }
      else pastBytes (n + 1 - ch.utf8Size) (c.past ch rest)
  termination_by n => n
  decreasing_by have := ch.utf8Size_pos; omega

/-- Fails just past the next byte, which has been taken. -/
def failPast {α : Type} (c : Cursor) (cause : Cause) : Except Failure α :=
  (pastBytes 1 c).failHere cause

/-- The letters of a word after its first. -/
def word : List Char → Reader Unit
  | [], c => .ok ((), c)
  | w :: ws, c =>
    match c.rest with
    | [] => c.failHere .eofInValue
    | ch :: rest => if ch = w then word ws (c.past ch rest) else failPast c .expectedIdent

/-- Past a run of digits, with the digits. -/
def digits (c : Cursor) : List Char × Cursor :=
  let ds := c.rest.takeWhile Char.isDigit
  (ds, ⟨c.rest.drop ds.length, c.line, c.column + ds.length⟩)

/-- The number of leading digits of an exponent, up to the first that takes it past `2^31 - 1`. -/
def exponentSpan (n taken : Nat) : List Char → Option Nat
  | [] => none
  | d :: ds =>
    let next := n * 10 + (d.toNat - 48)
    if Nat.pow 2 31 - 1 < next then some (taken + 1) else exponentSpan next (taken + 1) ds

/-- A double from its parts; one beyond the finite doubles is refused. -/
def double (negative : Bool) (significand : Nat) (exponent : Int) : Reader Number := fun c ↦
  let x := decimalToDouble negative significand exponent
  if x.isFinite then .ok (.double x, c) else c.failHere .numberOutOfRange

/-- The exponent after its mark, then the number that ends with it. -/
def exponentPart (negative : Bool) (significand : Nat) (places : Nat) : Reader Number := fun c ↦
  let (minus, c) : Bool × Cursor :=
    match c.rest with
    | '+' :: rest => (false, c.past '+' rest)
    | '-' :: rest => (true, c.past '-' rest)
    | _ => (false, c)
  match c.rest with
  | [] => c.failHere .eofInValue
  | d :: _ =>
    if !d.isDigit then failPast c .invalidNumber else
    let (ds, after) := digits c
    match exponentSpan 0 0 ds with
    | some taken =>
      if significand ≠ 0 && !minus then
        (⟨[], c.line, c.column + taken⟩ : Cursor).failHere .numberOutOfRange
      else .ok (.double (decimalToDouble negative 0 0), after)
    | none =>
      let e : Int := if minus then -(digitsValue ds : Int) else digitsValue ds
      double negative significand (e - places) after

/-- What may follow the whole part of a number. -/
def afterWhole (negative : Bool) (whole : Nat) : Reader Number := fun c ↦
  match c.rest with
  | '.' :: rest =>
    let c := c.past '.' rest
    let (ds, after) := digits c
    if ds.isEmpty then
      match c.rest with
      | [] => c.failNext .eofInValue
      | _ => c.failNext .invalidNumber
    else
      let significand := whole * Nat.pow 10 ds.length + digitsValue ds
      match after.rest with
      | 'e' :: rest => exponentPart negative significand ds.length (after.past 'e' rest)
      | 'E' :: rest => exponentPart negative significand ds.length (after.past 'E' rest)
      | _ => double negative significand (-(ds.length : Int)) after
  | 'e' :: rest => exponentPart negative whole 0 (c.past 'e' rest)
  | 'E' :: rest => exponentPart negative whole 0 (c.past 'E' rest)
  | _ =>
    if negative then
      if whole = 0 || Nat.pow 2 63 < whole then double true whole 0 c
      else .ok (.integer (-(whole : Int)), c)
    else if whole < Nat.pow 2 64 then .ok (.integer whole, c)
    else double false whole 0 c

/-- A number without its sign. -/
def number (negative : Bool) : Reader Number := fun c ↦
  match c.rest with
  | [] => c.failHere .eofInValue
  | '0' :: rest =>
    let c := c.past '0' rest
    match rest with
    | d :: _ => if d.isDigit then c.failNext .invalidNumber else afterWhole negative 0 c
    | [] => afterWhole negative 0 c
  | d :: _ =>
    if d.isDigit then
      let (ds, after) := digits c
      afterWhole negative (digitsValue ds) after
    else failPast c .invalidNumber

/-- The four digits of an escape by number. -/
def hexEscape : Reader Nat := fun c ↦
  let bytes := c.rest.foldl (fun n ch ↦ n + ch.utf8Size) 0
  let after := pastBytes 4 c
  if bytes < 4 then (pastBytes bytes c).failHere .eofInString else
  match (c.rest.take 4).mapM (digitValue 16) with
  | some ds => .ok (ds.foldl (fun n d ↦ n * 16 + d) 0, after)
  | none => after.failHere .invalidEscape

/-- Expects one character of the second half of a surrogate pair. -/
def pairMark (ch : Char) : Reader Unit := fun c ↦
  match c.rest with
  | [] => c.failHere .eofInString
  | x :: rest =>
    if x = ch then .ok ((), c.past x rest)
    else failPast c .unexpectedEndOfHexEscape

/-- A character by number, or by the two numbers of a surrogate pair. -/
def unicodeEscape : Reader Char := fun c ↦ do
  let (n, c) ← hexEscape c
  if 0xDC00 ≤ n && n ≤ 0xDFFF then c.failHere .loneSurrogate
  else if n < 0xD800 || 0xDBFF < n then return (Char.ofNat n, c)
  else
    let ((), c) ← pairMark '\\' c
    let ((), c) ← pairMark 'u' c
    let (low, c) ← hexEscape c
    if low < 0xDC00 || 0xDFFF < low then c.failHere .loneSurrogate
    else return (Char.ofNat ((n - 0xD800) * 1024 + (low - 0xDC00) + 0x10000), c)

/-- What follows a backslash. -/
def escape : Reader Char := fun c ↦
  match c.rest with
  | [] => c.failHere .eofInString
  | ch :: rest =>
    let after := c.past ch rest
    match ch with
    | '"' => .ok ('"', after)
    | '\\' => .ok ('\\', after)
    | '/' => .ok ('/', after)
    | 'b' => .ok ('\x08', after)
    | 'f' => .ok ('\x0c', after)
    | 'n' => .ok ('\n', after)
    | 'r' => .ok ('\r', after)
    | 't' => .ok ('\t', after)
    | 'u' => unicodeEscape after
    | _ => failPast c .invalidEscape

/-- A string after its opening quote, of less than `fuel` characters; `acc` is reversed. -/
def stringBody : Nat → List Char → Reader String
  | 0, _, c => c.failHere .eofInString
  | fuel + 1, acc, c =>
    match c.rest with
    | [] => c.failHere .eofInString
    | ch :: rest =>
      let after := c.past ch rest
      if ch == '"' then .ok (String.ofList acc.reverse, after)
      else if ch == '\\' then
        match escape after with
        | .ok (e, c) => stringBody fuel (e :: acc) c
        | .error e => .error e
      else if ch.toNat < 32 then after.failHere .controlCharacter
      else stringBody fuel (ch :: acc) after

/-- The items of a list after its opening bracket. -/
def items (item : Reader Value) : Nat → Bool → List Value → Reader (List Value)
  | 0, _, _, c => c.failHere .eofInList
  | fuel + 1, first, acc, c => do
    let c := c.skipBlanks
    let next := fun (c : Cursor) ↦ do
      let (v, c) ← item c
      items item fuel false (v :: acc) c
    match c.rest with
    | [] => c.failNext .eofInList
    | ']' :: rest => return (acc.reverse, c.past ']' rest)
    | ch :: rest =>
      if first then next c
      else if ch == ',' then
        let c := (c.past ',' rest).skipBlanks
        match c.rest with
        | [] => c.failNext .eofInValue
        | ']' :: _ => c.failNext .trailingComma
        | _ => next c
      else c.failNext .expectedListCommaOrEnd

/-- A key, a colon and a value. -/
def entry (size : Nat) (item : Reader Value) : Reader (String × Value) := fun c ↦
  match c.rest with
  | '"' :: rest => do
    let (key, c) ← stringBody (size + 1) [] (c.past '"' rest)
    let c := c.skipBlanks
    match c.rest with
    | [] => c.failNext .eofInObject
    | ':' :: rest =>
      let (v, c) ← item (c.past ':' rest)
      return ((key, v), c)
    | _ => c.failNext .expectedColon
  | _ => c.failNext .keyMustBeString

/-- The members of an object after its opening brace, as they are written. -/
def entries (size : Nat) (item : Reader Value) :
    Nat → Bool → List (String × Value) → Reader (List (String × Value))
  | 0, _, _, c => c.failHere .eofInObject
  | fuel + 1, first, acc, c => do
    let c := c.skipBlanks
    let next := fun (c : Cursor) ↦ do
      let (kv, c) ← entry size item c
      entries size item fuel false (kv :: acc) c
    match c.rest with
    | [] => c.failNext .eofInObject
    | '}' :: rest => return (acc.reverse, c.past '}' rest)
    | ch :: rest =>
      if first then next c
      else if ch == ',' then
        let c := (c.past ',' rest).skipBlanks
        match c.rest with
        | [] => c.failNext .eofInValue
        | '}' :: _ => c.failNext .trailingComma
        | _ => next c
      else c.failNext .expectedObjectCommaOrEnd

/-- One value, in which lists and objects nest at most `depth` deep.
No text is longer than `size`. -/
def value (size : Nat) : Nat → Reader Value
  | depth, c =>
    let c := c.skipBlanks
    match c.rest with
    | [] => c.failNext .eofInValue
    | ch :: rest =>
      let after := c.past ch rest
      if ch == 'n' then do
        let ((), c) ← word ['u', 'l', 'l'] after
        return (.null, c)
      else if ch == 't' then do
        let ((), c) ← word ['r', 'u', 'e'] after
        return (.bool true, c)
      else if ch == 'f' then do
        let ((), c) ← word ['a', 'l', 's', 'e'] after
        return (.bool false, c)
      else if ch == '-' then do
        let (n, c) ← number true after
        return (.number n, c)
      else if ch.isDigit then do
        let (n, c) ← number false c
        return (.number n, c)
      else if ch == '"' then do
        let (s, c) ← stringBody (size + 1) [] after
        return (.string s, c)
      else if ch == '[' then
        match depth with
        | 0 => c.failNext .tooDeep
        | depth + 1 => do
          let (vs, c) ← items (value size depth) (size + 1) true [] after
          return (.array vs, c)
      else if ch == '{' then
        match depth with
        | 0 => c.failNext .tooDeep
        | depth + 1 => do
          let (kvs, c) ← entries size (value size depth) (size + 1) true [] after
          return (.object (Members.ofList kvs), c)
      else c.failNext .expectedValue

/-- A text that is one value and nothing else but blanks. -/
def read (s : String) : Except Failure Value := do
  let text := s.toList
  let (v, c) ← value text.length 127 ⟨text, 1, 0⟩
  let c := c.skipBlanks
  match c.rest with
  | [] => return v
  | _ => c.failNext .trailingCharacters

end Json

end PagedReport
