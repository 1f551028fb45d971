import PagedReport.Xml.Tree

/-!
# Scanning XML

A cursor is the rest of a text and the place where it begins.  The scanning functions here are those
that names, spaces, quotes and references are read with.
-/

namespace PagedReport

namespace Xml

structure Cursor where
  rest : List Char
  place : Position := {}

/-! ## Characters -/

/-- White space between tokens. -/
def isSpace (c : Char) : Bool := c == ' ' || c == '\t' || c == '\n' || c == '\r'

/-- The characters that a document may hold. -/
def isXmlChar (c : Char) : Bool :=
  let n := c.toNat
  if n < 0x20 then isSpace c else n != 0xFFFE && n != 0xFFFF

/-- Letters beyond ASCII that a name may begin with. -/
def isNameLetter (n : Nat) : Bool :=
  (0xC0 ≤ n && n ≤ 0xD6) || (0xD8 ≤ n && n ≤ 0xF6) || (0xF8 ≤ n && n ≤ 0x2FF) ||
    (0x370 ≤ n && n ≤ 0x37D) || (0x37F ≤ n && n ≤ 0x1FFF) || (0x200C ≤ n && n ≤ 0x200D) ||
    (0x2070 ≤ n && n ≤ 0x218F) || (0x2C00 ≤ n && n ≤ 0x2FEF) || (0x3001 ≤ n && n ≤ 0xD7FF) ||
    (0xF900 ≤ n && n ≤ 0xFDCF) || (0xFDF0 ≤ n && n ≤ 0xFFFD) || (0x10000 ≤ n && n ≤ 0xEFFFF)

def isNameStart (c : Char) : Bool :=
  if c.toNat ≤ 128 then c.isAlpha || c == ':' || c == '_' else isNameLetter c.toNat

def isNameChar (c : Char) : Bool :=
  let n := c.toNat
  if n ≤ 128 then c.isAlphanum || c == ':' || c == '_' || c == '-' || c == '.'
  else isNameLetter n || n == 0xB7 || (0x300 ≤ n && n ≤ 0x36F) || (0x203F ≤ n && n ≤ 0x2040)

/-- The character that a first byte would be on its own. -/
def firstByte (c : Char) : Char :=
  let n := c.toNat
  if n < 0x80 then c
  else if n < 0x800 then Char.ofNat (0xC0 + n / 0x40)
  else if n < 0x10000 then Char.ofNat (0xE0 + n / 0x1000)
  else Char.ofNat (0xF0 + n / 0x40000)

/-! ## Moving on -/

def Cursor.past (p : Position) (c : Char) : Position :=
  if c == '\n' then ⟨p.line + 1, 1⟩ else { p with column := p.column + 1 }

namespace Cursor

/-- Past the first `n` characters. -/
def drop : Nat → Cursor → Cursor
  | 0, s => s
  | n + 1, s =>
    match s.rest with
    | [] => s
    | c :: rest => drop n ⟨rest, past s.place c⟩

def startsWith (s : Cursor) (text : String) : Bool := text.toList.isPrefixOf s.rest

def startsWithSpace (s : Cursor) : Bool :=
  match s.rest with
  | c :: _ => isSpace c
  | [] => false

/-- Past characters that satisfy a test. -/
def skipWhile (p : Char → Bool) (s : Cursor) : Cursor :=
  go s.rest s.place
where
  go : List Char → Position → Cursor
    | [], place => ⟨[], place⟩
    | c :: rest, place => if p c then go rest (past place c) else ⟨c :: rest, place⟩

def skipSpaces (s : Cursor) : Cursor := s.skipWhile isSpace

/-- Takes one given character. -/
def char (c : Char) (s : Cursor) : Except Error Cursor :=
  match s.rest with
  | [] => .error .endOfStream
  | d :: _ => if d = c then .ok (s.drop 1) else .error (.invalidChar c (firstByte d) s.place)

/-- Takes a given text. -/
def string (text : String) (s : Cursor) : Except Error Cursor :=
  if s.startsWith text then .ok (s.drop text.length) else .error (.invalidString text s.place)

/-- Takes characters as long as `keep` holds of what is left; all that are looked at must be allowed
in a document. -/
def takeWhile (keep : List Char → Bool) (s : Cursor) : Except Error (List Char × Cursor) :=
  go [] s.rest s.place
where
  go (acc : List Char) : List Char → Position → Except Error (List Char × Cursor)
    | [], place => .ok (acc.reverse, ⟨[], place⟩)
    | c :: rest, place =>
      if !isXmlChar c then .error (.nonXmlChar c place)
      else if keep (c :: rest) then go (c :: acc) rest (past place c)
      else .ok (acc.reverse, ⟨c :: rest, place⟩)

/-- A quotation mark. -/
def quote (s : Cursor) : Except Error (Char × Cursor) :=
  match s.rest with
  | [] => .error .endOfStream
  | c :: _ =>
    if c == '\'' || c == '"' then .ok (c, s.drop 1)
    else .error (.invalidCharKind "a quote" (firstByte c) s.place)

/-! ## Names -/

/-- A name, colons included. -/
def name (s : Cursor) : Except Error (String × Cursor) :=
  match s.rest with
  | [] => .error (.invalidName s.place)
  | c :: _ =>
    if isNameStart c then
      let name := s.rest.takeWhile isNameChar
      .ok (String.ofList name, s.drop name.length)
    else .error (.invalidName s.place)

/-- A name in two parts, the first of them empty where there is no colon. -/
def qualifiedName (s : Cursor) : Except Error ((String × String) × Cursor) :=
  let name := s.rest.takeWhile isNameChar
  let bad : Except Error ((String × String) × Cursor) := .error (.invalidName s.place)
  let starts := fun (cs : List Char) ↦ cs.head?.all isNameStart
  match name.splitOn ':' with
  | [local_] =>
    if local_.isEmpty || !starts local_ then bad
    else .ok (("", String.ofList local_), s.drop name.length)
  | [qualifier, local_] =>
    if local_.isEmpty || !starts local_ || !starts qualifier then bad
    else .ok ((String.ofList qualifier, String.ofList local_), s.drop name.length)
  | _ => bad

/-- The sign between the name and the value of an attribute. -/
def equals (s : Cursor) : Except Error Cursor := do
  let s ← s.skipSpaces.char '='
  return s.skipSpaces

/-! ## References -/

/-- What stands between an ampersand and a semicolon. -/
inductive Reference where
  | char (c : Char)
  | entity (name : String)

/-- A character by number; a number that no character has stands for the replacement character. -/
def numbered (radix : Nat) (digits : List Char) : Option Char :=
  if digits.isEmpty then none else
  let n := digits.foldl (fun n d ↦ n * radix + (digitValue 16 d).getD 0) 0
  if Nat.pow 2 32 ≤ n then none else
  let c := if n.isValidChar then Char.ofNat n else Char.ofNat 0xFFFD
  if isXmlChar c then some c else none

/-- The reference at the head of a text, with what follows it. -/
def reference? : List Char → Option (Reference × List Char)
  | '&' :: '#' :: 'x' :: rest =>
    let digits := rest.takeWhile fun c ↦ (digitValue 16 c).isSome
    semicolon ((numbered 16 digits).map .char) (rest.drop digits.length)
  | '&' :: '#' :: rest =>
    let digits := rest.takeWhile Char.isDigit
    semicolon ((numbered 10 digits).map .char) (rest.drop digits.length)
  | '&' :: rest =>
    match rest with
    | [] => none
    | c :: _ =>
      if isNameStart c then
        let name := rest.takeWhile isNameChar
        semicolon (some (named (String.ofList name))) (rest.drop name.length)
      else none
  | _ => none
where
  semicolon (r : Option Reference) : List Char → Option (Reference × List Char)
    | ';' :: rest => r.map (·, rest)
    | _ => none
  named (name : String) : Reference :=
    match name with
    | "quot" => .char '"'
    | "amp" => .char '&'
    | "apos" => .char '\''
    | "lt" => .char '<'
    | "gt" => .char '>'
    | _ => .entity name

end Cursor

end Xml

end PagedReport
