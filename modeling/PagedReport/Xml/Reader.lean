import PagedReport.Xml.Content

/-!
# Reading XML

A document is read token by token, with a stack of the elements that are still open.  Document type
declarations are refused, so there are no entities but the five that every document has.
-/

namespace PagedReport

namespace Xml

/-! ## Namespaces -/

/-- Declared namespaces, nearest first; the one without a name is the default. -/
abbrev Namespaces := List (Option String × String)

def xmlUri : String := "http://www.w3.org/XML/1998/namespace"

def xmlnsUri : String := "http://www.w3.org/2000/xmlns/"

/-- An attribute as it is written. -/
structure RawAttribute where
  qualifier : String
  name : String
  value : String
  place : Position

/-- A start tag so far: the namespaces it declares, in order, and its attributes, in order. -/
structure Tag where
  qualifier : String
  name : String
  place : Position
  declared : Namespaces := []
  attributes : List RawAttribute := []

/-- Adds an attribute to a tag, or the namespace that it declares. -/
def Tag.add (t : Tag) (a : RawAttribute) : Except Error Tag :=
  if a.qualifier == "xmlns" then
    if a.value == xmlnsUri then .error (.unexpectedXmlnsUri a.place)
    else if a.name == "xml" && a.value != xmlUri then .error (.invalidXmlUri a.place)
    else if a.name != "xml" && a.value == xmlUri then .error (.unexpectedXmlUri a.place)
    else if t.declared.any (·.1 == some a.name) then .error (.duplicatedNamespace a.name a.place)
    else if a.value == xmlUri then .ok t
    else .ok { t with declared := t.declared ++ [(some a.name, a.value)] }
  else if a.name == "xmlns" then
    if a.value == xmlnsUri then .error (.unexpectedXmlnsUri a.place)
    else if a.value == xmlUri then .error (.unexpectedXmlUri a.place)
    else .ok { t with declared := t.declared ++ [(none, a.value)] }
  else .ok { t with attributes := t.attributes ++ [a] }

/-- The namespaces inside a tag: its own, then those around it that it does not replace. -/
def Tag.scope (t : Tag) (around : Namespaces) : Namespaces :=
  t.declared ++ around.filter fun (name, _) ↦ !t.declared.any (·.1 == name)

/-- The namespace that an attribute is in. -/
def attributeUri (scope : Namespaces) (a : RawAttribute) : Except Error (Option String) :=
  if a.qualifier == "xml" then .ok (some xmlUri)
  else if a.qualifier == "" then .ok none
  else
    match scope.lookup (some a.qualifier) with
    | some uri => .ok (some uri)
    | none => .error (.unknownNamespace a.qualifier a.place)

/-- No two attributes may have the same name in the same namespace. -/
def checkAttributes (scope : Namespaces) :
    List (Option String × String) → List RawAttribute → Except Error Unit
  | _, [] => .ok ()
  | seen, a :: rest => do
    let uri ← attributeUri scope a
    if seen.contains (uri, a.name) then .error (.duplicatedAttribute a.name a.place)
    else checkAttributes scope ((uri, a.name) :: seen) rest

/-- Checks a whole start tag against the namespaces around it, and gives those inside it. -/
def Tag.resolve (t : Tag) (around : Namespaces) : Except Error Namespaces := do
  let scope := t.scope around
  checkAttributes scope [] t.attributes
  if t.qualifier == "" || (scope.lookup (some t.qualifier)).isSome then return scope
  else throw (.unknownNamespace t.qualifier { t.place with column := t.place.column + 1 })

/-! ## Tags -/

/-- A quoted value, raw. -/
def rawValue (s : Cursor) : Except Error (List Char × Cursor) := do
  let (q, s) ← s.quote
  let (value, s) ← s.takeWhile fun
    | c :: _ => c != q && c != '<'
    | [] => false
  let s ← s.char q
  return (value, s)

/-- One attribute. -/
def readAttribute (s : Cursor) : Except Error (RawAttribute × Cursor) := do
  let place := s.place
  let ((qualifier, name), s) ← s.qualifiedName
  let s ← s.equals
  let valuePlace := (s.drop 1).place
  let (raw, s) ← rawValue s
  let value ← attributeValue valuePlace raw
  return (⟨qualifier, name, value, place⟩, s)

/-- How a start tag ends; a text may break off in it. -/
inductive TagEnd where
  | closed
  | opened
  | brokenOff
deriving DecidableEq

/-- The attributes of a start tag, of which there are less than `fuel`. -/
def attributes : Nat → Tag → Cursor → Except Error (Tag × TagEnd × Cursor)
  | 0, t, s => .ok (t, .brokenOff, s)
  | fuel + 1, t, s =>
    if s.rest.isEmpty then .ok (t, .brokenOff, s) else
    let spaced := s.startsWithSpace
    let s := s.skipSpaces
    match s.rest with
    | [] => .error .endOfStream
    | '/' :: _ => do
      let s ← (s.drop 1).char '>'
      return (t, .closed, s)
    | '>' :: _ => .ok (t, .opened, s.drop 1)
    | c :: _ =>
      if !spaced then .error (.invalidCharKind "a whitespace" (firstByte c) s.place) else do
      let (a, s) ← readAttribute s
      let t ← t.add a
      attributes fuel t s

/-- A start tag, from its angle bracket on. -/
def startTag (size : Nat) (s : Cursor) : Except Error (Tag × TagEnd × Cursor) := do
  let place := s.place
  let s := s.drop 1
  let namePlace := s.place
  let ((qualifier, name), s) ← s.qualifiedName
  if qualifier == "xmlns" then throw (.invalidElementQualifier namePlace)
  attributes size { qualifier, name, place } s

/-- An end tag, from its angle bracket on. -/
def endTag (s : Cursor) : Except Error ((String × String) × Cursor) := do
  let (name, s) ← (s.drop 2).qualifiedName
  let s ← s.skipSpaces.char '>'
  return (name, s)

/-! ## Comments and instructions -/

def containsDashes : List Char → Bool
  | '-' :: '-' :: _ => true
  | _ :: cs => containsDashes cs
  | [] => false

def comment (s : Cursor) : Except Error (Node × Cursor) := do
  let place := s.place
  let (text, s) ← (s.drop 4).takeWhile fun cs ↦ !(['-', '-', '>'].isPrefixOf cs)
  let s ← s.string "-->"
  if containsDashes text || text.getLast? == some '-' then throw (.invalidComment place)
  return (.comment (String.ofList text), s)

def instruction (s : Cursor) : Except Error (Node × Cursor) := do
  if s.startsWith "<?xml " then throw (.unexpectedDeclaration s.place)
  let (target, s) ← (s.drop 2).name
  let (content, s) ← s.skipSpaces.takeWhile fun cs ↦ !(['?', '>'].isPrefixOf cs)
  let s ← s.string "?>"
  return (.instruction target (String.ofList content), s)

/-- Comments, instructions and spaces outside of the root element. -/
def misc : Nat → Cursor → Except Error Cursor
  | 0, s => .ok s
  | fuel + 1, s =>
    let s := s.skipSpaces
    if s.startsWith "<!--" then do
      let (_, s) ← comment s
      misc fuel s
    else if s.startsWith "<?" then do
      let (_, s) ← instruction s
      misc fuel s
    else .ok s

/-! ## The declaration -/

/-- A name and a value that are only checked. -/
def pseudoAttribute (s : Cursor) : Except Error Cursor := do
  let (_, s) ← s.qualifiedName
  let s ← s.equals
  let (_, s) ← rawValue s
  return s

/-- Spaces, unless the declaration ends here. -/
def declarationSpaces (s : Cursor) : Except Error Cursor :=
  if s.startsWithSpace then .ok s.skipSpaces
  else
    match s.rest with
    | [] => .ok s
    | c :: _ =>
      if s.startsWith "?>" then .ok s
      else .error (.invalidCharKind "a whitespace" (firstByte c) s.place)

def declaration (s : Cursor) : Except Error Cursor := do
  let s ← declarationSpaces (s.drop 5)
  if !s.startsWith "version" then throw (.invalidString "version" s.place)
  let s ← pseudoAttribute s
  let s ← declarationSpaces s
  let s ← if s.startsWith "encoding" then do declarationSpaces (← pseudoAttribute s) else pure s
  let s ← if s.startsWith "standalone" then pseudoAttribute s else pure s
  s.skipSpaces.string "?>"

/-! ## Content -/

/-- An element whose end tag has not come; its children are reversed. -/
structure Open where
  qualifier : String
  name : String
  attributes : List Attribute
  place : Position
  scope : Namespaces
  children : List Node := []

def Open.close (o : Open) : Node := .element o.name o.attributes o.children.reverse o.place

def Open.add (o : Open) (n : Node) : Open := { o with children := n :: o.children }

def Tag.opened (t : Tag) (scope : Namespaces) : Open :=
  ⟨t.qualifier, t.name, t.attributes.map fun a ↦ ⟨a.name, a.value⟩, t.place, scope, []⟩

/-- A name as it is written. -/
def qualified (qualifier name : String) : String :=
  if qualifier == "" then name else qualifier ++ ":" ++ name

def containsCdataEnd : List Char → Bool
  | ']' :: ']' :: '>' :: _ => true
  | _ :: cs => containsCdataEnd cs
  | [] => false

/-- Character data up to the next tag. -/
def characters (s : Cursor) : Except Error (Node × Cursor) := do
  let place := s.place
  let (raw, s) ← s.takeWhile fun
    | c :: _ => c != '<'
    | [] => false
  if containsCdataEnd raw then throw (.invalidCharacterData s.place)
  return (.text (← textContent place raw), s)

def cdata (s : Cursor) : Except Error (Node × Cursor) := do
  let (raw, s) ← (s.drop 9).takeWhile fun cs ↦ !([']', ']', '>'].isPrefixOf cs)
  let s ← s.string "]]>"
  return (.text (cdataContent raw), s)

/-- The rest of an element, given the elements around it, nearest first.  The result is the root. -/
def content (size : Nat) : Nat → Open → List Open → Cursor → Except Error (Node × Cursor)
  | 0, _, _, _ => .error .unclosedRoot
  | fuel + 1, o, around, s =>
    match s.rest with
    | [] => .error .unclosedRoot
    | '<' :: '!' :: _ =>
      if s.startsWith "<!--" then do
        let (n, s) ← comment s
        content size fuel (o.add n) around s
      else if s.startsWith "<![CDATA[" then do
        let (n, s) ← cdata s
        content size fuel (o.add n) around s
      else .error (.unknownToken s.place)
    | '<' :: '?' :: _ => do
      let (n, s) ← instruction s
      content size fuel (o.add n) around s
    | '<' :: '/' :: _ => do
      let place := s.place
      let ((qualifier, name), s) ← endTag s
      if qualifier != o.qualifier || name != o.name then
        throw (.unexpectedCloseTag (qualified o.qualifier o.name) (qualified qualifier name) place)
      match around with
      | [] => return (o.close, s)
      | parent :: outer => content size fuel (parent.add o.close) outer s
    | ['<'] => .error (.unknownToken s.place)
    | '<' :: _ => do
      let (t, tagEnd, s) ← startTag size s
      match tagEnd with
      | .brokenOff => throw .unclosedRoot
      | .closed =>
        let scope ← t.resolve o.scope
        content size fuel (o.add (t.opened scope).close) around s
      | .opened =>
        let scope ← t.resolve o.scope
        content size fuel (t.opened scope) (o :: around) s
    | _ => do
      let (n, s) ← characters s
      content size fuel (o.add n) around s

/-- The root element and what follows it. -/
def root (size : Nat) (s : Cursor) : Except Error (Option Node × Cursor) := do
  let (t, tagEnd, s) ← startTag size s
  match tagEnd with
  | .brokenOff => return (none, s)
  | .closed =>
    let scope ← t.resolve []
    return (some (t.opened scope).close, s)
  | .opened =>
    let scope ← t.resolve []
    let (n, s) ← content size size (t.opened scope) [] s
    return (some n, s)

/-- The root element of a document. -/
def read (text : String) : Except Error Element := do
  let cs := text.toList
  let size := cs.length + 1
  let s : Cursor := ⟨cs, {}⟩
  let s := if cs.head? == some (Char.ofNat 0xFEFF) then s.drop 1 else s
  let s ← if s.startsWith "<?xml " then declaration s else pure s
  let s ← misc size s
  if s.startsWith "<!DOCTYPE" then throw .dtdDetected
  let (node, s) ← if s.startsWith "<" then root size s else pure (none, s)
  let s ← misc size s
  if !s.rest.isEmpty then throw (.unknownToken s.place)
  match node.bind Node.toElement? with
  | some e => return e
  | none => throw .noRoot

end Xml

end PagedReport
