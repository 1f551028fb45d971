import PagedReport.Warning

/-!
# XML trees

The tree of a document.  An element keeps the place of its start tag.  Of names only the local part
is kept.
-/

namespace PagedReport

namespace Xml

structure Attribute where
  name : String
  value : String
deriving DecidableEq, Repr

inductive Node where
  | element (name : String) (attributes : List Attribute) (children : List Node) (place : Position)
  | text (content : String)
  | comment (content : String)
  | instruction (target content : String)

/-- An element on its own. -/
structure Element where
  name : String
  attributes : List Attribute
  children : List Node
  place : Position

def Node.toElement? : Node → Option Element
  | .element name attributes children place => some ⟨name, attributes, children, place⟩
  | _ => none

namespace Element

/-- The value of the first attribute of a name. -/
def attribute? (e : Element) (name : String) : Option String :=
  (e.attributes.find? (·.name == name)).map (·.value)

/-- The child elements. -/
def elements (e : Element) : List Element := e.children.filterMap Node.toElement?

/-- The child elements of a name. -/
def named (e : Element) (name : String) : List Element := e.elements.filter (·.name == name)

/-- The text directly inside an element. -/
def chardata (e : Element) : String :=
  String.join (e.children.filterMap fun
    | .text s => some s
    | _ => none)

end Element

/-! ## Errors -/

/-- Why a text is no XML document, and where that shows. -/
inductive Error where
  | invalidXmlUri (at_ : Position)
  | unexpectedXmlUri (at_ : Position)
  | unexpectedXmlnsUri (at_ : Position)
  | invalidElementQualifier (at_ : Position)
  | duplicatedNamespace (name : String) (at_ : Position)
  | unknownNamespace (name : String) (at_ : Position)
  | unexpectedCloseTag (expected actual : String) (at_ : Position)
  | unknownEntity (name : String) (at_ : Position)
  | malformedEntity (at_ : Position)
  | duplicatedAttribute (name : String) (at_ : Position)
  | noRoot
  | unclosedRoot
  | unexpectedDeclaration (at_ : Position)
  | dtdDetected
  | invalidName (at_ : Position)
  | nonXmlChar (c : Char) (at_ : Position)
  | invalidChar (expected actual : Char) (at_ : Position)
  | invalidCharKind (expected : String) (actual : Char) (at_ : Position)
  | invalidString (expected : String) (at_ : Position)
  | invalidComment (at_ : Position)
  | invalidCharacterData (at_ : Position)
  | unknownToken (at_ : Position)
  | endOfStream
deriving DecidableEq, Repr

namespace Error

/-- A position between colons. -/
def pos (p : Position) : String := s!"{p.line}:{p.column}"

/-- Where the error is, the beginning of the text if it is nowhere in particular. -/
def position : Error → Position
  | invalidXmlUri p | unexpectedXmlUri p | unexpectedXmlnsUri p | invalidElementQualifier p
  | duplicatedNamespace _ p | unknownNamespace _ p | unexpectedCloseTag _ _ p | unknownEntity _ p
  | malformedEntity p | duplicatedAttribute _ p | unexpectedDeclaration p | invalidName p
  | nonXmlChar _ p | invalidChar _ _ p | invalidCharKind _ _ p | invalidString _ p
  | invalidComment p | invalidCharacterData p | unknownToken p => p
  | noRoot | unclosedRoot | dtdDetected | endOfStream => {}

end Error

end Xml

end PagedReport
