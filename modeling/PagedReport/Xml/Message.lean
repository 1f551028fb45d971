import PagedReport.Text.Quoted
import PagedReport.Xml.Tree

/-!
# The wording of XML errors
-/

namespace PagedReport

namespace Xml

def Error.message : Error → String
  | .invalidXmlUri p => s!"'xml' namespace prefix mapped to wrong URI at {pos p}"
  | .unexpectedXmlUri p => s!"the 'xml' namespace URI is used for not 'xml' prefix at {pos p}"
  | .unexpectedXmlnsUri p => s!"the 'xmlns' URI is used at {pos p}, but it must not be declared"
  | .invalidElementQualifier p => s!"the 'xmlns' prefix is used at {pos p}, but it must not be"
  | .duplicatedNamespace name p => s!"namespace '{name}' at {pos p} is already defined"
  | .unknownNamespace name p => s!"an unknown namespace prefix '{name}' at {pos p}"
  | .unexpectedCloseTag expected actual p =>
    s!"expected '{expected}' tag, not '{actual}' at {pos p}"
  | .unknownEntity name p => s!"unknown entity reference '{name}' at {pos p}"
  | .malformedEntity p => s!"malformed entity reference at {pos p}"
  | .duplicatedAttribute name p => s!"attribute '{name}' at {pos p} is already defined"
  | .noRoot => "the document does not have a root node"
  | .unclosedRoot => "the root node was opened but never closed"
  | .unexpectedDeclaration p => s!"unexpected XML declaration at {pos p}"
  | .dtdDetected => "XML with DTD detected"
  | .invalidName p => s!"invalid name token at {pos p}"
  | .nonXmlChar c p => s!"a non-XML character {quotedChar c} found at {pos p}"
  | .invalidChar expected actual p => s!"expected '{expected}' not '{actual}' at {pos p}"
  | .invalidCharKind expected actual p => s!"expected {expected} not '{actual}' at {pos p}"
  | .invalidString expected p => s!"expected '{expected}' at {pos p}"
  | .invalidComment p => s!"comment at {pos p} contains '--'"
  | .invalidCharacterData p => s!"']]>' at {pos p} is not allowed inside a character data"
  | .unknownToken p => s!"unknown token at {pos p}"
  | .endOfStream => "unexpected end of stream"

end Xml

end PagedReport
