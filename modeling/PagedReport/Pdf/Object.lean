/-!
# Objects of a document

The values that a PDF file is made of.  Objects refer to each other by containing each other; which
of them have a number in the file is marked, and the numbers are given when the file is written.
-/

namespace PagedReport

namespace Pdf

inductive Object where
  | null
  | boolean (b : Bool)
  | integer (n : Int)
  | real (x : Float32)
  | name (s : String)
  /-- Bytes, written in hexadecimal or as they are. -/
  | string (bytes : List UInt8) (hex : Bool)
  | array (items : List Object)
  | dictionary (entries : List (String × Object))
  /-- Content with a dictionary; it may be compressed unless it has been already. -/
  | stream (entries : List (String × Object)) (content : ByteArray) (compressible : Bool)
  /-- An object with a number of its own. -/
  | indirect (o : Object)
  /-- The object of a number. -/
  | reference (number : Nat)
deriving Inhabited

namespace Object

/-- A string of the bytes as they are. -/
def text (bytes : List UInt8) : Object := .string bytes false

/-- The entry of a dictionary or a stream. -/
def get? (key : String) : Object → Option Object
  | .dictionary entries => entries.lookup key
  | .stream entries _ _ => entries.lookup key
  | .indirect o => get? key o
  | _ => none

end Object

end Pdf

end PagedReport
