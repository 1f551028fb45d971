import PagedReport.Data.Value
import PagedReport.Text.Blank

/-!
# References to data

Tables and lists name the data they show by a key or a dotted path, with or without the marks of an
action around it.
-/

namespace PagedReport

namespace Source

def dropPrefix (mark cs : List Char) : List Char :=
  if mark.isPrefixOf cs then cs.drop mark.length else cs

def dropSuffix (mark cs : List Char) : List Char :=
  if mark.isSuffixOf cs then cs.take (cs.length - mark.length) else cs

/-- The key in a reference.  A text of less than five bytes cannot hold marks and is the key. -/
def key (reference : String) : String :=
  if reference.utf8ByteSize < 5 then reference else
  let cs := trimBoth reference.toList
  let cs := dropPrefix ['{', '{'] cs
  let cs := trimBoth (dropSuffix ['}', '}'] cs)
  String.ofList (trimBoth (dropPrefix ['.'] cs))

/-- Parts between dots. -/
def parts (key : String) : List String :=
  (key.toList.splitOn '.').map String.ofList

/-- The value under a key.  A member of that very name comes before a path of names. -/
def lookup (data : Value) (key : String) : Option Value :=
  if key.isEmpty then none else
  match data.member? key with
  | some v => some v
  | none => (parts key).foldlM (fun v part ↦ v.member? part) data

def find (data : Value) (reference : String) : Option Value := lookup data (key reference)

end Source

end PagedReport
