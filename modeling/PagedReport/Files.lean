/-!
# File trees

The files a report may refer to, as a tree under the current directory.  A path is a list of names
between slashes; empty names and `.` stay where they are and `..` goes up.
-/

namespace PagedReport

/-- Why a path cannot be read or written. -/
inductive FileError where
  | notFound
  | isDirectory
  | notDirectory
  | nameTooLong
  | nulInName
  | notText
  /-- Anything else that a machine reports. -/
  | other (report : String)
deriving DecidableEq, Repr

def FileError.message : FileError → String
  | .notFound => "No such file or directory (os error 2)"
  | .isDirectory => "Is a directory (os error 21)"
  | .notDirectory => "Not a directory (os error 20)"
  | .nameTooLong => "File name too long (os error 36)"
  | .nulInName => "file name contained an unexpected NUL byte"
  | .notText => "stream did not contain valid UTF-8"
  | .other report => report

/-- What reading a path gives. -/
abbrev Files := String → Except FileError ByteArray

/-- Whether a path leads to a file that can be read. -/
def Files.isFile (files : Files) (path : String) : Bool :=
  match files path with
  | .ok _ => true
  | .error _ => false

/-- The content of a file as text. -/
def Files.text (files : Files) (path : String) : Except FileError String :=
  match files path with
  | .error e => .error e
  | .ok content =>
    match String.fromUTF8? content with
    | some s => .ok s
    | none => .error .notText

inductive FileTree where
  | file (content : ByteArray)
  | directory (entries : List (String × FileTree))
deriving Inhabited

namespace FileTree

def empty : FileTree := .directory []

/-! ## Paths -/

/-- The names of a path. -/
def names (path : String) : List String :=
  (path.toList.splitOn '/').map String.ofList

def isAbsolute (path : String) : Bool := path.toList.head? == some '/'

/-- A relative path below a directory; an absolute one stays as it is. -/
def join (directory : Option String) (path : String) : String :=
  match directory with
  | none => path
  | some d =>
    if isAbsolute path then path
    else if d.isEmpty || d.toList.getLast? == some '/' then d ++ path
    else d ++ "/" ++ path

/-- What paths are compared by: their names, without those that lead nowhere else. -/
def pathNames (path : String) : Bool × List String :=
  let ns := names path
  let first := if ns.head? == some "." then ["."] else []
  (isAbsolute path, first ++ ns.filter fun n ↦ n != "" && n != ".")

/-! ## Looking up -/

/-- Follows names from the directory at the head of `above`, its parents after it. -/
def walk : List FileTree → List String → Except FileError FileTree
  | [], _ => .error .notFound
  | t :: _, [] => .ok t
  | t :: parents, name :: rest =>
    match t with
    | .file _ => .error .notDirectory
    | .directory entries =>
      if name == "" || name == "." then walk (t :: parents) rest
      else if name == ".." then
        match parents with
        | [] => walk [.empty] rest
        | p :: ps => walk (p :: ps) rest
      else if 255 < name.utf8ByteSize then .error .nameTooLong
      else
        match entries.lookup name with
        | some next => walk (next :: t :: parents) rest
        | none => .error .notFound

/-- What a path leads to. -/
def find (tree : FileTree) (path : String) : Except FileError FileTree :=
  if path.isEmpty then .error .notFound
  else if path.toList.contains (Char.ofNat 0) then .error .nulInName
  else if 4095 < path.utf8ByteSize then .error .nameTooLong
  else walk [if isAbsolute path then .empty else tree] (names path)

def read (tree : FileTree) : Files := fun path ↦
  match find tree path with
  | .ok (.file content) => .ok content
  | .ok (.directory _) => .error .isDirectory
  | .error e => .error e

/-- Whether a path leads anywhere. -/
def mem (tree : FileTree) (path : String) : Bool :=
  match find tree path with
  | .ok _ => true
  | .error _ => false

/-! ## Writing -/

/-- Sets the entry of a name. -/
def setEntry (name : String) (t : FileTree) : List (String × FileTree) → List (String × FileTree)
  | [] => [(name, t)]
  | (n, old) :: rest => if n = name then (n, t) :: rest else (n, old) :: setEntry name t rest

/-- A path as names below the root, without `.` and with `..` carried out. -/
def plain (names : List String) : List String :=
  names.foldl (fun acc n ↦
    if n == "" || n == "." then acc else if n == ".." then acc.dropLast else acc ++ [n]) []

/-- The entries of a directory; anything else has none. -/
def entries : FileTree → List (String × FileTree)
  | .directory es => es
  | .file _ => []

/-- Puts a file at the end of a list of names, making directories on the way. -/
def putIn (content : ByteArray) :
    List String → List (String × FileTree) → List (String × FileTree)
  | [], es => es
  | [name], es => setEntry name (.file content) es
  | name :: rest, es =>
    setEntry name (.directory (putIn content rest ((es.lookup name).map entries |>.getD []))) es

def put (content : ByteArray) (names : List String) (tree : FileTree) : FileTree :=
  .directory (putIn content names tree.entries)

/-- A tree with files at the given paths. -/
def ofList (files : List (String × ByteArray)) : FileTree :=
  files.foldl (fun t (path, content) ↦ put content (plain (names path)) t) .empty

/-- The names of the directory of a path and the last name.  A path that ends in a slash, or in a
name that leads nowhere else, has an empty one. -/
def splitLast (path : String) : List String × String :=
  let ns := names path
  let parents := ((ns.reverse.dropWhile (· == "")).drop 1).reverse
  let last := ns.getLast?.getD ""
  (parents, if last == "." || last == ".." then "" else last)

/-- Writes a file where its directory exists and nothing but a file stands in its place. -/
def write (tree : FileTree) (path : String) (content : ByteArray) : Except FileError FileTree :=
  if path.isEmpty then .error .notFound
  else if path.toList.contains (Char.ofNat 0) then .error .nulInName
  else if 4095 < path.utf8ByteSize then .error .nameTooLong
  else
    let (parents, name) := splitLast path
    match walk [if isAbsolute path then .empty else tree] parents with
    | .error e => .error e
    | .ok (.file _) => .error .notDirectory
    | .ok (.directory entries) =>
      if name.isEmpty then .error .isDirectory
      else if 255 < name.utf8ByteSize then .error .nameTooLong
      else
        match entries.lookup name with
        | some (.directory _) => .error .isDirectory
        | _ => .ok (put content (plain (names path)) tree)

end FileTree

end PagedReport
