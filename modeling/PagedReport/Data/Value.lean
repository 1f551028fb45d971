import PagedReport.Number.Text

/-!
# Report data

The data of a report is a JSON value.  Integers from `-2^63` to `2^64 - 1` are held exactly and
every other number as a double.  The members of an object are sorted by key and have different
keys, whatever order they were written in.
-/

namespace PagedReport

inductive Number where
  | integer (n : Int)
  | double (x : Float)
deriving Inhabited

namespace Number

def toDouble : Number → Float
  | .integer (.ofNat n) => doubleNearest false n 1
  | .integer (.negSucc n) => doubleNearest true (n + 1) 1
  | .double x => x

/-- Exact digits for an integer, positional text for a double. -/
def text : Number → String
  | .integer n => toString n
  | .double x => doubleText x

end Number

inductive Value where
  | null
  | bool (b : Bool)
  | number (n : Number)
  | string (s : String)
  | array (items : List Value)
  | object (members : List (String × Value))
deriving Inhabited

/-- The members of an object. -/
abbrev Members := List (String × Value)

namespace Members

/-- Sets a key to a value, keeping the order. -/
def put (key : String) (v : Value) : Members → Members
  | [] => [(key, v)]
  | (k, old) :: rest =>
    if key = k then (key, v) :: rest
    else if key < k then (key, v) :: (k, old) :: rest
    else (k, old) :: put key v rest

def get? (key : String) (m : Members) : Option Value := m.lookup key

/-- Members in the order they were written; of two with one key the later stays. -/
def ofList (entries : List (String × Value)) : Members :=
  entries.foldl (fun m (k, v) ↦ m.put k v) []

/-- Every member of `newer` set in `m`. -/
def merge (m newer : Members) : Members :=
  newer.foldl (fun m (k, v) ↦ m.put k v) m

end Members

namespace Value

/-- The member of an object; nothing else has members. -/
def member? (key : String) : Value → Option Value
  | .object m => Members.get? key m
  | _ => none

/-- The word for the kind of a value in messages about actions. -/
def typeName : Value → String
  | .null => "nil"
  | .bool _ => "bool"
  | .number _ => "number"
  | .string _ => "string"
  | .array _ => "array"
  | .object _ => "object"

mutual

/-- The printed form of a value inside another one. -/
def printNested : Value → String
  | .null => "<nil>"
  | .bool b => if b then "true" else "false"
  | .number n => n.text
  | .string s => s
  | .array items => "[" ++ " ".intercalate (printItems items) ++ "]"
  | .object members => "map[" ++ " ".intercalate (printMembers members) ++ "]"

def printItems : List Value → List String
  | [] => []
  | v :: vs => printNested v :: printItems vs

def printMembers : List (String × Value) → List String
  | [] => []
  | (k, v) :: rest => (k ++ ":" ++ printNested v) :: printMembers rest

end

/-- The text that takes the place of an action; null has none. -/
def print? : Value → Option String
  | .null => none
  | v => some (printNested v)

end Value

end PagedReport
