import PagedReport.Xml.Cursor

/-!
# Character data and attribute values

Line ends become single newlines in text and blanks become spaces in attribute values, but
characters written as references stay what they are.
-/

namespace PagedReport

namespace Xml

/-- The place after some characters. -/
def pastAll (place : Position) (cs : List Char) : Position := cs.foldl Cursor.past place

/-- Adds a character as it was written; `acc` is reversed.  A carriage return becomes a newline when
the next character or the end shows what it was part of. -/
def addWritten (acc : List Char) (c : Char) (atEnd : Bool) : List Char :=
  match acc with
  | '\r' :: before =>
    if atEnd && c == '\r' then '\n' :: '\n' :: before
    else if c == '\n' then '\n' :: before
    else c :: '\n' :: before
  | _ => if atEnd && c == '\r' then '\n' :: acc else c :: acc

/-- Text with its references replaced, in at most `fuel` steps.  The character after a reference is
taken as it is. -/
def textFrom : Nat → Bool → List Char → Position → List Char → Except Error (List Char)
  | _, _, acc, _, [] => .ok acc.reverse
  | 0, _, acc, _, _ => .ok acc.reverse
  | fuel + 1, asIs, acc, place, c :: rest =>
    if c == '&' then
      match Cursor.reference? (c :: rest) with
      | some (.char r, after) =>
        let taken := (c :: rest).take ((c :: rest).length - after.length)
        textFrom fuel true (r :: acc) (pastAll place taken) after
      | some (.entity name, _) => .error (.unknownEntity name place)
      | none => .error (.malformedEntity place)
    else
      let acc := if asIs then c :: acc else addWritten acc c rest.isEmpty
      textFrom fuel false acc (Cursor.past place c) rest

/-- The content of character data that begins at a place. -/
def textContent (place : Position) (cs : List Char) : Except Error String :=
  (textFrom cs.length false [] place cs).map String.ofList

/-- The content of a section that is not marked up. -/
def cdataContent (cs : List Char) : String :=
  String.ofList (go [] cs).reverse
where
  go : List Char → List Char → List Char
    | acc, [] => acc
    | acc, c :: rest => go (addWritten acc c rest.isEmpty) rest

/-- An attribute value with its references replaced, in at most `fuel` steps. -/
def valueFrom : Nat → List Char → Position → List Char → Except Error (List Char)
  | _, acc, _, [] => .ok acc.reverse
  | 0, acc, _, _ => .ok acc.reverse
  | fuel + 1, acc, place, c :: rest =>
    if c == '&' then
      match Cursor.reference? (c :: rest) with
      | some (.char r, after) =>
        let taken := (c :: rest).take ((c :: rest).length - after.length)
        valueFrom fuel (r :: acc) (pastAll place taken) after
      | some (.entity name, _) => .error (.unknownEntity name place)
      | none => .error (.malformedEntity place)
    else
      let acc :=
        if c == '\r' && rest.head? == some '\n' then acc
        else if isSpace c then ' ' :: acc
        else c :: acc
      valueFrom fuel acc (Cursor.past place c) rest

/-- The value of an attribute that is written from a place on. -/
def attributeValue (place : Position) (cs : List Char) : Except Error String :=
  (valueFrom cs.length [] place cs).map String.ofList

end Xml

end PagedReport
