import PagedReport.Flate.Deflate
import PagedReport.Number.Text
import PagedReport.Pdf.Document

/-!
# Writing documents

A file is a header, numbered objects, a table of where they begin, and a trailer.  Numbers are given
in the order in which objects are met.
-/

namespace PagedReport

namespace Pdf

/-! ## Streams -/

/-- What a dictionary grows by when its stream is compressed. -/
def filterCost : Nat := 19

/-- The compressed form of content, if that is smaller. -/
def compressed? (content : ByteArray) : Option ByteArray :=
  let small := Flate.deflate content
  if small.size + filterCost < content.size then some small else none

/-- The content of a stream as it is written, and whether it is compressed. -/
def writtenContent (compress : Bool) (content : ByteArray) : ByteArray × Bool :=
  match if compress then compressed? content else none with
  | some small => (small, true)
  | none => (content, false)

/-! ## Text of objects -/

def ascii (s : String) : ByteArray := s.toUTF8

def hexByte (b : UInt8) : String :=
  String.ofList [Nat.digitChar (b.toNat / 16), Nat.digitChar (b.toNat % 16)]

/-- A byte of a string; brackets, backslashes and line ends have a backslash before them. -/
def stringByte (b : UInt8) : List UInt8 :=
  if b = 0x28 ∨ b = 0x29 ∨ b = 0x5C then [0x5C, b]
  else if b = 0x0D then [0x5C, 0x72]
  else [b]

def stringText (bytes : List UInt8) (hex : Bool) : ByteArray :=
  if hex then ascii ("<" ++ String.join (bytes.map hexByte) ++ ">")
  else ascii "(" ++ ⟨(bytes.flatMap stringByte).toArray⟩ ++ ascii ")"

/-- A name; characters that would end it are written by number. -/
def nameText (s : String) : String :=
  "/" ++ String.join (s.toUTF8.toList.map fun b ↦
    let c := Char.ofNat b.toNat
    if c.isAlphanum || c == '-' || c == '.' || c == '_' then String.ofList [c]
    else "#" ++ hexByte b)

/-- Numbered objects met so far, the last one first, and the next number. -/
structure Numbered where
  bodies : List (Nat × ByteArray) := []
  next : Nat := 1

def Numbered.add (n : Nat) (body : ByteArray) (s : Numbered) : Numbered :=
  { s with bodies := (n, body) :: s.bodies }

/-- Takes the next number. -/
def Numbered.take (s : Numbered) : Nat × Numbered := (s.next, { s with next := s.next + 1 })

mutual

/-- The text of an object; indirect ones inside it are given numbers. -/
def write (compress : Bool) : Object → Numbered → ByteArray × Numbered
  | .null, s => (ascii "null", s)
  | .boolean b, s => (ascii (if b then "true" else "false"), s)
  | .integer n, s => (ascii (toString n), s)
  | .real x, s => (ascii (singleText x), s)
  | .name n, s => (ascii (nameText n), s)
  | .string bytes hex, s => (stringText bytes hex, s)
  | .array items, s =>
    let (text, s) := writeItems compress items s
    (ascii "[" ++ text ++ ascii "]", s)
  | .dictionary entries, s =>
    let (text, s) := writeEntries compress entries s
    (ascii "<<" ++ text ++ ascii ">>", s)
  | .stream entries content compressible, s =>
    let (content, isCompressed) := writtenContent (compress && compressible) content
    let (text, s) := writeEntries compress entries s
    let filter := if isCompressed then "/Filter /FlateDecode " else ""
    (ascii "<<" ++ text ++ ascii s!"{filter}/Length {content.size}>>\nstream\n" ++ content ++
      ascii "\nendstream", s)
  | .indirect o, s =>
    let (n, s) := s.take
    let (text, s) := write compress o s
    (ascii s!"{n} 0 R", s.add n text)
  | .reference n, s => (ascii s!"{n} 0 R", s)

def writeItems (compress : Bool) : List Object → Numbered → ByteArray × Numbered
  | [], s => (.empty, s)
  | o :: rest, s =>
    let (text, s) := write compress o s
    let (more, s) := writeItems compress rest s
    (text ++ ascii " " ++ more, s)

def writeEntries (compress : Bool) : List (String × Object) → Numbered → ByteArray × Numbered
  | [], s => (.empty, s)
  | (key, o) :: rest, s =>
    let (text, s) := write compress o s
    let (more, s) := writeEntries compress rest s
    (ascii (nameText key ++ " ") ++ text ++ ascii " " ++ more, s)

end

/-! ## Pages -/

/-- The text of an operation; its operands contain no indirect objects. -/
def operationText (op : Operation) : ByteArray :=
  let (operator, operands) := op.written
  (writeItems false operands {}).1 ++ ascii (operator ++ "\n")

/-- The content stream of a page. -/
def Page.content (p : Page) : ByteArray :=
  p.operations.foldl (fun text op ↦ text ++ operationText op) .empty

def pageObject (parent resources : Nat) (p : Page) : Object :=
  .dictionary [
    ("Type", .name "Page"),
    ("Parent", .reference parent),
    ("MediaBox", p.mediaBox),
    ("Contents", .indirect (.stream [] p.content true)),
    ("Resources", .reference resources) ]

def pagesObject (d : Document) (parent resources : Nat) : Object :=
  .dictionary [
    ("Type", .name "Pages"),
    ("Kids", .array (d.pages.map fun p ↦ .indirect (pageObject parent resources p))),
    ("Count", .integer d.pages.length) ]

/-! ## Compressed streams -/

mutual

/-- Whether writing an object compresses any stream. -/
def Object.shrinks : Object → Bool
  | .array items => shrinksAny items
  | .dictionary entries => shrinksEntry entries
  | .stream entries content compressible =>
    compressible && (compressed? content).isSome || shrinksEntry entries
  | .indirect o => o.shrinks
  | _ => false

def Object.shrinksAny : List Object → Bool
  | [] => false
  | o :: rest => o.shrinks || Object.shrinksAny rest

def Object.shrinksEntry : List (String × Object) → Bool
  | [] => false
  | (_, o) :: rest => o.shrinks || Object.shrinksEntry rest

end

/-- Whether a document has compressed streams when it is written. -/
def Document.isCompressed (d : Document) : Bool :=
  d.compress &&
    (d.resources.shrinks || d.pages.any fun p ↦ (compressed? p.content).isSome)

/-! ## Files -/

/-- Numbers the objects of a document: the catalog first and the properties second. -/
def Document.numbered (d : Document) : Numbered :=
  let (catalog, s) := Numbered.take {}
  let (info, s) := s.take
  let (pages, s) := s.take
  let (resources, s) := s.take
  let catalogObject : Object := .dictionary [("Type", .name "Catalog"), ("Pages", .reference pages)]
  let put := fun (n : Nat) (o : Object) (s : Numbered) ↦
    let (text, s) := write d.compress o s
    s.add n text
  put catalog catalogObject s |> put info (.dictionary d.info) |>
    put pages (pagesObject d pages resources) |> put resources d.resources

/-- A number padded with zeros. -/
def padded (width n : Nat) : String :=
  let digits := toString n
  String.ofList (List.replicate (width - digits.length) '0') ++ digits

/-- Appends objects in the order of their numbers, and says where each begins. -/
def appendObjects : List (Nat × ByteArray) → ByteArray → List Nat → ByteArray × List Nat
  | [], out, offsets => (out, offsets.reverse)
  | (n, body) :: rest, out, offsets =>
    appendObjects rest (out ++ ascii s!"{n} 0 obj\n" ++ body ++ ascii "\nendobj\n")
      (out.size :: offsets)

/-- The bytes of a document. -/
def Document.bytes (d : Document) : ByteArray :=
  let s := d.numbered
  let bodies := s.bodies.mergeSort fun a b ↦ a.1 ≤ b.1
  let (out, offsets) := appendObjects bodies (ascii s!"%PDF-{version}\n") []
  let table := offsets.map fun offset ↦ padded 10 offset ++ " 00000 n \n"
  out ++ ascii (s!"xref\n0 {s.next}\n" ++ "0000000000 65535 f \n" ++ String.join table ++
    s!"trailer\n<</Size {s.next} /Root 1 0 R /Info 2 0 R>>\nstartxref\n{out.size}\n%%EOF\n")

end Pdf

end PagedReport
