import PagedReport.Generator.Fault

/-!
# Loading templates and data

A generator holds one template and the data for it.  A load is first read into a change and only a
change that could be read is made, so a load that fails leaves everything as it was.
-/

namespace PagedReport

structure Options where
  /-- Where relative paths of font files start. -/
  fontDirectory : Option String := none
  /-- Where relative paths of images start. -/
  imageDirectory : Option String := none
  /-- Whether streams of documents are compressed. -/
  compress : Bool := false
  /-- Kept, and without effect. -/
  checkSchema : Bool := false
deriving DecidableEq, Repr

structure Generator where
  options : Options := {}
  /-- The template that was loaded last. -/
  report : Option Report := none
  data : Members := []

/-- One request to load or forget something. -/
inductive Load where
  | template (text : String)
  | templateBytes (bytes : ByteArray)
  | templateAt (path : String)
  | data (text : String)
  | dataAt (path : String)
  | members (m : Members)
  /-- Forgets the data and keeps the template. -/
  | reset

/-- What a load does to a generator. -/
inductive Change where
  | report (r : Report)
  | merge (m : Members)
  | clear

/-- A result, with all that was said until it was there. -/
abbrev Outcome (α : Type) := Except ReportError α × List Warning

namespace Load

/-- The members of the object that a text holds. -/
def membersOf (text : String) : Except ReportError Members :=
  match Json.read text with
  | .error e => .error (.data (.malformed e))
  | .ok (.object m) => .ok m
  | .ok other => .error (.data (.notObject other))

def ofTemplate (o : Template.Outcome) : Outcome Change :=
  match o with
  | (.ok r, warnings) => (.ok (.report r), warnings)
  | (.error e, warnings) => (.error (.template e), warnings)

def ofMembers (m : Except ReportError Members) : Outcome Change :=
  match m with
  | .ok m => (.ok (.merge m), [])
  | .error e => (.error e, [])

/-- Reads what is to be loaded. -/
def change (files : Files) : Load → Outcome Change
  | template text => ofTemplate (Template.read text)
  | templateBytes bytes => ofTemplate (Template.readBytes bytes)
  | templateAt path => ofTemplate (Template.readAt files path)
  | data text => ofMembers (membersOf text)
  | dataAt path =>
    match files.text path with
    | .error e => (.error (.file .data path e), [])
    | .ok text => ofMembers (membersOf text)
  | members m => (.ok (.merge m), [])
  | reset => (.ok .clear, [])

end Load

namespace Generator

/-- Members of newer data take the place of older ones with the same key. -/
def apply (g : Generator) : Change → Generator
  | .report r => { g with report := some r }
  | .merge m => { g with data := g.data.merge m }
  | .clear => { g with data := [] }

def load (files : Files) (l : Load) (g : Generator) : Generator × Outcome Unit :=
  match l.change files with
  | (.error e, warnings) => (g, .error e, warnings)
  | (.ok c, warnings) => (g.apply c, .ok (), warnings)

end Generator

end PagedReport
