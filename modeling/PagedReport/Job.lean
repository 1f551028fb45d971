import PagedReport.Files
import PagedReport.Pdf.Writer

/-!
# Jobs

A job reads files, writes documents and ends with a result.  What it does is fixed by the answers it
gets, so the same job runs on a disk held in memory and on the disk of a machine.
-/

namespace PagedReport

inductive Job (α : Type) where
  | done (result : α)
  | read (path : String) (next : Except FileError ByteArray → Job α)
  | write (path : String) (document : Pdf.Document) (next : Except FileError Unit → Job α)

/-- Files, and the documents that were written to some of them, newest first. -/
structure Disk where
  files : FileTree
  documents : List (String × Pdf.Document) := []

namespace Disk

/-- Writes a document to a path. -/
def write (path : String) (document : Pdf.Document) (disk : Disk) :
    Disk × Except FileError Unit :=
  match disk.files.write path document.bytes with
  | .error e => (disk, .error e)
  | .ok files => ({ files, documents := (path, document) :: disk.documents }, .ok ())

/-- The document that was last written to a path, however the path is spelled. -/
def document? (disk : Disk) (path : String) : Option Pdf.Document :=
  (disk.documents.find? fun d ↦ FileTree.pathNames d.1 == FileTree.pathNames path).map (·.2)

end Disk

namespace Job

variable {α β : Type}

/-! ## Composing -/

def bind : Job α → (α → Job β) → Job β
  | done a, f => f a
  | read path next, f => read path fun answer ↦ (next answer).bind f
  | write path document next, f => write path document fun answer ↦ (next answer).bind f

instance : Monad Job where
  pure := done
  bind := bind

/-- Reads files, and gives what reading them gave; no other file is there. -/
def fetch : List String → Job Files
  | [] => done fun _ ↦ .error .notFound
  | path :: rest =>
    read path fun content ↦
      (fetch rest).bind fun files ↦ done fun p ↦ if p = path then content else files p

/-- Writes a document. -/
def put (path : String) (document : Pdf.Document) : Job (Except FileError Unit) :=
  write path document done

/-! ## Running -/

/-- Runs a job on a disk. -/
def run : Job α → Disk → Disk × α
  | done a, disk => (disk, a)
  | read path next, disk => (next (disk.files.read path)).run disk
  | write path document next, disk =>
    let (disk, answer) := disk.write path document
    (next answer).run disk

end Job

end PagedReport
