import PagedReport.Canvas.Run

/-!
# A device that records

It keeps what it is asked to draw.  Every file reads as an image of a hundred by a hundred pixels,
and every character of a registered font is half an em wide.
-/

namespace PagedReport

structure Recorder (K : Type) where
  files : Files
  calls : Array (Call K) := #[]
  fonts : List FontKey := []
  /-- The properties the document was finished with. -/
  finished : Option DocumentInfo := none

namespace Recorder

variable {K : Type} [Scalar K]

def put (call : Call K) (r : Recorder K) : Recorder K := { r with calls := r.calls.push call }

/-- The output is a line for every call; a broken sink shows as soon as there is one. -/
def finish (info : DocumentInfo) (sink : Sink) (r : Recorder K) :
    Except CanvasError (Nat × Recorder K) :=
  match sink with
  | .broken reason =>
    if r.calls.isEmpty then .ok (0, { r with finished := some info }) else .error (.output reason)
  | .sound => .ok (r.calls.size, { r with finished := some info })

instance : Device K (Recorder K) Nat where
  registerFont key data r :=
    if data.isEmpty then .error (.font key.family .noData)
    else .ok { r with fonts := key :: r.fonts }
  hasFont r key := r.fonts.contains key
  textWidth _ _ text := 500 * Scalar.whole text.length
  imageSize path r :=
    if r.files.isFile path then .ok ((100, 100), r) else .error (.image path .fileMissing)
  beginPage size r := r.put (.page size)
  mark m r := r.put (.mark m)
  image path place r := .ok (r.put (.image path place))
  finish := finish

end Recorder

end PagedReport
