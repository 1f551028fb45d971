import PagedReport.Canvas.Recorder
import PagedReport.Pdf.Draft
import PagedReport.Proofs.Canvas.Moves

/-!
# Canvases that draw no more

An error stays for good, and so does the end of a document.  Whatever is asked of a canvas after
one of them, its device gets fonts at most, and is finished only if there is no error.  A canvas
with an error that is closed still runs a footer, so this is by induction on the depth of bands.
-/

namespace PagedReport

variable {K D Output : Type}

/-- Steps that draw, load an image or start a page. -/
def Step.draws : Step K → Bool
  | .addPage | .cell _ | .multiCell _ | .line .. | .rect .. | .image .. | .imageExtent ..
  | .flowImage .. => true
  | _ => false

/-! ## Devices that are not drawn on -/

section

variable [Device K D Output]

/-- A device after fonts were registered and, if `finishing`, documents were finished. -/
inductive Served (finishing : Prop) (d : D) : D → Prop
  | refl : Served finishing d d
  | font {e f : D} {key : FontKey} {data : ByteArray} : Served finishing d e →
      Device.registerFont key data e = .ok f → Served finishing d f
  | finish {e f : D} {info : DocumentInfo} {sink : Sink} {output : Output} :
      Served finishing d e → finishing → Device.finish info sink e = .ok (output, f) →
      Served finishing d f

namespace Served

variable {finishing finishing' : Prop} {d e f : D}

theorem trans (h : Served finishing d e) (h' : Served finishing e f) : Served finishing d f := by
  induction h' with
  | refl => exact h
  | font _ hfont ih => exact ih.font hfont
  | finish _ hfinishing hfinish ih => exact ih.finish hfinishing hfinish

theorem mono (h : Served finishing d e) (himp : finishing → finishing') :
    Served finishing' d e := by
  induction h with
  | refl => exact .refl
  | font _ hfont ih => exact ih.font hfont
  | finish _ hfinishing hfinish ih => exact ih.finish (himp hfinishing) hfinish

end Served

/-- What is seen of a device changes neither with its fonts nor by finishing it. -/
structure Untouched {α : Type} (view : D → α) : Prop where
  font : ∀ {d e : D} {key : FontKey} {data : ByteArray},
    Device.registerFont key data d = .ok e → view e = view d
  finish : ∀ {d e : D} {info : DocumentInfo} {sink : Sink} {output : Output},
    Device.finish info sink d = .ok (output, e) → view e = view d

theorem Served.view_eq {finishing : Prop} {d e : D} (h : Served finishing d e) {α : Type}
    {view : D → α} (hview : Untouched view) : view e = view d := by
  induction h with
  | refl => rfl
  | font _ hfont ih => exact (hview.font hfont).trans ih
  | finish _ _ hfinish ih => exact (hview.finish hfinish).trans ih

end

theorem Recorder.calls_untouched [Scalar K] : Untouched (Recorder.calls (K := K)) := by
  constructor
  · intro d e key data h
    change (if data.isEmpty then Except.error (CanvasError.font key.family .noData)
      else .ok { d with fonts := key :: d.fonts }) = .ok e at h
    split at h
    · cases h
    · rw [← Except.ok.inj h]
  · intro d e info sink output h
    change Recorder.finish info sink d = _ at h
    unfold Recorder.finish at h
    cases sink with
    | sound => rw [← (Prod.mk.inj (Except.ok.inj h)).2]
    | broken reason =>
        dsimp only at h
        split at h
        · rw [← (Prod.mk.inj (Except.ok.inj h)).2]
        · cases h

theorem Pdf.Draft.pages_untouched : Untouched Pdf.Draft.pages := by
  constructor
  · intro d e key data h
    change Pdf.Draft.registerFont key data d = .ok e at h
    unfold Pdf.Draft.registerFont at h
    cases hread : EmbeddedFont.read key data with
    | error fault => rw [hread] at h; cases h
    | ok f =>
        rw [hread] at h
        dsimp only [bind, Except.bind] at h
        split at h <;> exact (Except.ok.inj h).symm ▸ rfl
  · intro d e info sink output h
    cases sink with
    | sound => exact (Prod.mk.inj (Except.ok.inj h)).2 ▸ rfl
    | broken reason => cases h

namespace Canvas

/-! ## One step -/

/-- A canvas with an error, or of a closed document. -/
def Frozen (c : Canvas K D) : Prop := c.error.isSome ∨ c.closed = true

theorem fail_closed_error (c : Canvas K D) :
    (c.fail .closed).error = c.error.or (some .closed) := by
  unfold fail
  cases hc : c.error with
  | none => rfl
  | some e => exact hc

section

variable [Device K D Output]

/-- A canvas after steps that have drawn nothing. -/
structure Idle (c d : Canvas K D) : Prop where
  history : d.history = c.history
  pageCount : d.pageCount = c.pageCount
  closed : c.closed = true → d.closed = true
  device : Served False c.device d.device

namespace Idle

variable {c d e : Canvas K D}

theorem trans (h : Idle c d) (h' : Idle d e) : Idle c e :=
  ⟨h'.history.trans h.history, h'.pageCount.trans h.pageCount, fun hc ↦ h'.closed (h.closed hc),
    h.device.trans h'.device⟩

theorem refl (c : Canvas K D) : Idle c c := ⟨rfl, rfl, id, .refl⟩

theorem fail (failure : CanvasError) (c : Canvas K D) : Idle c (c.fail failure) := by
  unfold Canvas.fail
  split <;> exact ⟨rfl, rfl, id, .refl⟩

end Idle

/-- A canvas after operations of any kind that have drawn nothing. -/
structure Rests (c d : Canvas K D) : Prop where
  history : d.history = c.history
  pageCount : d.pageCount = c.pageCount
  closed : c.closed = true → d.closed = true
  device : Served (c.error = none) c.device d.device

theorem Idle.rests {c d : Canvas K D} (h : Idle c d) : Rests c d :=
  ⟨h.history, h.pageCount, h.closed, h.device.mono False.elim⟩

theorem Rests.trans {c d e : Canvas K D} (h : Rests c d) (hd : d.error = none → c.error = none)
    (h' : Rests d e) : Rests c e :=
  ⟨h'.history.trans h.history, h'.pageCount.trans h.pageCount, fun hc ↦ h'.closed (h.closed hc),
    h.device.trans (h'.device.mono hd)⟩

theorem Rests.frozen {c d : Canvas K D} (h : Rests c d) (hc : c.Frozen)
    {failure : Option CanvasError} (hd : d.error = c.error.or failure) : d.Frozen := by
  rcases hc with he | hclosed
  · refine .inl ?_
    rw [hd, Option.or_of_isSome he]
    exact he
  · exact .inr (h.closed hclosed)

end

variable [Scalar K] [Device K D Output]

section

variable (hook' : Origin → Canvas K D → Canvas K D) {c : Canvas K D}

theorem addPageWith_frozen (hc : c.Frozen) : addPageWith hook' c = c.fail .closed := by
  unfold addPageWith
  cases he : c.error with
  | some e => simp [fail, he]
  | none =>
      have hclosed : c.closed = true := hc.resolve_left (by simp [he])
      simp [hclosed]

theorem prepareWith_frozen (hc : c.Frozen) : prepareWith hook' c = (c.fail .closed, false) := by
  unfold prepareWith
  cases he : c.error with
  | some e => simp [fail, he]
  | none =>
      have hclosed : c.closed = true := hc.resolve_left (by simp [he])
      simp [hclosed]

/-- Every step that draws asks first whether it may. -/
theorem stepWith_draws_frozen (hc : c.Frozen) {s : Step K} (hs : s.draws = true) :
    stepWith hook' s c = c.fail .closed := by
  have hextent (path : String) (width height : K) :
      imageExtentWith hook' path width height c = (c.fail .closed, none) := by
    simp [imageExtentWith, prepareWith_frozen hook' hc]
  have himage (path : String) (x y width height : K) :
      imageWith hook' path x y width height c = (c.fail .closed, none) := by
    simp [imageWith, hextent]
  cases s with
  | setMargins | setAutoBreak | setInfo | decorate | undecorate | registerFont | setFont
  | setTextColor | setFillColor | setDrawColor | setLineWidth | setX | setY | lineFeed | warn
  | close => cases hs
  | addPage => exact addPageWith_frozen hook' hc
  | cell cell => simp [stepWith, cellWith, prepareWith_frozen hook' hc]
  | multiCell cell => simp [stepWith, multiCellWith, prepareWith_frozen hook' hc]
  | line => simp [stepWith, lineWith, prepareWith_frozen hook' hc]
  | rect => simp [stepWith, rectWith, prepareWith_frozen hook' hc]
  | image => simp [stepWith, himage]
  | imageExtent => simp [stepWith, hextent]
  | flowImage path align x y width height spacing =>
      have hstart : flowStart hook' path align width height c = (c.fail .closed, none) ∨
          flowStart hook' path align width height c = (c, some (width, height)) := by
        unfold flowStart
        split
        · exact .inl (hextent path width height)
        · exact .inr rfl
      rw [stepWith, flowImageWith_eq]
      rcases hstart with hstart | hstart
      · rw [hstart]
      · simp [hstart, himage, flowEnd]

variable (hhook : ∀ band (c : Canvas K D), c.error.isSome →
  Idle c (hook' band c) ∧ (hook' band c).error = c.error)

include hhook

/-- Closing after an error runs the footer once more, in vain. -/
theorem closeWith_frozen (hc : c.Frozen) :
    Idle c (closeWith hook' c) ∧ (closeWith hook' c).error = c.error := by
  unfold closeWith
  split
  · exact ⟨.refl c, rfl⟩
  · next hopen =>
      have he : c.error.isSome := hc.resolve_right hopen
      -- with an error not even a first page is added
      have hpaged : (if c.pageCount = 0 then addPageWith hook' c else c) = c := by
        split
        · simp [addPageWith, he]
        · rfl
      obtain ⟨hidle, herror⟩ := hhook .footer c he
      rw [hpaged]
      exact ⟨⟨hidle.history, hidle.pageCount, fun _ ↦ rfl, hidle.device⟩, herror⟩

theorem stepWith_frozen (hc : c.Frozen) (s : Step K) :
    Idle c (stepWith hook' s c) ∧
      (stepWith hook' s c).error = c.error.or (if s.draws then some .closed else none) := by
  by_cases hs : s.draws = true
  · rw [stepWith_draws_frozen hook' hc hs, if_pos hs]
    exact ⟨.fail .closed c, fail_closed_error c⟩
  · rw [if_neg hs, Option.or_none]
    cases s with
    | addPage | cell | multiCell | line | rect | image | imageExtent | flowImage =>
        exact absurd rfl hs
    | setMargins | setAutoBreak | setInfo | decorate | undecorate | setTextColor | setFillColor
    | setDrawColor | setLineWidth | setX | setY | lineFeed | warn =>
        exact ⟨⟨rfl, rfl, id, .refl⟩, rfl⟩
    | registerFont family style data =>
        simp only [stepWith, registerFont]
        cases hfont : Device.registerFont (.ofText family style) data c.device with
        | error e => exact ⟨.refl c, rfl⟩
        | ok device => exact ⟨⟨rfl, rfl, id, .font .refl hfont⟩, rfl⟩
    | setFont family style size =>
        simp only [stepWith, setFont]
        split <;> exact ⟨⟨rfl, rfl, id, .refl⟩, rfl⟩
    | close => exact closeWith_frozen hook' hhook hc

theorem foldl_failed {e : CanvasError} (he : c.error = some e) (steps : List (Step K)) :
    Idle c (steps.foldl (fun c s ↦ stepWith hook' s c) c) ∧
      (steps.foldl (fun c s ↦ stepWith hook' s c) c).error = some e := by
  induction steps generalizing c with
  | nil => exact ⟨.refl c, he⟩
  | cons s steps ih =>
      obtain ⟨hidle, herror⟩ := stepWith_frozen hook' hhook (.inl (by rw [he]; rfl)) s
      rw [he, Option.some_or] at herror
      obtain ⟨hrest, hlast⟩ := ih herror
      exact ⟨hidle.trans hrest, hlast⟩

end

/-- A band that is drawn after an error draws nothing, nor do the bands that are drawn in it. -/
theorem hookAt_failed (depth : Nat) (band : Origin) (c : Canvas K D) (hc : c.error.isSome) :
    Idle c (hookAt depth band c) ∧ (hookAt depth band c).error = c.error := by
  -- the steps of a band may turn pages, whose bands are one level further down
  induction depth generalizing band c with
  | zero => exact ⟨.refl c, rfl⟩
  | succ depth ih =>
      rw [hookAt]
      split
      · exact ⟨.refl c, rfl⟩
      · next d _ =>
          obtain ⟨e, he⟩ := Option.isSome_iff_exists.mp hc
          obtain ⟨hidle, herror⟩ := foldl_failed (hookAt depth) ih
            (c := { c with origin := band }) he (bandSteps d band)
          exact ⟨⟨hidle.history, hidle.pageCount, hidle.closed, hidle.device⟩, herror.trans he.symm⟩

theorem step_frozen {c : Canvas K D} (hc : c.Frozen) (s : Step K) :
    Idle c (c.step s) ∧
      (c.step s).error = c.error.or (if s.draws then some .closed else none) :=
  stepWith_frozen hook (fun band c ↦ hookAt_failed _ band c) hc s

theorem close_frozen {c : Canvas K D} (hc : c.Frozen) :
    Idle c c.close ∧ c.close.error = c.error :=
  closeWith_frozen hook (fun band c ↦ hookAt_failed _ band c) hc

theorem close_closed {c : Canvas K D} (hc : c.closed = true) : c.close = c := by
  simp [close, closeWith, hc]

/-! ## All operations -/

/-- What may be asked of a canvas from outside.  Inside a band, where the document cannot be taken
from it, asking for the document only closes it. -/
inductive Operation (K : Type) where
  | step (s : Step K)
  | write (sink : Sink)

def Operation.draws : Operation K → Bool
  | step s => s.draws
  | write _ => false

def operate : Operation K → Canvas K D → Canvas K D
  | .step s, c => c.step s
  | .write sink, c => (c.write sink).1

def operateAll (operations : List (Operation K)) (c : Canvas K D) : Canvas K D :=
  operations.foldl (fun c o ↦ c.operate o) c

/-- Writing fails with the error of the canvas and does not finish the device then. -/
theorem write_failed {c : Canvas K D} {e : CanvasError} (he : c.error = some e) (sink : Sink) :
    c.write sink = (c.close, .error e) := by
  have hclose : c.close.error = some e := (close_frozen (.inl (by rw [he]; rfl))).2.trans he
  simp [write, hclose]

theorem write_closed {c : Canvas K D} (hc : c.closed = true) (he : c.error = none) (sink : Sink) :
    c.write sink =
      match Device.finish c.info sink c.device with
      | .error e => (c, .error e)
      | .ok (output, device) => ({ c with device }, .ok output) := by
  unfold write
  rw [close_closed hc]
  dsimp only
  split
  · next he' => cases he.symm.trans he'
  · rfl

theorem operate_frozen {c : Canvas K D} (hc : c.Frozen) (o : Operation K) :
    Rests c (c.operate o) ∧
      (c.operate o).error = c.error.or (if o.draws then some .closed else none) := by
  cases o with
  | step s =>
      obtain ⟨hidle, herror⟩ := step_frozen hc s
      exact ⟨hidle.rests, herror⟩
  | write sink =>
      cases he : c.error with
      | some e =>
          obtain ⟨hidle, herror⟩ := close_frozen hc
          rw [operate, write_failed he]
          exact ⟨hidle.rests, herror.trans (by simp [he])⟩
      | none =>
          have hclosed : c.closed = true := hc.resolve_left (by simp [he])
          rw [operate, write_closed hclosed he]
          cases hfinish : Device.finish c.info sink c.device with
          | error e => exact ⟨⟨rfl, rfl, id, .refl⟩, he⟩
          | ok finished => exact ⟨⟨rfl, rfl, id, .finish .refl he hfinish⟩, he⟩

theorem operateAll_rests {c : Canvas K D} (hc : c.Frozen) (operations : List (Operation K)) :
    Rests c (c.operateAll operations) ∧ (c.operateAll operations).error =
      c.error.or (if operations.any (·.draws) then some .closed else none) := by
  induction operations generalizing c with
  | nil => exact ⟨⟨rfl, rfl, id, .refl⟩, by simp [operateAll]⟩
  | cons o operations ih =>
      obtain ⟨hrests, herror⟩ := operate_frozen hc o
      obtain ⟨hrest, hlast⟩ := ih (hrests.frozen hc herror)
      have hkept : (c.operate o).error = none → c.error = none := by
        rw [herror, Option.or_eq_none_iff]
        exact And.left
      refine ⟨hrests.trans hkept hrest, hlast.trans ?_⟩
      rw [herror, Option.or_assoc, List.any_cons]
      cases o.draws <;> simp

/-- After an error or the end of the document no operation reaches a page any more: the calls and
the pages stay as they are, and the device takes fonts and, if there is no error, is finished.  An
error stays the one it is, and writing gives it.  A closed document without an error gets one from
the first step that draws; until then it stays closed, and is written as it was drawn. -/
theorem operateAll_frozen {c : Canvas K D} (hc : c.Frozen) (operations : List (Operation K)) :
    Rests c (c.operateAll operations) ∧
      (∀ e, c.error = some e → (c.operateAll operations).error = some e ∧
        ∀ sink, (c.operateAll operations).write sink =
          ((c.operateAll operations).close, .error e)) ∧
      (c.error = none →
        (c.operateAll operations).error =
            (if operations.any (·.draws) then some .closed else none) ∧
          (c.operateAll operations).close = c.operateAll operations ∧
          ((c.operateAll operations).error = none → ∀ sink,
            (c.operateAll operations).write sink =
              match Device.finish (c.operateAll operations).info sink
                (c.operateAll operations).device with
              | .error e => (c.operateAll operations, .error e)
              | .ok (output, device) => ({ c.operateAll operations with device }, .ok output))) ∧
      ∀ {α : Type} {view : D → α}, Untouched view →
        view (c.operateAll operations).device = view c.device := by
  obtain ⟨hrests, herror⟩ := operateAll_rests hc operations
  refine ⟨hrests, fun e he ↦ ?_, fun he ↦ ?_, fun hview ↦ hrests.device.view_eq hview⟩
  · rw [he, Option.some_or] at herror
    exact ⟨herror, write_failed herror⟩
  · have hclosed : (c.operateAll operations).closed = true :=
      hrests.closed (hc.resolve_left (by simp [he]))
    rw [he, Option.none_or] at herror
    exact ⟨herror, close_closed hclosed, write_closed hclosed⟩

/-- A page on which an image is missing, with a footer that would draw. -/
def torn : Canvas Float (Recorder Float) :=
  (new { files := fun _ ↦ .error .notFound } default).run
    [ .decorate [] [.cell { width := 0, height := 6, text := "in haste" }],
      .cell { width := 40, height := 6, text := "Dear Ada," },
      .image "lost.png" 20 20 40 30 ]

theorem operateAll_frozen_torn :
    torn.Frozen ∧
      (torn.operateAll [.step .addPage, .write .sound]).error =
        some (.image "lost.png" .fileMissing) ∧
      (torn.operateAll [.step .addPage, .write .sound]).device.calls = torn.device.calls := by
  have he : torn.error = some (.image "lost.png" .fileMissing) := by decide +kernel
  have hfrozen : torn.Frozen := .inl (by rw [he]; rfl)
  obtain ⟨-, herror, -, hview⟩ := operateAll_frozen hfrozen [.step .addPage, .write .sound]
  exact ⟨hfrozen, (herror _ he).1, hview Recorder.calls_untouched⟩

end Canvas

end PagedReport
