import PagedReport.Canvas.Recorder
import PagedReport.Proofs.Canvas.Flows

/-!
# Graphics states around bands

Starting a page sets the graphics state back to what it was before the footer and the header, so a
step that starts pages keeps it, whatever the bands do and whatever state the canvas is in.  Closing
a document sets nothing back: what the last footer leaves stays in effect.
-/

namespace PagedReport

variable {K D Output : Type}

/-- A step that sets a font, a colour or a line width. -/
def Step.restyles : Step K → Bool
  | .setFont .. | .setTextColor _ | .setFillColor _ | .setDrawColor _ | .setLineWidth _ => true
  | _ => false

namespace Canvas

theorem fail_graphics (e : CanvasError) (c : Canvas K D) : (c.fail e).graphics = c.graphics := by
  unfold fail
  split <;> rfl

variable [Scalar K] [Device K D Output]

theorem restyled_eq_self (b : Canvas K D) (g : Graphics K) {s : Step K} (hs : s.restyles = false) :
    b.restyled g s = g := by
  cases s with
  | setFont | setTextColor | setFillColor | setDrawColor | setLineWidth => cases hs
  | _ => rfl

theorem advance_graphics (cell : Cell K) (width : K) (c : Canvas K D) :
    (c.advance cell width).graphics = c.graphics := by
  unfold advance
  dsimp only
  split <;> rfl

theorem measure_graphics (path : String) (width height : K) (c : Canvas K D) :
    (measure path width height c).1.graphics = c.graphics := by
  unfold measure
  split
  · exact fail_graphics _ c
  · dsimp only
    split
    · exact fail_graphics _ _
    · rfl

theorem place_graphics (path : String) (x y : K) (p : Canvas K D × Option (K × K)) :
    (place path x y p).1.graphics = p.1.graphics := by
  obtain ⟨c, _ | ⟨w, h⟩⟩ := p
  · rfl
  · unfold place
    dsimp only
    split
    · exact fail_graphics _ c
    · rfl

theorem flowEnd_graphics (y spacing : K) (p : Canvas K D × Option (K × K)) :
    (flowEnd y spacing p).graphics = p.1.graphics := by
  obtain ⟨c, _ | ⟨w, h⟩⟩ := p
  · rfl
  · unfold flowEnd
    dsimp only
    split <;> split <;> rfl

theorem setFont_graphics (family style : String) (size : K) (c : Canvas K D) :
    (c.setFont family style size).graphics =
      c.restyled c.graphics (.setFont family style size) := by
  obtain ⟨warnings, heq⟩ := setFont_eq family style size c
  rw [heq]

/-! ## Bands that do anything -/

section

variable (hook' : Origin → Canvas K D → Canvas K D)

theorem addPageWith_graphics (c : Canvas K D) : (addPageWith hook' c).graphics = c.graphics := by
  unfold addPageWith
  split
  · rfl
  · split
    · exact fail_graphics _ c
    · rfl

theorem prepareWith_graphics (c : Canvas K D) :
    (prepareWith hook' c).1.graphics = c.graphics := by
  unfold prepareWith
  split
  · rfl
  · split
    · exact fail_graphics _ c
    · dsimp only
      split
      · exact addPageWith_graphics hook' c
      · rfl

/-- What keeps the graphics state of a canvas that is ready keeps it when the canvas is made ready
first. -/
theorem prepared_graphics (c : Canvas K D) {f : Canvas K D → Canvas K D}
    (hf : ∀ d, (f d).graphics = d.graphics) :
    (if (prepareWith hook' c).2 then f (prepareWith hook' c).1
      else (prepareWith hook' c).1).graphics = c.graphics := by
  split
  · exact (hf _).trans (prepareWith_graphics hook' c)
  · exact prepareWith_graphics hook' c

theorem turnWith_graphics (height : K) (c : Canvas K D) :
    (turnWith hook' height c).graphics = c.graphics := by
  unfold turnWith
  split
  · exact addPageWith_graphics hook' c
  · rfl

theorem drawCellWith_graphics (cell : Cell K) (justify : Bool) (c : Canvas K D) :
    (drawCellWith hook' cell justify c).graphics = c.graphics := by
  rw [drawCellWith_eq]
  dsimp only
  rw [advance_graphics, puts_graphics, turnWith_graphics]

theorem drawRows_graphics (cell : Cell K) (width x : K) (first : Bool) (lines : List WrappedLine)
    (c : Canvas K D) : (drawRows hook' cell width x first lines c).graphics = c.graphics := by
  induction lines generalizing first c with
  | nil => rfl
  | cons line lines ih => exact (ih false _).trans (drawCellWith_graphics hook' _ _ _)

theorem multiCellWith_graphics (cell : Cell K) (c : Canvas K D) :
    (multiCellWith hook' cell c).graphics = c.graphics := by
  unfold multiCellWith
  dsimp only
  split
  · exact (drawRows_graphics hook' cell _ _ true _ _).trans (prepareWith_graphics hook' c)
  · exact prepareWith_graphics hook' c

theorem imageExtentWith_graphics (path : String) (width height : K) (c : Canvas K D) :
    (imageExtentWith hook' path width height c).1.graphics = c.graphics := by
  rw [imageExtentWith_eq]
  split
  · exact (measure_graphics path width height _).trans (prepareWith_graphics hook' c)
  · exact prepareWith_graphics hook' c

theorem imageWith_graphics (path : String) (x y width height : K) (c : Canvas K D) :
    (imageWith hook' path x y width height c).1.graphics = c.graphics := by
  rw [imageWith_eq, place_graphics, imageExtentWith_graphics]

theorem flowImageWith_graphics (path : String) (align : Option Align)
    (x y width height spacing : K) (c : Canvas K D) :
    (flowImageWith hook' path align x y width height spacing c).graphics = c.graphics := by
  have hstart : (flowStart hook' path align width height c).1.graphics = c.graphics := by
    unfold flowStart
    split
    · exact imageExtentWith_graphics hook' path width height c
    · rfl
  rw [flowImageWith_eq]
  generalize flowStart hook' path align width height c = start at hstart
  obtain ⟨d, _ | ⟨w, h⟩⟩ := start
  · exact hstart
  · dsimp only
    rw [flowEnd_graphics, imageWith_graphics, hstart]

/-- A step leaves the graphics state as it is but for what it sets itself. -/
theorem stepWith_graphics {s : Step K} (hs : s ≠ .close) (c : Canvas K D) :
    (stepWith hook' s c).graphics = c.restyled c.graphics s := by
  cases s with
  | setMargins | setAutoBreak | setInfo | decorate | undecorate | setTextColor | setFillColor
  | setDrawColor | setLineWidth | setX | setY | lineFeed | warn => rfl
  | registerFont family style data =>
      simp only [stepWith, registerFont]
      cases Device.registerFont (.ofText family style) data c.device <;> rfl
  | setFont family style size => exact setFont_graphics family style size c
  | addPage => exact addPageWith_graphics hook' c
  | cell cell => exact prepared_graphics hook' c (drawCellWith_graphics hook' cell false)
  | multiCell cell => exact multiCellWith_graphics hook' cell c
  | line => exact prepared_graphics hook' c fun _ ↦ rfl
  | rect => exact prepared_graphics hook' c fun _ ↦ rfl
  | image => exact imageWith_graphics hook' _ _ _ _ _ c
  | imageExtent => exact imageExtentWith_graphics hook' _ _ _ c
  | flowImage => exact flowImageWith_graphics hook' _ _ _ _ _ _ _ c
  | close => exact absurd rfl hs

theorem foldl_graphics {steps : List (Step K)}
    (hsteps : ∀ s ∈ steps, s ≠ .close ∧ s.restyles = false) (c : Canvas K D) :
    (steps.foldl (fun c s ↦ stepWith hook' s c) c).graphics = c.graphics := by
  induction steps generalizing c with
  | nil => rfl
  | cons s steps ih =>
      obtain ⟨⟨hs, hstyle⟩, hrest⟩ := List.forall_mem_cons.mp hsteps
      rw [List.foldl_cons, ih hrest, stepWith_graphics hook' hs, restyled_eq_self c _ hstyle]

end

theorem hookAt_graphics (depth : Nat) (band : Origin) {c : Canvas K D}
    (hbands : ∀ bands, c.decorator = some bands →
      ∀ s ∈ bandSteps bands band, s ≠ .close ∧ s.restyles = false) :
    (hookAt depth band c).graphics = c.graphics := by
  cases depth with
  | zero => rfl
  | succ depth =>
      rw [hookAt]
      split
      · rfl
      · next bands hsome =>
          exact foldl_graphics (hookAt depth) (hbands bands hsome) { c with origin := band }

/-! ## Every operation -/

theorem paged_graphics (c : Canvas K D) : c.paged.graphics = c.graphics := by
  unfold paged
  split
  · exact addPageWith_graphics hook c
  · rfl

theorem write_graphics (sink : Sink) (c : Canvas K D) :
    (c.write sink).1.graphics = c.close.graphics := by
  unfold write
  dsimp only
  split
  · rfl
  · split <;> rfl

/-- Whatever bands a canvas has and whatever state it is in, no step but closing the document leaves
another graphics state than it found or sets itself.  Closing keeps it up to the last footer, and to
the end if that footer sets neither a font nor a colour nor a line width. -/
theorem graphics_restored (c : Canvas K D) :
    (∀ s : Step K, s ≠ .close → (c.step s).graphics = c.restyled c.graphics s) ∧
    (∀ sink : Sink, (c.write sink).1.graphics = c.close.graphics) ∧
    (c.closed = true → c.close.graphics = c.graphics) ∧
    (c.closed = false →
      c.paged.graphics = c.graphics ∧ c.close = { hook .footer c.paged with closed := true } ∧
      ((∀ bands, c.paged.decorator = some bands →
        ∀ s ∈ bands.footer, s ≠ .close ∧ s.restyles = false) → c.close.graphics = c.graphics)) := by
  refine ⟨fun s hs ↦ stepWith_graphics hook hs c, fun sink ↦ write_graphics sink c,
    fun hclosed ↦ ?_, fun hopen ↦ ?_⟩
  · simp [close, closeWith, hclosed]
  · have hclose : c.close = { hook .footer c.paged with closed := true } := by
      simp [close, closeWith, hopen, paged, addPage]
    refine ⟨paged_graphics c, hclose, fun hbands ↦ ?_⟩
    rw [hclose]
    exact (hookAt_graphics _ .footer hbands).trans (paged_graphics c)

/-- Closing does not set the graphics state back: a footer that turns red leaves it red. -/
theorem not_close_restores :
    ¬ ∀ (bands : Decorator Float) (c : Canvas Float (Recorder Float)),
      bands.Plain → c.decorator = some bands → c.close.graphics = c.graphics := by
  intro hrestores
  let bands : Decorator Float := ⟨[], [.setTextColor ⟨200, 0, 0⟩]⟩
  let blank : Canvas Float (Recorder Float) :=
    .new ({ files := fun _ ↦ .error .notFound } : Recorder Float) default
  have hplain : bands.Plain := by
    refine ⟨nofun, fun s hs ↦ ?_⟩
    obtain rfl := List.mem_singleton.mp hs
    trivial
  have hsame := hrestores bands { blank with decorator := some bands } hplain rfl
  have hred : ({ blank with decorator := some bands }.close).graphics.textColor = ⟨200, 0, 0⟩ := by
    decide +kernel
  rw [hsame] at hred
  cases hred

end Canvas

end PagedReport
