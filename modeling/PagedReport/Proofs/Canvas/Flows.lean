import PagedReport.Proofs.Canvas.Asides

/-!
# Graphics states in the flow

Drawing keeps the graphics state, also from page to page; only the steps that set a font, a colour
or a line width change it, and these draw nothing.  So all pages that one step of the body starts
are started in one state.
-/

namespace PagedReport

open Canvas

variable {K D Output : Type}

namespace Canvas

section

variable [Scalar K] [Device K D Output]

/-- What a step of the body makes of a graphics state, on a canvas with the fonts of `b`. -/
def restyled (b : Canvas K D) (g : Graphics K) : Step K → Graphics K
  | .setFont family style size =>
    { g with font :=
        { key := (b.chooseFont family style).1
          size := if 0 < size then size else g.font.size
          underline := FontStyle.mentions 'U' style } }
  | .setTextColor color => { g with textColor := color }
  | .setFillColor color => { g with fillColor := color }
  | .setDrawColor color => { g with drawColor := color }
  | .setLineWidth w => { g with lineWidth := w }
  | _ => g

end

/-! ## On one page -/

variable {R : D → D → Prop} {c d e : Canvas K D}

variable (R) in
/-- Drawing on behalf of the body that stays on its page and keeps the graphics state. -/
structure OnPage (c d : Canvas K D) : Prop where
  frame : d.frame = c.frame
  graphics : d.graphics = c.graphics
  history : ∃ calls : List (Call K), d.history.toList = c.history.toList ++ on .body calls ∧
    ∀ size, .page size ∉ calls
  device : ∀ e, R c.device e → R d.device e
  error : d.error = none → c.error = none

namespace OnPage

theorem pen (c : Canvas K D) (x y lastHeight : K) (warnings : Array Warning) :
    OnPage R c { c with x, y, lastHeight, warnings } :=
  ⟨rfl, rfl, ⟨[], by simp, fun _ ↦ List.not_mem_nil⟩, fun _ ↦ id, id⟩

theorem refl (c : Canvas K D) : OnPage R c c := pen c c.x c.y c.lastHeight c.warnings

theorem trans (h : OnPage R c d) (h' : OnPage R d e) : OnPage R c e := by
  obtain ⟨calls, hcalls, hnone⟩ := h.history
  obtain ⟨calls', hcalls', hnone'⟩ := h'.history
  refine ⟨h'.frame.trans h.frame, h'.graphics.trans h.graphics, ⟨calls ++ calls', ?_, ?_⟩,
    fun f hf ↦ h'.device f (h.device f hf), fun he ↦ h.error (h'.error he)⟩
  · rw [hcalls', hcalls, on, on, on, List.map_append, List.append_assoc]
  · intro size hsize
    exact (List.mem_append.mp hsize).elim (hnone size) (hnone' size)

theorem note (hc : c.origin = .body) {call : Call K} (hcall : ∀ size, call ≠ .page size)
    {device : D} (hdevice : ∀ e, R c.device e → R device e) :
    OnPage R c ({ c with device }.note call) := by
  refine ⟨rfl, rfl, ⟨[call], by simp [Canvas.note, on, hc], fun size hsize ↦ ?_⟩, hdevice, id⟩
  exact hcall size (List.mem_singleton.mp hsize).symm

variable [Device K D Output]

theorem load (hR : Agreement R) {path : String} {pixels : Nat × Nat} {device : D}
    (hload : Device.imageSize path c.device = .ok (pixels, device)) :
    OnPage R c { c with device } :=
  ⟨rfl, rfl, ⟨[], by simp, fun _ ↦ List.not_mem_nil⟩, fun _ he ↦ hR.load he hload, id⟩

theorem put (hR : Agreement R) (hc : c.origin = .body) (m : Mark K) : OnPage R c (c.put m) := by
  have hmark : ∀ size, Call.mark m ≠ .page size := nofun
  exact note hc hmark fun _ ↦ hR.mark m

theorem puts (hR : Agreement R) (hc : c.origin = .body) (ms : List (Mark K)) :
    OnPage R c (c.puts ms) := by
  induction ms generalizing c with
  | nil => exact refl c
  | cons m ms ih => exact (put hR hc m).trans (ih hc)

end OnPage

/-! ## From page to page -/

variable [Scalar K] [Device K D Output]

variable (R) in
/-- Drawing on behalf of the body in one graphics state, with pages that are started on the way. -/
inductive Flows (c : Canvas K D) : Canvas K D → Prop
  | refl : Flows c c
  | onPage {d e : Canvas K D} : Flows c d → OnPage R d e → Flows c e
  | page {d : Canvas K D} : Flows c d → Flows c d.addPage

namespace Flows

theorem of_onPage (h : OnPage R c d) : Flows R c d := refl.onPage h

theorem trans (h : Flows R c d) (h' : Flows R d e) : Flows R c e := by
  induction h' with
  | refl => exact h
  | onPage _ hpage ih => exact ih.onPage hpage
  | page _ ih => exact ih.page

theorem turn (height : K) (c : Canvas K D) : Flows R c (turnWith hook height c) := by
  unfold turnWith
  split
  · exact (page refl).onPage (.pen _ c.x _ _ _)
  · exact refl

theorem advance (cell : Cell K) (width : K) (c : Canvas K D) :
    OnPage R c (c.advance cell width) := by
  unfold Canvas.advance
  dsimp only
  split <;> exact .pen ..

theorem drawCell (hR : Agreement R) (hc : c.frame.Sound) (cell : Cell K) (justify : Bool) :
    Flows R c (drawCellWith hook cell justify c) := by
  have hturn : Flows R c (turnWith hook cell.height c) := turn cell.height c
  have hsound := (turnWith_draws hook cell.height c).sound hc
  rw [drawCellWith_eq]
  generalize turnWith hook cell.height c = d at hturn hsound
  exact (hturn.onPage (.puts hR hsound.origin _)).onPage (advance ..)

theorem drawRows (hR : Agreement R) (hc : c.frame.Sound) (cell : Cell K) (width x : K)
    (first : Bool) (lines : List WrappedLine) :
    Flows R c (Canvas.drawRows hook cell width x first lines c) := by
  induction lines generalizing first c with
  | nil => exact refl
  | cons line lines ih =>
      have hmoved : Flows R c { c with x } := of_onPage (.pen c x _ _ _)
      have hrow (row : Cell K) (justify : Bool) :=
        hmoved.trans (drawCell hR (c := { c with x }) hc row justify)
      obtain ⟨calls, hdraws, -⟩ := drawCellWith_prints hook
        { cell with
          width
          text := String.ofList line.text
          border := cell.border.ofLine first lines.isEmpty
          advance := .below }
        (cell.align = .justify && !line.hardBreak) { c with x }
      exact (hrow _ _).trans (ih (hdraws.sound hc) false)

end Flows

/-! ## Begun pages -/

/-- A canvas that body and bands draw on, with a page that is begun. -/
structure Begun (c : Canvas K D) : Prop where
  sound : c.frame.Sound
  begun : c.pageCount ≠ 0
  error : c.error = none

theorem Begun.prepareWith (hc : Begun c) : prepareWith hook c = (c, true) := by
  have hopen : c.closed = false := hc.sound.isOpen
  simp [Canvas.prepareWith, hc.error, hopen, hc.begun]

theorem Begun.of_draws (hc : Begun c) {calls : List (Call K)} (h : Draws hook c calls d)
    (hd : d.error = none) : Begun d := by
  have hpages := h.pageCount_le hc.sound
  have hbegun := hc.begun
  exact ⟨h.sound hc.sound, by omega, hd⟩

theorem Flows.cell (hR : Agreement R) (hc : Begun c) (cell : Cell K) :
    Flows R c (cellWith hook cell c) := by
  have heq : cellWith hook cell c = drawCellWith hook cell false c := by
    simp [cellWith, hc.prepareWith]
  rw [heq]
  exact drawCell hR hc.sound cell false

theorem Flows.multiCell (hR : Agreement R) (hc : Begun c) (cell : Cell K) :
    Flows R c (multiCellWith hook cell c) := by
  unfold multiCellWith
  rw [hc.prepareWith]
  exact (drawRows hR hc.sound cell _ _ _ _).onPage (.pen _ _ _ _ _)

namespace OnPage

theorem line (hR : Agreement R) (hc : Begun c) (x₁ y₁ x₂ y₂ : K) :
    OnPage R c (lineWith hook x₁ y₁ x₂ y₂ c) := by
  unfold lineWith
  rw [hc.prepareWith]
  exact put hR hc.sound.origin _

theorem rect (hR : Agreement R) (hc : Begun c) (x y width height radius : K)
    (painting : Painting) : OnPage R c (rectWith hook x y width height radius painting c) := by
  unfold rectWith
  rw [hc.prepareWith]
  exact put hR hc.sound.origin _

theorem imageExtent (hR : Agreement R) (hc : Begun c) {path : String} {width height : K}
    (he : (imageExtentWith hook path width height c).1.error = none) :
    OnPage R c (imageExtentWith hook path width height c).1 := by
  obtain ⟨-, pixels, device, hload, heq⟩ := imageExtentWith_ok hook he
  rw [hc.prepareWith] at hload heq
  rw [heq]
  exact load hR hload

theorem image (hR : Agreement R) (hc : Begun c) {path : String} {x y width height : K}
    (he : (imageWith hook path x y width height c).1.error = none) :
    OnPage R c (imageWith hook path x y width height c).1 := by
  obtain ⟨d, extent, device, hd, hextent, hplace, heq⟩ := imageWith_ok hook he
  have hmeasured : OnPage R c (imageExtentWith hook path width height c).1 :=
    imageExtent hR hc (by rw [hextent]; exact hd)
  rw [hextent] at hmeasured
  have hbody : d.origin = .body := (congrArg Frame.origin hmeasured.frame).trans hc.sound.origin
  have hcall : ∀ size, Call.image path (d.inPoints x y extent.1 extent.2) ≠ .page size :=
    fun _ ↦ nofun
  rw [heq]
  exact hmeasured.trans (note hbody hcall fun _ hf ↦ hR.image hf hplace)

theorem flowStart (hR : Agreement R) (hc : Begun c) {path : String} {align : Option Align}
    {width height : K} (he : (flowStart hook path align width height c).1.error = none) :
    OnPage R c (flowStart hook path align width height c).1 := by
  unfold Canvas.flowStart at he ⊢
  split
  · next haligned =>
      rw [if_pos haligned] at he
      exact imageExtent hR hc he
  · exact refl c

theorem flowEnd (y spacing : K) (p : Canvas K D × Option (K × K)) :
    OnPage R p.1 (flowEnd y spacing p) := by
  obtain ⟨c, _ | ⟨w, h⟩⟩ := p
  · exact refl c
  · unfold Canvas.flowEnd
    dsimp only
    split <;> split <;> exact pen ..

theorem flowImage (hR : Agreement R) (hc : Begun c) {path : String} {align : Option Align}
    {x y width height spacing : K}
    (he : (flowImageWith hook path align x y width height spacing c).error = none) :
    OnPage R c (flowImageWith hook path align x y width height spacing c) := by
  have hstart (he : (Canvas.flowStart hook path align width height c).1.error = none) :
      OnPage R c (Canvas.flowStart hook path align width height c).1 := flowStart hR hc he
  have hdraws := flowStart_draws hook path align width height c
  rw [flowImageWith_eq] at he ⊢
  generalize Canvas.flowStart hook path align width height c = start at *
  obtain ⟨d, _ | ⟨w, h⟩⟩ := start
  · exact hstart he
  · dsimp only at he hstart hdraws ⊢
    have himage := (flowEnd_draws hook _ spacing _).error_eq_none he
    have hd : d.error = none := (imageWith_prints hook ..).error_eq_none himage
    have hbegun : Begun d := hc.of_draws hdraws hd
    exact ((hstart hd).trans (image hR hbegun himage)).trans (flowEnd ..)

end OnPage

/-! ## Steps -/

theorem setFont_eq (family style : String) (size : K) (c : Canvas K D) :
    ∃ warnings, c.setFont family style size =
      { c with graphics := c.restyled c.graphics (.setFont family style size), warnings } := by
  obtain ⟨⟨key, warning⟩, hchoice⟩ : ∃ choice, c.chooseFont family style = choice := ⟨_, rfl⟩
  simp only [setFont, restyled, hchoice]
  cases warning with
  | none => exact ⟨c.warnings, rfl⟩
  | some w => exact ⟨c.warnings.push w, rfl⟩

/-- A step of the body flows from page to page in the graphics state that it finds, or it changes
the state and draws nothing. -/
theorem step_flows (hR : Agreement R) (hc : Begun c) {s : Step K} (hs : s.InFlow)
    (he : (c.step s).error = none) :
    Flows R c (c.step s) ∧ c.restyled c.graphics s = c.graphics ∨
      ∃ warnings, c.step s =
        { c with graphics := c.restyled c.graphics s, warnings } := by
  cases s with
  | setMargins | setAutoBreak | setInfo | decorate | undecorate | registerFont | close =>
      exact (hs.resolve_right nofun).elim
  | setFont family style size => exact .inr (setFont_eq family style size c)
  | setTextColor | setFillColor | setDrawColor | setLineWidth => exact .inr ⟨c.warnings, rfl⟩
  | setX | setY | lineFeed | warn => exact .inl ⟨.of_onPage (.pen c _ _ _ _), rfl⟩
  | addPage => exact .inl ⟨.page .refl, rfl⟩
  | cell cell => exact .inl ⟨.cell hR hc cell, rfl⟩
  | multiCell cell => exact .inl ⟨.multiCell hR hc cell, rfl⟩
  | line => exact .inl ⟨.of_onPage (.line hR hc _ _ _ _), rfl⟩
  | rect => exact .inl ⟨.of_onPage (.rect hR hc _ _ _ _ _ _), rfl⟩
  | image => exact .inl ⟨.of_onPage (.image hR hc he), rfl⟩
  | imageExtent => exact .inl ⟨.of_onPage (.imageExtent hR hc he), rfl⟩
  | flowImage => exact .inl ⟨.of_onPage (.flowImage hR hc he), rfl⟩

end Canvas

end PagedReport
