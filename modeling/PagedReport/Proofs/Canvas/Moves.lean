import PagedReport.Proofs.Canvas.DrawnText

/-!
# What drawing can do

All that drawing does to a canvas is listed once, as a relation between the canvas before and after.
A step that draws is in this relation, and the calls it makes hold its text.  What is said of runs
is then proved by induction on the relation and not by going through the operations again.
-/

namespace PagedReport

variable {K D Output : Type}

namespace Canvas

theorem fail_error (e : CanvasError) (c : Canvas K D) : (c.fail e).error ≠ none := by
  unfold fail
  split
  · next he => rw [he]; nofun
  · nofun

variable [Scalar K] [Device K D Output]

/-- Drawing from one canvas to another.  The calls are those that are not part of starting a page; a
page is started only on behalf of the body, or if there is none. -/
inductive Draws (hook : Origin → Canvas K D → Canvas K D) (c : Canvas K D) :
    List (Call K) → Canvas K D → Prop
  | refl : Draws hook c [] c
  | pen {calls : List (Call K)} {d : Canvas K D} (x y lastHeight : K) (graphics : Graphics K)
      (warnings : Array Warning) : Draws hook c calls d →
      Draws hook c calls { d with x, y, lastHeight, graphics, warnings }
  | load {calls : List (Call K)} {d : Canvas K D} {path : String} {pixels : Nat × Nat}
      {device : D} : Draws hook c calls d → Device.imageSize path d.device = .ok (pixels, device) →
      Draws hook c calls { d with device }
  | mark {calls : List (Call K)} {d : Canvas K D} (m : Mark K) : Draws hook c calls d →
      Draws hook c (calls ++ [.mark m]) (d.put m)
  | image {calls : List (Call K)} {d : Canvas K D} {path : String} {place : Rect K} {device : D} :
      Draws hook c calls d → Device.image path place d.device = .ok device →
      Draws hook c (calls ++ [.image path place]) ({ d with device }.note (.image path place))
  | fail {calls : List (Call K)} {d : Canvas K D} (e : CanvasError) : Draws hook c calls d →
      Draws hook c calls (d.fail e)
  | page {calls : List (Call K)} {d : Canvas K D} : Draws hook c calls d →
      d.pageCount = 0 ∨ d.origin = .body → Draws hook c calls (addPageWith hook d)

variable {hook : Origin → Canvas K D → Canvas K D}

namespace Draws

theorem trans {calls calls' : List (Call K)} {c d e : Canvas K D} (h : Draws hook c calls d)
    (h' : Draws hook d calls' e) : Draws hook c (calls ++ calls') e := by
  induction h' with
  | refl => simpa using h
  | pen x y lastHeight graphics warnings _ ih => exact ih.pen x y lastHeight graphics warnings
  | load _ hload ih => exact ih.load hload
  | mark m _ ih => simpa using ih.mark m
  | image _ himage ih => simpa using ih.image himage
  | fail e _ ih => exact ih.fail e
  | page _ hpage ih => exact ih.page hpage

theorem error_eq_some {calls : List (Call K)} {c d : Canvas K D} (h : Draws hook c calls d)
    {e : CanvasError} (he : c.error = some e) : d.error = some e := by
  induction h with
  | refl => exact he
  | pen _ _ _ _ _ _ ih => exact ih
  | load _ _ ih => exact ih
  | mark _ _ ih => exact ih
  | image _ _ ih => exact ih
  | fail _ _ ih => rw [Canvas.fail, ih]; exact ih
  | page _ _ ih => rw [addPageWith, ih]; exact ih

theorem error_eq_none {calls : List (Call K)} {c d : Canvas K D} (h : Draws hook c calls d)
    (hd : d.error = none) : c.error = none := by
  cases hc : c.error with
  | none => rfl
  | some e => rw [h.error_eq_some hc] at hd; cases hd

theorem puts (c : Canvas K D) (ms : List (Mark K)) :
    Draws hook c (ms.map .mark) (c.puts ms) := by
  induction ms generalizing c with
  | nil => exact .refl
  | cons m ms ih => exact (Draws.refl.mark m).trans (ih (c.put m))

end Draws

/-! ## Drawing a text -/

/-- Drawing that puts down a text, spaces apart, unless it fails. -/
def Prints (hook : Origin → Canvas K D → Canvas K D) (c : Canvas K D) (text : List Char)
    (d : Canvas K D) : Prop :=
  ∃ calls : List (Call K), Draws hook c calls d ∧
    (d.error = none → unspaced (calls.flatMap Call.chars) = unspaced text)

namespace Prints

theorem of_draws {calls : List (Call K)} {c d : Canvas K D} (h : Draws hook c calls d)
    (hcalls : calls.flatMap Call.chars = []) : Prints hook c [] d :=
  ⟨calls, h, fun _ ↦ by rw [hcalls]⟩

theorem refl (c : Canvas K D) : Prints hook c [] c := of_draws .refl rfl

theorem trans {s t : List Char} {c d e : Canvas K D} (h : Prints hook c s d)
    (h' : Prints hook d t e) : Prints hook c (s ++ t) e := by
  obtain ⟨calls, hdraws, hchars⟩ := h
  obtain ⟨calls', hdraws', hchars'⟩ := h'
  refine ⟨calls ++ calls', hdraws.trans hdraws', fun he ↦ ?_⟩
  rw [List.flatMap_append, unspaced_append, unspaced_append, hchars (hdraws'.error_eq_none he),
    hchars' he]

theorem after {text : List Char} {c d e : Canvas K D} (h : Prints hook d text e)
    (hbefore : Draws hook c [] d) : Prints hook c text e := (of_draws hbefore rfl).trans h

theorem andThen {text : List Char} {c d e : Canvas K D} (h : Prints hook c text d)
    (hafter : Draws hook d [] e) : Prints hook c text e := by
  simpa using h.trans (of_draws hafter rfl)

/-- Nothing is said of the text if drawing fails. -/
theorem of_error {calls : List (Call K)} {c d : Canvas K D} (h : Draws hook c calls d)
    (hd : d.error ≠ none) (text : List Char) : Prints hook c text d :=
  ⟨calls, h, fun hnone ↦ absurd hnone hd⟩

theorem error_eq_none {text : List Char} {c d : Canvas K D} (h : Prints hook c text d)
    (hd : d.error = none) : c.error = none := by
  obtain ⟨calls, hdraws, -⟩ := h
  exact hdraws.error_eq_none hd

theorem pen {text : List Char} {c d : Canvas K D} (h : Prints hook c text d) (x y lastHeight : K)
    (graphics : Graphics K) (warnings : Array Warning) :
    Prints hook c text { d with x, y, lastHeight, graphics, warnings } := by
  obtain ⟨calls, hdraws, hchars⟩ := h
  exact ⟨calls, hdraws.pen x y lastHeight graphics warnings, hchars⟩

theorem of_puts {text : List Char} (c : Canvas K D) (ms : List (Mark K))
    (hms : unspaced (ms.flatMap Mark.chars) = unspaced text) : Prints hook c text (c.puts ms) := by
  refine ⟨ms.map .mark, .puts c ms, fun _ ↦ ?_⟩
  rw [List.flatMap_map, ← hms]
  rfl

end Prints

/-! ## Getting ready -/

variable (hook)

theorem prepareWith_draws (c : Canvas K D) : Draws hook c [] (prepareWith hook c).1 := by
  unfold prepareWith
  split
  · exact .refl
  · split
    · exact Draws.refl.fail .closed
    · dsimp only
      split
      · next hpages => exact Draws.refl.page (.inl hpages)
      · exact .refl

theorem prepareWith_possible (c : Canvas K D) (h : (prepareWith hook c).1.error = none) :
    (prepareWith hook c).2 = true := by
  unfold prepareWith at h ⊢
  split at h
  · simp_all
  · split at h
    · simp_all [fail]
    · simp_all

theorem prepareWith_error (c : Canvas K D) (h : (prepareWith hook c).2 = true) :
    (prepareWith hook c).1.error = none := by
  unfold prepareWith at h ⊢
  split at h
  · cases h
  · split at h
    · cases h
    · simp_all

theorem prints_prepare {text : List Char} (c : Canvas K D) (f : Canvas K D → Canvas K D)
    (hf : ∀ d, Prints hook d text (f d)) :
    Prints hook c text
      (if (prepareWith hook c).2 then f (prepareWith hook c).1 else (prepareWith hook c).1) := by
  have hprepare : Prints hook c [] (prepareWith hook c).1 :=
    .of_draws (prepareWith_draws hook c) rfl
  split
  · exact hprepare.trans (hf _)
  · next himpossible =>
      exact .of_error (prepareWith_draws hook c)
        (fun h ↦ himpossible (prepareWith_possible hook c h)) text

/-! ## Cells -/

theorem turnWith_draws (height : K) (c : Canvas K D) :
    Draws hook c [] (turnWith hook height c) := by
  unfold turnWith
  split
  · next hbreaks =>
      have hbody : c.origin = .body := by
        simp only [breaksPage, Bool.and_eq_true, decide_eq_true_eq] at hbreaks
        exact hbreaks.1.2
      exact (Draws.refl.page (.inr hbody)).pen c.x _ _ _ _
  · exact .refl

theorem advance_draws (cell : Cell K) (width : K) (c : Canvas K D) :
    Draws hook c [] (c.advance cell width) := by
  unfold advance
  dsimp only
  split <;> exact Draws.refl.pen ..

theorem drawCellWith_prints (cell : Cell K) (justify : Bool) (c : Canvas K D) :
    Prints hook c cell.text.toList (drawCellWith hook cell justify c) := by
  rw [drawCellWith_eq]
  have hturn : Draws hook c [] (turnWith hook cell.height c) := turnWith_draws hook cell.height c
  generalize turnWith hook cell.height c = d at hturn
  have hputs : Prints hook d cell.text.toList _ := .of_puts d _
    (unspaced_cellMarks cell justify (d.widthOf cell) d)
  exact (hputs.after hturn).andThen (advance_draws hook cell _ _)

theorem cellWith_prints (cell : Cell K) (c : Canvas K D) :
    Prints hook c cell.text.toList (cellWith hook cell c) :=
  prints_prepare hook c _ (drawCellWith_prints hook cell false)

theorem drawRows_prints (cell : Cell K) (width x : K) (first : Bool) (lines : List WrappedLine)
    (c : Canvas K D) :
    Prints hook c (lines.flatMap (·.text)) (drawRows hook cell width x first lines c) := by
  induction lines generalizing first c with
  | nil => exact .refl c
  | cons line lines ih =>
      have hmove : Draws hook c [] { c with x } := Draws.refl.pen x _ _ _ _
      have hrow := drawCellWith_prints hook
        { cell with
          width
          text := String.ofList line.text
          border := cell.border.ofLine first lines.isEmpty
          advance := .below }
        (cell.align = .justify && !line.hardBreak) { c with x }
      rw [String.toList_ofList] at hrow
      exact (hrow.after hmove).trans (ih false _)

theorem multiCellWith_prints (cell : Cell K) (c : Canvas K D) :
    Prints hook c (Wrap.unbroken cell.text.toList) (multiCellWith hook cell c) := by
  let rows (d : Canvas K D) : List WrappedLine :=
    Wrap.lines (d.widthOf cell - 2 * d.cellMargin) (fun cs ↦ d.stringWidth (String.ofList cs))
      cell.text.toList
  let filled (d : Canvas K D) : Canvas K D :=
    drawRows hook cell (d.widthOf cell) d.x true (rows d) d
  refine prints_prepare hook c (fun d ↦ { filled d with x := (filled d).margins.left }) fun d ↦ ?_
  obtain ⟨calls, hdraws, hchars⟩ := drawRows_prints hook cell (d.widthOf cell) d.x true (rows d) d
  rw [Wrap.unspaced_lines] at hchars
  exact Prints.pen ⟨calls, hdraws, hchars⟩ _ _ _ _ _

/-! ## Shapes -/

theorem lineWith_prints (x₁ y₁ x₂ y₂ : K) (c : Canvas K D) :
    Prints hook c [] (lineWith hook x₁ y₁ x₂ y₂ c) :=
  prints_prepare hook c _ fun _ ↦ .of_draws (Draws.refl.mark _) rfl

theorem rectWith_prints (x y width height radius : K) (painting : Painting) (c : Canvas K D) :
    Prints hook c [] (rectWith hook x y width height radius painting c) :=
  prints_prepare hook c _ fun _ ↦ .of_draws (Draws.refl.mark _) rfl

/-! ## Images -/

/-- Measuring an image on a canvas that is ready. -/
def measure (path : String) (width height : K) (c : Canvas K D) : Canvas K D × Option (K × K) :=
  match Device.imageSize path c.device with
  | .error e => (c.fail e, none)
  | .ok (pixels, device) =>
    let c := { c with device }
    if pixels.1 = 0 ∨ pixels.2 = 0 then (c.fail (.image path .noPixels), none)
    else (c, some (c.extentOf pixels width height))

theorem imageExtentWith_eq (path : String) (width height : K) (c : Canvas K D) :
    imageExtentWith hook path width height c =
      if (prepareWith hook c).2 then measure path width height (prepareWith hook c).1
      else ((prepareWith hook c).1, none) := rfl

/-- Placing an image that was measured. -/
def place (path : String) (x y : K) :
    Canvas K D × Option (K × K) → Canvas K D × Option (K × K)
  | (c, none) => (c, none)
  | (c, some (w, h)) =>
      let place := c.inPoints x y w h
      match Device.image path place c.device with
      | .error e => (c.fail e, none)
      | .ok device => ({ c with device }.note (.image path place), some (w, h))

theorem imageWith_eq (path : String) (x y width height : K) (c : Canvas K D) :
    imageWith hook path x y width height c =
      place path x y (imageExtentWith hook path width height c) := rfl

theorem imageExtentWith_draws (path : String) (width height : K) (c : Canvas K D) :
    Draws hook c [] (imageExtentWith hook path width height c).1 := by
  have hprepare := prepareWith_draws hook c
  unfold imageExtentWith
  dsimp only
  split
  · split
    · exact hprepare.fail _
    · next hload =>
        split
        · exact (hprepare.load hload).fail _
        · exact hprepare.load hload
  · exact hprepare

theorem imageWith_prints (path : String) (x y width height : K) (c : Canvas K D) :
    Prints hook c [] (imageWith hook path x y width height c).1 := by
  have hextent := imageExtentWith_draws hook path width height c
  unfold imageWith
  split
  · next heq => exact .of_draws (heq ▸ hextent) rfl
  · next heq =>
      rw [heq] at hextent
      dsimp only
      split
      · exact .of_draws (hextent.fail _) rfl
      · next himage => exact .of_draws (hextent.image himage) rfl

theorem imageExtentWith_ok {path : String} {width height : K} {c : Canvas K D}
    (he : (imageExtentWith hook path width height c).1.error = none) :
    (prepareWith hook c).1.error = none ∧ ∃ pixels device,
      Device.imageSize path (prepareWith hook c).1.device = .ok (pixels, device) ∧
      imageExtentWith hook path width height c =
        ({ (prepareWith hook c).1 with device },
          some ((prepareWith hook c).1.extentOf pixels width height)) := by
  unfold imageExtentWith at he ⊢
  dsimp only at he ⊢
  split at he
  · next hpossible =>
      split at he
      · exact absurd he (fail_error _ _)
      · next pixels device hload =>
          split at he
          · exact absurd he (fail_error _ _)
          · next hpixels =>
              refine ⟨prepareWith_error hook c hpossible, pixels, device, hload, ?_⟩
              rw [if_pos hpossible]
              exact if_neg hpixels
  · next hpossible => exact absurd (prepareWith_possible hook c he) hpossible

theorem imageWith_ok {path : String} {x y width height : K} {c : Canvas K D}
    (he : (imageWith hook path x y width height c).1.error = none) :
    ∃ d extent device, d.error = none ∧
      imageExtentWith hook path width height c = (d, some extent) ∧
      Device.image path (d.inPoints x y extent.1 extent.2) d.device = .ok device ∧
      imageWith hook path x y width height c =
        ({ d with device }.note (.image path (d.inPoints x y extent.1 extent.2)), some extent) := by
  have hextent (he : (imageExtentWith hook path width height c).1.error = none) :=
    imageExtentWith_ok hook he
  unfold imageWith at he ⊢
  split at he
  · next d heq =>
      rw [heq] at hextent
      obtain ⟨-, pixels, device, -, hsome⟩ := hextent he
      cases hsome
  · next d w h heq =>
      dsimp only at he
      split at he
      · exact absurd he (fail_error _ _)
      · next device himage => exact ⟨d, (w, h), device, he, heq, himage, by dsimp only; rw [himage]⟩

theorem setY_draws (y : K) (c : Canvas K D) : Draws hook c [] (c.setY y) := Draws.refl.pen ..

theorem lineFeed_draws (height : Option K) (c : Canvas K D) : Draws hook c [] (c.lineFeed height) :=
  Draws.refl.pen ..

/-- What an image of the flow is placed on: an aligned one needs its width before. -/
def flowStart (path : String) (align : Option Align) (width height : K) (c : Canvas K D) :
    Canvas K D × Option (K × K) :=
  if align = some .center || align = some .right then imageExtentWith hook path width height c
  else (c, some (width, height))

def flowEnd (y spacing : K) : Canvas K D × Option (K × K) → Canvas K D
  | (c, none) => c
  | (c, some (_, h)) =>
      let c := if 0 < h then c.setY (y + h) else c
      if 0 < spacing then c.lineFeed (some spacing) else c

theorem flowImageWith_eq (path : String) (align : Option Align) (x y width height spacing : K)
    (c : Canvas K D) : flowImageWith hook path align x y width height spacing c =
      match flowStart hook path align width height c with
      | (c, none) => c
      | (c, some (w, _)) =>
          let y := if y == 0 then c.y else y
          flowEnd y spacing (imageWith hook path (c.flowX align x w) y width height c) := by
  unfold flowImageWith flowStart
  dsimp only
  generalize (if align = some .center || align = some .right then
    imageExtentWith hook path width height c else (c, some (width, height))) = start
  obtain ⟨d, _ | ⟨w, h⟩⟩ := start
  · rfl
  · dsimp only
    generalize imageWith hook path _ _ width height d = drawn
    obtain ⟨e, _ | ⟨w', h'⟩⟩ := drawn <;> rfl

theorem flowStart_draws (path : String) (align : Option Align) (width height : K)
    (c : Canvas K D) : Draws hook c [] (flowStart hook path align width height c).1 := by
  unfold flowStart
  split
  · exact imageExtentWith_draws hook path width height c
  · exact .refl

theorem flowEnd_draws (y spacing : K) (p : Canvas K D × Option (K × K)) :
    Draws hook p.1 [] (flowEnd y spacing p) := by
  obtain ⟨c, _ | ⟨w, h⟩⟩ := p
  · exact .refl
  · have hbelow : Draws hook c [] (if 0 < h then c.setY (y + h) else c) := by
      split
      · exact setY_draws hook _ c
      · exact .refl
    unfold flowEnd
    dsimp only
    split
    · exact hbelow.trans (lineFeed_draws hook _ _)
    · exact hbelow

theorem flowImageWith_prints (path : String) (align : Option Align)
    (x y width height spacing : K) (c : Canvas K D) :
    Prints hook c [] (flowImageWith hook path align x y width height spacing c) := by
  have hstart := flowStart_draws hook path align width height c
  rw [flowImageWith_eq]
  split
  · next heq => exact .of_draws (heq ▸ hstart) rfl
  · next heq =>
      rw [heq] at hstart
      exact ((imageWith_prints hook path _ _ width height _).after hstart).andThen
        (flowEnd_draws hook _ spacing _)

/-! ## Steps -/

theorem setFont_draws (family style : String) (size : K) (c : Canvas K D) :
    Draws hook c [] (c.setFont family style size) := by
  unfold setFont
  dsimp only
  split
  · exact Draws.refl.pen _ _ _ _ (c.warnings.push _)
  · exact Draws.refl.pen _ _ _ _ c.warnings

end Canvas

/-- A step that draws.  The others set the canvas up, start a page or end the document. -/
def Step.Plain : Step K → Prop
  | .setMargins .. | .setAutoBreak .. | .setInfo _ | .decorate .. | .undecorate | .registerFont ..
  | .addPage | .close => False
  | _ => True

/-- A step that draws without loading an image. -/
def Step.Safe : Step K → Prop
  | .image .. | .imageExtent .. | .flowImage .. => False
  | s => s.Plain

theorem Step.Safe.plain {s : Step K} (hs : s.Safe) : s.Plain := by
  cases s with
  | image | imageExtent | flowImage => trivial
  | _ => exact hs

def Step.chars : Step K → List Char
  | .cell c => c.text.toList
  | .multiCell c => Wrap.unbroken c.text.toList
  | _ => []

namespace Canvas

variable [Scalar K] [Device K D Output] (hook : Origin → Canvas K D → Canvas K D)

theorem stepWith_prints {s : Step K} (hs : s.Plain) (c : Canvas K D) :
    Prints hook c s.chars (stepWith hook s c) := by
  cases s with
  | setMargins | setAutoBreak | setInfo | decorate | undecorate | registerFont | addPage | close =>
      exact hs.elim
  | setFont family style size => exact .of_draws (setFont_draws hook family style size c) rfl
  | setTextColor | setFillColor | setDrawColor | setLineWidth | setX | setY | lineFeed | warn =>
      exact .of_draws (Draws.refl.pen ..) rfl
  | cell cell => exact cellWith_prints hook cell c
  | multiCell cell => exact multiCellWith_prints hook cell c
  | line => exact lineWith_prints hook _ _ _ _ c
  | rect => exact rectWith_prints hook _ _ _ _ _ _ c
  | image => exact imageWith_prints hook _ _ _ _ _ c
  | imageExtent => exact .of_draws (imageExtentWith_draws hook _ _ _ c) rfl
  | flowImage => exact flowImageWith_prints hook _ _ _ _ _ _ _ c

theorem foldl_prints {steps : List (Step K)} (hsteps : ∀ s ∈ steps, s.Plain) (c : Canvas K D) :
    Prints hook c (steps.flatMap Step.chars) (steps.foldl (fun c s ↦ stepWith hook s c) c) := by
  induction steps generalizing c with
  | nil => exact .refl c
  | cons s steps ih =>
      have hs := stepWith_prints hook (hsteps s List.mem_cons_self) c
      exact hs.trans (ih (fun t ht ↦ hsteps t (List.mem_cons_of_mem s ht)) _)

end Canvas

end PagedReport
