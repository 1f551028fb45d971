import PagedReport.Proofs.Canvas.Flows

/-!
# The cursor in the flow

No step of the flow changes the sheet it is drawn on, that is the margins and the height at which
pages end.  So it can be read off the steps alone whether they leave the cursor at the left margin,
also where pages are started on the way.
-/

namespace PagedReport

open Canvas

variable {K D Output : Type}

/-- What the pages of a document offer to the cursor. -/
structure Sheet (K : Type) where
  pageSize : Size K
  margins : Margins K
  /-- A cell that would reach below this height starts a page. -/
  trigger : K

/-- Whether the cursor is at the left margin after a step, if it is known whether it was before. -/
def Step.atLeft (before : Bool) : Step K → Bool
  | .setY _ | .lineFeed _ | .addPage | .multiCell _ => true
  | .cell c =>
    match c.advance with
    | .right => false
    | .nextLine => true
    | .below => before
  | .setX _ | .setMargins .. => false
  | _ => before

namespace Canvas

/-! ## Steps that return -/

/-- Steps after which the cursor is at the left margin, if it is there before. -/
def Returns (steps : List (Step K)) : Prop := steps.foldl Step.atLeft true = true

namespace Returns

variable {steps steps' : List (Step K)}

theorem of_forall (h : ∀ s ∈ steps, s.atLeft true = true) : Returns steps := by
  induction steps with
  | nil => rfl
  | cons s steps ih =>
      obtain ⟨hs, hrest⟩ := List.forall_mem_cons.mp h
      rw [Returns, List.foldl_cons, hs]
      exact ih hrest

theorem append (h : Returns steps) (h' : Returns steps') : Returns (steps ++ steps') := by
  rw [Returns, List.foldl_append, h]
  exact h'

theorem concat {s : Step K} (hs : ∀ before, s.atLeft before = true) (steps : List (Step K)) :
    Returns (steps ++ [s]) := by
  rw [Returns, List.foldl_append]
  exact hs _

theorem flatten {parts : List (List (Step K))} (h : ∀ part ∈ parts, Returns part) :
    Returns parts.flatten := by
  induction parts with
  | nil => rfl
  | cons part parts ih =>
      obtain ⟨hpart, hrest⟩ := List.forall_mem_cons.mp h
      exact hpart.append (ih hrest)

end Returns

/-! ## Flowing from page to page -/

def sheet (c : Canvas K D) : Sheet K := ⟨c.pageSize, c.margins, c.trigger⟩

theorem run_append [Scalar K] [Device K D Output] (steps steps' : List (Step K))
    (c : Canvas K D) : c.run (steps ++ steps') = (c.run steps).run steps' := List.foldl_append

/-- The canvas that a cell is put down on, with a page that has room for it. -/
def landing [Scalar K] [Device K D Output] (cell : Cell K) (c : Canvas K D) : Canvas K D :=
  turnWith hook cell.height (prepareWith hook c).1

/-- A canvas with a page that is begun and that ends at the bottom margin of a sheet. -/
structure Flowing (sh : Sheet K) (c : Canvas K D) : Prop extends Begun c where
  breaks : c.autoBreak = true
  sheet : c.sheet = sh

namespace Flowing

variable {sh : Sheet K} {c d : Canvas K D}

theorem margins (hc : Flowing sh c) : c.margins = sh.margins := congrArg Sheet.margins hc.sheet

variable [Scalar K] [Device K D Output]

theorem of_draws (hc : Flowing sh c) {calls : List (Call K)} (h : Draws hook c calls d)
    (hd : d.error = none) : Flowing sh d where
  toBegun := hc.toBegun.of_draws h hd
  breaks := (congrArg Frame.autoBreak (h.frame_eq hc.sound)).trans hc.breaks
  sheet := by
    have hsheet : d.sheet = c.sheet := congrArg
      (fun f : Frame K ↦ (⟨f.pageSize, f.margins, f.trigger⟩ : Sheet K)) (h.frame_eq hc.sound)
    exact hsheet.trans hc.sheet

theorem step (hc : Flowing sh c) {s : Step K} (hs : s.InFlow) (he : (c.step s).error = none) :
    Flowing sh (c.step s) := by
  obtain ⟨calls, hdraws, -⟩ := step_prints hs hc.sound
  exact hc.of_draws hdraws he

theorem run (hc : Flowing sh c) {steps : List (Step K)} (hsteps : ∀ s ∈ steps, s.InFlow)
    (he : (c.run steps).error = none) : Flowing sh (c.run steps) := by
  obtain ⟨calls, hdraws, -⟩ := run_prints hsteps hc.sound
  exact hc.of_draws hdraws he

/-- What flows to the end flows up to any point before. -/
theorem run_first (hc : Flowing sh c) {steps steps' : List (Step K)}
    (hall : ∀ s ∈ steps ++ steps', s.InFlow) (he : (c.run (steps ++ steps')).error = none) :
    Flowing sh (c.run steps) := by
  have hfirst : ∀ s ∈ steps, s.InFlow := fun s hs ↦ hall s (List.mem_append_left _ hs)
  have hrest : ∀ s ∈ steps', s.InFlow := fun s hs ↦ hall s (List.mem_append_right _ hs)
  obtain ⟨calls, hdraws, -⟩ := run_prints hfirst hc.sound
  rw [run_append] at he
  exact hc.run hfirst ((run_prints hrest (hdraws.sound hc.sound)).error_eq_none he)

theorem step_first (hc : Flowing sh c) {s : Step K} {steps : List (Step K)}
    (hall : ∀ t ∈ s :: steps, t.InFlow) (he : (c.run (s :: steps)).error = none) :
    Flowing sh (c.step s) := by
  have hall : ∀ t ∈ [s] ++ steps, t.InFlow := hall
  exact hc.run_first hall he

theorem landing_eq (hc : Flowing sh c) (cell : Cell K) :
    c.landing cell = turnWith hook cell.height c := by
  rw [landing, hc.prepareWith]

theorem landing_x (hc : Flowing sh c) (cell : Cell K) : (c.landing cell).x = c.x := by
  rw [hc.landing_eq]
  unfold turnWith
  split <;> rfl

theorem step_cell (hc : Flowing sh c) (cell : Cell K) :
    c.step (.cell cell) =
      ((c.landing cell).puts ((c.landing cell).cellMarks cell false
        ((c.landing cell).widthOf cell))).advance cell ((c.landing cell).widthOf cell) := by
  have heq : c.step (.cell cell) = drawCellWith hook cell false c := by
    simp [Canvas.step, stepWith, cellWith, hc.prepareWith]
  rw [heq, drawCellWith_eq, hc.landing_eq]

theorem imageExtent_x (hc : Flowing sh c) {path : String} {width height : K}
    (he : (imageExtentWith hook path width height c).1.error = none) :
    (imageExtentWith hook path width height c).1.x = c.x := by
  obtain ⟨-, pixels, device, -, heq⟩ := imageExtentWith_ok hook he
  rw [heq, hc.prepareWith]

theorem image_x (hc : Flowing sh c) {path : String} {x y width height : K}
    (he : (imageWith hook path x y width height c).1.error = none) :
    (imageWith hook path x y width height c).1.x = c.x := by
  obtain ⟨d, extent, device, hd, hextent, -, heq⟩ := imageWith_ok hook he
  have hmeasured : (imageExtentWith hook path width height c).1.x = c.x :=
    hc.imageExtent_x (by rw [hextent]; exact hd)
  rw [hextent] at hmeasured
  rw [heq]
  exact hmeasured

/-- An image of the flow is put beside the cursor, which then goes to the left margin if it
moves. -/
theorem flowImage_x (hc : Flowing sh c) {path : String} {align : Option Align}
    {x y width height spacing : K}
    (he : (flowImageWith hook path align x y width height spacing c).error = none) :
    (flowImageWith hook path align x y width height spacing c).x = c.x ∨
      (flowImageWith hook path align x y width height spacing c).x =
        (flowImageWith hook path align x y width height spacing c).margins.left := by
  have hstart (he : (flowStart hook path align width height c).1.error = none) :
      (flowStart hook path align width height c).1.x = c.x := by
    unfold flowStart at he ⊢
    split
    · next haligned =>
        rw [if_pos haligned] at he
        exact hc.imageExtent_x he
    · rfl
  have hdraws := flowStart_draws hook path align width height c
  rw [flowImageWith_eq] at he ⊢
  generalize flowStart hook path align width height c = start at *
  obtain ⟨d, _ | ⟨w, h⟩⟩ := start
  · exact .inl (hstart he)
  · dsimp only at he hstart hdraws ⊢
    have himage := (flowEnd_draws hook _ spacing _).error_eq_none he
    have hd : d.error = none := (imageWith_prints hook ..).error_eq_none himage
    have hx := ((hc.of_draws hdraws hd).image_x himage).trans (hstart hd)
    generalize imageWith hook path (d.flowX align x w) _ width height d = drawn at hx
    obtain ⟨e, _ | ⟨w', h'⟩⟩ := drawn
    · exact .inl hx
    · unfold flowEnd
      dsimp only
      split <;> split
      · exact .inr rfl
      · exact .inr rfl
      · exact .inr rfl
      · exact .inl hx

/-! ## The left margin -/

theorem step_left (hc : Flowing sh c) {s : Step K} (hs : s.InFlow) (he : (c.step s).error = none)
    {before : Bool} (hx : before = true → c.x = sh.margins.left)
    (hafter : s.atLeft before = true) : (c.step s).x = sh.margins.left := by
  -- the margins are those of the sheet before and after the step
  have hreturned (h : (c.step s).x = (c.step s).margins.left) : (c.step s).x = sh.margins.left := by
    rw [h, (hc.step hs he).margins]
  cases s with
  | setMargins | setAutoBreak | setInfo | decorate | undecorate | registerFont | close =>
      exact (hs.resolve_right nofun).elim
  | setFont family style size =>
      obtain ⟨warnings, heq⟩ := setFont_eq family style size c
      exact (congrArg Canvas.x heq).trans (hx hafter)
  | setTextColor | setFillColor | setDrawColor | setLineWidth | warn => exact hx hafter
  | setX => cases hafter
  | setY | lineFeed => exact hreturned rfl
  | addPage =>
      rw [← hc.margins]
      exact (addPage_home hc.sound hc.error).1
  | cell cell =>
      have hlanding := hc.landing_x cell
      rw [hc.step_cell] at hreturned ⊢
      unfold advance at hreturned ⊢
      cases hadvance : cell.advance with
      | right => simp [Step.atLeft, hadvance] at hafter
      | nextLine =>
          simp only [hadvance, forall_const] at hreturned ⊢
          exact hreturned
      | below =>
          simp only [Step.atLeft, hadvance] at hafter
          simp only [puts_eq, hlanding, hx hafter]
  | multiCell cell =>
      refine hreturned ?_
      simp only [Canvas.step, stepWith, multiCellWith, hc.prepareWith, if_true]
  | line =>
      simp only [Canvas.step, stepWith, lineWith, hc.prepareWith]
      exact hx hafter
  | rect =>
      simp only [Canvas.step, stepWith, rectWith, hc.prepareWith]
      exact hx hafter
  | image => exact (hc.image_x he).trans (hx hafter)
  | imageExtent => exact (hc.imageExtent_x he).trans (hx hafter)
  | flowImage =>
      rcases hc.flowImage_x he with h | h
      · exact h.trans (hx hafter)
      · exact hreturned h

/-- On the way the cursor may be anywhere; it is tracked whether it is known to be at the left. -/
theorem run_left (hc : Flowing sh c) {steps : List (Step K)} (hsteps : ∀ s ∈ steps, s.InFlow)
    (he : (c.run steps).error = none) {before : Bool} (hx : before = true → c.x = sh.margins.left)
    (hafter : steps.foldl Step.atLeft before = true) : (c.run steps).x = sh.margins.left := by
  induction steps generalizing c before with
  | nil => exact hx hafter
  | cons s steps ih =>
      have hstep : Flowing sh (c.step s) := hc.step_first hsteps he
      obtain ⟨hs, hrest⟩ := List.forall_mem_cons.mp hsteps
      exact ih hstep hrest he (hc.step_left hs hstep.error hx) hafter

theorem run_returns (hc : Flowing sh c) {steps : List (Step K)} (hsteps : ∀ s ∈ steps, s.InFlow)
    (he : (c.run steps).error = none) (hx : c.x = sh.margins.left) (hreturns : Returns steps) :
    (c.run steps).x = sh.margins.left := hc.run_left hsteps he (fun _ ↦ hx) hreturns

end Flowing

end Canvas

end PagedReport
