import PagedReport.Proofs.Canvas.Cursor

/-!
# Cells in rows

Cells of one height that stand side by side need a new page for the first of them at most, so they
are put down in a row.  A new page keeps the place of the cursor across, and every row ends at the
left margin below it.  So rows that begin alike stand one below the other, from page to page.
-/

namespace PagedReport

open Canvas

variable {K D Output : Type}

/-- A cell that is put down; pages are counted from one. -/
structure PlacedCell (K : Type) where
  cell : Cell K
  page : Nat
  x : K
  y : K
  width : K

/-- Cells that stand on one page, at one height. -/
structure Row (K : Type) where
  page : Nat
  y : K
  cells : List (PlacedCell K)
  level : ∀ p ∈ cells, p.page = page ∧ p.y = y

namespace Row

def contents (r : Row K) : List (Cell K) := r.cells.map (·.cell)

/-- Where the cells begin across the page and how wide they are. -/
def columns (r : Row K) : List (K × K) := r.cells.map fun p ↦ (p.x, p.width)

end Row

/-! ## Rows on a sheet -/

namespace Sheet

variable [Scalar K]

/-- How wide a cell is at `x`: a width of zero reaches to the right margin. -/
def widthAt (sh : Sheet K) (x width : K) : K :=
  if width == 0 then sh.pageSize.width - sh.margins.right - x else width

/-- Columns of given widths side by side from `x` on. -/
def columns (sh : Sheet K) : K → List K → List (K × K)
  | _, [] => []
  | x, width :: widths =>
      (x, sh.widthAt x width) :: sh.columns (x + sh.widthAt x width) widths

/-- Cells side by side from `x` on. -/
def sideBySide (sh : Sheet K) (page : Nat) (y : K) : K → List (Cell K) → List (PlacedCell K)
  | _, [] => []
  | x, cell :: cells =>
      let width := sh.widthAt x cell.width
      ⟨cell, page, x, y, width⟩ :: sh.sideBySide page y (x + width) cells

variable {sh : Sheet K} {height x y : K} {page : Nat} {cells : List (Cell K)}

theorem sideBySide_level : ∀ p ∈ sh.sideBySide page y x cells, p.page = page ∧ p.y = y := by
  induction cells generalizing x with
  | nil => exact fun _ hp ↦ absurd hp List.not_mem_nil
  | cons cell cells ih => exact List.forall_mem_cons.mpr ⟨⟨rfl, rfl⟩, ih⟩

/-- Where a row of a height is drawn that would begin at `y` on a page. -/
def place (sh : Sheet K) (height : K) (page : Nat) (y : K) : Nat × K :=
  if sh.trigger < y + height then (page + 1, sh.margins.top) else (page, y)

/-- Where rows begin: at the left margin, or where the cursor is set to. -/
def start (sh : Sheet K) : Option K → K
  | none => sh.margins.left
  | some x => if 0 ≤ x then x else sh.pageSize.width + x

/-- There is room at the top of a page, so there is room where a row is drawn. -/
theorem place_fits (hfits : ¬ sh.trigger < sh.margins.top + height) :
    ¬ sh.trigger < (sh.place height page y).2 + height := by
  unfold place
  split
  · exact hfits
  · next h => exact h

/-- A row of cells from `x` on. -/
def row (sh : Sheet K) (page : Nat) (y x : K) (cells : List (Cell K)) : Row K :=
  ⟨page, y, sh.sideBySide page y x cells, sideBySide_level⟩

/-- Rows of one height, each from `x` on, the first at `y` on a page if there is room for it. -/
def rows (sh : Sheet K) (height x : K) : Nat → K → List (List (Cell K)) → List (Row K)
  | _, _, [] => []
  | page, y, cells :: rest =>
      let place := sh.place height page y
      sh.row place.1 place.2 x cells :: sh.rows height x place.1 (place.2 + height) rest

theorem row_contents (x : K) (cells : List (Cell K)) :
    (sh.row page y x cells).contents = cells := by
  induction cells generalizing x with
  | nil => rfl
  | cons cell cells ih => exact congrArg (cell :: ·) (ih _)

theorem row_columns (x : K) (cells : List (Cell K)) :
    (sh.row page y x cells).columns = sh.columns x (cells.map (·.width)) := by
  induction cells generalizing x with
  | nil => rfl
  | cons cell cells ih => exact congrArg ((x, sh.widthAt x cell.width) :: ·) (ih _)

theorem rows_contents (contents : List (List (Cell K))) :
    (sh.rows height x page y contents).map Row.contents = contents := by
  induction contents generalizing page y with
  | nil => rfl
  | cons cells contents ih => rw [rows, List.map_cons, row_contents, ih]

theorem columns_of_mem_rows {contents : List (List (Cell K))} {r : Row K}
    (hr : r ∈ sh.rows height x page y contents) :
    r.columns = sh.columns x (r.contents.map (·.width)) := by
  induction contents generalizing page y with
  | nil => cases hr
  | cons cells contents ih =>
      rcases List.mem_cons.mp hr with rfl | hr
      · rw [row_columns, row_contents]
      · exact ih hr

/-- Every row is below the one before it, or at the top of the next page if it does not fit. -/
theorem rows_isChain (contents : List (List (Cell K))) :
    (sh.rows height x page y contents).IsChain fun r s ↦
      (s.page, s.y) = sh.place height r.page (r.y + height) := by
  induction contents generalizing page y with
  | nil => exact .nil
  | cons cells contents ih =>
      cases contents with
      | nil => exact .singleton _
      | cons cells' contents => exact .cons_cons rfl ih

end Sheet

/-! ## Where cells are put down -/

namespace Step

def cell? : Step K → Option (Cell K)
  | .cell c => some c
  | _ => none

/-- A step that neither draws nor moves the cursor. -/
def Still : Step K → Prop
  | .setFont .. | .setTextColor _ | .setFillColor _ | .setDrawColor _ | .setLineWidth _
  | .warn _ => True
  | _ => False

theorem Still.inFlow {s : Step K} (hs : s.Still) : s.InFlow := by
  cases s with
  | setFont | setTextColor | setFillColor | setDrawColor | setLineWidth | warn => exact .inl trivial
  | _ => exact hs.elim

theorem Still.atLeft_eq {s : Step K} (hs : s.Still) (before : Bool) :
    s.atLeft before = before := by
  cases s with
  | setFont | setTextColor | setFillColor | setDrawColor | setLineWidth | warn => rfl
  | _ => exact hs.elim

theorem Still.cell?_eq {s : Step K} (hs : s.Still) : s.cell? = none := by
  cases s with
  | cell => exact hs.elim
  | _ => rfl

end Step

namespace Canvas

/-- The cells of steps. -/
def cellsOf (steps : List (Step K)) : List (Cell K) := steps.filterMap Step.cell?

/-- The cells of each part that has any. -/
def rowsOf (parts : List (List (Step K))) : List (List (Cell K)) :=
  (parts.map cellsOf).filter fun cells ↦ !cells.isEmpty

theorem cells_inFlow (cells : List (Cell K)) : ∀ s ∈ cells.map Step.cell, s.InFlow := by
  intro s hs
  obtain ⟨_, -, rfl⟩ := List.mem_map.mp hs
  exact .inl trivial

/-- What brings the cursor to the left margin below a row. -/
def lineEnd : Advance → List (Step K)
  | .right => [.lineFeed none]
  | .nextLine | .below => []

/-- Pens, the place to begin at, cells, and on to the next line. -/
def rowSteps (indent : Option K) (pens : List (Step K)) (cells : List (Cell K)) (last : Cell K) :
    List (Step K) :=
  (pens ++ (indent.map .setX).toList) ++ ((cells ++ [last]).map .cell ++ lineEnd last.advance)

/-- Steps that draw one row of a height, or none. -/
inductive RowPart (height : K) (indent : Option K) : List (Step K) → Prop
  | idle {pens : List (Step K)} : (∀ s ∈ pens, s.Still) → RowPart height indent pens
  | row {pens : List (Step K)} {cells : List (Cell K)} {last : Cell K} :
      (∀ s ∈ pens, s.Still) → (∀ cell ∈ cells, cell.height = height ∧ cell.advance = .right) →
      last.height = height → last.advance ≠ .below →
      RowPart height indent (rowSteps indent pens cells last)

namespace RowPart

variable {height : K} {indent : Option K} {steps : List (Step K)}

theorem inFlow (h : RowPart height indent steps) : ∀ s ∈ steps, s.InFlow := by
  cases h with
  | idle hpens => exact fun s hs ↦ (hpens s hs).inFlow
  | @row pens cells last hpens _ _ _ =>
      intro s hs
      simp only [rowSteps, List.mem_append] at hs
      rcases hs with (hs | hs) | hs | hs
      · exact (hpens s hs).inFlow
      · obtain ⟨x, -, rfl⟩ := Option.map_eq_some_iff.mp (Option.mem_toList.mp hs)
        exact .inl trivial
      · exact cells_inFlow _ s hs
      · cases hadvance : last.advance with
        | right =>
            rw [hadvance] at hs
            rw [List.mem_singleton.mp hs]
            exact .inl trivial
        | nextLine | below =>
            rw [hadvance] at hs
            cases hs

theorem cellsOf_still (hsteps : ∀ s ∈ steps, s.Still) : cellsOf steps = [] :=
  List.filterMap_eq_nil_iff.mpr fun s hs ↦ (hsteps s hs).cell?_eq

theorem cell?_lineEnd (advance : Advance) : ∀ s ∈ lineEnd (K := K) advance, s.cell? = none := by
  cases advance <;> simp [lineEnd, Step.cell?]

theorem cell?_pens {pens : List (Step K)} (hpens : ∀ s ∈ pens, s.Still) (indent : Option K) :
    ∀ s ∈ pens ++ (indent.map Step.setX).toList, s.cell? = none := by
  intro s hs
  rcases List.mem_append.mp hs with hs | hs
  · exact (hpens s hs).cell?_eq
  · obtain ⟨x, -, rfl⟩ := Option.map_eq_some_iff.mp (Option.mem_toList.mp hs)
    rfl

theorem cellsOf_rowSteps {pens : List (Step K)} (hpens : ∀ s ∈ pens, s.Still)
    (cells : List (Cell K)) (last : Cell K) :
    cellsOf (rowSteps indent pens cells last) = cells ++ [last] := by
  have hcells : ((cells ++ [last]).map Step.cell).filterMap Step.cell? = cells ++ [last] := by
    rw [List.filterMap_map]
    exact List.filterMap_some
  have hpens := List.filterMap_eq_nil_iff.mpr (cell?_pens hpens indent)
  have hend := List.filterMap_eq_nil_iff.mpr (cell?_lineEnd (K := K) last.advance)
  rw [cellsOf, rowSteps, List.filterMap_append, hpens, List.filterMap_append, hcells, hend,
    List.nil_append, List.append_nil]

/-- A row of cells that all go on to the right. -/
theorem of_cells {α : Type} {pens : List (Step K)} (hpens : ∀ s ∈ pens, s.Still) (f : α → Cell K)
    (hf : ∀ a, (f a).height = height ∧ (f a).advance = .right) {as : List α} (has : as ≠ []) :
    RowPart height none (pens ++ (as.map (fun a ↦ .cell (f a)) ++ [.lineFeed none])) := by
  have hright : (f (as.getLast has)).advance = .right := (hf _).2
  have hrow : pens ++ (as.map (fun a ↦ Step.cell (f a)) ++ [.lineFeed none]) =
      rowSteps none pens (as.dropLast.map f) (f (as.getLast has)) := by
    have hcells : as.map f = as.dropLast.map f ++ [f (as.getLast has)] := by
      rw [← List.map_singleton, ← List.map_append, List.dropLast_append_getLast]
    have hsteps : as.map (fun a ↦ Step.cell (f a)) = (as.map f).map .cell := by
      rw [List.map_map]
      rfl
    rw [rowSteps, ← hcells, hsteps, hright, Option.map_none, Option.toList_none, List.append_nil]
    rfl
  rw [hrow]
  refine .row hpens (fun cell hcell ↦ ?_) (hf _).1 (by rw [hright]; nofun)
  obtain ⟨a, -, rfl⟩ := List.mem_map.mp hcell
  exact hf a

theorem pair (indent : Option K) {first last : Cell K}
    (hfirst : first.height = height ∧ first.advance = .right) (hlast : last.height = height)
    (hadvance : last.advance = .nextLine) :
    RowPart height indent ((indent.map .setX).toList ++ [.cell first, .cell last]) := by
  have hrow : (indent.map .setX).toList ++ [.cell first, .cell last] =
      rowSteps indent [] [first] last := by
    rw [rowSteps, hadvance]
    rfl
  rw [hrow]
  exact .row nofun (List.forall_mem_singleton.mpr hfirst) hlast (by rw [hadvance]; nofun)

theorem returns (h : RowPart height indent steps) : Returns steps := by
  cases h with
  | idle hpens => exact .of_forall fun s hs ↦ (hpens s hs).atLeft_eq true
  | @row pens cells last hpens _ _ hadvance =>
      cases hlast : last.advance with
      | right =>
          rw [rowSteps, hlast, ← List.append_assoc]
          exact .concat (fun _ ↦ rfl) _
      | nextLine =>
          rw [rowSteps, hlast, List.map_append, ← List.append_assoc, lineEnd, List.append_nil,
            ← List.append_assoc]
          refine .concat (fun before ↦ ?_) _
          rw [Step.atLeft, hlast]
      | below => exact absurd hlast hadvance

end RowPart

variable [Scalar K] [Device K D Output]

def placed (c : Canvas K D) (cell : Cell K) : PlacedCell K :=
  let d := c.landing cell
  ⟨cell, d.pageCount, d.x, d.y, d.widthOf cell⟩

/-- The cells that a run of steps puts down, and where.  Wrapped cells are not among them. -/
def placedCells : List (Step K) → Canvas K D → List (PlacedCell K)
  | [], _ => []
  | s :: steps, c => (s.cell?.map c.placed).toList ++ placedCells steps (c.step s)

theorem placedCells_append (steps steps' : List (Step K)) (c : Canvas K D) :
    placedCells (steps ++ steps') c = placedCells steps c ++ placedCells steps' (c.run steps) := by
  induction steps generalizing c with
  | nil => rfl
  | cons s steps ih =>
      rw [List.cons_append, placedCells, placedCells, ih, List.append_assoc]
      rfl

theorem placedCells_eq_nil {steps : List (Step K)} (h : ∀ s ∈ steps, s.cell? = none)
    (c : Canvas K D) : placedCells steps c = [] := by
  induction steps generalizing c with
  | nil => rfl
  | cons s steps ih =>
      rw [placedCells, h s List.mem_cons_self, ih fun t ht ↦ h t (List.mem_cons_of_mem s ht)]
      rfl

/-! ## One row -/

namespace Flowing

variable {sh : Sheet K} {c d : Canvas K D} {height : K}

theorem widthOf_eq (hc : Flowing sh c) (cell : Cell K) :
    c.widthOf cell = sh.widthAt c.x cell.width := by
  rw [← hc.sheet]
  rfl

theorem breaksPage_iff (hc : Flowing sh c) : c.breaksPage height ↔ sh.trigger < c.y + height := by
  have hbody : c.origin = .body := hc.sound.origin
  have htrigger : c.trigger = sh.trigger := congrArg Sheet.trigger hc.sheet
  simp [breaksPage, hc.breaks, hbody, htrigger]

/-- With room for it a cell is put down at the cursor. -/
theorem landing_of_fits (hc : Flowing sh c) {cell : Cell K}
    (hfits : ¬ sh.trigger < c.y + cell.height) : c.landing cell = c := by
  rw [hc.landing_eq, turnWith, if_neg (mt hc.breaksPage_iff.mp hfits)]

theorem placed_of_fits (hc : Flowing sh c) {cell : Cell K}
    (hfits : ¬ sh.trigger < c.y + cell.height) :
    c.placed cell = ⟨cell, c.pageCount, c.x, c.y, sh.widthAt c.x cell.width⟩ := by
  rw [placed, hc.landing_of_fits hfits, ← hc.widthOf_eq]

/-- Before a cell is put down its page is turned if need be. -/
theorem landing (hc : Flowing sh c) {cell : Cell K} (he : (c.step (.cell cell)).error = none) :
    Flowing sh (c.landing cell) ∧
      (c.landing cell).pageCount = (sh.place cell.height c.pageCount c.y).1 ∧
      (c.landing cell).y = (sh.place cell.height c.pageCount c.y).2 := by
  have herror : (c.landing cell).error = none := by
    rw [hc.step_cell] at he
    exact ((Draws.puts _ _).trans (advance_draws hook cell _ _)).error_eq_none he
  rw [hc.landing_eq] at herror ⊢
  refine ⟨hc.of_draws (turnWith_draws hook cell.height c) herror, ?_⟩
  by_cases hbreaks : c.breaksPage cell.height = true
  · obtain ⟨footer, header, hstarted⟩ := addPage_started hc.sound hc.error
    have hpages : c.addPage.pageCount = c.pageCount + 1 := congrArg Frame.pageCount hstarted.frame
    obtain ⟨-, hy, -⟩ := addPage_home hc.sound hc.error
    rw [Sheet.place, if_pos (hc.breaksPage_iff.mp hbreaks), turnWith, if_pos hbreaks, ← hc.margins]
    exact ⟨hpages, hy⟩
  · rw [Sheet.place, if_neg (mt hc.breaksPage_iff.mpr hbreaks), turnWith, if_neg hbreaks]
    exact ⟨rfl, rfl⟩

/-- What a cell leaves behind of the canvas it was put down on. -/
theorem step_cell_right (hc : Flowing sh c) {cell : Cell K}
    (hfits : ¬ sh.trigger < c.y + cell.height) (hadvance : cell.advance = .right) :
    (c.step (.cell cell)).pageCount = c.pageCount ∧ (c.step (.cell cell)).y = c.y ∧
      (c.step (.cell cell)).x = c.x + sh.widthAt c.x cell.width := by
  rw [hc.step_cell, hc.landing_of_fits hfits, hc.widthOf_eq, advance, hadvance, puts_eq]
  exact ⟨rfl, rfl, rfl⟩

theorem run_cells (hc : Flowing sh c) (hfits : ¬ sh.trigger < c.y + height)
    {cells : List (Cell K)} {last : Cell K}
    (hcells : ∀ cell ∈ cells, cell.height = height ∧ cell.advance = .right)
    (hlast : last.height = height)
    (he : (c.run ((cells ++ [last]).map .cell)).error = none) :
    placedCells ((cells ++ [last]).map .cell) c =
        sh.sideBySide c.pageCount c.y c.x (cells ++ [last]) ∧
      ∃ d, Flowing sh d ∧ d.pageCount = c.pageCount ∧ d.y = c.y ∧
        c.run ((cells ++ [last]).map .cell) = d.step (.cell last) := by
  -- the cells before the last move the cursor to the right only, so there is room for each of them
  induction cells generalizing c with
  | nil =>
      subst hlast
      refine ⟨?_, c, hc, rfl, rfl, rfl⟩
      exact congrArg (fun p ↦ [p]) (hc.placed_of_fits hfits)
  | cons cell cells ih =>
      obtain ⟨⟨rfl, hadvance⟩, hrest⟩ := List.forall_mem_cons.mp hcells
      have hnext : Flowing sh (c.step (.cell cell)) :=
        hc.step_first (cells_inFlow (cell :: cells ++ [last])) he
      obtain ⟨hpage, hy, hx⟩ := hc.step_cell_right hfits hadvance
      obtain ⟨hplaced, d, hd, hdpage, hdy, hrun⟩ := ih hnext (by rwa [hy]) hrest he
      refine ⟨?_, d, hd, hdpage.trans hpage, hdy.trans hy, hrun⟩
      rw [hpage, hy, hx] at hplaced
      change c.placed cell :: placedCells ((cells ++ [last]).map .cell) (c.step (.cell cell)) = _
      rw [hplaced, hc.placed_of_fits hfits]
      rfl

/-- Cells are drawn as if the page had been turned for the first of them before. -/
theorem turn_first (hc : Flowing sh c) {first : Cell K}
    (hfits : ¬ sh.trigger < sh.margins.top + first.height)
    (he : (c.step (.cell first)).error = none) (rest : List (Cell K)) :
    ∃ d, Flowing sh d ∧ d.pageCount = (sh.place first.height c.pageCount c.y).1 ∧
      d.y = (sh.place first.height c.pageCount c.y).2 ∧ d.x = c.x ∧
      c.run ((first :: rest).map .cell) = d.run ((first :: rest).map .cell) ∧
      placedCells ((first :: rest).map .cell) c = placedCells ((first :: rest).map .cell) d := by
  obtain ⟨hd, hpage, hy⟩ := hc.landing he
  have hroom : ¬ sh.trigger < (c.landing first).y + first.height := by
    rw [hy]
    exact Sheet.place_fits hfits
  have hsame := hd.landing_of_fits hroom
  have hstep : c.step (.cell first) = (c.landing first).step (.cell first) := by
    rw [hc.step_cell, hd.step_cell, hsame]
  have hplaced : c.placed first = (c.landing first).placed first := by
    rw [placed, placed, hsame]
  exact ⟨c.landing first, hd, hpage, hy, hc.landing_x first,
    congrArg (Canvas.run (rest.map .cell)) hstep,
    congrArg₂ List.cons hplaced (congrArg (placedCells (rest.map .cell)) hstep)⟩

/-- Cells side by side go where the first of them goes. -/
theorem run_row (hc : Flowing sh c) (hfits : ¬ sh.trigger < sh.margins.top + height)
    {cells : List (Cell K)} {last : Cell K}
    (hcells : ∀ cell ∈ cells, cell.height = height ∧ cell.advance = .right)
    (hlast : last.height = height)
    (he : (c.run ((cells ++ [last]).map .cell)).error = none) :
    placedCells ((cells ++ [last]).map .cell) c =
        (sh.row (sh.place height c.pageCount c.y).1 (sh.place height c.pageCount c.y).2 c.x
          (cells ++ [last])).cells ∧
      ∃ d, Flowing sh d ∧ d.pageCount = (sh.place height c.pageCount c.y).1 ∧
        d.y = (sh.place height c.pageCount c.y).2 ∧
        c.run ((cells ++ [last]).map .cell) = d.step (.cell last) := by
  -- the last cell may be the only one, and then it is the one that turns the page
  obtain ⟨first, rest, hall, rfl⟩ : ∃ first rest, cells ++ [last] = first :: rest ∧
      first.height = height := by
    cases cells with
    | nil => exact ⟨last, [], rfl, hlast⟩
    | cons cell cells => exact ⟨cell, cells ++ [last], rfl, (hcells cell List.mem_cons_self).1⟩
  have hstep : (c.step (.cell first)).error = none := by
    rw [hall] at he
    exact (hc.step_first (cells_inFlow (first :: rest)) he).error
  obtain ⟨d, hd, hpage, hy, hx, hrun, hplaced⟩ := hc.turn_first hfits hstep rest
  rw [← hall] at hrun hplaced
  have hroom : ¬ sh.trigger < d.y + first.height := by
    rw [hy]
    exact Sheet.place_fits hfits
  rw [hrun] at he ⊢
  rw [hplaced, ← hpage, ← hy, ← hx]
  exact hd.run_cells hroom hcells hlast he

theorem end_row (hd : Flowing sh d) {cell : Cell K} (hfits : ¬ sh.trigger < d.y + cell.height)
    (hadvance : cell.advance ≠ .below) :
    ((d.step (.cell cell)).run (lineEnd cell.advance)).pageCount = d.pageCount ∧
      ((d.step (.cell cell)).run (lineEnd cell.advance)).y = d.y + cell.height ∧
      ((d.step (.cell cell)).run (lineEnd cell.advance)).x = sh.margins.left := by
  rw [hd.step_cell, hd.landing_of_fits hfits, puts_eq, advance, ← hd.margins]
  cases hcell : cell.advance with
  | right => exact ⟨rfl, rfl, rfl⟩
  | nextLine => exact ⟨rfl, rfl, rfl⟩
  | below => exact absurd hcell hadvance

end Flowing

/-! ## Rows one below the other -/

theorem run_still {steps : List (Step K)} (hsteps : ∀ s ∈ steps, s.Still) (c : Canvas K D) :
    ∃ graphics warnings, c.run steps = { c with graphics, warnings } := by
  induction steps generalizing c with
  | nil => exact ⟨c.graphics, c.warnings, rfl⟩
  | cons s steps ih =>
      obtain ⟨hs, hrest⟩ := List.forall_mem_cons.mp hsteps
      obtain ⟨graphics, warnings, hstep⟩ : ∃ graphics warnings,
          c.step s = { c with graphics, warnings } := by
        cases s with
        | setFont family style size => exact ⟨_, setFont_eq family style size c⟩
        | setTextColor | setFillColor | setDrawColor | setLineWidth | warn => exact ⟨_, _, rfl⟩
        | _ => exact hs.elim
      obtain ⟨graphics', warnings', hrun⟩ := ih hrest (c.step s)
      refine ⟨graphics', warnings', hrun.trans ?_⟩
      rw [hstep]

namespace Flowing

variable {sh : Sheet K} {c : Canvas K D} {height : K} {indent : Option K}

/-- Pens and an indent change the graphics and the place across, and nothing else that counts. -/
theorem run_pens (hc : Flowing sh c) (hx : c.x = sh.margins.left) {pens : List (Step K)}
    (hpens : ∀ s ∈ pens, s.Still) (indent : Option K) :
    ∃ d, c.run (pens ++ (indent.map Step.setX).toList) = d ∧ Flowing sh d ∧
      d.pageCount = c.pageCount ∧ d.y = c.y ∧ d.x = sh.start indent := by
  obtain ⟨graphics, warnings, hrun⟩ := run_still hpens c
  rw [run_append, hrun]
  refine ⟨_, rfl, ?_⟩
  cases indent with
  | none => exact ⟨⟨⟨hc.sound, hc.begun, hc.error⟩, hc.breaks, hc.sheet⟩, rfl, rfl, hx⟩
  | some x =>
      refine ⟨⟨⟨hc.sound, hc.begun, hc.error⟩, hc.breaks, hc.sheet⟩, rfl, rfl, ?_⟩
      rw [← hc.sheet]
      rfl

theorem run_rowSteps (hc : Flowing sh c) (hx : c.x = sh.margins.left)
    (hfits : ¬ sh.trigger < sh.margins.top + height) {pens : List (Step K)}
    {cells : List (Cell K)} {last : Cell K} (hpens : ∀ s ∈ pens, s.Still)
    (hcells : ∀ cell ∈ cells, cell.height = height ∧ cell.advance = .right)
    (hlast : last.height = height) (hadvance : last.advance ≠ .below)
    (he : (c.run (rowSteps indent pens cells last)).error = none) :
    placedCells (rowSteps indent pens cells last) c =
        (sh.row (sh.place height c.pageCount c.y).1 (sh.place height c.pageCount c.y).2
          (sh.start indent) (cells ++ [last])).cells ∧
      (c.run (rowSteps indent pens cells last)).pageCount = (sh.place height c.pageCount c.y).1 ∧
      (c.run (rowSteps indent pens cells last)).y =
        (sh.place height c.pageCount c.y).2 + height ∧
      (c.run (rowSteps indent pens cells last)).x = sh.margins.left := by
  have hrow : RowPart height indent (rowSteps indent pens cells last) :=
    .row hpens hcells hlast hadvance
  have hinFlow := hrow.inFlow
  obtain ⟨d, hrun, hd, hpage, hy, hdx⟩ := hc.run_pens hx hpens indent
  rw [rowSteps, List.forall_mem_append] at hinFlow
  rw [rowSteps, run_append, hrun] at he ⊢
  have hdrawn := (hd.run_first hinFlow.2 he).error
  obtain ⟨hplaced, e, hflowing, hepage, hey, hend⟩ := hd.run_row hfits hcells hlast hdrawn
  rw [hpage, hy] at hplaced hepage hey
  have hroom : ¬ sh.trigger < e.y + last.height := by
    rw [hey, hlast]
    exact Sheet.place_fits hfits
  rw [run_append, hend]
  obtain ⟨hpage', hy', hx'⟩ := hflowing.end_row hroom hadvance
  refine ⟨?_, hpage'.trans hepage, ?_, hx'⟩
  · rw [placedCells_append, placedCells_eq_nil (RowPart.cell?_pens hpens indent), hrun,
      placedCells_append, hplaced, placedCells_eq_nil (RowPart.cell?_lineEnd last.advance),
      List.nil_append, List.append_nil, hdx]
  · rw [hy', hey, hlast]

/-- Parts that draw a row each draw them one below the other. -/
theorem run_parts (hc : Flowing sh c) (hx : c.x = sh.margins.left)
    (hfits : ¬ sh.trigger < sh.margins.top + height) {parts : List (List (Step K))}
    (hparts : ∀ part ∈ parts, RowPart height indent part)
    (he : (c.run parts.flatten).error = none) :
    placedCells parts.flatten c =
      (sh.rows height (sh.start indent) c.pageCount c.y (rowsOf parts)).flatMap Row.cells := by
  -- a part leaves the cursor at the left margin again, where the next has to begin
  induction parts generalizing c with
  | nil => rfl
  | cons part parts ih =>
      obtain ⟨hpart, hrest⟩ := List.forall_mem_cons.mp hparts
      have hinFlow : ∀ s ∈ part ++ parts.flatten, s.InFlow := by
        rw [← List.flatten_cons]
        intro s hs
        obtain ⟨part, hpart, hs⟩ := List.mem_flatten.mp hs
        exact (hparts part hpart).inFlow s hs
      rw [List.flatten_cons] at he ⊢
      have hflowing := hc.run_first hinFlow he
      rw [run_append] at he
      rw [placedCells_append]
      cases hpart with
      | idle hpens =>
          obtain ⟨graphics, warnings, hrun⟩ := run_still hpens c
          have hrows := ih hflowing (by rw [hrun]; exact hx) hrest he
          rw [placedCells_eq_nil fun s hs ↦ (hpens s hs).cell?_eq, List.nil_append, hrows, hrun]
          simp [rowsOf, RowPart.cellsOf_still hpens]
      | row hpens hcells hlast hadvance =>
          obtain ⟨hplaced, hpage, hy, hleft⟩ :=
            hc.run_rowSteps hx hfits hpens hcells hlast hadvance hflowing.error
          have hrows := ih hflowing hleft hrest he
          rw [hplaced, hrows, hpage, hy]
          simp [rowsOf, RowPart.cellsOf_rowSteps hpens, Sheet.rows]

end Flowing

/-- Steps that put their cells down in rows of a height, a row for every part that has cells. -/
structure RowsDrawn (sh : Sheet K) (height x : K) (parts : List (List (Step K)))
    (steps : List (Step K)) (c : Canvas K D) (rows : List (Row K)) : Prop where
  cells : placedCells steps c = rows.flatMap Row.cells
  contents : rows.map Row.contents = rowsOf parts
  columns : ∀ r ∈ rows, r.columns = sh.columns x (r.contents.map (·.width))
  first : ∀ r ∈ rows.head?, (r.page, r.y) = sh.place height c.pageCount c.y
  next : rows.IsChain fun r s ↦ (s.page, s.y) = sh.place height r.page (r.y + height)

theorem Flowing.rowsDrawn {sh : Sheet K} {c : Canvas K D} {height : K} {indent : Option K}
    (hc : Flowing sh c) (hx : c.x = sh.margins.left)
    (hfits : ¬ sh.trigger < sh.margins.top + height) {parts : List (List (Step K))}
    (hparts : ∀ part ∈ parts, RowPart height indent part) {rest : List (Step K)}
    (hrest : ∀ s ∈ rest, s.InFlow ∧ s.cell? = none)
    (he : (c.run (parts.flatten ++ rest)).error = none) :
    ∃ rows, RowsDrawn sh height (sh.start indent) parts (parts.flatten ++ rest) c rows := by
  have hinFlow : ∀ s ∈ parts.flatten ++ rest, s.InFlow := by
    intro s hs
    rcases List.mem_append.mp hs with hs | hs
    · obtain ⟨part, hpart, hs⟩ := List.mem_flatten.mp hs
      exact (hparts part hpart).inFlow s hs
    · exact (hrest s hs).1
  have hrows := hc.run_parts hx hfits hparts (hc.run_first hinFlow he).error
  refine ⟨sh.rows height (sh.start indent) c.pageCount c.y (rowsOf parts), ?_,
    Sheet.rows_contents _, fun _ ↦ Sheet.columns_of_mem_rows, ?_, Sheet.rows_isChain _⟩
  · rw [placedCells_append, hrows, placedCells_eq_nil fun s hs ↦ (hrest s hs).2, List.append_nil]
  · cases rowsOf parts with
    | nil => exact nofun
    | cons cells contents =>
        intro r hr
        obtain rfl := Option.some.inj hr
        rfl

end Canvas

end PagedReport
