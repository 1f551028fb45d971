import PagedReport.Proofs.Canvas.Rows
import PagedReport.Proofs.Layout.Stages
import PagedReport.Proofs.Layout.Success

/-!
# Tables as grids

Every element finds the cursor at the left margin and leaves it there.  So the rows of a table all
begin at the left margin, and the columns of all rows are those of the header.
-/

namespace PagedReport

open Report Canvas

/-- The sheet of a report. -/
def Report.sheet (r : Report) (setup : PageSetup Float) : Sheet Float :=
  { pageSize := setup.pageSize
    margins := r.setup.margins
    trigger := setup.pageSize.height - r.setup.margins.bottom }

namespace Layout

variable (ctx : Context)

/-! ## The parts of elements -/

/-- A table in parts: its header, and the rows of its source. -/
def tableParts (t : Table) : List (List (Step Float)) :=
  tableHeader ctx t ::
    match ctx.source? t.source with
    | some (.array rows) => rows.mapIdx (tableRowOf ctx t)
    | _ => []

/-- A list in parts: its style, and its items. -/
def listParts (l : BulletList) : List (List (Step Float)) :=
  ctx.styles.use l.style ::
    match ctx.source? l.source with
    | some (.array items) =>
      items.map (listItem (ctx.setup.margins.left + orUsual l.indent usualIndent)
        (l.bullet.getD usualBullet))
    | _ => []

/-- Keys and values in parts: their style, and the entries. -/
def keyValueParts (l : KeyValues) : List (List (Step Float)) :=
  ctx.styles.use l.style :: l.entries.map (entry ctx l)

/-- Steps that end an element: they draw no cell and do not leave the left margin. -/
def Closing (steps : List (Step Float)) : Prop :=
  ∀ s ∈ steps, s.InFlow ∧ s.cell? = none ∧ s.atLeft true = true

theorem space_closing (height : Float) : Closing (space height) := by
  unfold space
  split
  · exact List.forall_mem_singleton.mpr ⟨.inl trivial, rfl, rfl⟩
  · exact fun _ hs ↦ absurd hs List.not_mem_nil

theorem warn_closing (w : Warning) : Closing [.warn w] :=
  List.forall_mem_singleton.mpr ⟨.inl trivial, rfl, rfl⟩

theorem table_eq (t : Table) (spacing : Float) :
    ∃ rest, table ctx t spacing = (tableParts ctx t).flatten ++ rest ∧ Closing rest := by
  unfold table tableParts
  cases ctx.source? t.source with
  | none => exact ⟨_, by rw [List.flatten_cons, List.flatten_nil, List.append_nil], warn_closing _⟩
  | some source =>
      cases source with
      | array rows => exact ⟨_, (List.append_assoc ..).symm, space_closing spacing⟩
      | _ => exact ⟨_, by rw [List.flatten_cons, List.flatten_nil, List.append_nil], warn_closing _⟩

theorem bulletList_eq (l : BulletList) (spacing : Float) :
    ∃ rest, bulletList ctx l spacing = (listParts ctx l).flatten ++ rest ∧ Closing rest := by
  unfold bulletList listParts
  cases ctx.source? l.source with
  | none => exact ⟨_, by rw [List.flatten_cons, List.flatten_nil, List.append_nil], warn_closing _⟩
  | some source =>
      cases source with
      | array items => exact ⟨_, (List.append_assoc ..).symm, space_closing spacing⟩
      | _ => exact ⟨_, by rw [List.flatten_cons, List.flatten_nil, List.append_nil], warn_closing _⟩

theorem keyValues_eq (l : KeyValues) (spacing : Float) :
    ∃ rest, keyValues ctx l spacing = (keyValueParts ctx l).flatten ++ rest ∧ Closing rest :=
  ⟨_, rfl, space_closing spacing⟩

/-! ## Parts as rows -/

theorem still_option {α : Type} {f : α → Step Float} (hf : ∀ a, (f a).Still) (o : Option α) :
    ∀ s ∈ (o.map f).toList, s.Still := by
  intro s hs
  obtain ⟨a, -, rfl⟩ := Option.map_eq_some_iff.mp (Option.mem_toList.mp hs)
  exact hf a

theorem use_still (styles : Styles) (name : Option String) : ∀ s ∈ styles.use name, s.Still := by
  unfold Styles.use Styles.apply
  split
  · split
    · exact fun _ hs ↦ absurd hs List.not_mem_nil
    · split
      · unfold Styles.settings
        exact List.forall_mem_append.mpr ⟨List.forall_mem_append.mpr
          ⟨still_option (fun _ ↦ by exact trivial) _, still_option (fun _ ↦ by exact trivial) _⟩,
          still_option (fun _ ↦ by exact trivial) _⟩
      · exact List.forall_mem_singleton.mpr trivial
  · exact fun _ hs ↦ absurd hs List.not_mem_nil

/-- Steps that draw a row with a cell for every column of a table, or none. -/
inductive TableRow (columns : List Column) : List (Step Float) → Prop
  | idle {pens : List (Step Float)} : (∀ s ∈ pens, s.Still) → TableRow columns pens
  | row {pens : List (Step Float)} (cell : Column → Cell Float) : (∀ s ∈ pens, s.Still) →
      (∀ c, (cell c).width = c.width ∧ (cell c).height = tableRow ∧ (cell c).advance = .right) →
      TableRow columns (pens ++ (columns.map (fun c ↦ .cell (cell c)) ++ [.lineFeed none]))

namespace TableRow

variable {columns : List Column} {part : List (Step Float)}

theorem rowPart (h : TableRow columns part) (hcolumns : columns ≠ []) :
    RowPart tableRow none part := by
  cases h with
  | idle hpens => exact .idle hpens
  | row cell hpens hcell => exact .of_cells hpens cell (fun c ↦ (hcell c).2) hcolumns

theorem returns (h : TableRow columns part) : Returns part := by
  cases h with
  | idle hpens => exact .of_forall fun s hs ↦ (hpens s hs).atLeft_eq true
  | row cell hpens _ =>
      rw [← List.append_assoc]
      exact .concat (fun _ ↦ rfl) _

/-- The cells have the widths of the columns. -/
theorem widths (h : TableRow columns part) (hcells : cellsOf part ≠ []) :
    (cellsOf part).map (·.width) = columns.map (·.width) := by
  cases h with
  | idle hpens => exact absurd (RowPart.cellsOf_still hpens) hcells
  | @row pens cell hpens hcell =>
      have hpens : pens.filterMap Step.cell? = [] := RowPart.cellsOf_still hpens
      have hrow : (columns.map fun c ↦ Step.cell (cell c)).filterMap Step.cell? =
          columns.map cell := by
        rw [List.filterMap_map]
        exact List.filterMap_eq_map_iff_forall_eq_some.mpr fun _ _ ↦ rfl
      rw [cellsOf, List.filterMap_append, List.filterMap_append, hpens, hrow, List.nil_append,
        List.map_append, List.map_map]
      exact (List.append_nil _).trans (List.map_congr_left fun c _ ↦ (hcell c).1)

end TableRow

theorem tableParts_row (t : Table) : ∀ part ∈ tableParts ctx t, TableRow t.columns part := by
  refine List.forall_mem_cons.mpr ⟨?_, ?_⟩
  · unfold tableHeader
    rw [List.append_assoc]
    exact .row _ (use_still _ _) fun _ ↦ ⟨rfl, rfl, rfl⟩
  · split
    · intro part hpart
      obtain ⟨i, hi, rfl⟩ := List.mem_mapIdx.mp hpart
      unfold tableRowOf
      split
      · dsimp only
        rw [List.append_assoc, ← List.append_assoc (ctx.styles.use t.cellStyle)]
        exact .row _ (List.forall_mem_append.mpr
          ⟨use_still _ _, still_option (fun _ ↦ by exact trivial) _⟩) fun _ ↦ ⟨rfl, rfl, rfl⟩
      · rw [List.append_nil]
        exact .idle (use_still _ _)
    · exact fun _ hs ↦ absurd hs List.not_mem_nil

theorem tableParts_widths (t : Table) : ∀ cells ∈ rowsOf (tableParts ctx t),
    cells.map (·.width) = t.columns.map (·.width) := by
  intro cells hcells
  obtain ⟨hcells, hsome⟩ := List.mem_filter.mp hcells
  obtain ⟨part, hpart, rfl⟩ := List.mem_map.mp hcells
  exact (tableParts_row ctx t part hpart).widths (by simpa using hsome)

theorem listParts_row (l : BulletList) : ∀ part ∈ listParts ctx l,
    RowPart listRow (some (ctx.setup.margins.left + orUsual l.indent usualIndent)) part := by
  refine List.forall_mem_cons.mpr ⟨.idle (use_still _ _), ?_⟩
  split
  · intro part hpart
    obtain ⟨item, -, rfl⟩ := List.mem_map.mp hpart
    cases item with
    | string item => exact .pair (some _) ⟨rfl, rfl⟩ rfl rfl
    | _ => exact .idle nofun
  · exact fun _ hs ↦ absurd hs List.not_mem_nil

theorem keyValueParts_row (l : KeyValues) :
    ∀ part ∈ keyValueParts ctx l, RowPart listRow none part := by
  refine List.forall_mem_cons.mpr ⟨.idle (use_still _ _), fun part hpart ↦ ?_⟩
  obtain ⟨e, -, rfl⟩ := List.mem_map.mp hpart
  exact .pair none ⟨rfl, rfl⟩ rfl rfl

/-! ## Elements return -/

theorem Closing.returns {steps : List (Step Float)} (h : Closing steps) : Returns steps :=
  .of_forall fun s hs ↦ (h s hs).2.2

theorem text_returns (t : Text) (spacing : Float) : Returns (text ctx t spacing) := by
  unfold text
  dsimp only
  rw [List.append_cons]
  refine .append (.concat (fun before ↦ ?_) _) (space_closing spacing).returns
  split <;> rfl

theorem option_returns {α : Type} {f : α → Step Float} (hf : ∀ a, (f a).Still) (o : Option α) :
    Returns (o.map f).toList := .of_forall fun s hs ↦ (still_option hf o s hs).atLeft_eq true

theorem lineWidth_returns (width : Float) :
    Returns (if 0 < width then [Step.setLineWidth width] else []) := by
  split <;> rfl

theorem rule_returns (r : Rule) : Returns (rule ctx r) :=
  ((option_returns (fun _ ↦ by exact trivial) _).append (lineWidth_returns _)).append rfl

theorem box_returns (b : Box) (spacing : Float) : Returns (box ctx b spacing) := by
  have hbelow (y : Float) : Returns (if 0 < spacing then [Step.setY y] else []) := by
    split <;> rfl
  refine .append (((option_returns (fun _ ↦ by exact trivial) _).append
    (option_returns (fun _ ↦ by exact trivial) _)).append (lineWidth_returns _)) ?_
  exact hbelow _

theorem parts_return {parts : List (List (Step Float))} {steps : List (Step Float)}
    (hsteps : ∃ rest, steps = parts.flatten ++ rest ∧ Closing rest)
    (hparts : ∀ part ∈ parts, Returns part) : Returns steps := by
  obtain ⟨rest, rfl, hrest⟩ := hsteps
  exact .append (.flatten hparts) hrest.returns

theorem bandElement_returns (e : Element BandContent) : Returns (bandElement ctx e) := by
  obtain ⟨condition, spacing, content⟩ := e
  cases content with
  | text t => exact text_returns ctx t spacing
  | image i => rfl
  | rule r => exact rule_returns ctx r

theorem parts_drawn {D Output : Type} [Device Float D Output] {sh : Sheet Float}
    {c : Canvas Float D} {height : Float} {indent : Option Float} {parts : List (List (Step Float))}
    {steps : List (Step Float)} (hc : Flowing sh c) (hx : c.x = sh.margins.left)
    (hfits : ¬ sh.trigger < sh.margins.top + height)
    (hsteps : ∃ rest, steps = parts.flatten ++ rest ∧ Closing rest)
    (hparts : ∀ part ∈ parts, RowPart height indent part) (he : (c.run steps).error = none) :
    ∃ rows, RowsDrawn sh height (sh.start indent) parts steps c rows := by
  obtain ⟨rest, rfl, hrest⟩ := hsteps
  exact hc.rowsDrawn hx hfits hparts (fun s hs ↦ ⟨(hrest s hs).1, (hrest s hs).2.1⟩) he

/-- Every element brings the cursor back to the left margin. -/
theorem element_returns (e : Element Content) : Returns (element ctx e) := by
  obtain ⟨condition, spacing, content⟩ := e
  cases content with
  | band b => exact bandElement_returns ctx ⟨condition, spacing, b⟩
  | table t =>
      exact parts_return (table_eq ctx t spacing) fun part hpart ↦
        (tableParts_row ctx t part hpart).returns
  | list l =>
      exact parts_return (bulletList_eq ctx l spacing) fun part hpart ↦
        (listParts_row ctx l part hpart).returns
  | keyValues l =>
      exact parts_return (keyValues_eq ctx l spacing) fun part hpart ↦
        (keyValueParts_row ctx l part hpart).returns
  | box b => exact box_returns ctx b spacing
  | pageBreak => rfl

theorem steps_return (stage : Stage) : Returns (stage.steps ctx) := by
  cases stage with
  | element sectionName index e => exact element_returns ctx e
  | page | close => rfl

end Layout

namespace Session

open Layout

variable {D Output : Type} [Device Float D Output]

section

variable {files : Files} {r : Report} {ctx : Context} {device : D} {setup : PageSetup Float}

/-- The first page of a report. -/
theorem start_flowing (he : (start files r ctx (.new device setup)).canvas.addPage.error = none) :
    Flowing (r.sheet setup) (start files r ctx (.new device setup)).canvas.addPage ∧
      (start files r ctx (.new device setup)).canvas.addPage.x = r.setup.margins.left := by
  obtain ⟨hunused, -⟩ := start_unused files r ctx device setup
  obtain ⟨device', warnings, heq⟩ := start_canvas files r ctx (.new device setup)
  obtain ⟨footer, header, hstarted⟩ := addPage_started hunused.sound hunused.error
  obtain ⟨hx, -, -⟩ := addPage_home hunused.sound hunused.error
  have hframe := hstarted.frame
  generalize (start files r ctx (.new device setup)).canvas = b at *
  have hpages : b.addPage.pageCount = b.pageCount + 1 := congrArg Frame.pageCount hframe
  have hsheet : b.addPage.sheet = b.sheet := congrArg
    (fun f : Frame Float ↦ (⟨f.pageSize, f.margins, f.trigger⟩ : Sheet Float)) hframe
  refine ⟨⟨⟨hunused.sound.of_eq hframe, by omega, he⟩, ?_, ?_⟩, ?_⟩
  · rw [show b.addPage.autoBreak = b.autoBreak from congrArg Frame.autoBreak hframe, heq]
    rfl
  · rw [hsheet, heq]
    rfl
  · rw [hx, heq]
    rfl

/-- Every element of a report finds the cursor at the left margin. -/
theorem drawn_flowing {c : Canvas Float D}
    (h : draw files r ctx (.new device setup) = (c, .ok ())) {before after : List Stage}
    {sectionName : String} {index : Nat} {e : Element Content}
    (hstages : stages r = before ++ .element sectionName index e :: after) :
    Flowing (r.sheet setup) (drawn files r ctx device setup before) ∧
      (drawn files r ctx device setup before).x = r.setup.margins.left := by
  have hbody := stages_ne hstages
  have herror := (draw_stages h hstages).1
  -- nothing flows before there is a page, so the first page is taken from the front of the run
  obtain ⟨first, rest, rfl⟩ := stages_page hstages
  have hfirst : (drawn files r ctx device setup [.page first]).error = none :=
    (draw_stages h (hstages.trans (List.cons_append ..))).1
  obtain ⟨hflowing, hx⟩ := start_flowing hfirst
  have hrun : drawn files r ctx device setup (.page first :: rest) =
      (start files r ctx (.new device setup)).canvas.addPage.run (stageSteps ctx rest) := rfl
  have hinFlow : ∀ s ∈ stageSteps ctx rest, s.InFlow := by
    intro s hs
    obtain ⟨stage, hstage, hs⟩ := List.mem_flatMap.mp hs
    exact steps_inFlow ctx (hbody stage (List.mem_cons_of_mem _ hstage)) s hs
  have hreturns : Returns (stageSteps ctx rest) := by
    rw [stageSteps, List.flatMap_def]
    refine .flatten fun part hpart ↦ ?_
    obtain ⟨stage, -, rfl⟩ := List.mem_map.mp hpart
    exact steps_return ctx stage
  rw [hrun] at herror ⊢
  exact ⟨hflowing.run hinFlow herror, hflowing.run_returns hinFlow herror hx hreturns⟩

/-- Every element finds the cursor at the left margin and leaves it there.  The rows of a table, the
header first, all have the same columns from the left margin on, and they are on one page each:
below the row before, or at the top of the next page if there is no room.  So are the rows of lists
and of keys and values. -/
theorem elements_aligned {c : Canvas Float D}
    (h : draw files r ctx (.new device setup) = (c, .ok ())) {before after : List Stage}
    {sectionName : String} {index : Nat} {e : Element Content}
    (hstages : stages r = before ++ .element sectionName index e :: after) :
    let sh := r.sheet setup
    let found := drawn files r ctx device setup before
    let passed := found.run (element ctx e)
    c = passed.run (stageSteps ctx after) ∧
      found.x = sh.margins.left ∧ passed.x = sh.margins.left ∧
      (∀ t, e.content = .table t → t.columns ≠ [] → ¬ sh.trigger < sh.margins.top + tableRow →
        ∃ rows,
          RowsDrawn sh tableRow sh.margins.left (tableParts ctx t) (element ctx e) found rows ∧
          ∀ row ∈ rows, row.columns = sh.columns sh.margins.left (t.columns.map (·.width))) ∧
      (∀ l, e.content = .list l → ¬ sh.trigger < sh.margins.top + listRow →
        ∃ x rows, RowsDrawn sh listRow x (listParts ctx l) (element ctx e) found rows) ∧
      ∀ l, e.content = .keyValues l → ¬ sh.trigger < sh.margins.top + listRow →
        ∃ rows,
          RowsDrawn sh listRow sh.margins.left (keyValueParts ctx l) (element ctx e) found
            rows := by
  intro sh found passed
  obtain ⟨hfound, hx⟩ : Flowing sh found ∧ found.x = sh.margins.left := drawn_flowing h hstages
  have hafter : stages r = (before ++ [.element sectionName index e]) ++ after := by
    rw [hstages, List.append_assoc]
    rfl
  obtain ⟨herror, hc⟩ : passed.error = none ∧ c = passed.run (stageSteps ctx after) := by
    have hdrawn := draw_stages h hafter
    rwa [drawn_append, stageSteps_singleton] at hdrawn
  have hinFlow : ∀ s ∈ element ctx e, s.InFlow := (element_shows ctx e).all
  have hleft := hfound.run_returns hinFlow herror hx (element_returns ctx e)
  refine ⟨hc, hx, hleft, fun t ht hcolumns hfits ↦ ?_, fun l hl hfits ↦ ?_, fun l hl hfits ↦ ?_⟩
  · have helement : element ctx e = table ctx t e.spacing := by rw [element, ht]
    have hparts := tableParts_row ctx t
    obtain ⟨rows, hrows⟩ := parts_drawn hfound hx hfits (helement ▸ table_eq ctx t e.spacing)
      (fun part hpart ↦ (hparts part hpart).rowPart hcolumns) herror
    refine ⟨rows, hrows, fun row hrow ↦ ?_⟩
    have hcontents : row.contents ∈ rowsOf (tableParts ctx t) :=
      hrows.contents ▸ List.mem_map_of_mem hrow
    rw [← tableParts_widths ctx t _ hcontents]
    exact hrows.columns row hrow
  · have helement : element ctx e = bulletList ctx l e.spacing := by rw [element, hl]
    exact ⟨_, parts_drawn hfound hx hfits (helement ▸ bulletList_eq ctx l e.spacing)
      (listParts_row ctx l) herror⟩
  · have helement : element ctx e = keyValues ctx l e.spacing := by rw [element, hl]
    exact parts_drawn hfound hx hfits (helement ▸ keyValues_eq ctx l e.spacing)
      (keyValueParts_row ctx l) herror

end

/-! ## A table across pages -/

def ledgerTable : Table :=
  { source := "rows"
    columns :=
      [{ header := "no", field := "n", width := 20 }, { header := "for", field := "name" }] }

/-- A table on pages with room for two rows. -/
def ledger : Report :=
  { setup := { customSize := some ⟨100, 50⟩, margins := .uniform 15 }
    header := some
      { enabled := true, height := 10, elements := [⟨none, 0, .text { content := "ledger" }⟩] }
    sections := [{ name := "ledger", elements := [⟨none, 0, .table ledgerTable⟩] }] }

def ledgerContext : Context :=
  { styles := ⟨[]⟩
    data := .object [("rows", .array
      [ .object [("n", .string "1"), ("name", .string "Ada")], .null,
        .object [("n", .string "2"), ("name", .string "Bo")] ])] }

theorem ledger_imageless : ledger.Imageless := by
  refine ⟨?_, ?_, ?_⟩ <;> simp [ledger, Layout.shown, Report.Content.Imageless,
    Report.BandContent.Imageless, Report.Band.Imageless]

theorem elements_aligned_ledger :
    ∃ (c : Canvas Float (Recorder Float)) (rows : List (Row Float)),
      draw blankRecorder.files ledger ledgerContext (.new blankRecorder ledger.setup) =
        (c, .ok ()) ∧
      stages ledger = [.page "ledger"] ++
        .element "ledger" 0 ⟨none, 0, .table ledgerTable⟩ :: [.close] ∧
      (∀ row ∈ rows, row.columns = [(15, 20), (35, 50)]) ∧
      (rows.flatMap Row.cells).map (·.page) = [1, 1, 1, 1, 2, 2] := by
  obtain ⟨c, hc⟩ := draw_succeeds blankRecorder.files ledger_imageless ledgerContext
    blankRecorder ledger.setup
  have hstages : stages ledger = [.page "ledger"] ++
      .element "ledger" 0 ⟨none, 0, .table ledgerTable⟩ :: [.close] := rfl
  have hfits : ¬ (ledger.sheet ledger.setup).trigger <
      (ledger.sheet ledger.setup).margins.top + tableRow := by decide +kernel
  obtain ⟨-, -, -, htable, -⟩ := elements_aligned hc hstages
  obtain ⟨rows, hrows, hcolumns⟩ := htable ledgerTable rfl nofun hfits
  refine ⟨c, rows, hc, hstages, fun row hrow ↦ (hcolumns row hrow).trans ?_, ?_⟩
  · decide +kernel
  · rw [← hrows.cells]
    decide +kernel

end Session

end PagedReport
