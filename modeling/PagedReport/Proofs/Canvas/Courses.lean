import PagedReport.Proofs.Canvas.DrawnText
import PagedReport.Proofs.Canvas.Moves

/-!
# Courses of a canvas

Whatever is done with a canvas, a course leads from what it was to what it is: small changes, in
some of which the device is asked for something that it grants.  There is a course through every
step and every band, so what small changes keep is kept by all runs, whatever the bands draw.
-/

namespace PagedReport

variable {K D Output : Type}

/-! ## Demands -/

inductive Demand (K : Type) where
  | registerFont (key : FontKey) (data : ByteArray)
  | draw (call : Call K)
  | imageSize (path : String)

namespace Demand

def call? : Demand K → Option (Call K)
  | draw call => some call
  | _ => none

def marks (ms : List (Mark K)) : List (Demand K) := ms.map fun m ↦ draw (.mark m)

theorem registerFont_notMem_marks (ms : List (Mark K)) (key : FontKey) (data : ByteArray) :
    registerFont key data ∉ marks ms := by
  simp [marks]

theorem filterMap_call?_marks (ms : List (Mark K)) :
    (marks ms).filterMap call? = ms.map .mark := by
  simp [marks, call?, List.filterMap_map, Function.comp_def]

variable [Device K D Output]

def meet : Demand K → D → Except CanvasError D
  | registerFont key data, d => Device.registerFont key data d
  | draw (.page size), d => .ok (Device.beginPage size d)
  | draw (.mark m), d => .ok (Device.mark m d)
  | draw (.image path place), d => Device.image path place d
  | imageSize path, d => (Device.imageSize path d).map (·.2)

def meetAll (demands : List (Demand K)) (d : D) : Except CanvasError D :=
  demands.foldlM (fun d demand ↦ demand.meet d) d

theorem meetAll_append {demands demands' : List (Demand K)} {d f : D} :
    meetAll (demands ++ demands') d = .ok f ↔
      ∃ e, meetAll demands d = .ok e ∧ meetAll demands' e = .ok f := by
  rw [meetAll, List.foldlM_append]
  cases h : demands.foldlM (fun d demand ↦ demand.meet d) d with
  | error e => simp [meetAll, h, bind, Except.bind]
  | ok e => simp [meetAll, h, bind, Except.bind]

theorem meetAll_singleton (demand : Demand K) (d : D) : meetAll [demand] d = demand.meet d := by
  rw [meetAll, List.foldlM_cons]
  cases demand.meet d <;> rfl

theorem meetAll_marks (ms : List (Mark K)) (d : D) :
    meetAll (marks ms) d = .ok (ms.foldl (fun d m ↦ Device.mark m d) d) := by
  induction ms generalizing d with
  | nil => rfl
  | cons m ms ih => exact ih (Device.mark m d)

end Demand

/-- The font and the size of a text that is drawn. -/
def Call.font? : Call K → Option (FontKey × K)
  | .mark m => m.font?
  | _ => none

namespace Canvas

/-- The calls of a canvas on behalf of any part of a page. -/
def calls (c : Canvas K D) : List (Call K) := c.history.toList.map (·.2)

/-! ## Courses -/

/-- What is never taken back: pages, their size, the margin in cells and the first error.  A
document that is ended has a page or an error. -/
structure Lasts (c d : Canvas K D) : Prop where
  pageSize : d.pageSize = c.pageSize
  scale : d.scale = c.scale
  cellMargin : d.cellMargin = c.cellMargin
  pageCount : c.pageCount ≤ d.pageCount
  error : c.error.isSome → d.error = c.error
  ended : d.closed = true → c.closed = true ∨ 0 < d.pageCount ∨ d.error.isSome

namespace Lasts

variable {c d e : Canvas K D}

theorem of_eq (hpaper : (d.pageSize, d.scale, d.cellMargin) = (c.pageSize, c.scale, c.cellMargin))
    (hend : (d.pageCount, d.error, d.closed) = (c.pageCount, c.error, c.closed)) : Lasts c d := by
  obtain ⟨hpageSize, hlengths⟩ := Prod.mk.inj hpaper
  obtain ⟨hscale, hmargin⟩ := Prod.mk.inj hlengths
  obtain ⟨hpages, hend⟩ := Prod.mk.inj hend
  obtain ⟨herror, hclosed⟩ := Prod.mk.inj hend
  exact ⟨hpageSize, hscale, hmargin, Nat.le_of_eq hpages.symm, fun _ ↦ herror,
    fun hd ↦ .inl (hclosed ▸ hd)⟩

theorem refl (c : Canvas K D) : Lasts c c := .of_eq rfl rfl

theorem paged (h : Lasts c d) (hc : 0 < c.pageCount ∨ c.error.isSome) :
    0 < d.pageCount ∨ d.error.isSome := by
  rcases hc with hpage | herror
  · exact .inl (Nat.lt_of_lt_of_le hpage h.pageCount)
  · exact .inr (h.error herror ▸ herror)

theorem trans (h : Lasts c d) (h' : Lasts d e) : Lasts c e where
  pageSize := h'.pageSize.trans h.pageSize
  scale := h'.scale.trans h.scale
  cellMargin := h'.cellMargin.trans h.cellMargin
  pageCount := Nat.le_trans h.pageCount h'.pageCount
  error hc := (h'.error (h.error hc ▸ hc)).trans (h.error hc)
  ended he := by
    rcases h'.ended he with hd | hpaged
    · exact (h.ended hd).imp_right h'.paged
    · exact .inr hpaged

end Lasts

/-- A canvas that is set otherwise, with the same pages and the same font. -/
structure Kept (c d : Canvas K D) : Prop where
  device : d.device = c.device
  history : d.history = c.history
  pageCount : d.pageCount = c.pageCount
  font : d.graphics.font = c.graphics.font
  lasts : Lasts c d

theorem Kept.refl (c : Canvas K D) : Kept c c := ⟨rfl, rfl, rfl, rfl, .refl c⟩

theorem home_kept (c : Canvas K D) : Kept c c.home := ⟨rfl, rfl, rfl, rfl, .of_eq rfl rfl⟩

variable [Device K D Output]

theorem calls_puts (ms : List (Mark K)) (c : Canvas K D) :
    (c.puts ms).calls = c.calls ++ ms.map .mark := by
  rw [puts_eq]
  simp [calls, markCalls, Function.comp_def]

variable [Scalar K]

/-- From one canvas to another by demands that the device meets.  Only on a page is anything drawn,
and texts are drawn as cells lay them out. -/
inductive Course : Canvas K D → List (Demand K) → Canvas K D → Prop
  | trans {c d e : Canvas K D} {ds ds' : List (Demand K)} :
      Course c ds d → Course d ds' e → Course c (ds ++ ds') e
  | kept {c d : Canvas K D} : Kept c d → Course c [] d
  | setFont (family style : String) (size : K) (c : Canvas K D) :
      Course c [] (c.setFont family style size)
  | restore {c d : Canvas K D} {ds : List (Demand K)} :
      Course c ds d → Course c ds { d with graphics := c.graphics }
  | serve {c : Canvas K D} {demand : Demand K} {device : D} :
      demand.call? = none → demand.meet c.device = .ok device →
      Course c [demand] { c with device }
  | page (c : Canvas K D) :
      Course c [.draw (.page ⟨c.pageSize.width * c.scale, c.pageSize.height * c.scale⟩)] c.putPage
  | draw {c : Canvas K D} {call : Call K} {device : D} :
      0 < c.pageCount → (∀ size, call ≠ .page size) → call.font? = none →
      (Demand.draw call).meet c.device = .ok device →
      Course c [.draw call] ({ c with device }.note call)
  | content (cell : Cell K) (justify : Bool) (width : K) {c : Canvas K D} : 0 < c.pageCount →
      Course c (Demand.marks (c.contentMarks cell justify width))
        (c.puts (c.contentMarks cell justify width))

theorem advance_kept (cell : Cell K) (width : K) (c : Canvas K D) :
    Kept c (c.advance cell width) := by
  unfold advance
  dsimp only
  split <;> exact ⟨rfl, rfl, rfl, rfl, .of_eq rfl rfl⟩

theorem setFont_kept (family style : String) (size : K) (c : Canvas K D) :
    (c.setFont family style size).device = c.device ∧
      (c.setFont family style size).history = c.history ∧
      (c.setFont family style size).pageCount = c.pageCount := by
  unfold Canvas.setFont
  dsimp only
  split <;> exact ⟨rfl, rfl, rfl⟩

theorem setFont_lasts (family style : String) (size : K) (c : Canvas K D) :
    Lasts c (c.setFont family style size) := by
  unfold Canvas.setFont
  dsimp only
  split <;> exact .of_eq rfl rfl

namespace Course

variable {c d : Canvas K D} {ds : List (Demand K)}

/-- The device is what meeting the demands in their order makes of it. -/
theorem meets (h : Course c ds d) : Demand.meetAll ds c.device = .ok d.device := by
  induction h with
  | trans _ _ ih ih' => exact Demand.meetAll_append.mpr ⟨_, ih, ih'⟩
  | kept hkept => rw [hkept.device]; rfl
  | setFont family style size c => rw [(setFont_kept family style size c).1]; rfl
  | restore _ ih => exact ih
  | serve _ hmeet => rw [Demand.meetAll_singleton, hmeet]
  | page c => rfl
  | draw _ _ _ hmeet => rw [Demand.meetAll_singleton, hmeet]; rfl
  | content cell justify width _ => rw [Demand.meetAll_marks, puts_eq]

theorem calls_eq (h : Course c ds d) : d.calls = c.calls ++ ds.filterMap Demand.call? := by
  induction h with
  | trans _ _ ih ih' => rw [ih', ih, List.filterMap_append, List.append_assoc]
  | kept hkept => simp [calls, hkept.history]
  | setFont family style size c => simp [calls, (setFont_kept family style size c).2.1]
  | restore _ ih => exact ih
  | serve hcall _ => simp [calls, hcall]
  | page c => simp [calls, putPage, Canvas.note, Demand.call?]
  | draw _ _ _ _ => simp [calls, Canvas.note, Demand.call?]
  | content cell justify width _ => rw [calls_puts, Demand.filterMap_call?_marks]

theorem lasts (h : Course c ds d) : Lasts c d := by
  induction h with
  | trans _ _ ih ih' => exact ih.trans ih'
  | kept hkept => exact hkept.lasts
  | setFont family style size c => exact setFont_lasts family style size c
  | restore _ ih => exact ⟨ih.pageSize, ih.scale, ih.cellMargin, ih.pageCount, ih.error, ih.ended⟩
  | serve _ _ => exact .of_eq rfl rfl
  | page c => exact ⟨rfl, rfl, rfl, Nat.le_succ _, fun _ ↦ rfl, .inl⟩
  | draw _ _ _ _ => exact .of_eq rfl rfl
  | content cell justify width _ =>
      rw [puts_eq]
      exact .of_eq rfl rfl

/-- A text on the way was laid out on a canvas of the same course, some marks before. -/
theorem laidOut (h : Course c ds d) {before after : List (Demand K)} {m : Mark K}
    (hds : ds = before ++ .draw (.mark m) :: after) (hm : m.font?.isSome) :
    ∃ (l : Canvas K D) (earlier : List (Demand K)) (marks : List (Mark K)),
      before = earlier ++ Demand.marks marks ∧ Course c earlier l ∧
        ∃ cell justify width, m ∈ l.contentMarks cell justify width := by
  induction h generalizing before after with
  | @trans c d e ds ds' h _ ih ih' =>
      -- the text is in the second part, or the first part ends right before it, or it is in the
      -- first
      rcases List.append_eq_append_iff.mp hds with ⟨between, rfl, hright⟩ | ⟨between, rfl, hright⟩
      · obtain ⟨l, earlier, marks, rfl, hcourse, hdrawn⟩ := ih' hright
        exact ⟨l, ds ++ earlier, marks, (List.append_assoc _ _ _).symm, h.trans hcourse, hdrawn⟩
      · cases between with
        | nil =>
            have hfirst : ds' = [] ++ .draw (.mark m) :: after := hright.symm
            obtain ⟨l, earlier, marks, hempty, hcourse, hdrawn⟩ := ih' hfirst
            rw [List.append_nil] at h
            refine ⟨l, before ++ earlier, marks, ?_, h.trans hcourse, hdrawn⟩
            rw [List.append_assoc, ← hempty, List.append_nil]
        | cons demand between =>
            obtain ⟨rfl, -⟩ := List.cons.inj hright
            exact ih rfl
  | kept _ => simp at hds
  | setFont _ _ _ _ => simp at hds
  | restore _ ih => exact ih hds
  | serve hcall _ =>
      obtain ⟨rfl, hdemand⟩ := List.append_eq_singleton_iff.mp hds.symm |>.resolve_right (by simp)
      obtain ⟨rfl, -⟩ := List.cons.inj hdemand
      cases hcall
  | page c =>
      obtain ⟨rfl, hdemand⟩ := List.append_eq_singleton_iff.mp hds.symm |>.resolve_right (by simp)
      cases hdemand
  | draw _ _ hfont _ =>
      obtain ⟨rfl, hdemand⟩ := List.append_eq_singleton_iff.mp hds.symm |>.resolve_right (by simp)
      cases hdemand
      rw [show m.font? = none from hfont] at hm
      cases hm
  | @content cell justify width c _ =>
      obtain ⟨first, rest, hmarks, rfl, hrest⟩ := List.map_eq_append_iff.mp hds
      obtain ⟨m', after, rfl, hm', rfl⟩ := List.map_eq_cons_iff.mp hrest
      obtain rfl : m' = m := by simpa using hm'
      refine ⟨c, [], first, rfl, .kept (.refl c), cell, justify, width, ?_⟩
      rw [hmarks]
      simp

end Course

/-! ## Where courses lead -/

/-- The canvas `d` comes of `c` by some course. -/
def Reaches (c d : Canvas K D) : Prop := ∃ ds : List (Demand K), Course c ds d

theorem Kept.reaches {c d : Canvas K D} (h : Kept c d) : Reaches c d := ⟨[], .kept h⟩

namespace Reaches

variable {c d e : Canvas K D}

theorem trans (h : Reaches c d) (h' : Reaches d e) : Reaches c e := by
  obtain ⟨ds, hcourse⟩ := h
  obtain ⟨ds', hcourse'⟩ := h'
  exact ⟨ds ++ ds', hcourse.trans hcourse'⟩

theorem refl (c : Canvas K D) : Reaches c c := (Kept.refl c).reaches

theorem andThen (h : Reaches c d) (h' : Kept d e) : Reaches c e := h.trans h'.reaches

theorem restore (h : Reaches c d) : Reaches c { d with graphics := c.graphics } := by
  obtain ⟨ds, hcourse⟩ := h
  exact ⟨ds, hcourse.restore⟩

theorem lasts (h : Reaches c d) : Lasts c d := by
  obtain ⟨ds, hcourse⟩ := h
  exact hcourse.lasts

theorem onPage (h : Reaches c d) (hpage : 0 < c.pageCount) : 0 < d.pageCount :=
  Nat.lt_of_lt_of_le hpage h.lasts.pageCount

theorem put {m : Mark K} (hm : m.font? = none) (hpage : 0 < c.pageCount) : Reaches c (c.put m) :=
  ⟨_, .draw hpage nofun hm rfl⟩

theorem puts {ms : List (Mark K)} (hms : ∀ m ∈ ms, m.font? = none) (hpage : 0 < c.pageCount) :
    Reaches c (c.puts ms) := by
  induction ms generalizing c with
  | nil => exact refl c
  | cons m ms ih =>
      have hput : Reaches c (c.put m) := put (hms m List.mem_cons_self) hpage
      exact hput.trans (ih (fun m' hm' ↦ hms m' (List.mem_cons_of_mem m hm')) hpage)

theorem cellMarks (cell : Cell K) (justify : Bool) (width : K) (hpage : 0 < c.pageCount) :
    Reaches c (c.puts (c.cellMarks cell justify width)) := by
  have hbox : Reaches c (c.puts (c.boxMarks cell width)) :=
    puts (fun m hm ↦ font?_boxMarks hm) hpage
  rw [Canvas.cellMarks, puts_append]
  exact hbox.trans ⟨_, .content cell justify width (hbox.onPage hpage)⟩

theorem fail (failure : CanvasError) (c : Canvas K D) : Reaches c (c.fail failure) := by
  unfold Canvas.fail
  cases he : c.error with
  | some e => exact refl c
  | none =>
      have hfailed : Kept c { c with error := some failure } :=
        ⟨rfl, rfl, rfl, rfl, rfl, rfl, rfl, Nat.le_refl _, fun hsome ↦ by simp [he] at hsome, .inl⟩
      exact hfailed.reaches

theorem registerFont {family style : String} {data : ByteArray}
    (h : c.registerFont family style data = .ok d) : Reaches c d := by
  unfold Canvas.registerFont at h
  cases hregister : Device.registerFont (.ofText family style) data c.device with
  | error e => rw [hregister] at h; cases h
  | ok device =>
      rw [hregister] at h
      obtain rfl := Except.ok.inj h
      exact ⟨[.registerFont (.ofText family style) data], .serve rfl hregister⟩

theorem load {path : String} {pixels : Nat × Nat} {device : D}
    (h : Device.imageSize path c.device = .ok (pixels, device)) : Reaches c { c with device } := by
  refine ⟨[.imageSize path], .serve rfl ?_⟩
  rw [Demand.meet, h]
  rfl

theorem putPage (c : Canvas K D) : Reaches c c.putPage := ⟨_, .page c⟩

/-! ### Pages -/

section

variable {hook' : Origin → Canvas K D → Canvas K D} (hhook : ∀ band c, Reaches c (hook' band c))

include hhook

theorem ended (c : Canvas K D) :
    Reaches c (if 0 < c.pageCount then hook' .footer c else c) := by
  split
  · exact hhook .footer c
  · exact refl c

theorem turned (c : Canvas K D) :
    Reaches c { (if 0 < c.pageCount then hook' .footer c else c).putPage.home with
      graphics := c.graphics } :=
  (((ended hhook c).trans (putPage _)).andThen (home_kept _)).restore

theorem addPage (c : Canvas K D) : Reaches c (addPageWith hook' c) := by
  unfold addPageWith
  split
  · exact refl c
  · split
    · exact fail _ c
    · exact ((turned hhook c).trans (hhook .header _)).restore.andThen (home_kept _)

theorem addPage_pageCount {c : Canvas K D} (hc : (addPageWith hook' c).error = none) :
    0 < (addPageWith hook' c).pageCount := by
  unfold addPageWith at hc ⊢
  by_cases he : c.error.isSome = true
  · rw [if_pos he] at hc
    rw [hc] at he
    cases he
  · by_cases hclosed : c.closed = true
    · rw [if_neg he, if_pos hclosed] at hc
      exact absurd hc (fail_error _ _)
    · rw [if_neg he, if_neg hclosed]
      have hturned : 0 < (if 0 < c.pageCount then hook' .footer c else c).putPage.home.pageCount :=
        Nat.succ_pos _
      exact (hhook .header _).onPage hturned

theorem first (c : Canvas K D) :
    Reaches c (if c.pageCount = 0 then addPageWith hook' c else c) := by
  split
  · exact addPage hhook c
  · exact refl c

theorem first_paged (c : Canvas K D) :
    0 < (if c.pageCount = 0 then addPageWith hook' c else c).pageCount ∨
      (if c.pageCount = 0 then addPageWith hook' c else c).error.isSome := by
  split
  · cases he : (addPageWith hook' c).error with
    | none => exact .inl (addPage_pageCount hhook he)
    | some e => exact .inr rfl
  · next hpages => exact .inl (Nat.pos_of_ne_zero hpages)

theorem close (c : Canvas K D) : Reaches c (closeWith hook' c) := by
  unfold closeWith
  split
  · exact refl c
  · have hpaged := (hhook .footer _).lasts.paged (first_paged hhook c)
    exact ((first hhook c).trans (hhook .footer _)).andThen
      ⟨rfl, rfl, rfl, rfl, rfl, rfl, rfl, Nat.le_refl _, fun _ ↦ rfl, fun _ ↦ .inr hpaged⟩

theorem prepare (c : Canvas K D) : Reaches c (prepareWith hook' c).1 := by
  unfold prepareWith
  split
  · exact refl c
  · split
    · exact fail _ c
    · exact first hhook c

/-- A canvas on which drawing is possible has a page. -/
theorem prepare_pageCount {c : Canvas K D} (hpossible : (prepareWith hook' c).2 = true) :
    0 < (prepareWith hook' c).1.pageCount := by
  have hc := prepareWith_error hook' c hpossible
  unfold prepareWith at hpossible hc ⊢
  by_cases he : c.error.isSome = true
  · rw [if_pos he] at hpossible
    cases hpossible
  · by_cases hclosed : c.closed = true
    · rw [if_neg he, if_pos hclosed] at hpossible
      cases hpossible
    · rw [if_neg he, if_neg hclosed] at hc ⊢
      dsimp only at hc ⊢
      by_cases hpages : c.pageCount = 0
      · rw [if_pos hpages] at hc ⊢
        exact addPage_pageCount hhook hc
      · rw [if_neg hpages]
        exact Nat.pos_of_ne_zero hpages

theorem prepared (c : Canvas K D) (f : Canvas K D → Canvas K D)
    (hf : ∀ d, 0 < d.pageCount → Reaches d (f d)) :
    Reaches c (if (prepareWith hook' c).2 then f (prepareWith hook' c).1
      else (prepareWith hook' c).1) := by
  split
  · next hpossible =>
      exact (prepare hhook c).trans (hf _ (prepare_pageCount hhook hpossible))
  · exact prepare hhook c

/-! ### Cells -/

theorem turn (height : K) (c : Canvas K D) : Reaches c (turnWith hook' height c) := by
  unfold turnWith
  split
  · exact (addPage hhook c).andThen ⟨rfl, rfl, rfl, rfl, .of_eq rfl rfl⟩
  · exact refl c

theorem drawCell (cell : Cell K) (justify : Bool) (hpage : 0 < c.pageCount) :
    Reaches c (drawCellWith hook' cell justify c) := by
  have hturn : Reaches c (turnWith hook' cell.height c) := turn hhook cell.height c
  rw [drawCellWith_eq]
  exact (hturn.trans (cellMarks _ _ _ (hturn.onPage hpage))).andThen (advance_kept _ _ _)

theorem drawRow (x : K) (row : Cell K) (justify : Bool) (hpage : 0 < c.pageCount) :
    Reaches c (drawCellWith hook' row justify { c with x }) := by
  have hmoved : Kept c { c with x } := ⟨rfl, rfl, rfl, rfl, .of_eq rfl rfl⟩
  exact hmoved.reaches.trans (drawCell hhook row justify hpage)

theorem drawRows (cell : Cell K) (width x : K) (first : Bool) (lines : List WrappedLine)
    (hpage : 0 < c.pageCount) : Reaches c (Canvas.drawRows hook' cell width x first lines c) := by
  induction lines generalizing first c with
  | nil => exact refl c
  | cons line lines ih =>
      have hrow := fun row justify ↦ drawRow hhook x row justify hpage
      exact (hrow _ _).trans (ih false ((hrow _ _).onPage hpage))

theorem multiCell (cell : Cell K) (c : Canvas K D) : Reaches c (multiCellWith hook' cell c) := by
  let filled (d : Canvas K D) : Canvas K D :=
    Canvas.drawRows hook' cell (d.widthOf cell) d.x true
      (Wrap.lines (d.widthOf cell - 2 * d.cellMargin) (fun cs ↦ d.stringWidth (String.ofList cs))
        cell.text.toList) d
  exact prepared hhook c (fun d ↦ { filled d with x := (filled d).margins.left }) fun d hpage ↦
    (drawRows hhook cell _ _ _ _ hpage).andThen ⟨rfl, rfl, rfl, rfl, .of_eq rfl rfl⟩

/-! ### Images -/

omit hhook in
theorem measure (path : String) (width height : K) (c : Canvas K D) :
    Reaches c (Canvas.measure path width height c).1 := by
  unfold Canvas.measure
  split
  · exact fail _ _
  · next hload =>
      dsimp only
      split
      · exact (load hload).trans (fail _ _)
      · exact load hload

theorem imageExtent (path : String) (width height : K) (c : Canvas K D) :
    Reaches c (imageExtentWith hook' path width height c).1 := by
  rw [imageExtentWith_eq]
  split
  · exact (prepare hhook c).trans (measure path width height _)
  · exact prepare hhook c

theorem imageExtent_pageCount (path : String) (width height : K) (c : Canvas K D)
    (hextent : (imageExtentWith hook' path width height c).2.isSome) :
    0 < (imageExtentWith hook' path width height c).1.pageCount := by
  rw [imageExtentWith_eq] at hextent ⊢
  split at hextent
  · next hpossible =>
      rw [if_pos hpossible]
      exact (measure path width height _).onPage (prepare_pageCount hhook hpossible)
  · cases hextent

omit hhook in
theorem place (path : String) (x y : K) {p : Canvas K D × Option (K × K)}
    (hpage : p.2.isSome → 0 < p.1.pageCount) : Reaches p.1 (Canvas.place path x y p).1 := by
  obtain ⟨c, _ | ⟨w, h⟩⟩ := p
  · exact refl c
  · unfold Canvas.place
    dsimp only
    split
    · exact fail _ c
    · next himage => exact ⟨_, .draw (hpage rfl) nofun rfl himage⟩

theorem image (path : String) (x y width height : K) (c : Canvas K D) :
    Reaches c (imageWith hook' path x y width height c).1 :=
  (imageExtent hhook path width height c).trans
    (place path x y (imageExtent_pageCount hhook path width height c))

omit hhook in
theorem flowEnd (y spacing : K) (p : Canvas K D × Option (K × K)) :
    Reaches p.1 (Canvas.flowEnd y spacing p) := by
  obtain ⟨d, _ | ⟨w, h⟩⟩ := p
  · exact refl d
  · unfold Canvas.flowEnd
    dsimp only
    split <;> split <;> exact Kept.reaches ⟨rfl, rfl, rfl, rfl, .of_eq rfl rfl⟩

theorem flowImage (path : String) (align : Option Align) (x y width height spacing : K)
    (c : Canvas K D) : Reaches c (flowImageWith hook' path align x y width height spacing c) := by
  have hstart : Reaches c (flowStart hook' path align width height c).1 := by
    unfold flowStart
    split
    · exact imageExtent hhook path width height c
    · exact refl c
  rw [flowImageWith_eq]
  split
  · next heq =>
      rw [heq] at hstart
      exact hstart
  · next heq =>
      rw [heq] at hstart
      exact (hstart.trans (image hhook path _ _ width height _)).trans (flowEnd _ _ _)

/-! ### Steps -/

theorem step (s : Step K) (c : Canvas K D) : Reaches c (stepWith hook' s c) := by
  cases s with
  | setMargins | setAutoBreak | setInfo | decorate | undecorate | setTextColor | setFillColor
  | setDrawColor | setLineWidth | setX | setY | lineFeed | warn =>
      exact Kept.reaches ⟨rfl, rfl, rfl, rfl, .of_eq rfl rfl⟩
  | registerFont family style data =>
      unfold stepWith
      dsimp only
      split
      · next hregister => exact registerFont hregister
      · exact refl c
  | setFont family style size => exact ⟨[], .setFont family style size c⟩
  | addPage => exact addPage hhook c
  | cell cell => exact prepared hhook c _ fun d ↦ drawCell hhook cell false
  | multiCell cell => exact multiCell hhook cell c
  | line | rect => exact prepared hhook c _ fun d ↦ put rfl
  | image path x y width height => exact image hhook path x y width height c
  | imageExtent path width height => exact imageExtent hhook path width height c
  | flowImage path align x y width height spacing =>
      exact flowImage hhook path align x y width height spacing c
  | close => exact close hhook c

theorem steps (steps : List (Step K)) (c : Canvas K D) :
    Reaches c (steps.foldl (fun c s ↦ stepWith hook' s c) c) := by
  induction steps generalizing c with
  | nil => exact refl c
  | cons s steps ih => exact (step hhook s c).trans (ih _)

end

theorem hookAt (depth : Nat) (band : Origin) (c : Canvas K D) :
    Reaches c (Canvas.hookAt depth band c) := by
  -- a band that is drawn in a band is one level deeper
  induction depth generalizing band c with
  | zero => exact refl c
  | succ depth ih =>
      rw [Canvas.hookAt]
      split
      · exact refl c
      · next d _ =>
          have hband : Reaches c { c with origin := band } :=
            Kept.reaches ⟨rfl, rfl, rfl, rfl, .of_eq rfl rfl⟩
          exact (hband.trans (steps ih (bandSteps d band) _)).andThen
            ⟨rfl, rfl, rfl, rfl, .of_eq rfl rfl⟩

theorem stepped (s : Step K) (c : Canvas K D) : Reaches c (c.step s) :=
  step (fun band c ↦ hookAt _ band c) s c

theorem closed (c : Canvas K D) : Reaches c c.close := close (fun band c ↦ hookAt _ band c) c

/-- Whatever is done with a canvas, there is a course to what becomes of it. -/
theorem run (steps : List (Step K)) (c : Canvas K D) : Reaches c (c.run steps) :=
  Reaches.steps (fun band c ↦ hookAt _ band c) steps c

end Reaches

/-! ## Texts among demands -/

/-- A mark is of a cell that was laid out on this canvas, after all demands but for some marks. -/
structure LaysOut (l : Canvas K D) (d : D) (before : List (Demand K)) (m : Mark K) : Prop where
  measured : ∃ earlier marks,
    before = earlier ++ Demand.marks marks ∧ Demand.meetAll earlier d = .ok l.device
  drawn : ∃ cell justify width, m ∈ l.contentMarks cell justify width

theorem LaysOut.font {l : Canvas K D} {d : D} {before : List (Demand K)} {m : Mark K}
    (h : l.LaysOut d before m) {font : FontKey × K} (hfont : m.font? = some font) :
    font = (l.graphics.font.key, l.graphics.font.size) := by
  obtain ⟨cell, justify, width, hm⟩ := h.drawn
  exact font?_contentMarks hm hfont

/-- Every text among demands on a device was laid out by a cell. -/
def TextsLaidOut (d : D) (demands : List (Demand K)) : Prop :=
  ∀ before m after, demands = before ++ .draw (.mark m) :: after → m.font?.isSome →
    ∃ l : Canvas K D, l.LaysOut d before m

/-- A canvas that comes of another by demands on its device that are met. -/
def Demands (c d : Canvas K D) : Prop :=
  ∃ demands : List (Demand K), Demand.meetAll demands c.device = .ok d.device ∧
    d.calls = c.calls ++ demands.filterMap Demand.call? ∧ TextsLaidOut c.device demands

theorem Course.demands {c d : Canvas K D} {ds : List (Demand K)} (h : Course c ds d) :
    Demands c d := by
  refine ⟨ds, h.meets, h.calls_eq, fun before m after hds hm ↦ ?_⟩
  obtain ⟨l, earlier, marks, hbefore, hcourse, hdrawn⟩ := h.laidOut hds hm
  exact ⟨l, ⟨earlier, marks, hbefore, hcourse.meets⟩, hdrawn⟩

/-- Whatever is done with a canvas, its device meets a list of demands. -/
theorem Demands.run (steps : List (Step K)) (c : Canvas K D) : Demands c (c.run steps) := by
  obtain ⟨ds, hcourse⟩ := Reaches.run steps c
  exact hcourse.demands

end Canvas

end PagedReport
