import PagedReport.Proofs.Canvas.Courses
import PagedReport.Proofs.Canvas.Frozen

/-!
# What a device may rely on

Before anything is drawn on a device it begins a page, of the size of the document, and it is only
finished with a page on it and no error.  Most of this is read off the courses of a canvas.  A call
that a device refuses leaves no trace in a course; for these there is a device that takes note of
whatever comes too early.
-/

namespace PagedReport

variable {K D Output : Type}

def Call.isPage : Call K → Bool
  | .page _ => true
  | _ => false

/-! ## A device that watches -/

/-- A device with the sizes of its pages, and with all that it was asked to draw before the first,
whether `D` would have refused it or not. -/
structure Watching (K D : Type) where
  device : D
  pages : List (Size K) := []
  early : List (Call K) := []

namespace Watching

/-- Takes note of a call if it is too early. -/
def receive (call : Call K) (w : Watching K D) : Watching K D :=
  if w.pages.isEmpty then { w with early := w.early ++ [call] } else w

variable [Device K D Output]

instance : Device K (Watching K D) Output where
  registerFont key data w :=
    (Device.registerFont key data w.device).map fun device ↦ { w with device }
  hasFont w := Device.hasFont w.device
  textWidth w := Device.textWidth w.device
  imageSize path w :=
    (Device.imageSize path w.device).map fun (pixels, device) ↦ (pixels, { w with device })
  beginPage size w :=
    { w with device := Device.beginPage size w.device, pages := w.pages ++ [size] }
  mark m w := { w.receive (.mark m) with device := Device.mark m w.device }
  image path place w :=
    match Device.image path place w.device with
    | .ok device => .ok { w.receive (.image path place) with device }
    | .error e => if w.pages.isEmpty then .ok (w.receive (.image path place)) else .error e
  finish info sink w :=
    (Device.finish info sink w.device).map fun (output, device) ↦ (output, { w with device })

/-- Only the start of a page, and what comes before it, is seen to. -/
theorem meet_kept {demand : Demand K} {w w' : Watching K D}
    (h : demand.meet w = .ok w') (hdemand : ∀ size, demand ≠ .draw (.page size))
    (hpages : demand.call? = none ∨ w.pages.isEmpty = false) :
    w'.pages = w.pages ∧ w'.early = w.early := by
  have hpage {call : Call K} (hcall : demand.call? = some call) : w.pages.isEmpty = false :=
    hpages.resolve_left (by simp [hcall])
  have hreceive {call : Call K} (hcall : demand.call? = some call) : w.receive call = w := by
    rw [receive, hpage hcall]
    rfl
  cases demand with
  | registerFont key data =>
      change (Device.registerFont key data w.device).map _ = _ at h
      cases hfont : Device.registerFont key data w.device with
      | error e => rw [hfont] at h; cases h
      | ok device => rw [hfont] at h; exact Except.ok.inj h ▸ ⟨rfl, rfl⟩
  | imageSize path =>
      change ((Device.imageSize path w.device).map _).map _ = _ at h
      cases hsize : Device.imageSize path w.device with
      | error e => rw [hsize] at h; cases h
      | ok loaded => rw [hsize] at h; exact Except.ok.inj h ▸ ⟨rfl, rfl⟩
  | draw call =>
      cases call with
      | page size => exact absurd rfl (hdemand size)
      | mark m =>
          change Except.ok { w.receive (.mark m) with device := Device.mark m w.device } = _ at h
          rw [hreceive rfl] at h
          exact Except.ok.inj h ▸ ⟨rfl, rfl⟩
      | image path place =>
          simp only [Demand.meet, Device.image, hreceive rfl, hpage rfl] at h
          split at h
          · exact Except.ok.inj h ▸ ⟨rfl, rfl⟩
          · cases h

theorem finish_kept {info : DocumentInfo} {sink : Sink} {output : Output}
    {w w' : Watching K D} (h : Device.finish info sink w = .ok (output, w')) :
    w'.pages = w.pages ∧ w'.early = w.early := by
  change (Device.finish info sink w.device).map _ = _ at h
  cases hfinish : Device.finish info sink w.device with
  | error e => rw [hfinish] at h; cases h
  | ok finished =>
      rw [hfinish] at h
      obtain ⟨-, rfl⟩ := Prod.mk.inj (Except.ok.inj h)
      exact ⟨rfl, rfl⟩

end Watching

namespace Canvas

variable [Scalar K]

/-- The size of the pages of a canvas in points. -/
def paper (c : Canvas K D) : Size K := ⟨c.pageSize.width * c.scale, c.pageSize.height * c.scale⟩

theorem Lasts.paper_eq {c d : Canvas K D} (h : Lasts c d) : d.paper = c.paper := by
  rw [paper, h.pageSize, h.scale, paper]

variable [Device K D Output]

/-! ## Pages among calls -/

/-- A canvas whose device has received a page for each one that was counted, and a page first. -/
structure Paged (c : Canvas K D) : Prop where
  pages : c.calls.filter Call.isPage = List.replicate c.pageCount (.page c.paper)
  first : ∀ call ∈ c.calls.head?, call = .page c.paper

namespace Paged

variable {c d : Canvas K D}

theorem of_eq (h : Paged c) (hcalls : d.calls = c.calls) (hpages : d.pageCount = c.pageCount)
    (hpaper : d.paper = c.paper) : Paged d := by
  refine ⟨?_, ?_⟩
  · rw [hcalls, hpages, hpaper, h.pages]
  · rw [hcalls, hpaper]
    exact h.first

theorem calls_ne_nil (h : Paged c) (hpage : 0 < c.pageCount) : c.calls ≠ [] := by
  intro hcalls
  have hpages := h.pages
  rw [hcalls, List.filter_nil] at hpages
  have hnone := congrArg List.length hpages
  rw [List.length_replicate, List.length_nil] at hnone
  omega

/-- Anything may be drawn once there is a page. -/
theorem draw (h : Paged c) (hpage : 0 < c.pageCount) {calls : List (Call K)}
    (hcalls : d.calls = c.calls ++ calls) (hdrawn : ∀ call ∈ calls, call.isPage = false)
    (hpages : d.pageCount = c.pageCount) (hpaper : d.paper = c.paper) : Paged d := by
  refine ⟨?_, ?_⟩
  · have hnone : calls.filter Call.isPage = [] := by simpa using hdrawn
    rw [hcalls, List.filter_append, hnone, List.append_nil, hpages, hpaper, h.pages]
  · rw [hcalls, List.head?_append_of_ne_nil _ (h.calls_ne_nil hpage), hpaper]
    exact h.first

theorem putPage (h : Paged c) : Paged c.putPage := by
  have hcalls : c.putPage.calls = c.calls ++ [.page c.paper] := by
    simp [calls, Canvas.putPage, Canvas.note, paper]
  refine ⟨?_, fun call hcall ↦ ?_⟩
  · rw [hcalls, List.filter_append, h.pages]
    exact (List.replicate_succ').symm
  · rw [hcalls] at hcall
    cases hc : c.calls with
    | nil =>
        rw [hc] at hcall
        exact (Option.mem_some_iff.mp hcall).symm
    | cons first rest =>
        rw [hc] at hcall
        exact h.first call (hc ▸ hcall)

end Paged

theorem Course.paged {c d : Canvas K D} {ds : List (Demand K)} (h : Course c ds d)
    (hc : Paged c) : Paged d := by
  induction h with
  | trans _ _ ih ih' => exact ih' (ih hc)
  | kept hkept =>
      exact hc.of_eq (congrArg (·.toList.map (·.2)) hkept.history) hkept.pageCount
        hkept.lasts.paper_eq
  | setFont family style size c =>
      obtain ⟨-, hhistory, hpages⟩ := setFont_kept family style size c
      exact hc.of_eq (congrArg (·.toList.map (·.2)) hhistory) hpages
        (setFont_lasts family style size c).paper_eq
  | restore _ ih => exact (ih hc).of_eq rfl rfl rfl
  | serve _ _ => exact hc.of_eq rfl rfl rfl
  | page c => exact hc.putPage
  | @draw c call device hpage hcall _ _ =>
      have hcalls : ({ c with device }.note call).calls = c.calls ++ [call] := by
        simp [calls, Canvas.note]
      refine hc.draw hpage hcalls (fun call' hcall' ↦ ?_) rfl rfl
      rw [List.mem_singleton.mp hcall']
      cases call with
      | page size => exact absurd rfl (hcall size)
      | mark m => rfl
      | image path place => rfl
  | content cell justify width hpage =>
      refine hc.draw hpage (calls_puts _ _) (fun call hcall ↦ ?_) ?_ ?_
      · obtain ⟨m, -, rfl⟩ := List.mem_map.mp hcall
        rfl
      · rw [puts_eq]
      · rw [puts_eq]
        rfl

/-! ## Calls that come too early -/

/-- A canvas whose device has begun all pages that were counted and received nothing before them. -/
structure Watched (c : Canvas K (Watching K D)) : Prop where
  pages : c.device.pages = List.replicate c.pageCount c.paper
  early : c.device.early = []

namespace Watched

variable {c d : Canvas K (Watching K D)}

theorem of_eq (h : Watched c) (hpages : d.device.pages = c.device.pages)
    (hearly : d.device.early = c.device.early) (hcount : d.pageCount = c.pageCount)
    (hpaper : d.paper = c.paper) : Watched d := by
  refine ⟨?_, hearly.trans h.early⟩
  rw [hpages, hcount, hpaper, h.pages]

theorem isEmpty_pages (h : Watched c) (hpage : 0 < c.pageCount) :
    c.device.pages.isEmpty = false := by
  rw [h.pages, List.isEmpty_replicate]
  simp [Nat.ne_of_gt hpage]

theorem puts (h : Watched c) (hpage : 0 < c.pageCount) (ms : List (Mark K)) :
    Watched (c.puts ms) := by
  induction ms generalizing c with
  | nil => exact h
  | cons m ms ih =>
      have hmeet : (Demand.draw (.mark m)).meet c.device = .ok (c.put m).device := rfl
      obtain ⟨hpages, hearly⟩ := Watching.meet_kept hmeet nofun (.inr (h.isEmpty_pages hpage))
      exact ih (h.of_eq hpages hearly rfl rfl) hpage

end Watched

theorem Course.watched {c d : Canvas K (Watching K D)} {ds : List (Demand K)} (h : Course c ds d)
    (hc : Watched c) : Watched d := by
  induction h with
  | trans _ _ ih ih' => exact ih' (ih hc)
  | kept hkept =>
      exact hc.of_eq (congrArg _ hkept.device) (congrArg _ hkept.device) hkept.pageCount
        hkept.lasts.paper_eq
  | setFont family style size c =>
      obtain ⟨hdevice, -, hpages⟩ := setFont_kept family style size c
      exact hc.of_eq (congrArg _ hdevice) (congrArg _ hdevice) hpages
        (setFont_lasts family style size c).paper_eq
  | restore _ ih => exact (ih hc).of_eq rfl rfl rfl rfl
  | serve hcall hmeet =>
      obtain ⟨hpages, hearly⟩ := Watching.meet_kept hmeet
        (fun size heq ↦ by simp [heq, Demand.call?] at hcall) (.inl hcall)
      exact hc.of_eq hpages hearly rfl rfl
  | page c =>
      refine ⟨?_, hc.early⟩
      have hpages : c.putPage.device.pages = c.device.pages ++ [c.paper] := rfl
      rw [hpages, hc.pages]
      exact List.replicate_succ'.symm
  | @draw c call device hpage hcall _ hmeet =>
      obtain ⟨hpages, hearly⟩ := Watching.meet_kept hmeet
        (fun size heq ↦ hcall size (Demand.draw.inj heq)) (.inr (hc.isEmpty_pages hpage))
      exact hc.of_eq hpages hearly rfl rfl
  | content cell justify width hpage => exact hc.puts hpage _

/-! ## Footers -/

section

variable {hook' hook'' : Origin → Canvas K D → Canvas K D}

/-- Bands are drawn only where pages start and where the document ends. -/
theorem stepWith_congr (hpage : addPageWith hook' = addPageWith hook'')
    (hclose : closeWith hook' = closeWith hook'') (s : Step K) :
    stepWith hook' s = stepWith hook'' s := by
  have hprepare : prepareWith hook' = prepareWith hook'' := by
    funext c
    unfold prepareWith
    rw [hpage]
  have hdraw (cell : Cell K) (justify : Bool) :
      drawCellWith hook' cell justify = drawCellWith hook'' cell justify := by
    funext c
    unfold drawCellWith
    rw [hpage]
  have hrows (cell : Cell K) (width x : K) (first : Bool) (lines : List WrappedLine)
      (c : Canvas K D) :
      drawRows hook' cell width x first lines c = drawRows hook'' cell width x first lines c := by
    induction lines generalizing first c with
    | nil => rfl
    | cons line lines ih => rw [drawRows, drawRows, hdraw, ih]
  have hextent : imageExtentWith hook' = imageExtentWith hook'' := by
    funext path width height c
    unfold imageExtentWith
    rw [hprepare]
  have himage : imageWith hook' = imageWith hook'' := by
    funext path x y width height c
    unfold imageWith
    rw [hextent]
  funext c
  cases s with
  | setMargins | setAutoBreak | setInfo | decorate | undecorate | registerFont | setFont
  | setTextColor | setFillColor | setDrawColor | setLineWidth | setX | setY | lineFeed | warn => rfl
  | addPage => exact congrFun hpage c
  | cell cell => simp only [stepWith, cellWith, hprepare, hdraw]
  | multiCell cell => simp only [stepWith, multiCellWith, hprepare, hrows]
  | line => simp only [stepWith, lineWith, hprepare]
  | rect => simp only [stepWith, rectWith, hprepare]
  | image => simp only [stepWith, himage]
  | imageExtent => simp only [stepWith, hextent]
  | flowImage => simp only [stepWith, flowImageWith, hextent, himage]
  | close => exact congrFun hclose c

/-- What would be done for a footer without a page and without an error makes no difference. -/
theorem stepWith_footer (hreaches : ∀ band c, Reaches c (hook'' band c))
    (hhook : ∀ band c, (band = .footer → 0 < c.pageCount ∨ c.error.isSome) →
      hook' band c = hook'' band c) (s : Step K) : stepWith hook' s = stepWith hook'' s := by
  have hpage : addPageWith hook' = addPageWith hook'' := by
    funext c
    have hended : (if 0 < c.pageCount then hook' .footer c else c) =
        (if 0 < c.pageCount then hook'' .footer c else c) := by
      split
      · next hpage => exact hhook .footer c fun _ ↦ .inl hpage
      · rfl
    unfold addPageWith
    dsimp only
    rw [hended, hhook .header _ nofun]
  have hclose : closeWith hook' = closeWith hook'' := by
    funext c
    unfold closeWith
    dsimp only
    rw [hpage, hhook .footer _ fun _ ↦ Reaches.first_paged hreaches c]
  exact stepWith_congr hpage hclose s

end

/-! ## Operations -/

theorem close_isClosed (c : Canvas K D) : c.close.closed = true := by
  unfold close closeWith
  split
  · next hclosed => exact hclosed
  · rfl

/-- What courses and finishing keep is kept by all operations. -/
theorem operateAll_keeps {P : Canvas K D → Prop} (hcourse : ∀ {c d}, Reaches c d → P c → P d)
    (hfinish : ∀ {c sink output device},
      Device.finish c.info sink c.device = .ok (output, device) → P c → P { c with device })
    (operations : List (Operation K)) {c : Canvas K D} (hc : P c) :
    P (c.operateAll operations) := by
  induction operations generalizing c with
  | nil => exact hc
  | cons o operations ih =>
      refine ih (c := c.operate o) ?_
      cases o with
      | step s => exact hcourse (.stepped s c) hc
      | write sink =>
          have hclose := hcourse (.closed c) hc
          unfold operate write
          dsimp only
          split
          · exact hclose
          · split
            · exact hclose
            · next hfinished => exact hfinish hfinished hclose

/-- A document is finished only when it is closed and has a page and no error. -/
theorem write_cases {b c : Canvas K D} (hb : b.closed = false) (h : Lasts b c) (sink : Sink) :
    (∃ e, c.close.error = some e ∧ c.write sink = (c.close, .error e)) ∨
      c.close.closed = true ∧ 0 < c.close.pageCount ∧ c.close.error = none ∧
        c.write sink =
          match Device.finish c.close.info sink c.close.device with
          | .error e => (c.close, .error e)
          | .ok (output, device) => ({ c.close with device }, .ok output) := by
  have hlasts := h.trans (Reaches.closed c).lasts
  cases he : c.close.error with
  | some e =>
      refine .inl ⟨e, rfl, ?_⟩
      simp only [write, he]
  | none =>
      have hpaged := (hlasts.ended (close_isClosed c)).resolve_left (by simp [hb])
      refine .inr ⟨close_isClosed c, hpaged.resolve_right (by simp [he]), rfl, ?_⟩
      cases hfinish : Device.finish c.close.info sink c.close.device with
      | error e => simp only [write, he, hfinish]
      | ok finished => simp only [write, he, hfinish]

/-- Whatever is done with a new canvas, its device begins a page before anything is drawn, each page
has the size of the document and is counted, and nothing that the device would refuse comes before
the first page either.  A step only makes demands on the device, and the device is finished when the
document is written, is closed, has a page and has no error.  No footer is ever drawn without a page
or an error. -/
theorem operateAll_protocol (device : D) (setup : PageSetup K) (operations : List (Operation K)) :
    let paper : Size K :=
      ⟨setup.pageSize.width * setup.unit.points, setup.pageSize.height * setup.unit.points⟩
    let c := (new device setup).operateAll operations
    let w := (new (⟨device, [], []⟩ : Watching K D) setup).operateAll operations
    (c.calls.filter Call.isPage = List.replicate c.pageCount (.page paper) ∧
        ∀ call ∈ c.calls.head?, call = .page paper) ∧
      (w.device.pages = List.replicate w.pageCount paper ∧ w.device.early = []) ∧
      (∀ s, Demands c (c.step s)) ∧
      (∀ sink, (∃ e, c.close.error = some e ∧ c.write sink = (c.close, .error e)) ∨
        c.close.closed = true ∧ 0 < c.close.pageCount ∧ c.close.error = none ∧
          c.write sink =
            match Device.finish c.close.info sink c.close.device with
            | .error e => (c.close, .error e)
            | .ok (output, device) => ({ c.close with device }, .ok output)) ∧
      ∀ depth (hook' : Origin → Canvas K D → Canvas K D),
        (∀ band c, (band = .footer → 0 < c.pageCount ∨ c.error.isSome) →
          hook' band c = hookAt depth band c) →
        ∀ s c, stepWith hook' s c = stepWith (hookAt depth) s c := by
  intro paper c w
  have hlasts {D' : Type} [Device K D' Output] (device : D') :
      Lasts (new device setup) ((new device setup).operateAll operations) :=
    operateAll_keeps (fun h hc ↦ hc.trans h.lasts) (fun _ hc ↦ hc.trans (.of_eq rfl rfl))
      operations (.refl _)
  refine ⟨?_, ?_, fun s ↦ Demands.run [s] c, fun sink ↦ write_cases rfl (hlasts device) sink,
    fun depth hook' hhook s c ↦ congrFun (stepWith_footer (.hookAt depth) hhook s) c⟩
  · have hpaged : Paged c := operateAll_keeps (fun ⟨_, h⟩ hc ↦ h.paged hc)
      (fun _ hc ↦ hc.of_eq rfl rfl rfl) operations ⟨rfl, nofun⟩
    have hpaper : c.paper = paper := (hlasts device).paper_eq
    rw [← hpaper]
    exact ⟨hpaged.pages, hpaged.first⟩
  · have hwatched : Watched w := operateAll_keeps (fun ⟨_, h⟩ hc ↦ h.watched hc)
      (fun h hc ↦ hc.of_eq (Watching.finish_kept h).1 (Watching.finish_kept h).2 rfl rfl)
      operations ⟨rfl, rfl⟩
    have hpaper : w.paper = paper := (hlasts _).paper_eq
    rw [← hpaper]
    exact ⟨hwatched.pages, hwatched.early⟩

end Canvas

end PagedReport
