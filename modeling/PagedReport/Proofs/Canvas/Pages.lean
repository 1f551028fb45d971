import PagedReport.Proofs.Canvas.Bands

/-!
# Documents as pages

What a canvas has drawn is a list of complete pages and a last page that still lacks its footer.
Drawing goes on with the last page, starting a page completes it, and so does closing the document.
-/

namespace PagedReport

open Canvas

variable {K D Output : Type}

/-- A page and what is drawn on it. -/
structure DrawnPage (K : Type) where
  size : Size K
  header : List (Call K)
  body : List (Call K)
  footer : List (Call K) := []

namespace DrawnPage

def start (p : DrawnPage K) : Origin × Call K := (.body, .page p.size)

def top (p : DrawnPage K) : List (Origin × Call K) :=
  p.start :: on .header p.header ++ on .body p.body

def calls (p : DrawnPage K) : List (Origin × Call K) := p.top ++ on .footer p.footer

end DrawnPage

section

variable (D) [Scalar K] [Device K D Output]

/-- A page that starts with one run of the header and ends with one run of the footer, and on which
no other page is started. -/
structure DrawnPage.Complete (frame : Frame K) (before : List (Origin × Call K))
    (p : DrawnPage K) : Prop where
  size : p.size = frame.deviceSize
  header : BandRun D frame .header (before ++ [p.start]) p.header
  footer : BandRun D frame .footer (before ++ p.top) p.footer
  no_page : ∀ size, .page size ∉ p.header ++ p.body ++ p.footer

/-- Pages of one frame that are numbered from one, each complete after those before it. -/
def CompletePages (frame : Frame K) (pages : List (DrawnPage K)) : Prop :=
  ∀ i (hi : i < pages.length),
    pages[i].Complete D { frame with pageCount := i + 1 }
      ((pages.take i).flatMap DrawnPage.calls)

/-- Pages are numbered by themselves. -/
theorem CompletePages.of_eq {frame frame' : Frame K} {pages : List (DrawnPage K)}
    (h : CompletePages D frame pages) {pageCount : Nat} (heq : frame' = { frame with pageCount }) :
    CompletePages D frame' pages := by
  rw [heq]
  exact h

theorem CompletePages.concat {frame : Frame K} {pages : List (DrawnPage K)}
    (h : CompletePages D frame pages) {p : DrawnPage K}
    (hp : p.Complete D { frame with pageCount := pages.length + 1 }
      (pages.flatMap DrawnPage.calls)) : CompletePages D frame (pages ++ [p]) := by
  intro i hi
  rw [List.length_append, List.length_singleton] at hi
  rcases Nat.lt_or_eq_of_le (Nat.lt_succ_iff.mp hi) with hlt | rfl
  · rw [List.getElem_append_left hlt, List.take_append_of_le_length (Nat.le_of_lt hlt)]
    exact h i hlt
  · simpa using hp

end

/-! ## The page that is drawn on -/

variable [Scalar K] [Device K D Output]

/-- A canvas that has drawn complete pages and is drawing one more. -/
structure Drawn (pages : List (DrawnPage K)) (last : DrawnPage K) (c : Canvas K D) : Prop where
  complete : CompletePages D c.frame pages
  size : last.size = c.frame.deviceSize
  history : c.history.toList = pages.flatMap DrawnPage.calls ++ last.top
  pageCount : c.pageCount = pages.length + 1
  header : BandRun D c.frame .header
    (pages.flatMap DrawnPage.calls ++ [last.start]) last.header
  no_page : ∀ size, .page size ∉ last.header ++ last.body

namespace Drawn

variable {pages : List (DrawnPage K)} {last : DrawnPage K} {c d : Canvas K D}

theorem note (h : Drawn pages last c) (hc : c.origin = .body) (device : D) {call : Call K}
    (hcall : ∀ size, call ≠ .page size) :
    Drawn pages { last with body := last.body ++ [call] } ({ c with device }.note call) := by
  refine ⟨h.complete, h.size, ?_, h.pageCount, h.header, fun size ↦ ?_⟩
  · simp [Canvas.note, h.history, DrawnPage.top, DrawnPage.start, on, hc]
  · have hlast := h.no_page size
    simp only [List.mem_append, List.mem_singleton, not_or] at hlast ⊢
    exact ⟨hlast.1, hlast.2, (hcall size).symm⟩

/-- The footer completes the last page. -/
theorem complete_concat (h : Drawn pages last c) {footer : List (Call K)}
    (hfooter : BandRun D c.frame .footer c.history.toList footer)
    (hno_page : ∀ size, .page size ∉ footer) :
    CompletePages D c.frame (pages ++ [{ last with footer }]) := by
  have hframe : { c.frame with pageCount := pages.length + 1 } = c.frame := by
    rw [← h.pageCount]
    rfl
  refine h.complete.concat D ⟨h.size, ?_, ?_, fun size ↦ ?_⟩
  · rw [hframe]
    exact h.header
  · rw [hframe]
    rw [h.history] at hfooter
    exact hfooter
  · rw [List.mem_append, not_or]
    exact ⟨h.no_page size, hno_page size⟩

theorem history_concat (h : Drawn pages last c) (footer : List (Call K)) :
    c.history.toList ++ on .footer footer =
      (pages ++ [{ last with footer }]).flatMap DrawnPage.calls := by
  rw [h.history, List.flatMap_append, List.append_assoc]
  simp [DrawnPage.calls, DrawnPage.top, DrawnPage.start]

end Drawn

/-- A page that is started is the last one from then on, after pages that are complete. -/
theorem Canvas.PageStarted.drawn {footer header : List (Call K)} {c d : Canvas K D}
    (h : PageStarted footer header c d) (hd : d.error = none) {pages : List (DrawnPage K)}
    (hcomplete : CompletePages D c.frame pages) (hcount : c.pageCount = pages.length)
    (hhistory : c.history.toList ++ on .footer footer = pages.flatMap DrawnPage.calls) :
    Drawn pages ⟨c.frame.deviceSize, header, [], []⟩ d := by
  have hpages : d.pageCount = c.pageCount + 1 := congrArg Frame.pageCount h.frame
  have hheader := h.header_run hd
  rw [hhistory] at hheader
  refine ⟨hcomplete.of_eq D h.frame, ?_, ?_, by omega, ?_, ?_⟩
  · rw [h.frame]
    rfl
  · rw [h.history, hhistory]
    simp [DrawnPage.top, DrawnPage.start]
  · rw [h.frame]
    exact hheader
  · simpa using h.header_no_page

/-- Drawing continues the last page and may complete it and go on to others. -/
theorem Canvas.Draws.drawn {calls : List (Call K)} {c d : Canvas K D} (h : Draws hook c calls d)
    (hsound : c.frame.Sound) (hd : d.error = none) {pages : List (DrawnPage K)}
    {last : DrawnPage K} (hc : Drawn pages last c) :
    ∃ pages' last', Drawn pages' last' d := by
  induction h with
  | refl => exact ⟨pages, last, hc⟩
  | pen _ _ _ _ _ _ ih =>
      obtain ⟨pages', last', hdrawn⟩ := ih hd
      exact ⟨pages', last', ⟨hdrawn.1, hdrawn.2, hdrawn.3, hdrawn.4, hdrawn.5, hdrawn.6⟩⟩
  | load _ _ ih =>
      obtain ⟨pages', last', hdrawn⟩ := ih hd
      exact ⟨pages', last', ⟨hdrawn.1, hdrawn.2, hdrawn.3, hdrawn.4, hdrawn.5, hdrawn.6⟩⟩
  | mark m hdraws ih =>
      obtain ⟨pages', last', hdrawn⟩ := ih hd
      exact ⟨pages', _, hdrawn.note (hdraws.sound hsound).origin _ nofun⟩
  | image hdraws _ ih =>
      obtain ⟨pages', last', hdrawn⟩ := ih hd
      exact ⟨pages', _, hdrawn.note (hdraws.sound hsound).origin _ nofun⟩
  | @fail _ e failure _ ih =>
      -- there is an error afterwards in any case
      unfold Canvas.fail at hd
      split at hd
      · next he => rw [he] at hd; cases hd
      · cases hd
  | @page _ e hdraws hstart ih =>
      -- the footer makes the last page complete before there is a new one
      have he : e.error = none := (Draws.refl.page hstart).error_eq_none hd
      have hbefore := (hdraws.sound hsound)
      obtain ⟨pages', last', hdrawn⟩ := ih he
      obtain ⟨footer, header, hstarted⟩ := addPage_started hbefore he
      have hfooter := hstarted.footer_run hd
      rw [if_neg (by rw [hdrawn.pageCount]; omega)] at hfooter
      exact ⟨_, _, hstarted.drawn hd (hdrawn.complete_concat hfooter hstarted.footer_no_page)
        (by simp [hdrawn.pageCount]) (hdrawn.history_concat footer)⟩

theorem Canvas.addPage_drawn {c : Canvas K D} (hsound : c.frame.Sound)
    (hd : c.addPage.error = none) (hhistory : c.history = #[]) (hcount : c.pageCount = 0) :
    ∃ last, Drawn [] last c.addPage := by
  have hc : c.error = none := (Draws.refl.page (.inl hcount)).error_eq_none hd
  obtain ⟨footer, header, hstarted⟩ := addPage_started hsound hc
  have hfooter := hstarted.footer_run hd
  rw [if_pos hcount] at hfooter
  exact ⟨_, hstarted.drawn hd nofun hcount (by simp [hhistory, hfooter])⟩

/-- Closing a document completes its last page, and an empty document gets a page to complete. -/
theorem Canvas.close_complete {c : Canvas K D} (hsound : c.frame.Sound)
    (hclose : c.close.error = none)
    (hc : c.history = #[] ∧ c.pageCount = 0 ∨ ∃ pages last, Drawn pages last c) :
    ∃ pages : List (DrawnPage K), c.close.history.toList = pages.flatMap DrawnPage.calls ∧
      pages.length = c.close.pageCount ∧ pages ≠ [] ∧ CompletePages D c.frame pages := by
  obtain ⟨hpaged, he, footer, hfooter⟩ := close_drawn hsound hclose
  have hpages : (hook .footer c.paged).pageCount = c.paged.pageCount :=
    congrArg Frame.pageCount hfooter.frame
  obtain ⟨pages, last, hdrawn⟩ : ∃ pages last, Drawn pages last c.paged := by
    rcases hc with ⟨hhistory, hcount⟩ | ⟨pages, last, hdrawn⟩
    · unfold paged at hpaged ⊢
      rw [if_pos hcount] at hpaged ⊢
      exact ⟨[], addPage_drawn hsound hpaged hhistory hcount⟩
    · have hcount : c.pageCount ≠ 0 := by rw [hdrawn.pageCount]; omega
      unfold paged
      rw [if_neg hcount]
      exact ⟨pages, last, hdrawn⟩
  have hrun := hfooter.run ((paged_draws c).sound hsound) (paged_pageCount hsound hpaged)
    (by decide) he
  have hcomplete := hdrawn.complete_concat hrun hfooter.no_page
  have hframe : c.frame = { c.paged.frame with pageCount := c.pageCount } := by
    rw [(paged_draws c).frame_eq hsound]
    rfl
  rw [close_eq hsound]
  exact ⟨pages ++ [{ last with footer }], hfooter.history.trans (hdrawn.history_concat footer),
    by simp [hpages, hdrawn.pageCount], by simp, hcomplete.of_eq D hframe⟩

end PagedReport
